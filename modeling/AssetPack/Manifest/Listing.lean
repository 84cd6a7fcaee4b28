import AssetPack.Log
import AssetPack.Files.Tree
namespace AssetPack.Manifest

/-! The files under a folder, in the order of their names. -/

abbrev Found := Attempt IoError (List Path)

/-- Looks at the entries of a folder in the order of their names, and stops at the first failure. -/
def visit (dir : Path) (found : List (String × Found)) : Found := do
  if found.isEmpty then
    report .warn .sections s!"Directory {dir.text} has no files to add."
  let ordered := found.mergeSort fun a b => decide (a.1 ≤ b.1)
  let files ← ordered.mapM (·.2)
  return files.flatten

/-- An entry which is listed itself. -/
def file (dir path : Path) : Found := do
  report .trace .sections s!"Found {path.text} in {dir.text}"
  return [path]

/-- What is found below each entry, in the order in which the system lists them. A folder whose
path is too long to be looked at is listed itself. -/
def below (dir : Path) : Folder → List (String × Found)
  | .empty => []
  | .leaf name content rest =>
    let path := dir.join ⟨name⟩
    let found := match content with
      | .sealed reason => if FileTree.isTooLong path then file dir path else throw reason
      | _ => file dir path
    (name, found) :: below dir rest
  | .folder name inner rest =>
    let path := dir.join ⟨name⟩
    let found := if FileTree.isTooLong path then file dir path else visit path (below path inner)
    (name, found) :: below dir rest

/-- The files a path stands for: all below it if it leads to a folder, and otherwise itself. -/
def expand (files : FileTree) (path : Path) : Found :=
  match files.find path with
  | .ok (.folder inner) => visit path (below path inner)
  | .ok (.leaf (.sealed reason)) => throw reason
  | _ => return [path]

end AssetPack.Manifest

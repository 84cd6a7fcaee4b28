import AssetPack.Files.Tree
namespace AssetPack

/-! What differs between two file trees. -/

/-- The files of a folder at any depth, with their places. -/
def Folder.files : Folder → List (Place × Bytes)
  | .empty => []
  | .leaf name (.file bytes) rest => ([name], bytes) :: rest.files
  | .leaf _ _ rest => rest.files
  | .folder name inner rest =>
    inner.files.map (fun (place, bytes) => (name :: place, bytes)) ++ rest.files

/-- The files which are new or have other contents than before. -/
def FileTree.changes (before after : FileTree) : List (Place × Bytes) :=
  after.root.files.filter fun (place, bytes) =>
    before.root.node? place ≠ some (.leaf (.file bytes))

end AssetPack

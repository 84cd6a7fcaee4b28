import AssetPack.Manifest.Outline
import AssetPack.Manifest.Listing
namespace AssetPack

namespace Manifest

/-! The meaning of a manifest: sections, each with the files of one type of assets. -/

/-- `folder` is where the paths at the end of the section start. -/
structure Section where
  type : AssetType
  folder : Path
  assets : List Path
  deriving DecidableEq, Repr

end Manifest

/-- `parent` is the folder the manifest is in. -/
structure Manifest where
  parent : Path
  sections : List Manifest.Section
  deriving DecidableEq, Repr

namespace Manifest

structure Contents where
  folder : Path
  assets : List Path
  errors : Nat
  deriving DecidableEq, Repr

/-- The files of one path, and whether they could not be listed. -/
def resolvePath (files : FileTree) (line : UInt32) (path : Path) : Logged (List Path × Nat) := do
  unless files.isFolder path do
    report .trace .sections s!"Line {line}: {path.text}"
  match ← (expand files path).run with
  | .ok found => return (found, 0)
  | .error reason =>
    report .error .sections
      s!"Line {line}: failed to list the files in {path.text}: {reason.message}"
    return ([], 1)

/-- Every path starts from the folders named before it. -/
def resolve (files : FileTree) (folder : Path) : List Entry → Logged Contents
  | [] => return ⟨folder, [], 0⟩
  | .folder _ fragment :: rest => resolve files (folder.join ⟨fragment⟩) rest
  | .path line text :: rest => do
    let (found, errors) ← resolvePath files line (folder.join ⟨text⟩)
    let contents ← resolve files folder rest
    return ⟨contents.folder, found ++ contents.assets, errors + contents.errors⟩

/-- Entries before the first section are errors. -/
def reportLoose : Entry → Logged Unit
  | .folder line fragment =>
    report .error .sections s!"Line {line}: '$ {fragment}' appears before any section."
  | .path line text =>
    report .error .sections s!"Line {line}: {Text.quote text} appears before any section."

/-- Entries of a section of unknown type are passed over. -/
def reportSkipped : Entry → Logged Unit
  | .folder .. => return
  | .path line text => report .trace .sections s!"Line {line}: skipping {Text.quote text}."

/-- The sections of some blocks, and the number of errors in them. Every section starts from the
folder of the manifest. -/
def readBlocks (files : FileTree) (parent : Path) : List Block → Logged (List Section × Nat)
  | [] => return ([], 0)
  | block :: rest => do
    match typeOfKeyword? block.keyword with
    | some type =>
      report .debug .sections s!"Line {block.line}: starting a {type.label} section."
      let contents ← resolve files parent block.entries
      let (sections, errors) ← readBlocks files parent rest
      return (⟨type, contents.folder, contents.assets⟩ :: sections, contents.errors + errors)
    | none =>
      report .error .sections
        s!"Line {block.line}: unknown asset type {Text.quote block.keyword}, skipping the section."
      block.entries.forM reportSkipped
      let (sections, errors) ← readBlocks files parent rest
      return (sections, errors + 1)

/-- Errors inside sections are counted and reading goes on, to report as many as possible. A word
without its literal ends it at once. -/
def parse (files : FileTree) (parent : Path) (tokens : List Token) :
    Attempt ParseError Manifest := do
  let outline := outline tokens
  outline.loose.forM fun entry => reportLoose entry
  let (sections, errors) ← readBlocks files parent outline.blocks
  match outline.failure with
  | some error => fail .sections s!"Failed to parse manifest: {error.message}" error
  | none =>
    let total := outline.loose.length + errors
    if 0 < total then throw (.grammar total)
    return ⟨parent, sections⟩

end Manifest

end AssetPack

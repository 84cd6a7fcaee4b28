import AssetPack.Manifest.Section
namespace AssetPack.Manifest

/-! Reading a manifest from its file. -/

/-- The extension which the file of a manifest must have. -/
def requiredExtension : String := "frlist"

inductive Error where
  | wrongExtension (path : Path)
  | read (path : Path) (reason : IoError)
  | lex (error : LexError)
  | parse (error : ParseError)
  deriving DecidableEq, Repr

def Error.message : Error → String
  | wrongExtension path => s!"{path.text} is not a .{requiredExtension} file"
  | read path _ => s!"failed to read manifest {path.text}"
  | lex error => error.message
  | parse error => error.message

def Error.source : Error → Option String
  | read _ reason => some reason.message
  | _ => none

/-- Relative paths in the manifest start from the folder of the manifest. -/
def load (files : FileTree) (path : Path) : Attempt Error Manifest := do
  if path.extension ≠ some requiredExtension then
    fail .manifest
      s!"Refusing to load {path.text} as a manifest, only .{requiredExtension} files are supported."
      (.wrongExtension path)
  match files.readText path with
  | .error reason =>
    fail .manifest s!"Failed to read manifest {path.text}: {reason.message}" (.read path reason)
  | .ok source =>
    let tokens ← (tokenize source).adapt .lex
    let manifest ← (parse files (path.parent.getD ⟨""⟩) tokens).adapt .parse
    let assets := (manifest.sections.map (·.assets.length)).foldl (· + ·) 0
    report .debug .manifest <|
      s!"Loaded manifest {path.text} with {manifest.sections.length} sections and " ++
        s!"{assets} assets."
    return manifest

end AssetPack.Manifest

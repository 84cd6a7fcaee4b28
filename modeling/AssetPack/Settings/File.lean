import AssetPack.Log
import AssetPack.Files.Tree
import AssetPack.Settings.Basic
import AssetPack.Settings.Json
namespace AssetPack.Settings

/-! The file of the settings. -/

/-- The version which settings are written in. -/
def version : String := "v1"

def versionKey : String := "settings_file_version"

/-- The value of a member which stands exactly once. -/
def only? (key : String) (members : List (String × Json)) : Option Json :=
  match members.filter (·.1 = key) with
  | [(_, value)] => some value
  | _ => none

def path? : Json → Option Path
  | .text text => some ⟨text⟩
  | _ => none

/-- An entry is an object, or a list of both paths. -/
def entry? : Json → Option BuildEntry
  | .object members => do
    return ⟨← path? (← only? "manifest" members), ← path? (← only? "output" members)⟩
  | .list [manifest, output] => do return ⟨← path? manifest, ← path? output⟩
  | _ => none

def builds? : Json → Option Settings
  | .list items => do return ⟨← items.mapM entry?⟩
  | _ => none

/-- Settings are an object, or a list of the version and the builds. -/
def ofJson? : Json → Option Settings
  | .object members => do
    match ← only? versionKey members with
    | .text text => if text = version then builds? (← only? "builds" members) else none
    | _ => none
  | .list [.text text, builds] => if text = version then builds? builds else none
  | _ => none

def parse? (text : String) : Option Settings := Json.parse? text >>= ofJson?

def renderEntry (entry : BuildEntry) : String :=
  "    \x7b\n      \"manifest\": " ++ Json.quote entry.manifest.text ++ ",\n      \"output\": " ++
    Json.quote entry.output.text ++ "\n    \x7d"

def renderBuilds (builds : List BuildEntry) : String :=
  if builds.isEmpty then "[]"
  else "[\n" ++ ",\n".intercalate (builds.map renderEntry) ++ "\n  ]"

/-- The text of the settings, with a line for each path. -/
def render (settings : Settings) : String :=
  "\x7b\n  " ++ Json.quote versionKey ++ ": " ++ Json.quote version ++ ",\n  \"builds\": " ++
    renderBuilds settings.builds ++ "\n\x7d"

inductive Error where
  | unreadable (reason : IoError)
  | malformed
  | unwritable (reason : IoError)
  deriving DecidableEq, Repr

def Error.message : Error → String
  | unreadable _ => "Failed to open the import settings file"
  | malformed => "Failed to parse the import settings file"
  | unwritable _ => "Failed to write the import settings file"

/-- How settings are kept as text. -/
structure Format where
  render : Settings → String
  parse? : String → Option Settings

namespace Format

/-- Without a file there are no builds yet. -/
def read (format : Format) (files : FileTree) (path : Path) : Attempt Error Settings := do
  if files.isPresent path then
    match files.readText path with
    | .error reason => throw (.unreadable reason)
    | .ok text =>
      match format.parse? text with
      | some settings => return settings
      | none => throw .malformed
  else
    report .debug .settings s!"No import settings file at {path.text}, starting from scratch."
    return .empty

def write (format : Format) (files : FileTree) (path : Path) (settings : Settings) :
    Except Error FileTree :=
  match files.write path (Bytes.ofText (format.render settings)) with
  | .ok files => .ok files
  | .error reason => .error (.unwritable reason)

end Format

def json : Format := ⟨render, parse?⟩

def read (files : FileTree) (path : Path) : Attempt Error Settings := json.read files path

def write (files : FileTree) (path : Path) (settings : Settings) : Except Error FileTree :=
  json.write files path settings

end AssetPack.Settings

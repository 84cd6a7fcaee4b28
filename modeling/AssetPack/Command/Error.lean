import AssetPack.Package.Build
import AssetPack.Package.Read
import AssetPack.Settings.File
namespace AssetPack.Command

/-! Failures of the commands. -/

inductive Error where
  | build (entry : BuildEntry) (error : Package.BuildError)
  | inspect (path : Path) (error : Package.Error)
  | settings (error : Settings.Error)
  deriving DecidableEq, Repr

def Error.message : Error → String
  | build entry _ => s!"Failed to build {entry.output.text} from {entry.manifest.text}"
  | inspect path _ => s!"Failed to inspect {path.text}"
  | settings error => error.message

/-- The text of the cause, for errors which have one in words of this program. -/
def Error.source : Error → Option String
  | build _ error => some error.message
  | inspect _ error => some error.message
  | settings _ => none

end AssetPack.Command

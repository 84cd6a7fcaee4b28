import AssetPack.Command.Error
import AssetPack.Command.Parts
namespace AssetPack.Command

/-! Commands which build packages out of source files. -/

/-- A command changes files, leaves messages and may fail. A failure keeps the files as they are
then. -/
abbrev Tool := ExceptT Error (StateT FileTree Logged)

namespace Parts

def runBuild (parts : Parts) (entry : BuildEntry) : Tool Unit := do
  let outcome ← (Package.build parts.loaders entry.manifest entry.output (← get) : Logged _)
  set outcome.files
  match outcome.result with
  | .ok _ => return
  | .error error => throw (.build entry error)

/-- Makes every build of the settings again, up to the first failure. -/
def rebuild (parts : Parts) (settings : Settings) : Tool Unit := do
  if settings.builds.isEmpty then
    report .warn .tool "The import settings file doesn't have any builds to repeat."
  settings.builds.forM fun entry => do
    report .info .tool s!"Rebuilding {entry.output.text}."
    parts.runBuild entry

end Parts

def rebuild (settings : Settings) : Tool Unit := Parts.standard.rebuild settings

end AssetPack.Command

import AssetPack.Command.Inspect
import AssetPack.Command.Rebuild
import AssetPack.Text.Terminal
namespace AssetPack.Command

/-! A run of the program. -/

inductive Ending where
  | success
  | failure (error : Error)
  | refusal (refusal : Refusal)
  deriving DecidableEq, Repr

def Ending.code : Ending → UInt32
  | success => 0
  | failure _ => 1
  | refusal .help => 0
  | refusal .usage => 1

/-- A build which succeeded is remembered. -/
def Parts.perform (parts : Parts) (settingsPath : Path) : Task → Tool Unit
  | .build entry => do
    parts.runBuild entry
    let files ← get
    let settings ← ((parts.format.read files settingsPath).adapt Error.settings).run
    match settings.bind fun settings =>
        (parts.format.write files settingsPath (settings.record entry)).mapError
          Error.settings with
    | .ok files => set files
    | .error error => throw error
  | .inspect package => do
    match ← (inspect (← get) package).run with
    | .ok _ => return
    | .error error => throw error
  | .rebuild => do
    match ← ((parts.format.read (← get) settingsPath).adapt Error.settings).run with
    | .ok settings => parts.rebuild settings
    | .error error => throw error

/-- A finished run, with the messages it shows and the files after it. -/
structure Run where
  ending : Ending
  log : List Message
  files : FileTree

/-- The messages which the verbosity shows, as they are shown. -/
def shown (verbosity : Nat) (log : List Message) : List Message :=
  (log.filter (·.level.verbosity ≤ verbosity)).map fun message =>
    { message with text := Text.forTerminal message.text }

def Parts.run (parts : Parts) (files : FileTree) (arguments : List String) : Run :=
  match parts.options arguments with
  | .error refusal => ⟨.refusal refusal, [], files⟩
  | .ok options =>
    let ⟨log, result, files⟩ := ((parts.perform options.settings options.task).run).run files
    let ending := match result with
      | .ok _ => .success
      | .error error => .failure error
    ⟨ending, shown options.verbosity log, files⟩

def run (files : FileTree) (arguments : List String) : Run := Parts.standard.run files arguments

end AssetPack.Command

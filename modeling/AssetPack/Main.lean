import AssetPack.Command.Run
import AssetPack.Files.Change
namespace AssetPack.Main

/-! The program: it takes the files below the current folder, runs, and writes what changed. -/

/-- The entry as it is on disk. Entries which are neither files nor folders are left out. -/
partial def readEntry (entry : IO.FS.DirEntry) : IO (Option Node) := do
  if ← entry.path.isDir then
    let mut inner := Folder.empty
    for other in ← entry.path.readDir do
      if let some node ← readEntry other then
        inner := inner.cons other.fileName node
    return some (.folder inner)
  else if (← entry.path.metadata).type == .file then
    return some (.leaf (.file (← IO.FS.readBinFile entry.path).data.toList))
  else return none

/-- The tree of the current folder, with the device which is always full. -/
def readTree : IO FileTree := do
  let here ← IO.currentDir
  let place : Place := here.components.filter (! ·.isEmpty)
  let mut inner := Folder.empty
  for entry in ← here.readDir do
    if let some node ← readEntry entry then
      inner := inner.cons entry.fileName node
  let root := (Folder.empty.put (.leaf .full) ["dev", "full"]).put (.folder inner) place
  return ⟨root, place⟩

def writeChanges (before after : FileTree) : IO Unit := do
  for (place, bytes) in before.changes after do
    IO.FS.writeBinFile ("/" ++ "/".intercalate place) ⟨bytes.toArray⟩

def usage : String :=
  "Builds asset packages out of .frlist manifests, and inspects them.\n\n" ++
    "Usage: [-v]... [-q]... [--settings=FILE] COMMAND\n\n" ++
    "  build -m FILE -o FILE   build a package and remember the build\n" ++
    "  inspect -p FILE         list the assets in a package\n" ++
    "  rebuild                 build every remembered package again"

def printEnding : Command.Ending → IO Unit
  | .success => pure ()
  | .failure error => do
    IO.eprintln s!"Error: {error.message}"
    if let some source := error.source then
      IO.eprintln s!"\nCaused by:\n    {source}"
  | .refusal .help => IO.println usage
  | .refusal .usage => IO.eprintln usage

end AssetPack.Main

def main (arguments : List String) : IO UInt32 := do
  let files ← AssetPack.Main.readTree
  let run := AssetPack.Command.run files arguments
  AssetPack.Main.writeChanges files run.files
  for message in run.log do
    IO.eprintln s!"{message.level.label} {message.origin.label}: {message.text}"
  AssetPack.Main.printEnding run.ending
  return run.ending.code

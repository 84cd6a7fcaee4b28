import AssetPack.Package.Build
import AssetPack.Store.Naming
namespace AssetPack.Store

/-! Packages and the store: adding the assets of one to a group, and building one. -/

def resourceOf : PackagedAsset → Resource
  | .texture texture => .texture texture
  | .shader shader => .shader shader
  | .audio audio => .audioBuffer audio

/-- Adds the records of a package in their order, up to the first failure. -/
def addRecords (backend : Backend) (id : GroupId) : List Package.Record → StoreAttempt Unit
  | [] => return
  | record :: rest => do
    let asset ← push backend id (resourceOf record.asset)
    nameAsset asset record.name
    addRecords backend id rest

/-- Adds the assets of a package to a group, and gives their number. -/
def loadPackage (backend : Backend) (files : FileTree) (id : GroupId) (path : Path) :
    StoreAttempt Nat := do
  let _ ← findGroup id
  let records : List Package.Record ←
    match ← ((Package.readFrom files path).run : Logged _) with
    | .ok records => pure records
    | .error error => throw (.package error)
  addRecords backend id records
  report .info .store s!"Loaded {records.length} assets from {path.text} into group {id.label}."
  return records.length

/-- Builds a package for a group to load later, which need not exist. -/
def buildPackage (loaders : Package.Loaders) (files : FileTree) (id : GroupId)
    (manifest output : Path) : Logged (Bool × Package.Outcome) := do
  let outcome ← Package.build loaders manifest output files
  match outcome.result with
  | .ok summary =>
    report .debug .store <|
      s!"Built package {output.text} for group {id.label} with " ++
        s!"{summary.totalWritten} assets."
    return (true, outcome)
  | .error error =>
    report .error .store <|
      s!"Failed to build package {output.text} from {manifest.text} for group {id.label}: " ++
        error.message
    return (false, outcome)

end AssetPack.Store

import AssetPack.Manifest.Load
import AssetPack.Package.Loader
namespace AssetPack.Package

/-! Building a package out of the assets which a manifest lists. -/

inductive WriteFault where
  | io (reason : IoError)
  | tooManyAssets
  deriving DecidableEq, Repr

def WriteFault.message : WriteFault → String
  | io reason => reason.message
  | tooManyAssets => "too many assets in one section"

inductive BuildError where
  | manifest (error : Manifest.Error)
  | createOutput (path : Path) (reason : IoError)
  | write (path : Path) (fault : WriteFault)
  | load (path : Path) (reason : LoadError)
  | invalidTexture (path : Path) (expected actual : Nat)
  deriving DecidableEq, Repr

def BuildError.message : BuildError → String
  | manifest error => error.message
  | createOutput path _ => s!"failed to create package file {path.text}"
  | write path _ => s!"failed to write package file {path.text}"
  | load path _ => s!"failed to load asset {path.text}"
  | invalidTexture path expected actual =>
    s!"texture {path.text} has {actual} bytes of pixels, its dimensions need {expected}"

def BuildError.source : BuildError → Option String
  | manifest error => error.source
  | createOutput _ reason => some reason.message
  | write _ fault => some fault.message
  | load _ reason => some reason.message
  | invalidTexture .. => none

/-- A number for each type of assets. -/
abbrev Counts := AssetType → UInt32

def Counts.zero : Counts := fun _ => 0

def Counts.add (counts : Counts) (type : AssetType) (n : UInt32) : Counts :=
  fun other => if other = type then counts other + n else counts other

/-- `skipped` counts the assets of sections which are not packaged. -/
structure Summary where
  written : Counts
  skipped : Counts

namespace Summary

def empty : Summary := ⟨.zero, .zero⟩

def totalWritten (summary : Summary) : UInt32 := (AssetType.all.map summary.written).foldl (· + ·) 0

end Summary

structure Target where
  path : Path
  sink : Sink
  deriving DecidableEq, Repr

/-- The state of a build: the files, the bytes which wait to be written, and the calls of loaders
so far. -/
structure Progress where
  files : FileTree
  pending : Bytes
  loads : List Load
  deriving DecidableEq, Repr

namespace Progress

def capacity : Nat := 8192

def note (call : Load) (progress : Progress) : Progress :=
  { progress with loads := progress.loads ++ [call] }

def flush (sink : Sink) (progress : Progress) : Except IoError Progress := do
  return { progress with files := ← progress.files.append progress.pending sink, pending := [] }

/-- Accepts bytes. They wait while there is room, and more than fit at all are written at once. -/
def push (sink : Sink) (bytes : Bytes) (progress : Progress) : Except IoError Progress := do
  let room := capacity - progress.pending.length
  if bytes.length < room then return { progress with pending := progress.pending ++ bytes }
  let progress ← if room < bytes.length then progress.flush sink else pure progress
  if capacity ≤ bytes.length then
    return { progress with files := ← progress.files.append bytes sink }
  return { progress with pending := progress.pending ++ bytes }

/-- The files after the package file is closed. Waiting bytes which can not be written are lost. -/
def close (sink : Sink) (progress : Progress) : FileTree :=
  match progress.files.append progress.pending sink with
  | .ok files => files
  | .error _ => progress.files

end Progress

/-- Failures keep the state they happened in. -/
abbrev Builder := ExceptT BuildError (StateT Progress Logged)

namespace Builder

variable {α : Type}

def refuse (error : BuildError) : Builder α := do
  report .error .package s!"Failed to build package: {error.message}"
  throw error

def failWrite (target : Target) (fault : WriteFault) : Builder α := do
  report .error .package
    s!"Failed to write package file {target.path.text}: {fault.message}"
  throw (.write target.path fault)

/-- Changes the state, or fails to write. -/
def update (target : Target) (change : Progress → Except IoError Progress) : Builder Unit := do
  match change (← get) with
  | .ok progress => set progress
  | .error reason => failWrite target (.io reason)

def write (target : Target) (bytes : Bytes) : Builder Unit :=
  update target (·.push target.sink bytes)

def flush (target : Target) : Builder Unit := update target (·.flush target.sink)

/-- Calls a loader and takes note of the call. -/
def load (kind : LoadKind) (loader : Loader α) (path : Path) : Builder α := do
  let progress ← get
  set (progress.note ⟨kind, path⟩)
  match ← (loader progress.loads progress.files path).run with
  | .ok asset => return asset
  | .error reason => refuse (.load path reason)

/-- A texture must have as many bytes of pixels as its dimensions ask for. -/
def loadTexture (loader : Loader Texture) (path : Path) : Builder Texture := do
  let texture ← load .texture loader path
  if texture.pixels.length ≠ texture.pixelDataSize.toNat then
    refuse (.invalidTexture path texture.pixelDataSize.toNat texture.pixels.length)
  return texture

def writeRecords [Packed α] (target : Target) (type : AssetType) (load : Path → Builder α) :
    List Path → Builder Unit
  | [] => return
  | path :: rest => do
    let asset ← load path
    let name := path.fileName.getD ""
    report .trace .package s!"Writing {type.label} {name} from {path.text}."
    write target (Packed.encode (⟨name, asset⟩ : Named α))
    writeRecords target type load rest

/-- Writes a run of records. Their number stands in front, as every failure ends the build. -/
def writeRun [Packed α] (target : Target) (type : AssetType) (load : Path → Builder α)
    (paths : List Path) : Builder UInt32 := do
  if UInt32.size ≤ paths.length then failWrite target .tooManyAssets
  let count := UInt32.ofNat paths.length
  write target (Packed.encode (⟨type, count⟩ : RunHeader))
  writeRecords target type load paths
  return count

def writeSection (loaders : Loaders) (target : Target) (summary : Summary)
    (listed : Manifest.Section) : Builder Summary := do
  if listed.assets.isEmpty then
    report .debug .package s!"Skipping an empty {listed.type.label} section."
    return summary
  let written (count : UInt32) : Summary :=
    { summary with written := summary.written.add listed.type count }
  match listed.type with
  | .texture =>
    return written (← writeRun target .texture (loadTexture loaders.texture) listed.assets)
  | .shader =>
    return written (← writeRun target .shader (load .shader loaders.shader) listed.assets)
  | .audioBuffer =>
    return written (← writeRun target .audioBuffer (load .audio loaders.audio) listed.assets)
  | type =>
    report .warn .package <|
      s!"Skipping {listed.assets.length} assets in a {type.label} section, " ++
        s!"{type.label} assets can't be packaged."
    let count := UInt32.ofNat listed.assets.length
    return { summary with skipped := summary.skipped.add type count }

def writePackage (loaders : Loaders) (target : Target) (sections : List Manifest.Section) :
    Builder Summary := do
  write target [formatVersion]
  let summary ← sections.foldlM (writeSection loaders target) .empty
  flush target
  report .info .package <|
    s!"Wrote {summary.totalWritten} assets into {target.path.text}: " ++
      s!"{summary.written .texture} textures, {summary.written .shader} shaders, " ++
      s!"{summary.written .audioBuffer} audio buffers."
  return summary

end Builder

/-- What a build comes to, with the files and the calls of loaders after it. -/
structure Outcome where
  result : Except BuildError Summary
  files : FileTree
  loads : List Load

/-- Builds the package of a manifest. After a failure the output is of no use. -/
def build (loaders : Loaders) (manifest output : Path) (files : FileTree) : Logged Outcome := do
  match ← (Manifest.load files manifest).run with
  | .error error => return ⟨.error (.manifest error), files, []⟩
  | .ok listed =>
    match files.create output with
    | .error reason =>
      report .error .package
        s!"Failed to create package file {output.text}: {reason.message}"
      return ⟨.error (.createOutput output reason), files, []⟩
    | .ok (emptied, sink) =>
      let (result, progress) ←
        ((Builder.writePackage loaders ⟨output, sink⟩ listed.sections).run).run ⟨emptied, [], []⟩
      return ⟨result, progress.close sink, progress.loads⟩

end AssetPack.Package

import AssetPack.Asset.Shader
import AssetPack.Text.Blank
import AssetPack.Text.Quoted
namespace AssetPack.Import

/-! Shader files, in which marker lines start the source of each stage. -/

inductive Stage where
  | vertex | pixel | compute
  deriving DecidableEq, Repr

def Stage.spelling : Stage → String
  | vertex => "Vertex"
  | pixel => "Pixel"
  | compute => "Compute"

/-- Pixel stages have two names. -/
def Stage.ofName? (name : String) : Option Stage :=
  [("vertex", vertex), ("pixel", pixel), ("fragment", pixel), ("compute", compute)].lookup name

def marker : String := "#shader"

def stageName? (line : List Char) : Option (List Char) :=
  (Text.after? marker.toList (Text.trim line)).map Text.trim

inductive StageError where
  | unknownStage (line : Nat) (name : String)
  | repeatedStage (line : Nat) (stage : Stage)
  | sourceBeforeStages (line : Nat)
  | noStages | mixedStages | vertexAlone | pixelAlone
  deriving DecidableEq, Repr

def StageError.message : StageError → String
  | unknownStage line name => s!"Line {line}: unknown shader stage {Text.quote name}"
  | repeatedStage line stage => s!"Line {line}: the {stage.spelling} stage appears twice"
  | sourceBeforeStages line => s!"Line {line}: source code before the first {marker} line"
  | noStages => s!"No {marker} lines found"
  | mixedStages => "Compute shaders can't have vertex or pixel stages"
  | vertexAlone => "Vertex stage without a pixel stage"
  | pixelAlone => "Pixel stage without a vertex stage"

/-- A marker, with its line number and the lines up to the next one. -/
structure Chapter where
  line : Nat
  name : List Char
  body : List (List Char)
  deriving DecidableEq, Repr

/-- The lines before the first marker, and the chapters. The first line has the given number. -/
def chapters (number : Nat) : List (List Char) → List (List Char) × List Chapter
  | [] => ([], [])
  | line :: rest =>
    let (body, later) := chapters (number + 1) rest
    match stageName? line with
    | some name => ([], ⟨number, name, body⟩ :: later)
    | none => (line :: body, later)

/-- Source code ends each of its lines with a line feed. -/
def Chapter.source (chapter : Chapter) : String :=
  String.ofList (chapter.body.flatMap (· ++ ['\n']))

/-- The stages of the chapters, each of which may appear once. -/
def assign (seen : List Stage) : List Chapter → Except StageError (List (Stage × String))
  | [] => .ok []
  | chapter :: rest =>
    let name := String.ofList chapter.name
    match Stage.ofName? name with
    | none => .error (.unknownStage chapter.line name)
    | some stage =>
      if stage ∈ seen then .error (.repeatedStage chapter.line stage)
      else do
        let later ← assign (stage :: seen) rest
        return (stage, chapter.source) :: later

/-- A shader has a vertex and a pixel stage, or a compute stage alone. -/
def combine (sources : List (Stage × String)) : Except StageError Shader :=
  match sources.lookup .vertex, sources.lookup .pixel, sources.lookup .compute with
  | some vertex, some pixel, none => .ok (.graphics vertex pixel)
  | none, none, some compute => .ok (.compute compute)
  | none, none, none => .error .noStages
  | _, _, some _ => .error .mixedStages
  | some _, none, none => .error .vertexAlone
  | none, some _, none => .error .pixelAlone

def splitStages (source : String) : Except StageError Shader := do
  let (before, found) := chapters 1 (Text.lines source.toList)
  match before.findIdx? fun line => ! (Text.trim line).isEmpty with
  | some i => .error (.sourceBeforeStages (i + 1))
  | none => combine (← assign [] found)

end AssetPack.Import

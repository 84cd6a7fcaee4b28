import AssetPack.Package.Read
namespace AssetPack.Package

/-! Packages as lists of runs, and the bytes they are written as. -/

def isPackaged (type : AssetType) : Bool :=
  type = .texture ∨ type = .shader ∨ type = .audioBuffer

/-- Whether an item can stand in a run of the type. -/
def Item.Fits (type : AssetType) : Item → Prop
  | .record named => named.asset.type = type
  | .skipped other _ => other = type ∧ isPackaged type = false

instance (type : AssetType) (item : Item) : Decidable (item.Fits type) := by
  cases item <;> (unfold Item.Fits; infer_instance)

def Item.encode : Item → Bytes
  | .record ⟨name, .texture texture⟩ => Packed.encode (⟨name, texture⟩ : Named Texture)
  | .record ⟨name, .shader shader⟩ => Packed.encode (⟨name, shader⟩ : Named Shader)
  | .record ⟨name, .audio audio⟩ => Packed.encode (⟨name, audio⟩ : Named AudioBuffer)
  | .skipped _ named => Packed.encode named

/-- Records of one type. A run may be empty. -/
structure Run where
  type : AssetType
  items : List Item
  type_ne_invalid : type ≠ .invalid := by decide
  fits : ∀ item ∈ items, item.Fits type := by decide

namespace Run

def header (run : Run) : RunHeader := ⟨run.type, UInt32.ofNat run.items.length⟩

def encode (run : Run) : Bytes := Packed.encode run.header ++ run.items.flatMap Item.encode

/-- The parts which a reader finds in the bytes of the run. -/
def parts (run : Run) : List Part := .header run.header :: run.items.map .item

end Run

def encode (runs : List Run) : Bytes := formatVersion :: runs.flatMap Run.encode

end AssetPack.Package

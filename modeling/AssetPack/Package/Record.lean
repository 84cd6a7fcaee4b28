import AssetPack.Asset.Type
import AssetPack.Package.Packed
namespace AssetPack

/-! Runs of named records, which packages are made of. -/

namespace Package

def formatVersion : UInt8 := 1

/-- The start of a run: the type of its records and their number. -/
structure RunHeader where
  type : AssetType
  count : UInt32
  deriving DecidableEq, Repr

instance : Packed RunHeader where
  size _ := 5
  encode header := [header.type.tag] ++ Bytes.ofWord header.count
  decode := do
    let type ← Decoder.tagged AssetType.ofTag? .invalidAssetType
    return ⟨type, ← Decoder.word⟩

/-- Something with the name it is found by. -/
structure Named (α : Type) where
  name : String
  asset : α
  deriving DecidableEq, Repr

def Named.map {α β : Type} (f : α → β) (named : Named α) : Named β := ⟨named.name, f named.asset⟩

/-- The name, then the size of the descriptor and the descriptor itself. -/
instance {α : Type} [Packed α] : Packed (Named α) where
  size named := Packed.size named.name + (4 + Packed.size named.asset)
  encode named :=
    Packed.encode named.name ++ lengthWord (Packed.size named.asset) ++ Packed.encode named.asset
  decode := do
    let name ← Decoder.text
    let bytes ← Decoder.counted
    return ⟨name, ← Decoder.whole Packed.decode bytes⟩

end Package

/-- The assets a package can hold. -/
inductive PackagedAsset where
  | texture (texture : Texture)
  | shader (shader : Shader)
  | audio (audio : AudioBuffer)
  deriving DecidableEq, Repr

def PackagedAsset.type : PackagedAsset → AssetType
  | texture _ => .texture
  | shader _ => .shader
  | audio _ => .audioBuffer

namespace Package

/-- An asset and its name, which is the name of the file it was made from. -/
abbrev Record := Named PackagedAsset

/-- A record of a run. The types which are not packaged keep their descriptors unread. -/
inductive Item where
  | record (record : Record)
  | skipped (type : AssetType) (record : Named Opaque)
  deriving DecidableEq, Repr

def decodeItem : AssetType → Decoder Item
  | .texture =>
    (fun named => .record (named.map .texture)) <$> (Packed.decode : Decoder (Named Texture))
  | .shader =>
    (fun named => .record (named.map .shader)) <$> (Packed.decode : Decoder (Named Shader))
  | .audioBuffer =>
    (fun named => .record (named.map .audio)) <$> (Packed.decode : Decoder (Named AudioBuffer))
  | type => .skipped type <$> (Packed.decode : Decoder (Named Opaque))

theorem takesAtLeast_named {α : Type} [Packed α] :
    (Packed.decode : Decoder (Named α)).TakesAtLeast 8 :=
  Decoder.takesAtLeast_text.bind fun _ => Decoder.takesAtLeast_counted.bind fun _ =>
    (Decoder.takesAtLeast_lift _).bind fun _ => Decoder.takesAtLeast_pure _

theorem takesAtLeast_header : (Packed.decode : Decoder RunHeader).TakesAtLeast 5 :=
  (Decoder.takesAtLeast_tagged _ _).bind fun _ => Decoder.takesAtLeast_word.bind fun _ =>
    Decoder.takesAtLeast_pure _

theorem takesAtLeast_item (type : AssetType) : (decodeItem type).TakesAtLeast 8 := by
  cases type <;> exact takesAtLeast_named.map _

end Package

end AssetPack

namespace AssetPack

/-! The types of assets. -/

/-- `invalid` is no type an asset can have. It marks handles which refer to nothing. -/
inductive AssetType where
  | buffer | texture | shader | shaderContext | animation | font | audioBuffer | invalid
  deriving DecidableEq, Repr

namespace AssetType

/-- The types an asset can have, in the order of their tags. -/
def all : List AssetType :=
  [buffer, texture, shader, shaderContext, animation, font, audioBuffer]

/-- The byte which stands for the type in packages. -/
def tag : AssetType → UInt8
  | buffer => 0
  | texture => 1
  | shader => 2
  | shaderContext => 3
  | animation => 4
  | font => 5
  | audioBuffer => 6
  | invalid => 0xff

/-- The type with the given tag. No byte stands for `invalid`. -/
def ofTag? (tag : UInt8) : Option AssetType := all[tag.toNat]?

/-- The type as messages name it. -/
def label : AssetType → String
  | buffer => "buffer"
  | texture => "texture"
  | shader => "shader"
  | shaderContext => "shader context"
  | animation => "animation"
  | font => "font"
  | audioBuffer => "audio buffer"
  | invalid => "invalid"

/-- The type as handles spell it. -/
def spelling : AssetType → String
  | buffer => "Buffer"
  | texture => "Texture"
  | shader => "Shader"
  | shaderContext => "ShaderContext"
  | animation => "Animation"
  | font => "Font"
  | audioBuffer => "AudioBuffer"
  | invalid => "Invalid"

theorem ofTag?_tag {type : AssetType} (h : type ≠ invalid) : ofTag? type.tag = some type := by
  cases type <;> first | rfl | contradiction

theorem mem_all {type : AssetType} : type ∈ all ↔ type ≠ invalid := by
  cases type <;> decide

end AssetType

end AssetPack

import AssetPack.Bytes
namespace AssetPack

/-! Textures and the layouts of their pixels. -/

inductive PixelFormat where
  | rgba | rgb | r
  deriving DecidableEq, Repr

namespace PixelFormat

def bytesPerPixel : PixelFormat → Nat
  | rgba => 4
  | rgb => 3
  | r => 1

def tag : PixelFormat → UInt8
  | rgba => 0
  | rgb => 1
  | r => 2

def ofTag? (tag : UInt8) : Option PixelFormat := [rgba, rgb, r][tag.toNat]?

def spelling : PixelFormat → String
  | rgba => "Rgba"
  | rgb => "Rgb"
  | r => "R"

@[simp] theorem ofTag?_tag (format : PixelFormat) : ofTag? format.tag = some format := by
  cases format <;> rfl

end PixelFormat

/-- Pixels are packed row by row from the top left. -/
structure Texture where
  width : UInt32
  height : UInt32
  format : PixelFormat
  pixels : Bytes
  deriving DecidableEq, Repr

namespace Texture

def pixelBytes (width height : UInt32) (format : PixelFormat) : Nat :=
  width.toNat * height.toNat * format.bytesPerPixel

/-- The number of bytes the pixels should take up, in a word of 64 bits. -/
def pixelDataSize (texture : Texture) : UInt64 :=
  texture.width.toUInt64 * texture.height.toUInt64 * UInt64.ofNat texture.format.bytesPerPixel

theorem toNat_pixelDataSize (texture : Texture) :
    texture.pixelDataSize.toNat =
      pixelBytes texture.width texture.height texture.format % UInt64.size := by
  simp [pixelDataSize, pixelBytes, UInt64.toNat_mul, Nat.mul_mod]

end Texture

end AssetPack

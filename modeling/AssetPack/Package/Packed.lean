import AssetPack.Asset.Texture
import AssetPack.Asset.Shader
import AssetPack.Asset.Audio
import AssetPack.Package.Decoder
namespace AssetPack.Package

/-! The forms of descriptors in packages. -/

/-- A type with a form in packages. `size` is the number of bytes which `encode` gives. -/
class Packed (α : Type) where
  size : α → Nat
  encode : α → Bytes
  decode : Decoder α

/-- The word in front of something with the given number of bytes. -/
def lengthWord (size : Nat) : Bytes := Bytes.ofWord (UInt32.ofNat size)

instance : Packed UInt8 where
  size _ := 1
  encode b := [b]
  decode := Decoder.byte

instance : Packed UInt32 where
  size _ := 4
  encode := Bytes.ofWord
  decode := Decoder.word

instance : Packed Bytes where
  size bytes := 4 + bytes.length
  encode bytes := lengthWord bytes.length ++ bytes
  decode := Decoder.counted

instance : Packed String where
  size text := 4 + text.utf8ByteSize
  encode text := lengthWord text.utf8ByteSize ++ Bytes.ofText text
  decode := Decoder.text

/-- The number of pixels follows from the width, the height and the format. -/
instance : Packed Texture where
  size texture := 9 + texture.pixels.length
  encode texture :=
    Bytes.ofWord texture.width ++ Bytes.ofWord texture.height ++ [texture.format.tag] ++
      texture.pixels
  decode := do
    let width ← Decoder.word
    let height ← Decoder.word
    let format ← Decoder.tagged PixelFormat.ofTag? .invalidPixelFormat
    return ⟨width, height, format, ← Decoder.take (Texture.pixelBytes width height format)⟩

/-- The byte in front of the sources of a shader. -/
def shaderKind : Shader → UInt8
  | .graphics .. => 0
  | .compute .. => 1

instance : Packed Shader where
  size
    | .graphics vertex pixel => 1 + (Packed.size vertex + Packed.size pixel)
    | .compute source => 1 + Packed.size source
  encode
    | shader@(.graphics vertex pixel) =>
      [shaderKind shader] ++ Packed.encode vertex ++ Packed.encode pixel
    | shader@(.compute source) => [shaderKind shader] ++ Packed.encode source
  decode := do
    let kind ← Decoder.byte
    if kind = 0 then return .graphics (← Decoder.text) (← Decoder.text)
    else if kind = 1 then return .compute (← Decoder.text)
    else throw (.invalidShaderKind kind)

/-- The number of bytes of samples stands in front of the sample rate. -/
instance : Packed AudioBuffer where
  size audio := 10 + audio.pcm.length
  encode audio :=
    [audio.format.tag, audio.channels] ++ lengthWord audio.pcm.length ++
      Bytes.ofWord audio.sampleRate ++ audio.pcm
  decode := do
    let format ← Decoder.tagged AudioFormat.ofTag? .invalidAudioFormat
    let channels ← Decoder.byte
    let size ← Decoder.word
    let sampleRate ← Decoder.word
    return ⟨format, channels, sampleRate, ← Decoder.take size.toNat⟩

/-- A descriptor which is carried along without a look at it. -/
structure Opaque where
  bytes : Bytes
  deriving DecidableEq, Repr

instance : Packed Opaque where
  size descriptor := descriptor.bytes.length
  encode descriptor := descriptor.bytes
  decode := fun bytes => .ok (⟨bytes⟩, [])

end AssetPack.Package

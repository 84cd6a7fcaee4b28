import AssetPack.Bytes
namespace AssetPack

/-! Sounds as interleaved samples. -/

/-- Unsigned bytes, signed 16-bit words, or 32-bit floating point words. -/
inductive AudioFormat where
  | u8 | s16 | f32
  deriving DecidableEq, Repr

namespace AudioFormat

def bytesPerSample : AudioFormat → Nat
  | u8 => 1
  | s16 => 2
  | f32 => 4

def tag : AudioFormat → UInt8
  | u8 => 0
  | s16 => 1
  | f32 => 2

def ofTag? (tag : UInt8) : Option AudioFormat := [u8, s16, f32][tag.toNat]?

def spelling : AudioFormat → String
  | u8 => "U8"
  | s16 => "S16"
  | f32 => "F32"

@[simp] theorem ofTag?_tag (format : AudioFormat) : ofTag? format.tag = some format := by
  cases format <;> rfl

end AudioFormat

/-- `sampleRate` counts the samples of each channel in a second. -/
structure AudioBuffer where
  format : AudioFormat
  channels : UInt8
  sampleRate : UInt32
  pcm : Bytes
  deriving DecidableEq, Repr

namespace AudioBuffer

def ofSamples (channels : UInt8) (sampleRate : UInt32) (samples : List Int16) : AudioBuffer :=
  ⟨.s16, channels, sampleRate, samples.flatMap Bytes.ofSample⟩

/-- The number of whole frames, one sample for each channel. Without channels it counts samples. -/
def frames (audio : AudioBuffer) : Nat :=
  audio.pcm.length / (audio.format.bytesPerSample * max audio.channels.toNat 1)

end AudioBuffer

end AssetPack

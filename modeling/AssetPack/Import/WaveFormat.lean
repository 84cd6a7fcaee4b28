import AssetPack.Import.Chunk
namespace AssetPack.Import

/-! The layout of plain samples in a sound file. -/

/-- The speakers of the channels, by their numbers, and the layout of the samples. Blocks are the
units in which data is taken from the file. -/
structure WaveFormat where
  speakers : List Nat
  sampleRate : UInt32
  blockSize : Nat
  bytesPerSample : Nat
  deriving DecidableEq, Repr

namespace WaveFormat

def channels (format : WaveFormat) : Nat := format.speakers.length

/-- The speakers which have a number. -/
def speakerNames : List String :=
  ["FRONT_LEFT", "FRONT_RIGHT", "FRONT_CENTRE", "LFE1", "REAR_LEFT", "REAR_RIGHT",
    "FRONT_LEFT_CENTRE", "FRONT_RIGHT_CENTRE", "REAR_CENTRE", "SIDE_LEFT", "SIDE_RIGHT",
    "TOP_CENTRE", "TOP_FRONT_LEFT", "TOP_FRONT_CENTRE", "TOP_FRONT_RIGHT", "TOP_REAR_LEFT",
    "TOP_REAR_CENTRE", "TOP_REAR_RIGHT", "REAR_LEFT_CENTRE", "REAR_RIGHT_CENTRE",
    "FRONT_LEFT_WIDE", "FRONT_RIGHT_WIDE", "FRONT_LEFT_HIGH", "FRONT_CENTRE_HIGH",
    "FRONT_RIGHT_HIGH", "LFE2"]

def channelLimit : Nat := speakerNames.length

/-- The speakers of the channels, as messages name them. -/
def speakerText (format : WaveFormat) : String :=
  " | ".intercalate (format.speakers.filterMap (speakerNames[·]?))

def half (a b : UInt8) : Nat := a.toNat + 256 * b.toNat

/-- The sizes which samples may have, in bits. -/
def sampleSizes : List Nat := [8, 16, 24, 32]

def positions (mask : UInt32) : List Nat := (List.range 32).filter (mask.toNat.testBit ·)

/-- As many speakers as there are channels: the first ones, or all and those which follow them.
The number of those which follow is taken modulo 32. -/
def fit (channels : Nat) (speakers : List Nat) : List Nat :=
  let first := (speakers.getLast?.map (· + 1)).getD 0
  if channels ≤ speakers.length then speakers.take channels
  else speakers ++ List.range' first ((channels - speakers.length) % 32)

/-- The codes for plain samples in a long format. In the second one the channels are not those of
speakers, but are numbered like them. -/
def plainSamples : List Bytes :=
  [[0x01, 0x00, 0x00, 0x00, 0x00, 0x00, 0x10, 0x00,
      0x80, 0x00, 0x00, 0xaa, 0x00, 0x38, 0x9b, 0x71],
    [0x01, 0x00, 0x00, 0x00, 0x21, 0x07, 0xd3, 0x11,
      0x86, 0x44, 0xc8, 0xc1, 0xca, 0x00, 0x00, 0x00]]

/-- The speakers which a long format gives behind the size of a sample. -/
def readSpeakers (channels bits : Nat) : Bytes → Option (List Nat)
  | e₀ :: e₁ :: v₀ :: v₁ :: m₀ :: m₁ :: m₂ :: m₃ :: code =>
    let speakers := fit channels (positions (Bytes.toWord m₀ m₁ m₂ m₃))
    if half e₀ e₁ = 22 ∧ half v₀ v₁ ≤ bits ∧ speakers.all (· < channelLimit) ∧
        plainSamples.any (·.isPrefixOf code) then
      some speakers
    else none
  | _ => none

/-- Reads a format of the given size. Gives the number of its bytes, too, which is 40 for all long
formats. -/
def read (size : Nat) : Bytes → Option (WaveFormat × Nat)
  | f₀ :: f₁ :: c₀ :: c₁ :: r₀ :: r₁ :: r₂ :: r₃ :: _ :: _ :: _ :: _ :: a₀ :: a₁ :: b₀ :: b₁ ::
      extension =>
    let channels := half c₀ c₁
    let bits := half b₀ b₁
    let layout (speakers : List Nat) : WaveFormat :=
      ⟨speakers, Bytes.toWord r₀ r₁ r₂ r₃, half a₀ a₁, bits / 8⟩
    if bits ∉ sampleSizes then none
    else if half f₀ f₁ = 1 then
      if size ∈ [16, 18, 40] ∧ 0 < channels ∧ channels ≤ channelLimit then
        some (layout (List.range channels), size)
      else none
    else if half f₀ f₁ = 0xfffe ∧ 40 ≤ size then
      (readSpeakers channels bits extension).map fun speakers => (layout speakers, 40)
    else none
  | _ => none

end WaveFormat

end AssetPack.Import

import AssetPack.Asset.Texture
namespace AssetPack.Import

/-! Pictures in the format whose files start with `qoif`: a header, a list of chunks which each
give one pixel or repeat it, and eight closing bytes. -/

structure Pixel where
  red : UInt8
  green : UInt8
  blue : UInt8
  alpha : UInt8
  deriving DecidableEq, Repr

/-- A picture before its pixels are made into a texture. -/
structure Picture where
  width : UInt32
  height : UInt32
  hasAlpha : Bool
  pixels : List Pixel
  deriving DecidableEq, Repr

namespace Picture

def magic : Bytes := [0x71, 0x6f, 0x69, 0x66]

def closing : Bytes := [0, 0, 0, 0, 0, 0, 0, 1]

def pixelLimit : Nat := 400000000

def byteLimit : Nat := 512 * 1024 * 1024

structure Header where
  width : UInt32
  height : UInt32
  hasAlpha : Bool
  deriving DecidableEq, Repr

def Header.pixels (header : Header) : Nat := header.width.toNat * header.height.toNat

/-- Sizes are written with the most significant byte first. -/
def Header.read : Bytes → Option (Header × Bytes)
  | m₀ :: m₁ :: m₂ :: m₃ :: w₀ :: w₁ :: w₂ :: w₃ :: h₀ :: h₁ :: h₂ :: h₃ :: channels :: space ::
      rest =>
    let header : Header := ⟨Bytes.toWord w₃ w₂ w₁ w₀, Bytes.toWord h₃ h₂ h₁ h₀, channels = 4⟩
    let size := header.pixels * channels.toNat
    if [m₀, m₁, m₂, m₃] = magic ∧ (channels = 3 ∨ channels = 4) ∧ space ≤ 1 ∧
        0 < header.pixels ∧ header.pixels ≤ pixelLimit ∧ size ≤ byteLimit then
      some (header, rest)
    else none
  | _ => none

/-- The pixel before the next one, and the pixels met so far by their place in the table. -/
structure State where
  current : Pixel
  table : Array Pixel
  deriving Repr

def tableSize : Nat := 64

/-- Pictures without an alpha channel are opaque everywhere. -/
def State.start (hasAlpha : Bool) : State :=
  ⟨⟨0, 0, 0, 255⟩, Array.replicate tableSize ⟨0, 0, 0, if hasAlpha then 0 else 255⟩⟩

def place (pixel : Pixel) : Nat :=
  (pixel.red.toNat * 3 + pixel.green.toNat * 5 + pixel.blue.toNat * 7 + pixel.alpha.toNat * 11) %
    tableSize

/-- Moves on to a pixel and puts it into the table. -/
def State.enter (state : State) (pixel : Pixel) : State :=
  ⟨pixel, state.table.setIfInBounds (place pixel) pixel⟩

/-- Reads one chunk. The number says how often its pixel is repeated. -/
def chunk (hasAlpha : Bool) (state : State) : Bytes → Option (Nat × State × Bytes)
  | [] => none
  | b :: rest =>
    let last := state.current
    if b < 0x40 then
      some (0, { state with current := state.table[b.toNat]?.getD last }, rest)
    else if b < 0x80 then
      let red := last.red + (b / 16 % 4) - 2
      let green := last.green + (b / 4 % 4) - 2
      let blue := last.blue + (b % 4) - 2
      some (0, state.enter ⟨red, green, blue, last.alpha⟩, rest)
    else if b < 0xc0 then
      match rest with
      | c :: rest =>
        let step := b % 64 - 32
        let red := last.red + step - 8 + c / 16
        let green := last.green + step
        let blue := last.blue + step - 8 + c % 16
        some (0, state.enter ⟨red, green, blue, last.alpha⟩, rest)
      | [] => none
    else if b < 0xfe then some ((b % 64).toNat, state, rest)
    else if b = 0xfe then
      match rest with
      | red :: green :: blue :: rest =>
        some (0, state.enter ⟨red, green, blue, last.alpha⟩, rest)
      | _ => none
    else if hasAlpha then
      match rest with
      | red :: green :: blue :: alpha :: rest =>
        some (0, state.enter ⟨red, green, blue, alpha⟩, rest)
      | _ => none
    else some (0, state.enter last, rest)

/-- Reads the given number of pixels. A repetition ends with the picture. -/
def readPixels (hasAlpha : Bool) (left : Nat) (state : State) (bytes : Bytes) :
    Option (List Pixel × Bytes) :=
  if left = 0 then some ([], bytes)
  else
    match chunk hasAlpha state bytes with
    | none => none
    | some (extra, next, rest) =>
      let count := min (extra + 1) left
      (readPixels hasAlpha (left - count) next rest).map fun (more, rest) =>
        (List.replicate count next.current ++ more, rest)
  termination_by left
  decreasing_by omega

/-- What follows the closing bytes is not part of the picture. -/
def read (bytes : Bytes) : Option Picture := do
  let (header, body) ← Header.read bytes
  let (found, rest) ← readPixels header.hasAlpha header.pixels (State.start header.hasAlpha) body
  if rest.take closing.length = closing then
    some ⟨header.width, header.height, header.hasAlpha, found⟩
  else none

/-- The layout of the picture as messages name it. -/
def layout (picture : Picture) : String := if picture.hasAlpha then "Rgba8" else "Rgb8"

def texture (picture : Picture) : Texture :=
  ⟨picture.width, picture.height, .rgba,
    picture.pixels.flatMap fun p => [p.red, p.green, p.blue, p.alpha]⟩

end Picture

end AssetPack.Import

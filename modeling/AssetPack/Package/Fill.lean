import AssetPack.Package.Record
namespace AssetPack.Package

/-! Writing values into bytes which are there already. -/

/-- What can go wrong: bytes of another size than the value, a part which is not inside the bytes, a
copy between parts of different sizes, and a length which no word stands for. -/
inductive FillFault where
  | wrongSize (expected actual : Nat)
  | outOfRange (first last size : Nat)
  | wrongCopy (source target : Nat)
  | longPrefix (length : Nat)
  deriving DecidableEq, Repr

/-- Some bytes, and how many of them are written. -/
structure Page where
  bytes : Bytes
  cursor : Nat
  deriving DecidableEq, Repr

abbrev Filler := StateT Page (Except FillFault)

/-- A type whose values are written over bytes of their size. -/
class Fill (α : Type) [Packed α] where
  fill : α → Bytes → Except FillFault Bytes

namespace Filler

variable {α : Type}

/-- The bytes from `first` up to `last`. -/
def slice (bytes : Bytes) (first last : Nat) : Except FillFault Bytes :=
  if first ≤ last ∧ last ≤ bytes.length then .ok ((bytes.take last).drop first)
  else .error (.outOfRange first last bytes.length)

/-- Copies all of the source over all of the target. -/
def copy (source target : Bytes) : Except FillFault Bytes :=
  if source.length = target.length then .ok source
  else .error (.wrongCopy source.length target.length)

/-- The word in front of something with the given number of bytes. -/
def lengthPrefix (length : Nat) : Filler UInt32 :=
  if length < UInt32.size then return UInt32.ofNat length else throw (.longPrefix length)

/-- Writes a value over the next bytes, and moves the cursor behind them. -/
def put [Packed α] [Fill α] (value : α) : Filler Unit := fun ⟨bytes, cursor⟩ => do
  let last := cursor + Packed.size value
  let form ← Fill.fill value (← slice bytes cursor last)
  return ((), ⟨bytes.take cursor ++ form ++ bytes.drop last, last⟩)

/-- Copies bytes over all which is left. -/
def putRest (source : Bytes) : Filler Unit := fun ⟨bytes, cursor⟩ => do
  let rest ← copy source (← slice bytes cursor bytes.length)
  return ((), ⟨bytes.take cursor ++ rest, cursor⟩)

/-- Bytes which are filled from their start. -/
def start (filler : Filler Unit) (bytes : Bytes) : Except FillFault Bytes :=
  (filler.run ⟨bytes, 0⟩).map fun (_, page) => page.bytes

/-- Fills bytes which must have the size of the value. -/
def overwrite [Packed α] (value : α) (filler : Filler Unit) (bytes : Bytes) :
    Except FillFault Bytes := do
  if bytes.length ≠ Packed.size value then
    throw (.wrongSize (Packed.size value) bytes.length)
  filler.start bytes

end Filler

open Filler

instance : Fill UInt8 where
  fill b bytes := do
    if bytes.length ≠ 1 then throw (.wrongSize 1 bytes.length)
    return bytes.set 0 b

instance : Fill UInt32 where
  fill w bytes := do
    if bytes.length ≠ 4 then throw (.wrongSize 4 bytes.length)
    copy (Bytes.ofWord w) bytes

instance : Fill Bytes where
  fill bytes := overwrite bytes do
    put (← lengthPrefix bytes.length)
    putRest bytes

instance : Fill String where
  fill text := Fill.fill (Bytes.ofText text)

instance : Fill RunHeader where
  fill header := overwrite header do
    put header.type.tag
    put header.count

instance : Fill Texture where
  fill texture := overwrite texture do
    put texture.width
    put texture.height
    put texture.format.tag
    putRest texture.pixels

instance : Fill Shader where
  fill shader := overwrite shader do
    put (shaderKind shader)
    match shader with
    | .graphics vertex pixel => do
      put vertex
      put pixel
    | .compute source => put source

instance : Fill AudioBuffer where
  fill audio := overwrite audio do
    put audio.format.tag
    put audio.channels
    put (← lengthPrefix audio.pcm.length)
    put audio.sampleRate
    putRest audio.pcm

instance {α : Type} [Packed α] [Fill α] : Fill (Named α) where
  fill named := overwrite named do
    put named.name
    put (← lengthPrefix (Packed.size named.asset))
    put named.asset

/-- The form of a value, written over zeros. -/
def filled {α : Type} [Packed α] [Fill α] (value : α) : Except FillFault Bytes :=
  (put value).start (List.replicate (Packed.size value) 0)

end AssetPack.Package

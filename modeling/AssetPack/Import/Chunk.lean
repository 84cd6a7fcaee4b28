import AssetPack.Bytes
namespace AssetPack.Import

/-! Lists of chunks: each chunk starts at an even place with a tag of four bytes and its size. -/

/-- Leaves out as many bytes, all of which have to be there. -/
def skip? : Nat → Bytes → Option Bytes
  | 0, bytes => some bytes
  | _ + 1, [] => none
  | count + 1, _ :: rest => skip? count rest

theorem length_of_skip? {count : Nat} {bytes rest : Bytes} (h : skip? count bytes = some rest) :
    rest.length + count = bytes.length := by
  induction count generalizing bytes with
  | zero =>
    cases h
    rfl
  | succ count ih =>
    cases bytes with
    | nil => cases h
    | cons b more =>
      have := ih h
      simp only [List.length_cons]
      omega

/-- A list of `limit` bytes. Those up to `used`, a sum of words which may wrap, belong to the
chunks met so far. -/
structure Chunks where
  limit : UInt32
  used : UInt32
  rest : Bytes
  deriving DecidableEq, Repr

/-- What comes next in a list of chunks. The content of a chunk counts as used up. -/
inductive Chunks.Step where
  | finished (rest : Chunks)
  | chunk (tag : Bytes) (size : UInt32) (rest : Chunks)
  deriving DecidableEq, Repr

namespace Chunks

/-- The size which is written when the size is not known. -/
def unknownSize : UInt32 := 0xffffffff

/-- The sum, or the largest word. -/
def sum (a b : UInt32) : UInt32 := UInt32.ofNat (min (a.toNat + b.toNat) (UInt32.size - 1))

/-- Goes on to an even place. -/
def align (chunks : Chunks) : Option Chunks :=
  if chunks.used % 2 = 0 then some chunks
  else (skip? 1 chunks.rest).map fun rest => { chunks with used := chunks.used + 1, rest }

/-- Whether a chunk may stand in what is left of the list. -/
def hasRoom (limit used size : UInt32) : Bool :=
  size ≤ limit - used || (limit == unknownSize && size == unknownSize)

/-- Reads the head of the next chunk. -/
def next (chunks : Chunks) : Option Step :=
  match chunks.align with
  | none => none
  | some chunks =>
    let used := chunks.used + 8
    if chunks.limit < used then some (.finished chunks)
    else
      match chunks.rest with
      | t₀ :: t₁ :: t₂ :: t₃ :: s₀ :: s₁ :: s₂ :: s₃ :: rest =>
        let size := Bytes.toWord s₀ s₁ s₂ s₃
        if hasRoom chunks.limit used size then
          some (.chunk [t₀, t₁, t₂, t₃] size ⟨chunks.limit, sum used size, rest⟩)
        else none
      | _ => none

theorem length_of_align {chunks aligned : Chunks} (h : chunks.align = some aligned) :
    aligned.rest.length ≤ chunks.rest.length := by
  unfold align at h
  split at h
  · cases h
    exact Nat.le_refl _
  · obtain ⟨rest, skipped, rfl⟩ := Option.map_eq_some_iff.1 h
    have := length_of_skip? skipped
    simp only
    omega

theorem length_of_next {chunks rest : Chunks} {tag : Bytes} {size : UInt32}
    (h : chunks.next = some (.chunk tag size rest)) :
    rest.rest.length + 8 ≤ chunks.rest.length := by
  unfold next at h
  split at h
  · cases h
  · rename_i aligned eq
    have shorter := length_of_align eq
    simp only at h
    split at h
    · cases h
    · split at h
      · rename_i bytes
        split at h
        · cases h
          simp only [bytes, List.length_cons] at shorter
          exact shorter
        · cases h
      · cases h

/-- The number of bytes up to the end of the list, if each chunk in it is whole. An odd list is
padded, even when its last chunk is. -/
def length? (chunks : Chunks) : Option Nat :=
  match _ : chunks.next with
  | none => none
  | some (.finished last) => some (max last.used.toNat last.limit.toNat + last.limit.toNat % 2)
  | some (.chunk _ size rest) =>
    match _ : skip? size.toNat rest.rest with
    | none => none
    | some after => length? { rest with rest := after }
  termination_by chunks.rest.length
  decreasing_by
    have := length_of_next ‹_›
    have := length_of_skip? ‹_›
    omega

end Chunks

end AssetPack.Import

import AssetPack.Import.Chunk
import AssetPack.Import.TagFrame
namespace AssetPack.Import

/-! Tags in front of a sound, which start with `ID3`. Nothing is kept of them, but a sound is only
found behind a tag which can be read. -/

/-- The bytes of a tag from a place on. In a stuffed tag a zero behind a byte `0xff` is left out. -/
structure TagBytes where
  stuffed : Bool
  last : UInt8
  rest : Bytes
  deriving DecidableEq, Repr

namespace TagBytes

def byte : TagBytes → Option (UInt8 × TagBytes)
  | ⟨true, 0xff, 0 :: b :: rest⟩ => some (b, ⟨true, b, rest⟩)
  | ⟨true, 0xff, [0]⟩ => none
  | ⟨stuffed, _, b :: rest⟩ => some (b, ⟨stuffed, b, rest⟩)
  | ⟨_, _, []⟩ => none

/-- Takes bytes in front of those which were taken, so that the last one comes first. -/
def takeOnto (taken : Bytes) : Nat → TagBytes → Option (Bytes × TagBytes)
  | 0, bytes => some (taken, bytes)
  | count + 1, bytes =>
    match bytes.byte with
    | none => none
    | some (b, rest) => takeOnto (b :: taken) count rest

def take (count : Nat) (bytes : TagBytes) : Option (Bytes × TagBytes) :=
  (bytes.takeOnto [] count).map fun (taken, rest) => (taken.reverse, rest)

/-- Leaves out bytes as they are written. -/
def skip (count : Nat) (bytes : TagBytes) : Option TagBytes :=
  (skip? count bytes.rest).map fun rest => { bytes with rest }

/-- Whether as many bytes are left, as they are written. -/
def hasLeft (count : Nat) (bytes : TagBytes) : Bool :=
  count = 0 || ! (bytes.rest.drop (count - 1)).isEmpty

theorem length_of_byte {bytes rest : TagBytes} {b : UInt8} (h : bytes.byte = some (b, rest)) :
    rest.rest.length < bytes.rest.length := by
  unfold byte at h
  split at h <;> cases h <;> simp only [List.length_cons] <;> omega

theorem length_of_takeOnto {taken all : Bytes} {count : Nat} {bytes rest : TagBytes}
    (h : bytes.takeOnto taken count = some (all, rest)) :
    rest.rest.length + count ≤ bytes.rest.length := by
  induction count generalizing bytes taken with
  | zero =>
    cases h
    exact Nat.le_refl _
  | succ count ih =>
    simp only [takeOnto] at h
    split at h
    · cases h
    · rename_i first
      have := length_of_byte first
      have := ih h
      omega

theorem length_of_take {count : Nat} {bytes rest : TagBytes} {taken : Bytes}
    (h : bytes.take count = some (taken, rest)) :
    rest.rest.length + count ≤ bytes.rest.length := by
  obtain ⟨pair, onto, eq⟩ := Option.map_eq_some_iff.1 h
  cases eq
  exact length_of_takeOnto onto

theorem length_of_skip {count : Nat} {bytes rest : TagBytes} (h : bytes.skip count = some rest) :
    rest.rest.length ≤ bytes.rest.length := by
  obtain ⟨more, skipped, rfl⟩ := Option.map_eq_some_iff.1 h
  have := length_of_skip? skipped
  simp only
  omega

end TagBytes

namespace Tag

/-- The number with the given digits, the highest first. What a byte has above a digit is left
out. -/
def number (base : Nat) (digits : Bytes) : Nat :=
  digits.foldl (fun n digit => n * base + digit.toNat % base) 0

/-- Leaves out the zeros behind bytes `0xff`. -/
def unstuff : Bytes → Bytes
  | 0xff :: 0 :: rest => 0xff :: unstuff rest
  | b :: rest => b :: unstuff rest
  | [] => []

def isNameByte (b : UInt8) : Bool := (0x30 ≤ b && b ≤ 0x39) || (0x41 ≤ b && b ≤ 0x5a)

/-- Reads the rest of a frame behind its head. An empty content is left out. -/
def readContent (layout : FrameLayout) (kind : FrameKind) (size flags : Nat) (bytes : TagBytes) :
    Option TagBytes :=
  if flags &&& layout.packed ≠ 0 then none
  else
    let gap := layout.gap flags size
    match bytes.take gap with
    | none => none
    | some (_, bytes) =>
      match bytes.take (size - gap) with
      | none => none
      | some (content, rest) =>
        let content := if flags &&& layout.stuffed ≠ 0 then unstuff content else content
        if content.isEmpty || kind.accepts content then some rest else none

/-- Reads a frame behind its name. The content of a frame with an unknown name is not looked at. -/
def readFrame (layout : FrameLayout) (name : Bytes) (bytes : TagBytes) : Option TagBytes :=
  match bytes.take layout.sizeSize with
  | none => none
  | some (size, bytes) =>
    match bytes.take layout.flagSize with
    | none => none
    | some (flags, bytes) =>
      let size := number layout.sizeBase size
      let flags := number 256 flags
      if flags &&& layout.unused ≠ 0 then none
      else
        match layout.kind? name with
        | none => bytes.skip size
        | some kind => readContent layout kind size flags bytes

theorem length_of_readContent {layout : FrameLayout} {kind : FrameKind} {size flags : Nat}
    {bytes rest : TagBytes} (h : readContent layout kind size flags bytes = some rest) :
    rest.rest.length ≤ bytes.rest.length := by
  simp only [readContent] at h
  split at h
  · cases h
  · split at h
    · cases h
    · rename_i gap
      split at h
      · cases h
      · rename_i content
        have := TagBytes.length_of_take gap
        have := TagBytes.length_of_take content
        cases (Option.ite_none_right_eq_some.1 h).2
        omega

theorem length_of_readFrame {layout : FrameLayout} {name : Bytes} {bytes rest : TagBytes}
    (h : readFrame layout name bytes = some rest) : rest.rest.length ≤ bytes.rest.length := by
  simp only [readFrame] at h
  split at h
  · cases h
  · rename_i size
    split at h
    · cases h
    · rename_i flags
      have := TagBytes.length_of_take size
      have := TagBytes.length_of_take flags
      split at h
      · cases h
      · split at h
        · have := TagBytes.length_of_skip h
          omega
        · have := length_of_readContent h
          omega

/-- Whether the frames can be read, up to what can not be the name of one. -/
def hasFrames (layout : FrameLayout) (bytes : TagBytes) : Bool :=
  match _ : bytes.take layout.nameSize with
  | none => false
  | some (name, behind) =>
    if name.all isNameByte then
      match _ : readFrame layout name behind with
      | none => false
      | some rest => if rest.hasLeft layout.headSize then hasFrames layout rest else true
    else true
  termination_by bytes.rest.length
  decreasing_by
    have := TagBytes.length_of_take ‹_›
    have := length_of_readFrame ‹_›
    have := layout.name_pos
    omega

/-- Reads a byte which has to have the given value. -/
def expect (value : UInt8) (bytes : TagBytes) : Option TagBytes := do
  let (found, rest) ← bytes.byte
  if found = value then some rest else none

/-- The second head of a tag of version 3. -/
def readOldExtension (bytes : TagBytes) : Option TagBytes := do
  let (size, bytes) ← bytes.take 4
  let (flags, bytes) ← bytes.take 2
  let (_, bytes) ← bytes.take 4
  let size := number 256 size
  if size = 10 ∧ number 256 flags &&& 0x8000 ≠ 0 then return (← bytes.take 4).2
  else if size = 6 ∨ size = 10 then return bytes
  else none

/-- The second head of a tag of version 4. Parts of it stand behind their sizes. -/
def readExtension (bytes : TagBytes) : Option TagBytes := do
  let (_, bytes) ← bytes.take 4
  let (flags, bytes) ← (← expect 1 bytes).byte
  let bytes ← if flags &&& 0x40 ≠ 0 then expect 1 bytes else some bytes
  let bytes ← if flags &&& 0x20 ≠ 0 then (← expect 5 bytes).skip 5 else some bytes
  if flags &&& 0x10 ≠ 0 then (← expect 1 bytes).skip 1 else some bytes

/-- Whether all behind the head of a tag can be read. -/
def hasBody (version flags : UInt8) (body : Bytes) : Bool :=
  let bytes : TagBytes := ⟨version < 4 && flags &&& 0x80 ≠ 0, 0, body⟩
  let extended := flags &&& 0x40 ≠ 0
  match FrameLayout.ofVersion? version with
  | none => false
  | some layout =>
    let start :=
      if ! extended then some bytes
      else if version = 3 then readOldExtension bytes
      else if version = 4 then readExtension bytes
      else none
    start.any (hasFrames layout)

/-- The number of bytes of the tag which stands first. -/
def length? : Bytes → Option Nat
  | _ :: _ :: _ :: version :: revision :: flags :: s₀ :: s₁ :: s₂ :: s₃ :: rest =>
    let size := number 128 [s₀, s₁, s₂, s₃]
    if revision ≠ 0xff ∧ hasBody version flags (rest.take size) then some (10 + size) else none
  | _ => none

theorem le_of_length? {bytes : Bytes} {size : Nat} (h : length? bytes = some size) :
    10 ≤ size := by
  unfold length? at h
  split at h
  · simp only [Option.ite_none_right_eq_some, Option.some.injEq] at h
    omega
  · cases h

end Tag

end AssetPack.Import

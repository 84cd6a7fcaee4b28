import AssetPack.Asset.Audio
import AssetPack.Import.Tag
import AssetPack.Import.WaveFormat
namespace AssetPack.Import

/-! Sound files made of `RIFF` chunks, with plain samples in their `data` chunk. -/

/-- A sound file: the layout if it is known, the announced size of the data, and the bytes behind
that. -/
structure Wave where
  format : Option WaveFormat
  size : Nat
  data : Bytes
  deriving DecidableEq, Repr

namespace Wave

inductive Start where
  | chunks
  | tag
  /-- Sounds which are not made of chunks. -/
  | other
  deriving DecidableEq, Repr

def starts : List (Bytes × Start) :=
  [([0x52, 0x49, 0x46, 0x46], .chunks), ([0x49, 0x44, 0x33], .tag),
    ([0x66, 0x4c, 0x61, 0x43], .other), ([0x4f, 0x67, 0x67, 0x53], .other),
    ([0x1a, 0x45, 0xdf, 0xa3], .other)]

def start? (bytes : Bytes) : Option Start :=
  (starts.find? fun (mark, _) => mark.isPrefixOf bytes).map (·.2)

/-- The number of places at which a start is looked for. -/
def searchLimit : Nat := 1024 * 1024 - 1

/-- The first start, and the bytes from there on. -/
def findStart : Nat → Bytes → Option (Start × Bytes)
  | 0, _ | _, [] => none
  | count + 1, b :: rest =>
    match start? (b :: rest) with
    | some start => some (start, b :: rest)
    | none => findStart count rest

theorem length_of_findStart {count : Nat} {bytes found : Bytes} {start : Start}
    (h : findStart count bytes = some (start, found)) : found.length ≤ bytes.length := by
  induction bytes generalizing count with
  | nil => cases count <;> cases h
  | cons b rest ih =>
    cases count with
    | zero => cases h
    | succ count =>
      simp only [findStart] at h
      split at h
      · cases h
        exact Nat.le_refl _
      · exact Nat.le_succ_of_le (ih h)

/-- The chunks of the file, which may stand behind tags and other bytes. -/
def findChunks (bytes : Bytes) : Option Bytes :=
  match _ : findStart searchLimit bytes with
  | some (.chunks, found) => some found
  | some (.tag, found) =>
    match _ : Tag.length? found with
    | none => none
    | some size =>
      match _ : skip? size found with
      | none => none
      | some rest => findChunks rest
  | _ => none
  termination_by bytes.length
  decreasing_by
    have := length_of_findStart ‹_›
    have := Tag.le_of_length? ‹_›
    have := length_of_skip? ‹_›
    omega

def dataTag : Bytes := [0x64, 0x61, 0x74, 0x61]
def formatTag : Bytes := [0x66, 0x6d, 0x74, 0x20]
def factTag : Bytes := [0x66, 0x61, 0x63, 0x74]
def listTag : Bytes := [0x4c, 0x49, 0x53, 0x54]

/-- The kind of list whose chunks are read. -/
def infoKind : Bytes := [0x49, 0x4e, 0x46, 0x4f]

/-- The number of bytes which a list in a list takes up. -/
def listLength? (size : UInt32) (bytes : Bytes) : Option Nat :=
  let kind := bytes.take 4
  let inner := size - 4
  if size < 4 ∨ kind.length < 4 then none
  else if kind = infoKind then
    (Chunks.length? ⟨inner, 0, bytes.drop 4⟩).map (4 + ·)
  else some (4 + inner.toNat + inner.toNat % 2)

/-- The format after a chunk, and the number of bytes in the chunk. -/
def content? (tag : Bytes) (size : UInt32) (format : Option WaveFormat) (bytes : Bytes) :
    Option (Option WaveFormat × Nat) :=
  if tag = formatTag then
    (WaveFormat.read size.toNat bytes).map fun (found, length) => (some found, length)
  else if tag = factTag then if size = 4 then some (format, 4) else none
  else if tag = listTag then (listLength? size bytes).map (format, ·)
  else some (format, size.toNat)

/-- Reads chunks up to the one with the data. The last format before it counts. -/
def readChunks (format : Option WaveFormat) (chunks : Chunks) : Option Wave :=
  match _ : chunks.next with
  | some (.chunk tag size rest) =>
    if tag = dataTag then some ⟨format, size.toNat, rest.rest⟩
    else
      match content? tag size format rest.rest with
      | none => none
      | some (format, length) =>
        match _ : skip? length rest.rest with
        | none => none
        | some after => readChunks format { rest with rest := after }
  | _ => none
  termination_by chunks.rest.length
  decreasing_by
    have := Chunks.length_of_next ‹_›
    have := length_of_skip? ‹_›
    omega

def read (bytes : Bytes) : Option Wave := do
  match ← findChunks bytes with
  | _ :: _ :: _ :: _ :: s₀ :: s₁ :: s₂ :: s₃ :: 0x57 :: 0x41 :: 0x56 :: 0x45 :: rest =>
    let size := Bytes.toWord s₀ s₁ s₂ s₃
    if size < 4 then none else readChunks none ⟨size, 0, rest⟩
  | _ => none

/-- The most blocks of a packet, and the most frames which are made of one. -/
def packetLimit : Nat := 1152

/-- A sample as a signed word of 16 bits, of which the highest bits are kept. -/
def sample : Bytes → Int16
  | [a] => (UInt16.ofNat ((a.toNat ^^^ 0x80) * 256)).toInt16
  | [a, b] => (UInt16.ofNat (WaveFormat.half a b)).toInt16
  | [_, a, b] => (UInt16.ofNat (WaveFormat.half a b)).toInt16
  | [_, _, a, b] => (UInt16.ofNat (WaveFormat.half a b)).toInt16
  | _ => 0

/-- Cuts bytes into the given number of pieces of one size. -/
def pieces (size : Nat) : Nat → Bytes → List Bytes
  | 0, _ => []
  | count + 1, bytes => bytes.take size :: pieces size count (bytes.drop size)

def frameCount (format : WaveFormat) (packet : Bytes) : Nat :=
  min packetLimit (packet.length / (format.channels * format.bytesPerSample))

def decodePacket (format : WaveFormat) (packet : Bytes) : List Int16 :=
  (pieces format.bytesPerSample (frameCount format packet * format.channels) packet).map sample

/-- The number of blocks in the next packet, when `size` bytes are announced. -/
def blockCount (blockSize size : Nat) : Nat := min packetLimit (size / blockSize)

/-- The data as packets, each of whole blocks. The last packet is short if the file is. -/
def packets (blockSize size : Nat) (data : Bytes) : List Bytes :=
  if blockCount blockSize size = 0 ∨ data = [] then []
  else
    let taken := blockCount blockSize size * blockSize
    data.take taken :: packets blockSize (size - taken) (data.drop taken)
  termination_by data.length
  decreasing_by
    rename_i more
    rw [not_or] at more
    have block : blockSize ≠ 0 := fun zero => more.1 (by simp [blockCount, zero])
    have := Nat.mul_pos (Nat.pos_of_ne_zero more.1) (Nat.pos_of_ne_zero block)
    have := List.length_pos_iff.2 more.2
    rw [List.length_drop]
    omega

/-- The sound of the packets. Without a packet there is none. -/
def audio (format : WaveFormat) (packets : List Bytes) : AudioBuffer :=
  .ofSamples (UInt8.ofNat format.channels) format.sampleRate
    (packets.flatMap (decodePacket format))

end Wave

end AssetPack.Import

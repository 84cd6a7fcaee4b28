import AssetPack.Bytes
import AssetPack.Text.Quoted
namespace AssetPack.Package

/-! Decoders, which take a value off the front of some bytes. -/

inductive DecodeError where
  | truncated
  | invalidAssetType (tag : UInt8)
  | invalidPixelFormat (tag : UInt8)
  | invalidAudioFormat (tag : UInt8)
  | invalidShaderKind (tag : UInt8)
  | invalidUtf8
  | sizeMismatch (expected actual : Nat)
  deriving DecidableEq, Repr

def DecodeError.message : DecodeError → String
  | truncated => "unexpected end of data"
  | invalidAssetType tag => s!"{Text.hexByte tag} is not an asset type tag"
  | invalidPixelFormat tag => s!"{Text.hexByte tag} is not a pixel format"
  | invalidAudioFormat tag => s!"{Text.hexByte tag} is not an audio format"
  | invalidShaderKind tag => s!"{Text.hexByte tag} is not a shader kind"
  | invalidUtf8 => "shader source is not valid UTF-8"
  | sizeMismatch expected actual =>
    s!"descriptor was {expected} bytes according to its size prefix, but {actual} bytes were read"

/-- A successful decoder gives the value and the bytes it did not look at. -/
abbrev Decoder := StateT Bytes (Except DecodeError)

namespace Decoder

variable {α β : Type}

def byte : Decoder UInt8
  | [] => .error .truncated
  | b :: rest => .ok (b, rest)

def word : Decoder UInt32 := do
  return Bytes.toWord (← byte) (← byte) (← byte) (← byte)

def take (size : Nat) : Decoder Bytes := fun bytes =>
  let taken := bytes.take size
  if taken.length = size then .ok (taken, bytes.drop size) else .error .truncated

/-- What a tag byte stands for. -/
def tagged (ofTag? : UInt8 → Option α) (error : UInt8 → DecodeError) : Decoder α := do
  let tag ← byte
  match ofTag? tag with
  | some value => return value
  | none => throw (error tag)

/-- Bytes behind their number. -/
def counted : Decoder Bytes := do take (← word).toNat

/-- Text behind the number of its bytes. -/
def text : Decoder String := do
  match Bytes.text? (← counted) with
  | some text => return text
  | none => throw .invalidUtf8

/-- The value which takes up all of the bytes. -/
def whole (decoder : Decoder α) (bytes : Bytes) : Except DecodeError α :=
  match decoder.run bytes with
  | .error error => .error error
  | .ok (value, []) => .ok value
  | .ok (_, left) => .error (.sizeMismatch bytes.length (bytes.length - left.length))

/-- Reads at a position and moves it past what was read. After a failure it stays where it was,
also behind the end of the bytes. -/
def readAt (decoder : Decoder α) (bytes : Bytes) (position : Nat) : Except DecodeError α × Nat :=
  if bytes.length < position then (.error .truncated, position)
  else
    match decoder.run (bytes.drop position) with
    | .ok (value, rest) => (.ok value, bytes.length - rest.length)
    | .error error => (.error error, position)

theorem run_word (w : UInt32) (rest : Bytes) :
    word.run (Bytes.ofWord w ++ rest) = .ok (w, rest) := by
  conv => rhs; rw [← Bytes.toWord_ofWord w]
  rfl

theorem run_take (bytes rest : Bytes) :
    (take bytes.length).run (bytes ++ rest) = .ok (bytes, rest) := by
  simp [take, StateT.run]

theorem run_counted {bytes : Bytes} (h : bytes.length < UInt32.size) (rest : Bytes) :
    counted.run (Bytes.ofWord (UInt32.ofNat bytes.length) ++ (bytes ++ rest)) =
      .ok (bytes, rest) := by
  have size : (UInt32.ofNat bytes.length).toNat = bytes.length := UInt32.toNat_ofNat_of_lt h
  rw [counted, StateT.run_bind, run_word]
  show (take (UInt32.ofNat bytes.length).toNat).run (bytes ++ rest) = _
  rw [size]
  exact run_take bytes rest

theorem run_text {content : String} (h : content.utf8ByteSize < UInt32.size) (rest : Bytes) :
    text.run (Bytes.ofWord (UInt32.ofNat content.utf8ByteSize) ++
      (Bytes.ofText content ++ rest)) = .ok (content, rest) := by
  rw [← Bytes.length_ofText] at h ⊢
  rw [text, StateT.run_bind, run_counted h]
  simp [Bind.bind, Except.bind, Bytes.text?_ofText]
  rfl

/-- Every success takes `size` bytes or more. -/
def TakesAtLeast (decoder : Decoder α) (size : Nat) : Prop :=
  ∀ bytes value rest, decoder.run bytes = .ok (value, rest) → rest.length + size ≤ bytes.length

theorem TakesAtLeast.mono {decoder : Decoder α} {m n : Nat} (h : decoder.TakesAtLeast n)
    (le : m ≤ n) : decoder.TakesAtLeast m :=
  fun bytes value rest eq => Nat.le_trans (Nat.add_le_add_left le _) (h bytes value rest eq)

theorem takesAtLeast_pure (value : α) : (pure value : Decoder α).TakesAtLeast 0 := by
  intro bytes value rest eq
  cases eq
  exact Nat.le_refl _

theorem takesAtLeast_throw (error : DecodeError) (n : Nat) :
    (throw error : Decoder α).TakesAtLeast n := by
  intro bytes value rest eq
  cases eq

theorem takesAtLeast_lift (result : Except DecodeError α) :
    (liftM result : Decoder α).TakesAtLeast 0 := by
  intro bytes value rest eq
  cases result with
  | error => cases eq
  | ok => cases eq; exact Nat.le_refl _

theorem TakesAtLeast.bind {decoder : Decoder α} {next : α → Decoder β} {m n : Nat}
    (h : decoder.TakesAtLeast m) (k : ∀ value, (next value).TakesAtLeast n) :
    (decoder >>= next).TakesAtLeast (m + n) := by
  intro bytes value rest eq
  rw [StateT.run_bind] at eq
  cases first : decoder.run bytes with
  | error e => simp [first, Bind.bind, Except.bind] at eq
  | ok pair =>
    have second : (next pair.1).run pair.2 = .ok (value, rest) := by
      simpa [first, Bind.bind, Except.bind] using eq
    have := h bytes pair.1 pair.2 first
    have := k pair.1 pair.2 value rest second
    omega

theorem TakesAtLeast.map {decoder : Decoder α} {n : Nat} (f : α → β)
    (h : decoder.TakesAtLeast n) : (f <$> decoder).TakesAtLeast n := by
  rw [← bind_pure_comp]
  exact h.bind fun value => takesAtLeast_pure (f value)

theorem takesAtLeast_byte : byte.TakesAtLeast 1 := by
  intro bytes value rest eq
  cases bytes with
  | nil => cases eq
  | cons b more => cases eq; exact Nat.le_refl _

theorem takesAtLeast_word : word.TakesAtLeast 4 :=
  takesAtLeast_byte.bind fun _ => takesAtLeast_byte.bind fun _ => takesAtLeast_byte.bind fun _ =>
    takesAtLeast_byte.bind fun _ => takesAtLeast_pure _

theorem takesAtLeast_take (size : Nat) : (take size).TakesAtLeast size := by
  intro bytes value rest eq
  simp only [StateT.run, take] at eq
  split at eq
  · rename_i enough
    rw [List.length_take] at enough
    cases eq
    rw [List.length_drop]
    omega
  · cases eq

theorem takesAtLeast_counted : counted.TakesAtLeast 4 :=
  takesAtLeast_word.bind fun size => (takesAtLeast_take size.toNat).mono (Nat.zero_le _)

theorem takesAtLeast_text : text.TakesAtLeast 4 := by
  refine takesAtLeast_counted.bind (n := 0) fun bytes => ?_
  split
  · exact takesAtLeast_pure _
  · exact takesAtLeast_throw _ _

theorem takesAtLeast_tagged (ofTag? : UInt8 → Option α) (error : UInt8 → DecodeError) :
    (tagged ofTag? error).TakesAtLeast 1 := by
  refine takesAtLeast_byte.bind (n := 0) fun tag => ?_
  split
  · exact takesAtLeast_pure _
  · exact takesAtLeast_throw _ _

end Decoder

end AssetPack.Package

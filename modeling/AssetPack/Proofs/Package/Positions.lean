import AssetPack.Proofs.Package.Canonical
import AssetPack.Proofs.Package.PrefixCode

/-! Positions in a package. Every value in a package has a form which ends by itself. A position moves
by the size of a form which is read, or not at all, and a package is read by one position which moves
through it. -/

namespace AssetPack.Package

namespace Decoder
variable {α : Type}

namespace Composes
variable {P : (α : Type) → Decoder α → Prop} (composes : Composes P)
include composes

theorem texture : P Texture Packed.decode :=
  composes.bind composes.word fun _ => composes.bind composes.word fun _ =>
    composes.bind (composes.tagged _ _) fun _ => composes.bind (composes.take _) fun _ =>
      composes.value _

theorem shader : P Shader Packed.decode := by
  refine composes.bind composes.byte fun kind => ?_
  split
  · exact composes.bind composes.text fun _ => composes.bind composes.text fun _ =>
      composes.value _
  · split
    · exact composes.bind composes.text fun _ => composes.value _
    · exact composes.failure _

theorem audio : P AudioBuffer Packed.decode :=
  composes.bind (composes.tagged _ _) fun _ => composes.bind composes.byte fun _ =>
    composes.bind composes.word fun _ => composes.bind composes.word fun _ =>
      composes.bind (composes.take _) fun _ => composes.value _

end Composes

/-- The value at the start of the bytes, and the number of bytes it takes up. -/
def sized (decoder : Decoder α) (bytes : Bytes) : Except DecodeError (α × Nat) :=
  (decoder.run bytes).map fun (value, rest) => (value, bytes.length - rest.length)

variable {decoder : Decoder α} {bytes form : Bytes} {value : α} {size position next : Nat}
  {error : DecodeError}

theorem sized_eq_error : decoder.sized bytes = .error error ↔ decoder.run bytes = .error error := by
  rw [sized]
  cases decoder.run bytes <;> simp [Except.map]

theorem Takes.sized (takes : decoder.Takes value form) (rest : Bytes) :
    decoder.sized (form ++ rest) = .ok (value, form.length) := by
  rw [Decoder.sized, takes.run, List.length_append]
  simp [Except.map]

/-- A form has a byte if nothing is found in no bytes. -/
theorem Takes.length_pos (takes : decoder.Takes value form) (none : decoder.run [] = .error error) :
    0 < form.length := by
  rw [List.length_pos_iff]
  intro empty
  subst empty
  have found := takes.run []
  rw [List.append_nil, none] at found
  cases found

theorem PrefixCode.sized_eq_ok (code : decoder.PrefixCode) :
    decoder.sized bytes = .ok (value, size) ↔
      ∃ form rest, bytes = form ++ rest ∧ decoder.Takes value form ∧ form.length = size := by
  constructor
  · intro found
    rw [sized] at found
    cases ok : decoder.run bytes with
    | error e =>
      rw [ok] at found
      cases found
    | ok pair =>
      obtain ⟨a, rest⟩ := pair
      rw [ok] at found
      cases found
      obtain ⟨form, rfl, takes⟩ := code bytes value rest ok
      refine ⟨form, rest, rfl, takes, ?_⟩
      rw [List.length_append, Nat.add_sub_cancel]
  · intro split
    obtain ⟨form, rest, rfl, takes, rfl⟩ := split
    exact takes.sized rest

/-! A position behind the end stays, and one inside the bytes is where the decoder starts. -/

theorem readAt_behind (behind : bytes.length < position) :
    decoder.readAt bytes position = (.error .truncated, position) := if_pos behind

theorem readAt_of_run_error (inside : position ≤ bytes.length)
    (failed : decoder.run (bytes.drop position) = .error error) :
    decoder.readAt bytes position = (.error error, position) := by
  rw [readAt, if_neg (Nat.not_lt.2 inside), failed]

theorem length_of_drop {rest : Bytes} (inside : position ≤ bytes.length)
    (same : bytes.drop position = form ++ rest) :
    bytes.length = position + form.length + rest.length := by
  have length := congrArg List.length same
  rw [List.length_drop, List.length_append] at length
  omega

theorem Takes.readAt (takes : decoder.Takes value form) {rest : Bytes}
    (inside : position ≤ bytes.length) (same : bytes.drop position = form ++ rest) :
    decoder.readAt bytes position = (.ok value, position + form.length) := by
  have moved : bytes.length - rest.length = position + form.length := by
    have := length_of_drop inside same
    omega
  rw [Decoder.readAt, if_neg (Nat.not_lt.2 inside), same, takes.run]
  exact congrArg (Except.ok value, ·) moved

theorem PrefixCode.readAt_of_run (code : decoder.PrefixCode) {rest : Bytes}
    (inside : position ≤ bytes.length) (ok : decoder.run (bytes.drop position) = .ok (value, rest)) :
    ∃ next, decoder.readAt bytes position = (.ok value, next) ∧ bytes.drop next = rest ∧
      next ≤ bytes.length := by
  obtain ⟨form, same, takes⟩ := code _ value rest ok
  refine ⟨position + form.length, takes.readAt inside same, ?_, ?_⟩
  · rw [← List.drop_drop, same, List.drop_left]
  · have := length_of_drop inside same
    omega

theorem PrefixCode.readAt_inside (code : decoder.PrefixCode) (inside : position ≤ bytes.length) :
    decoder.readAt bytes position = match decoder.sized (bytes.drop position) with
      | .ok (value, size) => (.ok value, position + size)
      | .error error => (.error error, position) := by
  cases found : decoder.run (bytes.drop position) with
  | error e => rw [readAt_of_run_error inside found, sized_eq_error.2 found]
  | ok pair =>
    obtain ⟨form, same, takes⟩ := code _ pair.1 pair.2 found
    rw [takes.readAt inside same, same, takes.sized]

theorem PrefixCode.readAt_eq_ok (code : decoder.PrefixCode) :
    decoder.readAt bytes position = (.ok value, next) ↔ position ≤ bytes.length ∧
      ∃ size, decoder.sized (bytes.drop position) = .ok (value, size) ∧ next = position + size := by
  rcases Nat.lt_or_ge bytes.length position with behind | inside
  · simp [readAt_behind behind, Nat.not_le.2 behind]
  · rw [code.readAt_inside inside]
    cases decoder.sized (bytes.drop position) with
    | error e => simp
    | ok pair =>
      simp only [Prod.mk.injEq, Except.ok.injEq]
      constructor
      · intro h
        obtain ⟨rfl, rfl⟩ := h
        exact ⟨inside, pair.2, rfl, rfl⟩
      · intro h
        obtain ⟨-, size, rfl, rfl⟩ := h
        exact ⟨rfl, rfl⟩

theorem readAt_error (failed : decoder.readAt bytes position = (.error error, next)) :
    next = position := by
  rcases Nat.lt_or_ge bytes.length position with behind | inside
  · rw [readAt_behind behind] at failed
    cases failed
    rfl
  · cases found : decoder.run (bytes.drop position) with
    | error e =>
      rw [readAt_of_run_error inside found] at failed
      cases failed
      rfl
    | ok pair =>
      rw [readAt, if_neg (Nat.not_lt.2 inside), found] at failed
      cases failed

end Decoder

open Decoder

/-- The types of the values in packages. A record may have a descriptor of any type, as it is read
from the bytes which are counted in front of it. -/
inductive Stored : (α : Type) → [Packed α] → Prop
  | byte : Stored UInt8
  | word : Stored UInt32
  | bytes : Stored Bytes
  | text : Stored String
  | header : Stored RunHeader
  | texture : Stored Texture
  | shader : Stored Shader
  | audio : Stored AudioBuffer
  | named {α : Type} [Packed α] : Stored (Named α)

namespace Stored
variable {α : Type} [Packed α]

theorem of_composes {P : (α : Type) → Decoder α → Prop} (composes : Composes P)
    (stored : Stored α) : P α Packed.decode := by
  cases stored with
  | byte => exact composes.byte
  | word => exact composes.word
  | bytes => exact composes.counted
  | text => exact composes.text
  | header => exact composes.header
  | texture => exact composes.texture
  | shader => exact composes.shader
  | audio => exact composes.audio
  | named => exact composes.named

theorem run_nil (stored : Stored α) : (Packed.decode : Decoder α).run [] = .error .truncated := by
  cases stored <;> rfl

/-- A value which is read takes up one byte or more and leaves those behind. It is read again wherever
the same bytes stand in front, and is missed in every shorter part of them. A position moves by their
number if the value is read, and stays where it is otherwise, also behind the end. -/
theorem sized_readAt (stored : Stored α) (bytes : Bytes) :
    (∀ value size, (Packed.decode : Decoder α).sized bytes = .ok (value, size) →
      1 ≤ size ∧ size ≤ bytes.length ∧
        (Packed.decode : Decoder α).run bytes = .ok (value, bytes.drop size) ∧
        (∀ other, bytes.take size <+: other →
          (Packed.decode : Decoder α).sized other = .ok (value, size)) ∧
        ∀ part, part <+: bytes.take size → part ≠ bytes.take size →
          (Packed.decode : Decoder α).sized part = .error .truncated) ∧
      (∀ position value next,
        (Packed.decode : Decoder α).readAt bytes position = (.ok value, next) ↔
          position ≤ bytes.length ∧ ∃ size,
            (Packed.decode : Decoder α).sized (bytes.drop position) = .ok (value, size) ∧
              next = position + size) ∧
      (∀ position error next,
        (Packed.decode : Decoder α).readAt bytes position = (.error error, next) →
          next = position) ∧
      ∀ position, bytes.length < position →
        (Packed.decode : Decoder α).readAt bytes position = (.error .truncated, position) := by
  have code := stored.of_composes composes_prefixCode
  refine ⟨fun value size found => ?_, fun _ _ _ => code.readAt_eq_ok, fun _ _ _ => readAt_error,
    fun _ => readAt_behind⟩
  obtain ⟨form, rest, rfl, takes, rfl⟩ := code.sized_eq_ok.1 found
  rw [List.take_left, List.drop_left]
  refine ⟨takes.length_pos stored.run_nil, (List.prefix_append form rest).length_le, takes.run rest,
    ?_, ?_⟩
  · intro other start
    obtain ⟨more, rfl⟩ := start
    exact takes.sized more
  · intro part start short
    exact sized_eq_error.2 (takes.short start short)

end Stored

/-- A record with the name "walk" and three bytes which are not looked at. -/
def walkRecord : Bytes := [4, 0, 0, 0, 119, 97, 108, 107, 3, 0, 0, 0, 9, 9, 9]

theorem sized_readAt_walkRecord :
    Stored (Named Opaque) ∧
      (Packed.decode : Decoder (Named Opaque)).sized walkRecord =
        .ok (⟨"walk", ⟨[9, 9, 9]⟩⟩, 15) ∧
      (∀ more, (Packed.decode : Decoder (Named Opaque)).sized (walkRecord ++ more) =
        .ok (⟨"walk", ⟨[9, 9, 9]⟩⟩, 15)) ∧
      (Packed.decode : Decoder (Named Opaque)).sized (walkRecord.take 14) = .error .truncated ∧
      (Packed.decode : Decoder (Named Opaque)).readAt walkRecord 16 = (.error .truncated, 16) := by
  have found : (Packed.decode : Decoder (Named Opaque)).sized walkRecord =
      .ok (⟨"walk", ⟨[9, 9, 9]⟩⟩, 15) := by rfl
  obtain ⟨forms, -, -, behind⟩ := (Stored.named : Stored (Named Opaque)).sized_readAt walkRecord
  obtain ⟨-, -, -, again, missed⟩ := forms _ _ found
  exact ⟨.named, found, fun more => again _ (List.prefix_append walkRecord more),
    missed _ (List.take_prefix 14 walkRecord) (by decide), behind 16 (by decide)⟩

/-! A package is read by one position. -/

/-- What is read from a position on: the parts, and the error with its place if something is not
read. The first `count` records belong to a run which has begun. -/
inductive Trail (bytes : Bytes) :
    AssetType → Nat → Nat → List Part → Option (DecodeError × Nat) → Prop
  | done (type) : Trail bytes type 0 bytes.length [] none
  | header (type) {position next : Nat} {found : RunHeader} {parts stop} :
      position < bytes.length → readAt Packed.decode bytes position = (.ok found, next) →
      Trail bytes found.type found.count.toNat next parts stop →
      Trail bytes type 0 position (.header found :: parts) stop
  | noHeader (type) {position : Nat} {error} :
      position < bytes.length →
      readAt (Packed.decode : Decoder RunHeader) bytes position = (.error error, position) →
      Trail bytes type 0 position [] (some (error, position))
  | item {type} {count position next : Nat} {found : Item} {parts stop} :
      readAt (decodeItem type) bytes position = (.ok found, next) →
      Trail bytes type count next parts stop →
      Trail bytes type (count + 1) position (.item found :: parts) stop
  | noItem {type} {count position : Nat} {error} :
      readAt (decodeItem type) bytes position = (.error error, position) →
      Trail bytes type (count + 1) position [] (some (error, position))

/-- The error of a scan, with its place in the bytes whose end was scanned. -/
def Scan.stop (bytes : Bytes) (scan : Scan) : Option (DecodeError × Nat) :=
  scan.failure.map fun (error, left) => (error, bytes.length - left.length)

theorem Scan.stop_fail {bytes : Bytes} {position : Nat} (inside : position ≤ bytes.length)
    (error : DecodeError) :
    (Scan.fail error (bytes.drop position)).stop bytes = some (error, position) := by
  change some (error, bytes.length - (bytes.drop position).length) = _
  rw [List.length_drop, Nat.sub_sub_self inside]

theorem lt_of_drop_ne_nil {bytes : Bytes} {position : Nat} (some : bytes.drop position ≠ []) :
    position < bytes.length :=
  Nat.lt_of_not_le fun behind => some (List.drop_eq_nil_iff.2 behind)

theorem trail_scan {bytes left : Bytes} {type : AssetType} {count position : Nat}
    (inside : position ≤ bytes.length) (same : bytes.drop position = left) :
    Trail bytes type count position (scan type count left).parts
      ((scan type count left).stop bytes) := by
  -- The cases are the end of the bytes, a header or none, and a record or none.
  induction type, count, left using scan.induct generalizing position with
  | case1 type =>
    have finish : position = bytes.length := Nat.le_antisymm inside (List.drop_eq_nil_iff.1 same)
    subst finish
    rw [scan_nil]
    exact .done type
  | case2 type left some header rest found ih =>
    subst same
    obtain ⟨next, read, behind, inside'⟩ := composes_prefixCode.header.readAt_of_run inside found
    rw [scan_header found]
    exact .header type (lt_of_drop_ne_nil some) read (ih inside' behind)
  | case3 type left some error failed =>
    subst same
    rw [scan_header_error some failed, Scan.stop_fail inside]
    exact .noHeader type (lt_of_drop_ne_nil some) (readAt_of_run_error inside failed)
  | case4 type count left some item rest found ih =>
    subst same
    obtain ⟨count, rfl⟩ := Nat.exists_eq_succ_of_ne_zero some
    obtain ⟨next, read, behind, inside'⟩ :=
      (composes_prefixCode.item type).readAt_of_run inside found
    rw [scan_item found]
    exact .item read (ih inside' behind)
  | case5 type count left some error failed =>
    subst same
    obtain ⟨count, rfl⟩ := Nat.exists_eq_succ_of_ne_zero some
    rw [scan_item_error failed, Scan.stop_fail inside]
    exact .noItem (readAt_of_run_error inside failed)

/-- A package is read from the position behind its version on. The offset of an error is the position
which did not move. -/
theorem exists_trail_read (bytes : Bytes) : ∃ parts stop,
    Trail (formatVersion :: bytes) .invalid 0 1 parts stop ∧
      (read (formatVersion :: bytes)).run.value = match stop with
        | none => .ok (parts.filterMap Part.record?)
        | some (error, offset) => .error (.corrupt offset error) := by
  have inside : 1 ≤ (formatVersion :: bytes).length := Nat.succ_pos _
  refine ⟨_, _, trail_scan inside rfl, ?_⟩
  rw [value_read]
  change _ = match (scan .invalid 0 bytes).stop (formatVersion :: bytes) with
    | none => _
    | some (error, offset) => _
  rw [Scan.stop, List.length_cons, Nat.add_comm]
  cases (scan .invalid 0 bytes).failure <;> rfl

end AssetPack.Package

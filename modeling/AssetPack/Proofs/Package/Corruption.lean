import AssetPack.Proofs.Package.Appending
import AssetPack.Proofs.Package.PrefixCode

/-! Packages which are corrupt. An error tells where the first header or record starts which is not
read, and unless bytes are missing there it stays the same whatever follows. -/

namespace AssetPack.Package

namespace Decoder
variable {α β : Type}

/-- An error other than missing bytes comes from the bytes at hand, so that it stays when more
follow. -/
def Final (decoder : Decoder α) : Prop :=
  ∀ bytes error, decoder.run bytes = .error error → error ≠ .truncated →
    ∀ more, decoder.run (bytes ++ more) = .error error

theorem PrefixCode.run_append {decoder : Decoder α} (code : decoder.PrefixCode) {bytes rest : Bytes}
    {value : α} (ok : decoder.run bytes = .ok (value, rest)) (more : Bytes) :
    decoder.run (bytes ++ more) = .ok (value, rest ++ more) := by
  obtain ⟨form, rfl, takes⟩ := code bytes value rest ok
  rw [List.append_assoc]
  exact takes.run (rest ++ more)

theorem Final.bind {decoder : Decoder α} {next : α → Decoder β} (h : decoder.Final)
    (code : decoder.PrefixCode) (h' : ∀ first, (next first).Final) :
    (decoder >>= next).Final := by
  intro bytes error stopped other more
  rw [StateT.run_bind] at stopped ⊢
  cases first : decoder.run bytes with
  | error e =>
    rw [first] at stopped
    cases stopped
    rw [h bytes error first other more]
    rfl
  | ok pair =>
    obtain ⟨a, middle⟩ := pair
    rw [first] at stopped
    rw [code.run_append first more]
    exact h' a middle error stopped other more

theorem final_pure (value : α) : (pure value : Decoder α).Final := by
  intro bytes error stopped
  cases stopped

theorem final_throw (error : DecodeError) : (throw error : Decoder α).Final := by
  intro bytes e stopped other more
  cases stopped
  rfl

theorem final_byte : byte.Final := by
  intro bytes error stopped other
  cases bytes with
  | nil =>
    cases stopped
    exact absurd rfl other
  | cons b rest => cases stopped

theorem final_take (size : Nat) : (take size).Final := by
  intro bytes error stopped other
  simp only [StateT.run, take] at stopped
  split at stopped
  · cases stopped
  · cases stopped
    exact absurd rfl other

/-- What was read in front of an error is read again, so that the error can only be final where the
values in front of it are known from their own bytes. -/
theorem composes_final : Composes fun _ decoder => decoder.PrefixCode ∧ decoder.Final where
  value value := ⟨prefixCode_pure value, final_pure value⟩
  failure error := ⟨prefixCode_throw error, final_throw error⟩
  byte := ⟨prefixCode_byte, final_byte⟩
  take size := ⟨prefixCode_take size, final_take size⟩
  bind h h' := ⟨h.1.bind fun first => (h' first).1, h.2.bind h.1 fun first => (h' first).2⟩

end Decoder

open Decoder

namespace Stuck
variable {left start : Bytes} {error : DecodeError}

theorem append (stuck : Stuck left error start) (other : error ≠ .truncated) (more : Bytes) :
    Stuck (left ++ more) error start := by
  cases stuck with
  | header some unread =>
    exact .header (fun none => some (List.append_eq_nil_iff.1 none).1)
      (composes_final.header.2 left error unread other more)
  | item header items real good missing unread =>
    exact .item header items real good missing
        ((composes_final.item _).2 left error unread other more)

/-- Reading stops behind the start of a run, and nowhere before. -/
theorem failure_scan (stuck : Stuck left error start) :
    (scan .invalid 0 (start ++ left)).failure = some (error, left) := by
  cases stuck with
  | header some unread =>
    rw [List.nil_append, scan_header_error some unread]
    rfl
  | item header items real good missing unread =>
    have taken : (Packed.decode : Decoder RunHeader).run
        (Packed.encode header ++ items.flatMap Item.encode ++ left) =
          .ok (header, items.flatMap Item.encode ++ left) :=
      run_header_eq_ok.2 ⟨real, List.append_assoc _ _ _⟩
    obtain ⟨lacking, count⟩ := Nat.exists_eq_add_of_lt missing
    rw [scan_header taken, count, Nat.add_assoc, scan_items_add good, scan_item_error unread]
    rfl

theorem value_read (stuck : Stuck left error start) {runs : List Run}
    (good : ∀ run ∈ runs, run.Short ∧ run.Complete) :
    (read (encode runs ++ (start ++ left))).run.value =
      .error (.corrupt (encode runs ++ start).length error) := by
  rw [value_read_append (fun run mem => (good run mem).1) (fun run mem => (good run mem).2),
    stuck.failure_scan]
  have place : 1 + (start ++ left).length - left.length + (encode runs).length - 1 =
      (encode runs ++ start).length := by
    rw [List.length_append, List.length_append]
    omega
  dsimp only
  rw [place]

end Stuck

/-- An error in a package comes with the place behind whole runs, or behind the start of one more,
where something is not read. -/
theorem stuck_of_read {bytes : Bytes} {offset : Nat} {error : DecodeError}
    (corrupt : (read bytes).run.value = .error (.corrupt offset error)) :
    ∃ (runs : List Run) (start left : Bytes), (∀ run ∈ runs, run.Short ∧ run.Complete) ∧
      Stuck left error start ∧ bytes = encode runs ++ (start ++ left) ∧
        offset = (encode runs ++ start).length := by
  obtain ⟨rest, rfl⟩ : ∃ rest, bytes = formatVersion :: rest := by
    cases bytes with
    | nil => cases corrupt
    | cons version rest =>
      by_cases known : version = formatVersion
      · exact ⟨rest, known ▸ rfl⟩
      · rw [read, if_pos known, Attempt.value_bind] at corrupt
        cases corrupt
  have stopped := corrupt
  rw [Package.value_read] at stopped
  cases failure : (scan .invalid 0 rest).failure with
  | none =>
    rw [failure] at stopped
    cases stopped
  | some pair =>
    obtain ⟨reason, left⟩ := pair
    rw [failure] at stopped
    cases stopped
    obtain ⟨items, -, ⟨few, -⟩ | ⟨length, runs, start, good, stuck, rfl⟩⟩ := stuck_of_scan failure
    · exact absurd few (Nat.not_lt_zero _)
    · obtain rfl := List.eq_nil_of_length_eq_zero length
      refine ⟨runs, start, left, good, stuck, rfl, ?_⟩
      simp only [encode, List.flatMap_nil, List.nil_append, List.cons_append, List.length_cons,
        List.length_append]
      omega

/-- A corrupt package is read up to the place of the error: whole runs, and perhaps the start of one
more. What should start there is not read, and unless it is cut off, the error stays the same
whatever follows. -/
theorem located_of_corrupt {bytes : Bytes} {offset : Nat} {error : DecodeError}
    (corrupt : (read bytes).run.value = .error (.corrupt offset error)) :
    1 ≤ offset ∧ offset ≤ bytes.length ∧
      (∃ (runs : List Run) (start : Bytes), (∀ run ∈ runs, run.Short ∧ run.Complete) ∧
        bytes.take offset = encode runs ++ start ∧ Stuck (bytes.drop offset) error start) ∧
      (error ≠ .truncated → ∀ more,
        (read (bytes ++ more)).run.value = .error (.corrupt offset error)) := by
  obtain ⟨runs, start, left, good, stuck, rfl, rfl⟩ := stuck_of_read corrupt
  rw [← List.append_assoc, List.take_left, List.drop_left]
  refine ⟨?_, ?_, ⟨runs, start, good, rfl, stuck⟩, fun other more => ?_⟩
  · rw [encode, List.cons_append, List.length_cons]
    exact Nat.succ_pos _
  · exact (List.prefix_append _ left).length_le
  · rw [List.append_assoc, List.append_assoc]
    exact (stuck.append other more).value_read good

/-- Whole runs and a run of three sounds, the second of which has a format with no meaning. -/
def brokenSound : Bytes :=
  encode mixedRuns ++ [6, 3, 0, 0, 0, 0, 0, 0, 0, 11, 0, 0, 0, 0, 1, 1, 0, 0, 0, 64, 31, 0, 0, 128,
    0, 0, 0, 0, 11, 0, 0, 0, 9, 1, 1, 0, 0, 0, 64, 31, 0, 0, 128]

theorem located_of_corrupt_brokenSound :
    (read brokenSound).run.value =
        .error (.corrupt ((encode mixedRuns).length + 24) (.invalidAudioFormat 9)) ∧
      (∃ (runs : List Run) (start : Bytes), (∀ run ∈ runs, run.Short ∧ run.Complete) ∧
        brokenSound.take ((encode mixedRuns).length + 24) = encode runs ++ start ∧
        Stuck (brokenSound.drop ((encode mixedRuns).length + 24)) (.invalidAudioFormat 9) start) ∧
      ∀ more, (read (brokenSound ++ more)).run.value =
        .error (.corrupt ((encode mixedRuns).length + 24) (.invalidAudioFormat 9)) := by
  have corrupt : (read brokenSound).run.value =
      .error (.corrupt ((encode mixedRuns).length + 24) (.invalidAudioFormat 9)) := by
    decide +kernel
  obtain ⟨-, -, located, final⟩ := located_of_corrupt corrupt
  exact ⟨corrupt, located, final DecodeError.noConfusion⟩

end AssetPack.Package

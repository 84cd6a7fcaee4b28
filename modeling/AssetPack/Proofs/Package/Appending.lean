import Mathlib.Control.Monad.Basic
import AssetPack.Proofs.Package.Canonical

/-! Packages behind one another. Runs which follow a package are read as if they stood alone. -/

namespace AssetPack.Package
open Decoder

/-- The bytes which are left where reading stops are the end of all bytes. -/
theorem scan_suffix {type : AssetType} {count : Nat} {bytes left : Bytes} {error : DecodeError}
    (stopped : (scan type count bytes).failure = some (error, left)) : left <:+ bytes := by
  obtain ⟨items, -, ⟨-, rfl, -⟩ | ⟨-, runs, start, -, -, rfl⟩⟩ := stuck_of_scan stopped
  · exact List.suffix_append _ _
  · simp only [← List.append_assoc]
    exact List.suffix_append _ _

/-- What is read of runs and of whatever follows them, in terms of what follows them. -/
theorem value_read_append {runs : List Run} (short : ∀ run ∈ runs, run.Short)
    (complete : ∀ run ∈ runs, run.Complete) (more : Bytes) :
    (read (encode runs ++ more)).run.value = match (scan .invalid 0 more).failure with
      | none => .ok (runs.flatMap Run.records ++ (scan .invalid 0 more).records)
      | some (error, left) =>
        .error (.corrupt (1 + more.length - left.length + (encode runs).length - 1) error) := by
  have joined : encode runs ++ more =
      formatVersion :: (runs.flatMap Run.encode ++ more) := rfl
  have records : ((scan .invalid 0 more).prepend (runs.flatMap Run.parts)).records =
      runs.flatMap Run.records ++ (scan .invalid 0 more).records := by
    rw [Scan.records, Scan.prepend, List.filterMap_append, records_of_runs]
    rfl
  rw [joined, value_read, scan_runs short complete, records, Scan.prepend]
  cases stopped : (scan .invalid 0 more).failure with
  | none => rfl
  | some failure =>
    obtain ⟨error, left⟩ := failure
    -- Reading stops in what follows the runs, so that no subtraction ends at zero.
    have within : left.length ≤ more.length := (scan_suffix stopped).length_le
    have place : 1 + (runs.flatMap Run.encode ++ more).length - left.length =
        1 + more.length - left.length + (encode runs).length - 1 := by
      rw [encode, List.length_append, List.length_cons]
      omega
    dsimp only
    rw [place]

/-- Packages compose. Bytes behind a package are read as they are read behind a version alone: their
records follow those of the package, and an error in them is only moved by its length. Behind a
version nothing else can happen. -/
theorem read_append {package : Bytes} {records : List Record}
    (accepted : (read package).run.value = .ok records) (more : Bytes) :
    (∀ others, (read (formatVersion :: more)).run.value = .ok others →
      (read (package ++ more)).run.value = .ok (records ++ others)) ∧
    (∀ offset reason,
      (read (formatVersion :: more)).run.value = .error (.corrupt offset reason) →
        (read (package ++ more)).run.value =
          .error (.corrupt (offset + package.length - 1) reason)) ∧
    ∀ error, (read (formatVersion :: more)).run.value = .error error →
      ∃ offset reason, error = .corrupt offset reason := by
  obtain ⟨runs, good, rfl, rfl⟩ := runs_of_read accepted
  rw [value_read_append (fun run mem => (good run mem).1) (fun run mem => (good run mem).2),
    value_read]
  cases (scan .invalid 0 more).failure with
  | none =>
    refine ⟨fun others alone => ?_, fun offset reason alone => ?_, fun error alone => ?_⟩
    · rw [Except.ok.inj alone]
    · cases alone
    · cases alone
  | some failure =>
    refine ⟨fun others alone => ?_, fun offset reason alone => ?_, fun error alone => ?_⟩
    · cases alone
    · cases alone
      rfl
    · cases alone
      exact ⟨_, _, rfl⟩

/-- Behind the package `mixedRuns`: a run with a sound, and a tag which no type has. -/
theorem read_append_mixedRuns :
    (read (encode mixedRuns)).run.value =
        .ok [⟨"brick.png", .texture ⟨1, 2, .r, [7, 9]⟩⟩, ⟨"", .shader (.compute "main")⟩] ∧
      (read (encode mixedRuns ++ [6, 1, 0, 0, 0, 0, 0, 0, 0, 11, 0, 0, 0, 0, 1, 1, 0, 0, 0, 64, 31,
        0, 0, 128])).run.value =
        .ok [⟨"brick.png", .texture ⟨1, 2, .r, [7, 9]⟩⟩, ⟨"", .shader (.compute "main")⟩,
          ⟨"", .audio ⟨.u8, 1, 8000, [128]⟩⟩] ∧
      (read (encode mixedRuns ++ [6, 0, 0, 0, 0, 9])).run.value =
        .error (.corrupt ((encode mixedRuns).length + 5) (.invalidAssetType 9)) := by
  have package : (read (encode mixedRuns)).run.value = .ok _ :=
    value_read_encode short_mixedRuns complete_mixedRuns
  have sound : (read (formatVersion :: [6, 1, 0, 0, 0, 0, 0, 0, 0, 11, 0, 0, 0, 0, 1, 1, 0, 0, 0,
      64, 31, 0, 0, 128])).run.value = .ok [⟨"", .audio ⟨.u8, 1, 8000, [128]⟩⟩] := by
    decide +kernel
  have unknown : (read (formatVersion :: [6, 0, 0, 0, 0, 9])).run.value =
      .error (.corrupt 6 (.invalidAssetType 9)) := by
    decide +kernel
  have moved := (read_append package [6, 0, 0, 0, 0, 9]).2.1 _ _ unknown
  rw [show 6 + (encode mixedRuns).length - 1 = (encode mixedRuns).length + 5 by omega] at moved
  exact ⟨package, (read_append package _).1 _ sound, moved⟩

end AssetPack.Package

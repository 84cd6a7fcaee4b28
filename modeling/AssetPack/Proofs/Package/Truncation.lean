import Mathlib.Control.Monad.Basic
import AssetPack.Proofs.Package.Canonical
import AssetPack.Proofs.Package.PrefixCode

/-! Packages which are cut off. A cut between two runs can not be seen. Any other cut is found where
the first header or record starts which is not whole. -/

namespace AssetPack.Package
open Decoder

theorem takes_header (run : Run) :
    (Packed.decode : Decoder RunHeader).Takes run.header (Packed.encode run.header) :=
  composes_prefixCode.header.takes
    (run_header_eq_ok.2 ⟨run.type_ne_invalid, (List.append_nil _).symm⟩)

theorem takes_item {type : AssetType} {item : Item} (good : item.Good type) :
    (decodeItem type).Takes item item.encode :=
  (composes_prefixCode.item type).takes
    (run_item_eq_ok.2 ⟨good.1, good.2.1, good.2.2, (List.append_nil _).symm⟩)

/-- A beginning of some forms in a row is all of them, or ends inside one of them. -/
theorem prefix_flatMap {α β : Type} {f : α → List β} {items : List α} {part : List β}
    (h : part <+: items.flatMap f) : part = items.flatMap f ∨ ∃ front item back left,
      items = front ++ item :: back ∧ part = front.flatMap f ++ left ∧ left <+: f item ∧
        left ≠ f item := by
  induction items generalizing part with
  | nil => exact .inl (List.prefix_nil.1 h)
  | cons item items ih =>
    rw [List.flatMap_cons] at h
    rcases prefix_append_cases h with ⟨inside, ne⟩ | ⟨more, rfl, rest⟩
    · exact .inr ⟨[], item, items, part, rfl, rfl, inside, ne⟩
    · rcases ih rest with rfl | ⟨front, next, back, left, rfl, rfl, inside, ne⟩
      · exact .inl rfl
      · refine .inr ⟨item :: front, next, back, left, rfl, ?_, inside, ne⟩
        rw [List.flatMap_cons, List.append_assoc]

/-- The forms of the header of a run and of its records, one after the other. -/
def Run.pieces (run : Run) : List Bytes := Packed.encode run.header :: run.items.map Item.encode

/-- The forms which a package is made of: the version, and the headers and records of the runs. -/
def pieces (runs : List Run) : List Bytes := [formatVersion] :: runs.flatMap Run.pieces

theorem Run.flatten_pieces (run : Run) : run.pieces.flatten = run.encode := by
  rw [pieces, List.flatten_cons, ← List.flatMap_def]
  rfl

theorem flatten_pieces (runs : List Run) :
    (runs.flatMap Run.pieces).flatten = runs.flatMap Run.encode := by
  induction runs with
  | nil => rfl
  | cons run runs ih =>
    rw [List.flatMap_cons, List.flatten_append, run.flatten_pieces, ih, List.flatMap_cons]

/-- `start` is where the first piece begins which is not whole in the first `size` bytes. -/
def BreaksAt (pieces : List Bytes) (size start : Nat) : Prop :=
  ∃ front piece back, pieces = front ++ piece :: back ∧ start = front.flatten.length ∧
    start ≤ size ∧ size < start + piece.length

/-- Some bytes end inside one of the pieces, of which they have the part `left`. -/
def EndsInside (pieces : List Bytes) (bytes left : Bytes) : Prop :=
  ∃ front piece back, pieces = front ++ piece :: back ∧ bytes = front.flatten ++ left ∧
    left <+: piece ∧ left ≠ piece

theorem EndsInside.behind {pieces : List Bytes} {bytes left : Bytes}
    (h : EndsInside pieces bytes left) (before more : List Bytes) :
    EndsInside (before ++ pieces ++ more) (before.flatten ++ bytes) left := by
  obtain ⟨front, piece, back, rfl, rfl, inside, ne⟩ := h
  refine ⟨before ++ front, piece, back ++ more, ?_, ?_, inside, ne⟩
  · simp only [List.append_assoc, List.cons_append]
  · rw [List.flatten_append, List.append_assoc]

/-- A run which is cut off, but not before its first byte. -/
theorem scan_cut_run {run : Run} (short : run.Short) (complete : run.Complete) {part : Bytes}
    (inside : part <+: run.encode) (ne : part ≠ run.encode) (nonempty : part ≠ []) :
    ∃ parts left, EndsInside run.pieces part left ∧
      scan .invalid 0 part = ⟨parts, some (.truncated, left)⟩ := by
  have header := takes_header run
  rcases prefix_append_cases inside with ⟨early, other⟩ | ⟨more, rfl, rest⟩
  · refine ⟨[], part, ⟨[], _, _, rfl, rfl, early, other⟩, ?_⟩
    exact scan_header_error nonempty (header.short early other)
  · rcases prefix_flatMap rest with rfl | ⟨front, item, back, left, items, rfl, inside, other⟩
    · exact absurd rfl ne
    have good : ∀ item ∈ run.items, item.Good run.type := fun item mem =>
      ⟨run.fits item mem, short.2 item mem, complete item mem⟩
    have goodFront : ∀ item ∈ front, item.Good run.type := fun other mem =>
      good other (items ▸ List.mem_append_left _ mem)
    have goodItem : item.Good run.type :=
      good item (items ▸ List.mem_append_right _ List.mem_cons_self)
    have count : run.header.count.toNat = front.length + (back.length + 1) := by
      rw [Run.toNat_count short.1, items, List.length_append, List.length_cons]
    refine ⟨.header run.header :: front.map .item, left, ?_, ?_⟩
    · refine ⟨Packed.encode run.header :: front.map Item.encode, item.encode,
        back.map Item.encode, ?_, ?_, inside, other⟩
      · rw [Run.pieces, items, List.map_append, List.map_cons]
        rfl
      · rw [List.flatten_cons, ← List.flatMap_def, List.append_assoc]
    · rw [scan_header (header.run _), count]
      change (scan run.type _ _).cons _ = _
      rw [scan_items_add goodFront, scan_item_error ((takes_item goodItem).short inside other)]
      simp [Scan.prepend, Scan.cons, Scan.fail]

/-- What is read of runs which are cut off: whole runs, or parts up to the cut. -/
theorem scan_cut {runs : List Run} (short : ∀ run ∈ runs, run.Short)
    (complete : ∀ run ∈ runs, run.Complete) {part : Bytes}
    (inside : part <+: runs.flatMap Run.encode) :
    (∃ whole later, runs = whole ++ later ∧ part = whole.flatMap Run.encode) ∨
      ∃ parts left, EndsInside (runs.flatMap Run.pieces) part left ∧
        scan .invalid 0 part = ⟨parts, some (.truncated, left)⟩ := by
  rcases prefix_flatMap inside with rfl | ⟨whole, run, later, part, rfl, rfl, inside, ne⟩
  · exact .inl ⟨runs, [], (List.append_nil _).symm, rfl⟩
  by_cases nonempty : part = []
  · subst nonempty
    exact .inl ⟨whole, run :: later, rfl, List.append_nil _⟩
  · have mem : run ∈ whole ++ run :: later := List.mem_append_right _ List.mem_cons_self
    obtain ⟨parts, left, cut, scanned⟩ :=
      scan_cut_run (short run mem) (complete run mem) inside ne nonempty
    refine .inr ⟨whole.flatMap Run.parts ++ parts, left, ?_, ?_⟩
    · have behind := cut.behind (whole.flatMap Run.pieces) (later.flatMap Run.pieces)
      rw [flatten_pieces] at behind
      simpa only [List.flatMap_append, List.flatMap_cons, List.append_assoc] using behind
    · rw [scan_runs (fun run mem => short run (List.mem_append_left _ mem))
        (fun run mem => complete run (List.mem_append_left _ mem)), scanned]
      rfl

theorem EndsInside.breaksAt {pieces : List Bytes} {bytes left : Bytes}
    (h : EndsInside pieces bytes left) :
    BreaksAt pieces bytes.length (bytes.length - left.length) := by
  obtain ⟨front, piece, back, rfl, rfl, inside, ne⟩ := h
  have less : left.length < piece.length :=
    Nat.lt_of_le_of_ne inside.length_le fun same => ne (inside.eq_of_length same)
  refine ⟨front, piece, back, rfl, ?_, ?_, ?_⟩ <;> rw [List.length_append] <;> omega

/-- Between two pieces the next one starts at the cut. -/
theorem BreaksAt.eq_of_boundary {pieces front back : List Bytes} {size start : Nat}
    (h : BreaksAt pieces size start) (boundary : pieces = front ++ back)
    (cut : size = front.flatten.length) : start = size := by
  obtain ⟨front', piece, back', rfl, rfl, le, lt⟩ := h
  rcases List.append_eq_append_iff.1 boundary with ⟨more, rfl, rest⟩ | ⟨more, rfl, -⟩
  · cases more with
    | nil => rw [cut, List.append_nil]
    | cons other more =>
      obtain ⟨rfl, -⟩ := List.cons_eq_cons.1 rest
      rw [List.flatten_append, List.flatten_cons, List.length_append, List.length_append] at cut
      omega
  · rw [List.flatten_append, List.length_append] at le ⊢
    omega

/-- A package which is cut off is empty, or has lost whole runs without a trace, or is corrupt where
the first header or record starts which is not whole. A cut behind a header or a record, with more
of its run missing, is found right there. -/
theorem read_take (runs : List Run) (short : ∀ run ∈ runs, run.Short)
    (complete : ∀ run ∈ runs, run.Complete) {size : Nat} (inside : size ≤ (encode runs).length) :
    (size = 0 → (read ((encode runs).take size)).run.value = .error .empty) ∧
      (∀ whole later, runs = whole ++ later → size = (encode whole).length →
        (read ((encode runs).take size)).run.value = .ok (whole.flatMap Run.records)) ∧
      (0 < size → (∀ whole later, runs = whole ++ later → size ≠ (encode whole).length) →
        ∃ offset, (read ((encode runs).take size)).run.value = .error (.corrupt offset .truncated) ∧
          BreaksAt (pieces runs) size offset ∧
          ∀ front back, pieces runs = front ++ back → size = front.flatten.length →
            offset = size) := by
  refine ⟨?_, ?_, ?_⟩
  · intro none
    subst none
    rfl
  · intro whole later split cut
    subst split
    have start : encode (whole ++ later) = encode whole ++ later.flatMap Run.encode := by
      rw [encode, List.flatMap_append]
      rfl
    rw [start, cut, List.take_left]
    exact value_read_encode (fun run mem => short run (List.mem_append_left _ mem))
      fun run mem => complete run (List.mem_append_left _ mem)
  · intro some noRun
    obtain ⟨size, rfl⟩ := Nat.exists_eq_add_one.2 some
    have part := List.take_prefix size (runs.flatMap Run.encode)
    have length : ((runs.flatMap Run.encode).take size).length = size := by
      rw [encode, List.length_cons] at inside
      rw [List.length_take]
      omega
    rcases scan_cut short complete part with ⟨whole, later, split, same⟩ | ⟨parts, left, ends, found⟩
    · refine absurd ?_ (noRun whole later split)
      rw [encode, List.length_cons, ← same, length]
    have breaks := (ends.behind [[formatVersion]] []).breaksAt
    rw [List.append_nil, List.length_append, length, Nat.add_comm _ size] at breaks
    refine ⟨size + 1 - left.length, ?_, breaks, fun front back => breaks.eq_of_boundary⟩
    rw [encode, List.take_succ_cons, value_read, found, length, Nat.add_comm 1]

theorem read_take_mixedRuns :
    (∀ run ∈ mixedRuns, run.Short) ∧ (∀ run ∈ mixedRuns, run.Complete) ∧
      20 ≤ (encode mixedRuns).length ∧
      (∀ whole later, mixedRuns = whole ++ later → 20 ≠ (encode whole).length) ∧
      (read ((encode mixedRuns).take 20)).run.value = .error (.corrupt 6 .truncated) ∧
      BreaksAt (pieces mixedRuns) 20 6 := by
  have noRun : ∀ whole later, mixedRuns = whole ++ later → 20 ≠ (encode whole).length := by
    intro whole later split
    have lengths : ∀ n ≤ mixedRuns.length, 20 ≠ (encode (mixedRuns.take n)).length := by decide
    have few : whole.length ≤ mixedRuns.length := by rw [split, List.length_append]; omega
    have cut := lengths whole.length few
    rwa [split, List.take_left] at cut
  have inside : 20 ≤ (encode mixedRuns).length := by decide
  obtain ⟨offset, value, breaks, -⟩ :=
    (read_take mixedRuns short_mixedRuns complete_mixedRuns inside).2.2 (by decide) noRun
  have same : offset = 6 := by
    have found : (read ((encode mixedRuns).take 20)).run.value = .error (.corrupt 6 .truncated) := by
      decide +kernel
    rw [found] at value
    cases value
    rfl
  subst same
  exact ⟨short_mixedRuns, complete_mixedRuns, inside, noRun, value, breaks⟩

end AssetPack.Package

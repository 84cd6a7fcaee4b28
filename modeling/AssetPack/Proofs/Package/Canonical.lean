import Mathlib.Logic.ExistsUnique
import AssetPack.Proofs.Log
import AssetPack.Proofs.Package.Scanning

/-! Packages and their forms. Runs are read back from what they are written as, and a package which
is read is the form of exactly one list of runs. -/

namespace AssetPack.Package
open Decoder

/-! What is read, in terms of the parts. -/

theorem value_read (bytes : Bytes) : (read (formatVersion :: bytes)).run.value =
    match (scan .invalid 0 bytes).failure with
    | none => .ok (scan .invalid 0 bytes).records
    | some (error, left) => .error (.corrupt (1 + bytes.length - left.length) error) := by
  rw [read]
  simp only [ne_eq, not_true_eq_false, if_false]
  rw [Attempt.value_bind, Attempt.run_forM]
  cases (scan .invalid 0 bytes).failure with
  | none => rfl
  | some failure => rfl

theorem log_read {bytes : Bytes} {parts : List Part} (h : scan .invalid 0 bytes = ⟨parts, none⟩) :
    (read (formatVersion :: bytes)).run.log = parts.flatMap fun part => part.report.log := by
  rw [read]
  simp only [ne_eq, not_true_eq_false, if_false]
  rw [Attempt.log_bind, Attempt.run_forM, h]
  exact List.append_nil _

/-- A package which is read has the version in front, and was read to its end. -/
theorem scan_of_read {bytes : Bytes} {records : List Record}
    (h : (read bytes).run.value = .ok records) : ∃ parts rest, bytes = formatVersion :: rest ∧
      scan .invalid 0 rest = ⟨parts, none⟩ ∧ parts.filterMap Part.record? = records := by
  cases bytes with
  | nil => cases h
  | cons version rest =>
    by_cases known : version = formatVersion
    · subst known
      rw [value_read] at h
      cases scanned : scan .invalid 0 rest with
      | mk parts failure =>
        rw [scanned] at h
        cases failure with
        | none =>
          cases h
          exact ⟨parts, rest, rfl, scanned, rfl⟩
        | some failure => cases h
    · rw [read, if_pos known, Attempt.value_bind] at h
      cases h

/-- One warning for a record of a type which is not packaged, and none for others. -/
def Item.warnings : Item → List Message
  | .record _ => []
  | .skipped type named => [⟨.warn, .package,
      s!"Skipping {type.label} {Text.quote named.name}, " ++ "it can't be loaded from packages."⟩]

def Run.warnings (run : Run) : List Message := run.items.flatMap Item.warnings

theorem warnings_of_item (item : Item) :
    (Part.item item).report.log.filter (·.level = .warn) = item.warnings := by
  cases item <;> rfl

theorem warnings_of_parts (run : Run) :
    (run.parts.flatMap fun part => part.report.log).filter (·.level = .warn) = run.warnings := by
  rw [Run.parts, List.flatMap_cons, List.filter_append, List.flatMap_map, List.filter_flatMap]
  simp only [warnings_of_item]
  rfl

theorem records_of_parts (run : Run) : run.parts.filterMap Part.record? = run.records := by
  rw [Run.parts, Run.records, List.filterMap_cons]
  change List.filterMap Part.record? (run.items.map .item) = _
  rw [List.filterMap_map]
  congr 1
  funext item
  cases item <;> rfl

theorem records_of_runs (runs : List Run) :
    (runs.flatMap Run.parts).filterMap Part.record? = runs.flatMap Run.records := by
  rw [List.filterMap_flatMap]
  simp only [records_of_parts]

theorem scan_encode {runs : List Run} (short : ∀ run ∈ runs, run.Short)
    (complete : ∀ run ∈ runs, run.Complete) :
    scan .invalid 0 (runs.flatMap Run.encode) = ⟨runs.flatMap Run.parts, none⟩ := by
  have read := scan_runs short complete []
  rw [List.append_nil, scan_nil, Scan.prepend, List.append_nil] at read
  exact read

theorem value_read_encode {runs : List Run} (short : ∀ run ∈ runs, run.Short)
    (complete : ∀ run ∈ runs, run.Complete) :
    (read (encode runs)).run.value = .ok (runs.flatMap Run.records) := by
  rw [encode, value_read, scan_encode short complete]
  exact congrArg Except.ok (records_of_runs runs)

/-- The whole format: every list of runs is read back, and every record of a type which is not
packaged leaves one warning. -/
theorem read_encode (runs : List Run) (short : ∀ run ∈ runs, run.Short)
    (complete : ∀ run ∈ runs, run.Complete) :
    (read (encode runs)).run.value = .ok (runs.flatMap Run.records) ∧
      (read (encode runs)).run.log.filter (·.level = .warn) = runs.flatMap Run.warnings := by
  refine ⟨value_read_encode short complete, ?_⟩
  rw [encode, log_read (scan_encode short complete), List.flatMap_assoc, List.filter_flatMap]
  simp only [warnings_of_parts]

/-- Runs of a packaged type and of another one, an empty run, and a record without a name. -/
def mixedRuns : List Run :=
  [⟨.texture, [.record ⟨"brick.png", .texture ⟨1, 2, .r, [7, 9]⟩⟩], by decide, by decide⟩,
    ⟨.font, [.skipped .font ⟨"mono", ⟨[1, 2, 3]⟩⟩], by decide, by decide⟩,
    ⟨.audioBuffer, [], by decide, by decide⟩,
    ⟨.shader, [.record ⟨"", .shader (.compute "main")⟩], by decide, by decide⟩]

theorem short_mixedRuns : ∀ run ∈ mixedRuns, run.Short := by
  simp [mixedRuns, Run.Short, Item.Short, Named.Short, PackagedAsset.size, Packed.size]
  decide

theorem complete_mixedRuns : ∀ run ∈ mixedRuns, run.Complete := by
  simp [mixedRuns, Run.Complete, Item.Complete, PackagedAsset.Complete, Complete,
    Texture.pixelBytes, PixelFormat.bytesPerPixel]

theorem read_encode_mixedRuns :
    (∀ run ∈ mixedRuns, run.Short) ∧ (∀ run ∈ mixedRuns, run.Complete) ∧
      (read (encode mixedRuns)).run.value =
        .ok [⟨"brick.png", .texture ⟨1, 2, .r, [7, 9]⟩⟩, ⟨"", .shader (.compute "main")⟩] ∧
      ((read (encode mixedRuns)).run.log.filter (·.level = .warn)).length = 1 :=
  have h := read_encode mixedRuns short_mixedRuns complete_mixedRuns
  ⟨short_mixedRuns, complete_mixedRuns, h.1, congrArg List.length h.2⟩

/-! A form belongs to one list of runs. -/

theorem run_unique {α : Type} {decoder : Decoder α} {bytes x y : Bytes} {a b : α}
    (h : decoder.run bytes = .ok (a, x)) (h' : decoder.run bytes = .ok (b, y)) :
    a = b ∧ x = y := by
  rw [h] at h'
  exact Prod.mk.inj (Except.ok.inj h')

theorem ofWord_append_inj {a b : UInt32} {x y : Bytes}
    (h : Bytes.ofWord a ++ x = Bytes.ofWord b ++ y) : a = b ∧ x = y :=
  run_unique (run_word a x) (run_word_eq_ok.2 h)

/-- Also a texture whose pixels do not fit its dimensions has a form of its own. -/
theorem encode_texture_inj {a b : Texture} (h : Packed.encode a = Packed.encode b) : a = b := by
  obtain ⟨width, height, format, pixels⟩ := a
  obtain ⟨width', height', format', pixels'⟩ := b
  rw [encode_texture, encode_texture] at h
  obtain ⟨sameWidth, h⟩ := ofWord_append_inj h
  obtain ⟨sameHeight, h⟩ := ofWord_append_inj h
  obtain ⟨sameTag, samePixels⟩ := List.cons_eq_cons.1 h
  have sameFormat : format' = format := by
    have known := format.ofTag?_tag
    rw [sameTag, format'.ofTag?_tag] at known
    exact Option.some.inj known
  rw [Texture.mk.injEq]
  exact ⟨sameWidth, sameHeight, sameFormat.symm, samePixels⟩

theorem Exact.encode_inj {α : Type} [Packed α] [Exact α] {a b : α} (sound : Exact.Sound a)
    (sound' : Exact.Sound b) (h : Packed.encode a = Packed.encode b) : a = b := by
  have first := (Exact.whole_decode _ a).2 ⟨sound, rfl⟩
  rw [(Exact.whole_decode _ b).2 ⟨sound', h⟩] at first
  exact (Except.ok.inj first).symm

theorem encode_named_inj {α : Type} [Packed α] [Exact α] {a b : Named α} {x y : Bytes}
    (inj : Packed.encode a.asset = Packed.encode b.asset → a.asset = b.asset)
    (short : a.Short) (short' : b.Short) (h : Packed.encode a ++ x = Packed.encode b ++ y) :
    a = b ∧ x = y := by
  rw [encode_named, encode_named, List.append_assoc, List.append_assoc] at h
  obtain ⟨sameName, h⟩ := run_unique (run_text_eq_ok.2 ⟨short.1, rfl⟩)
    (run_text_eq_ok.2 ⟨short'.1, h⟩)
  have room := short.2
  have room' := short'.2
  rw [← Exact.length_encode] at room room'
  obtain ⟨sameForm, h⟩ := run_unique (run_counted_eq_ok.2 ⟨room, rfl⟩)
    (run_counted_eq_ok.2 ⟨room', h⟩)
  rw [Named.mk.injEq]
  exact ⟨⟨sameName, inj sameForm⟩, h⟩

theorem encode_record_inj {α : Type} [Packed α] [Exact α] (wrap : α → PackagedAsset)
    {name name' : String} {a a' : α} {x y : Bytes}
    (inj : Packed.encode a = Packed.encode a' → a = a') (short : (⟨name, a⟩ : Named α).Short)
    (short' : (⟨name', a'⟩ : Named α).Short)
    (h : Packed.encode (⟨name, a⟩ : Named α) ++ x = Packed.encode (⟨name', a'⟩ : Named α) ++ y) :
    Item.record ⟨name, wrap a⟩ = Item.record ⟨name', wrap a'⟩ ∧ x = y := by
  obtain ⟨same, rest⟩ := encode_named_inj inj short short' h
  cases same
  exact ⟨rfl, rest⟩

/-- The records of a run are told apart by their forms, whatever follows. -/
theorem encode_item_inj {type : AssetType} {a b : Item} {x y : Bytes} (fits : a.Fits type)
    (fits' : b.Fits type) (short : a.Short) (short' : b.Short)
    (h : a.encode ++ x = b.encode ++ y) : a = b ∧ x = y := by
  cases a with
  | skipped other named =>
    obtain ⟨rfl, unpackaged⟩ := fits
    cases b with
    | skipped other' named' =>
      obtain ⟨rfl, -⟩ := fits'
      have inj : Packed.encode named.asset = Packed.encode named'.asset →
          named.asset = named'.asset := congrArg Opaque.mk
      obtain ⟨rfl, rfl⟩ := encode_named_inj inj short short' h
      exact ⟨rfl, rfl⟩
    | record named' =>
      cases fits'
      obtain ⟨name', asset'⟩ := named'
      cases asset' <;> cases unpackaged
  | record named =>
    obtain ⟨name, asset⟩ := named
    cases fits
    cases b with
    | skipped other' named' =>
      obtain ⟨rfl, unpackaged⟩ := fits'
      cases asset <;> cases unpackaged
    | record named' =>
      obtain ⟨name', asset'⟩ := named'
      cases asset with
      | texture t =>
        cases asset' <;> cases fits'
        exact encode_record_inj .texture encode_texture_inj short short' h
      | shader s =>
        cases asset' <;> cases fits'
        exact encode_record_inj .shader
          (Exact.encode_inj (shortSources short.2) (shortSources short'.2)) short short' h
      | audio a =>
        cases asset' <;> cases fits'
        exact encode_record_inj .audio
          (Exact.encode_inj (shortPcm short.2) (shortPcm short'.2)) short short' h

theorem encode_items_inj {type : AssetType} {items others : List Item} {x y : Bytes}
    (fits : ∀ item ∈ items, item.Fits type ∧ item.Short)
    (fits' : ∀ item ∈ others, item.Fits type ∧ item.Short)
    (length : items.length = others.length)
    (h : items.flatMap Item.encode ++ x = others.flatMap Item.encode ++ y) :
    items = others ∧ x = y := by
  induction items generalizing others with
  | nil =>
    cases others with
    | nil => exact ⟨rfl, h⟩
    | cons other others => cases length
  | cons item items ih =>
    cases others with
    | nil => cases length
    | cons other others =>
      simp only [List.flatMap_cons, List.append_assoc] at h
      have good := fits item List.mem_cons_self
      have good' := fits' other List.mem_cons_self
      obtain ⟨rfl, tail⟩ := encode_item_inj good.1 good'.1 good.2 good'.2 h
      obtain ⟨rfl, rest⟩ := ih (fun i mem => fits i (List.mem_cons_of_mem _ mem))
        (fun i mem => fits' i (List.mem_cons_of_mem _ mem)) (Nat.succ.inj length) tail
      exact ⟨rfl, rest⟩

theorem encode_item_ne_nil (item : Item) : item.encode ≠ [] := by
  intro none
  obtain ⟨name, asset⟩ | ⟨type, named⟩ := item
  · cases asset <;> cases none
  · cases none

/-- The header tells where a run ends, so that the runs at the start of a form are known, whatever
follows them. -/
theorem encode_runs_append {runs others : List Run} {rest : Bytes} (short : ∀ run ∈ runs, run.Short)
    (short' : ∀ run ∈ others, run.Short)
    (h : runs.flatMap Run.encode ++ rest = others.flatMap Run.encode) :
    ∃ more, others = runs ++ more ∧ rest = more.flatMap Run.encode := by
  induction runs generalizing others with
  | nil => exact ⟨others, rfl, h⟩
  | cons run runs ih =>
    cases others with
    | nil => cases h
    | cons other others =>
      simp only [List.flatMap_cons, Run.encode, List.append_assoc] at h
      obtain ⟨few, shortItems⟩ := short run List.mem_cons_self
      obtain ⟨few', shortItems'⟩ := short' other List.mem_cons_self
      obtain ⟨sameHeader, h⟩ := run_unique (run_header_eq_ok.2 ⟨run.type_ne_invalid, rfl⟩)
        (run_header_eq_ok.2 ⟨other.type_ne_invalid, h⟩)
      rw [Run.header, Run.header, RunHeader.mk.injEq] at sameHeader
      obtain ⟨sameType, sameCount⟩ := sameHeader
      have length : run.items.length = other.items.length := by
        rw [← Run.toNat_count few, ← Run.toNat_count few', Run.header, Run.header, sameCount]
      obtain ⟨type, items, real, fits⟩ := run
      obtain ⟨type', items', real', fits'⟩ := other
      cases sameType
      obtain ⟨rfl, tail⟩ := encode_items_inj (fun i mem => ⟨fits i mem, shortItems i mem⟩)
        (fun i mem => ⟨fits' i mem, shortItems' i mem⟩) length h
      obtain ⟨more, rfl, rest⟩ := ih (fun r mem => short r (List.mem_cons_of_mem _ mem))
        (fun r mem => short' r (List.mem_cons_of_mem _ mem)) tail
      exact ⟨more, rfl, rest⟩

theorem encode_runs_inj {runs others : List Run} (short : ∀ run ∈ runs, run.Short)
    (short' : ∀ run ∈ others, run.Short)
    (h : runs.flatMap Run.encode = others.flatMap Run.encode) : runs = others := by
  obtain ⟨more, rfl, none⟩ := encode_runs_append short short' ((List.append_nil _).trans h)
  cases more with
  | nil => exact (List.append_nil _).symm
  | cons other more => cases none

theorem runs_of_read {bytes : Bytes} {records : List Record}
    (h : (read bytes).run.value = .ok records) : ∃ runs : List Run,
      (∀ run ∈ runs, run.Short ∧ run.Complete) ∧ bytes = encode runs ∧
        records = runs.flatMap Run.records := by
  obtain ⟨parts, rest, rfl, scanned, rfl⟩ := scan_of_read h
  obtain ⟨items, runs, length, -, good, form, rfl⟩ := runs_of_scan scanned
  obtain rfl := List.eq_nil_of_length_eq_zero length
  refine ⟨runs, good, congrArg (List.cons formatVersion) form, ?_⟩
  rw [List.map_nil, List.nil_append, records_of_runs]

/-- A package is read only if it is the form of runs. These are the only runs with that form, their
textures have as many bytes of pixels as they need, and the records are theirs. -/
theorem unique_runs_of_read {bytes : Bytes} {records : List Record}
    (h : (read bytes).run.value = .ok records) :
    (∃! runs : List Run, (∀ run ∈ runs, run.Short) ∧ encode runs = bytes) ∧
      ∀ runs : List Run, (∀ run ∈ runs, run.Short) → encode runs = bytes →
        (∀ run ∈ runs, run.Complete) ∧ records = runs.flatMap Run.records := by
  obtain ⟨runs, good, rfl, rfl⟩ := runs_of_read h
  have unique : ∀ others : List Run, (∀ run ∈ others, run.Short) →
      encode others = encode runs → others = runs := by
    intro others short same
    exact encode_runs_inj short (fun run mem => (good run mem).1) (List.cons.inj same).2
  refine ⟨⟨runs, ⟨fun run mem => (good run mem).1, rfl⟩, ?_⟩, ?_⟩
  · intro others h
    obtain ⟨short, same⟩ := h
    exact unique others short same
  · intro others short same
    obtain rfl := unique others short same
    exact ⟨fun run mem => (good run mem).2, rfl⟩

theorem unique_runs_of_read_mixedRuns :
    (read (encode mixedRuns)).run.value =
        .ok [⟨"brick.png", .texture ⟨1, 2, .r, [7, 9]⟩⟩, ⟨"", .shader (.compute "main")⟩] ∧
      ∃! runs : List Run, (∀ run ∈ runs, run.Short) ∧ encode runs = encode mixedRuns :=
  have h := value_read_encode short_mixedRuns complete_mixedRuns
  ⟨h, (unique_runs_of_read h).1⟩

end AssetPack.Package

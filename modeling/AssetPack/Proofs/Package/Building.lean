import Mathlib.Algebra.Ring.Nat
import Mathlib.Control.Monad.Basic
import AssetPack.Proofs.Package.Builder
import AssetPack.Proofs.Package.Canonical

/-! Whole builds: what is built is read back, with one record for every call of a loader. -/

namespace AssetPack

/-- The calls which a section asks for. -/
def Manifest.Section.calls (listed : Manifest.Section) : List Package.Load :=
  match Package.LoadKind.ofType? listed.type with
  | some kind => listed.assets.map (⟨kind, ·⟩)
  | none => []

/-- The run which a section asks for, unless it is empty or passed over. -/
def Manifest.Section.shape (listed : Manifest.Section) : List (AssetType × Nat) :=
  if listed.assets = [] ∨ Package.LoadKind.ofType? listed.type = none then []
  else [(listed.type, listed.assets.length)]

namespace Package
open Process

/-- The summary with the assets of one more section. -/
def Summary.after (summary : Summary) (listed : Manifest.Section) : Summary :=
  let count := UInt32.ofNat listed.assets.length
  match LoadKind.ofType? listed.type with
  | some _ => { summary with written := summary.written.add listed.type count }
  | none => { summary with skipped := summary.skipped.add listed.type count }

theorem Counts.add_zero (counts : Counts) (type : AssetType) : counts.add type 0 = counts := by
  funext other
  simp [Counts.add]

theorem Summary.after_nil (summary : Summary) {listed : Manifest.Section}
    (none : listed.assets = []) : summary.after listed = summary := by
  rw [after, none]
  cases LoadKind.ofType? listed.type <;> simp [Counts.add_zero]

/-- A build between two sections: the output is the form of runs, whose records were loaded. -/
structure Built (loaders : Loaders) (files : FileTree) (output : Path) (runs : List Run)
    (p : Progress) : Prop where
  packaged : ∀ run ∈ runs, run.Packaged
  reached : Reached loaders files output (encode runs) (runs.flatMap Run.records) p

namespace Built
variable {loaders : Loaders} {files emptied : FileTree} {target : Target} {runs : List Run}
  {summary next : Summary} {p q : Progress}

theorem writeRun {α : Type} [Packed α] (built : Built loaders files target.path runs p)
    (opened : files.create target.path = .ok (emptied, target.sink)) {listed : Manifest.Section}
    {kind : LoadKind} {wrap : α → PackagedAsset} {load : Path → Builder α}
    (calls : Builder.Calls loaders kind wrap load) (same : kind.type = listed.type)
    (nonempty : listed.assets ≠ [])
    (h : eval (do
      let count ← Builder.writeRun target kind.type load listed.assets
      return { summary with written := summary.written.add listed.type count }) p =
        (.ok next, q)) :
    next = summary.after listed ∧ q.loads = p.loads ++ listed.calls ∧
      ∃ more, more.map Run.shape = runs.map Run.shape ++ listed.shape ∧
        Built loaders files target.path more q := by
  rw [bind_eq_ok] at h
  obtain ⟨count, q', wrote, h⟩ := h
  obtain ⟨rfl, rfl⟩ := pure_eq_ok.1 h
  obtain ⟨rfl, called, run, packaged, shape, reached⟩ := built.reached.writeRun opened calls wrote
  have known : LoadKind.ofType? listed.type = some kind := by
    rw [← same]
    cases kind <;> rfl
  refine ⟨by simp only [Summary.after, known], by simpa only [Manifest.Section.calls, known],
    runs ++ [run], ?_, ?_, ?_⟩
  · simp [Manifest.Section.shape, nonempty, known, shape, same]
  · intro other mem
    rcases List.mem_append.1 mem with mem | mem
    · exact built.packaged other mem
    · rw [List.mem_singleton.1 mem]
      exact packaged
  · simpa [encode] using reached

theorem skip (built : Built loaders files target.path runs p) {listed : Manifest.Section}
    (skipped : listed.assets = [] ∨ LoadKind.ofType? listed.type = none) :
    p.loads = p.loads ++ listed.calls ∧ ∃ more,
      more.map Run.shape = runs.map Run.shape ++ listed.shape ∧
        Built loaders files target.path more p := by
  refine ⟨?_, runs, by rw [Manifest.Section.shape, if_pos skipped, List.append_nil], built⟩
  rw [Manifest.Section.calls]
  split
  · rename_i kind known
    rcases skipped with none | none
    · rw [none, List.map_nil, List.append_nil]
    · rw [none] at known
      cases known
  · rw [List.append_nil]

theorem writeSection (built : Built loaders files target.path runs p)
    (opened : files.create target.path = .ok (emptied, target.sink)) {listed : Manifest.Section}
    (h : eval (Builder.writeSection loaders target summary listed) p = (.ok next, q)) :
    next = summary.after listed ∧ q.loads = p.loads ++ listed.calls ∧
      ∃ more, more.map Run.shape = runs.map Run.shape ++ listed.shape ∧
        Built loaders files target.path more q := by
  rw [Builder.writeSection] at h
  split at h
  · rename_i none
    have none : listed.assets = [] := List.isEmpty_iff.1 none
    rw [bind_eq_ok] at h
    obtain ⟨_, _, reported, h⟩ := h
    cases reported
    obtain ⟨rfl, rfl⟩ := pure_eq_ok.1 h
    exact ⟨(Summary.after_nil _ none).symm, built.skip (.inl none)⟩
  · rename_i nonempty
    have nonempty : listed.assets ≠ [] := mt List.isEmpty_iff.2 nonempty
    dsimp only at h
    split at h
    · rename_i same
      exact built.writeRun opened (Builder.calls_texture loaders) same.symm nonempty h
    · rename_i same
      exact built.writeRun opened (Builder.calls_shader loaders) same.symm nonempty h
    · rename_i same
      exact built.writeRun opened (Builder.calls_audio loaders) same.symm nonempty h
    · rename_i noTexture noShader noAudio
      have unknown : LoadKind.ofType? listed.type = none := by
        cases type : listed.type <;> first | rfl | contradiction
      rw [bind_eq_ok] at h
      obtain ⟨_, _, reported, h⟩ := h
      cases reported
      obtain ⟨rfl, rfl⟩ := pure_eq_ok.1 h
      exact ⟨by simp only [Summary.after, unknown], built.skip (.inr unknown)⟩

theorem writeSections (built : Built loaders files target.path runs p)
    (opened : files.create target.path = .ok (emptied, target.sink))
    {sections : List Manifest.Section}
    (h : eval (sections.foldlM (Builder.writeSection loaders target) summary) p =
      (.ok next, q)) :
    next = sections.foldl Summary.after summary ∧
      q.loads = p.loads ++ sections.flatMap Manifest.Section.calls ∧
        ∃ more, more.map Run.shape = runs.map Run.shape ++ sections.flatMap Manifest.Section.shape ∧
          Built loaders files target.path more q := by
  induction sections generalizing runs summary p with
  | nil =>
    obtain ⟨rfl, rfl⟩ := pure_eq_ok.1 h
    exact ⟨rfl, by simp, runs, by simp, built⟩
  | cons listed sections ih =>
    rw [List.foldlM_cons, bind_eq_ok] at h
    obtain ⟨middle, p', wrote, h⟩ := h
    obtain ⟨rfl, called, more, shape, built⟩ := built.writeSection opened wrote
    obtain ⟨rfl, rest, last, shapes, built⟩ := ih built h
    refine ⟨rfl, ?_, last, ?_, built⟩
    · rw [rest, called, List.append_assoc]
      rfl
    · rw [shapes, shape, List.append_assoc]
      rfl

end Built

theorem writePackage_eq_ok (target : Target) {loaders : Loaders} {files emptied : FileTree}
    {sections : List Manifest.Section} {summary : Summary} {q : Progress}
    (opened : files.create target.path = .ok (emptied, target.sink))
    (h : eval (Builder.writePackage loaders target sections) ⟨emptied, [], []⟩ =
      (.ok summary, q)) :
    summary = sections.foldl Summary.after .empty ∧
      q.loads = sections.flatMap Manifest.Section.calls ∧
        ∃ runs, (∀ run ∈ runs, Run.Packaged run) ∧
          Loaded loaders files target.path q.loads (runs.flatMap Run.records) ∧
            files.write target.path (encode runs) = .ok (q.close target.sink) := by
  rw [Builder.writePackage, bind_eq_ok] at h
  obtain ⟨_, p, version, h⟩ := h
  rw [bind_eq_ok] at h
  obtain ⟨next, p', wrote, h⟩ := h
  rw [bind_eq_ok] at h
  obtain ⟨_, p'', flushed, h⟩ := h
  rw [bind_eq_ok] at h
  obtain ⟨_, _, reported, h⟩ := h
  cases reported
  obtain ⟨rfl, rfl⟩ := pure_eq_ok.1 h
  have start : Reached loaders files target.path [] [] ⟨emptied, [], []⟩ :=
    ⟨⟨[], FileTree.write_nil opened, rfl⟩, .nil⟩
  obtain ⟨reached, none⟩ := start.write opened version
  have built : Built loaders files target.path [] p := ⟨by simp, reached⟩
  obtain ⟨rfl, called, runs, -, built⟩ := built.writeSections opened wrote
  obtain ⟨written, empty, same⟩ := flush_eq_ok opened built.reached.stands
    (Builder.update_eq_ok flushed)
  rw [none, List.nil_append] at called
  refine ⟨rfl, same.trans called, runs, built.packaged, same ▸ built.reached.loaded, ?_⟩
  rw [Progress.close, empty]
  split
  · rename_i tree appended
    have whole := FileTree.write_append opened written appended
    rwa [List.append_nil] at whole
  · exact written

/-! What the summary counts. -/

theorem LoadKind.ofType?_eq_some {type : AssetType} {kind : LoadKind} :
    ofType? type = some kind ↔ kind.type = type := by
  cases type <;> cases kind <;> decide

theorem LoadKind.ofType?_eq_none {type : AssetType} :
    ofType? type = none ↔ isPackaged type = false := by
  cases type <;> decide

theorem Summary.written_after (summary : Summary) (listed : Manifest.Section) (type : AssetType) :
    (summary.after listed).written type =
      summary.written type + UInt32.ofNat (listed.calls.countP (·.kind.type = type)) := by
  cases known : LoadKind.ofType? listed.type with
  | none => simp [after, Manifest.Section.calls, known]
  | some kind =>
    have same := LoadKind.ofType?_eq_some.1 known
    by_cases typed : type = listed.type
    · simp [after, Manifest.Section.calls, known, Counts.add, same, typed, List.countP_map,
        Function.comp_def]
    · simp [after, Manifest.Section.calls, known, Counts.add, same, typed, Ne.symm typed,
        List.countP_map, Function.comp_def]

/-- The number of assets of a section which is passed over, if it has the type. -/
def skippedOf (type : AssetType) (listed : Manifest.Section) : Nat :=
  if listed.type = type ∧ isPackaged type = false then listed.assets.length else 0

theorem Summary.skipped_after (summary : Summary) (listed : Manifest.Section) (type : AssetType) :
    (summary.after listed).skipped type =
      summary.skipped type + UInt32.ofNat (skippedOf type listed) := by
  by_cases typed : listed.type = type
  · subst typed
    cases known : LoadKind.ofType? listed.type with
    | none => simp [after, known, Counts.add, skippedOf, LoadKind.ofType?_eq_none.1 known]
    | some kind =>
      have packaged : isPackaged listed.type ≠ false := by
        rw [ne_eq, ← LoadKind.ofType?_eq_none, known]
        simp
      simp [after, known, skippedOf, packaged]
  · cases known : LoadKind.ofType? listed.type <;>
      simp [after, known, Counts.add, skippedOf, typed, Ne.symm typed]

theorem Summary.totalWritten_after (summary : Summary) (listed : Manifest.Section) :
    (summary.after listed).totalWritten =
      summary.totalWritten + UInt32.ofNat listed.calls.length := by
  obtain ⟨type, folder, assets⟩ := listed
  cases type <;>
    simp [after, LoadKind.ofType?, totalWritten, AssetType.all, Counts.add, Manifest.Section.calls]
  all_goals ac_rfl

/-- A number which every section adds to. -/
theorem foldl_after (count : Summary → UInt32) (added : Manifest.Section → Nat)
    (step : ∀ summary listed, count (summary.after listed) =
      count summary + UInt32.ofNat (added listed)) (sections : List Manifest.Section)
    (summary : Summary) : count (sections.foldl Summary.after summary) =
      count summary + UInt32.ofNat (sections.map added).sum := by
  induction sections generalizing summary with
  | nil => simp
  | cons listed sections ih =>
    rw [List.foldl_cons, ih, step, List.map_cons, List.sum_cons, UInt32.ofNat_add,
      UInt32.add_assoc]

theorem length_calls_le (listed : Manifest.Section) :
    listed.calls.length ≤ listed.assets.length := by
  rw [Manifest.Section.calls]
  split <;> simp

theorem skippedOf_le (type : AssetType) (listed : Manifest.Section) :
    skippedOf type listed ≤ listed.assets.length := by
  rw [skippedOf]
  split <;> omega

theorem sum_map_le {α : Type} {f g : α → Nat} (le : ∀ a, f a ≤ g a) (items : List α) :
    (items.map f).sum ≤ (items.map g).sum := by
  induction items with
  | nil => exact Nat.le_refl 0
  | cons a items ih => simpa using Nat.add_le_add (le a) ih

section counts
variable {sections : List Manifest.Section}

theorem toNat_foldl_after (count : Summary → UInt32) (added : Manifest.Section → Nat)
    (step : ∀ summary listed, count (summary.after listed) =
      count summary + UInt32.ofNat (added listed)) (zero : count .empty = 0)
    (le : ∀ listed, added listed ≤ listed.assets.length)
    (few : (sections.map (·.assets.length)).sum < UInt32.size) :
    (count (sections.foldl Summary.after .empty)).toNat = (sections.map added).sum := by
  rw [foldl_after count added step, zero, UInt32.zero_add]
  exact UInt32.toNat_ofNat_of_lt (Nat.lt_of_le_of_lt (sum_map_le le sections) few)

theorem toNat_written (few : (sections.map (·.assets.length)).sum < UInt32.size)
    (type : AssetType) : ((sections.foldl Summary.after .empty).written type).toNat =
      (sections.flatMap Manifest.Section.calls).countP (·.kind.type = type) := by
  rw [List.countP_flatMap]
  have le (listed : Manifest.Section) : listed.calls.countP (·.kind.type = type) ≤
      listed.assets.length := Nat.le_trans List.countP_le_length (length_calls_le listed)
  exact toNat_foldl_after (·.written type) _
    (fun summary listed => summary.written_after listed type) rfl le few

theorem toNat_skipped (few : (sections.map (·.assets.length)).sum < UInt32.size)
    (type : AssetType) : ((sections.foldl Summary.after .empty).skipped type).toNat =
      (sections.map (skippedOf type)).sum :=
  toNat_foldl_after (·.skipped type) _ (fun summary listed => summary.skipped_after listed type)
    rfl (skippedOf_le type) few

theorem toNat_totalWritten (few : (sections.map (·.assets.length)).sum < UInt32.size) :
    (sections.foldl Summary.after .empty).totalWritten.toNat =
      (sections.flatMap Manifest.Section.calls).length := by
  rw [List.length_flatMap]
  exact toNat_foldl_after _ _ Summary.totalWritten_after rfl length_calls_le few

end counts

namespace Loaded
variable {loaders : Loaders} {files : FileTree} {output : Path} {calls earlier : List Load}
  {records : List Record} {record : Record} {call : Load}

theorem of_call (h : Loaded loaders files output calls records)
    (made : earlier ++ [call] <+: calls) : ∃ written tree asset,
      files.write output written = .ok tree ∧ loaders.answer earlier tree call = .ok asset ∧
        records[earlier.length]? = some (call.record asset) := by
  induction h with
  | nil => simp at made
  | @snoc calls records last asset written tree before place answer accepted ih =>
    have length := before.length_eq
    rcases List.prefix_concat_iff.1 made with same | made
    · obtain ⟨rfl, one⟩ := List.append_inj' same rfl
      obtain rfl := List.singleton_inj.1 one
      refine ⟨written, tree, asset, place, answer, ?_⟩
      rw [← length, List.getElem?_concat_length]
    · obtain ⟨written, tree, asset, place, answer, found⟩ := ih made
      refine ⟨written, tree, asset, place, answer, ?_⟩
      have short := made.length_le
      rw [List.length_append, List.length_singleton] at short
      rw [List.getElem?_append_left (by omega)]
      exact found

theorem of_record (h : Loaded loaders files output calls records) (mem : record ∈ records) :
    ∃ earlier call written tree asset, earlier ++ [call] <+: calls ∧
      files.write output written = .ok tree ∧ loaders.answer earlier tree call = .ok asset ∧
        Accepted asset ∧ record = call.record asset := by
  induction h with
  | nil => cases mem
  | @snoc calls records last asset written tree before place answer accepted ih =>
    rcases List.mem_append.1 mem with mem | mem
    · obtain ⟨earlier, call, written, tree, asset, made, rest⟩ := ih mem
      exact ⟨earlier, call, written, tree, asset, made.trans (List.prefix_append _ _), rest⟩
    · exact ⟨calls, last, written, tree, asset, List.prefix_refl _, place, answer, accepted,
        List.mem_singleton.1 mem⟩

end Loaded

/-- Whatever stands in the output, the answer to a call is the same. -/
def Untouched (loaders : Loaders) (files : FileTree) (output : Path) (earlier : List Load)
    (call : Load) : Prop :=
  ∀ bytes other tree tree', files.write output bytes = .ok tree →
    files.write output other = .ok tree' →
      loaders.answer earlier tree call = loaders.answer earlier tree' call

/-- A record whose lengths can be written in front of them, and whose texture has a size which can
be counted. -/
structure Fitting (record : Record) : Prop where
  name : record.name.utf8ByteSize < UInt32.size
  asset : record.asset.size < UInt32.size
  pixels : ∀ t, record.asset = .texture t →
    Texture.pixelBytes t.width t.height t.format < 2 ^ 64

theorem Fitting.complete {record : Record} (fitting : Fitting record)
    (accepted : Accepted record.asset) : record.asset.Complete := by
  obtain ⟨name, asset⟩ := record
  cases asset with
  | texture t =>
    change t.pixels.length = t.pixelDataSize.toNat at accepted
    have counted : Texture.pixelBytes t.width t.height t.format < UInt64.size :=
      fitting.pixels t rfl
    rw [Texture.toNat_pixelDataSize, Nat.mod_eq_of_lt counted] at accepted
    exact accepted
  | shader s => trivial
  | audio a => trivial

/-- Runs of records which are all good are read back. -/
theorem value_read_packaged {runs : List Run} (packaged : ∀ run ∈ runs, run.Packaged)
    (good : ∀ record ∈ runs.flatMap Run.records, Fitting record ∧ record.asset.Complete) :
    (read (encode runs)).run.value = .ok (runs.flatMap Run.records) := by
  have goodItems : ∀ run ∈ runs, ∀ item ∈ run.items, item.Short ∧ item.Complete := by
    intro run mem
    refine (packaged run mem).forall_items fun record of => ?_
    obtain ⟨fits, complete⟩ := good record (List.mem_flatMap.2 ⟨run, mem, of⟩)
    exact ⟨⟨fits.name, fits.asset⟩, complete⟩
  apply value_read_encode
  · intro run mem
    exact ⟨(packaged run mem).few, fun item h => (goodItems run mem item h).1⟩
  · intro run mem item h
    exact (goodItems run mem item h).2

/-- A build whose output is opened comes to what is written into it. -/
theorem build_of_opened {loaders : Loaders} {manifest output : Path} {files emptied : FileTree}
    {sink : Sink} {listed : Manifest} {result : Except BuildError Summary} {q : Progress}
    (manifestLoads : (Manifest.load files manifest).run.value = .ok listed)
    (opened : files.create output = .ok (emptied, sink))
    (evaluated : eval (Builder.writePackage loaders ⟨output, sink⟩ listed.sections)
      ⟨emptied, [], []⟩ = (result, q)) :
    (build loaders manifest output files).value = ⟨result, q.close sink, q.loads⟩ := by
  rw [build, Logged.value_bind, manifestLoads]
  simp only [opened]
  exact congrArg (fun ended => (⟨ended.1, ended.2.close sink, ended.2.loads⟩ : Outcome)) evaluated

theorem build_eq_ok {loaders : Loaders} {manifest output : Path} {files : FileTree}
    {listed : Manifest} {summary : Summary} {outcome : Outcome}
    (manifestLoads : (Manifest.load files manifest).run.value = .ok listed)
    (built : (build loaders manifest output files).value = outcome)
    (ok : outcome.result = .ok summary) : ∃ emptied sink q,
      files.create output = .ok (emptied, sink) ∧
        eval (Builder.writePackage loaders ⟨output, sink⟩ listed.sections) ⟨emptied, [], []⟩ =
          (.ok summary, q) ∧
        outcome.files = q.close sink ∧ outcome.loads = q.loads := by
  subst built
  rw [build, Logged.value_bind, manifestLoads] at ok ⊢
  cases opened : files.create output with
  | error reason =>
    simp only [opened] at ok
    cases ok
  | ok file =>
    obtain ⟨emptied, sink⟩ := file
    simp only [opened] at ok ⊢
    exact ⟨emptied, sink, _, rfl, Prod.ext ok rfl, rfl, rfl⟩

/-- What is built is read back: the loaders were called once for every listed asset of a packaged
type, in the order of the manifest, every call left the record of its answer, and the summary counts
the records and the assets which were passed over. A name which is too long stops the program when
its length is written, so that `fitting` asks for no more than that the build ends. -/
theorem readFrom_build {loaders : Loaders} {manifest output : Path} {files : FileTree}
    {listed : Manifest} {summary : Summary} {outcome : Outcome}
    (manifestLoads : (Manifest.load files manifest).run.value = .ok listed)
    (built : (build loaders manifest output files).value = outcome)
    (ok : outcome.result = .ok summary)
    (untouched : ∀ earlier call, earlier ++ [call] <+: outcome.loads →
      Untouched loaders files output earlier call)
    (fitting : ∀ earlier call asset, earlier ++ [call] <+: outcome.loads →
      loaders.answer earlier outcome.files call = .ok asset → Fitting (call.record asset))
    (few : (listed.sections.map (·.assets.length)).sum < UInt32.size) :
    outcome.loads = listed.sections.flatMap Manifest.Section.calls ∧
      ∃ records, (readFrom outcome.files output).run.value = .ok records ∧
        records.length = outcome.loads.length ∧
        (∀ earlier call, earlier ++ [call] <+: outcome.loads → ∃ asset,
          loaders.answer earlier outcome.files call = .ok asset ∧
            records[earlier.length]? = some (call.record asset)) ∧
        (∀ type, (summary.written type).toNat = records.countP (·.asset.type = type)) ∧
        (∀ type, (summary.skipped type).toNat = (listed.sections.map (skippedOf type)).sum) ∧
        summary.totalWritten.toNat = records.length := by
  obtain ⟨emptied, sink, q, opened, evaluated, after, calls⟩ := build_eq_ok manifestLoads built ok
  obtain ⟨rfl, called, runs, packaged, loaded, written⟩ :=
    writePackage_eq_ok ⟨output, sink⟩ opened evaluated
  rw [← after] at written
  rw [← calls] at loaded called
  -- What a loader answered while the output was written is what it answers afterwards.
  have answered : ∀ {earlier call tree bytes asset}, earlier ++ [call] <+: outcome.loads →
      files.write output bytes = .ok tree → loaders.answer earlier tree call = .ok asset →
      loaders.answer earlier outcome.files call = .ok asset := by
    intro earlier call tree bytes asset made place answer
    rw [← answer]
    exact untouched earlier call made _ _ _ _ written place
  have good : ∀ record ∈ runs.flatMap Run.records, Fitting record ∧ record.asset.Complete := by
    intro record mem
    obtain ⟨earlier, call, _, tree, asset, made, place, answer, accepted, rfl⟩ :=
      loaded.of_record mem
    have fits := fitting earlier call asset made (answered made place answer)
    exact ⟨fits, fits.complete accepted⟩
  refine ⟨called, runs.flatMap Run.records, ?_, loaded.length_eq, ?_, ?_, ?_, ?_⟩
  · rw [readFrom, FileTree.read_write written]
    exact value_read_packaged packaged good
  · intro earlier call made
    obtain ⟨_, tree, asset, place, answer, found⟩ := loaded.of_call made
    exact ⟨asset, answered made place answer, found⟩
  · intro type
    have types := congrArg (List.countP (· = type)) loaded.types_eq
    rw [List.countP_map, List.countP_map, called] at types
    exact (toNat_written few type).trans types.symm
  · exact toNat_skipped few
  · rw [toNat_totalWritten few, loaded.length_eq, called]

/-- Loaders which do not look at files. -/
def constantLoaders : Loaders where
  texture _ _ _ := pure ⟨1, 1, .r, [7]⟩
  shader _ _ _ := pure (.compute "main")
  audio _ _ _ := pure ⟨.u8, 1, 8000, []⟩

def brickFiles : FileTree :=
  ⟨.leaf "list.frlist" (.file (Bytes.ofText "::texture brick.png\n::font mono")) .empty, []⟩

def brickManifest : Manifest :=
  ⟨⟨""⟩, [⟨.texture, ⟨""⟩, [⟨"brick.png"⟩]⟩, ⟨.font, ⟨""⟩, [⟨"mono"⟩]⟩]⟩

theorem readFrom_build_brick : ∃ summary,
    (build constantLoaders ⟨"list.frlist"⟩ ⟨"out"⟩ brickFiles).value.result = .ok summary ∧
      (readFrom (build constantLoaders ⟨"list.frlist"⟩ ⟨"out"⟩ brickFiles).value.files
        ⟨"out"⟩).run.value = .ok [⟨"brick.png", .texture ⟨1, 1, .r, [7]⟩⟩] ∧
      (summary.written .texture).toNat = 1 ∧ (summary.skipped .font).toNat = 1 := by
  have manifestLoads :
      (Manifest.load brickFiles ⟨"list.frlist"⟩).run.value = .ok brickManifest := by
    decide +kernel
  have loads : (build constantLoaders ⟨"list.frlist"⟩ ⟨"out"⟩ brickFiles).value.loads =
      [⟨.texture, ⟨"brick.png"⟩⟩] := by
    decide +kernel
  cases ends : (build constantLoaders ⟨"list.frlist"⟩ ⟨"out"⟩ brickFiles).value.result with
  | error reason =>
    have good : (build constantLoaders ⟨"list.frlist"⟩ ⟨"out"⟩ brickFiles).value.result.isOk := by
      decide +kernel
    rw [ends] at good
    cases good
  | ok summary =>
    have fitting : ∀ earlier call asset,
        earlier ++ [call] <+: [(⟨.texture, ⟨"brick.png"⟩⟩ : Load)] →
          constantLoaders.answer earlier
            (build constantLoaders ⟨"list.frlist"⟩ ⟨"out"⟩ brickFiles).value.files call =
              .ok asset → Fitting (call.record asset) := by
      intro earlier call asset made answer
      obtain rfl := List.mem_singleton.1 (made.subset (List.mem_append_right _ List.mem_cons_self))
      cases answer
      refine ⟨by decide, by decide, fun t same => ?_⟩
      cases same
      decide
    have read := readFrom_build manifestLoads rfl ends (fun _ _ _ _ _ _ _ _ _ => rfl)
      (loads ▸ fitting) (by decide)
    obtain ⟨-, records, read, length, answers, written, skipped, -⟩ := read
    obtain ⟨asset, answer, first⟩ := answers [] ⟨.texture, ⟨"brick.png"⟩⟩ (by rw [loads]; simp)
    cases answer
    rw [loads] at length
    obtain ⟨record, rfl⟩ := List.length_eq_one_iff.1 length
    cases first
    exact ⟨summary, rfl, read, written .texture, skipped .font⟩

end Package

end AssetPack

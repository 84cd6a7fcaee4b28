import AssetPack.Proofs.Package.Building

/-! Builds which stop at an asset: which loaders were called, what stands in the output, and that it
is not read as a package. -/

namespace AssetPack.Package
open Process

/-- A run whose header promises more records than follow is not read, whatever stands before it. -/
theorem read_unfinished {runs : List Run} {header : RunHeader} {items : List Item}
    (short : ∀ run ∈ runs, run.Short) (real : header.type ≠ .invalid)
    (good : ∀ item ∈ items, item.Fits header.type ∧ item.Short)
    (few : items.length < header.count.toNat) : ∃ error,
      (read (encode runs ++ (Packed.encode header ++ items.flatMap Item.encode))).run.value =
        .error error := by
  cases result : (read (encode runs ++
      (Packed.encode header ++ items.flatMap Item.encode))).run.value with
  | error error => exact ⟨error, rfl⟩
  | ok records =>
    obtain ⟨others, read, form, -⟩ := runs_of_read result
    obtain ⟨more, rfl, rest⟩ := encode_runs_append short (fun run mem => (read run mem).1)
      (List.cons.inj form).2
    cases more with
    | nil => cases rest
    | cons run more =>
      have short := (read run (List.mem_append_right _ List.mem_cons_self)).1
      rw [List.flatMap_cons, Run.encode, List.append_assoc] at rest
      obtain ⟨rfl, tail⟩ := run_unique (run_header_eq_ok.2 ⟨real, rfl⟩)
        (run_header_eq_ok.2 ⟨run.type_ne_invalid, rest⟩)
      rw [Run.toNat_count short.1] at few
      -- The items which follow would be the first ones of a run with more of them.
      rw [← List.take_append_drop items.length run.items, List.flatMap_append,
        List.append_assoc] at tail
      have first : ∀ item ∈ run.items.take items.length, item.Fits run.type ∧ item.Short :=
        fun item mem => ⟨run.fits item (List.mem_of_mem_take mem),
          short.2 item (List.mem_of_mem_take mem)⟩
      obtain ⟨-, none⟩ := encode_items_inj good first (by rw [List.length_take]; omega)
        ((List.append_nil _).trans tail)
      cases left : run.items.drop items.length with
      | nil =>
        rw [List.drop_eq_nil_iff] at left
        omega
      | cons item left' =>
        rw [left, List.flatMap_cons, List.append_assoc] at none
        exact absurd (List.append_eq_nil_iff.1 none.symm).1 (encode_item_ne_nil item)

/-- The asset which a build stopped at, if it was not loaded or was no sound texture. -/
def BuildError.asset? : BuildError → Option Path
  | load path _ => some path
  | invalidTexture path _ _ => some path
  | _ => none

namespace Builder
variable {α : Type}

theorem update_ne_error {target : Target} {change : Progress → Except IoError Progress}
    {p q : Progress} {error : BuildError} (other : ∀ fault, error ≠ .write target.path fault) :
    eval (update target change) p ≠ (.error error, q) := by
  intro h
  rw [eval_update] at h
  split at h
  · cases h
  · rename_i reason _
    cases h
    exact other (.io reason) rfl

/-- Where a load fails: at the path which was asked for, after the call was made. -/
def StopsAt (kind : LoadKind) (load : Path → Builder α) : Prop :=
  ∀ path p q error, eval (load path) p = (.error error, q) →
    error.asset? = some path ∧ q = p.note ⟨kind, path⟩

theorem stopsAt_load (kind : LoadKind) (loader : Loader α) : StopsAt kind (load kind loader) := by
  intro path p q error h
  rw [eval_load] at h
  split at h
  · cases h
  · cases h
    exact ⟨rfl, rfl⟩

theorem stopsAt_loadTexture (loader : Loader Texture) : StopsAt .texture (loadTexture loader) := by
  intro path p q error h
  rw [loadTexture, bind_eq_error] at h
  rcases h with failed | ⟨texture, q', loaded, h⟩
  · exact stopsAt_load .texture loader path p q error failed
  · split at h
    · cases h
      exact ⟨rfl, (load_eq_ok loaded).1⟩
    · cases h

end Builder

namespace Reached
variable {α : Type} [Packed α] {loaders : Loaders} {files emptied : FileTree} {target : Target}
  {bytes : Bytes} {records : List Record} {p q : Progress} {kind : LoadKind}
  {wrap : α → PackagedAsset} {load : Path → Builder α} {paths : List Path} {error : BuildError}

/-- A loop over assets which stops at one of them has written the records of those before it. -/
theorem writeRecords_stop (reached : Reached loaders files target.path bytes records p)
    (opened : files.create target.path = .ok (emptied, target.sink))
    (calls : Builder.Calls loaders kind wrap load) (stops : Builder.StopsAt kind load)
    {type : AssetType} (h : eval (Builder.writeRecords target type load paths) p = (.error error, q))
    (other : ∀ fault, error ≠ .write target.path fault) : ∃ done path rest last p',
      error.asset? = some path ∧ paths = done ++ path :: rest ∧
        p'.loads = p.loads ++ done.map (⟨kind, ·⟩) ∧ q = p'.note ⟨kind, path⟩ ∧
          Reached loaders files target.path
            (bytes ++ (last.map Item.record).flatMap Item.encode) (records ++ last) p' := by
  induction paths generalizing bytes records p with
  | nil => cases h
  | cons first paths ih =>
    rw [Builder.writeRecords, bind_eq_error] at h
    rcases h with failed | ⟨loaded, p₁, ok, h⟩
    · obtain ⟨asset, rfl⟩ := stops first p q error failed
      exact ⟨[], first, paths, [], p, asset, rfl, by simp, rfl, by simpa using reached⟩
    rw [bind_eq_error] at h
    rcases h with failed | ⟨_, _, reported, h⟩
    · cases failed
    rw [eval_logged] at reported
    cases reported
    rw [bind_eq_error] at h
    rcases h with failed | ⟨_, p₂, wrote, h⟩
    · exact absurd failed (Builder.update_ne_error other)
    obtain ⟨reached, called⟩ := reached.load calls ok
    rw [← calls.encode] at wrote
    obtain ⟨reached, same⟩ := reached.write opened wrote
    obtain ⟨done, path, rest, last, p', asset, rfl, more, noted, reached⟩ := ih reached h
    refine ⟨first :: done, path, rest, (⟨kind, first⟩ : Load).record (wrap loaded) :: last, p',
      asset, rfl, ?_, noted, ?_⟩
    · rw [more, same, called, List.append_assoc]
      rfl
    · rw [List.append_assoc, List.append_assoc] at reached
      exact reached

/-- A run which stops at an asset has its header in front, with the number of all its assets. -/
theorem writeRun_stop (reached : Reached loaders files target.path bytes records p)
    (opened : files.create target.path = .ok (emptied, target.sink))
    (calls : Builder.Calls loaders kind wrap load) (stops : Builder.StopsAt kind load)
    (h : eval (Builder.writeRun target kind.type load paths) p = (.error error, q))
    (other : ∀ fault, error ≠ .write target.path fault) : ∃ done path rest last p',
      error.asset? = some path ∧ paths = done ++ path :: rest ∧ paths.length < UInt32.size ∧
        p'.loads = p.loads ++ done.map (⟨kind, ·⟩) ∧ q = p'.note ⟨kind, path⟩ ∧
          last.map (·.asset.type) = done.map (fun _ => kind.type) ∧
            Reached loaders files target.path
              (bytes ++ (Packed.encode (⟨kind.type, UInt32.ofNat paths.length⟩ : RunHeader) ++
                (last.map Item.record).flatMap Item.encode)) (records ++ last) p' := by
  rw [Builder.writeRun] at h
  split at h
  · cases h
    exact absurd rfl (other .tooManyAssets)
  rename_i few
  rw [bind_eq_error] at h
  rcases h with failed | ⟨_, p₁, wrote, h⟩
  · exact absurd failed (Builder.update_ne_error other)
  rw [bind_eq_error] at h
  rcases h with failed | ⟨_, _, _, h⟩
  · obtain ⟨header, same⟩ := reached.write opened wrote
    obtain ⟨done, path, rest, last, p', asset, split, called, noted, after⟩ :=
      header.writeRecords_stop opened calls stops failed other
    have types := header.types_of_calls after called
    rw [same] at called
    rw [List.append_assoc] at after
    exact ⟨done, path, rest, last, p', asset, split, Nat.lt_of_not_le few, called, noted, types,
      after⟩
  · cases h

end Reached

/-- A place in a manifest where a build can stop: an asset of a packaged section. -/
structure Stop (sections : List Manifest.Section) where
  before : List Manifest.Section
  listed : Manifest.Section
  after : List Manifest.Section
  kind : LoadKind
  done : List Path
  path : Path
  rest : List Path
  sections_eq : sections = before ++ listed :: after
  type_eq : kind.type = listed.type
  assets_eq : listed.assets = done ++ path :: rest

namespace Stop
variable {sections : List Manifest.Section}

/-- The calls for the assets before the place. -/
def earlier (stop : Stop sections) : List Load :=
  stop.before.flatMap Manifest.Section.calls ++ stop.done.map (⟨stop.kind, ·⟩)

def call (stop : Stop sections) : Load := ⟨stop.kind, stop.path⟩

/-- The header of the run which is not finished, with the number of all its assets. -/
def header (stop : Stop sections) : RunHeader :=
  ⟨stop.listed.type, UInt32.ofNat stop.listed.assets.length⟩

theorem toNat_count (stop : Stop sections) (few : stop.listed.assets.length < UInt32.size) :
    stop.header.count.toNat = stop.listed.assets.length :=
  UInt32.toNat_ofNat_of_lt few

/-- What is written up to the place: whole runs, and the start of one more. -/
def written (stop : Stop sections) (runs : List Run) (last : List Record) : Bytes :=
  encode runs ++ (Packed.encode stop.header ++ (last.map Item.record).flatMap Item.encode)

end Stop

/-- A build which has stopped at an asset. The sections before are whole runs, and the assets before
it in its own section are the last records. -/
structure Stopped (loaders : Loaders) (files : FileTree) (output : Path)
    {sections : List Manifest.Section} (stop : Stop sections) (runs : List Run)
    (last : List Record) (p : Progress) : Prop where
  packaged : ∀ run ∈ runs, run.Packaged
  shape : runs.map Run.shape = stop.before.flatMap Manifest.Section.shape
  few : stop.listed.assets.length < UInt32.size
  types : last.map (·.asset.type) = stop.done.map fun _ => stop.listed.type
  loads : p.loads = stop.earlier ++ [stop.call]
  loaded : Loaded loaders files output stop.earlier (runs.flatMap Run.records ++ last)
  stands : Stands files output (stop.written runs last) p

namespace Stopped
variable {loaders : Loaders} {files : FileTree} {output : Path} {sections : List Manifest.Section}
  {stop : Stop sections} {runs : List Run} {last : List Record} {p : Progress}

theorem length_last (stopped : Stopped loaders files output stop runs last p) :
    last.length = stop.done.length := by
  have lengths := congrArg List.length stopped.types
  rwa [List.length_map, List.length_map] at lengths

/-- What is written up to the place is not read: the last run lacks a record at least. -/
theorem read_error (stopped : Stopped loaders files output stop runs last p)
    (short : ∀ record ∈ runs.flatMap Run.records ++ last, (Item.record record).Short) :
    ∃ error, (read (stop.written runs last)).run.value = .error error := by
  apply read_unfinished
  · intro run mem
    have packaged := stopped.packaged run mem
    refine ⟨packaged.few, packaged.forall_items fun record of => ?_⟩
    exact short record (List.mem_append_left _ (List.mem_flatMap.2 ⟨run, mem, of⟩))
  · change stop.listed.type ≠ .invalid
    rw [← stop.type_eq]
    cases stop.kind <;> decide
  · intro item h
    refine ⟨Reached.fits_of_types stopped.types item h, ?_⟩
    obtain ⟨record, mem, rfl⟩ := List.mem_map.1 h
    exact short record (List.mem_append_right _ mem)
  · rw [List.length_map, stopped.length_last, stop.toNat_count stopped.few, stop.assets_eq,
      List.length_append, List.length_cons]
    omega

end Stopped

namespace Built
variable {loaders : Loaders} {files emptied : FileTree} {target : Target} {runs : List Run}
  {summary : Summary} {p q : Progress} {before : List Manifest.Section}
  {listed : Manifest.Section} {error : BuildError}

theorem writeRun_stop {α : Type} [Packed α] (built : Built loaders files target.path runs p)
    (opened : files.create target.path = .ok (emptied, target.sink))
    (shape : runs.map Run.shape = before.flatMap Manifest.Section.shape)
    (called : p.loads = before.flatMap Manifest.Section.calls) (after : List Manifest.Section)
    {kind : LoadKind} {wrap : α → PackagedAsset} {load : Path → Builder α}
    (calls : Builder.Calls loaders kind wrap load) (stops : Builder.StopsAt kind load)
    (same : kind.type = listed.type)
    (h : eval (do
      let count ← Builder.writeRun target kind.type load listed.assets
      return { summary with written := summary.written.add listed.type count }) p =
        (.error error, q)) (other : ∀ fault, error ≠ .write target.path fault) :
    ∃ (stop : Stop (before ++ listed :: after)) (last : List Record),
      error.asset? = some stop.path ∧ Stopped loaders files target.path stop runs last q := by
  rw [bind_eq_error] at h
  rcases h with failed | ⟨_, _, _, h⟩
  · obtain ⟨done, path, rest, last, p', asset, split, few, more, rfl, types, reached⟩ :=
      built.reached.writeRun_stop opened calls stops failed other
    let stop : Stop (before ++ listed :: after) :=
      ⟨before, listed, after, kind, done, path, rest, rfl, same, split⟩
    have earlier : p'.loads = stop.earlier := by rw [more, called]; rfl
    rw [same] at types reached
    refine ⟨stop, last, asset, built.packaged, shape, few, types, ?_, ?_, ?_⟩
    · rw [Progress.note, earlier]
      rfl
    · rw [← earlier]
      exact reached.loaded
    -- A call changes neither the files nor the bytes which wait.
    · exact reached.stands
  · cases h

theorem writeSection_stop (built : Built loaders files target.path runs p)
    (opened : files.create target.path = .ok (emptied, target.sink))
    (shape : runs.map Run.shape = before.flatMap Manifest.Section.shape)
    (called : p.loads = before.flatMap Manifest.Section.calls) (after : List Manifest.Section)
    (h : eval (Builder.writeSection loaders target summary listed) p = (.error error, q))
    (other : ∀ fault, error ≠ .write target.path fault) :
    ∃ (stop : Stop (before ++ listed :: after)) (last : List Record),
      error.asset? = some stop.path ∧ Stopped loaders files target.path stop runs last q := by
  rw [Builder.writeSection] at h
  split at h
  · rw [bind_eq_error] at h
    rcases h with failed | ⟨_, _, _, h⟩
    · cases failed
    · cases h
  · dsimp only at h
    split at h
    · rename_i same
      exact built.writeRun_stop opened shape called after (Builder.calls_texture loaders)
        (Builder.stopsAt_loadTexture _) same.symm h other
    · rename_i same
      exact built.writeRun_stop opened shape called after (Builder.calls_shader loaders)
        (Builder.stopsAt_load _ _) same.symm h other
    · rename_i same
      exact built.writeRun_stop opened shape called after (Builder.calls_audio loaders)
        (Builder.stopsAt_load _ _) same.symm h other
    · rw [bind_eq_error] at h
      rcases h with failed | ⟨_, _, _, h⟩
      · cases failed
      · cases h

end Built

/-- A build which is begun fails to write its output, or stops at an asset. -/
theorem writePackage_stop (target : Target) {loaders : Loaders} {files emptied : FileTree}
    {sections : List Manifest.Section} {error : BuildError} {q : Progress}
    (opened : files.create target.path = .ok (emptied, target.sink))
    (h : eval (Builder.writePackage loaders target sections) ⟨emptied, [], []⟩ = (.error error, q))
    (other : ∀ fault, error ≠ .write target.path fault) :
    ∃ (stop : Stop sections) (runs : List Run) (last : List Record),
      error.asset? = some stop.path ∧ Stopped loaders files target.path stop runs last q := by
  rw [Builder.writePackage, bind_eq_error] at h
  rcases h with failed | ⟨_, p, version, h⟩
  · exact absurd failed (Builder.update_ne_error other)
  rw [bind_eq_error] at h
  rcases h with failed | ⟨_, _, _, h⟩
  · obtain ⟨before, listed, after, summary, p', rfl, wrote, failed⟩ := foldlM_eq_error failed
    have start : Reached loaders files target.path [] [] ⟨emptied, [], []⟩ :=
      ⟨⟨[], FileTree.write_nil opened, rfl⟩, .nil⟩
    obtain ⟨reached, none⟩ := start.write opened version
    have built : Built loaders files target.path [] p := ⟨by simp, reached⟩
    obtain ⟨-, called, runs, shape, built⟩ := built.writeSections opened wrote
    rw [none, List.nil_append] at called
    obtain ⟨stop, last, asset, stopped⟩ :=
      built.writeSection_stop opened shape called after failed other
    exact ⟨stop, runs, last, asset, stopped⟩
  rw [bind_eq_error] at h
  rcases h with failed | ⟨_, _, _, h⟩
  · exact absurd failed (Builder.update_ne_error other)
  rw [bind_eq_error] at h
  rcases h with failed | ⟨_, _, _, h⟩
  · cases failed
  · cases h

/-- When the output is a regular file, it holds all the bytes which were accepted. -/
theorem Stands.contents?_close {files emptied : FileTree} {target : Target} {bytes : Bytes}
    {p : Progress} (stands : Stands files target.path bytes p)
    (opened : files.create target.path = .ok (emptied, target.sink))
    (regular : ((p.close target.sink).contents? target.path).isSome) :
    (p.close target.sink).contents? target.path = some bytes := by
  obtain ⟨before, written, rfl⟩ := stands
  rw [Progress.close] at regular ⊢
  split at regular
  · rename_i tree appended
    exact FileTree.contents?_of_read
      (FileTree.read_write (FileTree.write_append opened written appended)) regular
  · rename_i reason failed
    obtain ⟨dir, name, inner, opens, ⟨full, sink, rfl⟩ | ⟨old, sink, writes⟩⟩ :=
      FileTree.write_eq_ok opened
    -- A device has no contents.
    · rw [FileTree.write_eq_append opened, sink, FileTree.append] at written
      split at written
      · cases written
        rw [FileTree.contents?, opens.find_full full] at regular
        cases regular
      · cases written
    · rw [writes] at written
      rw [← Except.ok.inj written, sink, FileTree.append_withFile opens.found] at failed
      cases failed

/-- A build ends before the output is touched, or with the output as the last write left it. -/
theorem build_eq_error {loaders : Loaders} {manifest output : Path} {files : FileTree}
    {outcome : Outcome} {error : BuildError}
    (built : (build loaders manifest output files).value = outcome)
    (failed : outcome.result = .error error) :
    (outcome.loads = [] ∧ outcome.files = files ∧ error.asset? = none) ∨
      ∃ listed emptied sink q, (Manifest.load files manifest).run.value = .ok listed ∧
        files.create output = .ok (emptied, sink) ∧
        eval (Builder.writePackage loaders ⟨output, sink⟩ listed.sections) ⟨emptied, [], []⟩ =
          (.error error, q) ∧
        outcome.files = q.close sink ∧ outcome.loads = q.loads := by
  subst built
  rw [build, Logged.value_bind] at failed ⊢
  cases loaded : (Manifest.load files manifest).run.value with
  | error reason =>
    rw [loaded] at failed
    cases failed
    exact .inl ⟨rfl, rfl, rfl⟩
  | ok listed =>
    rw [loaded] at failed
    cases opened : files.create output with
    | error reason =>
      simp only [opened] at failed ⊢
      cases failed
      exact .inl ⟨rfl, rfl, rfl⟩
    | ok file =>
      obtain ⟨emptied, sink⟩ := file
      simp only [opened] at failed ⊢
      exact .inr ⟨listed, emptied, sink, _, rfl, rfl, Prod.ext failed rfl, rfl, rfl⟩

/-- No half of a package is left which can be read. A build which can not read its manifest or open
its output calls no loader and changes no file. One which ends at an asset has called the loaders up
to this asset, and the output holds the whole runs of the sections before, then the header of the
next run with the number of all its assets, and the records of the assets before it. A name which is
too long stops the program when its length is written, so that `short` asks for no more than that
the build ends. -/
theorem read_error_of_build_error {loaders : Loaders} {manifest output : Path} {files : FileTree}
    {outcome : Outcome} {error : BuildError}
    (built : (build loaders manifest output files).value = outcome)
    (failed : outcome.result = .error error) :
    ((∃ reason, error = .manifest reason) ∨ (∃ path reason, error = .createOutput path reason) →
      outcome.loads = [] ∧ outcome.files = files) ∧
    ∀ path, error.asset? = some path → (outcome.files.contents? output).isSome →
      (short : ∀ earlier call asset written tree, earlier ++ [call] <+: outcome.loads.dropLast →
        files.write output written = .ok tree → loaders.answer earlier tree call = .ok asset →
          (Item.record (call.record asset)).Short) →
      ∃ (listed : Manifest) (stop : Stop listed.sections) (runs : List Run) (last : List Record),
        (Manifest.load files manifest).run.value = .ok listed ∧ stop.path = path ∧
        outcome.loads = stop.earlier ++ [stop.call] ∧
        (∀ run ∈ runs, run.Packaged) ∧
        runs.map Run.shape = stop.before.flatMap Manifest.Section.shape ∧
        last.length = stop.done.length ∧ stop.listed.assets.length < UInt32.size ∧
        Loaded loaders files output stop.earlier (runs.flatMap Run.records ++ last) ∧
        outcome.files.contents? output = some (stop.written runs last) ∧
        ∃ reason, (read (stop.written runs last)).run.value = .error reason := by
  rcases build_eq_error built failed with ⟨none, same, noAsset⟩ |
    ⟨listed, emptied, sink, q, loaded, opened, evaluated, after, calls⟩
  · refine ⟨fun _ => ⟨none, same⟩, fun path asset => ?_⟩
    rw [noAsset] at asset
    cases asset
  · have stopped (other : ∀ fault, error ≠ .write output fault) :=
      writePackage_stop ⟨output, sink⟩ opened evaluated other
    constructor
    · intro early
      rcases early with ⟨reason, rfl⟩ | ⟨path, reason, rfl⟩
      · obtain ⟨_, _, _, asset, -⟩ := stopped (by simp)
        cases asset
      · obtain ⟨_, _, _, asset, -⟩ := stopped (by simp)
        cases asset
    · intro path asset regular short
      obtain ⟨stop, runs, last, same, stopped⟩ := stopped (by rintro _ rfl; cases asset)
      rw [after] at regular ⊢
      rw [calls, stopped.loads, List.dropLast_concat] at short
      refine ⟨listed, stop, runs, last, loaded, Option.some.inj (same.symm.trans asset),
        calls.trans stopped.loads, stopped.packaged, stopped.shape, stopped.length_last,
        stopped.few, stopped.loaded, stopped.stands.contents?_close opened regular,
        stopped.read_error fun record mem => ?_⟩
      obtain ⟨earlier, call, written, tree, asset, made, place, answer, -, rfl⟩ :=
        stopped.loaded.of_record mem
      exact short earlier call asset written tree made place answer

/-- Loaders which do not look at files, and find no sound texture under one name. -/
def loadersWithoutMoss : Loaders :=
  { constantLoaders with
    texture _ _ path := pure (if path.text = "moss.png" then ⟨2, 2, .r, [7]⟩ else ⟨1, 1, .r, [7]⟩) }

def wallFiles : FileTree :=
  ⟨.leaf "list.frlist" (.file (Bytes.ofText
    "::shader main.glsl\n::font mono\n::texture brick.png moss.png sand.png")) .empty, []⟩

theorem read_error_of_build_error_moss : ∃ bytes reason,
    (build loadersWithoutMoss ⟨"list.frlist"⟩ ⟨"out"⟩ wallFiles).value.result =
        .error (.invalidTexture ⟨"moss.png"⟩ 4 1) ∧
      (build loadersWithoutMoss ⟨"list.frlist"⟩ ⟨"out"⟩ wallFiles).value.loads =
        [⟨.shader, ⟨"main.glsl"⟩⟩, ⟨.texture, ⟨"brick.png"⟩⟩, ⟨.texture, ⟨"moss.png"⟩⟩] ∧
      (build loadersWithoutMoss ⟨"list.frlist"⟩ ⟨"out"⟩ wallFiles).value.files.contents? ⟨"out"⟩ =
        some bytes ∧
      (read bytes).run.value = .error reason := by
  have loads : (build loadersWithoutMoss ⟨"list.frlist"⟩ ⟨"out"⟩ wallFiles).value.loads =
      [⟨.shader, ⟨"main.glsl"⟩⟩, ⟨.texture, ⟨"brick.png"⟩⟩, ⟨.texture, ⟨"moss.png"⟩⟩] := by
    decide +kernel
  have stopped :
      (build loadersWithoutMoss ⟨"list.frlist"⟩ ⟨"out"⟩ wallFiles).value.result.map (fun _ => ()) =
        .error (.invalidTexture ⟨"moss.png"⟩ 4 1) := by
    decide +kernel
  cases ends : (build loadersWithoutMoss ⟨"list.frlist"⟩ ⟨"out"⟩ wallFiles).value.result with
  | ok summary =>
    rw [ends] at stopped
    cases stopped
  | error error =>
    rw [ends] at stopped
    cases stopped
    have short : ∀ earlier call asset written tree, earlier ++ [call] <+:
        (build loadersWithoutMoss ⟨"list.frlist"⟩ ⟨"out"⟩ wallFiles).value.loads.dropLast →
        wallFiles.write ⟨"out"⟩ written = .ok tree →
        loadersWithoutMoss.answer earlier tree call = .ok asset →
          (Item.record (call.record asset)).Short := by
      intro earlier call asset written tree made _ answer
      rw [loads] at made
      have mem := made.subset (List.mem_append_right _ List.mem_cons_self)
      simp only [List.dropLast, List.mem_cons, List.not_mem_nil, or_false] at mem
      rcases mem with rfl | rfl
      · cases answer
        exact ⟨by decide, by decide⟩
      · cases answer
        exact ⟨by decide, by decide⟩
    obtain ⟨-, left⟩ := read_error_of_build_error rfl ends
    obtain ⟨listed, stop, runs, last, -, -, -, -, -, -, -, -, holds, reason, read⟩ :=
      left _ rfl (by decide +kernel) short
    exact ⟨_, reason, rfl, loads, holds, read⟩

end AssetPack.Package

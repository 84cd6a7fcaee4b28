import AssetPack.Proofs.Package.Refusals

/-! When the build and the reader agree about a texture. The build compares the pixels to a number
of bytes which is kept in a word, and the reader to the number itself. -/

namespace AssetPack.Package

/-- Runs which are read have only whole textures. -/
theorem complete_of_read_packaged {runs : List Run} (packaged : ∀ run ∈ runs, run.Packaged)
    (short : ∀ record ∈ runs.flatMap Run.records, (Item.record record).Short)
    {records : List Record} (read : (read (encode runs)).run.value = .ok records) :
    records = runs.flatMap Run.records ∧ ∀ record ∈ records, record.asset.Complete := by
  obtain ⟨others, good, form, rfl⟩ := runs_of_read read
  have shortRuns : ∀ run ∈ runs, run.Short := by
    intro run mem
    refine ⟨(packaged run mem).few, (packaged run mem).forall_items fun record of => ?_⟩
    exact short record (List.mem_flatMap.2 ⟨run, mem, of⟩)
  obtain rfl := encode_runs_inj shortRuns (fun run mem => (good run mem).1) (List.cons.inj form).2
  refine ⟨rfl, fun record mem => ?_⟩
  obtain ⟨run, among, of⟩ := List.mem_flatMap.1 mem
  obtain ⟨item, listed, known⟩ := List.mem_filterMap.1 of
  cases item with
  | record named =>
    cases known
    exact (good run among).2 _ listed
  | skipped => cases known

/-- The calls up to the place where a build stops are the first ones which the manifest asks for. -/
theorem Stop.calls_eq {sections : List Manifest.Section} (stop : Stop sections) :
    ∃ rest, sections.flatMap Manifest.Section.calls = stop.earlier ++ stop.call :: rest := by
  have own : stop.listed.calls = stop.done.map (⟨stop.kind, ·⟩) ++
      stop.call :: stop.rest.map (⟨stop.kind, ·⟩) := by
    have known := LoadKind.ofType?_eq_some.2 stop.type_eq
    simp only [Manifest.Section.calls, known, stop.assets_eq, List.map_append, List.map_cons]
    rfl
  refine ⟨stop.rest.map (⟨stop.kind, ·⟩) ++ stop.after.flatMap Manifest.Section.calls, ?_⟩
  conv => lhs; rw [stop.sections_eq]
  rw [List.flatMap_append, List.flatMap_cons, own, Stop.earlier]
  simp only [List.append_assoc, List.cons_append]

/-- What came of a single call. -/
theorem Loaded.of_single {loaders : Loaders} {files : FileTree} {output : Path} {call : Load}
    {records : List Record} (loaded : Loaded loaders files output [call] records) :
    ∃ bytes tree asset, files.write output bytes = .ok tree ∧
      loaders.answer [] tree call = .ok asset ∧ Accepted asset ∧ records = [call.record asset] := by
  obtain ⟨record, rfl⟩ := List.length_eq_one_iff.1 loaded.length_eq
  obtain ⟨earlier, last, bytes, tree, asset, made, written, answer, accepted, rfl⟩ :=
    loaded.of_record List.mem_cons_self
  have first : earlier = [] := by
    have length := made.length_le
    rw [List.length_append, List.length_singleton, List.length_singleton] at length
    exact List.eq_nil_of_length_eq_zero (by omega)
  rw [first, List.nil_append] at made
  obtain rfl := List.singleton_inj.1 (made.eq_of_length rfl)
  rw [first] at answer
  exact ⟨bytes, tree, asset, written, answer, accepted, rfl⟩

/-- A file which can be written holds all the bytes which were accepted. -/
theorem Stands.write_close {files emptied : FileTree} {output : Path} {sink : Sink} {bytes : Bytes}
    {p : Progress} (stands : Stands files output bytes p) (writable : files.Writable output)
    (opened : files.create output = .ok (emptied, sink)) :
    files.write output bytes = .ok (p.close sink) := by
  obtain ⟨before, written, rfl⟩ := stands
  obtain ⟨next, appended⟩ := writable.append_eq_ok opened written p.pending
  rw [Progress.close, appended]
  exact FileTree.write_append opened written appended

/-- The build lets the texture pass, whatever else becomes of it. -/
def Outcome.Accepts (outcome : Outcome) : Prop :=
  ∀ path expected actual, outcome.result ≠ .error (.invalidTexture path expected actual)

/-- The package is read, and has a record with the asset. -/
def ReadsBack (files : FileTree) (package : Path) (asset : PackagedAsset) : Prop :=
  ∃ records, (readFrom files package).run.value = .ok records ∧
    ∃ record ∈ records, record.asset = asset

/-- A build of one texture, which is loaded from a path and written with the name of its file. -/
structure TextureBuild (loaders : Loaders) (manifest output : Path) (files : FileTree)
    (path : Path) (texture : Texture) : Prop where
  lists : ∃ listed, (Manifest.load files manifest).run.value = .ok listed ∧
    listed.sections.flatMap Manifest.Section.calls = [⟨.texture, path⟩]
  writable : files.Writable output
  answer : ∀ bytes tree, files.write output bytes = .ok tree →
    (loaders.texture [] tree path).run.value = .ok texture
  short : (Item.record ((⟨.texture, path⟩ : Load).record (.texture texture))).Short

namespace TextureBuild
variable {loaders : Loaders} {manifest output path : Path} {files : FileTree} {texture : Texture}
  {outcome : Outcome}

theorem answer_eq (one : TextureBuild loaders manifest output files path texture) {bytes : Bytes}
    {tree : FileTree} (written : files.write output bytes = .ok tree) :
    loaders.answer [] tree ⟨.texture, path⟩ = .ok (.texture texture) :=
  map_eq_ok.2 ⟨texture, one.answer bytes tree written, rfl⟩

theorem length_lt (one : TextureBuild loaders manifest output files path texture) :
    texture.pixels.length < UInt32.size :=
  Nat.lt_of_le_of_lt (Nat.le_add_left _ 9) one.short.2

/-- A build which goes well has found as many bytes of pixels as the word says, and what it wrote is
read unless the word is wrong. -/
theorem of_ok (one : TextureBuild loaders manifest output files path texture)
    (built : (build loaders manifest output files).value = outcome) {summary : Summary}
    (ok : outcome.result = .ok summary) :
    texture.pixels.length = texture.pixelDataSize.toNat ∧
      (Complete texture → (readFrom outcome.files output).run.value =
        .ok [(⟨.texture, path⟩ : Load).record (.texture texture)]) ∧
      (¬ Complete texture → ∃ error, (readFrom outcome.files output).run.value = .error error) := by
  obtain ⟨listed, manifestLoads, calls⟩ := one.lists
  obtain ⟨emptied, sink, q, opened, evaluated, after, -⟩ := build_eq_ok manifestLoads built ok
  obtain ⟨-, called, runs, packaged, loaded, written⟩ :=
    writePackage_eq_ok ⟨output, sink⟩ opened evaluated
  rw [called, calls] at loaded
  obtain ⟨bytes, tree, asset, place, answer, accepted, records⟩ := loaded.of_single
  rw [one.answer_eq place] at answer
  cases answer
  rw [after, readFrom, FileTree.read_write written]
  refine ⟨accepted, fun complete => ?_, fun incomplete => ?_⟩
  · rw [← records]
    apply value_read_packaged packaged
    intro record mem
    obtain rfl := List.mem_singleton.1 (records ▸ mem)
    refine ⟨⟨one.short.1, one.short.2, fun t same => ?_⟩, complete⟩
    cases same
    exact Nat.lt_trans (complete ▸ one.length_lt) (by decide)
  · cases result : (read (encode runs)).run.value with
    | error error => exact ⟨error, rfl⟩
    | ok read =>
      have short : ∀ record ∈ runs.flatMap Run.records, (Item.record record).Short := by
        intro record mem
        obtain rfl := List.mem_singleton.1 (records ▸ mem)
        exact one.short
      obtain ⟨rfl, whole⟩ := complete_of_read_packaged packaged short result
      rw [records] at whole
      exact absurd (whole _ List.mem_cons_self) incomplete

/-- A build which fails has found another number of bytes of pixels, and leaves no package. -/
theorem of_error (one : TextureBuild loaders manifest output files path texture)
    (built : (build loaders manifest output files).value = outcome) {error : BuildError}
    (failed : outcome.result = .error error) :
    texture.pixels.length ≠ texture.pixelDataSize.toNat ∧
      error = .invalidTexture path texture.pixelDataSize.toNat texture.pixels.length ∧
        ∃ reason, (readFrom outcome.files output).run.value = .error reason := by
  obtain ⟨listed, manifestLoads, calls⟩ := one.lists
  have few : ∀ part ∈ listed.sections, part.calls.length < UInt32.size := by
    intro part mem
    obtain ⟨before, after, split⟩ := List.append_of_mem mem
    have length := congrArg List.length calls
    rw [split, List.flatMap_append, List.flatMap_cons, List.length_append, List.length_append,
      List.length_singleton] at length
    exact Nat.lt_of_le_of_lt (by omega : part.calls.length ≤ 1) (by decide)
  obtain ⟨stop, runs, last, p, emptied, sink, bytes, tree, opened, after, stopped, written,
    refusal⟩ := refusal_of_build_error manifestLoads one.writable few built failed
  -- The build can only stop at its first call.
  obtain ⟨rest, order⟩ := stop.calls_eq
  rw [calls] at order
  have none : stop.earlier = [] := by
    have length := congrArg List.length order
    rw [List.length_singleton, List.length_append, List.length_cons] at length
    exact List.eq_nil_of_length_eq_zero (by omega)
  rw [none, List.nil_append] at order
  obtain ⟨call, -⟩ := List.cons.inj order
  rw [none, ← call] at refusal
  have nothing : runs.flatMap Run.records ++ last = [] := by
    have length := stopped.loaded.length_eq
    rw [none] at length
    exact List.eq_nil_of_length_eq_zero length
  have whole := stopped.stands.write_close one.writable opened
  have unread := stopped.read_error (by rw [nothing]; exact fun _ mem => nomatch mem)
  rw [after, readFrom, FileTree.read_write whole]
  cases refusal with
  | load answer =>
    rw [one.answer_eq written] at answer
    cases answer
  | texture answer unsound =>
    rw [one.answer_eq written] at answer
    cases answer
    exact ⟨unsound, rfl, unread⟩

/-- The build asks for the number of bytes in a word of 64 bits and the reader for the number
itself. Whether a texture passes is whether it is read back, unless the number does not fit into
the word and the texture has as many bytes as the word then says. -/
theorem accepts_and_reads (one : TextureBuild loaders manifest output files path texture)
    (built : (build loaders manifest output files).value = outcome) :
    (outcome.Accepts ↔ texture.pixels.length =
        Texture.pixelBytes texture.width texture.height texture.format % 2 ^ 64) ∧
      (Complete texture → (readFrom outcome.files output).run.value =
        .ok [(⟨.texture, path⟩ : Load).record (.texture texture)]) ∧
      (¬ Complete texture →
        ∃ error, (readFrom outcome.files output).run.value = .error error) ∧
      ((outcome.Accepts ↔ ReadsBack outcome.files output (.texture texture)) ↔
        Texture.pixelBytes texture.width texture.height texture.format < 2 ^ 64 ∨
          texture.pixels.length ≠
            Texture.pixelBytes texture.width texture.height texture.format % 2 ^ 64) := by
  have word : texture.pixelDataSize.toNat =
      Texture.pixelBytes texture.width texture.height texture.format % 2 ^ 64 :=
    texture.toNat_pixelDataSize
  have short : texture.pixels.length < 2 ^ 32 := one.length_lt
  -- Whole textures pass, as so many bytes can be counted.
  have passes : Complete texture → texture.pixels.length = texture.pixelDataSize.toNat := by
    intro complete
    rw [word, ← complete, Nat.mod_eq_of_lt (by omega)]
  have accepts : outcome.Accepts ↔ texture.pixels.length = texture.pixelDataSize.toNat := by
    cases ends : outcome.result with
    | ok summary =>
      refine ⟨fun _ => (one.of_ok built ends).1, fun _ path expected actual same => ?_⟩
      rw [ends] at same
      cases same
    | error error =>
      obtain ⟨unsound, rfl, -⟩ := one.of_error built ends
      exact ⟨fun passed => absurd ends (passed _ _ _), fun sound => absurd sound unsound⟩
  have whole : Complete texture → (readFrom outcome.files output).run.value =
      .ok [(⟨.texture, path⟩ : Load).record (.texture texture)] := by
    intro complete
    cases ends : outcome.result with
    | ok summary => exact (one.of_ok built ends).2.1 complete
    | error error => exact absurd (passes complete) (one.of_error built ends).1
  have torn : ¬ Complete texture →
      ∃ error, (readFrom outcome.files output).run.value = .error error := by
    intro incomplete
    cases ends : outcome.result with
    | ok summary => exact (one.of_ok built ends).2.2 incomplete
    | error error => exact (one.of_error built ends).2.2
  have reads : ReadsBack outcome.files output (.texture texture) ↔ Complete texture := by
    constructor
    · intro back
      obtain ⟨records, read, -⟩ := back
      by_contra incomplete
      obtain ⟨error, failed⟩ := torn incomplete
      rw [read] at failed
      cases failed
    · intro complete
      exact ⟨_, whole complete, _, List.mem_singleton_self _, rfl⟩
  rw [← word]
  refine ⟨accepts, whole, torn, ?_⟩
  rw [accepts, reads]
  change (_ ↔ texture.pixels.length = _) ↔ _
  rw [word]
  omega

end TextureBuild

/-- A small texture passes and is read back. -/
theorem accepts_and_reads_brick :
    TextureBuild constantLoaders ⟨"list.frlist"⟩ ⟨"out"⟩ brickFiles ⟨"brick.png"⟩
        ⟨1, 1, .r, [7]⟩ ∧
      (build constantLoaders ⟨"list.frlist"⟩ ⟨"out"⟩ brickFiles).value.Accepts ∧
      (readFrom (build constantLoaders ⟨"list.frlist"⟩ ⟨"out"⟩ brickFiles).value.files
        ⟨"out"⟩).run.value = .ok [⟨"brick.png", .texture ⟨1, 1, .r, [7]⟩⟩] := by
  have one : TextureBuild constantLoaders ⟨"list.frlist"⟩ ⟨"out"⟩ brickFiles ⟨"brick.png"⟩
      ⟨1, 1, .r, [7]⟩ :=
    ⟨⟨brickManifest, by decide +kernel, rfl⟩, by decide +kernel, fun _ _ _ => rfl, by decide,
      by decide⟩
  obtain ⟨accepts, whole, -⟩ := one.accepts_and_reads rfl
  exact ⟨one, accepts.2 (by decide), whole rfl⟩

/-- A texture of 2 ^ 62 pixels, of which there is none. Its 2 ^ 64 bytes are 0 in a word. -/
def hugeTexture : Texture := ⟨0x80000000, 0x80000000, .rgba, []⟩

def hugeLoaders : Loaders := { constantLoaders with texture _ _ _ := pure hugeTexture }

/-- The texture passes, and is not read back. -/
theorem accepts_not_reads_huge :
    TextureBuild hugeLoaders ⟨"list.frlist"⟩ ⟨"out"⟩ brickFiles ⟨"brick.png"⟩ hugeTexture ∧
      ¬ ((build hugeLoaders ⟨"list.frlist"⟩ ⟨"out"⟩ brickFiles).value.Accepts ↔
        ReadsBack (build hugeLoaders ⟨"list.frlist"⟩ ⟨"out"⟩ brickFiles).value.files ⟨"out"⟩
          (.texture hugeTexture)) := by
  have one : TextureBuild hugeLoaders ⟨"list.frlist"⟩ ⟨"out"⟩ brickFiles ⟨"brick.png"⟩
      hugeTexture :=
    ⟨⟨brickManifest, by decide +kernel, rfl⟩, by decide +kernel, fun _ _ _ => rfl, by decide,
      by decide⟩
  have good : (build hugeLoaders ⟨"list.frlist"⟩ ⟨"out"⟩ brickFiles).value.result.isOk := by
    decide +kernel
  refine ⟨one, fun agree => ?_⟩
  cases ends : (build hugeLoaders ⟨"list.frlist"⟩ ⟨"out"⟩ brickFiles).value.result with
  | error error =>
    rw [ends] at good
    cases good
  | ok summary =>
    have accepts : (build hugeLoaders ⟨"list.frlist"⟩ ⟨"out"⟩ brickFiles).value.Accepts := by
      intro path expected actual same
      rw [ends] at same
      cases same
    obtain ⟨records, read, -⟩ := agree.1 accepts
    obtain ⟨error, failed⟩ := (one.of_ok rfl ends).2.2 (by decide)
    rw [read] at failed
    cases failed

end AssetPack.Package

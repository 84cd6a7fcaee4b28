import AssetPack.Import.FileLoader
import AssetPack.Proofs.Files.Sparing
import AssetPack.Proofs.Invariants
import AssetPack.Proofs.Manifest.Reloading
import AssetPack.Proofs.Package.Building

/-! Building a package again, in files where everything that was read is read in the same way. -/

namespace AssetPack

/-- Loaders which depend on nothing but the bytes at their path. -/
def Package.Loader.Reads {α : Type} (loader : Package.Loader α) : Prop :=
  ∀ earlier earlier' files later path a,
    (∀ bytes, files.read path = .ok bytes → later.read path = .ok bytes) →
      (loader earlier files path).run.value = .ok a →
        (loader earlier' later path).run.value = .ok a

/-- Loaders of which each depends on nothing but the bytes at its path. -/
structure Package.Loaders.Reads (loaders : Package.Loaders) : Prop where
  texture : loaders.texture.Reads
  shader : loaders.shader.Reads
  audio : loaders.audio.Reads

namespace Import
open Attempt

theorem reads_loadTexture : fileLoaders.texture.Reads := by
  intro _ _ files later path a same h
  simp only [fileLoaders, value_adapt, loadTexture] at h ⊢
  cases read : files.read path with
  | error reason =>
    rw [read] at h
    cases h
  | ok bytes =>
    rw [read] at h
    rw [same bytes read]
    exact h

theorem reads_loadShader : fileLoaders.shader.Reads := by
  intro _ _ files later path a same h
  simp only [fileLoaders, value_adapt, loadShader, FileTree.readText] at h ⊢
  cases read : files.read path with
  | error reason =>
    rw [read] at h
    cases h
  | ok bytes =>
    rw [read] at h
    rw [same bytes read]
    exact h

theorem reads_loadAudio : fileLoaders.audio.Reads := by
  intro _ _ files later path a same h
  simp only [fileLoaders, value_adapt, loadAudio, value_bind] at h ⊢
  cases read : files.read path with
  | error reason =>
    rw [read] at h
    cases reason <;> cases h
  | ok bytes =>
    rw [read] at h
    rw [same bytes read]
    exact h

theorem reads_fileLoaders : fileLoaders.Reads :=
  ⟨reads_loadTexture, reads_loadShader, reads_loadAudio⟩

end Import

namespace Package
open Process FileTree

/-- Two builds with the same bytes in their output, before whatever waits to be written. -/
structure Twin (files later : FileTree) (place : Place) (p q : Progress) : Prop where
  files : ∃ bytes, p.files = files.withFile place bytes ∧ q.files = later.withFile place bytes
  pending : q.pending = p.pending

/-- The output is in a folder in both file trees, and the same bytes are read through any path,
whatever stands in the output. -/
structure Repeatable (files later : FileTree) (dir : Place) (name : String) : Prop where
  found : ∃ inner, files.root.node? dir = some (.folder inner)
  found' : ∃ inner, later.root.node? dir = some (.folder inner)
  read : ∀ written path bytes, (files.withFile (dir ++ [name]) written).read path = .ok bytes →
    (later.withFile (dir ++ [name]) written).read path = .ok bytes

section twin
variable {files later : FileTree} {dir : Place} {name : String} {p q : Progress}

theorem Twin.append (twin : Twin files later (dir ++ [name]) p q)
    (repeatable : Repeatable files later dir name) (more : Bytes) : ∃ tree tree',
      p.files.append more (.file (dir ++ [name])) = .ok tree ∧
        q.files.append more (.file (dir ++ [name])) = .ok tree' ∧
          ∃ bytes, tree = files.withFile (dir ++ [name]) bytes ∧
            tree' = later.withFile (dir ++ [name]) bytes := by
  obtain ⟨bytes, files_eq, later_eq⟩ := twin.files
  obtain ⟨inner, found⟩ := repeatable.found
  obtain ⟨inner', found'⟩ := repeatable.found'
  rw [files_eq, later_eq, append_withFile found, append_withFile found']
  exact ⟨_, _, rfl, rfl, _, rfl, rfl⟩

theorem Twin.flush (twin : Twin files later (dir ++ [name]) p q)
    (repeatable : Repeatable files later dir name) : ∃ p' q',
      p.flush (.file (dir ++ [name])) = .ok p' ∧ q.flush (.file (dir ++ [name])) = .ok q' ∧
        Twin files later (dir ++ [name]) p' q' := by
  obtain ⟨tree, tree', first, second, written⟩ := twin.append repeatable p.pending
  simp only [Progress.flush, Bind.bind, Except.bind, twin.pending, first, second]
  exact ⟨_, _, rfl, rfl, written, rfl⟩

/-- The end of `push`. -/
theorem Twin.accept (twin : Twin files later (dir ++ [name]) p q)
    (repeatable : Repeatable files later dir name) (more : Bytes) : ∃ p' q',
      (if Progress.capacity ≤ more.length then do
          return { p with files := ← p.files.append more (.file (dir ++ [name])) }
        else return { p with pending := p.pending ++ more }) = Except.ok (ε := IoError) p' ∧
      (if Progress.capacity ≤ more.length then do
          return { q with files := ← q.files.append more (.file (dir ++ [name])) }
        else return { q with pending := q.pending ++ more }) = Except.ok (ε := IoError) q' ∧
      Twin files later (dir ++ [name]) p' q' := by
  split
  · obtain ⟨tree, tree', first, second, written⟩ := twin.append repeatable more
    simp only [Bind.bind, Except.bind, first, second]
    exact ⟨_, _, rfl, rfl, written, twin.pending⟩
  · exact ⟨_, _, rfl, rfl, twin.files, by rw [twin.pending]⟩

theorem Twin.push (twin : Twin files later (dir ++ [name]) p q)
    (repeatable : Repeatable files later dir name) (more : Bytes) : ∃ p' q',
      p.push (.file (dir ++ [name])) more = .ok p' ∧ q.push (.file (dir ++ [name])) more = .ok q' ∧
        Twin files later (dir ++ [name]) p' q' := by
  have room : q.pending.length = p.pending.length := by rw [twin.pending]
  simp only [Progress.push, room]
  split
  · exact ⟨_, _, rfl, rfl, twin.files, by rw [twin.pending]⟩
  · split
    · obtain ⟨p', q', first, second, twin⟩ := twin.flush repeatable
      rw [first, second]
      exact twin.accept repeatable more
    · exact twin.accept repeatable more

theorem Twin.close (twin : Twin files later (dir ++ [name]) p q)
    (repeatable : Repeatable files later dir name) : ∃ bytes,
      p.close (.file (dir ++ [name])) = files.withFile (dir ++ [name]) bytes ∧
        q.close (.file (dir ++ [name])) = later.withFile (dir ++ [name]) bytes := by
  obtain ⟨tree, tree', first, second, written⟩ := twin.append repeatable p.pending
  rw [Progress.close, Progress.close, twin.pending, first, second]
  exact written

end twin

namespace Builder

/-- A section which is not packaged is passed over, whatever it lists. -/
theorem eval_writeSection_skip (loaders : Loaders) (target : Target) (summary : Summary)
    {listed : Manifest.Section} (skipped : isPackaged listed.type = false) (p : Progress) :
    ∃ next, eval (writeSection loaders target summary listed) p = (.ok next, p) := by
  obtain ⟨type, folder, assets⟩ := listed
  rw [writeSection]
  split
  · exact ⟨summary, rfl⟩
  · cases type with
    | texture | shader | audioBuffer => cases skipped
    | buffer | shaderContext | animation | font | invalid => exact ⟨_, rfl⟩

section follows
variable {α : Type} {files later : FileTree} {dir : Place} {name : String} {output : Path}
  (repeatable : Repeatable files later dir name)
include repeatable

theorem follows_write (bytes : Bytes) :
    Follows (Twin files later (dir ++ [name])) (· = ·)
      (write ⟨output, .file (dir ++ [name])⟩ bytes)
      (write ⟨output, .file (dir ++ [name])⟩ bytes) := by
  intro p q a p' twin h
  obtain ⟨next, next', first, second, twin⟩ := twin.push repeatable bytes
  rw [write, eval_update, first] at h
  cases h
  rw [write, eval_update, second]
  exact ⟨(), next', rfl, rfl, twin⟩

theorem follows_flush :
    Follows (Twin files later (dir ++ [name])) (· = ·) (flush ⟨output, .file (dir ++ [name])⟩)
      (flush ⟨output, .file (dir ++ [name])⟩) := by
  intro p q a p' twin h
  obtain ⟨next, next', first, second, twin⟩ := twin.flush repeatable
  rw [flush, eval_update, first] at h
  cases h
  rw [flush, eval_update, second]
  exact ⟨(), next', rfl, rfl, twin⟩

theorem follows_load {loader : Loader α} (reads : loader.Reads) (kind : LoadKind) (path : Path) :
    Follows (Twin files later (dir ++ [name])) (· = ·) (load kind loader path)
      (load kind loader path) := by
  intro p q a p' twin h
  obtain ⟨rfl, answered⟩ := load_eq_ok h
  obtain ⟨written, files_eq, later_eq⟩ := twin.files
  have same := reads p.loads q.loads p.files q.files path a
    (by rw [files_eq, later_eq]; exact repeatable.read written path) answered
  refine ⟨a, q.note ⟨kind, path⟩, ?_, rfl, ⟨written, files_eq, later_eq⟩, twin.pending⟩
  rw [eval_load, same]

theorem follows_loadTexture {loader : Loader Texture} (reads : loader.Reads) (path : Path) :
    Follows (Twin files later (dir ++ [name])) (· = ·) (loadTexture loader path)
      (loadTexture loader path) := by
  intro p q texture p' twin h
  obtain ⟨loaded, complete⟩ := loadTexture_eq_ok h
  obtain ⟨_, q', loaded', rfl, twin⟩ :=
    follows_load repeatable reads .texture path p q texture p' twin loaded
  refine ⟨texture, q', ?_, rfl, twin⟩
  rw [loadTexture, bind_eq_ok]
  refine ⟨texture, q', loaded', ?_⟩
  rw [if_neg (not_not_intro complete)]
  rfl

theorem follows_writeRecords [Packed α] (type : AssetType) {load : Path → Builder α}
    (loads : ∀ path, Follows (Twin files later (dir ++ [name])) (· = ·) (load path) (load path))
    (paths : List Path) :
    Follows (Twin files later (dir ++ [name])) (· = ·)
      (writeRecords ⟨output, .file (dir ++ [name])⟩ type load paths)
      (writeRecords ⟨output, .file (dir ++ [name])⟩ type load paths) := by
  induction paths with
  | nil => exact follows_pure rfl
  | cons path rest ih =>
    rw [writeRecords]
    refine (loads path).bind ?_
    rintro asset _ rfl
    refine (follows_logged _ _).bind fun _ _ _ => ?_
    exact (follows_write repeatable _).bind fun _ _ _ => ih

theorem follows_writeRun [Packed α] (type : AssetType) {load : Path → Builder α}
    (loads : ∀ path, Follows (Twin files later (dir ++ [name])) (· = ·) (load path) (load path))
    (paths : List Path) :
    Follows (Twin files later (dir ++ [name])) (· = ·)
      (writeRun ⟨output, .file (dir ++ [name])⟩ type load paths)
      (writeRun ⟨output, .file (dir ++ [name])⟩ type load paths) := by
  rw [writeRun]
  split
  · intro p q a p' twin h
    cases h
  · refine (follows_write repeatable _).bind fun _ _ _ => ?_
    exact (follows_writeRecords repeatable type loads paths).bind fun _ _ _ => follows_pure rfl

theorem follows_writeSection {loaders : Loaders} (reads : loaders.Reads)
    {listed again : Manifest.Section} (same : listed.Matches again) (summary summary' : Summary) :
    Follows (Twin files later (dir ++ [name])) (fun _ _ => True)
      (writeSection loaders ⟨output, .file (dir ++ [name])⟩ summary listed)
      (writeSection loaders ⟨output, .file (dir ++ [name])⟩ summary' again) := by
  cases packaged : isPackaged listed.type with
  | false =>
    intro p q next p' twin h
    obtain ⟨_, passed⟩ := eval_writeSection_skip loaders ⟨output, .file (dir ++ [name])⟩ summary
      packaged p
    rw [passed] at h
    cases h
    obtain ⟨next', passed'⟩ := eval_writeSection_skip loaders ⟨output, .file (dir ++ [name])⟩
      summary' (same.type.symm ▸ packaged) q
    exact ⟨next', q, passed', trivial, twin⟩
  | true =>
    rw [writeSection, writeSection, same.type, same.assets packaged]
    split
    · exact (follows_logged _ _).bind fun _ _ _ => follows_pure trivial
    · cases type : listed.type with
      | texture =>
        exact (follows_writeRun repeatable _ (follows_loadTexture repeatable reads.texture)
          _).bind fun _ _ _ => follows_pure trivial
      | shader =>
        exact (follows_writeRun repeatable _ (follows_load repeatable reads.shader .shader)
          _).bind fun _ _ _ => follows_pure trivial
      | audioBuffer =>
        exact (follows_writeRun repeatable _ (follows_load repeatable reads.audio .audio)
          _).bind fun _ _ _ => follows_pure trivial
      | buffer | shaderContext | animation | font | invalid =>
        rw [type] at packaged
        cases packaged

theorem follows_writePackage {loaders : Loaders} (reads : loaders.Reads)
    {sections again : List Manifest.Section}
    (same : List.Forall₂ Manifest.Section.Matches sections again) :
    Follows (Twin files later (dir ++ [name])) (fun _ _ => True)
      (writePackage loaders ⟨output, .file (dir ++ [name])⟩ sections)
      (writePackage loaders ⟨output, .file (dir ++ [name])⟩ again) := by
  rw [writePackage, writePackage]
  refine (follows_write repeatable _).bind fun _ _ _ => ?_
  have each (summary summary' : Summary) (listed next : Manifest.Section) (_ : True)
      (same : listed.Matches next) :
      Follows (Twin files later (dir ++ [name])) (fun _ _ => True)
        (writeSection loaders ⟨output, .file (dir ++ [name])⟩ summary listed)
        (writeSection loaders ⟨output, .file (dir ++ [name])⟩ summary' next) :=
    follows_writeSection repeatable reads same summary summary'
  refine (Follows.foldlM each same trivial).bind fun _ _ _ => ?_
  refine (follows_flush repeatable).bind fun _ _ _ => ?_
  exact (follows_logged _ _).bind fun _ _ _ => follows_pure trivial

end follows

end Builder

/-- What a build leaves which goes well: a file with bytes that start like a package. -/
theorem files_of_build_ok {loaders : Loaders} {manifest output : Path} {files : FileTree}
    {summary : Summary} (ok : (build loaders manifest output files).value.result = .ok summary) :
    ∃ listed dir name inner rest, (Manifest.load files manifest).run.value = .ok listed ∧
      Opens files output dir name inner ∧ Replaceable inner name ∧
        (build loaders manifest output files).value.files =
          files.withFile (dir ++ [name]) (formatVersion :: rest) := by
  cases loaded : (Manifest.load files manifest).run.value with
  | error reason =>
    rw [build, Logged.value_bind, loaded] at ok
    cases ok
  | ok listed =>
    obtain ⟨emptied, sink, q, opened, evaluated, after, -⟩ := build_eq_ok loaded rfl ok
    obtain ⟨-, -, runs, -, -, written⟩ := writePackage_eq_ok ⟨output, sink⟩ opened evaluated
    rw [← after] at written
    obtain ⟨dir, name, inner, opens, old, same⟩ := opens_of_write (by simp [encode]) written
    exact ⟨listed, dir, name, inner, _, rfl, opens, old, same⟩

theorem build_of_eval {loaders : Loaders} {manifest output : Path} {files emptied : FileTree}
    {sink : Sink} {listed : Manifest} {summary : Summary} {q : Progress}
    (loaded : (Manifest.load files manifest).run.value = .ok listed)
    (opened : files.create output = .ok (emptied, sink))
    (evaluated : eval (Builder.writePackage loaders ⟨output, sink⟩ listed.sections)
      ⟨emptied, [], []⟩ = (.ok summary, q)) :
    (build loaders manifest output files).value.result = .ok summary ∧
      (build loaders manifest output files).value.files = q.close sink := by
  rw [build_of_opened loaded opened evaluated]
  exact ⟨rfl, rfl⟩

/-- A build which goes well is repeated in other files, if its manifest lists the same for the
package there. -/
theorem build_again {loaders : Loaders} (reads : loaders.Reads) {manifest output : Path}
    {files later : FileTree} {dir : Place} {name : String} {inner inner' : Folder}
    (opens : Opens files output dir name inner) (old : Replaceable inner name)
    (opens' : Opens later output dir name inner') (old' : Replaceable inner' name)
    (repeatable : Repeatable files later dir name) {listed again : Manifest}
    (loaded : (Manifest.load files manifest).run.value = .ok listed)
    (loaded' : (Manifest.load later manifest).run.value = .ok again)
    (same : List.Forall₂ Manifest.Section.Matches listed.sections again.sections)
    {summary : Summary} (ok : (build loaders manifest output files).value.result = .ok summary) :
    ∃ bytes next,
      (build loaders manifest output files).value.files = files.withFile (dir ++ [name]) bytes ∧
        (build loaders manifest output later).value.result = .ok next ∧
          (build loaders manifest output later).value.files =
            later.withFile (dir ++ [name]) bytes := by
  obtain ⟨emptied, sink, q, opened, evaluated, after, -⟩ := build_eq_ok loaded rfl ok
  rw [opens.create_eq old] at opened
  cases opened
  have twin : Twin files later (dir ++ [name]) ⟨files.withFile (dir ++ [name]) [], [], []⟩
      ⟨later.withFile (dir ++ [name]) [], [], []⟩ := ⟨⟨[], rfl, rfl⟩, rfl⟩
  obtain ⟨next, q', evaluated', -, twin⟩ :=
    Builder.follows_writePackage repeatable reads same _ _ _ _ twin evaluated
  obtain ⟨bytes, first, second⟩ := twin.close repeatable
  obtain ⟨result, written⟩ := build_of_eval loaded' (opens'.create_eq old') evaluated'
  exact ⟨bytes, next, after.trans first, result, written.trans second⟩

end Package

end AssetPack

import AssetPack.Proofs.Files.Sparing
import AssetPack.Proofs.Package.Output
import AssetPack.Proofs.Package.Stopped

/-! Why a build fails which can write its output: a loader fails, or makes a texture with the wrong
number of bytes of pixels. -/

namespace AssetPack

theorem FileTree.Writable.create_eq_ok {files : FileTree} {path : Path}
    (writable : files.Writable path) : ∃ emptied sink, files.create path = .ok (emptied, sink) := by
  obtain ⟨next, written⟩ := writable []
  cases opened : files.create path with
  | error reason =>
    rw [write, opened] at written
    cases written
  | ok file => exact ⟨file.1, file.2, rfl⟩

/-- Whatever was written, more can be. -/
theorem FileTree.Writable.append_eq_ok {files emptied tree : FileTree} {path : Path} {sink : Sink}
    (writable : files.Writable path) (opened : files.create path = .ok (emptied, sink))
    {bytes : Bytes} (written : files.write path bytes = .ok tree) (more : Bytes) :
    ∃ next, tree.append more sink = .ok next := by
  obtain ⟨dir, name, inner, opens, ⟨-, rfl, rfl⟩ | ⟨-, rfl, writes⟩⟩ := write_eq_ok opened
  · obtain ⟨next, full⟩ := writable [0]
    rw [write_eq_append opened] at full
    cases full
  · rw [writes] at written
    cases written
    exact ⟨_, append_withFile opens.found name bytes more⟩

namespace Package
open Process

/-- A property of the files with which every append to the output goes well. -/
def Roomy (P : FileTree → Prop) (sink : Sink) : Prop :=
  ∀ tree bytes, P tree → ∃ next, tree.append bytes sink = .ok next

namespace Roomy
variable {P : FileTree → Prop} {sink : Sink} {p : Progress}

theorem flush (roomy : Roomy P sink) (h : P p.files) : ∃ q, p.flush sink = .ok q := by
  obtain ⟨next, appended⟩ := roomy p.files p.pending h
  refine ⟨{ p with files := next, pending := [] }, ?_⟩
  rw [Progress.flush, appended]
  rfl

theorem push (roomy : Roomy P sink) (lasting : Lasting P sink) (h : P p.files) (bytes : Bytes) :
    ∃ q, p.push sink bytes = .ok q := by
  -- The end of `push`, which also comes after a flush.
  have accept (q : Progress) (h : P q.files) : ∃ next,
      (if Progress.capacity ≤ bytes.length then do
        return { q with files := ← q.files.append bytes sink }
      else return { q with pending := q.pending ++ bytes }) = Except.ok (ε := IoError) next := by
    split
    · obtain ⟨next, appended⟩ := roomy q.files bytes h
      exact ⟨{ q with files := next }, by rw [appended]; rfl⟩
    · exact ⟨_, rfl⟩
  simp only [Progress.push]
  split
  · exact ⟨_, rfl⟩
  · split
    · obtain ⟨q, flushed⟩ := roomy.flush h
      rw [flushed]
      exact accept q (lasting.flush h flushed)
    · exact accept p h

end Roomy

/-- Why a call of a loader ends the build: there is no asset, or a texture whose pixels do not fit
its dimensions. -/
inductive Refusal (loaders : Loaders) (earlier : List Load) (tree : FileTree) (call : Load) :
    BuildError → Prop
  | load {reason : LoadError} (answer : loaders.answer earlier tree call = .error reason) :
    Refusal loaders earlier tree call (.load call.path reason)
  | texture {t : Texture} (answer : loaders.answer earlier tree call = .ok (.texture t))
    (unsound : t.pixels.length ≠ t.pixelDataSize.toNat) :
    Refusal loaders earlier tree call
      (.invalidTexture call.path t.pixelDataSize.toNat t.pixels.length)

/-- The last call was made while some bytes stood in the output, and is why the build failed. -/
def Refused (loaders : Loaders) (files : FileTree) (output : Path) (error : BuildError)
    (p : Progress) : Prop :=
  ∃ earlier call bytes tree, p.loads = earlier ++ [call] ∧ files.write output bytes = .ok tree ∧
    Refusal loaders earlier tree call error

namespace Builder
variable {α : Type} {loaders : Loaders} {files : FileTree} {target : Target}

/-- A part of a build in which only the answers of loaders are to blame. -/
abbrev FailsAtLoads (loaders : Loaders) (files : FileTree) (output : Path) (x : Builder α) : Prop :=
  Fails (fun p => Written files output p.files) (Refused loaders files output) x

theorem fails_update {P : Progress → Prop} {E : BuildError → Progress → Prop}
    {change : Progress → Except IoError Progress} (fine : ∀ p, P p → ∃ q, change p = .ok q) :
    Fails P E (update target change) := by
  intro p error q h failed
  obtain ⟨next, changed⟩ := fine p h
  rw [eval_update, changed] at failed
  cases failed

/-- How a loader of one kind is called, and what a failure of the call is. -/
theorem fails_load {kind : LoadKind} {loader : Loader α} (wrap : α → PackagedAsset)
    (same : ∀ earlier tree path,
      loaders.answer earlier tree ⟨kind, path⟩ = (loader earlier tree path).run.value.map wrap)
    (path : Path) : FailsAtLoads loaders files target.path (load kind loader path) := by
  intro p error q h failed
  obtain ⟨bytes, written⟩ := h
  rw [eval_load] at failed
  split at failed
  · cases failed
  · rename_i reason answered
    cases failed
    refine ⟨p.loads, ⟨kind, path⟩, bytes, p.files, rfl, written, .load ?_⟩
    rw [same, answered]
    rfl

theorem fails_loadTexture (path : Path) :
    FailsAtLoads loaders files target.path (loadTexture loaders.texture path) := by
  intro p error q h failed
  rw [loadTexture, bind_eq_error] at failed
  rcases failed with failed | ⟨texture, q', loaded, failed⟩
  · exact fails_load .texture (fun _ _ _ => rfl) path p error q h failed
  · obtain ⟨rfl, answered⟩ := load_eq_ok loaded
    obtain ⟨bytes, written⟩ := h
    split at failed
    · rename_i unsound
      cases failed
      exact ⟨p.loads, ⟨.texture, path⟩, bytes, p.files, rfl, written,
        .texture (map_eq_ok.2 ⟨texture, answered, rfl⟩) unsound⟩
    · cases failed

section sections
variable {emptied : FileTree} [Packed α] {load : Path → Builder α} {paths : List Path}

theorem roomy_written (writable : files.Writable target.path)
    (opened : files.create target.path = .ok (emptied, target.sink)) :
    Roomy (Written files target.path) target.sink := by
  rintro tree more ⟨bytes, written⟩
  exact writable.append_eq_ok opened written more

theorem fails_write (writable : files.Writable target.path)
    (opened : files.create target.path = .ok (emptied, target.sink)) (bytes : Bytes) :
    FailsAtLoads loaders files target.path (write target bytes) :=
  fails_update fun _ h => (roomy_written writable opened).push (lasting_written opened) h bytes

theorem fails_writeRecords (writable : files.Writable target.path)
    (opened : files.create target.path = .ok (emptied, target.sink)) (type : AssetType)
    (kept : ∀ path, KeepsFiles (Written files target.path) (load path))
    (loads : ∀ path, FailsAtLoads loaders files target.path (load path)) (paths : List Path) :
    FailsAtLoads loaders files target.path (writeRecords target type load paths) := by
  induction paths with
  | nil => exact fails_pure _
  | cons path rest ih =>
    rw [writeRecords]
    refine .bind (loads path) (kept path) fun asset => ?_
    refine .bind (fails_logged _) (keeps_logged _) fun _ => ?_
    exact .bind (fails_write writable opened _) (keeps_write (lasting_written opened) _) fun _ => ih

theorem fails_writeRun (writable : files.Writable target.path)
    (opened : files.create target.path = .ok (emptied, target.sink)) (type : AssetType)
    (kept : ∀ path, KeepsFiles (Written files target.path) (load path))
    (loads : ∀ path, FailsAtLoads loaders files target.path (load path))
    (few : paths.length < UInt32.size) :
    FailsAtLoads loaders files target.path (writeRun target type load paths) := by
  have lasting := lasting_written opened
  rw [writeRun, if_neg (Nat.not_le_of_lt few)]
  refine .bind (fails_write writable opened _) (keeps_write lasting _) fun _ => ?_
  exact .bind (fails_writeRecords writable opened type kept loads paths)
    (keeps_writeRecords lasting type kept paths) fun _ => fails_pure _

end sections
variable {emptied : FileTree}

theorem fails_writeSection (writable : files.Writable target.path)
    (opened : files.create target.path = .ok (emptied, target.sink)) (summary : Summary)
    {listed : Manifest.Section} (few : listed.calls.length < UInt32.size) :
    FailsAtLoads loaders files target.path (writeSection loaders target summary listed) := by
  have lasting := lasting_written opened
  rw [writeSection]
  split
  · exact .bind (fails_logged _) (keeps_logged _) fun _ => fails_pure _
  · dsimp only
    -- A section which is packaged asks for one call for each of its assets.
    have packaged (kind : LoadKind) (same : listed.type = kind.type) :
        listed.assets.length < UInt32.size := by
      have known := LoadKind.ofType?_eq_some.2 same.symm
      simpa only [Manifest.Section.calls, known, List.length_map] using few
    split
    · rename_i same
      exact .bind (fails_writeRun writable opened _ (keeps_loadTexture _) fails_loadTexture
          (packaged .texture same)) (keeps_writeRun lasting _ (keeps_loadTexture _) _)
        fun _ => fails_pure _
    · rename_i same
      exact .bind (fails_writeRun writable opened _ (keeps_load _ _)
          (fails_load .shader fun _ _ _ => rfl) (packaged .shader same))
        (keeps_writeRun lasting _ (keeps_load _ _) _) fun _ => fails_pure _
    · rename_i same
      exact .bind (fails_writeRun writable opened _ (keeps_load _ _)
          (fails_load .audio fun _ _ _ => rfl) (packaged .audio same))
        (keeps_writeRun lasting _ (keeps_load _ _) _) fun _ => fails_pure _
    · exact .bind (fails_logged _) (keeps_logged _) fun _ => fails_pure _

theorem fails_writePackage (target : Target) (writable : files.Writable target.path)
    (opened : files.create target.path = .ok (emptied, target.sink))
    {sections : List Manifest.Section}
    (few : ∀ listed ∈ sections, listed.calls.length < UInt32.size) :
    FailsAtLoads loaders files target.path (writePackage loaders target sections) := by
  have lasting := lasting_written opened
  have kept := keeps_writeSection lasting loaders
  rw [writePackage]
  refine .bind (fails_write writable opened _) (keeps_write lasting _) fun _ => ?_
  refine .bind (.foldlM (fun summary listed mem => fails_writeSection writable opened summary
    (few listed mem)) kept _) (.foldlM kept sections _) fun summary => ?_
  refine .bind (fails_update fun _ h => (roomy_written writable opened).flush h)
    (keeps_flush lasting) fun _ => ?_
  exact .bind (fails_logged _) (keeps_logged _) fun _ => fails_pure _

end Builder

theorem Refusal.ne_write {loaders : Loaders} {earlier : List Load} {tree : FileTree} {call : Load}
    {error : BuildError} (refusal : Refusal loaders earlier tree call error) (path : Path)
    (fault : WriteFault) : error ≠ .write path fault := by
  intro same
  rw [same] at refusal
  cases refusal

/-- A build which can read its manifest and write its output fails at an asset of the manifest only,
and by the answer of the loader for this asset. -/
theorem refusal_of_build_error {loaders : Loaders} {manifest output : Path} {files : FileTree}
    {listed : Manifest} {outcome : Outcome} {error : BuildError}
    (manifestLoads : (Manifest.load files manifest).run.value = .ok listed)
    (writable : files.Writable output)
    (few : ∀ part ∈ listed.sections, part.calls.length < UInt32.size)
    (built : (build loaders manifest output files).value = outcome)
    (failed : outcome.result = .error error) :
    ∃ (stop : Stop listed.sections) (runs : List Run) (last : List Record) (p : Progress)
      (emptied : FileTree) (sink : Sink) (bytes : Bytes) (tree : FileTree),
      files.create output = .ok (emptied, sink) ∧ outcome.files = p.close sink ∧
        Stopped loaders files output stop runs last p ∧ files.write output bytes = .ok tree ∧
          Refusal loaders stop.earlier tree stop.call error := by
  obtain ⟨emptied, sink, opened⟩ := writable.create_eq_ok
  cases evaluated : eval (Builder.writePackage loaders ⟨output, sink⟩ listed.sections)
    ⟨emptied, [], []⟩ with
  | mk result q =>
    rw [build_of_opened manifestLoads opened evaluated] at built
    subst built
    change result = .error error at failed
    rw [failed] at evaluated
    have fresh : Written files output emptied := ⟨[], FileTree.write_nil opened⟩
    obtain ⟨earlier, call, bytes, tree, called, written, refusal⟩ :=
      Builder.fails_writePackage ⟨output, sink⟩ writable opened few _ _ _ fresh evaluated
    obtain ⟨stop, runs, last, -, stopped⟩ :=
      writePackage_stop ⟨output, sink⟩ opened evaluated (refusal.ne_write output)
    -- Both tell which call was the last one.
    obtain ⟨rfl, one⟩ := List.append_inj' (called.symm.trans stopped.loads) rfl
    obtain rfl := List.singleton_inj.1 one
    exact ⟨stop, runs, last, q, emptied, sink, bytes, tree, opened, rfl, stopped, written, refusal⟩

end Package

end AssetPack

import AssetPack.Proofs.Invariants
import AssetPack.Proofs.Package.Builder

/-! The only file which a build changes is its output. -/

namespace AssetPack.Package
open Process

/-- A property of the files which stays when bytes are appended to the output. -/
def Lasting (P : FileTree → Prop) (sink : Sink) : Prop :=
  ∀ tree bytes next, P tree → tree.append bytes sink = .ok next → P next

namespace Lasting
variable {P : FileTree → Prop} {sink : Sink} {p q : Progress} {bytes : Bytes}

theorem flush (lasting : Lasting P sink) (h : P p.files) (flushed : p.flush sink = .ok q) :
    P q.files := by
  simp only [Progress.flush, Bind.bind, Except.bind] at flushed
  split at flushed
  · cases flushed
  · rename_i tree appended
    cases flushed
    exact lasting _ _ _ h appended

/-- The end of `push`. -/
theorem accept (lasting : Lasting P sink) (h : P p.files)
    (accepted : (if Progress.capacity ≤ bytes.length then do
        return { p with files := ← p.files.append bytes sink }
      else return { p with pending := p.pending ++ bytes }) = Except.ok (ε := IoError) q) :
    P q.files := by
  split at accepted
  · simp only [Bind.bind, Except.bind] at accepted
    split at accepted
    · cases accepted
    · rename_i tree appended
      cases accepted
      exact lasting _ _ _ h appended
  · cases accepted
    exact h

theorem push (lasting : Lasting P sink) (h : P p.files) (pushed : p.push sink bytes = .ok q) :
    P q.files := by
  simp only [Progress.push] at pushed
  split at pushed
  · cases pushed
    exact h
  · split at pushed
    · cases flushed : p.flush sink with
      | error reason =>
        rw [flushed] at pushed
        cases pushed
      | ok middle =>
        rw [flushed] at pushed
        exact lasting.accept (lasting.flush h flushed) pushed
    · exact lasting.accept h pushed

theorem close (lasting : Lasting P sink) (h : P p.files) : P (p.close sink) := by
  rw [Progress.close]
  split
  · rename_i tree appended
    exact lasting _ _ _ h appended
  · exact h

end Lasting

namespace Builder

section keeps
variable {α : Type} {P : FileTree → Prop} {target : Target}

abbrev KeepsFiles (P : FileTree → Prop) (x : Builder α) : Prop := Keeps (fun p => P p.files) x

theorem keeps_write (lasting : Lasting P target.sink) (bytes : Bytes) :
    KeepsFiles P (write target bytes) := by
  intro p h
  rw [write, eval_update]
  split
  · rename_i q pushed
    exact lasting.push h pushed
  · exact h

theorem keeps_flush (lasting : Lasting P target.sink) : KeepsFiles P (flush target) := by
  intro p h
  rw [flush, eval_update]
  split
  · rename_i q flushed
    exact lasting.flush h flushed
  · exact h

theorem keeps_load (kind : LoadKind) (loader : Loader α) (path : Path) :
    KeepsFiles P (load kind loader path) := by
  intro p h
  rw [eval_load]
  exact h

theorem keeps_loadTexture (loader : Loader Texture) (path : Path) :
    KeepsFiles P (loadTexture loader path) := by
  rw [loadTexture]
  refine .bind (keeps_load _ _ _) fun texture => ?_
  split
  · exact .bind (.bind (keeps_logged _) fun _ => keeps_throw _) fun _ => keeps_pure _
  · exact keeps_pure _

theorem keeps_writeRecords [Packed α] (lasting : Lasting P target.sink) (type : AssetType)
    {load : Path → Builder α} (loads : ∀ path, KeepsFiles P (load path)) (paths : List Path) :
    KeepsFiles P (writeRecords target type load paths) := by
  induction paths with
  | nil => exact keeps_pure _
  | cons path rest ih =>
    rw [writeRecords]
    refine .bind (loads path) fun asset => ?_
    refine .bind (keeps_logged _) fun _ => ?_
    exact .bind (keeps_write lasting _) fun _ => ih

theorem keeps_writeRun [Packed α] (lasting : Lasting P target.sink) (type : AssetType)
    {load : Path → Builder α} (loads : ∀ path, KeepsFiles P (load path)) (paths : List Path) :
    KeepsFiles P (writeRun target type load paths) := by
  rw [writeRun]
  have rest (count : UInt32) : KeepsFiles P (do
      write target (Packed.encode (⟨type, count⟩ : RunHeader))
      writeRecords target type load paths
      return count) :=
    .bind (keeps_write lasting _) fun _ =>
      .bind (keeps_writeRecords lasting type loads paths) fun _ => keeps_pure _
  split
  · exact .bind (.bind (keeps_logged _) fun _ => keeps_throw _) fun _ => rest _
  · exact rest _

theorem keeps_writeSection (lasting : Lasting P target.sink) (loaders : Loaders) (summary : Summary)
    (listed : Manifest.Section) : KeepsFiles P (writeSection loaders target summary listed) := by
  rw [writeSection]
  split
  · exact .bind (keeps_logged _) fun _ => keeps_pure _
  · dsimp only
    split
    · exact .bind (keeps_writeRun lasting _ (keeps_loadTexture _) _) fun _ => keeps_pure _
    · exact .bind (keeps_writeRun lasting _ (keeps_load _ _) _) fun _ => keeps_pure _
    · exact .bind (keeps_writeRun lasting _ (keeps_load _ _) _) fun _ => keeps_pure _
    · exact .bind (keeps_logged _) fun _ => keeps_pure _

theorem keeps_writePackage (target : Target) (lasting : Lasting P target.sink) (loaders : Loaders)
    (sections : List Manifest.Section) : KeepsFiles P (writePackage loaders target sections) := by
  rw [writePackage]
  refine .bind (keeps_write lasting _) fun _ => ?_
  refine .bind (.foldlM (keeps_writeSection lasting loaders) sections _) fun summary => ?_
  refine .bind (keeps_flush lasting) fun _ => ?_
  exact .bind (keeps_logged _) fun _ => keeps_pure _

end keeps

end Builder

/-- Some bytes were written to the output. -/
def Written (files : FileTree) (output : Path) (tree : FileTree) : Prop :=
  ∃ bytes, files.write output bytes = .ok tree

theorem lasting_written {files emptied : FileTree} {output : Path} {sink : Sink}
    (opened : files.create output = .ok (emptied, sink)) : Lasting (Written files output) sink := by
  intro tree more next before appended
  obtain ⟨bytes, written⟩ := before
  exact ⟨bytes ++ more, FileTree.write_append opened written appended⟩

/-- A build, whatever it comes to, leaves the files as they were, or as if some bytes had been
written to the output. -/
theorem files_build (loaders : Loaders) (manifest output : Path) (files : FileTree) :
    (build loaders manifest output files).value.files = files ∨ ∃ bytes,
      files.write output bytes = .ok (build loaders manifest output files).value.files := by
  rw [build, Logged.value_bind]
  cases (Manifest.load files manifest).run.value with
  | error reason => exact .inl rfl
  | ok listed =>
    cases opened : files.create output with
    | error reason => exact .inl rfl
    | ok file =>
      obtain ⟨emptied, sink⟩ := file
      have lasting := lasting_written opened
      have kept := Builder.keeps_writePackage ⟨output, sink⟩ lasting loaders listed.sections
      exact .inr (lasting.close (kept ⟨emptied, [], []⟩ ⟨[], FileTree.write_nil opened⟩))

end AssetPack.Package

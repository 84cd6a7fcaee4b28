import AssetPack.Command.Run
import AssetPack.Proofs.Invariants
import AssetPack.Proofs.Settings.Reading

/-! What the commands come to, and the files they leave, with any parts. -/

namespace AssetPack.Command
open Process

namespace Parts
variable (parts : Parts)

/-- What the build of an entry comes to. -/
def outcome (entry : BuildEntry) (files : FileTree) : Package.Outcome :=
  (Package.build parts.loaders entry.manifest entry.output files).value

theorem eval_runBuild (entry : BuildEntry) (files : FileTree) :
    eval (parts.runBuild entry) files =
      (match (parts.outcome entry files).result with
        | .ok _ => .ok ()
        | .error error => .error (.build entry error),
      (parts.outcome entry files).files) := by
  rw [runBuild, eval_bind, eval_get]
  dsimp only
  rw [eval_bind, eval_logged]
  dsimp only
  rw [eval_bind, eval_set]
  dsimp only [outcome]
  cases (Package.build parts.loaders entry.manifest entry.output files).value.result <;> rfl

/-- After a build which goes well, the settings are read from the files as they are then. -/
theorem eval_perform_build (settings : Path) (entry : BuildEntry) (files : FileTree) :
    eval (parts.perform settings (.build entry)) files =
      match eval (parts.runBuild entry) files with
      | (.ok _, made) =>
        match (parts.format.read made settings).run.value with
        | .ok known =>
          match parts.format.write made settings (known.record entry) with
          | .ok next => (.ok (), next)
          | .error error => (.error (.settings error), made)
        | .error error => (.error (.settings error), made)
      | (.error error, made) => (.error error, made) := by
  rw [perform, eval_bind]
  cases eval (parts.runBuild entry) files with
  | mk result made =>
    cases result with
    | error error => rfl
    | ok done =>
      dsimp only
      rw [eval_bind, eval_get]
      dsimp only
      rw [eval_bind, eval_logged]
      dsimp only
      rw [Attempt.value_adapt]
      cases (parts.format.read made settings).run.value with
      | error error => rfl
      | ok known =>
        dsimp only [Except.mapError, Except.bind]
        cases parts.format.write made settings (known.record entry) <;> rfl

variable {parts}

/-- A build which succeeds built its package, read the settings and wrote them again. -/
theorem perform_build_eq_ok {settings : Path} {entry : BuildEntry} {files next : FileTree}
    (h : eval (parts.perform settings (.build entry)) files = (.ok (), next)) :
    ∃ summary known, (parts.outcome entry files).result = .ok summary ∧
      (parts.format.read (parts.outcome entry files).files settings).run.value = .ok known ∧
        parts.format.write (parts.outcome entry files).files settings (known.record entry) =
          .ok next := by
  rw [eval_perform_build, eval_runBuild] at h
  cases result : (parts.outcome entry files).result with
  | error error =>
    rw [result] at h
    cases h
  | ok summary =>
    rw [result] at h
    dsimp only at h
    split at h
    · rename_i known read
      split at h
      · rename_i tree written
        cases h
        exact ⟨summary, known, rfl, read, written⟩
      · cases h
    · cases h

variable (parts)

theorem files_perform_inspect (settings package : Path) (files : FileTree) :
    (eval (parts.perform settings (.inspect package)) files).2 = files := by
  rw [perform, eval_bind, eval_get]
  dsimp only
  rw [eval_bind, eval_logged]
  dsimp only
  cases (inspect files package).run.value <;> rfl

theorem eval_perform_rebuild (settings : Path) (files : FileTree) :
    eval (parts.perform settings .rebuild) files =
      match (parts.format.read files settings).run.value with
      | .ok known => eval (parts.rebuild known) files
      | .error error => (.error (.settings error), files) := by
  rw [perform, eval_bind, eval_get]
  dsimp only
  rw [eval_bind, eval_logged]
  dsimp only
  rw [Attempt.value_adapt]
  cases (parts.format.read files settings).run.value <;> rfl

end Parts

/-- How a run ends which comes to the result. -/
def Ending.of : Except Error Unit → Ending
  | .ok _ => .success
  | .error error => .failure error

namespace Parts
variable {parts : Parts} {arguments : List String}

theorem files_run_refused {refusal : Refusal} (parsed : parts.options arguments = .error refusal)
    (files : FileTree) : (parts.run files arguments).files = files := by
  rw [run, parsed]

section run
variable {options : Options} (parsed : parts.options arguments = .ok options)
include parsed

theorem files_run (files : FileTree) : (parts.run files arguments).files =
    (eval (parts.perform options.settings options.task) files).2 := by
  rw [run, parsed]
  rfl

theorem ending_run (files : FileTree) : (parts.run files arguments).ending =
    .of (eval (parts.perform options.settings options.task) files).1 := by
  rw [run, parsed]
  rfl

end run

end Parts

end AssetPack.Command

import AssetPack.Proofs.Command.Running
import AssetPack.Proofs.Files.Sparing
import AssetPack.Proofs.Package.Output

/-! The settings file remembers the builds which succeeded, each of them once. -/

namespace AssetPack

/-- The entries without those which are the same as an earlier one. -/
def BuildEntry.distinct : List BuildEntry → List BuildEntry
  | [] => []
  | entry :: rest => entry :: (distinct rest).filter fun other => ¬ entry.Same other

namespace BuildEntry

theorem Same.trans {a b c : BuildEntry} (first : a.Same b) (second : b.Same c) : a.Same c :=
  ⟨Path.Same.trans first.1 second.1, Path.Same.trans first.2 second.2⟩

/-- Of the entries which are the same as one, the first is kept. -/
theorem exists_distinct {entries : List BuildEntry} {entry : BuildEntry} :
    (∃ other ∈ distinct entries, other.Same entry) ↔ ∃ other ∈ entries, other.Same entry := by
  induction entries with
  | nil => rfl
  | cons first rest ih =>
    simp only [distinct, List.mem_cons, exists_eq_or_imp, List.mem_filter, decide_eq_true_eq]
    by_cases head : first.Same entry
    · simp [head]
    · simp only [head, false_or]
      rw [← ih]
      constructor
      · rintro ⟨other, ⟨mem, -⟩, same⟩
        exact ⟨other, mem, same⟩
      · rintro ⟨other, mem, same⟩
        exact ⟨other, ⟨mem, fun first_same => head (first_same.trans same)⟩, same⟩

theorem distinct_concat (entries : List BuildEntry) (entry : BuildEntry) :
    distinct (entries ++ [entry]) =
      if ∃ other ∈ entries, other.Same entry then distinct entries
      else distinct entries ++ [entry] := by
  induction entries with
  | nil => simp [distinct]
  | cons first rest ih =>
    rw [List.cons_append, distinct, ih]
    by_cases known : ∃ other ∈ rest, other.Same entry
    · have here : ∃ other ∈ first :: rest, other.Same entry := by
        obtain ⟨other, mem, same⟩ := known
        exact ⟨other, List.mem_cons_of_mem _ mem, same⟩
      rw [if_pos known, if_pos here, distinct]
    · by_cases head : first.Same entry
      · have here : ∃ other ∈ first :: rest, other.Same entry := ⟨first, List.mem_cons_self, head⟩
        rw [if_neg known, if_pos here, distinct]
        simp [head]
      · have here : ¬ ∃ other ∈ first :: rest, other.Same entry := by
          simpa [head] using known
        rw [if_neg known, if_neg here, distinct]
        simp [head]

theorem record_distinct (entries : List BuildEntry) (entry : BuildEntry) :
    Settings.record entry ⟨distinct entries⟩ = ⟨distinct (entries ++ [entry])⟩ := by
  rw [Settings.record, distinct_concat]
  simp only [List.any_eq_true, decide_eq_true_eq, exists_distinct]
  split <;> rfl

end BuildEntry

namespace Command
open Process

/-- The file of a path is the same as before, or missing as before. -/
def SameFile (path : Path) (files next : FileTree) : Prop :=
  next.isPresent path = files.isPresent path ∧ next.contents? path = files.contents? path

instance (path : Path) (files next : FileTree) : Decidable (SameFile path files next) :=
  inferInstanceAs (Decidable (_ ∧ _))

theorem SameFile.refl (path : Path) (files : FileTree) : SameFile path files files := ⟨rfl, rfl⟩

theorem SameFile.trans {path : Path} {files middle next : FileTree}
    (first : SameFile path files middle) (second : SameFile path middle next) :
    SameFile path files next :=
  ⟨second.1.trans first.1, second.2.trans first.2⟩

section apart
variable {parts : Parts} {files : FileTree} {settings : Path} {entry : BuildEntry}

/-- A build with its output in another place does not touch the settings file. -/
theorem spares_outcome (apart : files.place entry.output ≠ files.place settings) :
    (parts.outcome entry files).files.current = files.current ∧
      SameFile settings files (parts.outcome entry files).files ∧
        (files.Writable settings → (parts.outcome entry files).files.Writable settings) := by
  rcases Package.files_build parts.loaders entry.manifest entry.output files with
    same | ⟨bytes, written⟩
  · rw [Parts.outcome, same]
    exact ⟨rfl, .refl settings files, id⟩
  · rcases FileTree.spares_of_write written with same | spares
    · rw [Parts.outcome, same]
      exact ⟨rfl, .refl settings files, id⟩
    · have apart := Ne.symm apart
      exact ⟨spares.current.symm, ⟨(spares.isPresent_eq apart).symm,
        (spares.contents?_eq apart).symm⟩, fun writable => writable.spared spares apart⟩

/-- The files are at the same places as before, and the settings file is the same. -/
def Untouched (settings : Path) (files next : FileTree) : Prop :=
  next.current = files.current ∧ SameFile settings files next

theorem keeps_runBuild (apart : files.place entry.output ≠ files.place settings) :
    Keeps (Untouched settings files) (parts.runBuild entry) := by
  rintro tree ⟨current, same⟩
  rw [← FileTree.place_congr current, ← FileTree.place_congr current] at apart
  obtain ⟨current', same', -⟩ := spares_outcome apart
  rw [Parts.eval_runBuild]
  exact ⟨current'.trans current, same.trans same'⟩

theorem keeps_rebuild {known : Settings}
    (apart : ∀ entry ∈ known.builds, files.place entry.output ≠ files.place settings) :
    Keeps (Untouched settings files) (parts.rebuild known) := by
  have builds : Keeps (Untouched settings files) (known.builds.forM fun entry => do
      report .info .tool s!"Rebuilding {entry.output.text}."
      parts.runBuild entry) :=
    .forM fun entry mem => .bind (keeps_logged _) fun _ => keeps_runBuild (apart entry mem)
  rw [Parts.rebuild]
  split
  · exact .bind (keeps_logged _) fun _ => builds
  · exact builds

end apart

/-- What happens to the files: a run of the program, or a change by others. -/
inductive Event where
  | run (arguments : List String)
  | change (next : FileTree)

/-- The outputs which a task may write. -/
def Parts.outputs (parts : Parts) (files : FileTree) (settings : Path) : Task → List Path
  | .build entry => [entry.output]
  | .inspect _ => []
  | .rebuild =>
    match (parts.format.read files settings).run.value with
    | .ok known => known.builds.map (·.output)
    | .error _ => []

namespace Event
variable (parts : Parts)

def after (files : FileTree) : Event → FileTree
  | run arguments => (parts.run files arguments).files
  | change next => next

/-- The entry of a build run whose package was built. -/
def built (files : FileTree) : Event → List BuildEntry
  | run arguments =>
    match parts.options arguments with
    | .ok ⟨_, _, .build entry⟩ => if (parts.outcome entry files).result.isOk then [entry] else []
    | _ => []
  | change _ => []

/-- A run with the settings, whose file can be written and is none of its outputs, or a change of
other files. -/
def Shares (settings : Path) (files : FileTree) : Event → Prop
  | run arguments =>
    match parts.options arguments with
    | .ok options => options.settings = settings ∧ files.Writable settings ∧
      ∀ output ∈ parts.outputs files settings options.task,
        files.place output ≠ files.place settings
    | .error _ => True
  | change next => SameFile settings files next

instance (settings : Path) (files : FileTree) :
    (event : Event) → Decidable (event.Shares parts settings files)
  | run arguments =>
    match parsed : parts.options arguments with
    | .ok options =>
      decidable_of_iff (options.settings = settings ∧ files.Writable settings ∧
        ∀ output ∈ parts.outputs files settings options.task,
          files.place output ≠ files.place settings) (by rw [Shares, parsed])
    | .error _ => isTrue (by rw [Shares, parsed]; trivial)
  | change next => inferInstanceAs (Decidable (SameFile settings files next))

end Event

section events
variable (parts : Parts)

/-- The files after some events. -/
def after (files : FileTree) (events : List Event) : FileTree :=
  events.foldl (Event.after parts) files

/-- The entries of the builds which succeeded, in the order of the runs. -/
def builtIn : FileTree → List Event → List BuildEntry
  | _, [] => []
  | files, event :: rest => event.built parts files ++ builtIn (event.after parts files) rest

/-- Every event shares the settings, as the files are then. -/
def Sharing (settings : Path) : FileTree → List Event → Prop
  | _, [] => True
  | files, event :: rest =>
    event.Shares parts settings files ∧ Sharing settings (event.after parts files) rest

instance decidableSharing (settings : Path) :
    (files : FileTree) → (events : List Event) → Decidable (Sharing parts settings files events)
  | _, [] => inferInstanceAs (Decidable True)
  | files, event :: rest =>
    have := decidableSharing settings (event.after parts files) rest
    inferInstanceAs (Decidable (_ ∧ _))

/-- The settings file holds the entries, or it is missing and there are none. -/
def Remembers (settings : Path) (entries : List BuildEntry) (files : FileTree) : Prop :=
  files.isPresent settings = false ∧ entries = [] ∨
    files.contents? settings = some (Bytes.ofText (parts.format.render ⟨entries⟩))

/-- A run which ends otherwise than with success. -/
def Event.Fails (files : FileTree) : Event → Prop
  | run arguments => (parts.run files arguments).ending ≠ .success
  | change _ => False

/-- A run which builds the package of an entry. -/
structure Event.Builds (event : Event) (settings : Path) (files : FileTree) (entry : BuildEntry) :
    Prop where
  task : ∃ arguments verbosity, event = .run arguments ∧
    parts.options arguments = .ok ⟨verbosity, settings, .build entry⟩
  succeeds : ∃ summary, (parts.outcome entry files).result = .ok summary
  writable : files.Writable settings
  apart : files.place entry.output ≠ files.place settings

end events

section steps
variable {parts : Parts} {files next : FileTree} {settings : Path} {entries : List BuildEntry}
  {event : Event}

theorem Remembers.read (inverse : parts.format.Inverse)
    (remembers : Remembers parts settings entries files) :
    (parts.format.read files settings).run.value = .ok ⟨entries⟩ := by
  rcases remembers with ⟨absent, rfl⟩ | holds
  · exact Settings.value_read_absent absent
  · exact Settings.value_read_rendered inverse holds

theorem Remembers.same (remembers : Remembers parts settings entries files)
    (same : SameFile settings files next) : Remembers parts settings entries next := by
  rw [Remembers, same.1, same.2]
  exact remembers

namespace Event.Builds
variable {entry : BuildEntry}

theorem built_eq (builds : event.Builds parts settings files entry) :
    event.built parts files = [entry] := by
  obtain ⟨arguments, verbosity, rfl, parsed⟩ := builds.task
  obtain ⟨summary, result⟩ := builds.succeeds
  simp only [Event.built, parsed, result, Except.isOk, Except.toBool, if_true]

/-- What follows the build of the package. -/
theorem eval_eq (builds : event.Builds parts settings files entry) :
    eval (parts.perform settings (.build entry)) files =
      match (parts.format.read (parts.outcome entry files).files settings).run.value with
      | .ok known =>
        match parts.format.write (parts.outcome entry files).files settings
          (known.record entry) with
        | .ok next => (.ok (), next)
        | .error error => (.error (.settings error), (parts.outcome entry files).files)
      | .error error => (.error (.settings error), (parts.outcome entry files).files) := by
  obtain ⟨summary, result⟩ := builds.succeeds
  rewrite [Parts.eval_perform_build, Parts.eval_runBuild, result]
  rfl

theorem after_eq (builds : event.Builds parts settings files entry) :
    event.after parts files = (eval (parts.perform settings (.build entry)) files).2 := by
  obtain ⟨arguments, verbosity, rfl, parsed⟩ := builds.task
  exact Parts.files_run parsed files

/-- The package was built apart from the settings, which can still be written. -/
theorem write (builds : event.Builds parts settings files entry) (known : Settings) :
    ∃ next, parts.format.write (parts.outcome entry files).files settings known = .ok next ∧
      next.contents? settings = some (Bytes.ofText (parts.format.render known)) := by
  obtain ⟨-, -, writable⟩ := spares_outcome builds.apart
  have writable := writable builds.writable
  obtain ⟨next, written⟩ := writable (Bytes.ofText (parts.format.render known))
  exact ⟨next, Settings.write_eq_ok.2 written, writable.contents?_write written⟩

/-- The run only fails if the settings can not be read, and leaves them as they are. -/
theorem same_of_fails (builds : event.Builds parts settings files entry)
    (fails : event.Fails parts files) : SameFile settings files (event.after parts files) := by
  obtain ⟨-, same, -⟩ := spares_outcome builds.apart
  rw [builds.after_eq, builds.eval_eq]
  cases read : (parts.format.read (parts.outcome entry files).files settings).run.value with
  | error error => exact same
  | ok known =>
    obtain ⟨next, written, -⟩ := builds.write (known.record entry)
    have ends := builds.eval_eq
    simp only [read, written] at ends
    obtain ⟨arguments, verbosity, rfl, parsed⟩ := builds.task
    rw [Event.Fails, Parts.ending_run parsed, ends] at fails
    exact absurd rfl fails

/-- A build which succeeds is recorded. -/
theorem remembers (inverse : parts.format.Inverse)
    (builds : event.Builds parts settings files entry)
    (before : Remembers parts settings entries files) :
    Remembers parts settings (Settings.record entry ⟨entries⟩).builds
      (event.after parts files) := by
  obtain ⟨-, same, -⟩ := spares_outcome builds.apart
  obtain ⟨next, written, holds⟩ := builds.write (Settings.record entry ⟨entries⟩)
  rw [builds.after_eq, builds.eval_eq, (before.same same).read inverse]
  simp only [written]
  exact .inr holds

end Event.Builds

theorem sameFile_rebuild (apart : ∀ output ∈ parts.outputs files settings .rebuild,
    files.place output ≠ files.place settings) :
    SameFile settings files (eval (parts.perform settings .rebuild) files).2 := by
  rw [Parts.eval_perform_rebuild]
  cases read : (parts.format.read files settings).run.value with
  | error error => exact .refl settings files
  | ok known =>
    have outputs : ∀ entry ∈ known.builds, files.place entry.output ≠ files.place settings := by
      intro entry mem
      apply apart
      simp only [Parts.outputs, read]
      exact List.mem_map_of_mem mem
    exact (keeps_rebuild outputs files ⟨rfl, .refl settings files⟩).2

/-- Other events do not touch the settings file. -/
theorem Event.Shares.cases (shares : event.Shares parts settings files) :
    event.built parts files = [] ∧ SameFile settings files (event.after parts files) ∨
      ∃ entry, event.Builds parts settings files entry := by
  cases event with
  | change next => exact .inl ⟨rfl, shares⟩
  | run arguments =>
    cases parsed : parts.options arguments with
    | error refusal =>
      refine .inl ⟨by rw [Event.built, parsed], ?_⟩
      rw [Event.after, Parts.files_run_refused parsed]
      exact .refl settings files
    | ok options =>
      rw [Event.Shares, parsed] at shares
      obtain ⟨rfl, writable, apart⟩ := shares
      obtain ⟨verbosity, settings, task⟩ := options
      cases task with
      | build entry =>
        have apart := apart entry.output List.mem_cons_self
        cases result : (parts.outcome entry files).result with
        | ok summary =>
          exact .inr ⟨entry, ⟨arguments, verbosity, rfl, parsed⟩, ⟨summary, result⟩, writable,
            apart⟩
        | error error =>
          refine .inl ⟨by simp [Event.built, parsed, result, Except.isOk, Except.toBool], ?_⟩
          rw [Event.after, Parts.files_run parsed, Parts.eval_perform_build, Parts.eval_runBuild,
            result]
          exact (spares_outcome apart).2.1
      | inspect package =>
        refine .inl ⟨by rw [Event.built, parsed], ?_⟩
        rw [Event.after, Parts.files_run parsed, Parts.files_perform_inspect]
        exact .refl settings files
      | rebuild =>
        refine .inl ⟨by rw [Event.built, parsed], ?_⟩
        rw [Event.after, Parts.files_run parsed]
        exact sameFile_rebuild apart

/-- One event: what is remembered afterwards. -/
theorem Remembers.step (inverse : parts.format.Inverse)
    (remembers : Remembers parts settings (BuildEntry.distinct entries) files)
    (shares : event.Shares parts settings files) :
    Remembers parts settings (BuildEntry.distinct (entries ++ event.built parts files))
      (event.after parts files) := by
  rcases shares.cases with ⟨none, same⟩ | ⟨entry, builds⟩
  · rw [none, List.append_nil]
    exact remembers.same same
  · have recorded := builds.remembers inverse remembers
    rw [BuildEntry.record_distinct] at recorded
    rw [builds.built_eq]
    exact recorded

theorem Remembers.run (inverse : parts.format.Inverse) {events : List Event}
    (remembers : Remembers parts settings (BuildEntry.distinct entries) files)
    (sharing : Sharing parts settings files events) :
    Remembers parts settings (BuildEntry.distinct (entries ++ builtIn parts files events))
      (after parts files events) := by
  induction events generalizing files entries with
  | nil =>
    rw [builtIn, List.append_nil]
    exact remembers
  | cons event events ih =>
    rw [builtIn, ← List.append_assoc]
    exact ih (remembers.step inverse sharing.1) sharing.2

theorem Event.Shares.same (shares : event.Shares parts settings files)
    (idle : event.built parts files = [] ∨ event.Fails parts files) :
    SameFile settings files (event.after parts files) := by
  rcases shares.cases with ⟨-, same⟩ | ⟨entry, builds⟩
  · exact same
  · rcases idle with none | fails
    · rw [builds.built_eq] at none
      cases none
    · exact builds.same_of_fails fails

/-- A build which can not read the settings ends with an error, and with the files as the build of
the package left them. -/
theorem perform_build_unread {entry : BuildEntry} {error : Settings.Error}
    (unread : (parts.format.read (parts.outcome entry files).files settings).run.value =
      .error error) :
    (∃ failure, (eval (parts.perform settings (.build entry)) files).1 = .error failure) ∧
      (eval (parts.perform settings (.build entry)) files).2 =
        (parts.outcome entry files).files := by
  rw [Parts.eval_perform_build, Parts.eval_runBuild]
  cases (parts.outcome entry files).result with
  | error failure => exact ⟨⟨_, rfl⟩, rfl⟩
  | ok summary =>
    dsimp only
    rw [unread]
    exact ⟨⟨_, rfl⟩, rfl⟩

end steps

/-- Runs and changes of other files which start without a settings file leave it with the builds
which succeeded, in the order of their first success, each of them once and as it was spelled first;
other runs do not touch it. No build succeeds with a file which holds no settings, or changes it.
It does not matter how source files are decoded and arguments are understood. -/
theorem settings_remember {parts : Parts} (inverse : parts.format.Inverse) (files : FileTree)
    (settings : Path) :
    (∀ events, files.isPresent settings = false → Sharing parts settings files events →
      (parts.format.read (after parts files events) settings).run.value =
        .ok ⟨BuildEntry.distinct (builtIn parts files events)⟩) ∧
    (∀ event : Event, event.Shares parts settings files →
      event.built parts files = [] ∨ event.Fails parts files →
        SameFile settings files (event.after parts files)) ∧
    ∀ arguments verbosity entry bytes,
      parts.options arguments = .ok ⟨verbosity, settings, .build entry⟩ →
      files.place entry.output ≠ files.place settings →
      files.contents? settings = some bytes → parts.format.Malformed bytes →
        (∃ error, (parts.run files arguments).ending = .failure error) ∧
          (parts.run files arguments).files.contents? settings = some bytes := by
  refine ⟨?_, fun event shares idle => shares.same idle, ?_⟩
  · intro events absent sharing
    have start : Remembers parts settings (BuildEntry.distinct []) files := .inl ⟨absent, rfl⟩
    exact (start.run inverse sharing).read inverse
  · intro arguments verbosity entry bytes parsed apart holds malformed
    obtain ⟨-, same, -⟩ := spares_outcome apart
    have holds' := same.2.trans holds
    obtain ⟨error, unread⟩ := Settings.value_read_malformed holds' malformed
    obtain ⟨⟨failure, ends⟩, left⟩ := perform_build_unread unread
    rw [Parts.ending_run parsed, Parts.files_run parsed]
    dsimp only
    rw [ends, left]
    exact ⟨⟨failure, rfl⟩, holds'⟩

def workshop : FileTree :=
  ⟨.leaf "a.frlist" (.file []) (.leaf "b.frlist" (.file (Bytes.ofText "::shader lost.glsl"))
    (.leaf "notes" (.file (Bytes.ofText "none")) (.folder "out" .empty .empty))), []⟩

def firstRuns : List Event :=
  [.run ["rebuild"],
    .run ["build", "-m", "b.frlist", "-o", "b.pack"],
    .run ["build", "-m", "a.frlist", "-o", "out/a.pack"],
    .run ["inspect", "-p", "out/a.pack"]]

/-- The manifest which can not be built is emptied, and the other one is built again. -/
def allRuns : List Event :=
  firstRuns ++ [.change ((after .standard workshop firstRuns).addFile ⟨"b.frlist"⟩ []),
    .run ["build", "-m", "a.frlist", "-o", "out/./a.pack"]]

theorem settings_remember_workshop : Settings.json.Inverse ∧
    (Settings.read (after .standard workshop allRuns) defaultSettings).run.value =
        .ok ⟨[⟨⟨"a.frlist"⟩, ⟨"out/a.pack"⟩⟩]⟩ ∧
      SameFile defaultSettings workshop
        ((Event.run ["build", "-m", "b.frlist", "-o", "b.pack"]).after .standard workshop) ∧
      ∃ error, .failure error =
        (run workshop ["--settings=notes", "build", "-m", "a.frlist", "-o", "b.pack"]).ending := by
  have inverse : Parts.standard.format.Inverse := Settings.inverse_json
  have absent : workshop.isPresent defaultSettings = false := by decide +kernel
  have sharing : Sharing .standard defaultSettings workshop allRuns := by decide +kernel
  have built : BuildEntry.distinct (builtIn .standard workshop allRuns) =
      [⟨⟨"a.frlist"⟩, ⟨"out/a.pack"⟩⟩] := by decide +kernel
  have shares : (Event.run ["build", "-m", "b.frlist", "-o", "b.pack"]).Shares .standard
      defaultSettings workshop := by decide +kernel
  have failed : (Event.run ["build", "-m", "b.frlist", "-o", "b.pack"]).built .standard workshop =
      [] := by decide +kernel
  have malformed : Settings.json.Malformed (Bytes.ofText "none") := by
    intro text same
    rw [Bytes.text?_ofText] at same
    cases same
    decide +kernel
  obtain ⟨remembered, same, -⟩ := settings_remember inverse workshop defaultSettings
  obtain ⟨-, -, unread⟩ := settings_remember inverse workshop ⟨"notes"⟩
  obtain ⟨⟨error, ends⟩, -⟩ :=
    unread ["--settings=notes", "build", "-m", "a.frlist", "-o", "b.pack"] 3
      ⟨⟨"a.frlist"⟩, ⟨"b.pack"⟩⟩ _ rfl (by decide +kernel) (by decide +kernel) malformed
  exact ⟨inverse, built ▸ remembered allRuns absent sharing, same _ shares (.inl failed),
    error, ends.symm⟩

end Command

end AssetPack

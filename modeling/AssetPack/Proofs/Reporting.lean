import AssetPack.Package.Build
import AssetPack.Proofs.Package.Canonical

/-! Failures are reported where they happen: a manifest which is not read and a package which is
not built or not read leave an error among the messages. -/

namespace AssetPack

def HasError (log : List Message) : Prop := ∃ message ∈ log, message.level = .error

instance (log : List Message) : Decidable (HasError log) :=
  inferInstanceAs (Decidable (∃ message ∈ log, message.level = .error))

theorem hasError_append {log more : List Message} :
    HasError (log ++ more) ↔ HasError log ∨ HasError more := by
  simp only [HasError, List.mem_append, or_and_right, exists_or]

theorem not_hasError_nil : ¬ HasError [] := by
  rintro ⟨message, mem, -⟩
  cases mem

theorem hasError_singleton (origin : Origin) (text : String) : HasError [⟨.error, origin, text⟩] :=
  ⟨_, List.mem_singleton_self _, rfl⟩

namespace Attempt
variable {ε ε' α β : Type}

/-- A failure leaves an error among the messages. -/
def Reports (x : Attempt ε α) : Prop := ∀ e, x.run.value = .error e → HasError x.run.log

theorem reports_fail (origin : Origin) (text : String) (error : ε) :
    Reports (fail origin text error : Attempt ε α) := fun _ _ => hasError_singleton origin text

/-- Nothing follows a failure. -/
theorem reports_fail_bind (origin : Origin) (text : String) (error : ε) (f : α → Attempt ε β) :
    Reports (fail origin text error >>= f) := by
  intro e failed
  rw [log_bind, hasError_append]
  exact .inl (hasError_singleton origin text)

theorem reports_pure (a : α) : Reports (pure a : Attempt ε α) := fun _ failed => by cases failed

theorem reports_lift (x : Logged α) : Reports (liftM x : Attempt ε α) := by
  intro e failed
  rw [run_lift] at failed
  cases failed

theorem Reports.bind {x : Attempt ε α} {f : α → Attempt ε β} (first : Reports x)
    (rest : ∀ a, Reports (f a)) : Reports (x >>= f) := by
  intro e failed
  rw [value_bind] at failed
  rw [log_bind, hasError_append]
  cases result : x.run.value with
  | error e' => exact .inl (first e' result)
  | ok a =>
    rw [result] at failed
    exact .inr (rest a e failed)

theorem Reports.adapt {x : Attempt ε α} (reports : Reports x) (f : ε → ε') :
    Reports (x.adapt f) := by
  have log : (x.adapt f).run.log = x.run.log := List.append_nil _
  have value : (x.adapt f).run.value = x.run.value.mapError f := rfl
  intro e failed
  rw [value] at failed
  rw [log]
  cases result : x.run.value with
  | error e' => exact reports e' result
  | ok a =>
    rw [result] at failed
    cases failed

end Attempt

namespace Process
variable {ε σ α β : Type}

def messages (x : Process ε σ α) (s : σ) : List Message := (x.run.run s).log

theorem messages_bind (x : Process ε σ α) (f : α → Process ε σ β) (s : σ) :
    messages (x >>= f) s = messages x s ++ match eval x s with
      | (.ok a, t) => messages (f a) t
      | (.error _, _) => [] := by
  change (messages x s ++ (ExceptT.bindCont (fun a => f a) (eval x s).1 (eval x s).2).log) = _
  cases eval x s with
  | mk result t => cases result <;> rfl

theorem messages_logged (x : Logged α) (s : σ) :
    messages (liftM x : Process ε σ α) s = x.log := by
  change (x.log ++ []) ++ [] = _
  rw [List.append_nil, List.append_nil]

/-- A failure leaves an error among the messages. -/
def Reports (x : Process ε σ α) : Prop := ∀ s e, (eval x s).1 = .error e → HasError (messages x s)

theorem reports_pure (a : α) : Reports (pure a : Process ε σ α) :=
  fun _ _ failed => by cases failed

theorem reports_logged (x : Logged α) : Reports (liftM x : Process ε σ α) :=
  fun _ _ failed => by cases failed

theorem reports_stateful (x : StateT σ Logged α) : Reports (liftM x : Process ε σ α) :=
  fun _ _ failed => by cases failed

theorem Reports.bind {x : Process ε σ α} {f : α → Process ε σ β} (first : Reports x)
    (rest : ∀ a, Reports (f a)) : Reports (x >>= f) := by
  intro s e failed
  rw [eval_bind] at failed
  rw [messages_bind, hasError_append]
  cases result : eval x s with
  | mk result' t =>
    cases result' with
    | error e' => exact .inl (first s e' (congrArg Prod.fst result))
    | ok a =>
      rw [result] at failed
      exact .inr (rest a t e failed)

theorem Reports.foldlM {f : β → α → Process ε σ β} (each : ∀ b a, Reports (f b a)) (items : List α)
    (b : β) : Reports (items.foldlM f b) := by
  induction items generalizing b with
  | nil => exact reports_pure b
  | cons item items ih =>
    rw [List.foldlM_cons]
    exact (each b item).bind ih

end Process

namespace Manifest
open Attempt

theorem reports_tokenize (source : String) : Reports (tokenize source) := by
  rw [tokenize]
  refine .bind ?_ fun _ => ?_
  · intro e failed
    rw [run_forM] at failed
    cases failed
  · split
    · exact reports_pure _
    · exact reports_fail _ _ _

theorem hasError_reportLoose (entry : Entry) : HasError (reportLoose entry).log := by
  cases entry <;> exact hasError_singleton _ _

theorem value_resolvePath (files : FileTree) (line : UInt32) (path : Path) :
    (resolvePath files line path).value = match (expand files path).run.value with
      | .ok found => (found, 0)
      | .error _ => ([], 1) := by
  rw [resolvePath]
  by_cases folder : files.isFolder path = true
  · rw [if_pos folder]
    obtain ⟨log, result⟩ := (expand files path).run
    cases result <;> rfl
  · rw [if_neg folder]
    obtain ⟨log, result⟩ := (expand files path).run
    cases result <;> rfl

/-- A path which is not listed is reported. -/
theorem hasError_resolvePath {files : FileTree} {line : UInt32} {path : Path} {reason : IoError}
    (failed : (expand files path).run.value = .error reason) :
    HasError (resolvePath files line path).log := by
  have told (before : List Message) (text : String) :
      HasError (before ++ ([⟨.error, .sections, text⟩] ++ [])) :=
    hasError_append.2 (.inr (hasError_singleton _ _))
  rw [resolvePath]
  generalize (expand files path).run = found at failed
  obtain ⟨log, result⟩ := found
  cases failed
  by_cases folder : files.isFolder path = true
  · rw [if_pos folder]
    exact told log _
  · rw [if_neg folder]
    exact hasError_append.2 (.inr (told log _))

theorem hasError_resolve {files : FileTree} {folder : Path} {entries : List Entry}
    (wrong : 0 < (resolve files folder entries).value.errors) :
    HasError (resolve files folder entries).log := by
  induction entries generalizing folder with
  | nil => cases wrong
  | cons entry rest ih =>
    cases entry with
    | folder line fragment => exact ih wrong
    | path line text =>
      change HasError (_ ++ (_ ++ []))
      rw [List.append_nil, hasError_append]
      rcases Nat.add_pos_iff_pos_or_pos.1 wrong with wrong | wrong
      · change 0 < (resolvePath files line (folder.join ⟨text⟩)).value.2 at wrong
        rw [value_resolvePath] at wrong
        split at wrong
        · cases wrong
        · rename_i reason failed
          exact .inl (hasError_resolvePath failed)
      · exact .inr (ih wrong)

/-- Every error which is counted is reported. -/
theorem hasError_readBlocks {files : FileTree} {parent : Path} {blocks : List Block}
    (wrong : 0 < (readBlocks files parent blocks).value.2) :
    HasError (readBlocks files parent blocks).log := by
  induction blocks with
  | nil => cases wrong
  | cons block rest ih =>
    rw [readBlocks] at wrong ⊢
    cases known : typeOfKeyword? block.keyword with
    | some type =>
      rw [known] at wrong
      refine hasError_append.2 (.inr (hasError_append.2 ?_))
      rcases Nat.add_pos_iff_pos_or_pos.1 wrong with wrong | wrong
      · exact .inl (hasError_resolve wrong)
      · exact .inr (hasError_append.2 (.inl (ih wrong)))
    | none => exact hasError_append.2 (.inl (hasError_singleton _ _))

theorem reports_parse (files : FileTree) (parent : Path) (tokens : List Token) :
    Reports (parse files parent tokens) := by
  intro e failed
  rw [parse] at failed ⊢
  rw [value_bind, run_forM] at failed
  rw [log_bind, run_forM]
  dsimp only at failed ⊢
  rw [value_bind, run_lift] at failed
  rw [log_bind, run_lift]
  dsimp only at failed ⊢
  rw [hasError_append, hasError_append]
  cases outcome : (outline tokens).failure with
  | some error => exact .inr (.inr (hasError_singleton _ _))
  | none =>
    rw [outcome] at failed
    dsimp only at failed
    split at failed
    · rename_i wrong
      rcases Nat.add_pos_iff_pos_or_pos.1 wrong with wrong | wrong
      · obtain ⟨entry, mem⟩ := List.exists_mem_of_length_pos wrong
        obtain ⟨message, left, high⟩ := hasError_reportLoose entry
        exact .inl ⟨message, List.mem_flatMap.2 ⟨entry, mem, left⟩, high⟩
      · exact .inr (.inl (hasError_readBlocks wrong))
    · cases failed

theorem reports_load (files : FileTree) (path : Path) : Reports (load files path) := by
  rw [load]
  split
  · exact reports_fail_bind _ _ _ _
  · cases files.readText path with
    | error reason => exact reports_fail _ _ _
    | ok source =>
      refine .bind ((reports_tokenize _).adapt _) fun tokens => ?_
      refine .bind ((reports_parse files _ tokens).adapt _) fun manifest => ?_
      exact .bind (reports_lift _) fun _ => reports_pure _

end Manifest

namespace Package
open Process

namespace Builder
variable {α : Type}

theorem reports_refuse (error : BuildError) : Reports (refuse error : Builder α) :=
  fun _ _ _ => hasError_singleton _ _

theorem reports_failWrite (target : Target) (fault : WriteFault) :
    Reports (failWrite target fault : Builder α) := fun _ _ _ => hasError_singleton _ _

theorem reports_update (target : Target) (change : Progress → Except IoError Progress) :
    Reports (update target change) := by
  rw [update]
  refine .bind (reports_stateful _) fun progress => ?_
  cases change progress with
  | ok next => exact reports_stateful _
  | error reason => exact reports_failWrite target _

theorem reports_load (kind : LoadKind) (loader : Loader α) (path : Path) :
    Reports (load kind loader path) := by
  rw [load]
  refine .bind (reports_stateful _) fun progress => ?_
  refine .bind (reports_stateful _) fun _ => ?_
  refine .bind (reports_logged _) fun answer => ?_
  cases answer with
  | ok asset => exact reports_pure _
  | error reason => exact reports_refuse _

theorem reports_loadTexture (loader : Loader Texture) (path : Path) :
    Reports (loadTexture loader path) := by
  rw [loadTexture]
  refine .bind (reports_load _ _ _) fun texture => ?_
  split
  · exact .bind (reports_refuse _) fun _ => reports_pure _
  · exact reports_pure _

section writing
variable [Packed α] (target : Target) (type : AssetType) {load : Path → Builder α}
  (loads : ∀ path, Reports (load path))
include loads

theorem reports_writeRecords (paths : List Path) :
    Reports (writeRecords target type load paths) := by
  induction paths with
  | nil => exact reports_pure _
  | cons path rest ih =>
    rw [writeRecords]
    refine .bind (loads path) fun asset => ?_
    refine .bind (reports_logged _) fun _ => ?_
    exact .bind (reports_update _ _) fun _ => ih

theorem reports_writeRun (paths : List Path) : Reports (writeRun target type load paths) := by
  rw [writeRun]
  have rest (count : UInt32) : Reports (do
      write target (Packed.encode (⟨type, count⟩ : RunHeader))
      writeRecords target type load paths
      return count) :=
    .bind (reports_update _ _) fun _ =>
      .bind (reports_writeRecords target type loads paths) fun _ => reports_pure _
  split
  · exact .bind (reports_failWrite _ _) fun _ => rest _
  · exact rest _

end writing

theorem reports_writeSection (loaders : Loaders) (target : Target) (summary : Summary)
    (listed : Manifest.Section) : Reports (writeSection loaders target summary listed) := by
  rw [writeSection]
  split
  · exact .bind (reports_logged _) fun _ => reports_pure _
  · dsimp only
    split
    · exact .bind (reports_writeRun _ _ (reports_loadTexture _) _) fun _ => reports_pure _
    · exact .bind (reports_writeRun _ _ (reports_load _ _) _) fun _ => reports_pure _
    · exact .bind (reports_writeRun _ _ (reports_load _ _) _) fun _ => reports_pure _
    · exact .bind (reports_logged _) fun _ => reports_pure _

theorem reports_writePackage (loaders : Loaders) (target : Target)
    (sections : List Manifest.Section) : Reports (writePackage loaders target sections) := by
  rw [writePackage]
  refine .bind (reports_update _ _) fun _ => ?_
  refine .bind (.foldlM (reports_writeSection loaders target) sections _) fun summary => ?_
  refine .bind (reports_update _ _) fun _ => ?_
  exact .bind (reports_logged _) fun _ => reports_pure _

end Builder

theorem hasError_build {loaders : Loaders} {manifest output : Path} {files : FileTree}
    {error : BuildError}
    (failed : (build loaders manifest output files).value.result = .error error) :
    HasError (build loaders manifest output files).log := by
  have loading := Manifest.reports_load files manifest
  rw [build] at failed ⊢
  rw [Logged.value_bind] at failed
  rw [Logged.log_bind, hasError_append]
  cases loaded : (Manifest.load files manifest).run.value with
  | error reason => exact .inl (loading reason loaded)
  | ok listed =>
    rw [loaded] at failed
    dsimp only at failed ⊢
    cases created : files.create output with
    | error reason => exact .inr (hasError_singleton _ _)
    | ok opened =>
      rw [created] at failed
      obtain ⟨emptied, sink⟩ := opened
      refine .inr (hasError_append.2 (.inl ?_))
      exact Builder.reports_writePackage loaders ⟨output, sink⟩ listed.sections _ error failed

/-- The parts which were read leave no error, and nothing in the name of others. -/
theorem message_of_parts {parts : List Part} {message : Message}
    (mem : message ∈ parts.flatMap fun part => part.report.log) :
    message.level ≠ .error ∧ message.origin = .package := by
  obtain ⟨part, -, left⟩ := List.mem_flatMap.1 mem
  cases part with
  | header header =>
    cases List.mem_singleton.1 left
    exact ⟨Level.noConfusion, rfl⟩
  | item item =>
    cases item <;>
    · cases List.mem_singleton.1 left
      exact ⟨Level.noConfusion, rfl⟩

/-- Reading a package leaves an error if and only if it fails. -/
theorem hasError_read_iff (bytes : Bytes) :
    HasError (read bytes).run.log ↔ ∃ error, (read bytes).run.value = .error error := by
  cases bytes with
  | nil => exact ⟨fun _ => ⟨_, rfl⟩, fun _ => hasError_singleton _ _⟩
  | cons version runs =>
    by_cases known : version = formatVersion
    · subst known
      rw [value_read, read]
      simp only [ne_eq, not_true_eq_false, if_false]
      rw [Attempt.log_bind, Attempt.run_forM, hasError_append]
      cases (scan .invalid 0 runs).failure with
      | none =>
        constructor
        · rintro (⟨message, mem, high⟩ | mem)
          · exact absurd high (message_of_parts mem).1
          · exact absurd mem not_hasError_nil
        · rintro ⟨error, failed⟩
          cases failed
      | some failure => exact ⟨fun _ => ⟨_, rfl⟩, fun _ => .inr (hasError_singleton _ _)⟩
    · rw [read, if_pos known, Attempt.log_bind, Attempt.value_bind, hasError_append]
      exact ⟨fun _ => ⟨_, rfl⟩, fun _ => .inl (hasError_singleton _ _)⟩

theorem hasError_readFrom_iff (files : FileTree) (path : Path) :
    HasError (readFrom files path).run.log ↔
      ∃ error, (readFrom files path).run.value = .error error := by
  rw [readFrom]
  cases files.read path with
  | error reason => exact ⟨fun _ => ⟨_, rfl⟩, fun _ => hasError_singleton _ _⟩
  | ok bytes => exact hasError_read_iff bytes

end Package

end AssetPack

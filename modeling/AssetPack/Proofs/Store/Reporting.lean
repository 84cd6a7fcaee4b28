import AssetPack.Proofs.Reporting
import AssetPack.Proofs.Store.Ownership

/-! Failures of a store are reported, but for a pool without room, which is refused without a
message. -/

namespace AssetPack.Store
open Process
variable {α β : Type}

/-- A pool has no room. -/
def Error.IsFull (error : Error) : Prop := ∃ id type, error = .poolFull id type

/-- A computation leaves an error if and only if it fails otherwise than for want of room. -/
def Tells (x : StoreAttempt α) : Prop :=
  ∀ s, HasError (messages x s) ↔ ∃ error, (eval x s).1 = .error error ∧ ¬ error.IsFull

theorem log_bind (x : StoreM α) (f : α → StoreM β) (s : Session) :
    ((x >>= f).run s).log = (x.run s).log ++ ((f (outcome x s).1).run (after x s)).log := rfl

/-- A computation which leaves no message of a kind. -/
def Calm (kind : Message → Bool) (x : StoreM α) : Prop := ∀ s, (x.run s).log.filter kind = []

namespace Calm
variable {kind : Message → Bool}

theorem bind {x : StoreM α} {f : α → StoreM β} (first : Calm kind x)
    (rest : ∀ a, Calm kind (f a)) : Calm kind (x >>= f) := by
  intro s
  rw [log_bind, List.filter_append, first s, rest, List.append_nil]

theorem forM {items : List α} {x : α → StoreM Unit} (each : ∀ item, Calm kind (x item)) :
    Calm kind (items.forM x) := by
  induction items with
  | nil => exact fun _ => rfl
  | cons item items ih => exact .bind (each item) fun _ => ih

theorem andThen {x : StoreAttempt α} {f : α → StoreAttempt β} (first : Calm kind x.run)
    (rest : ∀ a, Calm kind (f a).run) : Calm kind (x >>= f).run := by
  intro s
  have head : (messages x s).filter kind = [] := first s
  change (messages (x >>= f) s).filter kind = []
  rw [messages_bind, List.filter_append, head, List.nil_append]
  cases eval x s with
  | mk result t =>
    cases result with
    | error error => rfl
    | ok a => exact rest a t

theorem logged {x : Logged α} (none : x.log.filter kind = []) : Calm kind (liftM x) := by
  intro s
  change (x.log ++ []).filter kind = []
  rwa [List.append_nil]

theorem lift {x : StoreM α} (calm : Calm kind x) : Calm kind (liftM x : StoreAttempt α).run := by
  intro s
  change ((x.run s).log ++ []).filter kind = []
  rw [List.append_nil, calm s]

end Calm

/-- The uniforms of a shader leave warnings at most. -/
theorem filter_make {kind : Message → Bool}
    (low : ∀ level text, level ≠ .error → kind ⟨level, .shaderContext, text⟩ = false)
    (shader : AssetId) (reported : List Uniform) :
    (ShaderContext.make shader reported).log.filter kind = [] := by
  have keep (room : Nat) : (ShaderContext.keep shader room reported).log.filter kind = [] := by
    induction reported generalizing room with
    | nil => rfl
    | cons uniform rest ih =>
      rw [ShaderContext.keep.eq_def]
      dsimp only
      split
      · simp [ih, low]
      · split
        · simp [ih, low]
        · split
          · simp [ih, low]
          · rw [Logged.log_bind, List.filter_append, ih]
            rfl
  rw [ShaderContext.make, Logged.log_bind, List.filter_append, keep]
  rfl

def isError (message : Message) : Bool := message.level = .error

theorem filter_isError {log : List Message} : log.filter isError = [] ↔ ¬ HasError log := by
  simp [HasError, isError]

theorem Tells.bind {x : StoreAttempt α} {f : α → StoreAttempt β} (first : Tells x)
    (rest : ∀ a, Tells (f a)) : Tells (x >>= f) := by
  intro s
  rw [messages_bind, hasError_append, first s, eval_bind]
  cases eval x s with
  | mk result t =>
    cases result with
    | error e => simp [not_hasError_nil]
    | ok a => simpa using rest a t

theorem tells_calm {x : StoreM α} (calm : Calm isError x) : Tells (liftM x) := by
  intro s
  constructor
  · intro told
    change HasError ((x.run s).log ++ []) at told
    rw [List.append_nil] at told
    exact absurd told (filter_isError.1 (calm s))
  · rintro ⟨error, failed, -⟩
    cases failed

theorem tells_report {level : Level} (low : level ≠ .error) (origin : Origin) (text : String) :
    Tells (report level origin text : Logged Unit) :=
  tells_calm (.logged (by simp [isError, low]))

theorem tells_pure (a : α) : Tells (pure a) := by
  change Tells (liftM (pure a : StoreM α))
  exact tells_calm fun _ => rfl

/-- A failure with a message, for another reason than want of room. -/
theorem tells_fail (text : String) {error : Error}
    (other : ∀ id type, error ≠ .poolFull id type) : Tells (fail text error : StoreAttempt α) := by
  intro s
  refine ⟨fun _ => ⟨error, rfl, ?_⟩, fun _ => hasError_singleton _ _⟩
  rintro ⟨id, type, full⟩
  exact other id type full

theorem tells_full (id : GroupId) (type : AssetType) :
    Tells (throw (.poolFull id type) : StoreAttempt α) := by
  intro s
  constructor
  · intro told
    exact absurd told not_hasError_nil
  · rintro ⟨error, failed, other⟩
    cases failed
    exact absurd ⟨id, type, rfl⟩ other

theorem tells_findGroup (id : GroupId) : Tells (findGroup id) := by
  rw [findGroup]
  refine .bind (tells_calm fun _ => rfl) fun s => ?_
  split
  · exact tells_pure _
  · exact tells_fail _ fun _ _ => Error.noConfusion

theorem tells_push (backend : Backend) (id : GroupId) (resource : Resource) :
    Tells (push backend id resource) := by
  rw [push]
  refine .bind (tells_findGroup id) fun group => ?_
  split
  · exact tells_full _ _
  · refine .bind (tells_calm fun _ => rfl) fun answer => ?_
    split
    · exact tells_fail _ fun _ _ => Error.noConfusion
    · refine .bind (tells_calm fun _ => rfl) fun _ => ?_
      exact .bind (tells_report (by decide) _ _) fun _ => tells_pure _

theorem tells_findShader (id : GroupId) (group : Group) (shader : AssetId) :
    Tells (findShader id group shader) := by
  have wrong {α : Type} (text : String) :
      Tells (fail text (.invalidShader id shader) : StoreAttempt α) :=
    tells_fail _ fun _ _ => Error.noConfusion
  rw [findShader]
  split
  · refine .bind (wrong _) fun _ => ?_
    split
    · exact tells_pure _
    · exact wrong _
  · cases shader.slot?.bind (group.shaders[·]?) with
    | some ref => exact tells_pure ref
    | none => exact wrong _

theorem tells_pushContext (backend : Backend) (id : GroupId) (shader : AssetId) :
    Tells (pushContext backend id shader) := by
  rw [pushContext]
  refine .bind (tells_findGroup id) fun group => ?_
  refine .bind (tells_findShader id group shader) fun ref => ?_
  split
  · exact tells_full _ _
  · refine .bind (tells_calm fun _ => rfl) fun s => ?_
    refine .bind (tells_calm fun _ => rfl) fun _ => ?_
    have low (level : Level) (text : String) (low : level ≠ .error) :
        isError ⟨level, .shaderContext, text⟩ = false := decide_eq_false low
    refine .bind (tells_calm (.logged (filter_make low _ _))) fun context => ?_
    refine .bind (tells_report (by decide) _ _) fun _ => ?_
    exact .bind (tells_calm fun _ => rfl) fun _ => tells_pure _

theorem tells_nameAsset (asset : AssetId) (name : String) : Tells (nameAsset asset name) := by
  rw [nameAsset]
  refine .bind (tells_findGroup _) fun group => tells_calm ?_
  rw [nameIn]
  split
  · exact fun _ => rfl
  · refine .bind (fun _ => rfl) fun _ => ?_
    split
    · exact fun _ => rfl
    · exact fun _ => rfl

theorem tells_addRecords (backend : Backend) (id : GroupId) (records : List Package.Record) :
    Tells (addRecords backend id records) := by
  induction records with
  | nil => exact tells_pure _
  | cons record rest ih =>
    rw [addRecords]
    refine .bind (tells_push backend id _) fun asset => ?_
    exact .bind (tells_nameAsset _ _) fun _ => ih

theorem tells_loadPackage (backend : Backend) (files : FileTree) (id : GroupId) (path : Path) :
    Tells (loadPackage backend files id path) := by
  rw [loadPackage]
  refine .bind (tells_findGroup id) fun _ s => ?_
  rw [messages_bind, eval_bind, messages_logged, eval_logged, hasError_append,
    Package.hasError_readFrom_iff]
  cases (Package.readFrom files path).run.value with
  | error error =>
    refine ⟨fun _ => ⟨_, rfl, ?_⟩, fun _ => .inl ⟨error, rfl⟩⟩
    rintro ⟨_, _, same⟩
    cases same
  | ok records =>
    refine (or_iff_right ?_).trans (Tells.bind (tells_pure records) (fun records => ?_) s)
    · rintro ⟨_, same⟩
      cases same
    · refine .bind (tells_addRecords backend id records) fun _ => ?_
      exact .bind (tells_report (by decide) _ _) fun _ => tells_pure _

theorem hasError_buildPackage {loaders : Package.Loaders} {files : FileTree} {id : GroupId}
    {manifest output : Path}
    (failed : (buildPackage loaders files id manifest output).value.1 = false) :
    HasError (buildPackage loaders files id manifest output).log := by
  rw [buildPackage] at failed ⊢
  rw [Logged.value_bind] at failed
  rw [Logged.log_bind, hasError_append]
  cases result : (Package.build loaders manifest output files).value.result with
  | ok summary =>
    rw [result] at failed
    cases failed
  | error error => exact .inl (Package.hasError_build result)

theorem log_reply (attempt : StoreAttempt α) (success : α → Reply) (s : Session) :
    ((reply attempt success).run s).log = messages attempt s := by
  rw [reply, log_bind]
  refine (congrArg (messages attempt s ++ ·) ?_).trans (List.append_nil _)
  cases (outcome attempt.run s).1 <;> rfl

theorem failed_reply {attempt : StoreAttempt α} {success : α → Reply} {s : Session} {error : Error}
    (tells : Tells attempt) (succeeds : ∀ a, success a ≠ .failed error)
    (failed : (outcome (reply attempt success) s).1 = .failed error) :
    HasError ((reply attempt success).run s).log ↔ ¬ error.IsFull := by
  rw [log_reply, tells s, reply_eq_failed succeeds failed]
  constructor
  · intro told
    obtain ⟨_, same, other⟩ := told
    cases same
    exact other
  · intro other
    exact ⟨error, rfl, other⟩

/-- An operation which fails leaves an error if and only if there was room. -/
theorem hasError_perform {backend : Backend} {files : FileTree} {operation : Operation}
    {s : Session} {error : Error}
    (failed : (outcome (perform backend files operation) s).1 = .failed error) :
    HasError ((perform backend files operation).run s).log ↔ ¬ error.IsFull := by
  have asset (asset : AssetId) : Reply.asset asset ≠ .failed error := Reply.noConfusion
  cases operation with
  | push id resource => exact failed_reply (tells_push backend id resource) asset failed
  | pushContext id shader => exact failed_reply (tells_pushContext backend id shader) asset failed
  | pushContextOf id shader =>
    exact failed_reply ((tells_push backend id _).bind (tells_pushContext backend id)) asset failed
  | nameAsset handle name =>
    exact failed_reply (tells_nameAsset handle name) (fun _ => Reply.noConfusion) failed
  | loadPackage id path =>
    exact failed_reply (tells_loadPackage backend files id path) (fun _ => Reply.noConfusion) failed
  | _ => cases failed

/-- Whatever fails leaves an error among the messages, but for an operation on a pool without room,
which does not. -/
theorem failures_reported (loaders : Package.Loaders) (backend : Backend) (files : FileTree)
    (s : Session) :
    (∀ path error, (Manifest.load files path).run.value = .error error →
      HasError (Manifest.load files path).run.log) ∧
    (∀ manifest output error,
      (Package.build loaders manifest output files).value.result = .error error →
        HasError (Package.build loaders manifest output files).log) ∧
    (∀ bytes error, (Package.read bytes).run.value = .error error →
      HasError (Package.read bytes).run.log) ∧
    (∀ path error, (Package.readFrom files path).run.value = .error error →
      HasError (Package.readFrom files path).run.log) ∧
    (∀ id manifest output, (buildPackage loaders files id manifest output).value.1 = false →
      HasError (buildPackage loaders files id manifest output).log) ∧
    ∀ operation error, (outcome (perform backend files operation) s).1 = .failed error →
      (HasError ((perform backend files operation).run s).log ↔
        ∀ id type, error ≠ .poolFull id type) := by
  refine ⟨fun path error failed => Manifest.reports_load files path error failed,
    fun _ _ _ failed => Package.hasError_build failed,
    fun bytes error failed => (Package.hasError_read_iff bytes).2 ⟨error, failed⟩,
    fun path error failed => (Package.hasError_readFrom_iff files path).2 ⟨error, failed⟩,
    fun _ _ _ failed => hasError_buildPackage failed, fun _ _ failed => ?_⟩
  rw [hasError_perform failed, Error.IsFull, not_exists]
  exact forall_congr' fun id => not_exists

/-! A full pool can be reached. -/

theorem get?_after_push {s : Session} {id : GroupId} {group : Group} (resource : Resource)
    (found : s.store.groups.get? id = some group)
    (room : group.count resource.kind.type < Group.poolLimit) :
    ((countingStep (.push id resource)).after s).store.groups.get? id =
      some (group.push resource.kind ⟨s.calls.length⟩) := by
  have next : group.nextId? id resource.kind.type = some _ := nextId?_eq_some.2 ⟨room, rfl⟩
  have pushed : (countingStep (.push id resource)).after s =
      created id resource (some ⟨s.calls.length⟩) s := by
    rw [Step.after, countingStep, perform, after_reply, eval_push, found]
    dsimp only
    rw [next]
    rfl
  rw [pushed]
  exact get?_updateGroup found _

theorem count_push (group : Group) (kind : ResourceKind) (ref : Ref) :
    (group.push kind ref).count kind.type = group.count kind.type + 1 := by
  rw [Group.count_type, Group.count_type, Group.pool_push, if_pos rfl, Array.size_push]

theorem count_after_pushes (resource : Resource) (n : Nat) {s : Session} {id : GroupId}
    {group : Group} (found : s.store.groups.get? id = some group)
    (room : group.count resource.kind.type + n ≤ Group.poolLimit) : ∃ group',
      (after (run (List.replicate n (countingStep (.push id resource)))) s).store.groups.get? id =
        some group' ∧ group'.count resource.kind.type = group.count resource.kind.type + n := by
  refine after_replicate (P := fun n s => ∃ group', s.store.groups.get? id = some group' ∧
    group'.count resource.kind.type = group.count resource.kind.type + n)
    ⟨group, found, rfl⟩ ?_ (Nat.le_refl n)
  intro m s less filled
  obtain ⟨group', found, count⟩ := filled
  refine ⟨_, get?_after_push resource found (by omega), ?_⟩
  rw [count_push, count, Nat.add_assoc]

/-- As many assets as fit into a pool. -/
def fullPool : List Step :=
  countingStep (.createGroup "level") ::
    List.replicate Group.poolLimit (countingStep (.push ⟨0⟩ (.buffer ⟨.vertex, []⟩)))

/-- The asset which does not fit is refused, and nothing tells so. -/
theorem push_fullPool :
    (outcome (perform countingBackend ⟨.empty, []⟩ (.push ⟨0⟩ (.buffer ⟨.vertex, []⟩)))
      (after (run fullPool) .start)).1 = .failed (.poolFull ⟨0⟩ .buffer) ∧
    ¬ HasError ((perform countingBackend ⟨.empty, []⟩ (.push ⟨0⟩ (.buffer ⟨.vertex, []⟩))).run
      (after (run fullPool) .start)).log := by
  have made : ((countingStep (.createGroup "level")).after .start).store.groups.get? ⟨0⟩ =
      some (.new ⟨0⟩ "level") := rfl
  obtain ⟨group, found, count⟩ :=
    count_after_pushes (.buffer ⟨.vertex, []⟩) Group.poolLimit made (Nat.le_of_eq (Nat.zero_add _))
  rw [← after_run_cons] at found
  have full : group.nextId? ⟨0⟩ .buffer = none := by
    have reached : ¬ group.count .buffer < Group.poolLimit :=
      Nat.not_lt_of_le (Nat.le_of_eq (count.trans (Nat.zero_add _)).symm)
    exact if_neg reached
  have refused : (outcome (perform countingBackend ⟨.empty, []⟩
      (.push ⟨0⟩ (.buffer ⟨.vertex, []⟩))) (after (run fullPool) .start)).1 =
        .failed (.poolFull ⟨0⟩ .buffer) := by
    rw [perform, outcome_reply, eval_push, fullPool, found]
    dsimp only [Resource.kind, ResourceKind.type]
    rw [full]
  exact ⟨refused, fun told => (hasError_perform refused).1 told ⟨_, _, rfl⟩⟩

end AssetPack.Store

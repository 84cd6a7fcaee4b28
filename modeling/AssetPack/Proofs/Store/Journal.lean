import AssetPack.Proofs.Store.Evaluation

/-! The journal of a store: which events each operation leaves behind, and that the store is what
comes of its events, one after the other. -/

namespace AssetPack

/-- What a handle stands for. -/
inductive Content where
  | resource (kind : ResourceKind) (ref : Ref)
  | context (context : ShaderContext)
  deriving DecidableEq, Repr

/-- The pools of a group, each of which has handles of its own type. -/
inductive Pool where
  | resources (kind : ResourceKind)
  | contexts
  deriving DecidableEq, Repr

def Pool.type : Pool → AssetType
  | resources kind => kind.type
  | contexts => .shaderContext

def Content.pool : Content → Pool
  | resource kind _ => .resources kind
  | context _ => .contexts

theorem Pool.type_inj {pool other : Pool} : pool.type = other.type ↔ pool = other := by
  cases pool with
  | resources kind =>
    cases other with
    | resources kind' => cases kind <;> cases kind' <;> decide
    | contexts => cases kind <;> decide
  | contexts =>
    cases other with
    | resources kind' => cases kind' <;> decide
    | contexts => decide

namespace Group

def contents (group : Group) : Pool → List Content
  | .resources kind => (group.pool kind).toList.map (.resource kind)
  | .contexts => group.contexts.toList.map .context

def add (content : Content) (group : Group) : Group :=
  match content with
  | .resource kind ref => group.push kind ref
  | .context context => group.pushContext context

theorem count_pool (group : Group) (pool : Pool) :
    group.count pool.type = (group.contents pool).length := by
  cases pool with
  | resources kind => simp [Pool.type, contents, count_type]
  | contexts => simp [Pool.type, contents, count]

theorem contents_new (id : GroupId) (name : String) (pool : Pool) :
    (new id name).contents pool = [] := by
  cases pool with
  | resources kind => cases kind <;> rfl
  | contexts => rfl

theorem contents_add (group : Group) (content : Content) (pool : Pool) :
    (group.add content).contents pool =
      if pool = content.pool then group.contents pool ++ [content] else group.contents pool := by
  cases content with
  | resource kind ref =>
    cases pool with
    | resources other => by_cases same : other = kind <;> simp [contents, add, Content.pool, same]
    | contexts => cases kind <;> rfl
  | context context =>
    cases pool with
    | resources other => simp [contents, add, Content.pool]
    | contexts => simp [contents, add, Content.pool, pushContext]

theorem name_add (group : Group) (content : Content) : (group.add content).name = group.name := by
  cases content with
  | resource kind ref => cases kind <;> rfl
  | context context => rfl

theorem names_add (group : Group) (content : Content) :
    (group.add content).names = group.names := by
  cases content with
  | resource kind ref => cases kind <;> rfl
  | context context => rfl

theorem contents_setName (group : Group) (name : String) (asset : AssetId) (pool : Pool) :
    (group.setName name asset).contents pool = group.contents pool := by
  cases pool with
  | resources kind => rw [contents, pool_setName, contents]
  | contexts => rfl

end Group

namespace Store
open Process

/-- What the handle stands for in the pools of the given type. -/
def content? (store : Store) (pool : Pool) (asset : AssetId) : Option Content :=
  match pool with
  | .resources kind => (store.resource? kind asset).map (.resource kind)
  | .contexts => (store.context? asset).map .context

theorem content?_eq_some {store : Store} {pool : Pool} {asset : AssetId} {content : Content} :
    store.content? pool asset = some content ↔ asset.type = pool.type ∧
      ∃ group index, store.groups.get? asset.group = some group ∧ asset.slot? = some index ∧
        (group.contents pool)[index]? = some content := by
  cases pool with
  | resources kind =>
    simp only [content?, resource?, Option.map_eq_some_iff, Option.ite_none_right_eq_some,
      Option.bind_eq_bind, Option.bind_eq_some_iff, Pool.type, Group.contents, List.getElem?_map,
      Array.getElem?_toList]
    constructor
    · rintro ⟨ref, ⟨typed, group, found, index, slot, held⟩, rfl⟩
      exact ⟨typed, group, index, found, slot, ref, held, rfl⟩
    · rintro ⟨typed, group, index, found, slot, ref, held, rfl⟩
      exact ⟨ref, ⟨typed, group, found, index, slot, held⟩, rfl⟩
  | contexts =>
    simp only [content?, context?, Option.map_eq_some_iff, Option.ite_none_right_eq_some,
      Option.bind_eq_bind, Option.bind_eq_some_iff, Pool.type, Group.contents, List.getElem?_map,
      Array.getElem?_toList]
    constructor
    · rintro ⟨context, ⟨typed, group, found, index, slot, held⟩, rfl⟩
      exact ⟨typed, group, index, found, slot, context, held, rfl⟩
    · rintro ⟨typed, group, index, found, slot, context, held, rfl⟩
      exact ⟨context, ⟨typed, group, found, index, slot, held⟩, rfl⟩

/-- What happens to a store. -/
inductive Event where
  | made (group : GroupId) (name : String)
  | added (asset : AssetId) (content : Content)
  | named (asset : AssetId) (name : String)
  | closed (group : GroupId)
  deriving DecidableEq, Repr

namespace Event

def apply (store : Store) : Event → Store
  | made id name => ⟨store.groups.insert id (.new id name), store.next + 1⟩
  | added asset content => store.updateGroup asset.group (Group.add content)
  | named asset name => store.updateGroup asset.group (Group.setName name asset)
  | closed id => { store with groups := store.groups.erase id }

/-- Whether the event can be the next one. -/
def Admitted (store : Store) : Event → Prop
  | made id _ => id = ⟨store.next⟩
  | added asset content => ∃ group, store.groups.get? asset.group = some group ∧
      group.nextId? asset.group content.pool.type = some asset
  | named asset name =>
    (∃ group, store.groups.get? asset.group = some group) ∧ name ≠ Group.reservedName
  | closed id => ∃ group, store.groups.get? id = some group

end Event

/-- Events which can follow each other, and the store after them. -/
inductive Journal : Store → List Event → Store → Prop
  | nil {store : Store} : Journal store [] store
  | cons {store next : Store} {event : Event} {events : List Event}
    (admitted : event.Admitted store) (rest : Journal (event.apply store) events next) :
    Journal store (event :: events) next

theorem Journal.single {store : Store} {event : Event} (admitted : event.Admitted store) :
    Journal store [event] (event.apply store) := .cons admitted .nil

theorem Journal.append {first middle last : Store} {events more : List Event}
    (h : Journal first events middle) (rest : Journal middle more last) :
    Journal first (events ++ more) last := by
  induction h with
  | nil => exact rest
  | cons admitted _ ih => exact .cons admitted (ih rest)

/-! The events of each operation, in the session which it starts from. -/

section events
variable (backend : Backend) (files : FileTree)

/-- A resource which the backend gives is added under the handle which is returned. -/
def pushEvents (id : GroupId) (resource : Resource) (s : Session) : List Event :=
  match (eval (push backend id resource) s).1 with
  | .ok asset =>
    (backend.create s.calls resource).toList.map fun ref =>
      .added asset (.resource resource.kind ref)
  | .error _ => []

/-- A context is made from the uniforms which the backend reports for the shader. -/
def contextEvents (id : GroupId) (shader : AssetId) (s : Session) : List Event :=
  match (eval (pushContext backend id shader) s).1 with
  | .ok asset =>
    (s.store.resource? .shader shader).toList.map fun ref =>
      .added asset (.context (ShaderContext.make shader (backend.uniforms s.calls ref)).value)
  | .error _ => []

/-- The reserved name is not given to anything. -/
def nameEvents (asset : AssetId) (name : String) (s : Session) : List Event :=
  match (eval (nameAsset asset name) s).1 with
  | .ok _ => if name = Group.reservedName then [] else [.named asset name]
  | .error _ => []

/-- The events of a computation and, if it succeeds, of what follows it. -/
def andThen {α : Type} (x : StoreAttempt α) (first : Session → List Event)
    (rest : α → Session → List Event) (s : Session) : List Event :=
  first s ++ match eval x s with
    | (.ok a, t) => rest a t
    | (.error _, _) => []

def contextOfEvents (id : GroupId) (shader : Shader) : Session → List Event :=
  andThen (push backend id (.shader shader)) (pushEvents backend id (.shader shader))
    fun asset => contextEvents backend id asset

def recordEvents (id : GroupId) : List Package.Record → Session → List Event
  | [] => fun _ => []
  | record :: rest =>
    andThen (push backend id (resourceOf record.asset))
      (pushEvents backend id (resourceOf record.asset))
      fun asset => andThen (nameAsset asset record.name) (nameEvents asset record.name)
        fun _ => recordEvents id rest

def loadEvents (id : GroupId) (path : Path) (s : Session) : List Event :=
  match s.store.groups.get? id, (Package.readFrom files path).run.value with
  | some _, .ok records => recordEvents backend id records s
  | _, _ => []

def closeEvents : List GroupId → Session → List Event
  | [], _ => []
  | id :: ids, s =>
    (match s.store.groups.get? id with | some _ => [.closed id] | none => []) ++
      closeEvents ids (after (destroyGroup id) s)

def events : Operation → Session → List Event
  | .createGroup name, s => [.made (outcome (createGroup name) s).1 name]
  | .destroyGroup id, s => closeEvents [id] s
  | .destroyAll, s =>
    closeEvents (s.store.groups.keys.mergeSort fun a b => decide (a.number ≤ b.number)) s
  | .push id resource, s => pushEvents backend id resource s
  | .pushContext id shader, s => contextEvents backend id shader s
  | .pushContextOf id shader, s => contextOfEvents backend id shader s
  | .nameAsset asset name, s => nameEvents asset name s
  | .loadPackage id path, s => loadEvents backend files id path s
  | .resource .., _ | .context _, _ | .location .., _ | .find .., _ | .groupName _, _
  | .assetCount .., _ => []

end events

def Step.events (step : Step) : Session → List Event :=
  Store.events step.backend step.files step.operation

def Step.after (step : Step) : Session → Session :=
  Store.after (perform step.backend step.files step.operation)

/-- The events of a run, from the first one on. -/
def history : List Step → Session → List Event
  | [], _ => []
  | step :: steps, s => step.events s ++ history steps (step.after s)

theorem after_run_cons (step : Step) (steps : List Step) (s : Session) :
    after (run (step :: steps)) s = after (run steps) (step.after s) := by
  rw [after_run, after_run]
  rfl

theorem replies_run_cons (step : Step) (steps : List Step) (s : Session) :
    (outcome (run (step :: steps)) s).1 =
      (outcome (perform step.backend step.files step.operation) s).1 ::
        (outcome (run steps) (step.after s)).1 := by
  rw [run, List.mapM_cons, outcome_bind, outcome_bind]
  rfl

theorem after_run_append (steps more : List Step) (s : Session) :
    after (run (steps ++ more)) s = after (run more) (after (run steps) s) := by
  rw [after_run, after_run, after_run, List.foldl_append]

/-- A step which is done again and again, while there is room for what it does. -/
theorem after_replicate {P : Nat → Session → Prop} {step : Step} {limit : Nat} {s : Session}
    (start : P 0 s) (each : ∀ n s, n < limit → P n s → P (n + 1) (step.after s)) {n : Nat}
    (room : n ≤ limit) : P n (after (run (List.replicate n step)) s) := by
  induction n with
  | zero => exact start
  | succ n ih =>
    rw [List.replicate_succ', after_run_append]
    exact each n _ room (ih (Nat.le_of_succ_le room))

theorem history_append (steps more : List Step) (s : Session) :
    history (steps ++ more) s = history steps s ++ history more (after (run steps) s) := by
  induction steps generalizing s with
  | nil => rfl
  | cons step steps ih =>
    rw [List.cons_append, history, ih, history, after_run_cons, List.append_assoc]

/-- What happens in a run happens in one of its steps. -/
theorem step_of_history {steps : List Step} {s : Session} {event : Event}
    (mem : event ∈ history steps s) : ∃ before step later, steps = before ++ step :: later ∧
      event ∈ step.events (after (run before) s) := by
  induction steps generalizing s with
  | nil => cases mem
  | cons first steps ih =>
    rcases List.mem_append.1 mem with now | mem
    · exact ⟨[], first, steps, rfl, now⟩
    · obtain ⟨before, step, later, rfl, there⟩ := ih mem
      refine ⟨first :: before, step, later, rfl, ?_⟩
      rw [after_run_cons]
      exact there

end Store

end AssetPack

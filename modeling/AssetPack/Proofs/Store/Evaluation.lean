import AssetPack.Proofs.Log
import AssetPack.Store.Operation

/-! What the operations of a store come to, apart from their messages. -/

namespace AssetPack.Store
open Process
variable {α β : Type}

/-- What a computation which can not fail comes to. -/
def outcome (x : StoreM α) (s : Session) : α × Session := (x.run s).value

def after (x : StoreM α) (s : Session) : Session := (outcome x s).2

theorem outcome_bind (x : StoreM α) (f : α → StoreM β) (s : Session) :
    outcome (x >>= f) s = outcome (f (outcome x s).1) (after x s) := rfl

theorem eval_findGroup (id : GroupId) (s : Session) :
    eval (findGroup id) s = match s.store.groups.get? id with
      | some group => (.ok group, s)
      | none => (.error (.unknownGroup id), s) := by
  rw [findGroup, eval_bind]
  change eval (match s.store.groups.get? id with | some group => _ | none => _) s = _
  cases s.store.groups.get? id <;> rfl

theorem run_create (backend : Backend) (resource : Resource) (s : Session) :
    ((create backend resource).run s).value = (backend.create s.calls resource,
      { s with calls := .create resource (backend.create s.calls resource) :: s.calls }) := rfl

theorem get?_updateGroup {store : Store} {id : GroupId} {group : Group}
    (found : store.groups.get? id = some group) (f : Group → Group) :
    (store.updateGroup id f).groups.get? id = some (f group) := by
  rw [updateGroup, Table.get?_update, if_pos rfl, found, Option.map_some]

/-- The session after the backend was asked for a resource of a group. -/
def created (id : GroupId) (resource : Resource) (answer : Option Ref) (s : Session) : Session where
  store := match answer with
    | some ref => s.store.updateGroup id (Group.push resource.kind ref)
    | none => s.store
  calls := .create resource answer :: s.calls

theorem eval_push (backend : Backend) (id : GroupId) (resource : Resource) (s : Session) :
    eval (push backend id resource) s = match s.store.groups.get? id with
      | none => (.error (.unknownGroup id), s)
      | some group => match group.nextId? id resource.kind.type with
        | none => (.error (.poolFull id resource.kind.type), s)
        | some asset =>
          (match backend.create s.calls resource with
            | some _ => .ok asset
            | none => .error (.backend id resource.kind.type),
          created id resource (backend.create s.calls resource) s) := by
  rw [push, eval_bind, eval_findGroup]
  cases s.store.groups.get? id with
  | none => rfl
  | some group =>
    dsimp only
    cases group.nextId? id resource.kind.type with
    | none => rfl
    | some asset =>
      dsimp only
      rw [eval_bind, eval_stateful, run_create]
      dsimp only
      cases backend.create s.calls resource <;> rfl

theorem push_eq_ok {backend : Backend} {id : GroupId} {resource : Resource} {s : Session}
    {asset : AssetId} (pushed : (eval (push backend id resource) s).1 = .ok asset) :
    ∃ group ref, s.store.groups.get? id = some group ∧
      group.nextId? id resource.kind.type = some asset ∧
        backend.create s.calls resource = some ref := by
  rw [eval_push] at pushed
  split at pushed
  · cases pushed
  · rename_i group found
    split at pushed
    · cases pushed
    · rename_i next
      dsimp only at pushed
      split at pushed
      · rename_i ref given
        cases pushed
        exact ⟨group, ref, found, next, given⟩
      · cases pushed

/-- The resource of a shader of the group, if the handle stands for one. -/
def shaderOf? (id : GroupId) (group : Group) (shader : AssetId) : Option Ref :=
  if shader.group = id ∧ shader.type = .shader then shader.slot?.bind (group.shaders[·]?) else none

theorem eval_findShader (id : GroupId) (group : Group) (shader : AssetId) (s : Session) :
    eval (findShader id group shader) s = match shaderOf? id group shader with
      | some ref => (.ok ref, s)
      | none => (.error (.invalidShader id shader), s) := by
  rw [findShader, shaderOf?]
  by_cases own : shader.group = id ∧ shader.type = .shader
  · have passes : ¬ (shader.group ≠ id ∨ shader.type ≠ .shader) := by
      intro other
      rcases other with other | other
      · exact other own.1
      · exact other own.2
    rw [if_neg passes, if_pos own]
    cases shader.slot?.bind (group.shaders[·]?) <;> rfl
  · have fails : shader.group ≠ id ∨ shader.type ≠ .shader := by
      by_cases same : shader.group = id
      · exact .inr fun typed => own ⟨same, typed⟩
      · exact .inl same
    rw [if_pos fails, if_neg own]
    rfl

/-- The session after a context was made for a shader of a group. -/
def asked (id : GroupId) (context : ShaderContext) (ref : Ref) (s : Session) : Session where
  store := s.store.updateGroup id (Group.pushContext context)
  calls := .uniforms ref :: s.calls

theorem eval_pushContext (backend : Backend) (id : GroupId) (shader : AssetId) (s : Session) :
    eval (pushContext backend id shader) s = match s.store.groups.get? id with
      | none => (.error (.unknownGroup id), s)
      | some group => match shaderOf? id group shader with
        | none => (.error (.invalidShader id shader), s)
        | some ref => match group.nextId? id .shaderContext with
          | none => (.error (.poolFull id .shaderContext), s)
          | some asset =>
            (.ok asset,
              asked id (ShaderContext.make shader (backend.uniforms s.calls ref)).value ref s) := by
  rw [pushContext, eval_bind, eval_findGroup]
  cases s.store.groups.get? id with
  | none => rfl
  | some group =>
    dsimp only
    rw [eval_bind, eval_findShader]
    cases shaderOf? id group shader with
    | none => rfl
    | some ref =>
      dsimp only
      cases group.nextId? id .shaderContext <;> rfl

theorem pushContext_eq_ok {backend : Backend} {id : GroupId} {shader asset : AssetId} {s : Session}
    (pushed : (eval (pushContext backend id shader) s).1 = .ok asset) :
    ∃ group ref, s.store.groups.get? id = some group ∧ shaderOf? id group shader = some ref ∧
      group.nextId? id .shaderContext = some asset := by
  rw [eval_pushContext] at pushed
  split at pushed
  · cases pushed
  · rename_i group found
    split at pushed
    · cases pushed
    · rename_i ref own
      split at pushed
      · cases pushed
      · rename_i next
        cases pushed
        exact ⟨group, ref, found, own, next⟩

/-- The session after a handle was given a name in its group. -/
def named (asset : AssetId) (name : String) (s : Session) : Session :=
  if name = Group.reservedName then s
  else { s with store := s.store.updateGroup asset.group (Group.setName name asset) }

theorem eval_nameAsset (asset : AssetId) (name : String) (s : Session) :
    eval (nameAsset asset name) s = match s.store.groups.get? asset.group with
      | none => (.error (.unknownGroup asset.group), s)
      | some _ => (.ok (), named asset name s) := by
  rw [nameAsset, eval_bind, eval_findGroup]
  cases s.store.groups.get? asset.group with
  | none => rfl
  | some group =>
    dsimp only
    rw [eval_stateful, nameIn, named]
    by_cases reserved : name = Group.reservedName
    · rw [if_pos reserved, if_pos reserved]
      rfl
    · rw [if_neg reserved, if_neg reserved]
      cases group.names.get? name <;> rfl

theorem eval_addRecords_cons (backend : Backend) (id : GroupId) (record : Package.Record)
    (rest : List Package.Record) (s : Session) :
    eval (addRecords backend id (record :: rest)) s =
      eval (push backend id (resourceOf record.asset) >>= fun asset => do
        nameAsset asset record.name
        addRecords backend id rest) s := rfl

theorem eval_loadPackage (backend : Backend) (files : FileTree) (id : GroupId) (path : Path)
    (s : Session) :
    eval (loadPackage backend files id path) s = match s.store.groups.get? id with
      | none => (.error (.unknownGroup id), s)
      | some _ => match (Package.readFrom files path).run.value with
        | .error error => (.error (.package error), s)
        | .ok records =>
          ((eval (addRecords backend id records) s).1.map fun _ => records.length,
            (eval (addRecords backend id records) s).2) := by
  rw [loadPackage, eval_bind, eval_findGroup]
  cases s.store.groups.get? id with
  | none => rfl
  | some group =>
    dsimp only
    rw [eval_bind, eval_logged]
    dsimp only
    cases (Package.readFrom files path).run.value with
    | error error => rfl
    | ok records =>
      dsimp only
      rw [eval_bind, eval_pure]
      dsimp only
      rw [eval_bind]
      cases eval (addRecords backend id records) s with
      | mk result t => cases result <;> rfl

/-- The session after a new group was made. -/
def opened (name : String) (s : Session) : Session where
  store := ⟨s.store.groups.insert ⟨s.store.next⟩ (.new ⟨s.store.next⟩ name), s.store.next + 1⟩
  calls := s.calls

theorem after_createGroup (name : String) (s : Session) :
    after (createGroup name) s = opened name s := rfl

/-- The calls which release references one after the other, the last one first. -/
def releases (refs : List (ResourceKind × Ref)) : List Call :=
  (refs.map fun (kind, ref) => .destroy kind ref).reverse

theorem releases_cons (kind : ResourceKind) (ref : Ref) (refs : List (ResourceKind × Ref)) :
    releases ((kind, ref) :: refs) = releases refs ++ [.destroy kind ref] := List.reverse_cons

/-- The session after the resources of a group were released and the group was forgotten. -/
def closed (id : GroupId) (group : Group) (s : Session) : Session where
  store := { s.store with groups := s.store.groups.erase id }
  calls := releases group.refs ++ s.calls

theorem after_destroys (refs : List (ResourceKind × Ref)) (s : Session) :
    after (refs.forM fun (kind, ref) => note (.destroy kind ref)) s =
      { s with calls := releases refs ++ s.calls } := by
  induction refs generalizing s with
  | nil => rfl
  | cons ref refs ih =>
    rw [List.forM, after, outcome_bind, ← after, ih, releases_cons, List.append_assoc]
    rfl

theorem after_destroyGroup (id : GroupId) (s : Session) :
    after (destroyGroup id) s = match s.store.groups.get? id with
      | none => s
      | some group => closed id group s := by
  rw [destroyGroup, after, outcome_bind, ← after]
  change after (match s.store.groups.get? id with | none => _ | some group => _) s = _
  cases s.store.groups.get? id with
  | none => rfl
  | some group =>
    change after (group.refs.forM fun (kind, ref) => note (.destroy kind ref))
      { s with store := { s.store with groups := s.store.groups.erase id } } = _
    rw [after_destroys]
    rfl

theorem outcome_reply (attempt : StoreAttempt α) (success : α → Reply) (s : Session) :
    outcome (reply attempt success) s = match eval attempt s with
      | (.ok value, t) => (success value, t)
      | (.error error, t) => (.failed error, t) := by
  have same : outcome attempt.run s = eval attempt s := rfl
  rw [reply, outcome_bind, after, same]
  cases eval attempt s with
  | mk result t => cases result <;> rfl

theorem reply_eq_asset {attempt : StoreAttempt AssetId} {s : Session} {asset : AssetId}
    (replied : (outcome (reply attempt .asset) s).1 = .asset asset) :
    (eval attempt s).1 = .ok asset := by
  rw [outcome_reply] at replied
  split at replied
  · rename_i result
    cases replied
    rw [result]
  · cases replied

theorem reply_eq_failed {attempt : StoreAttempt α} {success : α → Reply} {s : Session}
    {error : Error} (succeeds : ∀ a, success a ≠ .failed error)
    (failed : (outcome (reply attempt success) s).1 = .failed error) :
    (eval attempt s).1 = .error error := by
  rw [outcome_reply] at failed
  split at failed
  · exact absurd failed (succeeds _)
  · rename_i result
    cases failed
    rw [result]

theorem after_reply (attempt : StoreAttempt α) (success : α → Reply) (s : Session) :
    after (reply attempt success) s = (eval attempt s).2 := by
  rw [after, outcome_reply]
  cases eval attempt s with
  | mk result t => cases result <;> rfl

theorem after_forM (items : List α) (x : α → StoreM Unit) (s : Session) :
    after (items.forM x) s = items.foldl (fun s item => after (x item) s) s := by
  induction items generalizing s with
  | nil => rfl
  | cons item items ih =>
    rw [List.forM, after, outcome_bind, ← after, ih]
    rfl

theorem after_run (steps : List Step) (s : Session) : after (run steps) s =
    steps.foldl (fun s step => after (perform step.backend step.files step.operation) s) s := by
  induction steps generalizing s with
  | nil => rfl
  | cons step steps ih =>
    rw [run, List.mapM_cons]
    exact ih _

end AssetPack.Store

import Mathlib.Logic.Relation
import AssetPack.Proofs.Store.Journal

/-! The changes which the operations of a store are made of. -/

namespace AssetPack.Store
open Process Relation

/-- A change of a session other than a new group, and what it is bound to. -/
inductive Change : Session → Session → Prop
  | create {s : Session} {id : GroupId} {group : Group} (resource : Resource) (answer : Option Ref)
    (found : s.store.groups.get? id = some group)
    (room : group.count resource.kind.type < Group.poolLimit) :
    Change s (created id resource answer s)
  | ask {s : Session} {id : GroupId} {group : Group} {shader : AssetId} {ref : Ref}
    (reported : List Uniform) (found : s.store.groups.get? id = some group)
    (own : shaderOf? id group shader = some ref)
    (room : group.count .shaderContext < Group.poolLimit) :
    Change s (asked id (ShaderContext.make shader reported).value ref s)
  | name {s : Session} {group : Group} (asset : AssetId) (name : String)
    (found : s.store.groups.get? asset.group = some group) : Change s (named asset name s)
  | close {s : Session} {id : GroupId} {group : Group}
    (found : s.store.groups.get? id = some group) : Change s (closed id group s)

/-- A session is reached from another by changes. -/
abbrev Changes : Session → Session → Prop := ReflTransGen Change

theorem nextId?_eq_some {id : GroupId} {group : Group} {type : AssetType} {asset : AssetId} :
    group.nextId? id type = some asset ↔ group.count type < Group.poolLimit ∧
      asset = ⟨type, id, Int16.ofNat (group.count type)⟩ := by
  simp only [Group.nextId?, Option.ite_none_right_eq_some, Option.some.injEq]
  exact and_congr_right fun _ => eq_comm

/-- A session goes on by changes, which leave events in the journal of its store. -/
structure Course (s : Session) (events : List Event) (t : Session) : Prop where
  changes : Changes s t
  journal : Journal s.store events t.store

theorem Course.refl (s : Session) : Course s [] s := ⟨.refl, .nil⟩

theorem Course.trans {s t u : Session} {events more : List Event} (first : Course s events t)
    (rest : Course t more u) : Course s (events ++ more) u :=
  ⟨first.changes.trans rest.changes, first.journal.append rest.journal⟩

theorem Course.single {s t : Session} {event : Event} (change : Change s t)
    (admitted : event.Admitted s.store) (applied : t.store = event.apply s.store) :
    Course s [event] t := ⟨.single change, applied ▸ .single admitted⟩

theorem course_push (backend : Backend) (id : GroupId) (resource : Resource) (s : Session) :
    Course s (pushEvents backend id resource s) (eval (push backend id resource) s).2 := by
  rw [pushEvents, eval_push]
  cases found : s.store.groups.get? id with
  | none => exact .refl s
  | some group =>
    dsimp only
    cases next : group.nextId? id resource.kind.type with
    | none => exact .refl s
    | some asset =>
      dsimp only
      obtain ⟨room, rfl⟩ := nextId?_eq_some.1 next
      cases backend.create s.calls resource with
      | none => exact ⟨.single (.create resource none found room), .nil⟩
      | some ref =>
        exact .single (.create resource (some ref) found room) ⟨group, found, next⟩ rfl

theorem shader_of_shaderOf? {s : Session} {id : GroupId} {group : Group} {shader : AssetId}
    {ref : Ref} (found : s.store.groups.get? id = some group)
    (own : shaderOf? id group shader = some ref) : s.store.resource? .shader shader = some ref := by
  rw [shaderOf?] at own
  split at own
  · rename_i fits
    obtain ⟨rfl, typed⟩ := fits
    have typed : shader.type = ResourceKind.shader.type := typed
    rw [resource?, if_pos typed, found]
    exact own
  · cases own

theorem course_pushContext (backend : Backend) (id : GroupId) (shader : AssetId) (s : Session) :
    Course s (contextEvents backend id shader s) (eval (pushContext backend id shader) s).2 := by
  rw [contextEvents, eval_pushContext]
  cases found : s.store.groups.get? id with
  | none => exact .refl s
  | some group =>
    dsimp only
    cases own : shaderOf? id group shader with
    | none => exact .refl s
    | some ref =>
      dsimp only
      cases next : group.nextId? id .shaderContext with
      | none => exact .refl s
      | some asset =>
        obtain ⟨room, rfl⟩ := nextId?_eq_some.1 next
        rw [shader_of_shaderOf? found own]
        exact .single (.ask _ found own room) ⟨group, found, next⟩ rfl

theorem course_nameAsset (asset : AssetId) (name : String) (s : Session) :
    Course s (nameEvents asset name s) (eval (nameAsset asset name) s).2 := by
  rw [nameEvents, eval_nameAsset]
  cases found : s.store.groups.get? asset.group with
  | none => exact .refl s
  | some group =>
    dsimp only
    have change : Change s (named asset name s) := .name asset name found
    rw [named] at change ⊢
    split
    · exact .refl s
    · rename_i free
      rw [if_neg free] at change
      exact .single change ⟨⟨group, found⟩, free⟩ rfl

theorem course_andThen {α β : Type} {x : StoreAttempt α} {f : α → StoreAttempt β}
    {first : Session → List Event} {rest : α → Session → List Event} {s : Session}
    (head : Course s (first s) (eval x s).2)
    (tail : ∀ a t, Course t (rest a t) (eval (f a) t).2) :
    Course s (andThen x first rest s) (eval (x >>= f) s).2 := by
  rw [andThen, eval_bind]
  refine head.trans ?_
  cases eval x s with
  | mk result t =>
    cases result with
    | ok a => exact tail a t
    | error e => exact .refl t

theorem course_addRecords (backend : Backend) (id : GroupId) (records : List Package.Record)
    (s : Session) :
    Course s (recordEvents backend id records s) (eval (addRecords backend id records) s).2 := by
  induction records generalizing s with
  | nil => exact .refl s
  | cons record rest ih =>
    rw [eval_addRecords_cons]
    refine course_andThen (course_push backend id _ s) fun asset t => ?_
    exact course_andThen (course_nameAsset asset _ t) fun _ u => ih u

theorem course_loadPackage (backend : Backend) (files : FileTree) (id : GroupId) (path : Path)
    (s : Session) : Course s (loadEvents backend files id path s)
      (eval (loadPackage backend files id path) s).2 := by
  rw [loadEvents, eval_loadPackage]
  cases s.store.groups.get? id with
  | none => exact .refl s
  | some group =>
    dsimp only
    cases (Package.readFrom files path).run.value with
    | error error => exact .refl s
    | ok records => exact course_addRecords backend id records s

theorem course_destroyGroups (ids : List GroupId) (s : Session) :
    Course s (closeEvents ids s) (after (ids.forM destroyGroup) s) := by
  rw [after_forM]
  induction ids generalizing s with
  | nil => exact .refl s
  | cons id ids ih =>
    rw [closeEvents, List.foldl_cons]
    refine Course.trans ?_ (ih _)
    rw [after_destroyGroup]
    cases found : s.store.groups.get? id with
    | none => exact .refl s
    | some group => exact .single (.close found) ⟨group, found⟩ rfl

/-- Every operation but the making of a group comes down to changes. -/
theorem course_perform (backend : Backend) (files : FileTree) {operation : Operation}
    (old : ∀ name, operation ≠ .createGroup name) (s : Session) :
    Course s (events backend files operation s) (after (perform backend files operation) s) := by
  cases operation with
  | createGroup name => exact absurd rfl (old name)
  | destroyGroup id => exact course_destroyGroups [id] s
  | destroyAll => exact course_destroyGroups _ s
  | push id resource =>
    rw [perform, after_reply]
    exact course_push backend id resource s
  | pushContext id shader =>
    rw [perform, after_reply]
    exact course_pushContext backend id shader s
  | pushContextOf id shader =>
    rw [perform, after_reply]
    exact course_andThen (course_push backend id _ s) (course_pushContext backend id)
  | nameAsset asset name =>
    rw [perform, after_reply]
    exact course_nameAsset asset name s
  | loadPackage id path =>
    rw [perform, after_reply]
    exact course_loadPackage backend files id path s
  | resource | context | location | find | groupName | assetCount => exact .refl s

theorem changes_perform (backend : Backend) (files : FileTree) {operation : Operation}
    (old : ∀ name, operation ≠ .createGroup name) (s : Session) :
    Changes s (after (perform backend files operation) s) :=
  (course_perform backend files old s).changes

theorem journal_perform (backend : Backend) (files : FileTree) (operation : Operation)
    (s : Session) : Journal s.store (events backend files operation s)
      (after (perform backend files operation) s).store := by
  by_cases new : ∃ name, operation = .createGroup name
  · obtain ⟨name, rfl⟩ := new
    exact .single rfl
  · exact (course_perform backend files (fun name same => new ⟨name, same⟩) s).journal

/-- The store after a run is what comes of its history. -/
theorem journal_run (steps : List Step) (s : Session) :
    Journal s.store (history steps s) (after (run steps) s).store := by
  induction steps generalizing s with
  | nil => exact .nil
  | cons step steps ih =>
    rw [after_run_cons]
    exact (journal_perform step.backend step.files step.operation s).append (ih _)

end AssetPack.Store

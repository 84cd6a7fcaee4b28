import Mathlib.Data.List.DropRight
import AssetPack.Proofs.Store.Failing

/-! Assets which are added one at a time: when that fails, what it leaves behind, and under which
handles they are added. In each pool of a group the handles count up from 0. -/

namespace AssetPack

/-- The handles of the first assets of a pool. -/
def Pool.handles (pool : Pool) (id : GroupId) (count : Nat) : List AssetId :=
  (List.range count).map fun index => ⟨pool.type, id, Int16.ofNat index⟩

theorem Group.handles_held (id : GroupId) (group : Group) (pool : Pool) :
    (group.held id pool).map Prod.fst = pool.handles id (group.contents pool).length := by
  apply List.ext_getElem
  · simp [held, Pool.handles]
  · intro index less less'
    simp [held, Pool.handles]

namespace Store
open Process

/-! The assets of a group, from its history. -/

def Event.makes (id : GroupId) : Event → Bool
  | made other _ => other = id
  | _ => false

/-- What happened since the group with the number was made, the last time that one was. -/
def sinceMade (id : GroupId) (history : List Event) : List Event :=
  history.rtakeWhile (!Event.makes id ·)

/-- The handles under which assets were added to a pool of the group with the number, since that
group was made. -/
def pushed (id : GroupId) (pool : Pool) (history : List Event) : List AssetId :=
  ((additions (sinceMade id history)).filter (AddedTo id pool)).map Prod.fst

theorem sinceMade_other {id : GroupId} {event : Event} (other : event.makes id = false)
    (history : List Event) : sinceMade id (history ++ [event]) = sinceMade id history ++ [event] :=
  List.rtakeWhile_concat_pos _ _ _ (by rw [other]; rfl)

theorem sinceMade_made (id : GroupId) (name : String) (history : List Event) :
    sinceMade id (history ++ [.made id name]) = [] :=
  List.rtakeWhile_concat_neg _ _ _ (by simp [Event.makes])

theorem additions_sinceMade {id : GroupId} {event : Event} (other : event.makes id = false)
    (none : event.addition? = none) (history : List Event) :
    additions (sinceMade id (history ++ [event])) = additions (sinceMade id history) := by
  rw [sinceMade_other other, additions_other _ none]

theorem Keeps.pushed_eq {id : GroupId} {group : Group} {history : List Event}
    (keeps : Keeps (sinceMade id history) id group) (pool : Pool) :
    pushed id pool history = pool.handles id (group.contents pool).length := by
  rw [pushed, (keeps pool).2, Group.handles_held]

/-- A store whose history is known, however many groups were made in it: the groups hold what was
added to them since they were made, and handles count up in groups which are gone as well. -/
structure Filled (history : List Event) (store : Store) : Prop where
  keeps : ∀ id group, store.groups.get? id = some group → Keeps (sinceMade id history) id group
  dense : ∀ id pool, ∃ count ≤ Group.poolLimit, pushed id pool history = pool.handles id count

namespace Filled
variable {history : List Event} {store : Store}

theorem start : Filled [] .empty where
  keeps _ _ found := by cases found
  dense _ _ := ⟨0, Nat.zero_le _, rfl⟩

theorem make (filled : Filled history store) (id : GroupId) (name : String) :
    Filled (history ++ [.made id name]) (Event.apply store (.made id name)) := by
  have other {other : GroupId} (ne : other ≠ id) : Event.makes other (.made id name) = false :=
    decide_eq_false (Ne.symm ne)
  constructor
  · intro other' group found
    change (store.groups.insert _ _).get? other' = some group at found
    rw [Table.get?_insert] at found
    split at found
    · rename_i same
      cases found
      rw [same, sinceMade_made]
      intro pool
      rw [Group.held, Group.contents_new]
      exact ⟨Nat.zero_le _, rfl⟩
    · rename_i ne
      exact (filled.keeps other' group found).congr (fun _ => rfl)
        (additions_sinceMade (other ne) rfl history)
  · intro other' pool
    by_cases same : other' = id
    · rw [pushed, same, sinceMade_made]
      exact ⟨0, Nat.zero_le _, rfl⟩
    · rw [pushed, additions_sinceMade (other same) rfl]
      exact filled.dense other' pool

theorem add (filled : Filled history store) {asset : AssetId} {content : Content}
    (admitted : Event.Admitted store (.added asset content)) :
    Filled (history ++ [.added asset content]) (Event.apply store (.added asset content)) := by
  obtain ⟨group, found, next⟩ := admitted
  have keeps : Keeps (sinceMade asset.group (history ++ [.added asset content])) asset.group
      (group.add content) := by
    rw [sinceMade_other rfl]
    exact (filled.keeps _ group found).add next
  constructor
  · intro other group' found'
    change (store.groups.update _ _).get? other = some group' at found'
    rw [Table.get?_update] at found'
    split at found'
    · rename_i same
      subst same
      rw [found] at found'
      cases found'
      exact keeps
    · rename_i ne
      rw [sinceMade_other rfl]
      exact (filled.keeps other group' found').elsewhere (Ne.symm ne)
  · intro other pool
    by_cases same : other = asset.group
    · subst same
      exact ⟨_, (keeps pool).1, keeps.pushed_eq pool⟩
    · rw [pushed, sinceMade_other rfl, additions_added, List.filter_append, filter_addedTo,
        if_neg fun within => same within.1.symm, List.append_nil]
      exact filled.dense other pool

/-- An event which makes no group and adds nothing, and leaves the pools of the groups which remain
as they are. -/
theorem keep (filled : Filled history store) {event : Event} {store' : Store}
    (other : ∀ id, event.makes id = false) (none : event.addition? = none)
    (groups : ∀ id group', store'.groups.get? id = some group' →
      ∃ group, store.groups.get? id = some group ∧
        ∀ pool, group'.contents pool = group.contents pool) :
    Filled (history ++ [event]) store' := by
  constructor
  · intro id group' found'
    obtain ⟨group, found, contents⟩ := groups id group' found'
    exact (filled.keeps id group found).congr contents
      (additions_sinceMade (other id) none history)
  · intro id pool
    rw [pushed, additions_sinceMade (other id) none]
    exact filled.dense id pool

theorem apply (filled : Filled history store) {event : Event} (admitted : event.Admitted store) :
    Filled (history ++ [event]) (event.apply store) := by
  cases event with
  | made id name => exact filled.make id name
  | added asset content => exact filled.add admitted
  | named asset name =>
    refine filled.keep (fun _ => rfl) rfl fun id group' found' => ?_
    change (store.groups.update _ _).get? id = some group' at found'
    rw [Table.get?_update] at found'
    split at found'
    · obtain ⟨group, found, rfl⟩ := Option.map_eq_some_iff.1 found'
      exact ⟨group, found, Group.contents_setName group name asset⟩
    · exact ⟨group', found', fun _ => rfl⟩
  | closed id =>
    refine filled.keep (fun _ => rfl) rfl fun other group' found' => ?_
    change (store.groups.erase id).get? other = some group' at found'
    rw [Table.get?_erase] at found'
    split at found'
    · cases found'
    · exact ⟨group', found', fun _ => rfl⟩

theorem journal (filled : Filled history store) {events : List Event} {store' : Store}
    (journal : Journal store events store') : Filled (history ++ events) store' := by
  induction journal generalizing history with
  | nil => simpa using filled
  | cons admitted rest ih => simpa using ih (filled.apply admitted)

end Filled

theorem filled_run (steps : List Step) :
    Filled (history steps .start) (after (run steps) .start).store :=
  Filled.start.journal (journal_run steps .start)

theorem Filled.length_contents {history : List Event} {store : Store}
    (filled : Filled history store) {id : GroupId} {group : Group}
    (found : store.groups.get? id = some group) (pool : Pool) :
    (group.contents pool).length = (pushed id pool history).length := by
  rw [(filled.keeps id group found).pushed_eq pool, Pool.handles, List.length_map,
    List.length_range]

/-! What adding one asset comes to. -/

/-- One pool of one group is longer by one entry at its end, and nothing else has changed. -/
structure Adds (id : GroupId) (content : Content) (store store' : Store) : Prop where
  next : store'.next = store.next
  others : ∀ other ≠ id, store'.groups.get? other = store.groups.get? other
  group : ∃ group group', store.groups.get? id = some group ∧
    store'.groups.get? id = some group' ∧
    group'.name = group.name ∧ group'.names = group.names ∧
    group'.contents content.pool = group.contents content.pool ++ [content] ∧
    ∀ pool ≠ content.pool, group'.contents pool = group.contents pool

theorem adds_updateGroup {store : Store} {id : GroupId} {group : Group}
    (found : store.groups.get? id = some group) (content : Content) :
    Adds id content store (store.updateGroup id (Group.add content)) where
  next := rfl
  others other ne := by rw [updateGroup, Table.get?_update, if_neg ne]
  group := by
    refine ⟨group, group.add content, found, get?_updateGroup found _, group.name_add content,
      group.names_add content, ?_, ?_⟩
    · rw [Group.contents_add, if_pos rfl]
    · intro pool ne
      rw [Group.contents_add, if_neg ne]

/-- What adding a resource to a group comes to, after so many were added to the same pool before:
the reply, the session which it leaves, and what happened to the store. -/
inductive Pushes (backend : Backend) (id : GroupId) (resource : Resource) (earlier : Nat)
    (s : Session) : Reply × Session → List Event → Prop
  | unknownGroup (missing : s.store.groups.get? id = none) :
    Pushes backend id resource earlier s (.failed (.unknownGroup id), s) []
  | poolFull {group : Group} (found : s.store.groups.get? id = some group)
    (full : group.count resource.kind.type = Group.poolLimit) :
    Pushes backend id resource earlier s (.failed (.poolFull id resource.kind.type), s) []
  | refused {group : Group} {t : Session} (found : s.store.groups.get? id = some group)
    (room : group.count resource.kind.type < Group.poolLimit)
    (refuses : backend.create s.calls resource = none)
    (calls : t.calls = .create resource none :: s.calls) (same : Unchanged s t) :
    Pushes backend id resource earlier s (.failed (.backend id resource.kind.type), t) []
  | added {group : Group} {t : Session} {asset : AssetId} {ref : Ref}
    (found : s.store.groups.get? id = some group)
    (room : group.count resource.kind.type < Group.poolLimit)
    (gives : backend.create s.calls resource = some ref)
    (calls : t.calls = .create resource (some ref) :: s.calls)
    (adds : Adds id (.resource resource.kind ref) s.store t.store)
    (lives : live t.calls = live s.calls ++ [(resource.kind, ref)])
    (type : asset.type = resource.kind.type) (within : asset.group = id)
    (slot : asset.slot? = some earlier) :
    Pushes backend id resource earlier s (.asset asset, t)
      [.added asset (.resource resource.kind ref)]

/-- Whether the handle stands for a shader of the group. -/
def Stands (id : GroupId) (group : Group) (shader : AssetId) : Prop :=
  shader.type = .shader ∧ shader.group = id ∧
    ∃ index < group.count .shader, shader.slot? = some index

/-- What adding a context to a group comes to, after so many were added to it before. -/
inductive PushesContext (backend : Backend) (id : GroupId) (shader : AssetId) (earlier : Nat)
    (s : Session) : Reply × Session → List Event → Prop
  | unknownGroup (missing : s.store.groups.get? id = none) :
    PushesContext backend id shader earlier s (.failed (.unknownGroup id), s) []
  | invalidShader {group : Group} (found : s.store.groups.get? id = some group)
    (invalid : ¬ Stands id group shader) :
    PushesContext backend id shader earlier s (.failed (.invalidShader id shader), s) []
  | poolFull {group : Group} (found : s.store.groups.get? id = some group)
    (stands : Stands id group shader) (full : group.count .shaderContext = Group.poolLimit) :
    PushesContext backend id shader earlier s (.failed (.poolFull id .shaderContext), s) []
  | added {group : Group} {t : Session} {asset : AssetId} {context : ShaderContext} {ref : Ref}
    (found : s.store.groups.get? id = some group) (stands : Stands id group shader)
    (room : group.count .shaderContext < Group.poolLimit)
    (shaderRef : s.store.resource? .shader shader = some ref)
    (made : context = (ShaderContext.make shader (backend.uniforms s.calls ref)).value)
    (calls : t.calls = .uniforms ref :: s.calls)
    (adds : Adds id (.context context) s.store t.store) (lives : live t.calls = live s.calls)
    (type : asset.type = .shaderContext) (within : asset.group = id)
    (slot : asset.slot? = some earlier) :
    PushesContext backend id shader earlier s (.asset asset, t) [.added asset (.context context)]

theorem exists_shaderOf?_iff {id : GroupId} {group : Group} {shader : AssetId} :
    (∃ ref, shaderOf? id group shader = some ref) ↔ Stands id group shader := by
  simp only [shaderOf?, Option.ite_none_right_eq_some, Option.bind_eq_some_iff]
  constructor
  · rintro ⟨ref, ⟨within, typed⟩, index, slot, there⟩
    exact ⟨typed, within, index, (Array.getElem?_eq_some_iff.1 there).1, slot⟩
  · rintro ⟨typed, within, index, less, slot⟩
    exact ⟨group.shaders[index], ⟨within, typed⟩, index, slot, Array.getElem?_eq_getElem less⟩

section pushing
variable {backend : Backend} {files : FileTree} {id : GroupId} {s : Session} {earlier : Nat}

/-- The handle of the next asset counts those before it, for which there is room. -/
theorem slot?_of_nextId? {group : Group} {type : AssetType} {asset : AssetId}
    (next : group.nextId? id type = some asset) : asset.slot? = some (group.count type) := by
  obtain ⟨room, rfl⟩ := nextId?_eq_some.1 next
  exact AssetId.slot?_eq_some.2 ⟨room, rfl⟩

/-- A pool which is not too long and has no next handle is full. -/
theorem count_of_nextId? {group : Group} {type : AssetType}
    (none : group.nextId? id type = none) (most : group.count type ≤ Group.poolLimit) :
    group.count type = Group.poolLimit := by
  refine Nat.le_antisymm most (Nat.le_of_not_lt fun room => ?_)
  rw [nextId?_eq_some.2 ⟨room, rfl⟩] at none
  cases none

theorem pushes {resource : Resource} (most : earlier ≤ Group.poolLimit)
    (counted : ∀ group, s.store.groups.get? id = some group →
      group.count resource.kind.type = earlier) :
    Pushes backend id resource earlier s (outcome (perform backend files (.push id resource)) s)
      (events backend files (.push id resource) s) := by
  rw [perform, outcome_reply, events, pushEvents, eval_push]
  cases found : s.store.groups.get? id with
  | none => exact .unknownGroup found
  | some group =>
    dsimp only
    have count := counted group found
    cases next : group.nextId? id resource.kind.type with
    | none => exact .poolFull found (count_of_nextId? next (count.trans_le most))
    | some asset =>
      obtain ⟨room, same⟩ := nextId?_eq_some.1 next
      cases given : backend.create s.calls resource with
      | none => exact .refused found room given rfl (unchanged_created id resource s)
      | some ref =>
        exact .added found room given rfl (adds_updateGroup found (.resource resource.kind ref))
          rfl (congrArg AssetId.type same) (congrArg AssetId.group same)
          ((slot?_of_nextId? next).trans (congrArg some count))

theorem pushesContext {shader : AssetId} (most : earlier ≤ Group.poolLimit)
    (counted : ∀ group, s.store.groups.get? id = some group →
      group.count .shaderContext = earlier) :
    PushesContext backend id shader earlier s
      (outcome (perform backend files (.pushContext id shader)) s)
      (events backend files (.pushContext id shader) s) := by
  rw [perform, outcome_reply, events, contextEvents, eval_pushContext]
  cases found : s.store.groups.get? id with
  | none => exact .unknownGroup found
  | some group =>
    dsimp only
    have count := counted group found
    cases own : shaderOf? id group shader with
    | none =>
      refine .invalidShader found fun stands => ?_
      obtain ⟨ref, own'⟩ := exists_shaderOf?_iff.2 stands
      cases own.symm.trans own'
    | some ref =>
      have stands := exists_shaderOf?_iff.1 ⟨ref, own⟩
      dsimp only
      cases next : group.nextId? id .shaderContext with
      | none => exact .poolFull found stands (count_of_nextId? next (count.trans_le most))
      | some asset =>
        obtain ⟨room, same⟩ := nextId?_eq_some.1 next
        have shaderRef := shader_of_shaderOf? found own
        dsimp only
        rw [shaderRef]
        exact .added found stands room shaderRef rfl rfl (adds_updateGroup found (.context _)) rfl
          (congrArg AssetId.type same) (congrArg AssetId.group same)
          ((slot?_of_nextId? next).trans (congrArg some count))

end pushing

/-- After every run, and for every group: what adding a resource or a context comes to, where the
handle counts what was added to the same pool before. So the handles of a pool are the first ones of
its type, without gaps. -/
theorem pushes_run (steps : List Step) (backend : Backend) (files : FileTree) (id : GroupId) :
    (∀ resource, Pushes backend id resource
      (pushed id (.resources resource.kind) (history steps .start)).length
      (after (run steps) .start)
      (outcome (perform backend files (.push id resource)) (after (run steps) .start))
      (events backend files (.push id resource) (after (run steps) .start))) ∧
    (∀ shader, PushesContext backend id shader
      (pushed id .contexts (history steps .start)).length
      (after (run steps) .start)
      (outcome (perform backend files (.pushContext id shader)) (after (run steps) .start))
      (events backend files (.pushContext id shader) (after (run steps) .start))) ∧
    ∀ pool, ∃ count ≤ Group.poolLimit,
      pushed id pool (history steps .start) = pool.handles id count := by
  have filled := filled_run steps
  have most (pool : Pool) : (pushed id pool (history steps .start)).length ≤ Group.poolLimit := by
    obtain ⟨count, most, dense⟩ := filled.dense id pool
    rw [dense, Pool.handles, List.length_map, List.length_range]
    exact most
  have counted (pool : Pool) (group : Group)
      (found : (after (run steps) .start).store.groups.get? id = some group) :
      group.count pool.type = (pushed id pool (history steps .start)).length := by
    rw [Group.count_pool, filled.length_contents found]
  exact ⟨fun resource => pushes (most _) (counted (.resources resource.kind)),
    fun shader => pushesContext (most _) (counted .contexts), filled.dense id⟩

end Store

end AssetPack

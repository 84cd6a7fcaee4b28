import AssetPack.Proofs.Store.Numbering
import AssetPack.Proofs.Store.Recorded

/-! Handles of assets: each one stands for what was added under it until its group is destroyed, it
never stands for anything else, and nothing else is ever added under it. -/

namespace AssetPack.Store
open Process

/-! Which groups exist. -/

theorem Journal.isSome_get? {store store' : Store} {events : List Event}
    (journal : Journal store events store') (fills : ∀ event ∈ events, event.fills = true)
    (id : GroupId) : (store'.groups.get? id).isSome = (store.groups.get? id).isSome := by
  induction journal with
  | nil => rfl
  | @cons store store' event events admitted rest ih =>
    refine (ih fun event mem => fills event (List.mem_cons_of_mem _ mem)).trans ?_
    have fills := fills event List.mem_cons_self
    cases event with
    | made | closed => cases fills
    | added | named =>
      change ((store.groups.update _ _).get? id).isSome = _
      rw [Table.get?_update]
      split
      · exact Option.isSome_map
      · rfl

theorem Journal.isSome_of_added {store store' : Store} {events : List Event}
    (journal : Journal store events store') (fills : ∀ event ∈ events, event.fills = true)
    {asset : AssetId} {content : Content} (mem : .added asset content ∈ events) :
    (store.groups.get? asset.group).isSome = true := by
  induction journal with
  | nil => cases mem
  | cons admitted rest ih =>
    rcases List.mem_cons.1 mem with rfl | mem
    · obtain ⟨group, found, -⟩ := admitted
      rw [found]
      rfl
    · have there := ih (fun event mem => fills event (List.mem_cons_of_mem _ mem)) mem
      rw [(Journal.single admitted).isSome_get?] at there
      · exact there
      · intro event only
        rw [List.mem_singleton.1 only]
        exact fills _ List.mem_cons_self

theorem fills_of_added {backend : Backend} {files : FileTree} {operation : Operation}
    {s : Session} {asset : AssetId} {content : Content}
    (mem : .added asset content ∈ events backend files operation s) :
    operation.fills = true := by
  have notClosed (ids : List GroupId) : Event.added asset content ∉ closeEvents ids s := by
    intro mem
    obtain ⟨id, closed⟩ := closed_closeEvents _ mem
    cases closed
  cases operation with
  | createGroup name => cases List.mem_singleton.1 mem
  | destroyGroup id => exact absurd mem (notClosed [id])
  | destroyAll => exact absurd mem (notClosed _)
  | _ => rfl

/-- A group to which something is added is there before and after. -/
theorem isSome_of_added (step : Step) {s : Session} {asset : AssetId} {content : Content}
    (mem : .added asset content ∈ step.events s) :
    ((step.after s).store.groups.get? asset.group).isSome = true := by
  have fills : ∀ event ∈ step.events s, event.fills = true := fills_events (fills_of_added mem)
  have journal := journal_perform step.backend step.files step.operation s
  exact (journal.isSome_get? fills asset.group).trans (journal.isSome_of_added fills mem)

theorem get?_destroyAll (s : Session) (id : GroupId) :
    (after destroyAll s).store.groups.get? id = none := by
  rw [Table.get?_eq_none_iff, Table.keys, entries_destroyAll]
  exact List.not_mem_nil

/-- Groups which were made stay until they are destroyed. -/
theorem isSome_perform (backend : Backend) (files : FileTree) (operation : Operation) {s : Session}
    {id : GroupId} (made : id ≠ ⟨s.store.next⟩) :
    ((after (perform backend files operation) s).store.groups.get? id).isSome =
      ((s.store.groups.get? id).isSome && !operation.destroys id) := by
  by_cases fills : operation.fills = true
  · have other : operation.destroys id = false := by
      cases operation with
      | createGroup | destroyGroup | destroyAll => cases fills
      | _ => rfl
    rw [other, Bool.not_false, Bool.and_true]
    exact (journal_perform backend files operation s).isSome_get? (fills_events fills) id
  · cases operation with
    | createGroup name =>
      change ((s.store.groups.insert _ _).get? id).isSome = _
      rw [Table.get?_insert, if_neg made]
      exact (Bool.and_true _).symm
    | destroyGroup other =>
      have gone := get?_destroyGroups [other] s id
      change (after (destroyGroup other) s).store.groups.get? id = _ at gone
      change ((after (destroyGroup other) s).store.groups.get? id).isSome =
        ((s.store.groups.get? id).isSome && !decide (other = id))
      rw [gone]
      by_cases same : id = other
      · simp [same]
      · simp [same, Ne.symm same]
    | destroyAll =>
      change ((after destroyAll s).store.groups.get? id).isSome = _
      rw [get?_destroyAll]
      exact (Bool.and_false _).symm
    | _ => exact absurd rfl fills

theorem isSome_run (steps : List Step) {s : Session} {m n : Nat}
    (next : s.store.next = Int32.ofNat n) (less : m < n)
    (few : n + steps.countP (·.operation.makesGroup) ≤ 2 ^ 31) :
    ((after (run steps) s).store.groups.get? ⟨Int32.ofNat m⟩).isSome =
      ((s.store.groups.get? ⟨Int32.ofNat m⟩).isSome &&
        steps.all fun step => !step.operation.destroys ⟨Int32.ofNat m⟩) := by
  induction steps generalizing s n with
  | nil => exact (Bool.and_true _).symm
  | cons step steps ih =>
    rw [List.countP_cons, Nat.add_comm (List.countP _ _), ← Nat.add_assoc] at few
    have made : (⟨Int32.ofNat m⟩ : GroupId) ≠ ⟨s.store.next⟩ := by
      rw [next]
      intro same
      exact Nat.ne_of_lt less (GroupId.ofNat_inj (by omega) (by omega) same)
    have more : (step.after s).store.next = _ :=
      next_perform step.backend step.files step.operation next
    rw [after_run_cons, ih more (Nat.lt_add_right _ less) few, List.all_cons, ← Bool.and_assoc]
    exact congrArg (· && _) (isSome_perform _ _ _ made)

/-! What is returned. -/

/-- The group and the pool of which the operation returns a new handle. -/
def Operation.target? : Operation → Option (GroupId × Pool)
  | push id given => some (id, .resources given.kind)
  | pushContext id _ | pushContextOf id _ => some (id, .contexts)
  | _ => none

theorem mem_pushEvents {backend : Backend} {id : GroupId} {resource : Resource} {s : Session}
    {asset : AssetId} (pushed : (eval (push backend id resource) s).1 = .ok asset) :
    asset.group = id ∧
      ∃ ref, .added asset (.resource resource.kind ref) ∈ pushEvents backend id resource s := by
  obtain ⟨group, ref, found, next, given⟩ := push_eq_ok pushed
  rw [pushEvents, pushed, given]
  exact ⟨congrArg AssetId.group (nextId?_eq_some.1 next).2, ref, List.mem_singleton_self _⟩

theorem mem_contextEvents {backend : Backend} {id : GroupId} {shader : AssetId} {s : Session}
    {asset : AssetId} (pushed : (eval (pushContext backend id shader) s).1 = .ok asset) :
    asset.group = id ∧
      ∃ context, .added asset (.context context) ∈ contextEvents backend id shader s := by
  obtain ⟨group, ref, found, own, next⟩ := pushContext_eq_ok pushed
  rw [contextEvents, pushed, shader_of_shaderOf? found own]
  exact ⟨congrArg AssetId.group (nextId?_eq_some.1 next).2, _, List.mem_singleton_self _⟩

/-- A handle which is returned is one under which something was added to its pool. -/
theorem added_of_reply (step : Step) {s : Session} {id : GroupId} {pool : Pool} {asset : AssetId}
    (adds : step.operation.target? = some (id, pool))
    (replied : (outcome (perform step.backend step.files step.operation) s).1 = .asset asset) :
    asset.group = id ∧ ∃ content, content.pool = pool ∧ .added asset content ∈ step.events s := by
  obtain ⟨backend, files, operation⟩ := step
  cases operation with
  | push id resource =>
    cases adds
    obtain ⟨within, ref, mem⟩ := mem_pushEvents (reply_eq_asset replied)
    exact ⟨within, _, rfl, mem⟩
  | pushContext id shader =>
    cases adds
    obtain ⟨within, context, mem⟩ := mem_contextEvents (reply_eq_asset replied)
    exact ⟨within, _, rfl, mem⟩
  | pushContextOf id shader =>
    cases adds
    have pushed := reply_eq_asset replied
    rw [pushContextOf, eval_bind] at pushed
    cases first : eval (push backend id (.shader shader)) s with
    | mk result t =>
      rw [first] at pushed
      cases result with
      | error error => cases pushed
      | ok shaderId =>
        obtain ⟨within, context, mem⟩ := mem_contextEvents pushed
        refine ⟨within, .context context, rfl, List.mem_append_right _ ?_⟩
        rw [first]
        exact mem
  | _ => cases adds

/-- What stands under a handle after more steps is what was added under it. -/
theorem content?_of_added {before later : List Step} {step : Step}
    (few : (before ++ step :: later).countP (·.operation.makesGroup) ≤ 2 ^ 31) {asset : AssetId}
    {content : Content} (mem : .added asset content ∈ step.events (after (run before) .start))
    (pool : Pool) : (after (run (before ++ step :: later)) .start).store.content? pool asset =
      if pool = content.pool ∧ later.all (!·.operation.destroys asset.group)
      then some content else none := by
  have recorded := recorded_run _ few
  rw [List.countP_append, List.countP_cons] at few
  have earlier := (recorded_run before (by omega)).journal
    (journal_perform step.backend step.files step.operation _)
    (by rw [countP_isMade_events]; omega)
  rw [countP_isMade_events] at earlier
  -- The number of the group was given away before the later steps.
  obtain ⟨m, less, number⟩ := (earlier.past asset content
    (mem_additions.2 (List.mem_append_right _ mem))).1
  have stays : ((after (run later) (step.after _)).store.groups.get? _).isSome =
      (((step.after _).store.groups.get? _).isSome && _) :=
    isSome_run later earlier.next less (by omega)
  rw [← number, isSome_of_added step mem, Bool.true_and] at stays
  have there : .added asset content ∈ history (before ++ step :: later) .start := by
    rw [history_append, history]
    exact List.mem_append_right _ (List.mem_append_left _ mem)
  rw [recorded.content?_of_addition (mem_additions.2 there), after_run_append, after_run_cons, stays]

/-- What the handles of a run stand for. -/
structure Handles (steps : List Step) : Prop where
  /-- A handle which is returned is one under which something was added. -/
  returned : ∀ before step later, steps = before ++ step :: later → ∀ id pool asset,
    step.operation.target? = some (id, pool) →
      (outcome (perform step.backend step.files step.operation)
        (after (run before) .start)).1 = .asset asset →
        asset.group = id ∧ ∃ content, content.pool = pool ∧
          .added asset content ∈ step.events (after (run before) .start)
  /-- It stands for what was added under it, in its own pool only, whatever else is done and until
  its group is destroyed. -/
  stable : ∀ before step later, steps = before ++ step :: later → ∀ asset content,
    .added asset content ∈ step.events (after (run before) .start) → ∀ pool,
      (after (run steps) .start).store.content? pool asset =
        if pool = content.pool ∧ later.all (!·.operation.destroys asset.group)
        then some content else none
  nodup : ((additions (history steps .start)).map Prod.fst).Nodup
  /-- No other handle stands for anything, whatever its type, its group and its index are. -/
  added : ∀ pool asset content,
    (after (run steps) .start).store.content? pool asset = some content →
      content.pool = pool ∧ .added asset content ∈ history steps .start ∧
        ((after (run steps) .start).store.groups.get? asset.group).isSome

/-- Handles are stable and no two assets have the same one. Numbers of groups wrap around after the
group which `few` still admits. -/
theorem handles_run (steps : List Step) (few : steps.countP (·.operation.makesGroup) ≤ 2 ^ 31) :
    Handles steps := by
  have recorded := recorded_run steps few
  refine ⟨fun before step later _ id pool asset => added_of_reply step, ?_, recorded.nodup, ?_⟩
  · rintro before step later rfl asset content mem pool
    exact content?_of_added few mem pool
  · intro pool asset content held
    obtain ⟨there, typed, mem⟩ := recorded.content?_eq_some_iff.1 held
    exact ⟨typed, mem_additions.1 mem, there⟩

theorem handles_run_twoGroups :
    twoGroups.countP (·.operation.makesGroup) ≤ 2 ^ 31 ∧
    (after (run twoGroups) .start).store.content? .contexts ⟨.shaderContext, ⟨1⟩, 0⟩ =
      some (.context ⟨⟨.shader, ⟨1⟩, 0⟩, []⟩) ∧
    (after (run twoGroups) .start).store.content? (.resources .shader) ⟨.shaderContext, ⟨1⟩, 0⟩ =
      none ∧
    (after (run twoGroups) .start).store.content? (.resources .buffer) ⟨.buffer, ⟨0⟩, 0⟩ = none := by
  have handles := handles_run twoGroups (by decide)
  have context (pool : Pool) := handles.stable (twoGroups.take 3)
    (countingStep (.pushContextOf ⟨1⟩ (.compute "main"))) (twoGroups.drop 4) rfl
    ⟨.shaderContext, ⟨1⟩, 0⟩ (.context ⟨⟨.shader, ⟨1⟩, 0⟩, []⟩) (by decide +kernel) pool
  have buffer := handles.stable (twoGroups.take 2)
    (countingStep (.push ⟨0⟩ (.buffer ⟨.vertex, [1]⟩))) (twoGroups.drop 3) rfl
    ⟨.buffer, ⟨0⟩, 0⟩ (.resource .buffer ⟨0⟩) (by decide +kernel) (.resources .buffer)
  exact ⟨by decide, context .contexts, context (.resources .shader), buffer⟩

end AssetPack.Store

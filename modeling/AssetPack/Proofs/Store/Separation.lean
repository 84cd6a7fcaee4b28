import AssetPack.Proofs.Store.Confined

/-! Groups do not disturb each other: what an operation on a group comes to does not change when the
operations on other groups are left out. -/

namespace AssetPack.Store
open Process
variable {α : Type} {id : GroupId} {s t : Session}

def Step.reply (step : Step) (s : Session) : Reply :=
  (outcome (perform step.backend step.files step.operation) s).1

theorem Confined.reply {x : StoreAttempt α} {events : Session → List Event}
    (confined : Confined id x events) (success : α → Reply) (alike : Alike id s t) :
    (outcome (reply x success) s).1 = (outcome (Store.reply x success) t).1 := by
  rw [outcome_reply, outcome_reply]
  rcases confined.cases alike with ⟨error, u, v, hs, ht⟩ | ⟨a, u, v, hs, ht, -⟩
  · rw [hs, ht]
  · rw [hs, ht]

theorem isSome_resource?_congr (kind : ResourceKind) {asset : AssetId}
    (alike : Alike asset.group s t) :
    (s.store.resource? kind asset).isSome = (t.store.resource? kind asset).isSome := by
  rw [resource?, resource?]
  split
  · rcases alike.cases with ⟨missing, missing'⟩ | ⟨group, group', found, found', same⟩
    · rw [missing, missing']
    · rw [found, found']
      cases asset.slot? with
      | none => rfl
      | some index => exact isSome_pool_congr same kind index
  · rfl

theorem context?_congr {asset : AssetId} (alike : Alike asset.group s t) :
    s.store.context? asset = t.store.context? asset := by
  rw [context?, context?]
  rcases alike.cases with ⟨missing, missing'⟩ | ⟨group, group', found, found', same⟩
  · rw [missing, missing']
  · rw [found, found']
    simp [contexts_congr same]

theorem value_find_congr (alike : Alike id s t) (name : String) :
    (s.store.find id name).value = (t.store.find id name).value := by
  rw [find, find]
  rcases alike.cases with ⟨missing, missing'⟩ | ⟨group, group', found, found', same⟩
  · rw [missing, missing']
  · rw [found, found']
    dsimp only
    rw [names_congr same]
    cases group'.names.get? name <;> rfl

theorem groupName?_congr (alike : Alike id s t) :
    s.store.groupName? id = t.store.groupName? id := by
  rw [groupName?, groupName?]
  rcases alike.cases with ⟨missing, missing'⟩ | ⟨group, group', found, found', same⟩
  · rw [missing, missing']
  · rw [found, found']
    exact congrArg some (name_congr same)

theorem assetCount_congr (alike : Alike id s t) (type : AssetType) :
    s.store.assetCount id type = t.store.assetCount id type := by
  rw [assetCount, assetCount]
  rcases alike.cases with ⟨missing, missing'⟩ | ⟨group, group', found, found', same⟩
  · rw [missing, missing']
  · rw [found, found']
    exact count_congr same type

/-- Replies to operations on the group are the same, but for the references which they give. -/
theorem reply_congr (step : Step) (steady : step.backend.Steady) (near : step.operation.Near id)
    (alike : Alike id s t) (plain : ∀ kind asset, step.operation ≠ .resource kind asset) :
    step.reply s = step.reply t := by
  obtain ⟨backend, files, operation⟩ := step
  cases operation with
  | createGroup name => exact congrArg (Reply.group ∘ GroupId.mk) alike.next
  | destroyGroup | destroyAll => rfl
  | push other resource =>
    obtain rfl := near.eq rfl
    exact (confined_push steady id resource).reply _ alike
  | pushContext other shader =>
    obtain rfl := near.eq rfl
    exact (confined_pushContext steady id shader).reply _ alike
  | pushContextOf other shader =>
    obtain rfl := near.eq rfl
    exact (confined_pushContextOf steady id shader).reply _ alike
  | resource kind asset => exact absurd rfl (plain kind asset)
  | context asset =>
    obtain rfl := near.eq rfl
    exact congrArg Reply.context (context?_congr alike)
  | location asset uniform =>
    obtain rfl := near.eq rfl
    exact congrArg (fun context : Option ShaderContext =>
      Reply.location (context.map (·.location? uniform))) (context?_congr alike)
  | nameAsset asset name =>
    obtain rfl := near.eq rfl
    exact (confined_nameAsset asset name).reply _ alike
  | find other name =>
    obtain rfl := near.eq rfl
    exact congrArg Reply.asset (value_find_congr alike name)
  | loadPackage other path =>
    obtain rfl := near.eq rfl
    exact (confined_loadPackage steady files id path).reply _ alike
  | groupName other =>
    obtain rfl := near.eq rfl
    exact congrArg Reply.groupName (groupName?_congr alike)
  | assetCount other type =>
    obtain rfl := near.eq rfl
    exact congrArg Reply.count (assetCount_congr alike type)

/-! Runs with and without the operations on other groups. -/

theorem Alike.step {step : Step} (steady : step.backend.Steady) (near : step.operation.Near id)
    (alike : Alike id s t) : Alike id (step.after s) (step.after t) := by
  have journal (s : Session) := journal_perform step.backend step.files step.operation s
  have same := seen_events steady step.files near alike
  have alike' : view id s.store = view id t.store := alike
  change view id _ = view id _
  rw [Step.after, (journal s).view, (journal t).view, same, alike']

theorem Alike.skip {step : Step} (far : ¬ step.operation.Near id) (alike : Alike id s t) :
    Alike id (step.after s) t := by
  have journal := journal_perform step.backend step.files step.operation s
  change view id _ = view id _
  rw [Step.after, journal.view, unseen_events step.backend step.files far s]
  exact alike

/-- What is seen from a group after a run is what would be seen without the other groups. -/
theorem Alike.run (steps : List Step) (steady : ∀ step ∈ steps, step.backend.Steady)
    (alike : Alike id s t) : Alike id (Store.after (run steps) s)
      (Store.after (run (steps.filter (·.operation.Near id))) t) := by
  induction steps generalizing s t with
  | nil => exact alike
  | cons step steps ih =>
    have steady' := steady step List.mem_cons_self
    have rest := fun step mem => steady step (List.mem_cons_of_mem _ mem)
    rw [after_run_cons]
    by_cases near : step.operation.Near id
    · rw [List.filter_cons_of_pos (by simpa using near), after_run_cons]
      exact ih rest (alike.step steady' near)
    · rw [List.filter_cons_of_neg (by simpa using near)]
      exact ih rest (alike.skip near)

/-- What an operation adds to the group it also adds without the other groups, under the same
handle. -/
theorem added_of_alike {step : Step} (steady : step.backend.Steady) {asset : AssetId}
    {kind : ResourceKind} {ref : Ref}
    (mem : .added asset (.resource kind ref) ∈ step.events s) (alike : Alike asset.group s t) :
    step.operation.Near asset.group ∧
      ∃ ref', .added asset (.resource kind ref') ∈ step.events t := by
  have concerns : Event.concerns asset.group (.added asset (.resource kind ref)) = true :=
    decide_eq_true rfl
  have there : Event.added asset (.resource kind ⟨0⟩) ∈ seen asset.group (step.events s) :=
    List.mem_map_of_mem (f := Event.blank) (List.mem_filter.2 ⟨mem, concerns⟩)
  have near : step.operation.Near asset.group := by
    by_contra far
    have unseen : seen asset.group (step.events s) = [] :=
      unseen_events step.backend step.files far s
    rw [unseen] at there
    cases there
  have same : seen asset.group (step.events s) = seen asset.group (step.events t) :=
    seen_events steady step.files near alike
  rw [same] at there
  obtain ⟨event, mem', blank⟩ := List.mem_map.1 there
  refine ⟨near, ?_⟩
  cases event with
  | added asset' content =>
    cases content with
    | resource kind' ref' =>
      cases blank
      exact ⟨ref', (List.mem_filter.1 mem').1⟩
    | context context => cases blank
  | made | named | closed => cases blank

/-! A backend which can be set. -/

/-- What a backend is set to. -/
structure Settings where
  refuses : Bool
  uniforms : List Uniform

/-- What is done in a run: operations, and changes of the settings. -/
inductive Action where
  | operate (operation : Operation)
  | refuse (refuses : Bool)
  | report (uniforms : List Uniform)

def Action.Near (id : GroupId) : Action → Prop
  | operate operation => operation.Near id
  | refuse _ | report _ => True

instance (id : GroupId) : (action : Action) → Decidable (action.Near id)
  | .operate operation => inferInstanceAs (Decidable (operation.Near id))
  | .refuse _ | .report _ => inferInstanceAs (Decidable True)

theorem filter_near {operation : Operation} (near : operation.Near id) (actions : List Action) :
    (Action.operate operation :: actions).filter (·.Near id) =
      .operate operation :: actions.filter (·.Near id) :=
  List.filter_cons_of_pos (decide_eq_true near)

theorem filter_far {operation : Operation} (far : ¬ operation.Near id) (actions : List Action) :
    (Action.operate operation :: actions).filter (·.Near id) = actions.filter (·.Near id) :=
  List.filter_cons_of_neg fun near => far (of_decide_eq_true near)

namespace Settings

def change (settings : Settings) : Action → Settings
  | .operate _ => settings
  | .refuse refuses => { settings with refuses }
  | .report uniforms => { settings with uniforms }

def after (settings : Settings) (actions : List Action) : Settings := actions.foldl change settings

/-- The backend gives any references, but whether it creates and which uniforms it reports depends
on its settings alone. -/
def backend (give : List Call → Resource → Ref) (settings : Settings) : Backend where
  create calls resource := if settings.refuses then none else some (give calls resource)
  uniforms _ _ := settings.uniforms

theorem steady_backend (give : List Call → Resource → Ref) (settings : Settings) :
    (settings.backend give).Steady := by
  refine ⟨fun calls calls' resource => ?_, fun _ _ _ _ => rfl⟩
  by_cases refuses : settings.refuses
  · simp [backend, refuses]
  · simp [backend, refuses]

section actions
variable (give : List Call → Resource → Ref) (files : FileTree)

/-- The steps which some actions come to. -/
def steps : Settings → List Action → List Step
  | _, [] => []
  | settings, .operate operation :: rest =>
    ⟨settings.backend give, files, operation⟩ :: steps settings rest
  | settings, action :: rest => steps (settings.change action) rest

/-- The session after some actions. -/
def session (settings : Settings) (actions : List Action) : Session :=
  Store.after (run (steps give files settings actions)) .start

/-- The step which an operation comes to after some actions. -/
def step (settings : Settings) (before : List Action) (operation : Operation) : Step :=
  ⟨(settings.after before).backend give, files, operation⟩

def replyAfter (settings : Settings) (before : List Action) (operation : Operation) : Reply :=
  (step give files settings before operation).reply (session give files settings before)

def eventsAfter (settings : Settings) (before : List Action) (operation : Operation) : List Event :=
  (step give files settings before operation).events (session give files settings before)

theorem steps_append (settings : Settings) (actions more : List Action) :
    steps give files settings (actions ++ more) =
      steps give files settings actions ++ steps give files (settings.after actions) more := by
  induction actions generalizing settings with
  | nil => rfl
  | cons action actions ih =>
    cases action with
    | operate operation => exact congrArg (List.cons _) (ih settings)
    | refuse | report => exact ih _

theorem steps_filter (id : GroupId) (settings : Settings) (actions : List Action) :
    steps give files settings (actions.filter (·.Near id)) =
      (steps give files settings actions).filter (·.operation.Near id) := by
  induction actions generalizing settings with
  | nil => rfl
  | cons action actions ih =>
    cases action with
    | operate operation =>
      by_cases near : operation.Near id
      · rw [filter_near near, steps, steps, ih]
        rw [List.filter_cons_of_pos (by simpa using near)]
      · rw [filter_far near, steps, ih]
        rw [List.filter_cons_of_neg (by simpa using near)]
    | refuse | report => exact ih _

omit give files in
theorem after_filter (id : GroupId) (settings : Settings) (actions : List Action) :
    settings.after (actions.filter (·.Near id)) = settings.after actions := by
  induction actions generalizing settings with
  | nil => rfl
  | cons action actions ih =>
    cases action with
    | operate operation =>
      by_cases near : operation.Near id
      · rw [filter_near near]
        exact ih settings
      · rw [filter_far near]
        exact ih settings
    | refuse | report => exact ih _

theorem steady_steps (settings : Settings) (actions : List Action) :
    ∀ step ∈ steps give files settings actions, step.backend.Steady := by
  induction actions generalizing settings with
  | nil => exact fun _ mem => by cases mem
  | cons action actions ih =>
    cases action with
    | operate operation =>
      intro step mem
      rcases List.mem_cons.1 mem with rfl | mem
      · exact steady_backend give settings
      · exact ih settings step mem
    | refuse | report => exact ih _

/-- What happens in a run happens in one of its operations. -/
theorem mem_history (settings : Settings) (actions : List Action) {s : Session} {event : Event}
    (mem : event ∈ history (steps give files settings actions) s) : ∃ before operation later,
      actions = before ++ .operate operation :: later ∧ event ∈
        (step give files settings before operation).events
          (Store.after (run (steps give files settings before)) s) := by
  induction actions generalizing settings s with
  | nil => cases mem
  | cons action actions ih =>
    cases action with
    | operate operation =>
      rcases List.mem_append.1 mem with now | mem
      · exact ⟨[], operation, actions, rfl, now⟩
      · obtain ⟨before, operation', later, rfl, there⟩ := ih settings mem
        refine ⟨.operate operation :: before, operation', later, rfl, ?_⟩
        rw [steps, after_run_cons]
        exact there
    | refuse refuses =>
      obtain ⟨before, operation, later, rfl, there⟩ := ih _ mem
      exact ⟨.refuse refuses :: before, operation, later, rfl, there⟩
    | report uniforms =>
      obtain ⟨before, operation, later, rfl, there⟩ := ih _ mem
      exact ⟨.report uniforms :: before, operation, later, rfl, there⟩

theorem alike_session (id : GroupId) (settings : Settings) (actions : List Action) :
    Alike id (session give files settings actions)
      (session give files settings (actions.filter (·.Near id))) := by
  rw [session, session, steps_filter]
  exact Alike.run _ (steady_steps give files settings actions) rfl

/-- One operation on the group gave both references, with the operations on other groups the first
one and without them the second one. -/
def SameOrigin (id : GroupId) (settings : Settings) (actions : List Action) (kind : ResourceKind)
    (asset : AssetId) (ref ref' : Ref) : Prop :=
  ∃ before operation later, actions = before ++ .operate operation :: later ∧ operation.Near id ∧
    .added asset (.resource kind ref) ∈ eventsAfter give files settings before operation ∧
    .added asset (.resource kind ref') ∈
      eventsAfter give files settings (before.filter (·.Near id)) operation

theorem step_filter (id : GroupId) (settings : Settings) (before : List Action)
    (operation : Operation) : step give files settings (before.filter (·.Near id)) operation =
      step give files settings before operation := by
  rw [step, after_filter, step]

/-- What happens in an operation is part of the history of every run which goes on from it. -/
theorem mem_history_of_mem (settings : Settings) {before : List Action} {operation : Operation}
    (later : List Action) {event : Event}
    (mem : event ∈ eventsAfter give files settings before operation) :
    event ∈ history (steps give files settings (before ++ .operate operation :: later)) .start := by
  rw [steps_append, history_append]
  exact List.mem_append_right _ (List.mem_append_left _ mem)

theorem countP_filter (id : GroupId) (settings : Settings) (actions : List Action) :
    (steps give files settings (actions.filter (·.Near id))).countP (·.operation.makesGroup) ≤
      (steps give files settings actions).countP (·.operation.makesGroup) := by
  rw [steps_filter]
  exact List.filter_sublist.countP_le

theorem sameOrigin (settings : Settings) (actions : List Action)
    (few : (steps give files settings actions).countP (·.operation.makesGroup) ≤ 2 ^ 31)
    {kind : ResourceKind} {asset : AssetId} {ref ref' : Ref}
    (held : (session give files settings actions).store.resource? kind asset = some ref)
    (held' : (session give files settings (actions.filter (·.Near asset.group))).store.resource?
      kind asset = some ref') :
    SameOrigin give files asset.group settings actions kind asset ref ref' := by
  have recorded := recorded_run _ few
  have recorded' := recorded_run _ (Nat.le_trans (countP_filter give files asset.group _ _) few)
  have content : (session give files settings actions).store.content? (.resources kind) asset =
      some (.resource kind ref) := congrArg (Option.map _) held
  have content' : (session give files settings (actions.filter (·.Near asset.group))).store.content?
      (.resources kind) asset = some (.resource kind ref') := congrArg (Option.map _) held'
  obtain ⟨-, -, mem⟩ := recorded.content?_eq_some_iff.1 content
  obtain ⟨there', -, -⟩ := recorded'.content?_eq_some_iff.1 content'
  obtain ⟨before, operation, later, rfl, made⟩ :=
    mem_history give files settings actions (mem_additions.1 mem)
  have alike := alike_session give files asset.group settings before
  obtain ⟨near, other, made'⟩ := added_of_alike (steady_backend give _) made alike
  have near : operation.Near asset.group := near
  rw [← step_filter give files asset.group] at made'
  refine ⟨before, operation, later, rfl, near, made, ?_⟩
  -- Nothing else stands under the handle in the run without the other groups.
  have mem' := mem_history_of_mem give files settings (later.filter (·.Near asset.group)) made'
  rw [← filter_near near, ← List.filter_append] at mem'
  have same := recorded'.content?_eq_some_iff.2 ⟨there', rfl, mem_additions.2 mem'⟩
  cases content'.symm.trans same
  exact made'

/-- A lookup of a resource finds nothing in both runs, or references of the same origin. -/
def FoundAlike (id : GroupId) (settings : Settings) (before : List Action) (kind : ResourceKind)
    (asset : AssetId) (reply reply' : Reply) : Prop :=
  reply = .resource none ∧ reply' = .resource none ∨
    ∃ ref ref', reply = .resource (some ref) ∧ reply' = .resource (some ref') ∧
      SameOrigin give files id settings before kind asset ref ref'

/-- An operation on a group replies as if nothing was done to other groups: the same, or for a
lookup of a resource with what is of the same origin. Numbers of groups wrap around after the group
which `few` still admits. -/
theorem separation_run (settings : Settings) (actions : List Action) (id : GroupId)
    (few : (steps give files settings actions).countP (·.operation.makesGroup) ≤ 2 ^ 31)
    (before : List Action) (operation : Operation) (later : List Action)
    (split : actions = before ++ .operate operation :: later) (near : operation.Near id) :
    ((∀ kind asset, operation ≠ .resource kind asset) →
      replyAfter give files settings before operation =
        replyAfter give files settings (before.filter (·.Near id)) operation) ∧
    ∀ kind asset, operation = .resource kind asset →
      FoundAlike give files id settings before kind asset
        (replyAfter give files settings before operation)
        (replyAfter give files settings (before.filter (·.Near id)) operation) := by
  subst split
  rw [steps_append, List.countP_append] at few
  have alike := alike_session give files id settings before
  have steady := steady_backend give (settings.after before)
  constructor
  · intro plain
    rw [replyAfter, replyAfter, step_filter]
    exact reply_congr (step give files settings before operation) steady near alike plain
  · rintro kind asset rfl
    obtain rfl := near.eq rfl
    rcases both_or_none (isSome_resource?_congr kind alike) with
      ⟨missing, missing'⟩ | ⟨ref, ref', held, held'⟩
    · exact .inl ⟨congrArg Reply.resource missing, congrArg Reply.resource missing'⟩
    · refine .inr ⟨ref, ref', congrArg Reply.resource held, congrArg Reply.resource held', ?_⟩
      exact sameOrigin give files settings before (by omega) held held'

end actions

/-- Two groups with a buffer in each. -/
def twoBuffers : List Action :=
  [.operate (.createGroup "level"), .operate (.createGroup "menu"), .report [⟨"tint", 3⟩],
    .operate (.push ⟨0⟩ (.buffer ⟨.vertex, [1]⟩)), .operate (.push ⟨1⟩ (.buffer ⟨.vertex, [2]⟩))]

def number (calls : List Call) (_ : Resource) : Ref := ⟨calls.length⟩

/-- References count the calls of the backend, and so the operations on the other group too. The
next buffer of the group gets the same handle. -/
theorem separation_run_twoBuffers :
    (steps number ⟨.empty, []⟩ ⟨false, []⟩ (twoBuffers ++
      [.operate (.resource .buffer ⟨.buffer, ⟨1⟩, 0⟩)])).countP (·.operation.makesGroup) ≤ 2 ^ 31 ∧
    replyAfter number ⟨.empty, []⟩ ⟨false, []⟩ twoBuffers (.resource .buffer ⟨.buffer, ⟨1⟩, 0⟩) =
      .resource (some ⟨1⟩) ∧
    replyAfter number ⟨.empty, []⟩ ⟨false, []⟩ (twoBuffers.filter (·.Near ⟨1⟩))
      (.resource .buffer ⟨.buffer, ⟨1⟩, 0⟩) = .resource (some ⟨0⟩) ∧
    SameOrigin number ⟨.empty, []⟩ ⟨1⟩ ⟨false, []⟩ twoBuffers .buffer ⟨.buffer, ⟨1⟩, 0⟩ ⟨1⟩
      ⟨0⟩ ∧
    replyAfter number ⟨.empty, []⟩ ⟨false, []⟩ twoBuffers (.push ⟨1⟩ (.buffer ⟨.index, [3]⟩)) =
      replyAfter number ⟨.empty, []⟩ ⟨false, []⟩ (twoBuffers.filter (·.Near ⟨1⟩))
        (.push ⟨1⟩ (.buffer ⟨.index, [3]⟩)) := by
  have with' : replyAfter number ⟨.empty, []⟩ ⟨false, []⟩ twoBuffers
      (.resource .buffer ⟨.buffer, ⟨1⟩, 0⟩) = .resource (some ⟨1⟩) := by decide +kernel
  have without : replyAfter number ⟨.empty, []⟩ ⟨false, []⟩ (twoBuffers.filter (·.Near ⟨1⟩))
      (.resource .buffer ⟨.buffer, ⟨1⟩, 0⟩) = .resource (some ⟨0⟩) := by decide +kernel
  have few : (steps number ⟨.empty, []⟩ ⟨false, []⟩ (twoBuffers ++
      [.operate (.resource .buffer ⟨.buffer, ⟨1⟩, 0⟩)])).countP (·.operation.makesGroup) ≤
        2 ^ 31 := by decide
  have found := (separation_run number ⟨.empty, []⟩ ⟨false, []⟩ _ ⟨1⟩ few twoBuffers _ [] rfl
    (by decide)).2 .buffer ⟨.buffer, ⟨1⟩, 0⟩ rfl
  have pushed := (separation_run number ⟨.empty, []⟩ ⟨false, []⟩ (twoBuffers ++
    [.operate (.push ⟨1⟩ (.buffer ⟨.index, [3]⟩))]) ⟨1⟩ (by decide) twoBuffers _ [] rfl
    (by decide)).1 (fun _ _ same => by cases same)
  rw [with', without] at found
  rcases found with ⟨none, -⟩ | ⟨ref, ref', gives, gives', origin⟩
  · cases none
  · cases gives
    cases gives'
    exact ⟨few, with', without, origin, pushed⟩

end Settings

end AssetPack.Store

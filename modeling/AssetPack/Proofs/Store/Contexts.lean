import AssetPack.Proofs.Store.Handles

/-! Shader contexts and their shaders: as long as a context is found, its shader is the one which it
was made for, and is there. -/

namespace AssetPack.Store
open Process

/-! Where contexts come from. -/

def Event.addsContext : Event → Bool
  | added _ (.context _) => true
  | _ => false

theorem addsContext_pushEvents {backend : Backend} {id : GroupId} {resource : Resource}
    {s : Session} : ∀ event ∈ pushEvents backend id resource s, event.addsContext = false := by
  intro event mem
  rw [pushEvents] at mem
  split at mem
  · obtain ⟨ref, -, rfl⟩ := List.mem_map.1 mem
    rfl
  · cases mem

theorem addsContext_nameEvents {asset : AssetId} {name : String} {s : Session} :
    ∀ event ∈ nameEvents asset name s, event.addsContext = false := by
  intro event mem
  rw [nameEvents] at mem
  split at mem
  · split at mem
    · cases mem
    · rw [List.mem_singleton.1 mem]
      rfl
  · cases mem

theorem addsContext_recordEvents {backend : Backend} {id : GroupId} (records : List Package.Record)
    {s : Session} : ∀ event ∈ recordEvents backend id records s, event.addsContext = false := by
  induction records generalizing s with
  | nil => exact fun _ mem => by cases mem
  | cons record rest ih =>
    exact forall_andThen addsContext_pushEvents fun _ _ =>
      forall_andThen addsContext_nameEvents fun _ _ => ih

theorem addsContext_closeEvents {ids : List GroupId} {s : Session} :
    ∀ event ∈ closeEvents ids s, event.addsContext = false := by
  intro event mem
  obtain ⟨id, rfl⟩ := closed_closeEvents event mem
  rfl

/-- A context is added in a session by asking the backend for the uniforms of its shader. -/
structure Asks (backend : Backend) (s : Session) (id : AssetId) (context : ShaderContext)
    (ref : Ref) : Prop where
  shader : s.store.resource? .shader context.shader = some ref
  within : context.shader.group = id.group
  made : context = (ShaderContext.make context.shader (backend.uniforms s.calls ref)).value
  result : eval (pushContext backend id.group context.shader) s =
    (.ok id, asked id.group context ref s)

theorem asks_of_contextEvents {backend : Backend} {group : GroupId} {shader id : AssetId}
    {context : ShaderContext} {s : Session}
    (mem : .added id (.context context) ∈ contextEvents backend group shader s) :
    group = id.group ∧ shader = context.shader ∧ ∃ ref, Asks backend s id context ref := by
  rw [contextEvents] at mem
  split at mem
  · rename_i asset pushed
    obtain ⟨group', ref, found, own, next⟩ := pushContext_eq_ok pushed
    have there := shader_of_shaderOf? found own
    rw [there] at mem
    cases List.mem_singleton.1 mem
    have within : id.group = group := congrArg AssetId.group (nextId?_eq_some.1 next).2
    subst within
    refine ⟨rfl, rfl, ref, there, ?_, rfl, ?_⟩
    · rw [shaderOf?] at own
      split at own
      · rename_i fits
        exact fits.1
      · cases own
    · change eval (pushContext backend id.group shader) s = _
      rw [eval_pushContext, found]
      dsimp only
      rw [own]
      dsimp only
      rw [next]
  · cases mem

/-- How a context came to stand under its handle: its step returned the handle, and the last thing
the step did with the backend was to ask for the uniforms of the shader. -/
structure Creation (step : Step) (s : Session) (id : AssetId) (context : ShaderContext)
    (ref : Ref) : Prop where
  operation : step.operation = .pushContext id.group context.shader ∨
    ∃ shader, step.operation = .pushContextOf id.group shader
  replied : (outcome (perform step.backend step.files step.operation) s).1 = .asset id
  asked : ∃ earlier, (step.after s).calls = .uniforms ref :: earlier ∧
    context = (ShaderContext.make context.shader (step.backend.uniforms earlier ref)).value
  stands : (step.after s).store.context? id = some context
  shader : (step.after s).store.resource? .shader context.shader = some ref

/-- A step which adds a context asks for the uniforms of its shader at the end, after the shader was
added if it is a new one. -/
theorem asks_of_step {step : Step} {s : Session} {id : AssetId} {context : ShaderContext}
    (mem : .added id (.context context) ∈ step.events s) : ∃ events t ref,
      events <+: step.events s ∧ Journal s.store events t.store ∧
        Asks step.backend t id context ref ∧
        (step.operation = .pushContext id.group context.shader ∨
          ∃ shader, step.operation = .pushContextOf id.group shader) ∧
        outcome (perform step.backend step.files step.operation) s =
          (.asset id, asked id.group context ref t) := by
  obtain ⟨backend, files, operation⟩ := step
  have other (none : ∀ event ∈ events backend files operation s, event.addsContext = false) :
      False := by
    cases none _ mem
  cases operation with
  | pushContext group shader =>
    obtain ⟨rfl, rfl, ref, asks⟩ := asks_of_contextEvents mem
    refine ⟨[], s, ref, List.nil_prefix, .nil, asks, .inl rfl, ?_⟩
    rw [perform, outcome_reply, asks.result]
  | pushContextOf group shader =>
    have course := course_push backend group (.shader shader) s
    cases pushed : eval (push backend group (.shader shader)) s with
    | mk result t =>
      change _ ∈ andThen _ _ _ s at mem
      rw [andThen, pushed] at mem
      rw [pushed] at course
      rcases List.mem_append.1 mem with mem | mem
      · cases addsContext_pushEvents _ mem
      · cases result with
        | error error => cases mem
        | ok asset =>
          obtain ⟨rfl, rfl, ref, asks⟩ := asks_of_contextEvents mem
          refine ⟨_, t, ref, List.prefix_append _ _, course.journal, asks, .inr ⟨shader, rfl⟩, ?_⟩
          rw [perform, outcome_reply, pushContextOf, eval_bind, pushed]
          dsimp only
          rw [asks.result]
  | createGroup name => cases List.mem_singleton.1 mem
  | destroyGroup group => exact (other addsContext_closeEvents).elim
  | destroyAll => exact (other addsContext_closeEvents).elim
  | push group resource => exact (other addsContext_pushEvents).elim
  | nameAsset asset name => exact (other addsContext_nameEvents).elim
  | loadPackage group path =>
    refine (other fun event mem => ?_).elim
    change event ∈ loadEvents backend files group path s at mem
    rw [loadEvents] at mem
    split at mem
    · exact addsContext_recordEvents _ event mem
    · cases mem
  | resource | context | location | find | groupName | assetCount => cases mem

theorem Recorded.resource?_eq_some_iff {n : Nat} {history : List Event} {store : Store}
    (recorded : Recorded n history store) {kind : ResourceKind} {asset : AssetId} {ref : Ref} :
    store.resource? kind asset = some ref ↔ (store.groups.get? asset.group).isSome = true ∧
      (asset, .resource kind ref) ∈ additions history := by
  have held : store.resource? kind asset = some ref ↔
      store.content? (.resources kind) asset = some (.resource kind ref) := by
    rw [content?, Option.map_eq_some_iff]
    constructor
    · intro found
      exact ⟨ref, found, rfl⟩
    · rintro ⟨_, found, same⟩
      cases same
      exact found
  rw [held, recorded.content?_eq_some_iff]
  exact and_congr_right fun _ => and_iff_right rfl

theorem Recorded.context?_eq_some_iff {n : Nat} {history : List Event} {store : Store}
    (recorded : Recorded n history store) {asset : AssetId} {context : ShaderContext} :
    store.context? asset = some context ↔ (store.groups.get? asset.group).isSome = true ∧
      (asset, .context context) ∈ additions history := by
  have held : store.context? asset = some context ↔
      store.content? .contexts asset = some (.context context) := by
    rw [content?, Option.map_eq_some_iff]
    constructor
    · intro found
      exact ⟨context, found, rfl⟩
    · rintro ⟨_, found, same⟩
      cases same
      exact found
  rw [held, recorded.content?_eq_some_iff]
  exact and_congr_right fun _ => and_iff_right rfl

/-- The shader of a context was added before the context. -/
theorem shader_of_context {before : List Step} {step : Step} {id : AssetId}
    {context : ShaderContext}
    (few : (before ++ [step]).countP (·.operation.makesGroup) ≤ 2 ^ 31)
    (mem : .added id (.context context) ∈ step.events (after (run before) .start)) :
    context.shader.group = id.group ∧ ∃ ref, Creation step (after (run before) .start) id context ref ∧
      (context.shader, .resource .shader ref) ∈ additions (history (before ++ [step]) .start) := by
  have recorded := recorded_run _ few
  have after_eq : after (run (before ++ [step])) .start = step.after (after (run before) .start) := by
    rw [after_run_append, after_run_cons]
    rfl
  have whole : history (before ++ [step]) .start =
      history before .start ++ step.events (after (run before) .start) := by
    rw [history_append, history, history, List.append_nil]
  rw [after_eq] at recorded
  obtain ⟨events, t, ref, part, journal, asks, operation, performed⟩ := asks_of_step mem
  rw [List.countP_append] at few
  have middle := (recorded_run before (by omega)).journal journal (by
    have less := part.sublist.countP_le (p := Event.isMade)
    rw [Step.events, countP_isMade_events] at less
    rw [List.countP_singleton] at few
    omega)
  have added : (context.shader, .resource .shader ref) ∈
      additions (history (before ++ [step]) .start) := by
    have there := mem_additions.1 (middle.resource?_eq_some_iff.1 asks.shader).2
    rw [mem_additions, whole]
    rcases List.mem_append.1 there with there | there
    · exact List.mem_append_left _ there
    · exact List.mem_append_right _ (part.subset there)
  have exists' := isSome_of_added step mem
  refine ⟨asks.within, ref, ⟨operation, congrArg Prod.fst performed, ⟨t.calls, ?_, asks.made⟩, ?_, ?_⟩,
    added⟩
  · exact congrArg (fun reached => reached.2.calls) performed
  · refine recorded.context?_eq_some_iff.2 ⟨exists', mem_additions.2 ?_⟩
    rw [whole]
    exact List.mem_append_right _ mem
  · refine recorded.resource?_eq_some_iff.2 ⟨?_, added⟩
    rw [asks.within]
    exact exists'

theorem Owned.mem_live_of_resource? {n : Nat} {s : Session} (owned : Owned n s)
    {kind : ResourceKind} {asset : AssetId} {ref : Ref}
    (found : s.store.resource? kind asset = some ref) : (kind, ref) ∈ live s.calls := by
  rw [resource?, Option.ite_none_right_eq_some] at found
  obtain ⟨-, found⟩ := found
  obtain ⟨group, there, found⟩ := Option.bind_eq_some_iff.1 found
  obtain ⟨index, -, pooled⟩ := Option.bind_eq_some_iff.1 found
  have slot : slotRef? s.store kind (asset.group, index) = some ref :=
    slotRef?_eq_some.2 ⟨group, there, pooled⟩
  exact owned.mem_live slot

/-- A context never outlives its shader. Whatever was done to the store, the shader of a context
which is found is a handle of the same group for a shader of the backend, the one whose uniforms were
asked for when the context was made, and the context is still as it was made. References which the
backend gives out twice may be released for another asset, so that `Fresh` is asked for shaders to be
live. Numbers of groups wrap around after the group which `few` still admits. -/
theorem contexts_run (steps : List Step) (few : steps.countP (·.operation.makesGroup) ≤ 2 ^ 31)
    {id : AssetId} {context : ShaderContext}
    (held : (after (run steps) .start).store.context? id = some context) :
    context.shader.type = .shader ∧ context.shader.group = id.group ∧ ∃ ref,
      (after (run steps) .start).store.resource? .shader context.shader = some ref ∧
      (Fresh (after (run steps) .start).calls →
        (.shader, ref) ∈ live (after (run steps) .start).calls) ∧
      ∃ before step later, steps = before ++ step :: later ∧
        Creation step (after (run before) .start) id context ref := by
  have recorded := recorded_run steps few
  obtain ⟨there, mem⟩ := recorded.context?_eq_some_iff.1 held
  obtain ⟨before, step, later, rfl, made⟩ := step_of_history (mem_additions.1 mem)
  rw [List.append_cons, List.countP_append] at few
  obtain ⟨within, ref, creation, first⟩ := shader_of_context (by omega) made
  have added : (context.shader, .resource .shader ref) ∈
      additions (history (before ++ step :: later) .start) := by
    rw [List.append_cons, history_append, mem_additions]
    exact List.mem_append_left _ (mem_additions.1 first)
  have shader := recorded.resource?_eq_some_iff.2 ⟨within.symm ▸ there, added⟩
  refine ⟨(recorded.past _ _ added).2, within, ref, shader, fun fresh => ?_, before, step, later, rfl,
    creation⟩
  refine (owned_run owned_start _ ?_ fresh).mem_live_of_resource? shader
  rw [List.append_cons, List.countP_append]
  omega

/-- A step with a backend which reports one uniform. -/
def reportingStep (location : Int32) (operation : Operation) : Step :=
  ⟨{ countingBackend with uniforms _ _ := [⟨"u_time", location⟩] }, ⟨.empty, []⟩, operation⟩

/-- Two contexts of one shader, for which the backend reported different locations. Between them
stands a handle of no shader. -/
def twoContexts : List Step :=
  [reportingStep 3 (.createGroup "level"), reportingStep 3 (.pushContextOf ⟨0⟩ (.compute "main")),
    reportingStep 5 (.pushContext ⟨0⟩ ⟨.shader, ⟨0⟩, -1⟩),
    reportingStep 5 (.pushContext ⟨0⟩ ⟨.shader, ⟨0⟩, 0⟩)]

theorem fresh_twoContexts : Fresh (after (run twoContexts) .start).calls := by
  have calls : (after (run twoContexts) .start).calls =
      [.uniforms ⟨0⟩, .uniforms ⟨0⟩, .create (.shader (.compute "main")) (some ⟨0⟩)] := by
    decide +kernel
  rw [calls]
  exact ((Fresh.nil.create (by decide)).uniforms ⟨0⟩).uniforms ⟨0⟩

theorem contexts_run_twoContexts :
    twoContexts.countP (·.operation.makesGroup) ≤ 2 ^ 31 ∧
    (after (run twoContexts) .start).store.context? ⟨.shaderContext, ⟨0⟩, 0⟩ =
      some ⟨⟨.shader, ⟨0⟩, 0⟩, [⟨"u_time", 3⟩]⟩ ∧
    Fresh (after (run twoContexts) .start).calls ∧
    ∃ ref, (after (run twoContexts) .start).store.resource? .shader ⟨.shader, ⟨0⟩, 0⟩ = some ref ∧
      (.shader, ref) ∈ live (after (run twoContexts) .start).calls := by
  have held : (after (run twoContexts) .start).store.context? ⟨.shaderContext, ⟨0⟩, 0⟩ =
      some ⟨⟨.shader, ⟨0⟩, 0⟩, [⟨"u_time", 3⟩]⟩ := by
    decide +kernel
  obtain ⟨-, -, ref, shader, lives, -⟩ := contexts_run twoContexts (by decide) held
  exact ⟨by decide, held, fresh_twoContexts, ref, shader, lives fresh_twoContexts⟩

end AssetPack.Store

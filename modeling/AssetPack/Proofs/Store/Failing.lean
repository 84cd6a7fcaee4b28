import AssetPack.Proofs.Store.Recorded

/-! What operations leave behind which fail. -/

namespace AssetPack.Store
open Process

/-- All groups are as they were, with their pools and names, and the same references are live. -/
structure Unchanged (s t : Session) : Prop where
  store : t.store = s.store
  live : live t.calls = live s.calls

theorem Unchanged.refl (s : Session) : Unchanged s s := ⟨rfl, rfl⟩

/-- A resource which the backend does not give changes nothing. -/
theorem unchanged_created (id : GroupId) (resource : Resource) (s : Session) :
    Unchanged s (created id resource none s) := ⟨rfl, List.append_nil _⟩

/-- A resource which the backend gives is live from then on. -/
theorem not_unchanged_created (id : GroupId) (resource : Resource) (ref : Ref) (s : Session) :
    ¬ Unchanged s (created id resource (some ref) s) := by
  intro same
  have length := congrArg List.length same.live
  change (live s.calls ++ [_]).length = _ at length
  rw [List.length_append, List.length_singleton] at length
  omega

section failing
variable {backend : Backend} {files : FileTree} {id : GroupId} {s : Session} {error : Error}

theorem unchanged_push {resource : Resource}
    (failed : (eval (push backend id resource) s).1 = .error error) :
    Unchanged s (eval (push backend id resource) s).2 := by
  rw [eval_push] at failed ⊢
  revert failed
  cases s.store.groups.get? id with
  | none => exact fun _ => .refl s
  | some group =>
    dsimp only
    cases group.nextId? id resource.kind.type with
    | none => exact fun _ => .refl s
    | some asset =>
      dsimp only
      cases backend.create s.calls resource with
      | none => exact fun _ => unchanged_created id resource s
      | some ref =>
        intro failed
        cases failed

theorem unchanged_pushContext {shader : AssetId}
    (failed : (eval (pushContext backend id shader) s).1 = .error error) :
    Unchanged s (eval (pushContext backend id shader) s).2 := by
  rw [eval_pushContext] at failed ⊢
  revert failed
  cases s.store.groups.get? id with
  | none => exact fun _ => .refl s
  | some group =>
    dsimp only
    cases shaderOf? id group shader with
    | none => exact fun _ => .refl s
    | some ref =>
      dsimp only
      cases group.nextId? id .shaderContext with
      | none => exact fun _ => .refl s
      | some asset =>
        intro failed
        cases failed

theorem unchanged_nameAsset {asset : AssetId} {name : String}
    (failed : (eval (nameAsset asset name) s).1 = .error error) :
    Unchanged s (eval (nameAsset asset name) s).2 := by
  rw [eval_nameAsset] at failed ⊢
  revert failed
  cases s.store.groups.get? asset.group with
  | none => exact fun _ => .refl s
  | some group =>
    intro failed
    cases failed

/-- Whether an operation adds one thing after the other, so that it can fail between them. -/
def Operation.isComposed : Operation → Bool
  | .pushContextOf .. | .loadPackage .. => true
  | _ => false

/-- An operation which does one thing at most does nothing when it fails. -/
theorem unchanged_perform {operation : Operation} (single : operation.isComposed = false)
    (failed : (outcome (perform backend files operation) s).1 = .failed error) :
    Unchanged s (after (perform backend files operation) s) := by
  have asset (asset : AssetId) : Reply.asset asset ≠ .failed error := Reply.noConfusion
  cases operation with
  | push id resource =>
    rw [perform, after_reply]
    exact unchanged_push (reply_eq_failed asset failed)
  | pushContext id shader =>
    rw [perform, after_reply]
    exact unchanged_pushContext (reply_eq_failed asset failed)
  | nameAsset handle name =>
    rw [perform, after_reply]
    exact unchanged_nameAsset (reply_eq_failed (fun _ => Reply.noConfusion) failed)
  | pushContextOf id shader => cases single
  | loadPackage id path => cases single
  | _ => cases failed

end failing

/-! A shader with its context, which are added one after the other. -/

/-- The handle of a shader which was just added stands for it. -/
theorem shaderOf?_push {id : GroupId} {group : Group} {asset : AssetId}
    (next : group.nextId? id .shader = some asset) (ref : Ref) :
    shaderOf? id (group.push .shader ref) asset = some ref := by
  obtain ⟨room, rfl⟩ := nextId?_eq_some.1 next
  have slot : (⟨.shader, id, Int16.ofNat (group.count .shader)⟩ : AssetId).slot? =
      some (group.count .shader) := AssetId.slot?_eq_some.2 ⟨room, rfl⟩
  rw [shaderOf?, if_pos ⟨rfl, rfl⟩, slot]
  exact Array.getElem?_push_size

theorem eval_pushContextOf (backend : Backend) (id : GroupId) (shader : Shader) (s : Session) :
    eval (pushContextOf backend id shader) s = match s.store.groups.get? id with
      | none => (.error (.unknownGroup id), s)
      | some group => match group.nextId? id .shader with
        | none => (.error (.poolFull id .shader), s)
        | some asset => match backend.create s.calls (.shader shader) with
          | none => (.error (.backend id .shader), created id (.shader shader) none s)
          | some ref => match group.nextId? id .shaderContext with
            | none => (.error (.poolFull id .shaderContext), created id (.shader shader) (some ref) s)
            | some context => (.ok context,
              asked id (ShaderContext.make asset (backend.uniforms
                (created id (.shader shader) (some ref) s).calls ref)).value ref
                  (created id (.shader shader) (some ref) s)) := by
  rw [pushContextOf, eval_bind, eval_push]
  cases found : s.store.groups.get? id with
  | none => rfl
  | some group =>
    dsimp only [Resource.kind, ResourceKind.type]
    cases next : group.nextId? id .shader with
    | none => rfl
    | some asset =>
      dsimp only
      cases given : backend.create s.calls (.shader shader) with
      | none => rfl
      | some ref =>
        dsimp only
        have pushed : (created id (.shader shader) (some ref) s).store.groups.get? id =
            some (group.push .shader ref) := get?_updateGroup found _
        rw [eval_pushContext, pushed]
        dsimp only
        rw [shaderOf?_push next]
        -- A shader is none of the contexts, so that their number is the same.
        rfl

/-- The group has room for one more shader, which the backend gives, but not for its context. -/
structure Strands (backend : Backend) (id : GroupId) (shader : Shader) (s : Session) (ref : Ref) :
    Prop where
  room : ∃ group, s.store.groups.get? id = some group ∧
    group.count .shader < Group.poolLimit ∧ Group.poolLimit ≤ group.count .shaderContext
  given : backend.create s.calls (.shader shader) = some ref

theorem Strands.eval_eq {backend : Backend} {id : GroupId} {shader : Shader} {s : Session}
    {ref : Ref} (strands : Strands backend id shader s ref) :
    eval (pushContextOf backend id shader) s =
      (.error (.poolFull id .shaderContext), created id (.shader shader) (some ref) s) := by
  obtain ⟨⟨group, found, room, full⟩, given⟩ := strands
  have next : group.nextId? id .shader = some _ := nextId?_eq_some.2 ⟨room, rfl⟩
  have last : group.nextId? id .shaderContext = none := if_neg (Nat.not_lt_of_le full)
  rw [eval_pushContextOf, found]
  dsimp only
  rw [next]
  dsimp only
  rw [given]
  dsimp only
  rw [last]

/-- What fails with anything else than a pool of contexts without room has changed nothing. -/
theorem pushContextOf_cases {backend : Backend} {id : GroupId} {shader : Shader} {s : Session}
    {error : Error} (failed : (eval (pushContextOf backend id shader) s).1 = .error error) :
    (error ≠ .poolFull id .shaderContext ∧
        Unchanged s (eval (pushContextOf backend id shader) s).2) ∨
      ∃ ref, Strands backend id shader s ref := by
  rw [eval_pushContextOf] at failed ⊢
  revert failed
  cases found : s.store.groups.get? id with
  | none =>
    intro failed
    cases failed
    exact .inl ⟨Error.noConfusion, .refl s⟩
  | some group =>
    dsimp only
    cases next : group.nextId? id .shader with
    | none =>
      intro failed
      cases failed
      exact .inl ⟨by simp, .refl s⟩
    | some asset =>
      dsimp only
      cases given : backend.create s.calls (.shader shader) with
      | none =>
        intro failed
        cases failed
        exact .inl ⟨Error.noConfusion, unchanged_created id (.shader shader) s⟩
      | some ref =>
        dsimp only
        cases last : group.nextId? id .shaderContext with
        | none =>
          have full : ¬ group.count .shaderContext < Group.poolLimit := by
            intro room
            rw [nextId?_eq_some.2 ⟨room, rfl⟩] at last
            cases last
          have room := (nextId?_eq_some.1 next).1
          exact fun _ => .inr ⟨ref, ⟨group, found, room, Nat.le_of_not_lt full⟩, given⟩
        | some context =>
          intro failed
          cases failed

/-- Adding a shader with its context is all or nothing, unless the group has room for the shader
only. Then the shader stays, under a handle which was not given away. -/
theorem unchanged_pushContextOf_iff {backend : Backend} {files : FileTree} {id : GroupId}
    {shader : Shader} {s : Session} {error : Error}
    (failed : (outcome (perform backend files (.pushContextOf id shader)) s).1 = .failed error) :
    (Unchanged s (after (perform backend files (.pushContextOf id shader)) s) ↔
        error ≠ .poolFull id .shaderContext) ∧
      (error = .poolFull id .shaderContext ↔ ∃ ref, Strands backend id shader s ref) ∧
      ∀ ref, Strands backend id shader s ref →
        after (perform backend files (.pushContextOf id shader)) s =
          created id (.shader shader) (some ref) s := by
  rw [perform, after_reply]
  have failed : (eval (pushContextOf backend id shader) s).1 = .error error :=
    reply_eq_failed (fun _ => Reply.noConfusion) failed
  have stranded {ref : Ref} (strands : Strands backend id shader s ref) :
      error = .poolFull id .shaderContext := by
    rw [strands.eval_eq] at failed
    exact (Except.error.inj failed).symm
  have left {ref : Ref} (strands : Strands backend id shader s ref) :
      (eval (pushContextOf backend id shader) s).2 = created id (.shader shader) (some ref) s := by
    rw [strands.eval_eq]
  rcases pushContextOf_cases failed with ⟨other, same⟩ | ⟨ref, strands⟩
  · refine ⟨iff_of_true same other, iff_of_false other ?_, fun ref strands => left strands⟩
    intro some
    obtain ⟨ref, strands⟩ := some
    exact other (stranded strands)
  · refine ⟨iff_of_false ?_ (not_not_intro (stranded strands)),
      iff_of_true (stranded strands) ⟨ref, strands⟩, fun ref strands => left strands⟩
    rw [left strands]
    exact not_unchanged_created id (.shader shader) ref s

/-- A backend which never gives anything. -/
def silentBackend : Backend where
  create _ _ := none
  uniforms _ _ := []

theorem unchanged_pushContextOf_silent :
    (outcome (perform silentBackend ⟨.empty, []⟩ (.pushContextOf ⟨0⟩ (.compute "main")))
        (after (createGroup "level") .start)).1 = .failed (.backend ⟨0⟩ .shader) ∧
      Unchanged (after (createGroup "level") .start)
        (after (perform silentBackend ⟨.empty, []⟩ (.pushContextOf ⟨0⟩ (.compute "main")))
          (after (createGroup "level") .start)) := by
  have failed :
      (outcome (perform silentBackend ⟨.empty, []⟩ (.pushContextOf ⟨0⟩ (.compute "main")))
        (after (createGroup "level") .start)).1 = .failed (.backend ⟨0⟩ .shader) := by
    decide +kernel
  exact ⟨failed, (unchanged_pushContextOf_iff failed).1.2 Error.noConfusion⟩

/-! A shader can be stranded. -/

/-- A shader with as many contexts as fit into a pool. -/
def fullContexts : List Step :=
  [countingStep (.createGroup "level"), countingStep (.push ⟨0⟩ (.shader (.compute "main")))] ++
    List.replicate Group.poolLimit (countingStep (.pushContext ⟨0⟩ ⟨.shader, ⟨0⟩, 0⟩))

/-- A single shader was made, and was asked for its uniforms once for each of its contexts. -/
structure Crowded (contexts : Nat) (s : Session) : Prop where
  group : ∃ group, s.store.groups.get? ⟨0⟩ = some group ∧ group.shaders = #[⟨0⟩] ∧
    group.contexts.size = contexts
  calls : s.calls = List.replicate contexts (.uniforms ⟨0⟩) ++
    [.create (.shader (.compute "main")) (some ⟨0⟩)]

namespace Crowded
variable {n : Nat} {s : Session}

theorem step (crowded : Crowded n s) (room : n < Group.poolLimit) :
    Crowded (n + 1) ((countingStep (.pushContext ⟨0⟩ ⟨.shader, ⟨0⟩, 0⟩)).after s) := by
  obtain ⟨⟨group, found, shaders, contexts⟩, calls⟩ := crowded
  have own : shaderOf? ⟨0⟩ group ⟨.shader, ⟨0⟩, 0⟩ = some ⟨0⟩ := by
    rw [shaderOf?, shaders]
    rfl
  have next : group.nextId? ⟨0⟩ .shaderContext = some _ :=
    nextId?_eq_some.2 ⟨Nat.lt_of_le_of_lt (Nat.le_of_eq contexts) room, rfl⟩
  have asks : (countingStep (.pushContext ⟨0⟩ ⟨.shader, ⟨0⟩, 0⟩)).after s = asked ⟨0⟩
      (ShaderContext.make ⟨.shader, ⟨0⟩, 0⟩ []).value ⟨0⟩ s := by
    rw [Step.after, countingStep, perform, after_reply, eval_pushContext, found]
    dsimp only
    rw [own]
    dsimp only
    rw [next]
    rfl
  rw [asks]
  refine ⟨⟨_, get?_updateGroup found _, shaders, ?_⟩, ?_⟩
  · exact (Array.size_push _).trans (congrArg (· + 1) contexts)
  · rw [List.replicate_succ, List.cons_append, ← calls]
    rfl

theorem live_calls (crowded : Crowded n s) : live s.calls = [(.shader, ⟨0⟩)] := by
  rw [crowded.calls]
  clear crowded
  induction n with
  | zero => rfl
  | succ n ih =>
    rw [List.replicate_succ, List.cons_append]
    exact ih

theorem fresh_calls (crowded : Crowded n s) : Fresh s.calls := by
  rw [crowded.calls]
  clear crowded
  induction n with
  | zero =>
    exact Fresh.nil.create List.not_mem_nil
  | succ n ih =>
    rw [List.replicate_succ, List.cons_append]
    exact ih.uniforms ⟨0⟩

theorem strands (crowded : Crowded Group.poolLimit s) :
    Strands countingBackend ⟨0⟩ (.compute "main") s ⟨Group.poolLimit + 1⟩ := by
  obtain ⟨⟨group, found, shaders, contexts⟩, calls⟩ := crowded
  refine ⟨⟨group, found, ?_, Nat.le_of_eq contexts.symm⟩, ?_⟩
  · rw [Group.count, shaders]
    decide
  · rw [calls]
    change some (⟨_⟩ : Ref) = _
    rw [List.length_append, List.length_replicate]
    rfl

end Crowded

theorem crowded_fullContexts : Crowded Group.poolLimit (after (run fullContexts) .start) := by
  rw [fullContexts, after_run_append]
  refine after_replicate ⟨⟨_, rfl, rfl, rfl⟩, rfl⟩ ?_ (Nat.le_refl _)
  intro n s room crowded
  exact crowded.step room

/-- Every reference is a new one. The operation fails, and leaves a shader which is live. -/
theorem pushContextOf_fullContexts :
    Fresh (after (perform countingBackend ⟨.empty, []⟩ (.pushContextOf ⟨0⟩ (.compute "main")))
      (after (run fullContexts) .start)).calls ∧
    (outcome (perform countingBackend ⟨.empty, []⟩ (.pushContextOf ⟨0⟩ (.compute "main")))
      (after (run fullContexts) .start)).1 = .failed (.poolFull ⟨0⟩ .shaderContext) ∧
    ¬ Unchanged (after (run fullContexts) .start)
      (after (perform countingBackend ⟨.empty, []⟩ (.pushContextOf ⟨0⟩ (.compute "main")))
        (after (run fullContexts) .start)) := by
  have crowded := crowded_fullContexts
  have left := crowded.strands.eval_eq
  rw [perform, after_reply, outcome_reply, left]
  refine ⟨crowded.fresh_calls.create ?_, rfl, not_unchanged_created _ _ _ _⟩
  rw [crowded.live_calls]
  decide

end AssetPack.Store

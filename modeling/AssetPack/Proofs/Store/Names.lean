import AssetPack.Proofs.Store.Warnings

/-! Names of assets: in each group a name stands for the asset to which it was given last, and
giving a name which is reserved or taken leaves a warning. -/

namespace AssetPack.Store
open Process

theorem Named.value_find {n : Nat} {history : List Event} {store : Store}
    (named : Named n history store) {names : List (AssetId × String)}
    (same : given history = unreserved names) {id : GroupId}
    (there : (store.groups.get? id).isSome) (name : String) : (store.find id name).value =
      if name = Group.reservedName then .invalidIn id
      else (newest id name names).getD (.invalidIn id) := by
  obtain ⟨group, found⟩ := Option.isSome_iff_exists.1 there
  have held := named.get? same found
  rw [find, found]
  dsimp only
  rw [held, held Group.reservedName, if_pos rfl]
  by_cases reserved : name = Group.reservedName
  · rw [if_pos reserved, if_pos reserved]
    rfl
  · rw [if_neg reserved, if_neg reserved]
    cases newest id name names <;> rfl

/-- A handle which gets a name was handed in, or something was added under it. -/
theorem mem_recordNamings {backend : Backend} {id : GroupId} {records : List Package.Record}
    {s : Session} {naming : AssetId × String} (mem : naming ∈ recordNamings backend id records s) :
    ∃ content, .added naming.1 content ∈ recordEvents backend id records s := by
  induction records generalizing s with
  | nil => cases mem
  | cons record rest ih =>
    rw [recordNamings] at mem
    rw [recordEvents, andThen]
    rcases push_cases backend id (resourceOf record.asset) s with
      ⟨error, t, pushed, -⟩ | ⟨asset, ref, t, group, pushed, -, events, found⟩
    · rw [pushed] at mem
      cases mem
    · rw [pushed] at mem ⊢
      rw [events]
      rcases List.mem_cons.1 mem with rfl | mem
      · exact ⟨_, List.mem_append_left _ (List.mem_singleton_self _)⟩
      · obtain ⟨content, added⟩ := ih mem
        refine ⟨content, List.mem_append_right _ (List.mem_append_right _ ?_)⟩
        rw [eval_nameAsset, found] at added ⊢
        exact added

theorem mem_namings {steps : List Step} {s : Session} {naming : AssetId × String}
    (mem : naming ∈ namings steps s) :
    (∃ step ∈ steps, step.operation = .nameAsset naming.1 naming.2) ∨
      ∃ content, .added naming.1 content ∈ history steps s := by
  induction steps generalizing s with
  | nil => cases mem
  | cons step steps ih =>
    rcases List.mem_append.1 mem with mem | mem
    · obtain ⟨backend, files, operation⟩ := step
      cases operation with
      | nameAsset asset name =>
        refine .inl ⟨_, List.mem_cons_self, ?_⟩
        change naming ∈ ite _ _ _ at mem
        split at mem
        · rw [List.mem_singleton.1 mem]
        · cases mem
      | loadPackage id path =>
        change naming ∈ loadNamings backend files id path s at mem
        rw [loadNamings] at mem
        split at mem
        · rename_i group records found read
          obtain ⟨content, added⟩ := mem_recordNamings mem
          refine .inr ⟨content, List.mem_append_left _ ?_⟩
          change _ ∈ loadEvents backend files id path s
          rw [loadEvents, found, read]
          exact added
        · cases mem
      | _ => cases mem
    · rcases ih mem with ⟨step', mem', named⟩ | ⟨content, added⟩
      · exact .inl ⟨step', List.mem_cons_of_mem _ mem', named⟩
      · exact .inr ⟨content, List.mem_append_right _ added⟩

/-- A handle is one which a run returned for a new asset. -/
def Returned (steps : List Step) (asset : AssetId) : Prop :=
  ∃ before step later, steps = before ++ step :: later ∧ step.operation.target?.isSome ∧
    (outcome (perform step.backend step.files step.operation) (after (run before) .start)).1 =
      .asset asset

theorem Returned.added {steps : List Step} {asset : AssetId} (returned : Returned steps asset) :
    ∃ content, .added asset content ∈ history steps .start := by
  obtain ⟨before, step, later, rfl, adds, replied⟩ := returned
  obtain ⟨⟨id, pool⟩, adds⟩ := Option.isSome_iff_exists.1 adds
  obtain ⟨-, content, -, mem⟩ := added_of_reply step adds replied
  refine ⟨content, ?_⟩
  rw [history_append, history]
  exact List.mem_append_right _ (List.mem_append_left _ mem)

/-- No names were given in a group which is made just now. -/
theorem newest_of_made {before : List Step} {step : Step} {id : GroupId}
    (few : (before ++ [step]).countP (·.operation.makesGroup) ≤ 2 ^ 31)
    (replied : (outcome (perform step.backend step.files step.operation)
      (after (run before) .start)).1 = .group id) {name : String}
    (free : name ≠ Group.reservedName) : newest id name (namings before .start) = none := by
  obtain ⟨backend, files, operation⟩ := step
  have new : ∃ label, operation = .createGroup label := by
    by_contra old
    have none := group?_perform backend files (fun label same => old ⟨label, same⟩)
      (after (run before) .start)
    rw [replied] at none
    cases none
  obtain ⟨label, rfl⟩ := new
  rw [List.countP_append] at few
  change before.countP _ + 1 ≤ _ at few
  have named := named_run before (by omega)
  cases replied
  rw [← newest_unreserved free, ← given_history]
  exact named.newest_next few name

/-- What the names of a run stand for. -/
structure Names (steps : List Step) : Prop where
  missing : ∀ id name, ((after (run steps) .start).store.groups.get? id).isSome = false →
    ((after (run steps) .start).store.find id name).value = .invalid
  /-- In a group a name stands for the asset which got it last, and else for no asset. -/
  found : ∀ id name, ((after (run steps) .start).store.groups.get? id).isSome = true →
    ((after (run steps) .start).store.find id name).value =
      if name = Group.reservedName then .invalidIn id
      else (newest id name (namings steps .start)).getD (.invalidIn id)
  /-- No names were given in a group before it was made. -/
  since : ∀ before step later id, steps = before ++ step :: later →
    (outcome (perform step.backend step.files step.operation)
      (after (run before) .start)).1 = .group id →
      ∀ name, name ≠ Group.reservedName → newest id name (namings before .start) = none
  /-- A warning is left for each name which is reserved or taken, and for no other one. -/
  warned : ∀ before step later, steps = before ++ step :: later →
    nameWarnings ((perform step.backend step.files step.operation).run
      (after (run before) .start)).log =
        warnings (after (run before) .start).store.groupName? (namings before .start)
          (step.namings (after (run before) .start))
  /-- Names which are only given to assets stand for assets. -/
  resolved : (∀ step ∈ steps, ∀ asset name, step.operation = .nameAsset asset name →
      Returned steps asset) →
    ∀ id name asset, ((after (run steps) .start).store.find id name).value = asset →
      asset.isValid = true → ∃ pool content, pool.type = asset.type ∧
        (after (run steps) .start).store.content? pool asset = some content

/-- A name which stands for something was given to it. -/
theorem content?_of_find {steps : List Step}
    (few : steps.countP (·.operation.makesGroup) ≤ 2 ^ 31)
    (own : ∀ step ∈ steps, ∀ asset name, step.operation = .nameAsset asset name →
      Returned steps asset) {id : GroupId} {name : String} {asset : AssetId}
    (found : ((after (run steps) .start).store.find id name).value = asset)
    (valid : asset.isValid = true) : ∃ pool content, pool.type = asset.type ∧
      (after (run steps) .start).store.content? pool asset = some content := by
  have named := named_run steps few
  have none (group : GroupId) : (AssetId.invalidIn group).isValid = false := rfl
  cases there : (after (run steps) .start).store.groups.get? id with
  | none =>
    rw [find, there] at found
    subst found
    cases valid
  | some group =>
    have exists' := Option.isSome_iff_exists.2 ⟨group, there⟩
    rw [named.value_find (given_history steps .start) exists'] at found
    split at found
    · rw [← found, none] at valid
      cases valid
    · cases last : newest id name (namings steps .start) with
      | none =>
        rw [last] at found
        subst found
        cases valid
      | some asset' =>
        rw [last] at found
        obtain rfl : asset' = asset := found
        obtain ⟨rfl, mem⟩ := mem_of_newest last
        have added : ∃ content, .added asset' content ∈ history steps .start := by
          rcases mem_namings mem with ⟨step, mem, naming⟩ | added
          · exact (own step mem _ _ naming).added
          · exact added
        obtain ⟨content, added⟩ := added
        have added := mem_additions.2 added
        refine ⟨content.pool, content, (named.past _ _ added).2.symm, ?_⟩
        rw [named.content?_of_addition added, if_pos ⟨rfl, exists'⟩]

/-- Names stand for what they were given to last, in each group on its own, and for nothing else.
Numbers of groups wrap around after the group which `few` still admits. -/
theorem names_run (steps : List Step) (few : steps.countP (·.operation.makesGroup) ≤ 2 ^ 31) :
    Names steps := by
  refine ⟨fun id name missing => ?_, fun id name there => ?_, ?_, ?_,
    fun own id name asset found valid => content?_of_find few own found valid⟩
  · rw [Option.isSome_eq_false_iff, Option.isNone_iff_eq_none] at missing
    rw [find, missing]
    rfl
  · exact (named_run steps few).value_find (given_history steps .start) there name
  · rintro before step later id rfl replied name free
    rw [List.append_cons, List.countP_append] at few
    exact newest_of_made (by omega) replied free
  · rintro before step later rfl
    rw [List.countP_append] at few
    exact (named_run before (by omega)).warnings_perform (by omega) step (given_history ..)

/-- A name which is given twice, and one which is reserved. -/
def twoWalls : List Step :=
  [.createGroup "level", .createGroup "menu", .push ⟨0⟩ (.buffer ⟨.vertex, [1]⟩),
    .push ⟨0⟩ (.buffer ⟨.vertex, [2]⟩), .nameAsset ⟨.buffer, ⟨0⟩, 0⟩ "wall",
    .nameAsset ⟨.buffer, ⟨0⟩, 1⟩ "wall", .nameAsset ⟨.buffer, ⟨0⟩, 0⟩ "invalid"].map countingStep

theorem returned_twoWalls : ∀ step ∈ twoWalls, ∀ asset name,
    step.operation = .nameAsset asset name → Returned twoWalls asset := by
  have first : Returned twoWalls ⟨.buffer, ⟨0⟩, 0⟩ :=
    ⟨twoWalls.take 2, _, twoWalls.drop 3, rfl, rfl, by decide +kernel⟩
  have second : Returned twoWalls ⟨.buffer, ⟨0⟩, 1⟩ :=
    ⟨twoWalls.take 3, _, twoWalls.drop 4, rfl, rfl, by decide +kernel⟩
  intro step within asset name naming
  obtain ⟨operation, mem, rfl⟩ := List.mem_map.1 within
  obtain rfl : operation = .nameAsset asset name := naming
  simp only [List.mem_cons, reduceCtorEq, Operation.nameAsset.injEq, List.not_mem_nil, or_false,
    false_or] at mem
  rcases mem with ⟨rfl, -⟩ | ⟨rfl, -⟩ | ⟨rfl, -⟩
  · exact first
  · exact second
  · exact first

theorem names_run_twoWalls :
    twoWalls.countP (·.operation.makesGroup) ≤ 2 ^ 31 ∧
    ((after (run twoWalls) .start).store.find ⟨0⟩ "wall").value = ⟨.buffer, ⟨0⟩, 1⟩ ∧
    ((after (run twoWalls) .start).store.find ⟨0⟩ "invalid").value = .invalidIn ⟨0⟩ ∧
    ((after (run twoWalls) .start).store.find ⟨1⟩ "wall").value = .invalidIn ⟨1⟩ ∧
    ((after (run twoWalls) .start).store.find ⟨2⟩ "wall").value = .invalid ∧
    ∃ pool content, pool.type = .buffer ∧
      (after (run twoWalls) .start).store.content? pool ⟨.buffer, ⟨0⟩, 1⟩ = some content := by
  have names := names_run twoWalls (by decide)
  have wall : newest ⟨0⟩ "wall" (namings twoWalls .start) = some ⟨.buffer, ⟨0⟩, 1⟩ := by
    decide +kernel
  have none : newest ⟨1⟩ "wall" (namings twoWalls .start) = none := by decide +kernel
  have found := names.found ⟨0⟩ "wall" (by decide +kernel)
  rw [wall] at found
  have reserved := names.found ⟨0⟩ "invalid" (by decide +kernel)
  have other := names.found ⟨1⟩ "wall" (by decide +kernel)
  rw [none] at other
  have missing := names.missing ⟨2⟩ "wall" (by decide +kernel)
  exact ⟨by decide, found, reserved, other, missing,
    names.resolved returned_twoWalls ⟨0⟩ "wall" _ found (by decide)⟩

end AssetPack.Store

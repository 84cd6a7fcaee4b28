import AssetPack.Proofs.Store.Ownership

/-! Numbers of groups: they count up from 0 and wrap around, so that they are good handles for as
long as no more groups are made than there are numbers. -/

namespace AssetPack.Store
open Process

def Reply.group? : Reply → Option GroupId
  | group id => some id
  | _ => none

/-- The handles of the groups which a run makes, in the order in which it makes them. -/
def groupsMade (steps : List Step) (s : Session) : List GroupId :=
  (outcome (run steps) s).1.filterMap Reply.group?

theorem groupsMade_cons (step : Step) (steps : List Step) (s : Session) :
    groupsMade (step :: steps) s =
      (outcome (perform step.backend step.files step.operation) s).1.group?.toList ++
        groupsMade steps (step.after s) := by
  rw [groupsMade, replies_run_cons, List.filterMap_cons]
  cases (outcome (perform step.backend step.files step.operation) s).1.group? <;> rfl

theorem Change.next {s t : Session} (change : Change s t) : t.store.next = s.store.next := by
  cases change with
  | create resource answer => cases answer <;> rfl
  | ask => rfl
  | name asset name found =>
    rw [named]
    split <;> rfl
  | close => rfl

theorem Changes.next {s t : Session} (changes : Changes s t) : t.store.next = s.store.next := by
  induction changes with
  | refl => rfl
  | tail _ change ih => exact change.next.trans ih

/-- The number for the next group goes up by one when a group is made. -/
theorem next_perform (backend : Backend) (files : FileTree) (operation : Operation) {s : Session}
    {n : Nat} (next : s.store.next = Int32.ofNat n) :
    (after (perform backend files operation) s).store.next =
      Int32.ofNat (n + if operation.makesGroup then 1 else 0) := by
  by_cases new : ∃ name, operation = .createGroup name
  · obtain ⟨name, rfl⟩ := new
    change s.store.next + 1 = Int32.ofNat (n + 1)
    rw [next, Int32.ofNat_add]
    rfl
  · have old : ∀ name, operation ≠ .createGroup name := fun name same => new ⟨name, same⟩
    rw [(changes_perform backend files old s).next, next, Operation.makesGroup_eq_false old]
    rfl

theorem group?_reply {α : Type} (attempt : StoreAttempt α) {success : α → Reply}
    (none : ∀ a, (success a).group? = none) (s : Session) :
    (outcome (reply attempt success) s).1.group? = Option.none := by
  rw [outcome_reply]
  cases eval attempt s with
  | mk result t =>
    cases result with
    | ok a => exact none a
    | error e => rfl

/-- Only the making of a group gives the handle of one. -/
theorem group?_perform (backend : Backend) (files : FileTree) {operation : Operation}
    (old : ∀ name, operation ≠ .createGroup name) (s : Session) :
    (outcome (perform backend files operation) s).1.group? = none := by
  cases operation with
  | createGroup name => exact absurd rfl (old name)
  | push => exact group?_reply _ (fun _ => rfl) s
  | pushContext => exact group?_reply _ (fun _ => rfl) s
  | pushContextOf => exact group?_reply _ (fun _ => rfl) s
  | nameAsset => exact group?_reply _ (fun _ => rfl) s
  | loadPackage => exact group?_reply _ (fun _ => rfl) s
  | destroyGroup | destroyAll | resource | context | location | find | groupName | assetCount =>
    rfl

/-- Groups are numbered in the order in which they are made. -/
theorem groupsMade_eq {n : Nat} {s : Session} (next : s.store.next = Int32.ofNat n)
    (steps : List Step) : groupsMade steps s =
      (List.range' n (steps.countP (·.operation.makesGroup))).map fun m => ⟨Int32.ofNat m⟩ := by
  induction steps generalizing n s with
  | nil => rfl
  | cons step steps ih =>
    rw [groupsMade_cons, List.countP_cons]
    obtain ⟨backend, files, operation⟩ := step
    have more : (Step.after ⟨backend, files, operation⟩ s).store.next = _ :=
      next_perform backend files operation next
    by_cases new : ∃ name, operation = .createGroup name
    · obtain ⟨name, rfl⟩ := new
      change _ = List.map _ (List.range' n (_ + 1))
      rw [ih more, List.range'_succ, List.map_cons, ← next]
      rfl
    · have old : ∀ name, operation ≠ .createGroup name := fun name same => new ⟨name, same⟩
      have other := Operation.makesGroup_eq_false old
      rw [other] at more
      rw [ih more, group?_perform backend files old, other]
      rfl

theorem groupsMade_start (steps : List Step) : groupsMade steps .start =
    (List.range (steps.countP (·.operation.makesGroup))).map fun m => ⟨Int32.ofNat m⟩ := by
  rw [groupsMade_eq (n := 0) rfl, List.range_eq_range']

theorem isValid_ofNat {m : Nat} (less : m < 2 ^ 31) :
    (⟨Int32.ofNat m⟩ : GroupId).isValid = true := by
  rw [GroupId.isValid, decide_eq_true_iff, Int32.le_iff_toInt_le, Int32.toInt_ofNat_of_lt less]
  exact Int.natCast_nonneg m

/-- The handles of groups are valid as long as there are numbers which are not negative, and
different until the numbers return to 0. -/
theorem groupsMade_good_iff (steps : List Step) :
    ((∀ id ∈ groupsMade steps .start, id.isValid = true) ↔
      steps.countP (·.operation.makesGroup) ≤ 2 ^ 31) ∧
    ((groupsMade steps .start).Nodup ↔ steps.countP (·.operation.makesGroup) ≤ 2 ^ 32) := by
  rw [groupsMade_start]
  refine ⟨⟨fun good => ?_, fun few id mem => ?_⟩, ⟨fun nodup => ?_, fun few => ?_⟩⟩
  · by_contra many
    have last : (⟨Int32.ofNat (2 ^ 31)⟩ : GroupId).isValid = true :=
      good _ (List.mem_map_of_mem (List.mem_range.2 (Nat.lt_of_not_le many)))
    cases last
  · obtain ⟨m, within, rfl⟩ := List.mem_map.1 mem
    exact isValid_ofNat (Nat.lt_of_lt_of_le (List.mem_range.1 within) few)
  · by_contra many
    have returned : (⟨Int32.ofNat (2 ^ 32)⟩ : GroupId) = ⟨Int32.ofNat 0⟩ := rfl
    have same := List.inj_on_of_nodup_map nodup (List.mem_range.2 (Nat.lt_of_not_le many))
      (List.mem_range.2 (by omega)) returned
    cases same
  · refine List.Nodup.map_on (fun m within n within' same => ?_) List.nodup_range
    exact GroupId.ofNat_inj (Nat.lt_of_lt_of_le (List.mem_range.1 within) few)
      (Nat.lt_of_lt_of_le (List.mem_range.1 within') few) same

/-- One group more than there are numbers which are not negative. -/
def tooManyGroups : List Step := List.replicate (2 ^ 31 + 1) (countingStep (.createGroup "level"))

theorem groupsMade_tooManyGroups :
    ¬ ((∀ id ∈ groupsMade tooManyGroups .start, id.isValid = true) ∧
      (groupsMade tooManyGroups .start).Nodup) := by
  intro good
  have made : tooManyGroups.countP (·.operation.makesGroup) = 2 ^ 31 + 1 :=
    (List.countP_replicate ..).trans (if_pos rfl)
  have last : (⟨Int32.ofNat (2 ^ 31)⟩ : GroupId) ∈ groupsMade tooManyGroups .start := by
    rw [groupsMade_start, made]
    exact List.mem_map_of_mem (List.mem_range.2 (Nat.lt_succ_self _))
  cases good.1 _ last

end AssetPack.Store

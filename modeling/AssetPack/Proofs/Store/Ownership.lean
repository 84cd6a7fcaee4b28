import Mathlib.Algebra.Ring.Nat
import Mathlib.Data.List.Nodup
import AssetPack.Proofs.Store.Changes

/-! Who owns the resources of the backend: each live one stands in one place of one pool, until it
is released. -/

namespace AssetPack

/-- A key which is found stands in one place, where it is changed and erased. -/
theorem Table.split {κ α : Type} [DecidableEq κ] {table : Table κ α} {key : κ} {value : α}
    (found : table.get? key = some value) : ∃ front back,
      table.entries = front ++ (key, value) :: back ∧
        (∀ f, (table.update key f).entries = front ++ (key, f value) :: back) ∧
        (table.erase key).entries = front ++ back := by
  obtain ⟨entries, nodup⟩ := table
  simp only [get?, update, erase] at found ⊢
  induction entries with
  | nil => cases found
  | cons entry rest ih =>
    obtain ⟨other, last⟩ := entry
    rw [List.map_cons, List.nodup_cons] at nodup
    by_cases same : key = other
    · subst same
      rw [List.lookup_cons_self, Option.some.injEq] at found
      subst found
      have others : rest.filter (fun entry => entry.1 ≠ key) = rest := by
        rw [List.filter_eq_self]
        intro entry mem
        have known : entry.1 ∈ rest.map Prod.fst := List.mem_map_of_mem mem
        have ne : entry.1 ≠ key := fun same => nodup.1 (same ▸ known)
        simpa using ne
      refine ⟨[], rest, rfl, fun f => by simp [updateEntries], ?_⟩
      simpa using others
    · rw [List.lookup_cons, beq_eq_false_iff_ne.2 same] at found
      obtain ⟨front, back, rfl, updated, erased⟩ := ih nodup.2 found
      refine ⟨(other, last) :: front, back, rfl, fun f => ?_, ?_⟩
      · rw [updateEntries, if_neg same, updated]
        rfl
      · rw [List.filter_cons, if_pos (by simpa using Ne.symm same), erased]
        rfl

theorem Table.get?_of_mem {κ α : Type} [DecidableEq κ] {table : Table κ α} {key : κ} {value : α}
    (mem : (key, value) ∈ table.entries) : table.get? key = some value := by
  obtain ⟨front, back, entries⟩ := List.append_of_mem mem
  have nodup := table.nodup
  rw [entries, List.map_append, List.map_cons] at nodup
  rw [get?, List.lookup_eq_some_iff]
  refine ⟨front, back, entries, fun entry before => ?_⟩
  have apart := (List.nodup_append.1 nodup).2.2 entry.1 (List.mem_map_of_mem before) key
    List.mem_cons_self
  exact bne_iff_ne.2 (Ne.symm apart)

theorem Table.entries_insert {κ α : Type} [DecidableEq κ] {table : Table κ α} {key : κ}
    (new : table.get? key = none) (value : α) :
    (table.insert key value).entries = (key, value) :: table.entries := by
  have unknown : ¬ table.contains key := by simp [contains, new]
  rw [insert, dif_neg unknown]

theorem GroupId.ofNat_inj {m n : Nat} (less : m < 2 ^ 32) (less' : n < 2 ^ 32)
    (same : (⟨Int32.ofNat m⟩ : GroupId) = ⟨Int32.ofNat n⟩) : m = n := by
  have equal : (BitVec.ofNat 32 m).toNat = (BitVec.ofNat 32 n).toNat :=
    congrArg (fun id : GroupId => id.number.toBitVec.toNat) same
  rwa [BitVec.toNat_ofNat, BitVec.toNat_ofNat, Nat.mod_eq_of_lt less, Nat.mod_eq_of_lt less']
    at equal

namespace Store
open Process Relation

/-- The references of the backend which were created and not released yet, in the order of their
creation. -/
def live : List Call → List (ResourceKind × Ref)
  | [] => []
  | .create resource answer :: earlier => live earlier ++ (answer.map (resource.kind, ·)).toList
  | .destroy kind ref :: earlier => (live earlier).filter (· ≠ (kind, ref))
  | .uniforms _ :: earlier => live earlier

/-- Every reference which the backend gives is another one than those which are live. -/
def Fresh (calls : List Call) : Prop :=
  ∀ resource ref earlier, .create resource (some ref) :: earlier <:+ calls →
    (resource.kind, ref) ∉ live earlier

/-- Whether a call makes sense while the references are live. -/
def Allows (refs : List (ResourceKind × Ref)) : Call → Prop
  | .create .. => True
  | .destroy kind ref => (kind, ref) ∈ refs
  | .uniforms ref => (.shader, ref) ∈ refs

/-- Only live references are released, and only live shaders are asked for uniforms. -/
def Lawful (calls : List Call) : Prop :=
  ∀ call earlier, call :: earlier <:+ calls → Allows (live earlier) call

theorem Fresh.suffix {calls earlier : List Call} (fresh : Fresh calls) (part : earlier <:+ calls) :
    Fresh earlier :=
  fun resource ref before before' => fresh resource ref before (before'.trans part)

theorem Fresh.nil : Fresh [] := fun _ _ _ part => nomatch List.suffix_nil.1 part

/-- Only what is created has to be new. -/
theorem Fresh.cons {call : Call} {calls : List Call} (fresh : Fresh calls)
    (new : ∀ resource ref, call = .create resource (some ref) →
      (resource.kind, ref) ∉ live calls) : Fresh (call :: calls) := by
  intro resource ref earlier part
  rcases List.suffix_cons_iff.1 part with same | part
  · obtain ⟨rfl, rfl⟩ := List.cons_eq_cons.1 same
    exact new resource ref rfl
  · exact fresh resource ref earlier part

theorem Fresh.create {calls : List Call} (fresh : Fresh calls) {resource : Resource} {ref : Ref}
    (new : (resource.kind, ref) ∉ live calls) : Fresh (.create resource (some ref) :: calls) := by
  refine fresh.cons fun other answer same => ?_
  cases same
  exact new

theorem Fresh.uniforms {calls : List Call} (fresh : Fresh calls) (ref : Ref) :
    Fresh (.uniforms ref :: calls) := fresh.cons fun _ _ same => nomatch same

theorem Fresh.destroy {calls : List Call} (fresh : Fresh calls) (kind : ResourceKind) (ref : Ref) :
    Fresh (.destroy kind ref :: calls) := fresh.cons fun _ _ same => nomatch same

theorem Lawful.cons {call : Call} {calls : List Call} (lawful : Lawful calls)
    (allowed : Allows (live calls) call) : Lawful (call :: calls) := by
  intro other earlier part
  rcases List.suffix_cons_iff.1 part with same | part
  · obtain ⟨rfl, rfl⟩ := List.cons_eq_cons.1 same
    exact allowed
  · exact lawful other earlier part

theorem live_destroy (kind : ResourceKind) (ref : Ref) (calls : List Call) :
    live (.destroy kind ref :: calls) = (live calls).filter (· ≠ (kind, ref)) := rfl

theorem live_releases (refs : List (ResourceKind × Ref)) (calls : List Call) :
    live (releases refs ++ calls) = (live calls).filter (· ∉ refs) := by
  induction refs generalizing calls with
  | nil => simp [releases]
  | cons ref refs ih =>
    obtain ⟨kind, ref⟩ := ref
    rw [releases_cons, List.append_assoc, List.singleton_append, ih, live_destroy,
      List.filter_filter]
    congr 1
    funext other
    by_cases same : other = (kind, ref) <;> simp [same]

/-- References which are live and different can be released one after the other. -/
theorem Lawful.releases {refs : List (ResourceKind × Ref)} (nodup : refs.Nodup) {calls : List Call}
    (lawful : Lawful calls) (subset : ∀ ref ∈ refs, ref ∈ live calls) :
    Lawful (Store.releases refs ++ calls) := by
  induction refs generalizing calls with
  | nil => exact lawful
  | cons ref refs ih =>
    obtain ⟨kind, ref⟩ := ref
    rw [List.nodup_cons] at nodup
    rw [releases_cons, List.append_assoc, List.singleton_append]
    have released : Lawful (.destroy kind ref :: calls) :=
      lawful.cons (subset (kind, ref) List.mem_cons_self)
    refine ih nodup.2 released fun other mem => ?_
    have ne : other ≠ (kind, ref) := fun same => nodup.1 (same ▸ mem)
    rw [live_destroy, List.mem_filter]
    exact ⟨subset other (List.mem_cons_of_mem _ mem), by simpa using ne⟩

/-- The references in the pools of all groups. -/
def refs (store : Store) : List (ResourceKind × Ref) :=
  store.groups.entries.flatMap fun entry => entry.2.refs

theorem refs_split {store : Store} {id : GroupId} {group : Group}
    (found : store.groups.get? id = some group) : ∃ front back,
      store.refs = front ++ group.refs ++ back ∧
        (∀ f : Group → Group, (store.updateGroup id f).refs = front ++ (f group).refs ++ back) ∧
        (⟨store.groups.erase id, store.next⟩ : Store).refs = front ++ back := by
  obtain ⟨front, back, entries, updated, erased⟩ := Table.split found
  refine ⟨front.flatMap fun entry => entry.2.refs, back.flatMap fun entry => entry.2.refs,
    ?_, fun f => ?_, ?_⟩
  · simp [refs, entries]
  · simp [refs, updateGroup, updated]
  · simp [refs, erased]

theorem perm_refs_push (group : Group) (kind : ResourceKind) (ref : Ref) :
    (group.push kind ref).refs.Perm (group.refs ++ [(kind, ref)]) := by
  rw [List.perm_iff_count]
  intro other
  cases kind <;>
    simp [Group.refs, ResourceKind.all, Group.push, Group.pool, List.count_append,
      List.count_cons] <;>
    omega

theorem perm_refs_updateGroup {store : Store} {id : GroupId} {group : Group}
    (found : store.groups.get? id = some group) (kind : ResourceKind) (ref : Ref) :
    (store.updateGroup id (Group.push kind ref)).refs.Perm (store.refs ++ [(kind, ref)]) := by
  obtain ⟨front, back, split, updated, -⟩ := refs_split found
  rw [updated, split]
  have grown := ((perm_refs_push group kind ref).append_left front).append_right back
  refine grown.trans ?_
  simp only [List.append_assoc]
  exact (List.perm_append_comm.append_left _).append_left _

theorem mem_refs {group : Group} {kind : ResourceKind} {ref : Ref} :
    (kind, ref) ∈ group.refs ↔ ref ∈ group.pool kind := by
  cases kind <;> simp [Group.refs, ResourceKind.all]

theorem mem_refs_of_get? (store : Store) {id : GroupId} {group : Group}
    (found : store.groups.get? id = some group) {ref : ResourceKind × Ref}
    (mem : ref ∈ group.refs) : ref ∈ store.refs := by
  obtain ⟨front, back, split, -⟩ := refs_split found
  rw [split]
  exact List.mem_append_left _ (List.mem_append_right _ mem)

theorem forall_updateGroup {store : Store} {id : GroupId} {group : Group} {f : Group → Group}
    {p : GroupId → Group → Prop} (found : store.groups.get? id = some group)
    (old : ∀ id group, store.groups.get? id = some group → p id group) (new : p id (f group)) :
    ∀ other group, (store.updateGroup id f).groups.get? other = some group → p other group := by
  intro other group' h
  rw [updateGroup, Table.get?_update] at h
  split at h
  · rename_i same
    subst same
    rw [found] at h
    cases h
    exact new
  · exact old other group' h

/-- A session after `n` groups were made. -/
structure Owned (n : Nat) (s : Session) : Prop where
  next : s.store.next = Int32.ofNat n
  numbers : ∀ id group, s.store.groups.get? id = some group → ∃ m < n, id = ⟨Int32.ofNat m⟩
  perm : (live s.calls).Perm s.store.refs
  nodup : (live s.calls).Nodup
  order : ∀ id group, s.store.groups.get? id = some group →
    ∀ kind, ((group.pool kind).toList.map (kind, ·)).Sublist (live s.calls)
  lawful : Lawful s.calls

theorem owned_start : Owned 0 .start where
  next := rfl
  numbers _ _ found := by cases found
  perm := .nil
  nodup := .nil
  order _ _ found := by cases found
  lawful _ _ part := by cases List.suffix_nil.1 part

theorem nodup_middle {α : Type} {front middle back : List α}
    (nodup : (front ++ middle ++ back).Nodup) :
    middle.Nodup ∧ ∀ a ∈ front ++ back, a ∉ middle := by
  obtain ⟨nodupFront, -, apart⟩ := List.nodup_append.1 nodup
  obtain ⟨-, nodupMiddle, apart'⟩ := List.nodup_append.1 nodupFront
  refine ⟨nodupMiddle, fun a mem own => ?_⟩
  rcases List.mem_append.1 mem with mem | mem
  · exact apart' a mem a own rfl
  · exact apart a (List.mem_append_right _ own) a mem rfl

theorem filter_middle {front middle back : List (ResourceKind × Ref)}
    (nodup : (front ++ middle ++ back).Nodup) :
    (front ++ middle ++ back).filter (· ∉ middle) = front ++ back := by
  have apart := (nodup_middle nodup).2
  have stays {part : List (ResourceKind × Ref)} (sub : ∀ a ∈ part, a ∈ front ++ back) :
      part.filter (· ∉ middle) = part :=
    List.filter_eq_self.2 fun a mem => decide_eq_true (apart a (sub a mem))
  have goes : middle.filter (· ∉ middle) = [] :=
    List.filter_eq_nil_iff.2 fun a mem => by simpa using mem
  rw [List.filter_append, List.filter_append, goes, List.append_nil,
    stays fun a mem => List.mem_append_left _ mem, stays fun a mem => List.mem_append_right _ mem]

namespace Owned
variable {n : Nat} {s : Session}

theorem nodup_refs (owned : Owned n s) : s.store.refs.Nodup := owned.perm.nodup_iff.1 owned.nodup

/-- A change of a group which leaves the pools as they are. -/
theorem keep (owned : Owned n s) {id : GroupId} {group : Group}
    (found : s.store.groups.get? id = some group) {f : Group → Group}
    (same : ∀ group kind, (f group).pool kind = group.pool kind) {calls : List Call}
    (live_eq : live calls = live s.calls) (lawful : Lawful calls) :
    Owned n ⟨s.store.updateGroup id f, calls⟩ := by
  have sameRefs : (f group).refs = group.refs := by
    simp only [Group.refs, same]
  obtain ⟨front, back, split, updated, -⟩ := refs_split found
  refine ⟨owned.next, ?_, ?_, live_eq ▸ owned.nodup, ?_, lawful⟩
  · exact forall_updateGroup found owned.numbers (owned.numbers id group found)
  · rw [live_eq, updated, sameRefs, ← split]
    exact owned.perm
  · refine forall_updateGroup found (live_eq ▸ owned.order) fun kind => ?_
    rw [same, live_eq]
    exact owned.order id group found kind

theorem refuse (owned : Owned n s) (id : GroupId) (resource : Resource) :
    Owned n (created id resource none s) := by
  have same : live (created id resource none s).calls = live s.calls := List.append_nil _
  exact ⟨owned.next, owned.numbers, same ▸ owned.perm, same ▸ owned.nodup, same ▸ owned.order,
    owned.lawful.cons trivial⟩

theorem create (owned : Owned n s) {id : GroupId} {group : Group} {resource : Resource} {ref : Ref}
    (found : s.store.groups.get? id = some group) (new : (resource.kind, ref) ∉ live s.calls) :
    Owned n (created id resource (some ref) s) := by
  have more : live (created id resource (some ref) s).calls =
      live s.calls ++ [(resource.kind, ref)] := rfl
  refine ⟨owned.next, ?_, ?_, ?_, ?_, owned.lawful.cons trivial⟩
  · exact forall_updateGroup found owned.numbers (owned.numbers id group found)
  · exact (owned.perm.append_right _).trans (perm_refs_updateGroup found resource.kind ref).symm
  · rw [more]
    refine List.nodup_append.2 ⟨owned.nodup, List.nodup_singleton _, fun a mem b last same => ?_⟩
    rw [List.mem_singleton.1 last] at same
    exact new (same ▸ mem)
  · rw [more]
    refine forall_updateGroup found ?_ ?_
    · intro other group' h kind
      exact (owned.order other group' h kind).trans (List.sublist_append_left _ _)
    · intro kind
      have old := owned.order id group found kind
      rw [Group.pool_push]
      split
      · rename_i same
        subst same
        rw [Array.toList_push, List.map_append]
        exact old.append (List.Sublist.refl _)
      · exact old.trans (List.sublist_append_left _ _)

theorem close (owned : Owned n s) {id : GroupId} {group : Group}
    (found : s.store.groups.get? id = some group) : Owned n (closed id group s) := by
  obtain ⟨front, back, split, -, erased⟩ := refs_split found
  obtain ⟨nodupGroup, others⟩ := nodup_middle (split ▸ owned.nodup_refs)
  have left : live (closed id group s).calls = (live s.calls).filter (· ∉ group.refs) :=
    live_releases _ _
  have known : ∀ other group', (s.store.groups.erase id).get? other = some group' →
      s.store.groups.get? other = some group' := by
    intro other group' h
    rw [Table.get?_erase] at h
    split at h
    · cases h
    · exact h
  refine ⟨owned.next, fun other group' h => owned.numbers other group' (known other group' h),
    ?_, ?_, ?_, ?_⟩
  · have rest := owned.perm.filter (· ∉ group.refs)
    rw [split, filter_middle (split ▸ owned.nodup_refs), ← erased] at rest
    rw [left]
    exact rest
  · rw [left]
    exact owned.nodup.filter _
  · intro other group' h kind
    have kept := (owned.order other group' (known other group' h) kind).filter (· ∉ group.refs)
    rw [List.filter_eq_self.2] at kept
    · rw [left]
      exact kept
    · intro pooled h'
      obtain ⟨ref, mem, rfl⟩ := List.mem_map.1 h'
      have there := mem_refs_of_get? ⟨s.store.groups.erase id, s.store.next⟩ h
        (mem_refs.2 (Array.mem_toList_iff.1 mem))
      rw [erased] at there
      exact decide_eq_true (others _ there)
  · exact Lawful.releases nodupGroup owned.lawful fun ref mem =>
      owned.perm.mem_iff.2 (mem_refs_of_get? s.store found mem)

/-- The number of a new group is not in use, as long as numbers do not wrap around. -/
theorem get?_next (owned : Owned n s) (few : n < 2 ^ 31) :
    s.store.groups.get? ⟨s.store.next⟩ = none := by
  cases found : s.store.groups.get? ⟨s.store.next⟩ with
  | none => rfl
  | some group =>
    obtain ⟨m, less, same⟩ := owned.numbers _ group found
    rw [owned.next] at same
    exact absurd (GroupId.ofNat_inj (by omega) (by omega) same) (Nat.ne_of_gt less)

theorem make (owned : Owned n s) (few : n < 2 ^ 31) (name : String) :
    Owned (n + 1) (opened name s) := by
  have new := owned.get?_next few
  have groups : ∀ id group, (opened name s).store.groups.get? id = some group →
      id = ⟨Int32.ofNat n⟩ ∧ group = .new ⟨s.store.next⟩ name ∨
        s.store.groups.get? id = some group := by
    intro id group found
    change (s.store.groups.insert _ _).get? id = some group at found
    rw [Table.get?_insert] at found
    split at found
    · rename_i same
      cases found
      exact .inl ⟨owned.next ▸ same, rfl⟩
    · exact .inr found
  refine ⟨?_, ?_, ?_, owned.nodup, ?_, owned.lawful⟩
  · change s.store.next + 1 = _
    rw [owned.next, Int32.ofNat_add]
    rfl
  · intro id group found
    rcases groups id group found with ⟨same, -⟩ | old
    · exact ⟨n, Nat.lt_succ_self n, same⟩
    · obtain ⟨m, less, same⟩ := owned.numbers id group old
      exact ⟨m, Nat.lt_succ_of_lt less, same⟩
  · have same : (opened name s).store.refs = s.store.refs := by
      simp only [opened, refs, Table.entries_insert new]
      rfl
    rw [same]
    exact owned.perm
  · intro id group found kind
    rcases groups id group found with ⟨-, rfl⟩ | old
    · cases kind <;> exact List.nil_sublist _
    · exact owned.order id group old kind

end Owned

theorem mem_of_shaderOf? {id : GroupId} {group : Group} {shader : AssetId} {ref : Ref}
    (own : shaderOf? id group shader = some ref) : (.shader, ref) ∈ group.refs := by
  rw [shaderOf?] at own
  split at own
  · obtain ⟨index, -, found⟩ := Option.bind_eq_some_iff.1 own
    exact mem_refs.2 (Array.mem_of_getElem? found)
  · cases own

theorem Change.suffix {s t : Session} (change : Change s t) : s.calls <:+ t.calls := by
  cases change with
  | create => exact List.suffix_cons _ _
  | ask => exact List.suffix_cons _ _
  | name asset name found =>
    rw [named]
    split <;> exact List.suffix_refl _
  | close => exact List.suffix_append _ _

theorem Changes.suffix {s t : Session} (changes : Changes s t) : s.calls <:+ t.calls := by
  induction changes with
  | refl => exact List.suffix_refl _
  | tail _ change ih => exact ih.trans change.suffix

theorem Owned.change {n : Nat} {s t : Session} (owned : Owned n s) (change : Change s t)
    (fresh : Fresh t.calls) : Owned n t := by
  cases change with
  | create resource answer found room =>
    cases answer with
    | none => exact owned.refuse _ resource
    | some ref => exact owned.create found (fresh resource ref s.calls (List.suffix_refl _))
  | ask reported found own room =>
    have mem := mem_refs_of_get? s.store found (mem_of_shaderOf? own)
    exact owned.keep found (fun group kind => Group.pool_pushContext group _ kind) rfl
      (owned.lawful.cons (owned.perm.mem_iff.2 mem))
  | name asset name found =>
    rw [named]
    split
    · exact owned
    · exact owned.keep found (fun group kind => Group.pool_setName group name asset kind) rfl
        owned.lawful
  | close found => exact owned.close found

theorem Owned.changes {n : Nat} {s t : Session} (owned : Owned n s) (changes : Changes s t)
    (fresh : Fresh t.calls) : Owned n t := by
  induction changes with
  | refl => exact owned
  | tail _ change ih => exact (ih (fresh.suffix change.suffix)).change change fresh

def Operation.makesGroup : Operation → Bool
  | createGroup _ => true
  | _ => false

theorem Operation.makesGroup_eq_false {operation : Operation}
    (old : ∀ name, operation ≠ .createGroup name) : operation.makesGroup = false := by
  cases operation with
  | createGroup name => exact absurd rfl (old name)
  | _ => rfl

theorem suffix_perform (backend : Backend) (files : FileTree) (operation : Operation)
    (s : Session) : s.calls <:+ (after (perform backend files operation) s).calls := by
  by_cases new : ∃ name, operation = .createGroup name
  · obtain ⟨name, rfl⟩ := new
    exact List.suffix_refl _
  · have old : ∀ name, operation ≠ .createGroup name := fun name same => new ⟨name, same⟩
    exact (changes_perform backend files old s).suffix

theorem suffix_run (steps : List Step) (s : Session) : s.calls <:+ (after (run steps) s).calls := by
  rw [after_run]
  induction steps generalizing s with
  | nil => exact List.suffix_refl _
  | cons step steps ih => exact (suffix_perform _ _ _ s).trans (ih _)

theorem owned_perform {n : Nat} {s : Session} (owned : Owned n s) (backend : Backend)
    (files : FileTree) (operation : Operation)
    (few : n + (if operation.makesGroup then 1 else 0) ≤ 2 ^ 31)
    (fresh : Fresh (after (perform backend files operation) s).calls) :
    Owned (n + if operation.makesGroup then 1 else 0)
      (after (perform backend files operation) s) := by
  by_cases new : ∃ name, operation = .createGroup name
  · obtain ⟨name, rfl⟩ := new
    have made : after (perform backend files (.createGroup name)) s = opened name s :=
      after_createGroup name s
    rw [made]
    exact owned.make few name
  · have old : ∀ name, operation ≠ .createGroup name := fun name same => new ⟨name, same⟩
    rw [Operation.makesGroup_eq_false old]
    exact owned.changes (changes_perform backend files old s) fresh

theorem owned_run {n : Nat} {s : Session} (owned : Owned n s) (steps : List Step)
    (few : n + steps.countP (·.operation.makesGroup) ≤ 2 ^ 31)
    (fresh : Fresh (after (run steps) s).calls) :
    Owned (n + steps.countP (·.operation.makesGroup)) (after (run steps) s) := by
  induction steps generalizing n s with
  | nil => exact owned
  | cons step steps ih =>
    rw [after_run_cons] at fresh ⊢
    rw [List.countP_cons, Nat.add_comm (List.countP _ _), ← Nat.add_assoc] at few ⊢
    exact ih (owned_perform owned _ _ _ (by omega) (fresh.suffix (suffix_run steps _))) few fresh

theorem owned_destroyGroup {n : Nat} {s : Session} (owned : Owned n s) (id : GroupId) :
    Owned n (after (destroyGroup id) s) := by
  rw [after_destroyGroup]
  split
  · exact owned
  · rename_i group found
    exact owned.close found

theorem owned_destroyGroups {n : Nat} {s : Session} (owned : Owned n s) (ids : List GroupId) :
    Owned n (after (ids.forM destroyGroup) s) := by
  rw [after_forM]
  induction ids generalizing s with
  | nil => exact owned
  | cons id ids ih => exact ih (owned_destroyGroup owned id)

theorem get?_destroyGroups (ids : List GroupId) (s : Session) (other : GroupId) :
    (after (ids.forM destroyGroup) s).store.groups.get? other =
      if other ∈ ids then none else s.store.groups.get? other := by
  rw [after_forM]
  induction ids generalizing s with
  | nil => simp
  | cons id ids ih =>
    have gone : (after (destroyGroup id) s).store.groups.get? other =
        if other = id then none else s.store.groups.get? other := by
      rw [after_destroyGroup]
      split
      · rename_i missing
        split
        · rename_i same
          rw [same, missing]
        · rfl
      · exact Table.get?_erase _ _ _
    rw [List.foldl_cons, ih, gone]
    by_cases same : other = id <;> by_cases more : other ∈ ids <;> simp [same, more]

theorem entries_destroyAll (s : Session) :
    (after destroyAll s).store.groups.entries = [] := by
  have missing : ∀ id, (after destroyAll s).store.groups.get? id = none := by
    intro id
    have gone := get?_destroyGroups
      (s.store.groups.keys.mergeSort fun a b => decide (a.number ≤ b.number)) s id
    refine gone.trans ?_
    split
    · rfl
    · rename_i other
      rw [List.mem_mergeSort] at other
      exact (Table.get?_eq_none_iff _ _).2 other
  rw [List.eq_nil_iff_forall_not_mem]
  intro entry mem
  exact (Table.get?_eq_none_iff _ _).1 (missing entry.1) (List.mem_map_of_mem mem)

/-- The reference in a place of a pool, which has a group and an index. -/
def slotRef? (store : Store) (kind : ResourceKind) (slot : GroupId × Nat) : Option Ref :=
  (store.groups.get? slot.1).bind fun group => (group.pool kind)[slot.2]?

theorem slotRef?_eq_some {store : Store} {kind : ResourceKind} {slot : GroupId × Nat} {ref : Ref} :
    slotRef? store kind slot = some ref ↔ ∃ group, store.groups.get? slot.1 = some group ∧
      (group.pool kind)[slot.2]? = some ref := Option.bind_eq_some_iff

namespace Owned
variable {n : Nat} {s : Session}

theorem mem_live (owned : Owned n s) {kind : ResourceKind} {slot : GroupId × Nat} {ref : Ref}
    (held : slotRef? s.store kind slot = some ref) : (kind, ref) ∈ live s.calls := by
  obtain ⟨group, found, pooled⟩ := slotRef?_eq_some.1 held
  exact owned.perm.mem_iff.2
    (mem_refs_of_get? s.store found (mem_refs.2 (Array.mem_of_getElem? pooled)))

theorem exists_slot (owned : Owned n s) {kind : ResourceKind} {ref : Ref}
    (mem : (kind, ref) ∈ live s.calls) : ∃ slot, slotRef? s.store kind slot = some ref := by
  obtain ⟨⟨id, group⟩, entry, own⟩ := List.mem_flatMap.1 (owned.perm.mem_iff.1 mem)
  obtain ⟨index, pooled⟩ := Array.mem_iff_getElem?.1 (mem_refs.1 own)
  exact ⟨(id, index), slotRef?_eq_some.2 ⟨group, Table.get?_of_mem entry, pooled⟩⟩

theorem slot_unique (owned : Owned n s) {kind : ResourceKind} {ref : Ref}
    {slot other : GroupId × Nat} (held : slotRef? s.store kind slot = some ref)
    (held' : slotRef? s.store kind other = some ref) : slot = other := by
  obtain ⟨id, index⟩ := slot
  obtain ⟨id', index'⟩ := other
  obtain ⟨group, found, pooled⟩ := slotRef?_eq_some.1 held
  obtain ⟨group', found', pooled'⟩ := slotRef?_eq_some.1 held'
  have same : id' = id := by
    by_cases same : id' = id
    · exact same
    -- The other group stays when the first one is erased, and the reference with it.
    · obtain ⟨front, back, split, -, erased⟩ := refs_split found
      have stays : (s.store.groups.erase id).get? id' = some group' := by
        rw [Table.get?_erase, if_neg same, found']
      have there := mem_refs_of_get? ⟨s.store.groups.erase id, s.store.next⟩ stays
        (mem_refs.2 (Array.mem_of_getElem? pooled'))
      rw [erased] at there
      exact absurd (mem_refs.2 (Array.mem_of_getElem? pooled))
        ((nodup_middle (split ▸ owned.nodup_refs)).2 _ there)
  subst same
  have equal : group' = group := Option.some.inj (found'.symm.trans found)
  subst equal
  have nodup : (group'.pool kind).toList.Nodup :=
    ((owned.order _ _ found kind).nodup owned.nodup).of_map _
  rw [← Array.getElem?_toList] at pooled pooled'
  have short := (List.getElem?_eq_some_iff.1 pooled).1
  exact congrArg (Prod.mk id') ((List.getElem?_inj short nodup).1 (pooled.trans pooled'.symm))

end Owned

/-- Each resource of a session is owned once and released once. -/
structure Ownership (s : Session) : Prop where
  /-- Nothing was released twice, or as something else than it is. -/
  lawful : Lawful s.calls
  nodup : (live s.calls).Nodup
  live_of_slot : ∀ kind slot ref, slotRef? s.store kind slot = some ref → (kind, ref) ∈ live s.calls
  unique_slot : ∀ kind ref, (kind, ref) ∈ live s.calls →
    ∃! slot, slotRef? s.store kind slot = some ref
  /-- Pools are in the order in which their resources were created. -/
  order : ∀ id group, s.store.groups.get? id = some group →
    ∀ kind, ((group.pool kind).toList.map (kind, ·)).Sublist (live s.calls)
  /-- The calls of a release, whose last one stands first, and which leaves the other resources. -/
  released : ∀ id group, s.store.groups.get? id = some group →
    (after (destroyGroup id) s).calls =
      (group.buffers.toList.map (Call.destroy .buffer) ++
        group.textures.toList.map (Call.destroy .texture) ++
        group.shaders.toList.map (Call.destroy .shader) ++
        group.audioBuffers.toList.map (Call.destroy .audioBuffer)).reverse ++ s.calls ∧
    live (after (destroyGroup id) s).calls = (live s.calls).filter (· ∉ group.refs) ∧
    (after (destroyGroup id) s).store.groups.get? id = none
  unreleased : ∀ id, s.store.groups.get? id = none → after (destroyGroup id) s = s
  emptied : live (after destroyAll s).calls = [] ∧
    (after destroyAll s).store.groups.entries = []

theorem Owned.ownership {n : Nat} {s : Session} (owned : Owned n s) : Ownership s where
  lawful := owned.lawful
  nodup := owned.nodup
  live_of_slot _ _ _ := owned.mem_live
  unique_slot kind ref mem := by
    obtain ⟨slot, held⟩ := owned.exists_slot mem
    exact ⟨slot, held, fun other held' => owned.slot_unique held' held⟩
  order := owned.order
  released id group found := by
    rw [after_destroyGroup, found]
    refine ⟨?_, live_releases _ _, ?_⟩
    · simp [closed, releases, Group.refs, ResourceKind.all, Group.pool, Function.comp_def]
    · exact (Table.get?_erase _ _ _).trans (if_pos rfl)
  unreleased id missing := by rw [after_destroyGroup, missing]
  emptied := by
    have perm : (live (after destroyAll s).calls).Perm (after destroyAll s).store.refs :=
      (owned_destroyGroups owned _).perm
    have none := entries_destroyAll s
    rw [refs, none] at perm
    exact ⟨List.perm_nil.1 perm, none⟩

/-- Whatever is done in a session, and whether it succeeds or fails, every resource which the
backend gave stands in one place of one pool of its kind until it is released. Numbers of groups
wrap around after the group which `few` still admits. -/
theorem ownership_run (steps : List Step) (few : steps.countP (·.operation.makesGroup) ≤ 2 ^ 31)
    (fresh : Fresh (after (run steps) .start).calls) : Ownership (after (run steps) .start) :=
  (owned_run owned_start steps (by omega) fresh).ownership

/-- A backend which numbers its resources. -/
def countingBackend : Backend where
  create calls _ := some ⟨calls.length⟩
  uniforms _ _ := []

def countingStep (operation : Operation) : Step := ⟨countingBackend, ⟨.empty, []⟩, operation⟩

/-- Two groups, one of which is released, and a call which fails. -/
def twoGroups : List Step :=
  [.createGroup "level", .createGroup "menu", .push ⟨0⟩ (.buffer ⟨.vertex, [1]⟩),
    .pushContextOf ⟨1⟩ (.compute "main"), .destroyGroup ⟨0⟩,
    .push ⟨0⟩ (.buffer ⟨.vertex, []⟩)].map countingStep

theorem calls_twoGroups : (after (run twoGroups) .start).calls =
    [.destroy .buffer ⟨0⟩, .uniforms ⟨1⟩, .create (.shader (.compute "main")) (some ⟨1⟩),
      .create (.buffer ⟨.vertex, [1]⟩) (some ⟨0⟩)] := by decide +kernel

theorem fresh_twoGroups : Fresh (after (run twoGroups) .start).calls := by
  rw [calls_twoGroups]
  have first : Fresh [.create (.buffer ⟨.vertex, [1]⟩) (some ⟨0⟩)] := Fresh.nil.create (by decide)
  exact ((first.create (by decide)).uniforms ⟨1⟩).destroy .buffer ⟨0⟩

theorem ownership_run_twoGroups : live (after (run twoGroups) .start).calls = [(.shader, ⟨1⟩)] ∧
    Fresh (after (run twoGroups) .start).calls ∧
    (∃! slot, slotRef? (after (run twoGroups) .start).store .shader slot = some ⟨1⟩) ∧
    (after destroyAll (after (run twoGroups) .start)).store.groups.entries = [] := by
  have owned := ownership_run twoGroups (by decide) fresh_twoGroups
  have lives : live (after (run twoGroups) .start).calls = [(.shader, ⟨1⟩)] := by
    rw [calls_twoGroups]
    decide
  refine ⟨lives, fresh_twoGroups, owned.unique_slot .shader ⟨1⟩ ?_, owned.emptied.2⟩
  rw [lives]
  exact List.mem_singleton_self _

end Store

end AssetPack

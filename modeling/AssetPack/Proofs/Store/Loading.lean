import AssetPack.Proofs.Store.Pushing

/-! Packages which are loaded into a group. Their records are added one after the other, each to the
pool of its type and under its name, up to the first which the group or the backend does not take;
what was added before stays. -/

namespace AssetPack

/-- The kind of the resource which is made of an asset. -/
def PackagedAsset.kind (asset : PackagedAsset) : ResourceKind := (Store.resourceOf asset).kind

theorem PackagedAsset.type_kind (asset : PackagedAsset) : asset.kind.type = asset.type := by
  cases asset <;> rfl

/-- Records of a package which were added, each with what the backend gave for it. -/
abbrev Intake := List (Package.Record × Ref)

namespace Group
variable {id : GroupId} {group group' : Group} {record : Package.Record} {ref : Ref}
  {added before : Intake} {kind : ResourceKind}

/-! A group to which records are added. -/

theorem count_asset (group : Group) (asset : PackagedAsset) :
    group.count asset.type = (group.pool asset.kind).size := by
  rw [← asset.type_kind, count_type]

/-- How many assets of a kind the group has once the records are added to it. -/
def countAfter (group : Group) (before : Intake) (kind : ResourceKind) : Nat :=
  (group.pool kind).size + before.countP fun earlier => earlier.1.asset.kind = kind

/-- The handle of a record which is added after others. -/
def handleAfter (id : GroupId) (group : Group) (before : Intake) (record : Package.Record) :
    AssetId :=
  ⟨record.asset.type, id, Int16.ofNat (group.countAfter before record.asset.kind)⟩

/-- What the backend gave for the records of one kind. -/
def refsOf (kind : ResourceKind) (added : Intake) : List Ref :=
  (added.filter fun addition => addition.1.asset.kind = kind).map Prod.snd

/-- What adding records to a group comes to: the pools are longer at their ends and have not changed
otherwise, each record has the handle which counts those of its type before it, and each of their
names stands for the last record which has it. -/
structure Takes (id : GroupId) (added : Intake) (group group' : Group) : Prop where
  name : group'.name = group.name
  contexts : group'.contexts = group.contexts
  pools : ∀ kind, (group'.pool kind).toList = (group.pool kind).toList ++ refsOf kind added
  placed : ∀ before record ref after, added = before ++ (record, ref) :: after →
    (group.handleAfter id before record).slot? =
        some (group.countAfter before record.asset.kind) ∧
      (group'.pool record.asset.kind)[group.countAfter before record.asset.kind]? = some ref
  named : ∀ before record ref after, added = before ++ (record, ref) :: after →
    record.name ≠ reservedName → (∀ later ∈ after, later.1.name ≠ record.name) →
      group'.names.get? record.name = some (group.handleAfter id before record)
  kept : ∀ name, name = reservedName ∨ (∀ addition ∈ added, addition.1.name ≠ name) →
    group'.names.get? name = group.names.get? name

/-- The group after one record was added. -/
def addRecord (id : GroupId) (record : Package.Record) (ref : Ref) (group : Group) : Group :=
  let pushed := group.push record.asset.kind ref
  if record.name = reservedName then pushed
  else pushed.setName record.name (group.handleAfter id [] record)

theorem name_addRecord : (group.addRecord id record ref).name = group.name := by
  have pushed := group.name_add (.resource record.asset.kind ref)
  rw [addRecord]
  split
  · exact pushed
  · exact pushed

theorem contexts_addRecord : (group.addRecord id record ref).contexts = group.contexts := by
  have pushed : (group.push record.asset.kind ref).contexts = group.contexts := by
    cases record.asset.kind <;> rfl
  rw [addRecord]
  split
  · exact pushed
  · exact pushed

theorem pool_addRecord (kind : ResourceKind) : (group.addRecord id record ref).pool kind =
    if kind = record.asset.kind then (group.pool kind).push ref else group.pool kind := by
  rw [addRecord]
  split
  · exact pool_push ..
  · exact (pool_setName ..).trans (pool_push ..)

theorem get?_names_addRecord (name : String) : (group.addRecord id record ref).names.get? name =
    if name = record.name ∧ name ≠ reservedName then some (group.handleAfter id [] record)
    else group.names.get? name := by
  have names : (group.push record.asset.kind ref).names = group.names :=
    group.names_add (.resource record.asset.kind ref)
  rw [addRecord]
  by_cases reserved : record.name = reservedName
  · rw [if_pos reserved, if_neg fun both => both.2 (both.1.trans reserved), names]
  · rw [if_neg reserved, setName, Table.get?_insert, names]
    by_cases same : name = record.name
    · rw [if_pos same, if_pos ⟨same, same ▸ reserved⟩]
    · rw [if_neg same, if_neg fun both => same both.1]

theorem countAfter_addRecord (kind : ResourceKind) :
    (group.addRecord id record ref).countAfter before kind =
      group.countAfter ((record, ref) :: before) kind := by
  rw [countAfter, countAfter, pool_addRecord, List.countP_cons]
  by_cases same : kind = record.asset.kind
  · rw [if_pos same, if_pos (decide_eq_true same.symm), Array.size_push]
    omega
  · rw [if_neg same, if_neg fun same' => same (of_decide_eq_true same').symm]
    omega

theorem handleAfter_addRecord (other : Package.Record) :
    (group.addRecord id record ref).handleAfter id before other =
      group.handleAfter id ((record, ref) :: before) other := by
  rw [handleAfter, handleAfter, countAfter_addRecord]

theorem refsOf_cons : refsOf kind ((record, ref) :: added) =
    (if kind = record.asset.kind then [ref] else []) ++ refsOf kind added := by
  rw [refsOf, List.filter_cons, refsOf]
  by_cases same : kind = record.asset.kind
  · rw [if_pos same, if_pos (decide_eq_true same.symm)]
    rfl
  · rw [if_neg same, if_neg fun same' => same (of_decide_eq_true same').symm]
    rfl

theorem Takes.nil (id : GroupId) (group : Group) : Takes id [] group group where
  name := rfl
  contexts := rfl
  pools kind := (List.append_nil _).symm
  placed before record ref after split := by simp at split
  named before record ref after split := by simp at split
  kept name free := rfl

theorem Takes.pools_cons (rest : Takes id added (group.addRecord id record ref) group')
    (kind : ResourceKind) : (group'.pool kind).toList =
      (group.pool kind).toList ++ refsOf kind ((record, ref) :: added) := by
  rw [rest.pools, pool_addRecord, refsOf_cons]
  split
  · rw [Array.toList_push, List.append_assoc]
  · rw [List.nil_append]

/-- A record is added to a group with room for it, and then others are. -/
theorem Takes.cons (room : group.count record.asset.type < poolLimit)
    (rest : Takes id added (group.addRecord id record ref) group') :
    Takes id ((record, ref) :: added) group group' where
  name := rest.name.trans name_addRecord
  contexts := rest.contexts.trans contexts_addRecord
  pools := rest.pools_cons
  placed before other ref' after split := by
    rcases List.cons_eq_append_iff.1 split with ⟨rfl, same⟩ | ⟨before, rfl, behind⟩
    · cases same
      rw [count_asset] at room
      refine ⟨AssetId.slot?_eq_some.2 ⟨room, rfl⟩, ?_⟩
      -- What is added later stands behind the reference of this record.
      rw [← Array.getElem?_toList, rest.pools_cons, refsOf_cons, if_pos rfl, countAfter]
      simp
    · rw [← handleAfter_addRecord, ← countAfter_addRecord]
      exact rest.placed before other ref' after behind
  named before other ref' after split free last := by
    rcases List.cons_eq_append_iff.1 split with ⟨rfl, same⟩ | ⟨before, rfl, behind⟩
    · cases same
      rw [rest.kept _ (.inr last), get?_names_addRecord, if_pos ⟨rfl, free⟩]
    · rw [← handleAfter_addRecord]
      exact rest.named before other ref' after behind free last
  kept name free := by
    have later : name = reservedName ∨ ∀ addition ∈ added, addition.1.name ≠ name :=
      free.imp_right fun free addition mem => free addition (.tail _ mem)
    rw [rest.kept name later, get?_names_addRecord, if_neg]
    rintro ⟨same, unreserved⟩
    exact free.elim unreserved fun free => free _ (.head _) same.symm

end Group

namespace Store
open Process
variable {backend : Backend} {id : GroupId} {s t : Session} {group : Group} {asset : AssetId}
  {record : Package.Record} {ref : Ref} {added : Intake}

/-! One record after the other. -/

/-- The calls which make the resources of records, the newest one first. -/
def creations (added : Intake) : List Call :=
  (added.map fun (record, ref) => .create (resourceOf record.asset) (some ref)).reverse

theorem creations_cons : creations ((record, ref) :: added) =
    creations added ++ [.create (resourceOf record.asset) (some ref)] := List.reverse_cons

/-- What adding records to a group of a session comes to: the backend gave what was asked for, one
record after the other, and it was put into the group; no other group has changed. -/
structure Gains (backend : Backend) (id : GroupId) (added : Intake) (s t : Session) : Prop where
  calls : t.calls = creations added ++ s.calls
  given : ∀ before record ref after, added = before ++ (record, ref) :: after →
    backend.create (creations before ++ s.calls) (resourceOf record.asset) = some ref
  next : t.store.next = s.store.next
  others : ∀ other ≠ id, t.store.groups.get? other = s.store.groups.get? other
  group : ∃ group group', s.store.groups.get? id = some group ∧
    t.store.groups.get? id = some group' ∧ group.Takes id added group'

/-- How adding records to a group ends: all were added, or those in front of one for which the pool
of its type has no room, or in front of one which the backend does not create. -/
inductive Ends (backend : Backend) (id : GroupId) (records : List Package.Record) (s : Session) :
    Except Error Unit × Session → Prop
  | complete {added : Intake} {t : Session} (gains : Gains backend id added s t)
    (all : records = added.map Prod.fst) : Ends backend id records s (.ok (), t)
  | poolFull {added : Intake} {record : Package.Record} {rest : List Package.Record} {t : Session}
    {group : Group} (gains : Gains backend id added s t)
    (split : records = added.map Prod.fst ++ record :: rest)
    (found : t.store.groups.get? id = some group)
    (full : Group.poolLimit ≤ group.count record.asset.type) :
    Ends backend id records s (.error (.poolFull id record.asset.type), t)
  | refused {added : Intake} {record : Package.Record} {rest : List Package.Record} {t : Session}
    {group : Group} (gains : Gains backend id added s t)
    (split : records = added.map Prod.fst ++ record :: rest)
    (found : t.store.groups.get? id = some group)
    (room : group.count record.asset.type < Group.poolLimit)
    (refuses : backend.create t.calls (resourceOf record.asset) = none) :
    Ends backend id records s (.error (.backend id record.asset.type),
      { t with calls := .create (resourceOf record.asset) none :: t.calls })

/-- The session after a record was added. -/
def recorded (asset : AssetId) (record : Package.Record) (ref : Ref) (s : Session) : Session :=
  named asset record.name (created asset.group (resourceOf record.asset) (some ref) s)

theorem get?_recorded (found : s.store.groups.get? id = some group) :
    (recorded (group.handleAfter id [] record) record ref s).store.groups.get? id =
      some (group.addRecord id record ref) := by
  have pushed := get?_updateGroup found (Group.push record.asset.kind ref)
  rw [recorded, named, Group.addRecord]
  split
  · exact pushed
  · exact get?_updateGroup pushed _

theorem get?_recorded_ne {other : GroupId} (ne : other ≠ asset.group) :
    (recorded asset record ref s).store.groups.get? other = s.store.groups.get? other := by
  have pushed : (s.store.updateGroup asset.group _).groups.get? other = _ :=
    (Table.get?_update _ _ _ (Group.push record.asset.kind ref)).trans (if_neg ne)
  rw [recorded, named]
  split
  · exact pushed
  · exact ((Table.get?_update ..).trans (if_neg ne)).trans pushed

theorem calls_recorded : (recorded asset record ref s).calls =
    .create (resourceOf record.asset) (some ref) :: s.calls := by
  rw [recorded, named]
  split <;> rfl

theorem next_recorded : (recorded asset record ref s).store.next = s.store.next := by
  rw [recorded, named]
  split <;> rfl

theorem Gains.nil (found : s.store.groups.get? id = some group) : Gains backend id [] s s where
  calls := rfl
  given before record ref after split := by simp at split
  next := rfl
  others _ _ := rfl
  group := ⟨group, group, found, found, .nil id group⟩

theorem Gains.cons (found : s.store.groups.get? id = some group)
    (room : group.count record.asset.type < Group.poolLimit)
    (gives : backend.create s.calls (resourceOf record.asset) = some ref)
    (rest : Gains backend id added (recorded (group.handleAfter id [] record) record ref s) t) :
    Gains backend id ((record, ref) :: added) s t where
  calls := by
    rw [rest.calls, calls_recorded, creations_cons, List.append_assoc]
    rfl
  given before other ref' after split := by
    -- The first record was asked for in `s`, the others behind it.
    rcases List.cons_eq_append_iff.1 split with ⟨rfl, same⟩ | ⟨before, rfl, behind⟩
    · cases same
      exact gives
    · rw [creations_cons, List.append_assoc]
      have given := rest.given before other ref' after behind
      rwa [calls_recorded] at given
  next := rest.next.trans next_recorded
  others other ne := (rest.others other ne).trans (get?_recorded_ne ne)
  group := by
    obtain ⟨group₁, group', found₁, found', takes⟩ := rest.group
    cases (get?_recorded found).symm.trans found₁
    exact ⟨group, group', found, found', takes.cons room⟩

/-- The records behind one which was added decide how adding them all ends. -/
theorem Ends.cons {records : List Package.Record} {result : Except Error Unit × Session}
    (found : s.store.groups.get? id = some group)
    (room : group.count record.asset.type < Group.poolLimit)
    (gives : backend.create s.calls (resourceOf record.asset) = some ref)
    (rest : Ends backend id records (recorded (group.handleAfter id [] record) record ref s)
      result) : Ends backend id (record :: records) s result := by
  cases rest with
  | complete gains all =>
    exact .complete (gains.cons found room gives) (congrArg (record :: ·) all)
  | poolFull gains split found' full =>
    exact .poolFull (gains.cons found room gives) (congrArg (record :: ·) split) found' full
  | refused gains split found' room' refuses =>
    exact .refused (gains.cons found room gives) (congrArg (record :: ·) split) found' room'
      refuses

end Store

end AssetPack

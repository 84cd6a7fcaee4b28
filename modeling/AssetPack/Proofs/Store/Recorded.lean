import AssetPack.Proofs.Store.Ownership

/-! What the history of a store says about it: the pools of its groups hold what was added to them,
and nothing was added twice under one handle. -/

namespace AssetPack

namespace AssetId

theorem slot?_eq_some {asset : AssetId} {index : Nat} :
    asset.slot? = some index ↔ index < 2 ^ 15 ∧ asset.index = Int16.ofNat index := by
  rw [slot?, Option.ite_none_right_eq_some, Option.some.injEq]
  constructor
  · rintro ⟨positive, rfl⟩
    exact ⟨Int16.toNatClampNeg_lt _, (Int16.ofNat_toNatClampNeg _ positive).symm⟩
  · rintro ⟨less, same⟩
    rw [same]
    refine ⟨?_, Int16.toNatClampNeg_ofNat_of_lt less⟩
    rw [Int16.le_iff_toInt_le, Int16.toInt_ofNat_of_lt less]
    exact Int.natCast_nonneg index

end AssetId

namespace Group

/-- The contents of a pool with their handles. -/
def held (id : GroupId) (group : Group) (pool : Pool) : List (AssetId × Content) :=
  (group.contents pool).mapIdx fun index content => (⟨pool.type, id, Int16.ofNat index⟩, content)

theorem mem_held {id : GroupId} {group : Group} {pool : Pool} {asset : AssetId}
    {content : Content} : (asset, content) ∈ group.held id pool ↔
      ∃ index, (group.contents pool)[index]? = some content ∧
        asset = ⟨pool.type, id, Int16.ofNat index⟩ := by
  simp only [held, List.mem_mapIdx, Prod.mk.injEq]
  constructor
  · rintro ⟨index, less, rfl, rfl⟩
    exact ⟨index, List.getElem?_eq_getElem less, rfl⟩
  · rintro ⟨index, there, rfl⟩
    obtain ⟨less, same⟩ := List.getElem?_eq_some_iff.1 there
    exact ⟨index, less, rfl, same⟩

theorem held_add (id : GroupId) (group : Group) (content : Content) (pool : Pool) :
    (group.add content).held id pool = if pool = content.pool
      then group.held id pool ++
        [(⟨pool.type, id, Int16.ofNat (group.contents pool).length⟩, content)]
      else group.held id pool := by
  rw [held, contents_add]
  split
  · rw [List.mapIdx_concat, held]
  · rfl

end Group

namespace Store
open Process

def Event.addition? : Event → Option (AssetId × Content)
  | added asset content => some (asset, content)
  | _ => none

/-- What was added, with the handles which it was added under. -/
def additions (history : List Event) : List (AssetId × Content) :=
  history.filterMap Event.addition?

theorem mem_additions {history : List Event} {asset : AssetId} {content : Content} :
    (asset, content) ∈ additions history ↔ .added asset content ∈ history := by
  rw [additions, List.mem_filterMap]
  constructor
  · rintro ⟨event, mem, same⟩
    cases event <;> cases same
    exact mem
  · intro mem
    exact ⟨_, mem, rfl⟩

theorem additions_added (history : List Event) (asset : AssetId) (content : Content) :
    additions (history ++ [.added asset content]) = additions history ++ [(asset, content)] := by
  simp [additions, Event.addition?]

theorem additions_other (history : List Event) {event : Event} (none : event.addition? = none) :
    additions (history ++ [event]) = additions history := by
  simp [additions, none]

/-- Whether something was added to a pool of a group. -/
def AddedTo (id : GroupId) (pool : Pool) (entry : AssetId × Content) : Prop :=
  entry.1.group = id ∧ entry.2.pool = pool

instance (id : GroupId) (pool : Pool) (entry : AssetId × Content) :
    Decidable (AddedTo id pool entry) := inferInstanceAs (Decidable (_ ∧ _))

theorem filter_addedTo (asset : AssetId) (content : Content) (id : GroupId) (pool : Pool) :
    [(asset, content)].filter (AddedTo id pool) =
      if asset.group = id ∧ content.pool = pool then [(asset, content)] else [] := by
  rw [List.filter_cons, List.filter_nil]
  exact if_congr decide_eq_true_iff rfl rfl

def Event.isMade : Event → Bool
  | made .. => true
  | _ => false

/-- A group of a store whose history is known: its pools hold what was added to them. -/
def Keeps (history : List Event) (id : GroupId) (group : Group) : Prop :=
  ∀ pool, (group.contents pool).length ≤ Group.poolLimit ∧
    (additions history).filter (AddedTo id pool) = group.held id pool

namespace Keeps
variable {history : List Event} {id : GroupId} {group : Group} {asset : AssetId} {content : Content}

/-- What was added under a handle stands in its place of the pool, and nothing else does. -/
theorem mem_additions_iff (keeps : Keeps history asset.group group) {pool : Pool} :
    (asset, content) ∈ additions history ∧ content.pool = pool ↔ asset.type = pool.type ∧
      ∃ index, asset.slot? = some index ∧ (group.contents pool)[index]? = some content := by
  obtain ⟨room, held⟩ := keeps pool
  have filtered : (asset, content) ∈ group.held asset.group pool ↔
      (asset, content) ∈ additions history ∧ content.pool = pool := by
    rw [← held, List.mem_filter, decide_eq_true_iff]
    exact and_congr_right fun _ => ⟨And.right, fun same => ⟨rfl, same⟩⟩
  rw [← filtered, Group.mem_held]
  constructor
  · rintro ⟨index, there, same⟩
    have less := (List.getElem?_eq_some_iff.1 there).1
    have slot := AssetId.slot?_eq_some.2
      ⟨Nat.lt_of_lt_of_le less room, congrArg AssetId.index same⟩
    exact ⟨congrArg AssetId.type same, index, slot, there⟩
  · rintro ⟨typed, index, slot, there⟩
    refine ⟨index, there, ?_⟩
    rw [← typed, ← (AssetId.slot?_eq_some.1 slot).2]

theorem add (keeps : Keeps history asset.group group)
    (next : group.nextId? asset.group content.pool.type = some asset) :
    Keeps (history ++ [.added asset content]) asset.group (group.add content) := by
  obtain ⟨room, same⟩ := nextId?_eq_some.1 next
  rw [Group.count_pool] at room same
  intro pool
  rw [additions_added, List.filter_append, (keeps pool).2, filter_addedTo, Group.held_add,
    Group.contents_add]
  by_cases into : pool = content.pool
  · subst into
    rw [if_pos rfl, if_pos rfl, if_pos ⟨rfl, rfl⟩, List.length_append, ← same]
    exact ⟨room, rfl⟩
  · rw [if_neg into, if_neg into, if_neg fun within => into within.2.symm, List.append_nil]
    exact ⟨(keeps pool).1, rfl⟩

theorem elsewhere (keeps : Keeps history id group) (other : asset.group ≠ id) :
    Keeps (history ++ [.added asset content]) id group := by
  intro pool
  rw [additions_added, List.filter_append, (keeps pool).2, filter_addedTo,
    if_neg fun within => other within.1, List.append_nil]
  exact ⟨(keeps pool).1, rfl⟩

theorem congr {group' : Group} {history' : List Event} (keeps : Keeps history id group)
    (contents : ∀ pool, group'.contents pool = group.contents pool)
    (same : additions history' = additions history) : Keeps history' id group' := by
  intro pool
  rw [Group.held, contents, same]
  exact keeps pool

end Keeps

/-- A store after `n` groups were made, and what its history says about it. -/
structure Recorded (n : Nat) (history : List Event) (store : Store) : Prop where
  next : store.next = Int32.ofNat n
  known : ∀ id group, store.groups.get? id = some group →
    (∃ m < n, id = ⟨Int32.ofNat m⟩) ∧ Keeps history id group
  past : ∀ asset content, (asset, content) ∈ additions history →
    (∃ m < n, asset.group = ⟨Int32.ofNat m⟩) ∧ asset.type = content.pool.type
  nodup : ((additions history).map Prod.fst).Nodup

namespace Recorded
variable {n : Nat} {history : List Event} {store : Store}

theorem start : Recorded 0 [] .empty where
  next := rfl
  known _ _ found := by cases found
  past _ _ mem := by cases mem
  nodup := List.nodup_nil

/-- Something stands under a handle if and only if it was added under it to a group which exists. -/
theorem content?_eq_some_iff (recorded : Recorded n history store) {pool : Pool} {asset : AssetId}
    {content : Content} : store.content? pool asset = some content ↔
      (store.groups.get? asset.group).isSome = true ∧ content.pool = pool ∧
        (asset, content) ∈ additions history := by
  rw [content?_eq_some, Option.isSome_iff_exists]
  constructor
  · rintro ⟨typed, group, index, found, slot, there⟩
    obtain ⟨mem, pooled⟩ :=
      (recorded.known _ group found).2.mem_additions_iff.2 ⟨typed, index, slot, there⟩
    exact ⟨⟨group, found⟩, pooled, mem⟩
  · rintro ⟨⟨group, found⟩, pooled, mem⟩
    obtain ⟨typed, index, slot, there⟩ :=
      (recorded.known _ group found).2.mem_additions_iff.1 ⟨mem, pooled⟩
    exact ⟨typed, group, index, found, slot, there⟩

/-- A handle in use stands for one thing, which only the pool of its type gives. -/
theorem content?_of_addition (recorded : Recorded n history store) {asset : AssetId}
    {content : Content} (mem : (asset, content) ∈ additions history) (pool : Pool) :
    store.content? pool asset =
      if pool = content.pool ∧ (store.groups.get? asset.group).isSome = true
      then some content else none := by
  split
  · rename_i here
    obtain ⟨rfl, exists'⟩ := here
    exact recorded.content?_eq_some_iff.2 ⟨exists', rfl, mem⟩
  · rename_i elsewhere
    cases other : store.content? pool asset with
    | none => rfl
    | some content' =>
      obtain ⟨exists', rfl, mem'⟩ := recorded.content?_eq_some_iff.1 other
      have typed := (recorded.past _ _ mem').2.symm.trans (recorded.past _ _ mem).2
      exact absurd ⟨Pool.type_inj.1 typed, exists'⟩ elsewhere

/-- The handle of the next asset was not given away before. -/
theorem fresh (recorded : Recorded n history store) {asset : AssetId} {group : Group} {pool : Pool}
    (found : store.groups.get? asset.group = some group)
    (next : group.nextId? asset.group pool.type = some asset) (content : Content) :
    (asset, content) ∉ additions history := by
  intro mem
  obtain ⟨room, same⟩ := nextId?_eq_some.1 next
  rw [Group.count_pool] at room same
  have typed := (recorded.past _ _ mem).2.symm.trans (congrArg AssetId.type same)
  obtain rfl := Pool.type_inj.1 typed
  obtain ⟨-, index, slot, there⟩ :=
    (recorded.known _ group found).2.mem_additions_iff.1 ⟨mem, rfl⟩
  -- The place behind the last one would be one of those before it.
  have last := AssetId.slot?_eq_some.2 ⟨room, congrArg AssetId.index same⟩
  exact Nat.ne_of_lt (List.getElem?_eq_some_iff.1 there).1 (Option.some.inj (slot.symm.trans last))

theorem make (recorded : Recorded n history store) (few : n < 2 ^ 31) (name : String) :
    Recorded (n + 1) (history ++ [.made ⟨store.next⟩ name])
      (Event.apply store (.made ⟨store.next⟩ name)) := by
  have same : additions (history ++ [.made ⟨store.next⟩ name]) = additions history :=
    additions_other history rfl
  refine ⟨?_, fun id group found => ?_, fun asset content mem => ?_, same ▸ recorded.nodup⟩
  · change store.next + 1 = _
    rw [recorded.next, Int32.ofNat_add]
    rfl
  · change (store.groups.insert _ _).get? id = some group at found
    rw [Table.get?_insert] at found
    split at found
    -- Nothing was added to a group with this number before.
    · rename_i new
      cases found
      rw [recorded.next] at new
      refine ⟨⟨n, Nat.lt_succ_self n, new⟩, fun pool => ?_⟩
      rw [Group.held, Group.contents_new, same]
      refine ⟨Nat.zero_le _, List.filter_eq_nil_iff.2 fun entry mem => ?_⟩
      intro within
      obtain ⟨here, -⟩ := of_decide_eq_true within
      obtain ⟨m, less, old⟩ := (recorded.past _ _ mem).1
      exact Nat.ne_of_lt less (GroupId.ofNat_inj (by omega) (by omega)
        (old.symm.trans (here.trans new)))
    · obtain ⟨⟨m, less, old⟩, keeps⟩ := recorded.known id group found
      exact ⟨⟨m, Nat.lt_succ_of_lt less, old⟩, keeps.congr (fun _ => rfl) same⟩
  · rw [same] at mem
    obtain ⟨⟨m, less, old⟩, typed⟩ := recorded.past asset content mem
    exact ⟨⟨m, Nat.lt_succ_of_lt less, old⟩, typed⟩

theorem add (recorded : Recorded n history store) {asset : AssetId} {content : Content}
    (admitted : Event.Admitted store (.added asset content)) :
    Recorded n (history ++ [.added asset content]) (Event.apply store (.added asset content)) := by
  obtain ⟨group, found, next⟩ := admitted
  refine ⟨recorded.next, fun id group' found' => ?_, fun other content' mem => ?_, ?_⟩
  · change (store.groups.update _ _).get? id = some group' at found'
    rw [Table.get?_update] at found'
    split at found'
    · rename_i here
      subst here
      rw [found] at found'
      cases found'
      obtain ⟨number, keeps⟩ := recorded.known _ group found
      exact ⟨number, keeps.add next⟩
    · rename_i other
      obtain ⟨number, keeps⟩ := recorded.known id group' found'
      exact ⟨number, keeps.elsewhere (Ne.symm other)⟩
  · rw [additions_added] at mem
    rcases List.mem_append.1 mem with mem | mem
    · exact recorded.past other content' mem
    · cases List.mem_singleton.1 mem
      exact ⟨(recorded.known _ group found).1, congrArg AssetId.type (nextId?_eq_some.1 next).2⟩
  · rw [additions_added, List.map_append, List.nodup_append]
    refine ⟨recorded.nodup, List.nodup_singleton _, fun other mem last mem' equal => ?_⟩
    obtain ⟨⟨handle, content'⟩, old, here⟩ := List.mem_map.1 mem
    have twice : handle = asset := (here.trans equal).trans (List.mem_singleton.1 mem')
    exact recorded.fresh found next content' (twice ▸ old)

/-- An event which leaves the pools of the groups which remain as they are. -/
theorem keep (recorded : Recorded n history store) {event : Event} {store' : Store}
    (none : event.addition? = none) (next : store'.next = store.next)
    (groups : ∀ id group', store'.groups.get? id = some group' →
      ∃ group, store.groups.get? id = some group ∧
        ∀ pool, group'.contents pool = group.contents pool) :
    Recorded n (history ++ [event]) store' := by
  have same := additions_other history none
  refine ⟨next.trans recorded.next, fun id group' found' => ?_, same ▸ recorded.past,
    same ▸ recorded.nodup⟩
  obtain ⟨group, found, contents⟩ := groups id group' found'
  obtain ⟨number, keeps⟩ := recorded.known id group found
  exact ⟨number, keeps.congr contents same⟩

theorem apply (recorded : Recorded n history store) {event : Event}
    (admitted : event.Admitted store) (few : n + (if event.isMade then 1 else 0) ≤ 2 ^ 31) :
    Recorded (n + if event.isMade then 1 else 0) (history ++ [event]) (event.apply store) := by
  cases event with
  | made id name =>
    cases admitted
    exact recorded.make few name
  | added asset content => exact recorded.add admitted
  | named asset name =>
    refine recorded.keep rfl rfl fun id group' found' => ?_
    change (store.groups.update _ _).get? id = some group' at found'
    rw [Table.get?_update] at found'
    split at found'
    · obtain ⟨group, found, rfl⟩ := Option.map_eq_some_iff.1 found'
      exact ⟨group, found, Group.contents_setName group name asset⟩
    · exact ⟨group', found', fun _ => rfl⟩
  | closed id =>
    refine recorded.keep rfl rfl fun other group' found' => ?_
    change (store.groups.erase id).get? other = some group' at found'
    rw [Table.get?_erase] at found'
    split at found'
    · cases found'
    · exact ⟨group', found', fun _ => rfl⟩

theorem journal (recorded : Recorded n history store) {events : List Event} {store' : Store}
    (journal : Journal store events store') (few : n + events.countP Event.isMade ≤ 2 ^ 31) :
    Recorded (n + events.countP Event.isMade) (history ++ events) store' := by
  induction journal generalizing n history with
  | nil => simpa using recorded
  | @cons store store' event events admitted rest ih =>
    rw [List.countP_cons, Nat.add_comm (List.countP _ _), ← Nat.add_assoc] at few ⊢
    have first := recorded.apply admitted (by omega)
    simpa using ih first few

end Recorded

/-! Which events an operation can leave. -/

/-- Whether the event is one of the contents of a group. -/
def Event.fills : Event → Bool
  | added .. | named .. => true
  | made .. | closed _ => false

def Operation.destroys (id : GroupId) : Operation → Bool
  | destroyGroup other => other = id
  | destroyAll => true
  | _ => false

theorem fills_pushEvents {backend : Backend} {id : GroupId} {resource : Resource} {s : Session} :
    ∀ event ∈ pushEvents backend id resource s, event.fills = true := by
  intro event mem
  rw [pushEvents] at mem
  split at mem
  · obtain ⟨ref, -, rfl⟩ := List.mem_map.1 mem
    rfl
  · cases mem

theorem fills_contextEvents {backend : Backend} {id : GroupId} {shader : AssetId} {s : Session} :
    ∀ event ∈ contextEvents backend id shader s, event.fills = true := by
  intro event mem
  rw [contextEvents] at mem
  split at mem
  · obtain ⟨ref, -, rfl⟩ := List.mem_map.1 mem
    rfl
  · cases mem

theorem fills_nameEvents {asset : AssetId} {name : String} {s : Session} :
    ∀ event ∈ nameEvents asset name s, event.fills = true := by
  intro event mem
  rw [nameEvents] at mem
  split at mem
  · split at mem
    · cases mem
    · rw [List.mem_singleton.1 mem]
      rfl
  · cases mem

theorem forall_andThen {α : Type} {p : Event → Prop} {x : StoreAttempt α}
    {first : Session → List Event} {rest : α → Session → List Event} {s : Session}
    (head : ∀ event ∈ first s, p event) (tail : ∀ a t, ∀ event ∈ rest a t, p event) :
    ∀ event ∈ andThen x first rest s, p event := by
  intro event mem
  rw [andThen] at mem
  rcases List.mem_append.1 mem with mem | mem
  · exact head event mem
  · split at mem
    · exact tail _ _ event mem
    · cases mem

theorem fills_recordEvents {backend : Backend} {id : GroupId} (records : List Package.Record)
    {s : Session} : ∀ event ∈ recordEvents backend id records s, event.fills = true := by
  induction records generalizing s with
  | nil => exact fun _ mem => by cases mem
  | cons record rest ih =>
    exact forall_andThen fills_pushEvents fun _ _ =>
      forall_andThen fills_nameEvents fun _ _ => ih

theorem closed_closeEvents {ids : List GroupId} {s : Session} :
    ∀ event ∈ closeEvents ids s, ∃ id, event = .closed id := by
  induction ids generalizing s with
  | nil => exact fun _ mem => by cases mem
  | cons id ids ih =>
    intro event mem
    rcases List.mem_append.1 mem with mem | mem
    · split at mem
      · exact ⟨id, List.mem_singleton.1 mem⟩
      · cases mem
    · exact ih event mem

/-- Whether the operation leaves the groups of the store as they are, but for their contents. -/
def Operation.fills : Operation → Bool
  | createGroup _ | destroyGroup _ | destroyAll => false
  | _ => true

theorem fills_events {backend : Backend} {files : FileTree} {operation : Operation}
    (fills : operation.fills = true) {s : Session} :
    ∀ event ∈ events backend files operation s, event.fills = true := by
  cases operation with
  | createGroup | destroyGroup | destroyAll => cases fills
  | push => exact fills_pushEvents
  | pushContext => exact fills_contextEvents
  | pushContextOf => exact forall_andThen fills_pushEvents fun _ _ => fills_contextEvents
  | nameAsset => exact fills_nameEvents
  | loadPackage id path =>
    intro event mem
    rw [events, loadEvents] at mem
    split at mem
    · exact fills_recordEvents _ event mem
    · cases mem
  | resource | context | location | find | groupName | assetCount => exact fun _ mem => by cases mem

theorem countP_isMade_events (backend : Backend) (files : FileTree) (operation : Operation)
    (s : Session) : (events backend files operation s).countP Event.isMade =
      if operation.makesGroup then 1 else 0 := by
  by_cases fills : operation.fills = true
  · have old : ∀ name, operation ≠ .createGroup name := by
      rintro name rfl
      cases fills
    rw [Operation.makesGroup_eq_false old, List.countP_eq_zero.2]
    · rfl
    · intro event mem
      have fills := fills_events fills event mem
      cases event with
      | made | closed => cases fills
      | added | named => exact Bool.false_ne_true
  · have none (ids : List GroupId) : (closeEvents ids s).countP Event.isMade = 0 := by
      rw [List.countP_eq_zero]
      intro event mem
      obtain ⟨id, rfl⟩ := closed_closeEvents event mem
      exact Bool.false_ne_true
    cases operation with
    | createGroup name => rfl
    | destroyGroup id => exact none [id]
    | destroyAll => exact none _
    | _ => exact absurd rfl fills

theorem countP_isMade_history (steps : List Step) (s : Session) :
    (history steps s).countP Event.isMade = steps.countP (·.operation.makesGroup) := by
  induction steps generalizing s with
  | nil => rfl
  | cons step steps ih =>
    rw [history, List.countP_append, ih, List.countP_cons, Nat.add_comm]
    exact congrArg (_ + ·) (countP_isMade_events ..)

/-- What is known of the store after a run. -/
theorem recorded_run (steps : List Step) (few : steps.countP (·.operation.makesGroup) ≤ 2 ^ 31) :
    Recorded (steps.countP (·.operation.makesGroup)) (history steps .start)
      (after (run steps) .start).store := by
  have recorded := Recorded.start.journal (journal_run steps .start)
  rw [countP_isMade_history, Nat.zero_add] at recorded
  exact recorded few

end Store

end AssetPack

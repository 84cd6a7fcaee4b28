import AssetPack.Proofs.Store.Handles

/-! The names which the operations of a store give to assets, and what the history of a store says
about the names in its groups. -/

namespace AssetPack.Store
open Process

/-! Which names are given. -/

/-- The names which the records of a package give to the assets which are made of them. -/
def recordNamings (backend : Backend) (id : GroupId) :
    List Package.Record → Session → List (AssetId × String)
  | [], _ => []
  | record :: rest, s => match eval (push backend id (resourceOf record.asset)) s with
    | (.ok asset, t) =>
      (asset, record.name) :: recordNamings backend id rest (eval (nameAsset asset record.name) t).2
    | (.error _, _) => []

def loadNamings (backend : Backend) (files : FileTree) (id : GroupId) (path : Path) (s : Session) :
    List (AssetId × String) :=
  match s.store.groups.get? id, (Package.readFrom files path).run.value with
  | some _, .ok records => recordNamings backend id records s
  | _, _ => []

/-- The names which an operation gives, with the handles which get them. -/
def Step.namings (step : Step) (s : Session) : List (AssetId × String) :=
  match step.operation with
  | .nameAsset asset name =>
    if (s.store.groups.get? asset.group).isSome then [(asset, name)] else []
  | .loadPackage id path => loadNamings step.backend step.files id path s
  | _ => []

/-- The names which a run gives, from the first one on. -/
def namings : List Step → Session → List (AssetId × String)
  | [], _ => []
  | step :: steps, s => step.namings s ++ namings steps (step.after s)

/-- The handle to which a name was given last in a group. -/
def newest (id : GroupId) (name : String) (given : List (AssetId × String)) : Option AssetId :=
  (given.filter fun naming => naming.1.group = id ∧ naming.2 = name).getLast?.map Prod.fst

theorem newest_append (id : GroupId) (name : String) (given : List (AssetId × String))
    (naming : AssetId × String) : newest id name (given ++ [naming]) =
      if naming.1.group = id ∧ naming.2 = name then some naming.1 else newest id name given := by
  rw [newest, List.filter_append, List.filter_cons, List.filter_nil]
  simp only [decide_eq_true_eq]
  split
  · rw [List.getLast?_concat]
    rfl
  · rw [List.append_nil, newest]

theorem newest_eq_none {id : GroupId} {name : String} {given : List (AssetId × String)} :
    newest id name given = none ↔ ∀ naming ∈ given, ¬ (naming.1.group = id ∧ naming.2 = name) := by
  rw [newest, Option.map_eq_none_iff, List.getLast?_eq_none_iff, List.filter_eq_nil_iff]
  simp only [decide_eq_true_eq]

theorem mem_of_newest {id : GroupId} {name : String} {given : List (AssetId × String)}
    {asset : AssetId} (last : newest id name given = some asset) :
    asset.group = id ∧ (asset, name) ∈ given := by
  obtain ⟨naming, there, rfl⟩ := Option.map_eq_some_iff.1 last
  obtain ⟨mem, here⟩ := List.mem_filter.1 (List.mem_of_getLast? there)
  obtain ⟨group, rfl⟩ := of_decide_eq_true here
  exact ⟨group, mem⟩

/-! The names in the history of a store. -/

def Event.naming? : Event → Option (AssetId × String)
  | named asset name => some (asset, name)
  | _ => none

/-- The names which were given, but for the reserved one. -/
def given (history : List Event) : List (AssetId × String) := history.filterMap Event.naming?

theorem given_append (history events : List Event) :
    given (history ++ events) = given history ++ given events := List.filterMap_append

theorem given_other (history : List Event) {event : Event} (none : event.naming? = none) :
    given (history ++ [event]) = given history := by
  simp [given, none]

theorem get?_names_setName (group : Group) (name other : String) (asset : AssetId) :
    (group.setName name asset).names.get? other =
      if other = name then some asset else group.names.get? other := Table.get?_insert ..

/-- What the history of a store says about the names in its groups. -/
structure Named (n : Nat) (history : List Event) (store : Store) : Prop extends
    Recorded n history store where
  names : ∀ id group, store.groups.get? id = some group → ∀ name, group.names.get? name =
    if name = Group.reservedName then some (.invalidIn id) else newest id name (given history)
  early : ∀ asset name, (asset, name) ∈ given history → ∃ m < n, asset.group = ⟨Int32.ofNat m⟩

namespace Named
variable {n : Nat} {history : List Event} {store : Store}

theorem start : Named 0 [] .empty where
  toRecorded := .start
  names _ _ found := by cases found
  early _ _ mem := by cases mem

/-- No name was given in a group with the next number. -/
theorem newest_next (named : Named n history store) (few : n < 2 ^ 31) (name : String) :
    newest ⟨store.next⟩ name (given history) = none := by
  rw [newest_eq_none]
  rintro ⟨asset, name⟩ mem ⟨here, -⟩
  obtain ⟨m, less, old⟩ := named.early asset name mem
  rw [named.next] at here
  exact Nat.ne_of_lt less (GroupId.ofNat_inj (by omega) (by omega) (old.symm.trans here))

theorem names_new (named : Named n history store) (few : n < 2 ^ 31) (label name : String) :
    (Group.new ⟨store.next⟩ label).names.get? name = if name = Group.reservedName
      then some (.invalidIn ⟨store.next⟩) else newest ⟨store.next⟩ name (given history) := by
  rw [named.newest_next few]
  exact Table.get?_insert ..

/-- An event which gives no name. -/
theorem keep (named : Named n history store) {event : Event} {store' : Store} {n' : Nat}
    (recorded : Recorded n' (history ++ [event]) store') (none : event.naming? = none)
    (more : n ≤ n') (names : ∀ id group', store'.groups.get? id = some group' →
      ∀ name, group'.names.get? name = if name = Group.reservedName
        then some (.invalidIn id) else newest id name (given history)) :
    Named n' (history ++ [event]) store' := by
  have same := given_other history none
  refine ⟨recorded, same ▸ names, fun asset name mem => ?_⟩
  rw [same] at mem
  obtain ⟨m, less, old⟩ := named.early asset name mem
  exact ⟨m, Nat.lt_of_lt_of_le less more, old⟩

theorem name (named : Named n history store) {asset : AssetId} {name : String}
    (admitted : Event.Admitted store (.named asset name))
    (recorded : Recorded n (history ++ [.named asset name])
      (Event.apply store (.named asset name))) :
    Named n (history ++ [.named asset name]) (Event.apply store (.named asset name)) := by
  obtain ⟨⟨group, found⟩, free⟩ := admitted
  have same : given (history ++ [.named asset name]) = given history ++ [(asset, name)] :=
    given_append ..
  refine ⟨recorded, fun id group' found' other => ?_, fun asset' name' mem => ?_⟩
  · change (store.groups.update _ _).get? id = some group' at found'
    rw [Table.get?_update] at found'
    rw [same, newest_append]
    dsimp only
    split at found'
    · rename_i here
      subst here
      obtain ⟨group, found, rfl⟩ := Option.map_eq_some_iff.1 found'
      rw [get?_names_setName, named.names _ group found]
      by_cases again : other = name
      · subst again
        rw [if_pos rfl, if_neg free, if_pos ⟨rfl, rfl⟩]
      · rw [if_neg again, if_neg (c := _ ∧ name = other) fun both => again both.2.symm]
    · rename_i elsewhere
      rw [if_neg (c := asset.group = id ∧ _) fun both => elsewhere both.1.symm]
      exact named.names id group' found' other
  · rw [same] at mem
    rcases List.mem_append.1 mem with mem | mem
    · exact named.early asset' name' mem
    · cases List.mem_singleton.1 mem
      exact (named.known _ group found).1

theorem apply (named : Named n history store) {event : Event} (admitted : event.Admitted store)
    (few : n + (if event.isMade then 1 else 0) ≤ 2 ^ 31) :
    Named (n + if event.isMade then 1 else 0) (history ++ [event]) (event.apply store) := by
  have recorded := named.toRecorded.apply admitted few
  cases event with
  | made id label =>
    cases admitted
    refine named.keep recorded rfl (Nat.le_add_right _ _) fun id group' found' => ?_
    change (store.groups.insert _ _).get? id = some group' at found'
    rw [Table.get?_insert] at found'
    split at found'
    · rename_i new
      cases found'
      exact new ▸ named.names_new few label
    · exact named.names id group' found'
  | added asset content =>
    refine named.keep recorded rfl (Nat.le_refl _) fun id group' found' => ?_
    change (store.groups.update _ _).get? id = some group' at found'
    rw [Table.get?_update] at found'
    split at found'
    · obtain ⟨group, found, rfl⟩ := Option.map_eq_some_iff.1 found'
      rw [Group.names_add]
      exact named.names id group found
    · exact named.names id group' found'
  | named asset name => exact named.name admitted recorded
  | closed id =>
    refine named.keep recorded rfl (Nat.le_refl _) fun other group' found' => ?_
    change (store.groups.erase id).get? other = some group' at found'
    rw [Table.get?_erase] at found'
    split at found'
    · cases found'
    · exact named.names other group' found'

theorem journal (named : Named n history store) {events : List Event} {store' : Store}
    (journal : Journal store events store') (few : n + events.countP Event.isMade ≤ 2 ^ 31) :
    Named (n + events.countP Event.isMade) (history ++ events) store' := by
  induction journal generalizing n history with
  | nil => simpa using named
  | @cons store store' event events admitted rest ih =>
    rw [List.countP_cons, Nat.add_comm (List.countP _ _), ← Nat.add_assoc] at few ⊢
    have first := named.apply admitted (by omega)
    simpa using ih first few

end Named

theorem named_run (steps : List Step) (few : steps.countP (·.operation.makesGroup) ≤ 2 ^ 31) :
    Named (steps.countP (·.operation.makesGroup)) (history steps .start)
      (after (run steps) .start).store := by
  have named := Named.start.journal (journal_run steps .start)
  rw [countP_isMade_history, Nat.zero_add] at named
  exact named few

/-! The names in the history of a run are those which were given. -/

/-- The names which are not reserved. -/
def unreserved (names : List (AssetId × String)) : List (AssetId × String) :=
  names.filter (·.2 ≠ Group.reservedName)

theorem newest_unreserved {name : String} (free : name ≠ Group.reservedName) (id : GroupId)
    (names : List (AssetId × String)) :
    newest id name (unreserved names) = newest id name names := by
  rw [newest, unreserved, List.filter_filter, newest]
  congr 2
  refine List.filter_congr fun naming _ => ?_
  rw [← Bool.decide_and, decide_eq_decide]
  constructor
  · exact And.left
  · intro here
    exact ⟨here, here.2 ▸ free⟩

/-- A resource is refused, or it is added to a group which is there afterwards too. -/
theorem push_cases (backend : Backend) (id : GroupId) (resource : Resource) (s : Session) :
    (∃ error t, eval (push backend id resource) s = (.error error, t) ∧
      pushEvents backend id resource s = []) ∨
    ∃ asset ref t group, eval (push backend id resource) s = (.ok asset, t) ∧ asset.group = id ∧
      pushEvents backend id resource s = [.added asset (.resource resource.kind ref)] ∧
        t.store.groups.get? asset.group = some group := by
  cases pushed : eval (push backend id resource) s with
  | mk result t =>
    cases result with
    | error error => exact .inl ⟨error, t, rfl, by rw [pushEvents, pushed]⟩
    | ok asset =>
      obtain ⟨group, ref, found, next, given⟩ := push_eq_ok (congrArg Prod.fst pushed)
      obtain rfl : asset.group = id := congrArg AssetId.group (nextId?_eq_some.1 next).2
      have journal := (course_push backend asset.group resource s).journal.isSome_get?
        fills_pushEvents asset.group
      rw [pushed, found] at journal
      obtain ⟨group', there⟩ := Option.isSome_iff_exists.1 journal
      exact .inr ⟨asset, ref, t, group', rfl, rfl, by rw [pushEvents, pushed, given]; rfl, there⟩

theorem naming?_pushEvents {backend : Backend} {id : GroupId} {resource : Resource} {s : Session} :
    ∀ event ∈ pushEvents backend id resource s, event.naming? = none := by
  intro event mem
  rw [pushEvents] at mem
  split at mem
  · obtain ⟨ref, -, rfl⟩ := List.mem_map.1 mem
    rfl
  · cases mem

theorem naming?_contextEvents {backend : Backend} {id : GroupId} {shader : AssetId} {s : Session} :
    ∀ event ∈ contextEvents backend id shader s, event.naming? = none := by
  intro event mem
  rw [contextEvents] at mem
  split at mem
  · obtain ⟨ref, -, rfl⟩ := List.mem_map.1 mem
    rfl
  · cases mem

theorem naming?_closeEvents {ids : List GroupId} {s : Session} :
    ∀ event ∈ closeEvents ids s, event.naming? = none := by
  intro event mem
  obtain ⟨id, rfl⟩ := closed_closeEvents event mem
  rfl

theorem given_nameEvents {asset : AssetId} {group : Group} {s : Session} (name : String)
    (found : s.store.groups.get? asset.group = some group) :
    given (nameEvents asset name s) = unreserved [(asset, name)] := by
  rw [nameEvents, eval_nameAsset, found, unreserved, List.filter_cons, List.filter_nil]
  by_cases reserved : name = Group.reservedName
  · simp [reserved, given]
  · simp [reserved, given, Event.naming?]

theorem given_recordEvents (backend : Backend) (id : GroupId) (records : List Package.Record)
    (s : Session) : given (recordEvents backend id records s) =
      unreserved (recordNamings backend id records s) := by
  induction records generalizing s with
  | nil => rfl
  | cons record rest ih =>
    rw [recordEvents, recordNamings, andThen, given_append]
    rcases push_cases backend id (resourceOf record.asset) s with
      ⟨error, t, pushed, events⟩ | ⟨asset, ref, t, group, pushed, -, events, found⟩
    · rw [pushed, events]
      rfl
    · rw [pushed, events]
      dsimp only
      rw [andThen, given_append, given_nameEvents record.name found, eval_nameAsset, found]
      dsimp only
      rw [ih, unreserved, unreserved, ← List.filter_append]
      rfl

theorem given_events (step : Step) (s : Session) :
    given (step.events s) = unreserved (step.namings s) := by
  obtain ⟨backend, files, operation⟩ := step
  rw [Step.events, Step.namings]
  cases operation with
  | destroyGroup | destroyAll => exact List.filterMap_eq_nil_iff.2 naming?_closeEvents
  | push => exact List.filterMap_eq_nil_iff.2 naming?_pushEvents
  | pushContext => exact List.filterMap_eq_nil_iff.2 naming?_contextEvents
  | pushContextOf =>
    refine List.filterMap_eq_nil_iff.2 ?_
    exact forall_andThen naming?_pushEvents fun _ _ => naming?_contextEvents
  | nameAsset asset name =>
    dsimp only [events]
    cases found : s.store.groups.get? asset.group with
    | none =>
      rw [nameEvents, eval_nameAsset, found]
      rfl
    | some group => exact given_nameEvents name found
  | loadPackage id path =>
    dsimp only [events]
    rw [loadEvents, loadNamings]
    cases s.store.groups.get? id with
    | none => rfl
    | some group =>
      cases (Package.readFrom files path).run.value with
      | error error => rfl
      | ok records => exact given_recordEvents backend id records s
  | createGroup | resource | context | location | find | groupName | assetCount => rfl

theorem given_history (steps : List Step) (s : Session) :
    given (history steps s) = unreserved (namings steps s) := by
  induction steps generalizing s with
  | nil => rfl
  | cons step steps ih =>
    rw [history, given_append, given_events, ih, namings, unreserved, unreserved,
      ← List.filter_append]
    rfl

/-- What stands under a name in a group which was made. -/
theorem Named.get? {n : Nat} {history : List Event} {store : Store} (named : Named n history store)
    {names : List (AssetId × String)} (same : given history = unreserved names) {id : GroupId}
    {group : Group} (found : store.groups.get? id = some group) (name : String) :
    group.names.get? name =
      if name = Group.reservedName then some (.invalidIn id) else newest id name names := by
  rw [named.names id group found, same]
  split
  · rfl
  · rename_i free
    exact newest_unreserved free id names

end AssetPack.Store

import AssetPack.Proofs.Store.Named
import AssetPack.Proofs.Store.Reporting

/-! Warnings about names: a name which is reserved or taken leaves one, and nothing else does. -/

namespace AssetPack.Store
open Process

/-- Whether a name is reserved, or taken by one of those which were given. -/
def Clashes (given : List (AssetId × String)) (naming : AssetId × String) : Prop :=
  naming.2 = Group.reservedName ∨
    ∃ other ∈ given, other.1.group = naming.1.group ∧ other.2 = naming.2

instance (given : List (AssetId × String)) (naming : AssetId × String) :
    Decidable (Clashes given naming) := inferInstanceAs (Decidable (_ ∨ _))

/-- The warning which a name leaves that clashes. -/
def nameWarning (labels : GroupId → Option String) (given : List (AssetId × String))
    (naming : AssetId × String) : Option Message :=
  let (asset, name) := naming
  let label := Text.quote ((labels asset.group).getD "")
  let previous := (newest asset.group name given).getD asset
  if Clashes given naming then
    some ⟨.warn, .group,
      if name = Group.reservedName then
        s!"Not naming {asset.spelling} {Text.quote name} in group {label}, " ++
          "the name is reserved for missing assets."
      else
        s!"Asset name {Text.quote name} was already used in group {label} " ++
          s!"by {previous.spelling}, it now refers to {asset.spelling}."⟩
  else none

/-- The warnings which names leave that are given one after the other. -/
def warnings (labels : GroupId → Option String) (given : List (AssetId × String)) :
    List (AssetId × String) → List Message
  | [] => []
  | naming :: more =>
    (nameWarning labels given naming).toList ++ warnings labels (given ++ [naming]) more

def isNameWarning (message : Message) : Bool := message.level = .warn ∧ message.origin = .group

def nameWarnings (log : List Message) : List Message := log.filter isNameWarning

theorem nameWarnings_append (log more : List Message) :
    nameWarnings (log ++ more) = nameWarnings log ++ nameWarnings more := List.filter_append ..

/-- A computation which leaves no warning about a name. -/
abbrev Quiet {α : Type} (x : StoreM α) : Prop := Calm isNameWarning x

section quiet
variable {α : Type}

theorem quiet_findGroup (id : GroupId) : Quiet (findGroup id).run := by
  rw [findGroup]
  refine .andThen (Calm.lift fun _ => rfl) fun s => ?_
  split
  · exact fun _ => rfl
  · exact fun _ => rfl

theorem quiet_push (backend : Backend) (id : GroupId) (resource : Resource) :
    Quiet (push backend id resource).run := by
  rw [push]
  refine .andThen (quiet_findGroup id) fun group => ?_
  split
  · exact fun _ => rfl
  · refine .andThen (Calm.lift fun _ => rfl) fun answer => ?_
    split
    · exact fun _ => rfl
    · exact fun _ => rfl

theorem quiet_findShader (id : GroupId) (group : Group) (shader : AssetId) :
    Quiet (findShader id group shader).run := by
  intro s
  rw [findShader]
  split
  · rfl
  · cases shader.slot?.bind (group.shaders[·]?) <;> rfl

theorem quiet_pushContext (backend : Backend) (id : GroupId) (shader : AssetId) :
    Quiet (pushContext backend id shader).run := by
  rw [pushContext]
  refine .andThen (quiet_findGroup id) fun group => ?_
  refine .andThen (quiet_findShader id group shader) fun ref => ?_
  split
  · exact fun _ => rfl
  · refine .andThen (Calm.lift fun _ => rfl) fun s => ?_
    refine .andThen (Calm.lift fun _ => rfl) fun _ => ?_
    have other (level : Level) (text : String) :
        isNameWarning ⟨level, .shaderContext, text⟩ = false := by simp [isNameWarning]
    refine .andThen (.lift (.logged (filter_make (fun level text _ => other level text) _ _))) ?_
    exact fun context _ => rfl

theorem quiet_destroyGroup (id : GroupId) : Quiet (destroyGroup id) := by
  rw [destroyGroup]
  refine .bind (fun _ => rfl) fun s => ?_
  split
  · exact fun _ => rfl
  · refine .bind (fun _ => rfl) fun _ => ?_
    refine .bind (fun _ => rfl) fun _ => ?_
    exact .bind (.forM fun _ _ => rfl) fun _ _ => rfl

theorem quiet_destroyAll : Quiet destroyAll :=
  .bind (fun _ => rfl) fun _ => .forM quiet_destroyGroup

theorem quiet_find (store : Store) (id : GroupId) (name : String) :
    nameWarnings (store.find id name).log = [] := by
  rw [find]
  split
  · rfl
  · split <;> rfl

end quiet

theorem clashes_of_free {given : List (AssetId × String)} {asset : AssetId} {name : String}
    (free : name ≠ Group.reservedName) :
    Clashes given (asset, name) ↔ (newest asset.group name given).isSome = true := by
  rw [← Option.ne_none_iff_isSome, ne_eq, newest_eq_none, Clashes, or_iff_right free]
  push Not
  rfl

theorem messages_findGroup {id : GroupId} {group : Group} {s : Session}
    (found : s.store.groups.get? id = some group) : messages (findGroup id) s = [] := by
  rw [findGroup, messages_bind, eval_get]
  dsimp only
  rw [found]
  rfl

theorem messages_nameAsset {asset : AssetId} {group : Group} {s : Session} (name : String)
    (found : s.store.groups.get? asset.group = some group) :
    messages (nameAsset asset name) s = ((nameIn asset.group group asset name).run s).log := by
  rw [nameAsset, messages_bind, messages_findGroup found, eval_findGroup, found]
  exact List.append_nil _

/-- A name which is given leaves a warning if and only if it clashes. -/
theorem Named.warnings_nameAsset {n : Nat} {history : List Event} {s : Session}
    (named : Named n history s.store) {names : List (AssetId × String)}
    (same : given history = unreserved names) {asset : AssetId} {group : Group}
    (found : s.store.groups.get? asset.group = some group) (name : String) :
    nameWarnings (messages (nameAsset asset name) s) =
      (nameWarning s.store.groupName? names (asset, name)).toList := by
  have label : s.store.groupName? asset.group = some group.name := congrArg _ found
  rw [messages_nameAsset name found, nameIn, nameWarning]
  by_cases reserved : name = Group.reservedName
  · rw [if_pos reserved, if_pos (.inl reserved), if_pos reserved, label]
    rfl
  · rw [if_neg reserved, if_neg reserved, label]
    have held := named.get? same found name
    rw [if_neg reserved] at held
    rw [held]
    cases last : newest asset.group name names with
    | none =>
      rw [if_neg fun clashes => ?_]
      · rfl
      · rw [clashes_of_free reserved, last] at clashes
        cases clashes
    | some previous =>
      rw [if_pos ((clashes_of_free reserved).2 (Option.isSome_iff_exists.2 ⟨previous, last⟩))]
      rfl

/-- Filling a group leaves the names of the groups themselves as they are. -/
theorem Journal.groupName? {store store' : Store} {events : List Event}
    (journal : Journal store events store') (fills : ∀ event ∈ events, event.fills = true) :
    store'.groupName? = store.groupName? := by
  induction journal with
  | nil => rfl
  | @cons store store' event events admitted rest ih =>
    have later := ih fun event mem => fills event (List.mem_cons_of_mem _ mem)
    refine later.trans (funext fun id => ?_)
    have kept {f : Group → Group} {id' : GroupId} (same : ∀ group, (f group).name = group.name) :
        (store.updateGroup id' f).groupName? id = store.groupName? id := by
      rw [Store.groupName?, updateGroup, Table.get?_update, Store.groupName?]
      split
      · rw [Option.map_map]
        exact congrArg (Option.map · _) (funext same)
      · rfl
    have fills := fills event List.mem_cons_self
    cases event with
    | made | closed => cases fills
    | added asset content => exact kept fun group => group.name_add content
    | named asset name => exact kept fun _ => rfl

theorem Named.fill {n : Nat} {history : List Event} {store : Store} (named : Named n history store)
    (few : n ≤ 2 ^ 31) {events : List Event} {store' : Store}
    (journal : Journal store events store') (fills : ∀ event ∈ events, event.fills = true) :
    Named n (history ++ events) store' := by
  have none : events.countP Event.isMade = 0 := by
    rw [List.countP_eq_zero]
    intro event mem
    have fills := fills event mem
    cases event with
    | made | closed => cases fills
    | added | named => exact Bool.false_ne_true
  have filled := named.journal journal (by omega)
  rwa [none] at filled

theorem Named.warnings_addRecords {n : Nat} (few : n ≤ 2 ^ 31) (backend : Backend) (id : GroupId)
    (records : List Package.Record) {history : List Event} {s : Session}
    (named : Named n history s.store) {names : List (AssetId × String)}
    (same : given history = unreserved names) :
    nameWarnings (messages (addRecords backend id records) s) =
      warnings s.store.groupName? names (recordNamings backend id records s) := by
  induction records generalizing s history names with
  | nil => rfl
  | cons record rest ih =>
    have pushing := course_push backend id (resourceOf record.asset) s
    have quiet := quiet_push backend id (resourceOf record.asset) s
    change nameWarnings (messages _ s) = [] at quiet
    rw [addRecords, recordNamings, messages_bind, nameWarnings_append, quiet, List.nil_append]
    rcases push_cases backend id (resourceOf record.asset) s with
      ⟨error, t, pushed, -⟩ | ⟨asset, ref, t, group, pushed, -, events, found⟩
    · rw [pushed]
      rfl
    · rw [pushed] at pushing ⊢
      have named' := named.fill few pushing.journal fills_pushEvents
      have same' : given (history ++ pushEvents backend id (resourceOf record.asset) s) =
          unreserved names := by
        rw [events, given_other history rfl, same]
      have naming := course_nameAsset asset record.name t
      have named'' := named'.fill few naming.journal fills_nameEvents
      have same'' : given (history ++ pushEvents backend id (resourceOf record.asset) s ++
          nameEvents asset record.name t) = unreserved (names ++ [(asset, record.name)]) := by
        rw [given_append, same', given_nameEvents record.name found, unreserved, unreserved,
          ← List.filter_append]
        rfl
      have labels : t.store.groupName? = s.store.groupName? :=
        pushing.journal.groupName? fills_pushEvents
      have labels' := naming.journal.groupName? fills_nameEvents
      dsimp only
      rw [messages_bind, nameWarnings_append, named'.warnings_nameAsset same' found, warnings,
        ← labels, ← labels', ← ih named'' same'', eval_nameAsset, found]

theorem nameWarnings_read (bytes : Bytes) : nameWarnings (Package.read bytes).run.log = [] := by
  cases bytes with
  | nil => rfl
  | cons version runs =>
    have parts (parts : List Package.Part) :
        nameWarnings (parts.flatMap fun part => part.report.log) = [] := by
      refine List.filter_eq_nil_iff.2 fun message mem => ?_
      simp [isNameWarning, (Package.message_of_parts mem).2]
    rw [Package.read]
    split
    · rfl
    · rw [Attempt.log_bind, Attempt.run_forM, nameWarnings_append, parts]
      cases (Package.scan .invalid 0 runs).failure <;> rfl

theorem nameWarnings_readFrom (files : FileTree) (path : Path) :
    nameWarnings (Package.readFrom files path).run.log = [] := by
  rw [Package.readFrom]
  split
  · rfl
  · exact nameWarnings_read _

theorem Named.warnings_loadPackage {n : Nat} (few : n ≤ 2 ^ 31) (backend : Backend)
    (files : FileTree) (id : GroupId) (path : Path) {history : List Event} {s : Session}
    (named : Named n history s.store) {names : List (AssetId × String)}
    (same : given history = unreserved names) :
    nameWarnings (messages (loadPackage backend files id path) s) =
      warnings s.store.groupName? names (loadNamings backend files id path s) := by
  have quiet : nameWarnings (messages (findGroup id) s) = [] := quiet_findGroup id s
  rw [loadPackage, loadNamings, messages_bind, nameWarnings_append, quiet, eval_findGroup,
    List.nil_append]
  cases s.store.groups.get? id with
  | none => rfl
  | some group =>
    dsimp only
    rw [messages_bind, messages_logged, nameWarnings_append, nameWarnings_readFrom, eval_logged]
    cases (Package.readFrom files path).run.value with
    | error error => rfl
    | ok records =>
      dsimp only
      rw [messages_bind, eval_pure]
      dsimp only
      rw [messages_bind, nameWarnings_append, nameWarnings_append,
        named.warnings_addRecords few backend id records same]
      cases eval (addRecords backend id records) s with
      | mk result t => cases result <;> exact List.append_nil _

/-- Exactly the names which clash leave warnings, whatever is done. -/
theorem Named.warnings_perform {n : Nat} (few : n ≤ 2 ^ 31) (step : Step) {history : List Event}
    {s : Session} (named : Named n history s.store) {names : List (AssetId × String)}
    (same : given history = unreserved names) :
    nameWarnings ((perform step.backend step.files step.operation).run s).log =
      warnings s.store.groupName? names (step.namings s) := by
  obtain ⟨backend, files, operation⟩ := step
  have quietly {α : Type} {x : StoreAttempt α} (quiet : Quiet x.run) (success : α → Reply) :
      nameWarnings ((reply x success).run s).log = [] := by
    rw [log_reply]
    exact quiet s
  rw [Step.namings]
  cases operation with
  | createGroup | resource | context | location | groupName | assetCount => rfl
  | destroyGroup id => exact Calm.bind (quiet_destroyGroup id) (fun _ _ => rfl) s
  | destroyAll => exact Calm.bind quiet_destroyAll (fun _ _ => rfl) s
  | push id resource => exact quietly (quiet_push backend id resource) _
  | pushContext id shader => exact quietly (quiet_pushContext backend id shader) _
  | pushContextOf id shader =>
    exact quietly (.andThen (quiet_push backend id _) (quiet_pushContext backend id)) _
  | find id name =>
    refine Calm.bind (fun _ => rfl) (fun t => ?_) s
    exact .bind (.logged (quiet_find t.store id name)) fun _ _ => rfl
  | nameAsset asset name =>
    rw [perform, log_reply]
    dsimp only
    cases found : s.store.groups.get? asset.group with
    | none =>
      rw [nameAsset, messages_bind, nameWarnings_append, eval_findGroup, found]
      exact (List.append_nil _).trans (quiet_findGroup asset.group s)
    | some group =>
      rw [named.warnings_nameAsset same found]
      exact (List.append_nil _).symm
  | loadPackage id path =>
    rw [perform, log_reply]
    exact named.warnings_loadPackage few backend files id path same

end AssetPack.Store

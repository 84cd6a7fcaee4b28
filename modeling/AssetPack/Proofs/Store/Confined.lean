import AssetPack.Proofs.Store.Named
import AssetPack.Proofs.Store.View

/-! Operations are confined to the group which they are on: they come from what is seen of it, and
nothing is seen of them from other groups. -/

namespace AssetPack

/-- A backend which creates or refuses whatever was done before, and which reports the same uniforms
for each shader. -/
structure Backend.Steady (backend : Backend) : Prop where
  create : ∀ calls calls' resource,
    (backend.create calls resource).isSome = (backend.create calls' resource).isSome
  uniforms : ∀ calls calls' ref ref', backend.uniforms calls ref = backend.uniforms calls' ref'

namespace Store
open Process
variable {α β : Type} {id : GroupId} {s t : Session}

/-- From the group the same is seen in both sessions. -/
def Alike (id : GroupId) (s t : Session) : Prop := view id s.store = view id t.store

theorem Alike.next (alike : Alike id s t) : s.store.next = t.store.next :=
  congrArg View.next alike

theorem Alike.cases (alike : Alike id s t) :
    (s.store.groups.get? id = none ∧ t.store.groups.get? id = none) ∨
    ∃ group group', s.store.groups.get? id = some group ∧ t.store.groups.get? id = some group' ∧
      group.blank = group'.blank := by
  have same : (s.store.groups.get? id).map Group.blank = (t.store.groups.get? id).map Group.blank :=
    congrArg View.group alike
  cases found : s.store.groups.get? id with
  | none =>
    rw [found, Option.map_none, eq_comm, Option.map_eq_none_iff] at same
    exact .inl ⟨rfl, same⟩
  | some group =>
    rw [found, Option.map_some, eq_comm, Option.map_eq_some_iff] at same
    obtain ⟨group', found', blank⟩ := same
    exact .inr ⟨group, group', rfl, found', blank.symm⟩

theorem both_or_none {first : Option α} {second : Option β} (same : first.isSome = second.isSome) :
    (first = none ∧ second = none) ∨ ∃ a b, first = some a ∧ second = some b := by
  cases first with
  | none => exact .inl ⟨rfl, Option.isNone_iff_eq_none.1 (by simpa using same.symm)⟩
  | some a =>
    obtain ⟨b, given⟩ := Option.isSome_iff_exists.1 same.symm
    exact .inr ⟨a, b, rfl, given⟩

theorem count_congr {group group' : Group} (same : group.blank = group'.blank) (type : AssetType) :
    group.count type = group'.count type := by
  rw [← group.count_blank, same, group'.count_blank]

theorem contexts_congr {group group' : Group} (same : group.blank = group'.blank) :
    group.contexts = group'.contexts := by
  change group.blank.contexts = group'.blank.contexts
  rw [same]

theorem names_congr {group group' : Group} (same : group.blank = group'.blank) :
    group.names = group'.names := by
  change group.blank.names = group'.blank.names
  rw [same]

theorem name_congr {group group' : Group} (same : group.blank = group'.blank) :
    group.name = group'.name := by
  change group.blank.name = group'.blank.name
  rw [same]

theorem nextId?_congr {group group' : Group} (same : group.blank = group'.blank)
    (type : AssetType) : group.nextId? id type = group'.nextId? id type := by
  rw [← group.nextId?_blank, same, group'.nextId?_blank]

theorem isSome_pool_congr {group group' : Group} (same : group.blank = group'.blank)
    (kind : ResourceKind) (index : Nat) :
    ((group.pool kind)[index]?).isSome = ((group'.pool kind)[index]?).isSome := by
  have sizes : (group.pool kind).size = (group'.pool kind).size := by
    rw [← group.count_type, count_congr same, group'.count_type]
  rw [Bool.eq_iff_iff, isSome_getElem?, isSome_getElem?, sizes]

theorem isSome_shaderOf?_congr (id : GroupId) {group group' : Group}
    (same : group.blank = group'.blank) (shader : AssetId) :
    (shaderOf? id group shader).isSome = (shaderOf? id group' shader).isSome := by
  rw [shaderOf?, shaderOf?]
  split
  · cases shader.slot? with
    | none => rfl
    | some index => exact isSome_pool_congr same .shader index
  · rfl

/-- A computation in which only what is seen from a group matters. -/
structure Confined (id : GroupId) (x : StoreAttempt α) (events : Session → List Event) : Prop where
  course : ∀ s, Course s (events s) (eval x s).2
  result : ∀ {s t}, Alike id s t → (eval x s).1 = (eval x t).1
  seen : ∀ {s t}, Alike id s t → seen id (events s) = seen id (events t)

theorem Confined.after {x : StoreAttempt α} {events : Session → List Event}
    (confined : Confined id x events) (alike : Alike id s t) :
    Alike id (eval x s).2 (eval x t).2 := by
  rw [Alike, (confined.course s).journal.view, (confined.course t).journal.view,
    confined.seen alike, alike]

/-- Both computations fail with the same error, or both succeed with the same result. -/
theorem Confined.cases {x : StoreAttempt α} {events : Session → List Event}
    (confined : Confined id x events) (alike : Alike id s t) :
    (∃ error u v, eval x s = (.error error, u) ∧ eval x t = (.error error, v)) ∨
    ∃ a u v, eval x s = (.ok a, u) ∧ eval x t = (.ok a, v) ∧ Alike id u v := by
  have result := confined.result alike
  have after := confined.after alike
  cases first : eval x s with
  | mk a u =>
    cases second : eval x t with
    | mk b v =>
      rw [first, second] at result after
      obtain rfl : a = b := result
      cases a with
      | error error => exact .inl ⟨error, u, v, rfl, rfl⟩
      | ok a => exact .inr ⟨a, u, v, rfl, rfl, after⟩

theorem Confined.andThen {x : StoreAttempt α} {f : α → StoreAttempt β}
    {first : Session → List Event} {rest : α → Session → List Event} (head : Confined id x first)
    (course : ∀ a s, Course s (rest a s) (eval (f a) s).2)
    (tail : ∀ a s, (eval x s).1 = .ok a → Confined id (f a) (rest a)) :
    Confined id (x >>= f) (andThen x first rest) := by
  refine ⟨fun s => course_andThen (head.course s) course, fun {s t} alike => ?_,
    fun {s t} alike => ?_⟩
  · rw [eval_bind, eval_bind]
    rcases head.cases alike with ⟨error, u, v, hs, ht⟩ | ⟨a, u, v, hs, ht, after⟩
    · rw [hs, ht]
    · rw [hs, ht]
      exact (tail a s (congrArg Prod.fst hs)).result after
  · rw [Store.andThen, Store.andThen, seen_append, seen_append, head.seen alike]
    rcases head.cases alike with ⟨error, u, v, hs, ht⟩ | ⟨a, u, v, hs, ht, after⟩
    · rw [hs, ht]
    · rw [hs, ht]
      exact congrArg _ ((tail a s (congrArg Prod.fst hs)).seen after)

section confined
variable {backend : Backend} (steady : backend.Steady)
include steady

theorem confined_push (id : GroupId) (resource : Resource) :
    Confined id (push backend id resource) (pushEvents backend id resource) := by
  have result {s t : Session} (alike : Alike id s t) :
      (eval (push backend id resource) s).1 = (eval (push backend id resource) t).1 := by
    have answers := steady.create s.calls t.calls resource
    rw [eval_push, eval_push]
    rcases alike.cases with ⟨missing, missing'⟩ | ⟨group, group', found, found', same⟩
    · rw [missing, missing']
    · rw [found, found']
      dsimp only
      rw [nextId?_congr same]
      cases group'.nextId? id resource.kind.type with
      | none => rfl
      | some asset =>
        rcases both_or_none answers with ⟨first, second⟩ | ⟨ref, ref', first, second⟩
        · rw [first, second]
        · rw [first, second]
  refine ⟨course_push backend id resource, result, fun {s t} alike => ?_⟩
  have answers := steady.create s.calls t.calls resource
  rw [pushEvents, pushEvents, result alike]
  cases (eval (push backend id resource) t).1 with
  | error error => rfl
  | ok asset =>
    rcases both_or_none answers with ⟨first, second⟩ | ⟨ref, ref', first, second⟩
    · rw [first, second]
    · simp [first, second, seen_singleton, Event.concerns, Event.blank]

theorem confined_pushContext (id : GroupId) (shader : AssetId) :
    Confined id (pushContext backend id shader) (contextEvents backend id shader) := by
  have result {s t : Session} (alike : Alike id s t) :
      (eval (pushContext backend id shader) s).1 = (eval (pushContext backend id shader) t).1 := by
    rw [eval_pushContext, eval_pushContext]
    rcases alike.cases with ⟨missing, missing'⟩ | ⟨group, group', found, found', same⟩
    · rw [missing, missing']
    · rw [found, found']
      have own := isSome_shaderOf?_congr id same shader
      dsimp only
      rw [nextId?_congr same]
      rcases both_or_none own with ⟨first, second⟩ | ⟨ref, ref', first, second⟩
      · rw [first, second]
      · rw [first, second]
        cases group'.nextId? id .shaderContext <;> rfl
  refine ⟨course_pushContext backend id shader, result, fun {s t} alike => ?_⟩
  rw [contextEvents, contextEvents]
  cases first : (eval (pushContext backend id shader) s).1 with
  | error error => rw [← result alike, first]
  | ok asset =>
    have second := (result alike).symm.trans first
    obtain ⟨group, ref, found, own, -⟩ := pushContext_eq_ok first
    obtain ⟨group', ref', found', own', -⟩ := pushContext_eq_ok second
    rw [second, shader_of_shaderOf? found own, shader_of_shaderOf? found' own',
      Option.toList_some, Option.toList_some]
    dsimp only
    rw [List.map_singleton, List.map_singleton, steady.uniforms s.calls t.calls ref ref']

omit steady in
theorem confined_nameAsset (asset : AssetId) (name : String) :
    Confined asset.group (nameAsset asset name) (nameEvents asset name) := by
  have result {s t : Session} (alike : Alike asset.group s t) :
      (eval (nameAsset asset name) s).1 = (eval (nameAsset asset name) t).1 := by
    rw [eval_nameAsset, eval_nameAsset]
    rcases alike.cases with ⟨missing, missing'⟩ | ⟨group, group', found, found', same⟩
    · rw [missing, missing']
    · rw [found, found']
  refine ⟨course_nameAsset asset name, result, fun alike => ?_⟩
  rw [nameEvents, nameEvents, result alike]

theorem confined_addRecords (id : GroupId) (records : List Package.Record) :
    Confined id (addRecords backend id records) (recordEvents backend id records) := by
  induction records with
  | nil => exact ⟨course_addRecords backend id [], fun _ => rfl, fun _ => rfl⟩
  | cons record rest ih =>
    have course := course_addRecords backend id rest
    refine Confined.andThen (confined_push steady id _) (fun asset s => ?_) fun asset s pushed => ?_
    · exact course_andThen (course_nameAsset asset _ s) fun _ => course
    · have naming := confined_nameAsset asset record.name
      rw [(mem_pushEvents pushed).1] at naming
      exact naming.andThen (fun _ => course) fun _ _ _ => ih

theorem confined_pushContextOf (id : GroupId) (shader : Shader) :
    Confined id (pushContextOf backend id shader) (contextOfEvents backend id shader) :=
  (confined_push steady id _).andThen (course_pushContext backend id)
    fun asset _ _ => confined_pushContext steady id asset

theorem confined_loadPackage (files : FileTree) (id : GroupId) (path : Path) :
    Confined id (loadPackage backend files id path) (loadEvents backend files id path) := by
  refine ⟨course_loadPackage backend files id path, fun {s t} alike => ?_, fun {s t} alike => ?_⟩
  · rw [eval_loadPackage, eval_loadPackage]
    rcases alike.cases with ⟨missing, missing'⟩ | ⟨group, group', found, found', same⟩
    · rw [missing, missing']
    · rw [found, found']
      dsimp only
      cases (Package.readFrom files path).run.value with
      | error error => rfl
      | ok records =>
        have result := (confined_addRecords steady id records).result alike
        exact congrArg (Except.map fun _ => records.length) result
  · rw [loadEvents, loadEvents]
    rcases alike.cases with ⟨missing, missing'⟩ | ⟨group, group', found, found', same⟩
    · rw [missing, missing']
    · rw [found, found']
      cases (Package.readFrom files path).run.value with
      | error error => rfl
      | ok records => exact (confined_addRecords steady id records).seen alike

end confined

/-! What each operation is on. -/

/-- The group which the operation is on, if it is on a single one. -/
def Operation.addressee? : Operation → Option GroupId
  | createGroup _ | destroyAll => none
  | destroyGroup id | push id _ | pushContext id _ | pushContextOf id _ | find id _
  | loadPackage id _ | groupName id | assetCount id _ => some id
  | resource _ asset | context asset | location asset _ | nameAsset asset _ => some asset.group

/-- Whether the operation is on no other group. -/
def Operation.Near (id : GroupId) (operation : Operation) : Prop :=
  operation.addressee? = none ∨ operation.addressee? = some id

instance (id : GroupId) (operation : Operation) : Decidable (operation.Near id) :=
  inferInstanceAs (Decidable (_ ∨ _))

theorem Operation.Near.eq {operation : Operation} (near : operation.Near id) {other : GroupId}
    (on : operation.addressee? = some other) : id = other := by
  simpa [Near, on, eq_comm] using near

theorem seen_closeEvents_of_none (ids : List GroupId) {s : Session}
    (missing : s.store.groups.get? id = none) : seen id (closeEvents ids s) = [] := by
  induction ids generalizing s with
  | nil => rfl
  | cons other ids ih =>
    rw [closeEvents, seen_append, after_destroyGroup]
    cases found : s.store.groups.get? other with
    | none => exact ih missing
    | some group =>
      have ne : other ≠ id := by
        rintro rfl
        rw [missing] at found
        cases found
      have still : (closed other group s).store.groups.get? id = none := by
        simp [closed, Table.get?_erase, missing]
      rw [ih still]
      simp [seen_singleton, Event.concerns, ne]

/-- Of the groups which are released one is seen, if it is there. -/
theorem seen_closeEvents (ids : List GroupId) (s : Session) : seen id (closeEvents ids s) =
    if id ∈ ids ∧ (s.store.groups.get? id).isSome then [.closed id] else [] := by
  induction ids generalizing s with
  | nil => rfl
  | cons other ids ih =>
    rw [closeEvents, seen_append, after_destroyGroup]
    by_cases same : other = id
    · subst same
      cases found : s.store.groups.get? other with
      | none => simp [seen_closeEvents_of_none ids found, seen_nil]
      | some group =>
        have gone : (closed other group s).store.groups.get? other = none := by
          simp [closed, Table.get?_erase]
        simp [seen_closeEvents_of_none ids gone, seen_singleton, Event.concerns, Event.blank]
    · cases found : s.store.groups.get? other with
      | none => simp [ih, seen_nil, Ne.symm same]
      | some group =>
        have still : (closed other group s).store.groups.get? id = s.store.groups.get? id := by
          simp [closed, Table.get?_erase, Ne.symm same]
        simp [ih, still, seen_singleton, Event.concerns, same, Ne.symm same]

theorem isSome_get?_congr (alike : Alike id s t) :
    (s.store.groups.get? id).isSome = (t.store.groups.get? id).isSome := by
  rcases alike.cases with ⟨missing, missing'⟩ | ⟨group, group', found, found', -⟩
  · rw [missing, missing']
  · rw [found, found']
    rfl

theorem seen_destroyAll (alike : Alike id s t) : seen id (closeEvents
      (s.store.groups.keys.mergeSort fun a b => decide (a.number ≤ b.number)) s) =
    seen id (closeEvents
      (t.store.groups.keys.mergeSort fun a b => decide (a.number ≤ b.number)) t) := by
  have all (s : Session) : seen id (closeEvents
        (s.store.groups.keys.mergeSort fun a b => decide (a.number ≤ b.number)) s) =
      if (s.store.groups.get? id).isSome then [.closed id] else [] := by
    rw [seen_closeEvents]
    simp only [List.mem_mergeSort, ← Table.contains_iff, Table.contains, and_self]
  rw [all, all, isSome_get?_congr alike]

/-- What is seen of an operation on the group comes from what is seen before it. -/
theorem seen_events {backend : Backend} (steady : backend.Steady) (files : FileTree)
    {operation : Operation} (near : operation.Near id) (alike : Alike id s t) :
    seen id (events backend files operation s) = seen id (events backend files operation t) := by
  cases operation with
  | createGroup name =>
    have same : (outcome (createGroup name) s).1 = (outcome (createGroup name) t).1 :=
      congrArg GroupId.mk alike.next
    rw [events, events, same]
  | destroyGroup other =>
    rw [events, events, seen_closeEvents, seen_closeEvents, isSome_get?_congr alike]
  | destroyAll => exact seen_destroyAll alike
  | push other resource =>
    obtain rfl := near.eq rfl
    exact (confined_push steady id resource).seen alike
  | pushContext other shader =>
    obtain rfl := near.eq rfl
    exact (confined_pushContext steady id shader).seen alike
  | pushContextOf other shader =>
    obtain rfl := near.eq rfl
    exact (confined_pushContextOf steady id shader).seen alike
  | nameAsset asset name =>
    obtain rfl := near.eq rfl
    exact (confined_nameAsset asset name).seen alike
  | loadPackage other path =>
    obtain rfl := near.eq rfl
    exact (confined_loadPackage steady files id path).seen alike
  | resource | context | location | find | groupName | assetCount => rfl

/-! What is not seen. -/

theorem unseen_added {asset : AssetId} (elsewhere : asset.group ≠ id) (content : Content) :
    seen id [.added asset content] = [] := by
  simp [seen_singleton, Event.concerns, elsewhere]

theorem unseen_pushEvents {other : GroupId} (ne : other ≠ id) (backend : Backend)
    (resource : Resource) (s : Session) :
    seen id (pushEvents backend other resource s) = [] := by
  rcases push_cases backend other resource s with
    ⟨error, t, -, events⟩ | ⟨asset, ref, t, group, -, rfl, events, -⟩
  · rw [events, seen_nil]
  · rw [events, unseen_added ne]

theorem unseen_contextEvents {other : GroupId} (ne : other ≠ id) (backend : Backend)
    (shader : AssetId) (s : Session) : seen id (contextEvents backend other shader s) = [] := by
  cases pushed : (eval (pushContext backend other shader) s).1 with
  | error error => rw [contextEvents, pushed, seen_nil]
  | ok asset =>
    have within := (mem_contextEvents pushed).1
    obtain ⟨group, ref, found, own, -⟩ := pushContext_eq_ok pushed
    rw [contextEvents, pushed, shader_of_shaderOf? found own]
    exact unseen_added (within ▸ ne) _

theorem unseen_nameEvents {asset : AssetId} (ne : asset.group ≠ id) (name : String) (s : Session) :
    seen id (nameEvents asset name s) = [] := by
  rw [nameEvents]
  split
  · split
    · rfl
    · simp [seen_singleton, Event.concerns, ne]
  · rfl

theorem unseen_andThen {x : StoreAttempt α} {first : Session → List Event}
    {rest : α → Session → List Event} (head : seen id (first s) = [])
    (tail : ∀ a t, eval x s = (.ok a, t) → seen id (rest a t) = []) :
    seen id (andThen x first rest s) = [] := by
  rw [andThen, seen_append, head, List.nil_append]
  split
  · rename_i a t passed
    exact tail a t passed
  · rfl

theorem unseen_recordEvents {other : GroupId} (ne : other ≠ id) (backend : Backend)
    (records : List Package.Record) (s : Session) :
    seen id (recordEvents backend other records s) = [] := by
  induction records generalizing s with
  | nil => rfl
  | cons record rest ih =>
    refine unseen_andThen (unseen_pushEvents ne backend _ s) fun asset t pushed => ?_
    have within := (mem_pushEvents (congrArg Prod.fst pushed)).1
    exact unseen_andThen (unseen_nameEvents (within ▸ ne) _ t) fun _ u _ => ih u

/-- Nothing is seen of an operation on another group. -/
theorem unseen_events (backend : Backend) (files : FileTree) {operation : Operation}
    (far : ¬ operation.Near id) (s : Session) :
    seen id (events backend files operation s) = [] := by
  have apart {other : GroupId} (on : operation.addressee? = some other) : other ≠ id := by
    rintro rfl
    exact far (.inr on)
  cases operation with
  | createGroup | destroyAll => exact absurd (.inl rfl) far
  | destroyGroup other =>
    simp [events, seen_closeEvents, Ne.symm (apart rfl)]
  | push other resource => exact unseen_pushEvents (apart rfl) backend resource s
  | pushContext other shader => exact unseen_contextEvents (apart rfl) backend shader s
  | pushContextOf other shader =>
    exact unseen_andThen (unseen_pushEvents (apart rfl) backend _ s)
      fun asset t _ => unseen_contextEvents (apart rfl) backend asset t
  | nameAsset asset name => exact unseen_nameEvents (apart rfl) name s
  | loadPackage other path =>
    rw [events, loadEvents]
    split
    · exact unseen_recordEvents (apart rfl) backend _ s
    · rfl
  | resource | context | location | find | groupName | assetCount => rfl

end Store

end AssetPack

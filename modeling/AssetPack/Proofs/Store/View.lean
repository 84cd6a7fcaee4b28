import AssetPack.Proofs.Store.Handles

/-! What can be seen of a store from one of its groups: the group itself without the references of
its resources, and the number for the next group. What is seen comes from the events which concern
the group. -/

namespace AssetPack

namespace Group

/-- The group with one reference in place of all. -/
def blank (group : Group) : Group :=
  { group with
    buffers := group.buffers.map fun _ => ⟨0⟩
    textures := group.textures.map fun _ => ⟨0⟩
    shaders := group.shaders.map fun _ => ⟨0⟩
    audioBuffers := group.audioBuffers.map fun _ => ⟨0⟩ }

theorem count_blank (group : Group) (type : AssetType) :
    group.blank.count type = group.count type := by
  cases type <;> simp [count, blank]

theorem nextId?_blank (group : Group) (id : GroupId) (type : AssetType) :
    group.blank.nextId? id type = group.nextId? id type := by
  simp only [nextId?, count_blank]

theorem blank_new (id : GroupId) (name : String) : (new id name).blank = new id name := by
  simp [new, blank]

theorem blank_push (group : Group) (kind : ResourceKind) (ref : Ref) :
    (group.push kind ref).blank = group.blank.push kind ⟨0⟩ := by
  cases kind <;> simp [push, blank]

theorem blank_pushContext (group : Group) (context : ShaderContext) :
    (group.pushContext context).blank = group.blank.pushContext context := rfl

theorem blank_setName (group : Group) (name : String) (asset : AssetId) :
    (group.setName name asset).blank = group.blank.setName name asset := rfl

end Group

namespace Store
open Process

/-- The event with the reference of no resource. -/
def Event.blank : Event → Event
  | added asset (.resource kind _) => added asset (.resource kind ⟨0⟩)
  | event => event

/-- Whether the event is one of the group, or makes a group. -/
def Event.concerns (id : GroupId) : Event → Bool
  | made .. => true
  | added asset _ | named asset _ => asset.group = id
  | closed other => other = id

/-- What is seen of some events from a group. -/
def seen (id : GroupId) (events : List Event) : List Event :=
  (events.filter (·.concerns id)).map Event.blank

/-- What is seen of a store from a group. -/
structure View where
  next : Int32
  group : Option Group

def view (id : GroupId) (store : Store) : View :=
  ⟨store.next, (store.groups.get? id).map Group.blank⟩

def View.apply (id : GroupId) (view : View) : Event → View
  | .made other name => ⟨view.next + 1, if id = other then some (.new other name) else view.group⟩
  | .added _ content => { view with group := view.group.map (Group.add content) }
  | .named asset name => { view with group := view.group.map (Group.setName name asset) }
  | .closed _ => { view with group := none }

theorem seen_nil (id : GroupId) : seen id [] = [] := rfl

theorem seen_append (id : GroupId) (events more : List Event) :
    seen id (events ++ more) = seen id events ++ seen id more := by
  simp [seen]

theorem seen_singleton (id : GroupId) (event : Event) :
    seen id [event] = if event.concerns id then [event.blank] else [] := by
  by_cases concerns : event.concerns id
  · simp [seen, concerns]
  · simp [seen, concerns]

/-- Only a change of the group itself is seen from it. -/
theorem view_updateGroup {f g : Group → Group} (blank : ∀ group, (f group).blank = g group.blank)
    (id other : GroupId) (store : Store) : view id (store.updateGroup other f) =
      if other = id then { view id store with group := (view id store).group.map g }
      else view id store := by
  by_cases same : other = id
  · simp [same, view, updateGroup, Table.get?_update, Function.comp_def, blank]
  · simp [same, Ne.symm same, view, updateGroup, Table.get?_update]

theorem view_apply (id : GroupId) (event : Event) (store : Store) :
    view id (event.apply store) =
      if event.concerns id then (view id store).apply id event.blank else view id store := by
  cases event with
  | made other name =>
    have new : view id (Event.apply store (.made other name)) =
        ⟨store.next + 1, ((store.groups.insert other (.new other name)).get? id).map Group.blank⟩ :=
      rfl
    rw [new, Table.get?_insert]
    by_cases same : id = other
    · simp [same, View.apply, Event.blank, Event.concerns, Group.blank_new, view]
    · simp [same, View.apply, Event.blank, Event.concerns, view]
  | added asset content =>
    cases content with
    | resource kind ref =>
      have pushed := view_updateGroup (fun group => group.blank_push kind ref) id asset.group store
      exact pushed.trans (if_congr decide_eq_true_iff.symm rfl rfl)
    | context context =>
      have pushed := view_updateGroup (fun group => group.blank_pushContext context) id asset.group
        store
      exact pushed.trans (if_congr decide_eq_true_iff.symm rfl rfl)
  | named asset name =>
    have named := view_updateGroup (fun group => group.blank_setName name asset) id asset.group
      store
    exact named.trans (if_congr decide_eq_true_iff.symm rfl rfl)
  | closed other =>
    by_cases same : other = id
    · simp [same, view, Event.apply, Event.concerns, Event.blank, View.apply, Table.get?_erase]
    · simp [same, Ne.symm same, view, Event.apply, Event.concerns, Table.get?_erase]

/-- What is seen of a store comes from what is seen of its events. -/
theorem Journal.view {store store' : Store} {events : List Event}
    (journal : Journal store events store') (id : GroupId) :
    view id store' = (seen id events).foldl (View.apply id) (view id store) := by
  induction journal with
  | nil => rfl
  | @cons store store' event events admitted rest ih =>
    rw [ih, view_apply]
    by_cases concerns : event.concerns id
    · simp [seen, concerns]
    · simp [seen, concerns]

end Store

end AssetPack

import AssetPack.Store.Basic
namespace AssetPack

/-! Sessions, in which groups are made and filled, and released again. -/

/-- A store and the calls of the backend so far, the newest one first. -/
structure Session where
  store : Store
  calls : List Call

def Session.start : Session := ⟨.empty, []⟩

/-- What is done in a session leaves messages. -/
abbrev StoreM := StateT Session Logged

/-- What may fail keeps the session as it was left. -/
abbrev StoreAttempt := ExceptT Store.Error StoreM

namespace Store

def modifyStore (f : Store → Store) : StoreM Unit :=
  modify fun session => { session with store := f session.store }

def note (call : Call) : StoreM Unit :=
  modify fun session => { session with calls := call :: session.calls }

def create (backend : Backend) (resource : Resource) : StoreM (Option Ref) := do
  let answer := backend.create (← get).calls resource
  note (.create resource answer)
  return answer

def fail {α : Type} (text : String) (error : Error) : StoreAttempt α := do
  report .error .store text
  throw error

def findGroup (id : GroupId) : StoreAttempt Group := do
  match (← get).store.groups.get? id with
  | some group => return group
  | none => fail s!"Asset group {id.label} does not exist." (.unknownGroup id)

def createGroup (name : String) : StoreM GroupId := do
  let id : GroupId := ⟨(← get).store.next⟩
  modifyStore fun store => ⟨store.groups.insert id (.new id name), store.next + 1⟩
  report .info .store s!"Created asset group {id.label} ({Text.quote name})."
  return id

/-- Releases every resource of a group and forgets the group. -/
def destroyGroup (id : GroupId) : StoreM Unit := do
  match (← get).store.groups.get? id with
  | none =>
    report .warn .store s!"Tried to destroy asset group {id.label}, which doesn't exist."
  | some group =>
    modifyStore fun store => { store with groups := store.groups.erase id }
    report .trace .group <|
      s!"Dropping {group.contexts.size} shader contexts of group {id.label} " ++
        s!"({Text.quote group.name})."
    group.refs.forM fun (kind, ref) => note (.destroy kind ref)
    report .info .store <|
      s!"Destroyed asset group {id.label} ({Text.quote group.name}) with " ++
        s!"{(AssetType.all.map group.count).foldl (· + ·) 0} assets."

/-- Destroys every group, in the order of their numbers. -/
def destroyAll : StoreM Unit := do
  let ids := (← get).store.groups.keys.mergeSort fun a b => decide (a.number ≤ b.number)
  ids.forM destroyGroup

/-- Creates a resource and adds it to its pool. -/
def push (backend : Backend) (id : GroupId) (resource : Resource) : StoreAttempt AssetId := do
  let kind := resource.kind
  let group ← findGroup id
  match group.nextId? id kind.type with
  | none => throw (.poolFull id kind.type)
  | some asset =>
    match ← create backend resource with
    | none =>
      fail
        (s!"Failed to create a {kind.type.label} for group {id.label}: " ++
          "the backend returned nothing.")
        (.backend id kind.type)
    | some ref =>
      modifyStore (updateGroup id (Group.push kind ref))
      report .debug .store s!"Created {asset.spelling} in group {Text.quote group.name}."
      return asset

/-- The resource of a shader of the group. -/
def findShader (id : GroupId) (group : Group) (shader : AssetId) : StoreAttempt Ref := do
  if shader.group ≠ id ∨ shader.type ≠ .shader then
    fail
      (s!"Failed to create a shader context: {shader.spelling} is not a shader of group " ++
        s!"{Text.quote group.name}.")
      (.invalidShader id shader)
  match shader.slot?.bind (group.shaders[·]?) with
  | some ref => return ref
  | none =>
    fail s!"Failed to create a shader context: {shader.spelling} is out of bounds."
      (.invalidShader id shader)

/-- Adds a context for a shader of the same group. -/
def pushContext (backend : Backend) (id : GroupId) (shader : AssetId) : StoreAttempt AssetId := do
  let group ← findGroup id
  let ref ← findShader id group shader
  match group.nextId? id .shaderContext with
  | none => throw (.poolFull id .shaderContext)
  | some asset =>
    let reported := backend.uniforms (← get).calls ref
    note (.uniforms ref)
    let context ← ShaderContext.make shader reported
    report .debug .store <|
      s!"Created {asset.spelling} with {context.uniforms.length} uniforms in group " ++
        s!"{Text.quote group.name}."
    modifyStore (updateGroup id (Group.pushContext context))
    return asset

def pushContextOf (backend : Backend) (id : GroupId) (shader : Shader) :
    StoreAttempt AssetId := do
  pushContext backend id (← push backend id (.shader shader))

end Store

end AssetPack

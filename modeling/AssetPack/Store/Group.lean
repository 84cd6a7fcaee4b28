import AssetPack.Store.ShaderContext
import AssetPack.Store.Table
namespace AssetPack

/-! Groups of assets, which live and die together. -/

/-- Each type of assets has a pool, to which assets are only ever added. -/
structure Group where
  name : String
  buffers : Array Ref
  textures : Array Ref
  shaders : Array Ref
  audioBuffers : Array Ref
  contexts : Array ShaderContext
  names : Table String AssetId

namespace Group

/-- The name which always stands for no asset. -/
def reservedName : String := "invalid"

def poolLimit : Nat := 32768

def new (id : GroupId) (name : String) : Group :=
  ⟨name, #[], #[], #[], #[], #[], Table.empty.insert reservedName (.invalidIn id)⟩

def pool (group : Group) : ResourceKind → Array Ref
  | .buffer => group.buffers
  | .texture => group.textures
  | .shader => group.shaders
  | .audioBuffer => group.audioBuffers

def push (kind : ResourceKind) (ref : Ref) (group : Group) : Group :=
  match kind with
  | .buffer => { group with buffers := group.buffers.push ref }
  | .texture => { group with textures := group.textures.push ref }
  | .shader => { group with shaders := group.shaders.push ref }
  | .audioBuffer => { group with audioBuffers := group.audioBuffers.push ref }

def pushContext (context : ShaderContext) (group : Group) : Group :=
  { group with contexts := group.contexts.push context }

/-- Types without a pool have no assets. -/
def count (group : Group) : AssetType → Nat
  | .buffer => group.buffers.size
  | .texture => group.textures.size
  | .shader => group.shaders.size
  | .audioBuffer => group.audioBuffers.size
  | .shaderContext => group.contexts.size
  | .animation | .font | .invalid => 0

/-- The handle of the next asset of a type, while its pool has room. -/
def nextId? (id : GroupId) (group : Group) (type : AssetType) : Option AssetId :=
  let count := group.count type
  if count < poolLimit then some ⟨type, id, Int16.ofNat count⟩ else none

/-- The references of a group with their kinds, in the order in which they are released. -/
def refs (group : Group) : List (ResourceKind × Ref) :=
  ResourceKind.all.flatMap fun kind => (group.pool kind).toList.map (kind, ·)

def setName (name : String) (asset : AssetId) (group : Group) : Group :=
  { group with names := group.names.insert name asset }

@[simp] theorem pool_push (group : Group) (kind other : ResourceKind) (ref : Ref) :
    (group.push kind ref).pool other =
      if other = kind then (group.pool other).push ref else group.pool other := by
  cases kind <;> cases other <;> rfl

@[simp] theorem pool_pushContext (group : Group) (context : ShaderContext) (kind : ResourceKind) :
    (group.pushContext context).pool kind = group.pool kind := by
  cases kind <;> rfl

@[simp] theorem pool_setName (group : Group) (name : String) (asset : AssetId)
    (kind : ResourceKind) : (group.setName name asset).pool kind = group.pool kind := by
  cases kind <;> rfl

theorem count_type (group : Group) (kind : ResourceKind) :
    group.count kind.type = (group.pool kind).size := by
  cases kind <;> rfl

end Group

end AssetPack

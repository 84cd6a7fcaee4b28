import AssetPack.Package.Read
import AssetPack.Store.Group
namespace AssetPack

/-! The store of all groups, and what can be looked up in it. -/

/-- `next` numbers the next group. -/
structure Store where
  groups : Table GroupId Group
  next : Int32

namespace Store

def empty : Store := ⟨.empty, 0⟩

def updateGroup (id : GroupId) (f : Group → Group) (store : Store) : Store :=
  { store with groups := store.groups.update id f }

/-- The resource of a handle, if the handle is of the given kind. -/
def resource? (store : Store) (kind : ResourceKind) (id : AssetId) : Option Ref :=
  if id.type = kind.type then do
    let group ← store.groups.get? id.group
    (group.pool kind)[← id.slot?]?
  else none

def context? (store : Store) (id : AssetId) : Option ShaderContext :=
  if id.type = .shaderContext then do
    let group ← store.groups.get? id.group
    group.contexts[← id.slot?]?
  else none

def groupName? (store : Store) (id : GroupId) : Option String :=
  (store.groups.get? id).map (·.name)

/-- A group which does not exist has no assets. -/
def assetCount (store : Store) (id : GroupId) (type : AssetType) : Nat :=
  ((store.groups.get? id).map (·.count type)).getD 0

def groupCount (store : Store) : Nat := store.groups.size

inductive Error where
  | unknownGroup (group : GroupId)
  | backend (group : GroupId) (type : AssetType)
  | poolFull (group : GroupId) (type : AssetType)
  | invalidShader (group : GroupId) (shader : AssetId)
  | package (error : Package.Error)
  deriving DecidableEq, Repr

def Error.message : Error → String
  | unknownGroup group => s!"asset group {group.label} does not exist"
  | backend group type => s!"the backend failed to create a {type.label} for group {group.label}"
  | poolFull group type => s!"group {group.label} has no room for more {type.label} assets"
  | invalidShader group shader => s!"{shader.spelling} is not a shader of group {group.label}"
  | package error => error.message

def Error.source : Error → Option String
  | package error => error.source
  | _ => none

end Store

end AssetPack

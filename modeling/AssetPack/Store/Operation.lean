import AssetPack.Store.Package
namespace AssetPack.Store

/-! Operations on a store as values, so that a run of them is a list. -/

inductive Operation where
  | createGroup (name : String)
  | destroyGroup (group : GroupId)
  | destroyAll
  | push (group : GroupId) (resource : Resource)
  | pushContext (group : GroupId) (shader : AssetId)
  | pushContextOf (group : GroupId) (shader : Shader)
  | resource (kind : ResourceKind) (asset : AssetId)
  | context (asset : AssetId)
  | location (asset : AssetId) (uniform : String)
  | nameAsset (asset : AssetId) (name : String)
  | find (group : GroupId) (name : String)
  | loadPackage (group : GroupId) (path : Path)
  | groupName (group : GroupId)
  | assetCount (group : GroupId) (type : AssetType)
  deriving DecidableEq, Repr

inductive Reply where
  | done
  | failed (error : Error)
  | group (group : GroupId)
  | asset (asset : AssetId)
  | resource (ref : Option Ref)
  | context (context : Option ShaderContext)
  /-- There is no location without the uniform, and nothing without the context. -/
  | location (location : Option (Option Int32))
  | loaded (count : Nat)
  | groupName (name : Option String)
  | count (count : Nat)
  deriving DecidableEq, Repr

def reply {α : Type} (attempt : StoreAttempt α) (success : α → Reply) : StoreM Reply := do
  match ← attempt.run with
  | .ok value => return success value
  | .error error => return .failed error

def perform (backend : Backend) (files : FileTree) : Operation → StoreM Reply
  | .createGroup name => return .group (← createGroup name)
  | .destroyGroup id => do
    destroyGroup id
    return .done
  | .destroyAll => do
    destroyAll
    return .done
  | .push id resource => reply (push backend id resource) .asset
  | .pushContext id shader => reply (pushContext backend id shader) .asset
  | .pushContextOf id shader => reply (pushContextOf backend id shader) .asset
  | .resource kind asset => return .resource ((← get).store.resource? kind asset)
  | .context asset => return .context ((← get).store.context? asset)
  | .location asset uniform => do
    return .location (((← get).store.context? asset).map (·.location? uniform))
  | .nameAsset asset name => reply (nameAsset asset name) fun _ => .done
  | .find id name => do return .asset (← ((← get).store.find id name : Logged AssetId))
  | .loadPackage id path => reply (loadPackage backend files id path) .loaded
  | .groupName id => return .groupName ((← get).store.groupName? id)
  | .assetCount id type => return .count ((← get).store.assetCount id type)

/-- An operation, with the backend and the files which it meets. -/
structure Step where
  backend : Backend
  files : FileTree
  operation : Operation

def run (steps : List Step) : StoreM (List Reply) :=
  steps.mapM fun step => perform step.backend step.files step.operation

end AssetPack.Store

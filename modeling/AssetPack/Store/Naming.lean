import AssetPack.Store.Session
namespace AssetPack.Store

/-! The names of assets in their groups. -/

/-- Gives a name to a handle. A later name takes the place of an earlier one. -/
def nameIn (id : GroupId) (group : Group) (asset : AssetId) (name : String) : StoreM Unit := do
  if name = Group.reservedName then
    report .warn .group <|
      s!"Not naming {asset.spelling} {Text.quote name} in group {Text.quote group.name}, " ++
        "the name is reserved for missing assets."
  else
    modifyStore (updateGroup id (Group.setName name asset))
    match group.names.get? name with
    | some previous =>
      report .warn .group <|
        s!"Asset name {Text.quote name} was already used in group {Text.quote group.name} " ++
          s!"by {previous.spelling}, it now refers to {asset.spelling}."
    | none => return

def nameAsset (asset : AssetId) (name : String) : StoreAttempt Unit := do
  let group ← findGroup asset.group
  nameIn asset.group group asset name

/-- The handle with the name, or one of no asset. -/
def find (store : Store) (id : GroupId) (name : String) : Logged AssetId :=
  match store.groups.get? id with
  | none => do
    report .error .store <|
      s!"Tried to look up asset {Text.quote name} from asset group {id.label}, " ++
        "which doesn't exist."
    return .invalid
  | some group =>
    match group.names.get? name with
    | some asset => return asset
    | none => do
      report .error .store
        s!"Asset group {Text.quote group.name} has no asset called {Text.quote name}."
      return (group.names.get? Group.reservedName).getD (.invalidIn id)

end AssetPack.Store

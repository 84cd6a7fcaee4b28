import AssetPack.Asset.Type
namespace AssetPack

/-! Names of groups and handles of assets. -/

structure GroupId where
  number : Int32
  deriving DecidableEq, Repr

namespace GroupId

def invalid : GroupId := ⟨-1⟩

def isValid (id : GroupId) : Bool := 0 ≤ id.number

def label (id : GroupId) : String := s!"#{id.number}"

end GroupId

/-- The handle of an asset: its index among the assets of its type in its group. -/
structure AssetId where
  type : AssetType
  group : GroupId
  index : Int16
  deriving DecidableEq, Repr

namespace AssetId

/-- What is found in a group under a name nothing has. -/
def invalidIn (group : GroupId) : AssetId := ⟨.invalid, group, -1⟩

def invalid : AssetId := invalidIn .invalid

def isValid (id : AssetId) : Bool := 0 ≤ id.index && id.type ≠ .invalid && id.group.isValid

/-- The place in a pool which the handle stands for. -/
def slot? (id : AssetId) : Option Nat := if 0 ≤ id.index then some id.index.toNatClampNeg else none

/-- The handle as messages spell it. -/
def spelling (id : AssetId) : String :=
  s!"AssetId \x7b asset_type: {id.type.spelling}, " ++
    s!"group: AssetGroupId({id.group.number}), id: {id.index} \x7d"

@[simp] theorem slot?_invalidIn (group : GroupId) : (invalidIn group).slot? = none :=
  if_neg (by decide : ¬ (0 : Int16) ≤ -1)

end AssetId

end AssetPack

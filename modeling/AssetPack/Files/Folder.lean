import AssetPack.Bytes
import AssetPack.Files.Error
namespace AssetPack

/-! Folders: named entries, which are leaves or folders themselves. -/

/-- An entry which is not searched for other entries. -/
inductive Leaf where
  | file (bytes : Bytes)
  /-- A device on which every write fails, and which gives nothing to read. -/
  | full
  /-- A folder whose entries can not be listed. -/
  | sealed (reason : IoError)
  deriving DecidableEq, Repr

/-- The entries of a folder, in the order in which the system lists them. -/
inductive Folder where
  | empty
  | leaf (name : String) (content : Leaf) (rest : Folder)
  | folder (name : String) (inner rest : Folder)
  deriving DecidableEq, Repr

inductive Node where
  | leaf (content : Leaf)
  | folder (inner : Folder)
  deriving DecidableEq, Repr

/-- The names on the way from a folder to one of its entries at any depth. -/
abbrev Place := List String

namespace Folder

/-- The folder with one more entry at its start. -/
def cons (name : String) : Node → Folder → Folder
  | .leaf content, rest => leaf name content rest
  | .folder inner, rest => folder name inner rest

def entries : Folder → List (String × Node)
  | empty => []
  | leaf name content rest => (name, .leaf content) :: entries rest
  | folder name inner rest => (name, .folder inner) :: entries rest

def get? (name : String) : Folder → Option Node
  | empty => none
  | leaf other content rest => if name = other then some (.leaf content) else get? name rest
  | folder other inner rest => if name = other then some (.folder inner) else get? name rest

def node? (here : Folder) : Place → Option Node
  | [] => some (.folder here)
  | name :: more =>
    match here.get? name with
    | some (.folder inner) => inner.node? more
    | some (.leaf content) => if more = [] then some (.leaf content) else none
    | none => none

end Folder

/-- The node at the end of a chain of new folders. -/
def Node.under (node : Node) : Place → Node
  | [] => node
  | name :: more => .folder (Folder.cons name (node.under more) .empty)

namespace Folder

/-- Puts an entry at a place, making the folders on the way which are missing. -/
def put (node : Node) : Place → Folder → Folder
  | [], here => here
  | name :: more, empty => cons name (node.under more) empty
  | name :: more, leaf other content rest =>
    if name = other then cons name (node.under more) rest
    else leaf other content (put node (name :: more) rest)
  | name :: more, folder other inner rest =>
    if name = other then
      if more = [] then cons name node rest else folder other (put node more inner) rest
    else folder other inner (put node (name :: more) rest)

@[simp] theorem get?_cons (name other : String) (node : Node) (rest : Folder) :
    (cons other node rest).get? name = if name = other then some node else rest.get? name := by
  cases node <;> rfl

@[simp] theorem node?_nil (here : Folder) : here.node? [] = some (.folder here) := rfl

theorem node?_singleton (here : Folder) (name : String) :
    here.node? [name] = here.get? name := by
  rw [node?]
  split <;> simp_all

end Folder

end AssetPack

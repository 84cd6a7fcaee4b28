import AssetPack.Path
import AssetPack.Files.Folder
namespace AssetPack

/-! The file tree: how paths are followed, and reading and writing at the end of them. -/

/-- Relative paths start at `current`. -/
structure FileTree where
  root : Folder
  current : Place
  deriving DecidableEq, Repr

inductive Sink where
  | file (place : Place)
  | full
  deriving DecidableEq, Repr

namespace FileTree

def nameLimit : Nat := 255

/-- A path with this many bytes is too long. -/
def pathLimit : Nat := 4096

def isTooLong (path : Path) : Bool := pathLimit ≤ path.text.utf8ByteSize

/-- Follows the pieces of a path from a place. Every place on the way has to be a folder. -/
def follow (root : Folder) : Place → List (List Char) → Except IoError Place
  | place, [] => .ok place
  | place, piece :: more =>
    match root.node? place with
    | some (.folder inner) =>
      match Path.component? piece with
      | some (.name name) =>
        if nameLimit < name.utf8ByteSize then .error .nameTooLong
        else
          match inner.get? name with
          | some _ => follow root (place ++ [name]) more
          | none => .error .notFound
      | some .up => follow root place.dropLast more
      | _ => follow root place more
    | some (.leaf (.sealed reason)) =>
      match Path.component? piece with
      | some (.name _) => .error reason
      | some .up => follow root place.dropLast more
      | _ => follow root place more
    | _ => .error .notADirectory

/-- Refuses paths which the system does not look at. -/
def check (path : Path) : Except IoError Unit :=
  if path.text.toList.contains '\x00' then .error .nulInName
  else if path.text = "" then .error .notFound
  else if isTooLong path then .error .nameTooLong
  else .ok ()

def start (tree : FileTree) (path : Path) : Place :=
  if path.isAbsolute then [] else tree.current

def find (tree : FileTree) (path : Path) : Except IoError Node := do
  check path
  let place ← follow tree.root (tree.start path) (Path.pieces path.text.toList)
  match tree.root.node? place with
  | some node => .ok node
  | none => .error .notFound

def isPresent (tree : FileTree) (path : Path) : Bool := (tree.find path).isOk

def isFolder (tree : FileTree) (path : Path) : Bool :=
  match tree.find path with
  | .ok (.folder _) | .ok (.leaf (.sealed _)) => true
  | _ => false

def read (tree : FileTree) (path : Path) : Except IoError Bytes := do
  match ← tree.find path with
  | .leaf (.file bytes) => .ok bytes
  | .leaf .full => .ok []
  | .leaf (.sealed _) | .folder _ => .error .isADirectory

def readText (tree : FileTree) (path : Path) : Except IoError String := do
  match Bytes.text? (← tree.read path) with
  | some text => .ok text
  | none => .error .invalidUtf8

/-- Opens a file for writing and empties it. The folders on the way have to exist. -/
def create (tree : FileTree) (path : Path) : Except IoError (FileTree × Sink) := do
  check path
  let pieces := Path.pieces path.text.toList
  let body := (pieces.reverse.dropWhile List.isEmpty).reverse
  match body.getLast? with
  | none => .error .isADirectory
  | some last =>
    let place ← follow tree.root (tree.start path) (body.dropLast ++ [[]])
    match Path.component? last with
    | some (.name name) =>
      if body.length < pieces.length then .error .isADirectory
      else if nameLimit < name.utf8ByteSize then .error .nameTooLong
      else
        match tree.root.node? (place ++ [name]) with
        | some (.leaf .full) => .ok (tree, .full)
        | some (.leaf (.sealed _)) | some (.folder _) => .error .isADirectory
        | some (.leaf (.file _)) | none =>
          match tree.root.node? place with
          | some (.leaf (.sealed reason)) => .error reason
          | _ =>
            .ok ({ tree with root := tree.root.put (.leaf (.file [])) (place ++ [name]) },
              .file (place ++ [name]))
    | _ => .error .isADirectory

def append (tree : FileTree) (bytes : Bytes) : Sink → Except IoError FileTree
  | .full => if bytes = [] then .ok tree else .error .noSpace
  | .file place =>
    match tree.root.node? place with
    | some (.leaf (.file before)) =>
      .ok { tree with root := tree.root.put (.leaf (.file (before ++ bytes))) place }
    | _ => .error .notFound

def write (tree : FileTree) (path : Path) (bytes : Bytes) : Except IoError FileTree := do
  let (emptied, sink) ← tree.create path
  emptied.append bytes sink

/-- The contents of a file, and nothing for other entries. -/
def contents? (tree : FileTree) (path : Path) : Option Bytes :=
  match tree.find path with
  | .ok (.leaf (.file bytes)) => some bytes
  | _ => none

/-- The place of a path whose folders need not exist yet. -/
def place (tree : FileTree) (path : Path) : Place :=
  path.components.foldl (fun place component =>
    match component with
    | .root => []
    | .here => place
    | .up => place.dropLast
    | .name name => place ++ [name]) tree.current

/-- The tree with a file, and with the folders on the way to it. -/
def addFile (tree : FileTree) (path : Path) (bytes : Bytes) : FileTree :=
  { tree with root := tree.root.put (.leaf (.file bytes)) (tree.place path) }

/-- The tree with a folder, which keeps its entries if it is there already. -/
def addFolder (tree : FileTree) (path : Path) : FileTree :=
  if tree.isFolder path then tree
  else { tree with root := tree.root.put (.folder .empty) (tree.place path) }

end FileTree

end AssetPack

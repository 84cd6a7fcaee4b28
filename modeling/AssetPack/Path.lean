namespace AssetPack

/-! Paths as they are written, their components, and how they are joined. -/

/-- Two spellings of one path are different values here, compare `Same`. -/
structure Path where
  text : String
  deriving DecidableEq, Repr

/-- A step of a path. `here` only stands at the start of a path. -/
inductive Component where
  | root | here | up
  | name (text : String)
  deriving DecidableEq, Repr

namespace Path

/-- The pieces between slashes, of which there is at least one. -/
def pieces : List Char → List (List Char)
  | [] => [[]]
  | c :: rest =>
    if c = '/' then [] :: pieces rest
    else
      match pieces rest with
      | [] => [[c]]
      | piece :: more => (c :: piece) :: more

/-- Empty pieces and single dots lead nowhere. -/
def component? : List Char → Option Component
  | [] => none
  | ['.'] => none
  | ['.', '.'] => some .up
  | piece => some (.name (String.ofList piece))

def components (path : Path) : List Component :=
  match pieces path.text.toList with
  | [[]] => []
  | [] :: rest => .root :: rest.filterMap component?
  | ['.'] :: rest => .here :: rest.filterMap component?
  | all => all.filterMap component?

/-- Paths with the same components lead to the same file. -/
def Same (p q : Path) : Prop := p.components = q.components

instance (p q : Path) : Decidable (Same p q) := inferInstanceAs (Decidable (_ = _))

def isAbsolute (path : Path) : Bool := path.text.toList.head? == some '/'

/-- An absolute path replaces what stands before it, other paths follow it after a slash. -/
def join (base path : Path) : Path :=
  if path.isAbsolute then path
  else if base.text = "" ∨ base.text.toList.getLast? = some '/' then ⟨base.text ++ path.text⟩
  else ⟨base.text ++ "/" ++ path.text⟩

def fileName (path : Path) : Option String :=
  match path.components.getLast? with
  | some (.name text) => some text
  | _ => none

/-- What follows the last dot of the file name. A dot at its start does not count. -/
def extension (path : Path) : Option String := do
  let reversed := (← path.fileName).toList.reverse
  let before := (reversed.dropWhile (· ≠ '.')).drop 1
  if before.isEmpty then none
  else some (String.ofList (reversed.takeWhile (· ≠ '.')).reverse)

/-- A piece which leads nowhere. -/
def isFiller (piece : List Char) : Bool := (component? piece).isNone

def dropFillers (pieces : List (List Char)) : List (List Char) :=
  (pieces.reverse.dropWhile isFiller).reverse

/-- The path without its last component, as it was written. -/
def parent (path : Path) : Option Path :=
  let (start, body) : List Char × List (List Char) :=
    match pieces path.text.toList with
    | [] :: first :: rest => (['/'], first :: rest)
    | ['.'] :: [] => (['.'], [])
    | ['.'] :: rest => (['.'], [] :: rest)
    | all => ([], all)
  match dropFillers body with
  | [] => if start = ['.'] then some ⟨""⟩ else none
  | kept => some ⟨String.ofList (start ++ ['/'].intercalate (dropFillers kept.dropLast))⟩

theorem pieces_ne_nil (text : List Char) : pieces text ≠ [] := by
  induction text with
  | nil => simp [pieces]
  | cons c rest ih =>
    rw [pieces]
    split
    · simp
    · split <;> simp

@[simp] theorem Same.refl (p : Path) : Same p p := rfl

theorem Same.symm {p q : Path} (h : Same p q) : Same q p := Eq.symm h

theorem Same.trans {p q r : Path} (h : Same p q) (k : Same q r) : Same p r := Eq.trans h k

theorem join_of_isAbsolute {base path : Path} (h : path.isAbsolute) : base.join path = path := by
  simp [join, h]

end Path

end AssetPack

import AssetPack.Proofs.Files.Writing

/-! Where paths lead: to the place which their components name, if they lead anywhere. -/

namespace AssetPack.FileTree
open Folder

/-- Where a component leads from a place, when there is a way. -/
def descend (place : Place) : Component → Place
  | .root => []
  | .here => place
  | .up => place.dropLast
  | .name name => place ++ [name]

/-- No piece of a path is the root, or the dot at the start. -/
theorem component?_cases (piece : List Char) : Path.component? piece = none ∨
    Path.component? piece = some .up ∨ ∃ name, Path.component? piece = some (.name name) := by
  unfold Path.component?
  split <;> simp

/-- A step of a path leads to where its component does. -/
theorem advance_place {root : Folder} {place target : Place} {piece : List Char}
    (h : advance root place piece = .ok target) :
    target = ((Path.component? piece).map (descend place)).getD place := by
  rw [advance] at h
  rcases component?_cases piece with step | step | ⟨name, step⟩
  · rw [step] at h ⊢
    split at h <;> cases h <;> rfl
  · rw [step] at h ⊢
    split at h <;> cases h <;> rfl
  · rw [step] at h ⊢
    simp only at h
    split at h
    · split at h
      · cases h
      · split at h
        · cases h
          rfl
        · cases h
    · cases h
    · cases h

theorem follow_place {root : Folder} {place target : Place} {pieces : List (List Char)}
    (h : follow root place pieces = .ok target) :
    target = (pieces.filterMap Path.component?).foldl descend place := by
  induction pieces generalizing place with
  | nil =>
    cases h
    rfl
  | cons piece pieces ih =>
    rw [follow_cons] at h
    cases way : advance root place piece with
    | error reason =>
      rw [way] at h
      cases h
    | ok next =>
      rw [way] at h
      rw [ih h, advance_place way]
      cases step : Path.component? piece <;> simp [step]

/-- The components of a path are those of its pieces, from where the path starts. -/
theorem place_eq (tree : FileTree) (path : Path) : tree.place path =
    ((Path.pieces path.text.toList).filterMap Path.component?).foldl descend
      (tree.start path) := by
  change path.components.foldl descend tree.current = _
  rw [Path.components, start, Path.isAbsolute]
  cases path.text.toList with
  | nil => rfl
  | cons c rest =>
    obtain ⟨piece, more, pieces⟩ := List.exists_cons_of_ne_nil (Path.pieces_ne_nil rest)
    by_cases slash : c = '/'
    · subst slash
      rw [Path.pieces, if_pos rfl, pieces]
      rfl
    · have relative : ((c :: rest).head? == some '/') = false := by simpa using slash
      rw [relative, Path.pieces, if_neg slash, pieces]
      dsimp only
      split
      · rename_i same
        cases same
      · rename_i same
        cases same
      · rename_i same
        rw [same]
        rfl
      · rfl

theorem place_congr {tree other : FileTree} (current : tree.current = other.current) (path : Path) :
    tree.place path = other.place path := by
  rw [place, place, current]

@[simp] theorem place_withFile (tree : FileTree) (place : Place) (bytes : Bytes) (path : Path) :
    (tree.withFile place bytes).place path = tree.place path := rfl

theorem find_eq_ok {tree : FileTree} {path : Path} {node : Node} :
    tree.find path = .ok node ↔ check path = .ok () ∧
      follow tree.root (tree.start path) (Path.pieces path.text.toList) =
        .ok (tree.place path) ∧ tree.root.node? (tree.place path) = some node := by
  simp only [find, Bind.bind, Except.bind]
  constructor
  · intro h
    split at h
    · cases h
    rename_i checked
    split at h
    · cases h
    rename_i target way
    have same : target = tree.place path := (follow_place way).trans (place_eq tree path).symm
    subst same
    split at h
    · rename_i entry found
      cases h
      exact ⟨checked, way, found⟩
    · cases h
  · rintro ⟨checked, way, found⟩
    rw [checked]
    simp only [way, found]

/-- A path which can be opened leads to the name in its folder. -/
theorem Opens.place {tree : FileTree} {path : Path} {dir : Place} {name : String}
    {inner : Folder} (opens : Opens tree path dir name inner) :
    dir ++ [name] = tree.place path := by
  obtain ⟨front, last, pieces, named, way⟩ := opens.pieces
  rw [place_eq, pieces, List.filterMap_append, List.foldl_append, ← follow_place way]
  simp [named, descend]

end AssetPack.FileTree

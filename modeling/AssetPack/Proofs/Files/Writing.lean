import AssetPack.Files.Tree
import AssetPack.Proofs.Files.Putting

/-! Writing files: what is written through a path is read back through it. -/

namespace AssetPack.FileTree
open Folder

/-- Where one piece of a path leads from a place. -/
def advance (root : Folder) (place : Place) (piece : List Char) : Except IoError Place :=
  match root.node? place with
  | some (.folder inner) =>
    match Path.component? piece with
    | some (.name name) =>
      if nameLimit < name.utf8ByteSize then .error .nameTooLong
      else if (inner.get? name).isSome then .ok (place ++ [name])
      else .error .notFound
    | some .up => .ok place.dropLast
    | _ => .ok place
  | some (.leaf (.sealed reason)) =>
    match Path.component? piece with
    | some (.name _) => .error reason
    | some .up => .ok place.dropLast
    | _ => .ok place
  | _ => .error .notADirectory

theorem follow_cons (root : Folder) (place : Place) (piece : List Char)
    (more : List (List Char)) : follow root place (piece :: more) =
      (advance root place piece).bind fun next => follow root next more := by
  rw [follow, advance]
  cases root.node? place with
  | none => rfl
  | some node =>
    cases node with
    | folder inner =>
      cases Path.component? piece with
      | none => rfl
      | some step =>
        cases step with
        | name name =>
          dsimp only
          by_cases long : nameLimit < name.utf8ByteSize
          · rw [if_pos long, if_pos long]
            rfl
          · rw [if_neg long, if_neg long]
            cases inner.get? name <;> rfl
        | root | here | up => rfl
    | leaf content =>
      cases content with
      | sealed reason =>
        cases Path.component? piece with
        | none => rfl
        | some step => cases step <;> rfl
      | file | full => rfl

theorem follow_append (root : Folder) (place : Place) (pieces more : List (List Char)) :
    follow root place (pieces ++ more) =
      (follow root place pieces).bind fun next => follow root next more := by
  induction pieces generalizing place with
  | nil => rfl
  | cons piece pieces ih =>
    rw [List.cons_append, follow_cons, follow_cons]
    cases advance root place piece with
    | error reason => rfl
    | ok next => exact ih next

theorem advance_extends {root other : Folder} (more : Extends root other) {place target : Place}
    {piece : List Char} (h : advance root place piece = .ok target) :
    advance other place piece = .ok target := by
  rw [advance] at h ⊢
  split at h
  · rename_i inner found
    obtain ⟨_, found', inner', rfl⟩ := more place _ found
    rw [found']
    revert h
    cases Path.component? piece with
    | none => exact id
    | some step =>
      cases step with
      | root | here | up => exact id
      | name name =>
        have known : (inner.get? name).isSome → (inner'.get? name).isSome := by
          intro entry
          obtain ⟨node, entry⟩ := Option.isSome_iff_exists.1 entry
          have there : root.node? (place ++ [name]) = some node := by
            rw [node?_append found, node?_singleton, entry]
          obtain ⟨next, there, -⟩ := more _ node there
          rw [node?_append found', node?_singleton] at there
          exact Option.isSome_iff_exists.2 ⟨next, there⟩
        intro h
        dsimp only at h ⊢
        split at h
        · cases h
        · rename_i short
          rw [if_neg short]
          split at h
          · rename_i entry
            rw [if_pos (known entry)]
            exact h
          · cases h
  · rename_i reason found
    obtain ⟨_, found', rfl⟩ := more place _ found
    rw [found']
    exact h
  · cases h

/-- A way which can be followed is followed in the same way in a folder with more in it. -/
theorem follow_extends {root other : Folder} (more : Extends root other) {place target : Place}
    {pieces : List (List Char)} (h : follow root place pieces = .ok target) :
    follow other place pieces = .ok target := by
  induction pieces generalizing place with
  | nil => exact h
  | cons piece pieces ih =>
    rw [follow_cons] at h ⊢
    cases way : advance root place piece with
    | error reason =>
      rw [way] at h
      cases h
    | ok next =>
      rw [way] at h
      rw [advance_extends more way]
      exact ih h

/-- A slash at the end only leads on from folders. -/
theorem advance_slash {root : Folder} {place target : Place}
    (h : advance root place [] = .ok target) : place = target ∧
      ((∃ inner, root.node? place = some (.folder inner)) ∨
        ∃ reason, root.node? place = some (.leaf (.sealed reason))) := by
  rw [advance] at h
  split at h
  · rename_i inner found
    cases h
    exact ⟨rfl, .inl ⟨inner, found⟩⟩
  · rename_i reason found
    cases h
    exact ⟨rfl, .inr ⟨reason, found⟩⟩
  · cases h

theorem follow_slash {root : Folder} {place dir : Place} {front : List (List Char)}
    (h : follow root place (front ++ [[]]) = .ok dir) : follow root place front = .ok dir ∧
      ((∃ inner, root.node? dir = some (.folder inner)) ∨
        ∃ reason, root.node? dir = some (.leaf (.sealed reason))) := by
  rw [follow_append] at h
  cases way : follow root place front with
  | error reason =>
    rw [way] at h
    cases h
  | ok target =>
    rw [way] at h
    change follow root target [[]] = .ok dir at h
    rw [follow_cons] at h
    cases slash : advance root target [] with
    | error reason =>
      rw [slash] at h
      cases h
    | ok next =>
      rw [slash] at h
      cases h
      obtain ⟨rfl, leads⟩ := advance_slash slash
      exact ⟨rfl, leads⟩

/-- Where a path leads which can be opened for writing: to a name in a folder. -/
structure Opens (tree : FileTree) (path : Path) (dir : Place) (name : String) (inner : Folder) :
    Prop where
  checked : check path = .ok ()
  pieces : ∃ front last, Path.pieces path.text.toList = front ++ [last] ∧
    Path.component? last = some (.name name) ∧
    follow tree.root (tree.start path) front = .ok dir
  short : ¬ nameLimit < name.utf8ByteSize
  found : tree.root.node? dir = some (.folder inner)

/-- The name of a file, or of nothing yet. -/
def Replaceable (inner : Folder) (name : String) : Prop :=
  inner.get? name = none ∨ ∃ bytes, inner.get? name = some (.leaf (.file bytes))

theorem trim_eq_self {pieces : List (List Char)}
    (whole : ¬ (pieces.reverse.dropWhile List.isEmpty).reverse.length < pieces.length) :
    (pieces.reverse.dropWhile List.isEmpty).reverse = pieces := by
  have part : (pieces.reverse.dropWhile List.isEmpty).Sublist pieces.reverse :=
    List.dropWhile_sublist _
  have same : pieces.reverse.dropWhile List.isEmpty = pieces.reverse := by
    apply part.eq_of_length
    have less := part.length_le
    rw [List.length_reverse] at whole less ⊢
    omega
  rw [same, List.reverse_reverse]

theorem create_eq_ok {tree next : FileTree} {path : Path} {sink : Sink}
    (h : tree.create path = .ok (next, sink)) : ∃ dir name inner, Opens tree path dir name inner ∧
      ((inner.get? name = some (.leaf .full) ∧ next = tree ∧ sink = .full) ∨
        (Replaceable inner name ∧
          next = { tree with root := tree.root.put (.leaf (.file [])) (dir ++ [name]) } ∧
          sink = .file (dir ++ [name]))) := by
  simp only [create, Bind.bind, Except.bind] at h
  split at h
  · cases h
  rename_i checked
  split at h
  · cases h
  rename_i last getLast
  split at h
  · cases h
  rename_i dir followed
  split at h
  · rename_i name named
    split at h
    · cases h
    rename_i whole
    split at h
    · cases h
    rename_i short
    obtain ⟨way, target⟩ := follow_slash followed
    rw [trim_eq_self whole] at getLast way
    obtain ⟨front, pieces⟩ := List.getLast?_eq_some_iff.1 getLast
    rw [pieces, List.dropLast_concat] at way
    rcases target with ⟨inner, found⟩ | ⟨reason, found⟩
    · refine ⟨dir, name, inner, ⟨checked, ⟨front, last, pieces, named, way⟩, short, found⟩, ?_⟩
      rw [node?_append found, node?_singleton] at h
      split at h
      · rename_i full
        cases h
        exact .inl ⟨full, rfl, rfl⟩
      · cases h
      · cases h
      · rename_i bytes entry
        rw [found] at h
        cases h
        exact .inr ⟨.inr ⟨bytes, entry⟩, rfl, rfl⟩
      · rename_i entry
        rw [found] at h
        cases h
        exact .inr ⟨.inl entry, rfl, rfl⟩
    · rw [node?_below_leaf found, found] at h
      cases h
  · cases h

/-- The path still leads to its name after the folders were extended. -/
theorem Opens.find {tree : FileTree} {path : Path} {dir : Place} {name : String} {inner : Folder}
    (opens : Opens tree path dir name inner) {root : Folder} (more : Extends tree.root root)
    {node : Node} (entry : root.node? (dir ++ [name]) = some node) :
    FileTree.find { tree with root := root } path = .ok node := by
  obtain ⟨front, last, pieces, named, way⟩ := opens.pieces
  obtain ⟨_, found, inner', rfl⟩ := more dir _ opens.found
  have there : inner'.get? name = some node := by
    rw [← node?_singleton, ← node?_append found, entry]
  have target : follow root (tree.start path) (front ++ [last]) = .ok (dir ++ [name]) := by
    rw [follow_append, follow_extends more way]
    change follow root dir [last] = _
    rw [follow, found]
    simp only [named]
    rw [if_neg opens.short, there]
    rfl
  have same : ({ tree with root := root } : FileTree).start path = tree.start path := rfl
  simp only [FileTree.find, opens.checked, Bind.bind, Except.bind, pieces, same, target, entry]

/-- A path through which a device is opened leads to the device. -/
theorem Opens.find_full {tree : FileTree} {path : Path} {dir : Place} {name : String}
    {inner : Folder} (opens : Opens tree path dir name inner)
    (full : inner.get? name = some (.leaf .full)) : tree.find path = .ok (.leaf .full) := by
  have entry : tree.root.node? (dir ++ [name]) = some (.leaf .full) := by
    rw [node?_append opens.found, node?_singleton, full]
  exact opens.find (.refl tree.root) entry

/-- The tree with the contents of a file in the place of whatever is there. -/
def withFile (tree : FileTree) (place : Place) (bytes : Bytes) : FileTree :=
  { tree with root := tree.root.put (.leaf (.file bytes)) place }

theorem append_withFile {tree : FileTree} {dir : Place} {inner : Folder}
    (found : tree.root.node? dir = some (.folder inner)) (name : String) (before bytes : Bytes) :
    (tree.withFile (dir ++ [name]) before).append bytes (.file (dir ++ [name])) =
      .ok (tree.withFile (dir ++ [name]) (before ++ bytes)) := by
  simp only [append, withFile, node?_put _ _ found, put_put _ _ _ found]

theorem Opens.extends_withFile {tree : FileTree} {path : Path} {dir : Place} {name : String}
    {inner : Folder} (opens : Opens tree path dir name inner) (old : Replaceable inner name)
    (bytes : Bytes) : Extends tree.root (tree.withFile (dir ++ [name]) bytes).root := by
  apply extends_put _ name opens.found
  · intro folder same
    rcases old with missing | ⟨before, file⟩
    · exact absurd (missing.symm.trans same) (by simp)
    · exact absurd (file.symm.trans same) (by simp)
  · intro reason same
    rcases old with missing | ⟨before, file⟩
    · exact absurd (missing.symm.trans same) (by simp)
    · exact absurd (file.symm.trans same) (by simp)

/-- What is written depends only on the file which is opened: a device accepts no bytes, and any
bytes come to stand alone in other files. -/
theorem write_eq_ok {tree emptied : FileTree} {path : Path} {sink : Sink}
    (h : tree.create path = .ok (emptied, sink)) : ∃ dir name inner,
      Opens tree path dir name inner ∧
        ((inner.get? name = some (.leaf .full) ∧ sink = .full ∧ tree = emptied) ∨
          (Replaceable inner name ∧ sink = .file (dir ++ [name]) ∧
            ∀ bytes, tree.write path bytes = .ok (tree.withFile (dir ++ [name]) bytes))) := by
  obtain ⟨dir, name, inner, opens, ⟨full, rfl, rfl⟩ | ⟨old, rfl, rfl⟩⟩ := create_eq_ok h
  · exact ⟨dir, name, inner, opens, .inl ⟨full, rfl, rfl⟩⟩
  · refine ⟨dir, name, inner, opens, .inr ⟨old, rfl, fun bytes => ?_⟩⟩
    rw [write, h]
    exact append_withFile opens.found name [] bytes

theorem write_eq_append {tree emptied : FileTree} {path : Path} {sink : Sink}
    (h : tree.create path = .ok (emptied, sink)) (bytes : Bytes) :
    tree.write path bytes = emptied.append bytes sink := by
  rw [write, h]
  rfl

theorem write_nil {tree emptied : FileTree} {path : Path} {sink : Sink}
    (h : tree.create path = .ok (emptied, sink)) : tree.write path [] = .ok emptied := by
  obtain ⟨dir, name, inner, opens, ⟨full, rfl, rfl⟩ | ⟨old, rfl, rfl⟩⟩ := create_eq_ok h
  · rw [write_eq_append h]
    rfl
  · rw [write_eq_append h]
    exact append_withFile opens.found name [] []

/-- Bytes which are written in two steps are written as a whole. -/
theorem write_append {tree emptied middle next : FileTree} {path : Path} {sink : Sink}
    {bytes more : Bytes} (h : tree.create path = .ok (emptied, sink))
    (first : tree.write path bytes = .ok middle) (second : middle.append more sink = .ok next) :
    tree.write path (bytes ++ more) = .ok next := by
  obtain ⟨dir, name, inner, opens, ⟨full, rfl, rfl⟩ | ⟨old, rfl, written⟩⟩ := write_eq_ok h
  · rw [write_eq_append h, append] at first ⊢
    rw [append] at second
    split at first
    · rename_i none
      cases first
      rw [none, List.nil_append]
      exact second
    · cases first
  · rw [written] at first ⊢
    cases first
    rw [append_withFile opens.found] at second
    exact second

theorem read_write {tree next : FileTree} {path : Path} {bytes : Bytes}
    (h : tree.write path bytes = .ok next) : next.read path = .ok bytes := by
  cases opened : tree.create path with
  | error reason =>
    rw [write, opened] at h
    cases h
  | ok file =>
    obtain ⟨emptied, sink⟩ := file
    obtain ⟨dir, name, inner, opens, ⟨full, rfl, rfl⟩ | ⟨old, rfl, written⟩⟩ := write_eq_ok opened
    · rw [write_eq_append opened, append] at h
      split at h
      · rename_i none
        cases h
        simp only [read, opens.find_full full, Bind.bind, Except.bind, none]
      · cases h
    · rw [written] at h
      cases h
      have found := opens.find (opens.extends_withFile old bytes) (node?_put _ name opens.found)
      change FileTree.find (tree.withFile (dir ++ [name]) bytes) path = _ at found
      simp only [read, found, Bind.bind, Except.bind]

/-- The contents of a regular file are what is read from it. -/
theorem contents?_of_read {tree : FileTree} {path : Path} {bytes : Bytes}
    (read : tree.read path = .ok bytes) (regular : (tree.contents? path).isSome) :
    tree.contents? path = some bytes := by
  rw [contents?] at regular ⊢
  rw [FileTree.read] at read
  split at regular
  · rename_i content found
    rw [found] at read
    cases read
    rfl
  · cases regular

end AssetPack.FileTree

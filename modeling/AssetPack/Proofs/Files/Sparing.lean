import AssetPack.Proofs.Files.Leading

/-! What writing one file spares: whatever is found at other places. -/

namespace AssetPack

namespace Folder

/-- What is found at one place in two folders: nothing, the same leaf, or a folder each. -/
inductive Kin : Option Node → Option Node → Prop where
  | none : Kin none none
  | leaf (content : Leaf) : Kin (some (.leaf content)) (some (.leaf content))
  | folder (inner other : Folder) : Kin (some (.folder inner)) (some (.folder other))

theorem Kin.refl (node : Option Node) : Kin node node := by
  cases node with
  | none => exact .none
  | some node =>
    cases node with
    | leaf content => exact .leaf content
    | folder inner => exact .folder inner inner

theorem Kin.symm {a b : Option Node} (kin : Kin a b) : Kin b a := by
  cases kin with
  | none => exact .none
  | leaf content => exact .leaf content
  | folder inner other => exact .folder other inner

theorem Kin.trans {a b c : Option Node} (first : Kin a b) (second : Kin b c) : Kin a c := by
  cases first with
  | none => exact second
  | leaf content => exact second
  | folder inner middle =>
    cases second with
    | folder _ other => exact .folder inner other

theorem Kin.isSome_eq {a b : Option Node} (kin : Kin a b) : a.isSome = b.isSome := by
  cases kin <;> rfl

theorem Kin.none_iff {a b : Option Node} (kin : Kin a b) : a = .none ↔ b = .none := by
  cases kin <;> simp

theorem Kin.leaf_iff {a b : Option Node} (kin : Kin a b) (content : Leaf) :
    a = some (.leaf content) ↔ b = some (.leaf content) := by
  cases kin <;> simp

/-- Whether paths lead on from the node, be it only up from it. -/
def IsPassage : Option Node → Prop
  | some (.folder _) => True
  | some (.leaf (.sealed _)) => True
  | _ => False

theorem Kin.isPassage_iff {a b : Option Node} (kin : Kin a b) : IsPassage a ↔ IsPassage b := by
  cases kin <;> simp [IsPassage]

/-- Folders which differ at most in what is found at one place, from which no path leads on. -/
structure Spares (place : Place) (here other : Folder) : Prop where
  kin : ∀ q, q ≠ place → Kin (here.node? q) (other.node? q)
  closed : ¬ IsPassage (here.node? place)
  closed' : ¬ IsPassage (other.node? place)

theorem Spares.symm {place : Place} {here other : Folder} (spares : Spares place here other) :
    Spares place other here :=
  ⟨fun q ne => (spares.kin q ne).symm, spares.closed', spares.closed⟩

/-- Nothing is below the name of a file, or of nothing. -/
theorem node?_below_get? {here : Folder} {name : String}
    (noFolder : ∀ inner, here.get? name ≠ some (.folder inner)) {more : Place} (ne : more ≠ []) :
    here.node? (name :: more) = none := by
  rw [node?]
  split
  · rename_i inner found
    exact absurd found (noFolder inner)
  · simp [ne]
  · rfl

theorem node?_cons_congr {here other : Folder} {name : String}
    (same : here.get? name = other.get? name) (more : Place) :
    here.node? (name :: more) = other.node? (name :: more) := by
  rw [node?, node?, same]

/-- A file which is put in the place of nothing, or of another file. -/
theorem kin_put {dir : Place} {here inner : Folder} {name : String}
    (found : here.node? dir = some (.folder inner))
    (noFolder : ∀ old, inner.get? name ≠ some (.folder old)) (content : Leaf) {q : Place}
    (ne : q ≠ dir ++ [name]) :
    Kin (here.node? q) ((put (.leaf content) (dir ++ [name]) here).node? q) := by
  induction dir generalizing here q with
  | nil =>
    cases found
    cases q with
    | nil => exact .folder inner _
    | cons other more =>
      by_cases same : other = name
      · subst same
        have below : more ≠ [] := fun none => ne (by rw [none]; rfl)
        have put : ∀ old, (put (.leaf content) [other] inner).get? other ≠ some (.folder old) := by
          intro old
          rw [get?_put_self]
          simp
        rw [node?_below_get? noFolder below, List.nil_append, node?_below_get? put below]
        exact .none
      · rw [node?_cons_congr (get?_put_other same (.leaf content) inner).symm more]
        exact .refl _
  | cons next dir ih =>
    obtain ⟨middle, here_eq, middle_eq⟩ := node?_eq_folder.1 found
    rw [List.cons_append, put_below here_eq _ (by simp)]
    cases q with
    | nil => exact .folder here _
    | cons other more =>
      by_cases same : other = next
      · subst same
        rw [node?, here_eq, node?, get?_put_self]
        exact ih middle_eq fun below => ne (by rw [below]; rfl)
      · rw [node?_cons_congr (get?_put_other same _ here).symm more]
        exact .refl _

end Folder

namespace FileTree
open Folder

theorem advance_from {root : Folder} {place target : Place} {piece : List Char}
    (h : advance root place piece = .ok target) : IsPassage (root.node? place) := by
  rw [advance] at h
  split at h
  · rename_i found
    rw [found]
    trivial
  · rename_i found
    rw [found]
    trivial
  · cases h

theorem follow_from {root : Folder} {place target : Place} {pieces : List (List Char)}
    (h : follow root place pieces = .ok target) (some : pieces ≠ []) :
    IsPassage (root.node? place) := by
  cases pieces with
  | nil => exact absurd rfl some
  | cons piece pieces =>
    rw [follow_cons] at h
    cases way : advance root place piece with
    | error reason =>
      rw [way] at h
      cases h
    | ok next => exact advance_from way

section spares
variable {place : Place} {here other : Folder}

theorem advance_spares (spares : Spares place here other) {q target : Place} {piece : List Char}
    (h : advance here q piece = .ok target) (ne : target ≠ place) :
    advance other q piece = .ok target := by
  have start : q ≠ place := by
    rintro rfl
    exact spares.closed (advance_from h)
  have kin := spares.kin q start
  rw [advance] at h ⊢
  generalize at_here : here.node? q = a at h kin
  generalize at_other : other.node? q = b at kin ⊢
  cases kin with
  | none => cases h
  | leaf content => exact h
  | folder inner inner' =>
    cases step : Path.component? piece with
    | none =>
      rw [step] at h
      exact h
    | some step' =>
      rw [step] at h
      cases step' with
      | root | here | up => exact h
      | name name =>
        simp only at h ⊢
        split at h
        · cases h
        · rename_i short
          rw [if_neg short]
          split at h
          · rename_i entry
            cases h
            have next := (spares.kin (q ++ [name]) ne).isSome_eq
            rw [node?_append at_here, node?_append at_other, node?_singleton,
              node?_singleton] at next
            rw [if_pos (next.symm.trans entry)]
          · cases h

/-- No way leads through the place, so that ways to other places stay. -/
theorem follow_spares (spares : Spares place here other) {q target : Place}
    {pieces : List (List Char)} (h : follow here q pieces = .ok target) (ne : target ≠ place) :
    follow other q pieces = .ok target := by
  induction pieces generalizing q with
  | nil => exact h
  | cons piece pieces ih =>
    rw [follow_cons] at h ⊢
    cases way : advance here q piece with
    | error reason =>
      rw [way] at h
      cases h
    | ok next =>
      rw [way] at h
      have apart : next ≠ place := by
        rintro rfl
        by_cases last : pieces = []
        · subst last
          cases h
          exact ne rfl
        · exact spares.closed (follow_from h last)
      rw [advance_spares spares way apart]
      exact ih h

end spares

/-- File trees which differ at most in what is found at one place. -/
structure Spares (place : Place) (tree other : FileTree) : Prop where
  current : tree.current = other.current
  root : tree.root.Spares place other.root

namespace Spares
variable {place : Place} {tree other : FileTree} {path : Path}

theorem symm (spares : Spares place tree other) : Spares place other tree :=
  ⟨spares.current.symm, spares.root.symm⟩

theorem start_eq (spares : Spares place tree other) (path : Path) :
    tree.start path = other.start path := by
  rw [start, start, spares.current]

theorem place_eq (spares : Spares place tree other) (path : Path) :
    tree.place path = other.place path := place_congr spares.current path

/-- Paths to other places lead to the same there. -/
theorem find_eq_ok (spares : Spares place tree other) (ne : tree.place path ≠ place) {node : Node}
    (h : tree.find path = .ok node) : ∃ next, other.find path = .ok next ∧
      Kin (some node) (some next) := by
  obtain ⟨checked, way, found⟩ := FileTree.find_eq_ok.1 h
  have kin := spares.root.kin _ ne
  rw [found] at kin
  have there : (other.root.node? (tree.place path)).isSome := kin.isSome_eq.symm.trans rfl
  obtain ⟨next, found'⟩ := Option.isSome_iff_exists.1 there
  refine ⟨next, FileTree.find_eq_ok.2 ⟨checked, ?_, ?_⟩, found' ▸ kin⟩
  · rw [← spares.start_eq, ← spares.place_eq]
    exact follow_spares spares.root way ne
  · rw [← spares.place_eq, found']

theorem kin_find (spares : Spares place tree other) (ne : tree.place path ≠ place) :
    Kin (tree.find path).toOption (other.find path).toOption := by
  cases h : tree.find path with
  | ok node =>
    obtain ⟨next, found, kin⟩ := spares.find_eq_ok ne h
    rw [found]
    exact kin
  | error reason =>
    cases h' : other.find path with
    | error reason' => exact .none
    | ok next =>
      rw [spares.place_eq] at ne
      obtain ⟨node, found, -⟩ := spares.symm.find_eq_ok ne h'
      rw [h] at found
      cases found

theorem isPresent_eq (spares : Spares place tree other) (ne : tree.place path ≠ place) :
    tree.isPresent path = other.isPresent path := by
  have same := (spares.kin_find ne).isSome_eq
  rw [isPresent, isPresent]
  cases h : tree.find path <;> cases h' : other.find path <;> rw [h, h'] at same <;>
    first | rfl | cases same

theorem find_leaf (spares : Spares place tree other) (ne : tree.place path ≠ place)
    {content : Leaf} (h : tree.find path = .ok (.leaf content)) :
    other.find path = .ok (.leaf content) := by
  obtain ⟨next, found, kin⟩ := spares.find_eq_ok ne h
  rw [found, Option.some.inj ((kin.leaf_iff content).1 rfl)]

theorem contents?_eq_some (spares : Spares place tree other) (ne : tree.place path ≠ place)
    {bytes : Bytes} (h : tree.contents? path = some bytes) : other.contents? path = some bytes := by
  rw [contents?] at h ⊢
  split at h
  · rename_i content found
    cases h
    rw [spares.find_leaf ne found]
  · cases h

theorem contents?_eq (spares : Spares place tree other) (ne : tree.place path ≠ place) :
    tree.contents? path = other.contents? path := by
  apply Option.ext
  intro bytes
  constructor
  · exact spares.contents?_eq_some ne
  · rw [spares.place_eq] at ne
    exact spares.symm.contents?_eq_some ne

/-- What is read at another place is read again. -/
theorem read_eq_ok (spares : Spares place tree other) (ne : tree.place path ≠ place)
    {bytes : Bytes} (h : tree.read path = .ok bytes) : other.read path = .ok bytes := by
  rw [read] at h ⊢
  cases found : tree.find path with
  | error reason =>
    rw [found] at h
    cases h
  | ok node =>
    rw [found] at h
    cases node with
    | folder inner => cases h
    | leaf content =>
      rw [spares.find_leaf ne found]
      exact h

/-- What is read although nothing is found at the place is read again. -/
theorem read_of_absent (spares : Spares place tree other) (absent : tree.root.node? place = none)
    {bytes : Bytes} (h : tree.read path = .ok bytes) : other.read path = .ok bytes := by
  refine spares.read_eq_ok ?_ h
  intro same
  rw [read] at h
  cases found : tree.find path with
  | error reason =>
    rw [found] at h
    cases h
  | ok node =>
    have there := (FileTree.find_eq_ok.1 found).2.2
    rw [same, absent] at there
    cases there

theorem isFolder_eq (spares : Spares place tree other) (ne : tree.place path ≠ place) :
    tree.isFolder path = other.isFolder path := by
  have kin := spares.kin_find ne
  rw [isFolder, isFolder]
  generalize tree.find path = a at kin
  generalize other.find path = b at kin
  cases a <;> cases b <;> cases kin <;> rfl

theorem opens (spares : Spares place tree other) {dir : Place} {name : String} {inner : Folder}
    (opens : Opens tree path dir name inner) (ne : tree.place path ≠ place) :
    ∃ inner', Opens other path dir name inner' ∧ Kin (inner.get? name) (inner'.get? name) := by
  obtain ⟨front, last, pieces, named, way⟩ := opens.pieces
  have apart : dir ≠ place := by
    rintro rfl
    exact spares.root.closed (by rw [opens.found]; trivial)
  have kin := spares.root.kin dir apart
  rw [opens.found] at kin
  generalize found : other.root.node? dir = node at kin
  cases kin with
  | folder _ inner' =>
    refine ⟨inner', ⟨opens.checked, ⟨front, last, pieces, named, ?_⟩, opens.short, found⟩, ?_⟩
    · rw [← spares.start_eq]
      exact follow_spares spares.root way apart
    · rw [← opens.place] at ne
      have same := spares.root.kin (dir ++ [name]) ne
      rwa [node?_append opens.found, node?_append found, node?_singleton,
        node?_singleton] at same

end Spares

theorem Replaceable.closed {inner : Folder} {name : String} (old : Replaceable inner name) :
    ¬ IsPassage (inner.get? name) := by
  rcases old with missing | ⟨bytes, file⟩
  · rw [missing]
    exact id
  · rw [file]
    exact id

theorem Replaceable.noFolder {inner : Folder} {name : String} (old : Replaceable inner name)
    (folder : Folder) : inner.get? name ≠ some (.folder folder) := by
  intro same
  exact old.closed (by rw [same]; trivial)

theorem Replaceable.of_kin {inner inner' : Folder} {name : String} (old : Replaceable inner name)
    (kin : Kin (inner.get? name) (inner'.get? name)) : Replaceable inner' name := by
  rcases old with missing | ⟨bytes, file⟩
  · exact .inl (kin.none_iff.1 missing)
  · exact .inr ⟨bytes, (kin.leaf_iff _).1 file⟩

section opens
variable {tree : FileTree} {path : Path} {dir : Place} {name : String} {inner : Folder}

theorem Opens.spares (opens : Opens tree path dir name inner) (old : Replaceable inner name)
    (bytes : Bytes) : Spares (dir ++ [name]) tree (tree.withFile (dir ++ [name]) bytes) := by
  refine ⟨rfl, fun q ne => kin_put opens.found old.noFolder _ ne, ?_, ?_⟩
  · rw [node?_append opens.found, node?_singleton]
    exact old.closed
  · rw [withFile, node?_put _ name opens.found]
    exact id

/-- Trees which differ at two places differ at one of them when the same bytes are written to the
other. -/
theorem Opens.spares_both {later : FileTree} {inner' : Folder} {place : Place}
    (opens : Opens tree path dir name inner) (old : Replaceable inner name)
    (opens' : Opens later path dir name inner') (old' : Replaceable inner' name)
    (current : tree.current = later.current) (ne : place ≠ dir ++ [name])
    (kin : ∀ q, q ≠ dir ++ [name] → q ≠ place → Kin (tree.root.node? q) (later.root.node? q))
    (closed : ¬ IsPassage (tree.root.node? place)) (closed' : ¬ IsPassage (later.root.node? place))
    (bytes : Bytes) :
    Spares place (tree.withFile (dir ++ [name]) bytes) (later.withFile (dir ++ [name]) bytes) := by
  have spares := opens.spares old bytes
  have spares' := opens'.spares old' bytes
  refine ⟨current, fun q apart => ?_, fun way => ?_, fun way => ?_⟩
  · by_cases same : q = dir ++ [name]
    · subst same
      rw [withFile, withFile, node?_put _ name opens.found, node?_put _ name opens'.found]
      exact .refl _
    · exact (spares.root.kin q same).symm.trans ((kin q same apart).trans
        (spares'.root.kin q same))
  · exact closed ((spares.root.kin place ne).isPassage_iff.2 way)
  · exact closed' ((spares'.root.kin place ne).isPassage_iff.2 way)

theorem Opens.isPresent_eq (opens : Opens tree path dir name inner) :
    tree.isPresent path = (inner.get? name).isSome := by
  rw [isPresent]
  cases entry : inner.get? name with
  | some node =>
    have there : tree.root.node? (dir ++ [name]) = some node := by
      rw [node?_append opens.found, node?_singleton, entry]
    rw [opens.find (.refl tree.root) there]
    rfl
  | none =>
    cases found : tree.find path with
    | error reason => rfl
    | ok node =>
      have there := (find_eq_ok.1 found).2.2
      rw [← opens.place, node?_append opens.found, node?_singleton, entry] at there
      cases there

theorem Opens.get?_eq_none (opens : Opens tree path dir name inner)
    (absent : tree.isPresent path = false) : inner.get? name = none := by
  rw [opens.isPresent_eq] at absent
  exact Option.not_isSome_iff_eq_none.1 (Bool.eq_false_iff.1 absent)

/-- A file in a folder, or a name which is free there, can be opened for writing. -/
theorem Opens.create_eq (opens : Opens tree path dir name inner) (old : Replaceable inner name) :
    tree.create path = .ok (tree.withFile (dir ++ [name]) [], .file (dir ++ [name])) := by
  obtain ⟨front, last, pieces, named, way⟩ := opens.pieces
  have visible : last.isEmpty = false := by
    cases last with
    | nil => cases named
    | cons c rest => rfl
  have body : ((front ++ [last]).reverse.dropWhile List.isEmpty).reverse = front ++ [last] := by
    simp [visible]
  have slash : follow tree.root (tree.start path) (front ++ [[]]) = .ok dir := by
    rw [follow_append, way]
    change follow tree.root dir [[]] = .ok dir
    simp [follow, opens.found, Path.component?]
  simp only [create, opens.checked, Bind.bind, Except.bind, pieces, body,
    List.getLast?_concat, List.dropLast_concat, slash, named, Nat.lt_irrefl, if_false,
    if_neg opens.short, node?_append opens.found, node?_singleton, opens.found]
  rcases old with missing | ⟨bytes, file⟩
  · rw [missing]
    rfl
  · rw [file]
    rfl

theorem Opens.write_eq (opens : Opens tree path dir name inner) (old : Replaceable inner name)
    (bytes : Bytes) : tree.write path bytes = .ok (tree.withFile (dir ++ [name]) bytes) := by
  rw [write, opens.create_eq old]
  exact append_withFile opens.found name [] bytes

/-- After the file is written, the path leads to it in the same way. -/
theorem Opens.withFile (opens : Opens tree path dir name inner) (old : Replaceable inner name)
    (bytes : Bytes) : ∃ inner', Opens (tree.withFile (dir ++ [name]) bytes) path dir name inner' ∧
      inner'.get? name = some (.leaf (.file bytes)) := by
  have more := opens.extends_withFile old bytes
  obtain ⟨front, last, pieces, named, way⟩ := opens.pieces
  obtain ⟨_, found, inner', rfl⟩ := more dir _ opens.found
  refine ⟨inner', ⟨opens.checked, ⟨front, last, pieces, named, follow_extends more way⟩,
    opens.short, found⟩, ?_⟩
  rw [← node?_singleton, ← node?_append found]
  exact node?_put _ name opens.found

theorem Opens.contents?_withFile (opens : Opens tree path dir name inner)
    (old : Replaceable inner name) (bytes : Bytes) :
    (tree.withFile (dir ++ [name]) bytes).contents? path = some bytes := by
  have found := opens.find (opens.extends_withFile old bytes) (node?_put _ name opens.found)
  change FileTree.find (tree.withFile (dir ++ [name]) bytes) path = _ at found
  rw [contents?, found]

end opens

/-- A file which holds any bytes that are written to it. -/
def Writable (tree : FileTree) (path : Path) : Prop :=
  ∀ bytes, ∃ next, tree.write path bytes = .ok next

/-- Bytes are written into a file, or there are none and a device is opened. -/
theorem exists_opens_of_write {tree next : FileTree} {path : Path} {bytes : Bytes}
    (h : tree.write path bytes = .ok next) : ∃ dir name inner, Opens tree path dir name inner ∧
      (bytes = [] ∧ next = tree ∨
        Replaceable inner name ∧ next = tree.withFile (dir ++ [name]) bytes) := by
  cases opened : tree.create path with
  | error reason =>
    rw [write, opened] at h
    cases h
  | ok file =>
    obtain ⟨emptied, sink⟩ := file
    obtain ⟨dir, name, inner, opens, ⟨-, rfl, rfl⟩ | ⟨old, -, written⟩⟩ := write_eq_ok opened
    · rw [write_eq_append opened, append] at h
      split at h
      · rename_i none
        exact ⟨dir, name, inner, opens, .inl ⟨none, (Except.ok.inj h).symm⟩⟩
      · cases h
    · rw [written bytes] at h
      exact ⟨dir, name, inner, opens, .inr ⟨old, (Except.ok.inj h).symm⟩⟩

theorem opens_of_write {tree next : FileTree} {path : Path} {bytes : Bytes} (some : bytes ≠ [])
    (h : tree.write path bytes = .ok next) : ∃ dir name inner, Opens tree path dir name inner ∧
      Replaceable inner name ∧ next = tree.withFile (dir ++ [name]) bytes := by
  obtain ⟨dir, name, inner, opens, ⟨none, -⟩ | written⟩ := exists_opens_of_write h
  · exact absurd none some
  · exact ⟨dir, name, inner, opens, written⟩

theorem writable_iff {tree : FileTree} {path : Path} : tree.Writable path ↔
    ∃ dir name inner, Opens tree path dir name inner ∧ Replaceable inner name := by
  constructor
  · intro writable
    obtain ⟨next, written⟩ := writable [0]
    obtain ⟨dir, name, inner, opens, old, -⟩ := opens_of_write (List.cons_ne_nil _ _) written
    exact ⟨dir, name, inner, opens, old⟩
  · rintro ⟨dir, name, inner, opens, old⟩ bytes
    exact ⟨_, opens.write_eq old bytes⟩

/-- Whether a regular file is opened. -/
def opensFile (tree : FileTree) (path : Path) : Bool :=
  match tree.create path with
  | .ok (_, .file _) => true
  | _ => false

theorem writable_iff_opensFile {tree : FileTree} {path : Path} :
    tree.Writable path ↔ tree.opensFile path = true := by
  rw [writable_iff, opensFile]
  constructor
  · rintro ⟨dir, name, inner, opens, old⟩
    rw [opens.create_eq old]
  · intro regular
    split at regular
    · rename_i emptied place opened
      obtain ⟨dir, name, inner, opens, ⟨-, -, device⟩ | ⟨old, -⟩⟩ := create_eq_ok opened
      · cases device
      · exact ⟨dir, name, inner, opens, old⟩
    · cases regular

instance (tree : FileTree) (path : Path) : Decidable (tree.Writable path) :=
  decidable_of_iff (tree.opensFile path = true) writable_iff_opensFile.symm

theorem Writable.spared {place : Place} {tree other : FileTree} {path : Path}
    (writable : tree.Writable path) (spares : Spares place tree other)
    (ne : tree.place path ≠ place) : other.Writable path := by
  obtain ⟨dir, name, inner, opens, old⟩ := writable_iff.1 writable
  obtain ⟨inner', opens', kin⟩ := spares.opens opens ne
  exact writable_iff.2 ⟨dir, name, inner', opens', old.of_kin kin⟩

theorem Writable.contents?_write {tree next : FileTree} {path : Path} {bytes : Bytes}
    (writable : tree.Writable path) (written : tree.write path bytes = .ok next) :
    next.contents? path = some bytes := by
  obtain ⟨dir, name, inner, opens, old⟩ := writable_iff.1 writable
  rw [opens.write_eq old] at written
  cases written
  exact opens.contents?_withFile old bytes

/-- Writing changes nothing, or nothing but the file which the path leads to. -/
theorem spares_of_write {tree next : FileTree} {path : Path} {bytes : Bytes}
    (h : tree.write path bytes = .ok next) : next = tree ∨ Spares (tree.place path) tree next := by
  obtain ⟨dir, name, inner, opens, ⟨-, same⟩ | ⟨old, rfl⟩⟩ := exists_opens_of_write h
  · exact .inl same
  · rw [← opens.place]
    exact .inr (opens.spares old bytes)

end FileTree

end AssetPack

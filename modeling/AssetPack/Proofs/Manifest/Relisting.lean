import AssetPack.Proofs.Files.Sparing
import AssetPack.Proofs.Manifest.Joining

/-! Listing again what a manifest lists, after a file was written. -/

namespace AssetPack

namespace Folder

theorem entries_cons (name : String) (node : Node) (rest : Folder) :
    (cons name node rest).entries = (name, node) :: rest.entries := by
  cases node <;> rfl

/-- An entry which is put into a folder takes the place of one with its name, or the last place. -/
theorem entries_put (node : Node) (name : String) (here : Folder) :
    (here.get? name = none ∧ (put node [name] here).entries = here.entries ++ [(name, node)]) ∨
      ∃ before old after, here.get? name = some old ∧
        here.entries = before ++ (name, old) :: after ∧
          (put node [name] here).entries = before ++ (name, node) :: after := by
  induction here with
  | empty => exact .inl ⟨rfl, by rw [put, entries_cons]; rfl⟩
  | leaf other content rest ih =>
    by_cases same : name = other
    · subst same
      refine .inr ⟨[], .leaf content, rest.entries, by simp [get?], rfl, ?_⟩
      rw [put, if_pos rfl, entries_cons]
      rfl
    · simp only [put, get?, if_neg same, entries]
      rcases ih with ⟨missing, all⟩ | ⟨before, old, after, found, split, all⟩
      · exact .inl ⟨missing, by rw [all, List.cons_append]⟩
      · exact .inr ⟨(other, .leaf content) :: before, old, after, found,
          by rw [split, List.cons_append], by rw [all, List.cons_append]⟩
  | folder other inner rest _ ih =>
    by_cases same : name = other
    · subst same
      refine .inr ⟨[], .folder inner, rest.entries, by simp [get?], rfl, ?_⟩
      rw [put, if_pos rfl, if_pos rfl, entries_cons]
      rfl
    · simp only [put, get?, if_neg same, entries]
      rcases ih with ⟨missing, all⟩ | ⟨before, old, after, found, split, all⟩
      · exact .inl ⟨missing, by rw [all, List.cons_append]⟩
      · exact .inr ⟨(other, .folder inner) :: before, old, after, found,
          by rw [split, List.cons_append], by rw [all, List.cons_append]⟩

theorem entries_put_over (node : Node) {name : String} {here : Folder} {old : Node}
    (found : here.get? name = some old) : ∃ before after,
      here.entries = before ++ (name, old) :: after ∧
        (put node [name] here).entries = before ++ (name, node) :: after := by
  rcases entries_put node name here with ⟨missing, -⟩ | ⟨before, _, after, there, split, all⟩
  · rw [missing] at found
    cases found
  · cases there.symm.trans found
    exact ⟨before, after, split, all⟩

section put
variable {dir : Place} {here inner : Folder} {name : String}

/-- A folder on the way to what is put changes in the same way. -/
theorem node?_put_above {above : Place} {middle : Folder} (node : Node)
    (start : here.node? above = some (.folder middle)) :
    (put node (above ++ (dir ++ [name])) here).node? above =
      some (.folder (put node (dir ++ [name]) middle)) := by
  induction above generalizing here with
  | nil =>
    cases start
    rfl
  | cons first above ih =>
    obtain ⟨next, here_eq, next_eq⟩ := node?_eq_folder.1 start
    rw [List.cons_append, put_below here_eq node (by simp), node?, get?_put_self]
    exact ih next_eq

/-- A folder aside of the way to what is put stays as it is. -/
theorem node?_put_aside {place : Place} {other : Folder} (node : Node)
    (found : here.node? dir = some (.folder inner))
    (noFolder : ∀ old, inner.get? name ≠ some (.folder old))
    (start : here.node? place = some (.folder other)) (aside : ¬ place <+: dir ++ [name]) :
    (put node (dir ++ [name]) here).node? place = some (.folder other) := by
  induction dir generalizing here place with
  | nil =>
    cases found
    cases place with
    | nil => exact absurd List.nil_prefix aside
    | cons first more =>
      have ne : first ≠ name := by
        rintro rfl
        obtain ⟨middle, here_eq, -⟩ := node?_eq_folder.1 start
        exact noFolder middle here_eq
      rw [List.nil_append, node?_cons_congr (get?_put_other ne node inner) more]
      exact start
  | cons next dir ih =>
    obtain ⟨middle, here_eq, middle_eq⟩ := node?_eq_folder.1 found
    rw [List.cons_append, put_below here_eq node (by simp)]
    cases place with
    | nil => exact absurd List.nil_prefix aside
    | cons first more =>
      by_cases same : first = next
      · subst same
        rw [node?, here_eq] at start
        rw [node?, get?_put_self]
        exact ih middle_eq start fun way => aside (List.cons_prefix_cons.2 ⟨rfl, way⟩)
      · rw [node?_cons_congr (get?_put_other same _ here) more]
        exact start

end put

end Folder

namespace Attempt
variable {ε α β : Type}

/-- A computation which gives a value. -/
def Succeeds (x : Attempt ε α) : Prop := ∃ a, x.run.value = .ok a

theorem succeeds_iff_isOk {x : Attempt ε α} : Succeeds x ↔ x.run.value.isOk = true := by
  rw [Succeeds]
  cases x.run.value with
  | ok a => exact iff_of_true ⟨a, rfl⟩ rfl
  | error e => exact iff_of_false nofun Bool.false_ne_true

theorem succeeds_bind {x : Attempt ε α} {f : α → Attempt ε β} :
    Succeeds (x >>= f) ↔ ∃ a, x.run.value = .ok a ∧ Succeeds (f a) := by
  simp only [Succeeds, value_bind_eq_ok]
  rw [exists_comm]
  simp only [exists_and_left]

theorem succeeds_mapM {items : List α} {f : α → Attempt ε β} :
    Succeeds (items.mapM f) ↔ ∀ item ∈ items, Succeeds (f item) := by
  induction items with
  | nil => exact ⟨fun _ _ mem => absurd mem List.not_mem_nil, fun _ => ⟨[], rfl⟩⟩
  | cons item items ih =>
    rw [List.mapM_cons, succeeds_bind, List.forall_mem_cons, ← ih]
    constructor
    · rintro ⟨b, first, rest⟩
      obtain ⟨bs, others, -⟩ := succeeds_bind.1 rest
      exact ⟨⟨b, first⟩, bs, others⟩
    · rintro ⟨⟨b, first⟩, bs, others⟩
      exact ⟨b, first, succeeds_bind.2 ⟨bs, others, _, rfl⟩⟩

end Attempt

namespace Manifest
open Folder FileTree Attempt

theorem succeeds_file (dir path : Path) : Succeeds (file dir path) := ⟨[path], rfl⟩

theorem succeeds_visit {dir : Path} {found : List (String × Found)} :
    Succeeds (visit dir found) ↔ ∀ entry ∈ found, Succeeds entry.2 := by
  have ordered : Succeeds ((found.mergeSort fun a b => decide (a.1 ≤ b.1)).mapM (·.2)) ↔
      ∀ entry ∈ found, Succeeds entry.2 := by
    simp only [succeeds_mapM, List.mem_mergeSort]
  rw [← ordered, visit]
  split
  · rw [succeeds_bind]
    constructor
    · rintro ⟨_, -, rest⟩
      obtain ⟨files, visited, -⟩ := succeeds_bind.1 rest
      exact ⟨files, visited⟩
    · rintro ⟨files, visited⟩
      exact ⟨⟨⟩, rfl, succeeds_bind.2 ⟨files, visited, _, rfl⟩⟩
  · rw [succeeds_bind]
    constructor
    · rintro ⟨files, visited, -⟩
      exact ⟨files, visited⟩
    · rintro ⟨files, visited⟩
      exact ⟨files, visited, _, rfl⟩

/-- What is found at one entry of a folder. -/
def foundAt (dir : Path) (name : String) : Node → Found
  | .leaf (.sealed reason) =>
    if isTooLong (dir.join ⟨name⟩) then file dir (dir.join ⟨name⟩) else throw reason
  | .leaf _ => file dir (dir.join ⟨name⟩)
  | .folder inner =>
    if isTooLong (dir.join ⟨name⟩) then file dir (dir.join ⟨name⟩)
    else visit (dir.join ⟨name⟩) (below (dir.join ⟨name⟩) inner)

theorem below_eq (dir : Path) (here : Folder) :
    below dir here = here.entries.map fun entry => (entry.1, foundAt dir entry.1 entry.2) := by
  induction here with
  | empty => rfl
  | leaf name content rest ih =>
    cases content with
    | sealed reason =>
      rw [below, entries, List.map_cons, ih]
      rfl
    | file | full =>
      rw [below, entries, List.map_cons, ih]
      · rfl
      · exact nofun
  | folder name inner rest _ ih =>
    rw [below, entries, List.map_cons, ih]
    rfl

section put
variable {place : Place} {here inner : Folder} {name : String} {bytes : Bytes}

/-- Of a file only its name is listed. -/
theorem below_put_same (dir : Path) {old : Bytes}
    (found : here.node? place = some (.folder inner))
    (regular : inner.get? name = some (.leaf (.file old))) :
    below dir (put (.leaf (.file bytes)) (place ++ [name]) here) = below dir here := by
  induction place generalizing here dir with
  | nil =>
    cases found
    rw [List.nil_append]
    obtain ⟨before, after, split, all⟩ := entries_put_over (.leaf (.file bytes)) regular
    rw [below_eq, below_eq, split, all, List.map_append, List.map_append]
    rfl
  | cons next place ih =>
    obtain ⟨middle, here_eq, middle_eq⟩ := node?_eq_folder.1 found
    rw [List.cons_append, put_below here_eq _ (by simp)]
    obtain ⟨before, after, split, all⟩ :=
      entries_put_over (.folder (put (.leaf (.file bytes)) (place ++ [name]) middle)) here_eq
    rw [below_eq, below_eq, split, all, List.map_append, List.map_append, List.map_cons,
      List.map_cons, foundAt, foundAt, ih _ middle_eq]

/-- Nothing that is listed fails because of a file more. -/
theorem succeeds_below_put (dir : Path) (found : here.node? place = some (.folder inner))
    (listed : ∀ entry ∈ below dir here, Succeeds entry.2) :
    ∀ entry ∈ below dir (put (.leaf (.file bytes)) (place ++ [name]) here), Succeeds entry.2 := by
  simp only [below_eq, List.forall_mem_map] at listed ⊢
  induction place generalizing here dir with
  | nil =>
    cases found
    rw [List.nil_append]
    rcases entries_put (.leaf (.file bytes)) name inner with ⟨-, all⟩ |
      ⟨before, node, after, -, split, all⟩
    · rw [all, List.forall_mem_append, List.forall_mem_singleton]
      exact ⟨listed, succeeds_file _ _⟩
    · rw [split, List.forall_mem_append, List.forall_mem_cons] at listed
      rw [all, List.forall_mem_append, List.forall_mem_cons]
      exact ⟨listed.1, succeeds_file _ _, listed.2.2⟩
  | cons next place ih =>
    obtain ⟨middle, here_eq, middle_eq⟩ := node?_eq_folder.1 found
    rw [List.cons_append, put_below here_eq _ (by simp)]
    obtain ⟨before, after, split, all⟩ :=
      entries_put_over (.folder (put (.leaf (.file bytes)) (place ++ [name]) middle)) here_eq
    rw [split, List.forall_mem_append, List.forall_mem_cons] at listed
    rw [all, List.forall_mem_append, List.forall_mem_cons]
    refine ⟨listed.1, ?_, listed.2.2⟩
    have visited := listed.2.1
    dsimp only [foundAt] at visited ⊢
    split
    · exact succeeds_file _ _
    · rename_i short
      rw [if_neg short, succeeds_visit, below_eq, List.forall_mem_map] at visited
      rw [succeeds_visit, below_eq, List.forall_mem_map]
      exact ih _ middle_eq visited

end put

/-- A file at the place changes nothing of what the path lists: there was one before, or the path
leads to no folder above it. -/
def Undisturbed (tree : FileTree) (place : Place) (path : Path) : Prop :=
  (∃ bytes, tree.root.node? place = some (.leaf (.file bytes))) ∨
    (tree.isFolder path → ¬ tree.place path <+: place)

theorem expand_eq_self {tree : FileTree} {path : Path}
    (noFolder : ∀ node, tree.find path = .ok node → ∃ content, node = .leaf content ∧
      ∀ reason, content ≠ .sealed reason) : (expand tree path).run.value = .ok [path] := by
  rw [expand]
  split
  · rename_i found
    obtain ⟨_, same, -⟩ := noFolder _ found
    cases same
  · rename_i reason found
    obtain ⟨_, same, notSealed⟩ := noFolder _ found
    cases same
    exact absurd rfl (notSealed reason)
  · rfl

section expand
variable {tree : FileTree} {target path : Path} {dir : Place} {name : String} {inner : Folder}

theorem expand_at (opens : Opens tree target dir name inner) (old : Replaceable inner name)
    (same : tree.place path = dir ++ [name]) : (expand tree path).run.value = .ok [path] := by
  apply expand_eq_self
  intro node found
  have there := (find_eq_ok.1 found).2.2
  rw [same, node?_append opens.found, node?_singleton] at there
  rcases old with missing | ⟨bytes, regular⟩
  · rw [missing] at there
    cases there
  · rw [regular] at there
    cases there
    exact ⟨_, rfl, nofun⟩

/-- What a path lists which leads to a folder. -/
theorem expand_folder {here : Folder} (found : tree.find path = .ok (.folder here)) :
    expand tree path = visit path (below path here) := by
  rw [expand, found]

theorem isFolder_of_find {here : Folder} (found : tree.find path = .ok (.folder here)) :
    tree.isFolder path = true := by
  rw [isFolder, found]

theorem isFolder_of_sealed {reason : IoError}
    (found : tree.find path = .ok (.leaf (.sealed reason))) : tree.isFolder path = true := by
  rw [isFolder, found]

/-- A path stands for itself unless it leads to a folder, which is looked into if it is not
sealed. -/
theorem expand_cases (tree : FileTree) (path : Path) :
    (tree.isFolder path = false ∧ (expand tree path).run.value = .ok [path]) ∨
      (∃ reason, tree.find path = .ok (.leaf (.sealed reason)) ∧
        (expand tree path).run.value = .error reason) ∨
      ∃ here, tree.find path = .ok (.folder here) := by
  rw [isFolder, expand]
  cases tree.find path with
  | error reason => exact .inl ⟨rfl, rfl⟩
  | ok node =>
    cases node with
    | folder here => exact .inr (.inr ⟨here, rfl⟩)
    | leaf content =>
      cases content with
      | sealed reason => exact .inr (.inl ⟨reason, rfl, rfl⟩)
      | file | full => exact .inl ⟨rfl, rfl⟩

/-- What a folder lists after a file was written, which is below it or not. -/
theorem visit_withFile (opens : Opens tree target dir name inner) (old : Replaceable inner name)
    (bytes : Bytes) (apart : tree.place path ≠ dir ++ [name]) {here here' : Folder}
    (found : tree.find path = .ok (.folder here))
    (found' : (tree.withFile (dir ++ [name]) bytes).find path = .ok (.folder here'))
    (listed : Succeeds (visit path (below path here))) :
    Succeeds (visit path (below path here')) ∧
      (Undisturbed tree (dir ++ [name]) path → below path here' = below path here) := by
  have start := (find_eq_ok.1 found).2.2
  have start' := (find_eq_ok.1 found').2.2
  rw [place_withFile, withFile] at start'
  by_cases above : tree.place path <+: dir ++ [name]
  · obtain ⟨more, way⟩ := (List.prefix_concat_iff.1 above).resolve_left apart
    have inside : here.node? more = some (.folder inner) := by
      rw [← node?_append start, way, opens.found]
    rw [← way, List.append_assoc, node?_put_above _ start] at start'
    cases start'
    refine ⟨?_, fun undisturbed => ?_⟩
    · rw [succeeds_visit] at listed ⊢
      exact succeeds_below_put path inside listed
    · rcases undisturbed with ⟨before, regular⟩ | outside
      · rw [node?_append opens.found, node?_singleton] at regular
        exact below_put_same path inside regular
      · exact absurd above (outside (isFolder_of_find found))
  · rw [node?_put_aside _ opens.found old.noFolder start above] at start'
    cases start'
    exact ⟨listed, fun _ => rfl⟩

theorem expand_withFile_apart (opens : Opens tree target dir name inner)
    (old : Replaceable inner name) (bytes : Bytes) (apart : tree.place path ≠ dir ++ [name])
    {found : List Path} (listed : (expand tree path).run.value = .ok found) :
    ∃ more, (expand (tree.withFile (dir ++ [name]) bytes) path).run.value = .ok more ∧
      (Undisturbed tree (dir ++ [name]) path → more = found) := by
  have spares := opens.spares old bytes
  cases before : tree.find path with
  | error reason =>
    have same : (expand tree path).run.value = .ok [path] :=
      expand_eq_self fun node found => by rw [before] at found; cases found
    have same' : (expand (tree.withFile (dir ++ [name]) bytes) path).run.value = .ok [path] := by
      apply expand_eq_self
      intro node found
      obtain ⟨_, found, -⟩ := spares.symm.find_eq_ok apart found
      rw [before] at found
      cases found
    exact ⟨[path], same', fun _ => Except.ok.inj (same.symm.trans listed)⟩
  | ok node =>
    cases node with
    | leaf content =>
      refine ⟨found, ?_, fun _ => rfl⟩
      rw [expand, before] at listed
      rw [expand, spares.find_leaf apart before]
      exact listed
    | folder here =>
      obtain ⟨next, after, kin⟩ := spares.find_eq_ok apart before
      cases kin with
      | folder _ here' =>
        rw [expand_folder before] at listed
        rw [expand_folder after]
        obtain ⟨⟨more, visited⟩, equal⟩ :=
          visit_withFile opens old bytes apart before after ⟨found, listed⟩
        refine ⟨more, visited, fun undisturbed => ?_⟩
        rw [equal undisturbed, listed] at visited
        exact (Except.ok.inj visited).symm

/-- A file which is written does not keep a path from being listed. -/
theorem expand_withFile (opens : Opens tree target dir name inner) (old : Replaceable inner name)
    (bytes : Bytes) {found : List Path} (listed : (expand tree path).run.value = .ok found) :
    ∃ more, (expand (tree.withFile (dir ++ [name]) bytes) path).run.value = .ok more ∧
      (Undisturbed tree (dir ++ [name]) path → more = found) := by
  by_cases same : tree.place path = dir ++ [name]
  · obtain ⟨inner', opens', regular⟩ := opens.withFile old bytes
    have after := expand_at opens' (.inr ⟨bytes, regular⟩) same
    exact ⟨[path], after, fun _ => Except.ok.inj ((expand_at opens old same).symm.trans listed)⟩
  · exact expand_withFile_apart opens old bytes same listed

end expand

end Manifest

end AssetPack

import AssetPack.Files.Folder

/-! Putting an entry into a folder which exists: what is found there afterwards, and what stays. -/

namespace AssetPack.Folder

theorem get?_put_self (node : Node) (name : String) (here : Folder) :
    (put node [name] here).get? name = some node := by
  induction here with
  | empty => simp [put, Node.under]
  | leaf other content rest ih =>
    by_cases same : name = other
    · simp [put, same, Node.under]
    · simp [put, same, get?, ih]
  | folder other inner rest _ ih =>
    by_cases same : name = other
    · simp [put, same]
    · simp [put, same, get?, ih]

theorem get?_put_other {name other : String} (ne : other ≠ name) (node : Node) (here : Folder) :
    (put node [name] here).get? other = here.get? other := by
  induction here with
  | empty => simp [put, ne]
  | leaf first content rest ih =>
    by_cases same : name = first
    · subst same
      simp [put, ne, get?]
    · simp [put, same, get?, ih]
  | folder first inner rest _ ih =>
    by_cases same : name = first
    · subst same
      simp [put, ne, get?]
    · simp [put, same, get?, ih]

theorem put_self_cons (node first : Node) (name : String) (rest : Folder) :
    put node [name] (cons name first rest) = cons name node rest := by
  cases first <;> simp [cons, put, Node.under]

theorem put_put_self (node first : Node) (name : String) (here : Folder) :
    put node [name] (put first [name] here) = put node [name] here := by
  induction here with
  | empty => simp [put, Node.under, put_self_cons]
  | leaf other content rest ih =>
    by_cases same : name = other
    · simp [put, same, Node.under, put_self_cons]
    · simp [put, same, ih]
  | folder other inner rest _ ih =>
    by_cases same : name = other
    · simp [put, same, put_self_cons]
    · simp [put, same, ih]

/-- Below a folder the change is a new folder in the place of the old one. -/
theorem put_below {name : String} {inner here : Folder}
    (found : here.get? name = some (.folder inner)) (node : Node) {more : Place}
    (ne : more ≠ []) :
    put node (name :: more) here = put (.folder (put node more inner)) [name] here := by
  induction here with
  | empty => cases found
  | leaf other content rest ih =>
    by_cases same : name = other
    · simp [get?, same] at found
    · simp only [get?, same, if_false] at found
      simp [put, same, ih found]
  | folder other old rest _ ih =>
    by_cases same : name = other
    · simp only [get?, same, if_true, Option.some.injEq, Node.folder.injEq] at found
      simp [put, same, ne, found, cons]
    · simp only [get?, same, if_false] at found
      simp [put, same, ih found]

theorem node?_eq_folder {name : String} {more : Place} {here inner : Folder} :
    here.node? (name :: more) = some (.folder inner) ↔
      ∃ middle, here.get? name = some (.folder middle) ∧
        middle.node? more = some (.folder inner) := by
  rw [node?]
  split
  · rename_i middle found
    simp [found]
  · rename_i content found
    simp [found]
  · rename_i found
    simp [found]

/-- A node below a name is below a folder of that name, or is a leaf of that name itself. -/
theorem node?_cons_cases {name : String} {more : Place} {here : Folder} {node : Node}
    (found : here.node? (name :: more) = some node) :
    (∃ inner, here.get? name = some (.folder inner) ∧ inner.node? more = some node) ∨
      ∃ content, here.get? name = some (.leaf content) ∧ more = [] ∧ node = .leaf content := by
  rw [node?] at found
  split at found
  · rename_i inner there
    exact .inl ⟨inner, there, found⟩
  · rename_i content there
    split at found
    · rename_i last
      cases found
      exact .inr ⟨content, there, last, rfl⟩
    · cases found
  · cases found

theorem node?_append {dir : Place} {here inner : Folder}
    (found : here.node? dir = some (.folder inner)) (more : Place) :
    here.node? (dir ++ more) = inner.node? more := by
  induction dir generalizing here with
  | nil =>
    cases found
    rfl
  | cons name dir ih =>
    obtain ⟨middle, here_eq, middle_eq⟩ := node?_eq_folder.1 found
    rw [List.cons_append, node?, here_eq]
    exact ih middle_eq

/-- Nothing is below a leaf. -/
theorem node?_below_leaf {place : Place} {here : Folder} {content : Leaf}
    (found : here.node? place = some (.leaf content)) (name : String) :
    here.node? (place ++ [name]) = none := by
  induction place generalizing here with
  | nil => cases found
  | cons first more ih =>
    rw [node?] at found
    rw [List.cons_append, node?]
    split at found
    · exact ih found
    · simp
    · cases found

theorem node?_put {dir : Place} {here inner : Folder} (node : Node) (name : String)
    (found : here.node? dir = some (.folder inner)) :
    (put node (dir ++ [name]) here).node? (dir ++ [name]) = some node := by
  induction dir generalizing here with
  | nil => rw [List.nil_append, node?_singleton, get?_put_self]
  | cons first dir ih =>
    obtain ⟨middle, here_eq, middle_eq⟩ := node?_eq_folder.1 found
    rw [List.cons_append, put_below here_eq node (by simp), node?, get?_put_self]
    exact ih middle_eq

theorem put_put {dir : Place} {here inner : Folder} (node first : Node) (name : String)
    (found : here.node? dir = some (.folder inner)) :
    put node (dir ++ [name]) (put first (dir ++ [name]) here) = put node (dir ++ [name]) here := by
  induction dir generalizing here with
  | nil => exact put_put_self node first name here
  | cons next dir ih =>
    obtain ⟨middle, here_eq, middle_eq⟩ := node?_eq_folder.1 found
    have ne : dir ++ [name] ≠ [] := by simp
    rw [List.cons_append, put_below here_eq first ne, put_below (get?_put_self _ _ _) node ne,
      put_put_self, ih middle_eq, put_below here_eq node ne]

/-- What may stand in the place of a node after others were put into the tree. -/
def Grows : Node → Node → Prop
  | .folder _, next => ∃ inner, next = .folder inner
  | .leaf (.sealed reason), next => next = .leaf (.sealed reason)
  | .leaf _, _ => True

/-- The other folder has every entry of the first one, and folders stay folders. -/
def Extends (here other : Folder) : Prop :=
  ∀ place node, here.node? place = some node → ∃ next, other.node? place = some next ∧
    Grows node next

theorem Grows.refl (node : Node) : Grows node node := by
  cases node with
  | folder inner => exact ⟨inner, rfl⟩
  | leaf content => cases content <;> simp [Grows]

theorem Extends.refl (here : Folder) : Extends here here := fun _ node h => ⟨node, h, .refl node⟩

theorem Extends.of_get? {here other : Folder}
    (folders : ∀ name inner, here.get? name = some (.folder inner) →
      ∃ more, other.get? name = some (.folder more) ∧ Extends inner more)
    (leaves : ∀ name content, here.get? name = some (.leaf content) →
      ∃ next, other.get? name = some (.leaf next) ∧ Grows (.leaf content) (.leaf next)) :
    Extends here other := by
  intro place node h
  cases place with
  | nil =>
    cases h
    exact ⟨.folder other, rfl, other, rfl⟩
  | cons name more =>
    rw [node?] at h ⊢
    split at h
    · rename_i middle found
      obtain ⟨next, found', extends'⟩ := folders name middle found
      rw [found']
      exact extends' more node h
    · rename_i content found
      obtain ⟨next, found', grows⟩ := leaves name content found
      rw [found']
      split at h
      · rename_i last
        cases h
        exact ⟨.leaf next, if_pos last, grows⟩
      · cases h
    · cases h

/-- A file in the place of nothing, or of another entry which is neither sealed nor a folder. -/
theorem extends_put {dir : Place} {here inner : Folder} (content : Leaf) (name : String)
    (found : here.node? dir = some (.folder inner))
    (noFolder : ∀ old, inner.get? name ≠ some (.folder old))
    (notSealed : ∀ reason, inner.get? name ≠ some (.leaf (.sealed reason))) :
    Extends here (put (.leaf content) (dir ++ [name]) here) := by
  induction dir generalizing here with
  | nil =>
    cases found
    apply Extends.of_get?
    · intro other old h
      have ne : other ≠ name := fun same => noFolder old (same ▸ h)
      exact ⟨old, (get?_put_other ne _ _).trans h, .refl old⟩
    · intro other old h
      by_cases same : other = name
      · subst same
        refine ⟨content, get?_put_self _ _ _, ?_⟩
        cases old with
        | file => trivial
        | full => trivial
        | sealed reason => exact absurd h (notSealed reason)
      · exact ⟨old, (get?_put_other same _ _).trans h, .refl _⟩
  | cons next dir ih =>
    obtain ⟨middle, here_eq, middle_eq⟩ := node?_eq_folder.1 found
    rw [List.cons_append, put_below here_eq _ (by simp)]
    apply Extends.of_get?
    · intro other old h
      by_cases same : other = next
      · subst same
        rw [here_eq] at h
        cases h
        exact ⟨_, get?_put_self _ _ _, ih middle_eq⟩
      · exact ⟨old, (get?_put_other same _ _).trans h, .refl old⟩
    · intro other old h
      have ne : other ≠ next := by
        intro same
        rw [same, here_eq] at h
        cases h
      exact ⟨old, (get?_put_other ne _ _).trans h, .refl _⟩

end AssetPack.Folder

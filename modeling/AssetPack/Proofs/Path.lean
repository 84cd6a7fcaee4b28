import Mathlib.Data.List.Lex
import AssetPack.Files.Folder
import AssetPack.Path

/-! Paths by their components: their order, and what joining names adds to them. -/

namespace AssetPack

namespace Component

def rank : Component → Nat
  | root => 0
  | here => 1
  | up => 2
  | name _ => 3

/-- Names are compared character by character. -/
def Before : Component → Component → Prop
  | name a, name b => a < b
  | a, b => a.rank < b.rank

theorem Before.irrefl (component : Component) : ¬ component.Before component := by
  cases component with
  | name text => exact String.lt_irrefl text
  | root | here | up => exact Nat.lt_irrefl _

end Component

namespace Path

/-- The order of paths, component by component. -/
def Precedes (p q : Path) : Prop := List.Lex Component.Before p.components q.components

theorem Precedes.ne {p q : Path} (precedes : Precedes p q) : p ≠ q := by
  rintro rfl
  rw [Precedes] at precedes
  generalize p.components = components at precedes
  induction components with
  | nil => cases precedes
  | cons first rest ih =>
    cases precedes with
    | cons less => exact ih less
    | rel less => exact Component.Before.irrefl first less

/-- What an entry of a folder can be called. -/
structure IsName (name : String) : Prop where
  visible : name ≠ ""
  notHere : name ≠ "."
  notUp : name ≠ ".."
  single : '/' ∉ name.toList

instance (name : String) : Decidable (IsName name) :=
  decidable_of_iff (name ≠ "" ∧ name ≠ "." ∧ name ≠ ".." ∧ '/' ∉ name.toList)
    ⟨fun ⟨a, b, c, d⟩ => ⟨a, b, c, d⟩, fun ⟨a, b, c, d⟩ => ⟨a, b, c, d⟩⟩

/-- The path to an entry at any depth below the path. -/
def joinAll (path : Path) (place : Place) : Path :=
  place.foldl (fun dir name => dir.join ⟨name⟩) path

/-! Pieces. -/

theorem pieces_of_single {text : List Char} (single : '/' ∉ text) : pieces text = [text] := by
  induction text with
  | nil => rfl
  | cons c rest ih =>
    rw [List.mem_cons, not_or] at single
    rw [pieces, if_neg (Ne.symm single.1), ih single.2]

theorem pieces_append_slash (text more : List Char) :
    pieces (text ++ '/' :: more) = pieces text ++ pieces more := by
  induction text with
  | nil =>
    change pieces ('/' :: more) = [] :: pieces more
    rw [pieces, if_pos rfl]
  | cons c rest ih =>
    rw [List.cons_append, pieces, pieces, ih]
    split
    · rfl
    · obtain ⟨piece, others, split⟩ := List.exists_cons_of_ne_nil (pieces_ne_nil rest)
      rw [split]
      rfl

/-- Only an empty text is a single empty piece. -/
theorem split_visible {text first : List Char} {more : List (List Char)}
    (split : pieces text = first :: more) (visible : text ≠ []) : more ≠ [] ∨ first ≠ [] := by
  cases text with
  | nil => exact absurd rfl visible
  | cons c rest =>
    rw [pieces] at split
    split at split
    · obtain ⟨-, rfl⟩ := List.cons.inj split
      exact .inl (pieces_ne_nil rest)
    · refine .inr ?_
      split at split
      · obtain ⟨rfl, -⟩ := List.cons.inj split
        exact List.cons_ne_nil _ _
      · obtain ⟨rfl, -⟩ := List.cons.inj split
        exact List.cons_ne_nil _ _

/-- The components of the first piece of a path. -/
def front : List Char → List Component
  | [] => [.root]
  | ['.'] => [.here]
  | piece => (component? piece).toList

theorem components_eq {text : String} {first : List Char} {more : List (List Char)}
    (split : pieces text.toList = first :: more) (some : more ≠ [] ∨ first ≠ []) :
    components ⟨text⟩ = front first ++ more.filterMap component? := by
  rw [components, split]
  split
  · rename_i single
    cases single
    simp at some
  · rename_i start
    cases start
    rfl
  · rename_i start
    cases start
    rfl
  · rename_i visible named
    rw [List.filterMap_cons]
    have plain : front first = (component? first).toList := by
      rw [front]
      · rintro rfl
        exact visible more rfl
      · rintro rfl
        exact named more rfl
    rw [plain]
    cases component? first <;> rfl

section name
variable {name : String}

theorem component?_of_isName (proper : IsName name) :
    component? name.toList = some (.name name) := by
  have differs {text : List Char} (ne : name ≠ String.ofList text) : name.toList ≠ text := by
    rintro rfl
    exact ne String.ofList_toList.symm
  rw [component?]
  · rw [String.ofList_toList]
  · exact differs proper.visible
  · exact differs proper.notHere
  · exact differs proper.notUp

theorem front_of_isName (proper : IsName name) : front name.toList = [.name name] := by
  have named := component?_of_isName proper
  generalize name.toList = text at named
  rw [front]
  · rw [named]
    rfl
  · rintro rfl
    cases named
  · rintro rfl
    cases named

theorem not_isAbsolute_of_isName (proper : IsName name) : (⟨name⟩ : Path).isAbsolute = false := by
  rw [isAbsolute, beq_eq_false_iff_ne]
  exact fun first => proper.single (List.mem_of_head? first)

/-- Joining a name adds one component. -/
theorem components_join (path : Path) (proper : IsName name) :
    (path.join ⟨name⟩).components = path.components ++ [.name name] := by
  have named : pieces name.toList = [name.toList] := pieces_of_single proper.single
  have step : [name.toList].filterMap component? = [.name name] := by
    rw [List.filterMap_cons, component?_of_isName proper]
    rfl
  rw [join, if_neg (not_isAbsolute_of_isName proper ▸ Bool.false_ne_true)]
  by_cases blank : path.text = ""
  · have nothing : path.components = [] := by
      rw [components, blank]
      rfl
    rw [if_pos (.inl blank), nothing, blank, String.empty_append]
    rw [components_eq named (.inr _), front_of_isName proper]
    · rfl
    · exact fun none => proper.visible (String.toList_eq_nil_iff.1 none)
  · by_cases slash : path.text.toList.getLast? = some '/'
    · obtain ⟨before, text⟩ := List.getLast?_eq_some_iff.1 slash
      obtain ⟨first, more, split⟩ := List.exists_cons_of_ne_nil (pieces_ne_nil before)
      have old : pieces path.text.toList = first :: (more ++ [[]]) := by
        rw [text, pieces_append_slash, split]
        rfl
      have new : pieces (path.text ++ name).toList = first :: (more ++ [name.toList]) := by
        rw [String.toList_append, text, List.append_assoc, List.singleton_append,
          pieces_append_slash, split, named]
        rfl
      rw [if_pos (.inr slash), components_eq old (.inl (by simp)),
        components_eq new (.inl (by simp)), List.filterMap_append,
        List.filterMap_append, step, List.append_assoc, List.append_assoc]
      rfl
    · obtain ⟨first, more, split⟩ := List.exists_cons_of_ne_nil (pieces_ne_nil path.text.toList)
      have new : pieces (path.text ++ "/" ++ name).toList = first :: (more ++ [name.toList]) := by
        rw [String.toList_append, String.toList_append, List.append_assoc]
        change pieces (path.text.toList ++ '/' :: name.toList) = _
        rw [pieces_append_slash, split, named]
        rfl
      have visible : path.text.toList ≠ [] := mt String.toList_eq_nil_iff.1 blank
      rw [if_neg (not_or.2 ⟨blank, slash⟩), components_eq split (split_visible split visible),
        components_eq new (.inl (by simp)),
        List.filterMap_append, step, List.append_assoc]

theorem utf8ByteSize_le_join (path : Path) (proper : IsName name) :
    path.text.utf8ByteSize ≤ (path.join ⟨name⟩).text.utf8ByteSize := by
  rw [join, if_neg (not_isAbsolute_of_isName proper ▸ Bool.false_ne_true)]
  split
  · rw [String.utf8ByteSize_append]
    exact Nat.le_add_right _ _
  · rw [String.utf8ByteSize_append, String.utf8ByteSize_append, Nat.add_assoc]
    exact Nat.le_add_right _ _

end name

/-- The path to an entry is not shorter than the path to a folder above it. -/
theorem utf8ByteSize_le_joinAll (path : Path) {place : Place}
    (proper : ∀ name ∈ place, IsName name) :
    path.text.utf8ByteSize ≤ (path.joinAll place).text.utf8ByteSize := by
  induction place generalizing path with
  | nil => exact Nat.le_refl _
  | cons name place ih =>
    rw [List.forall_mem_cons] at proper
    exact Nat.le_trans (utf8ByteSize_le_join path proper.1) (ih _ proper.2)

theorem components_joinAll (path : Path) {place : Place} (proper : ∀ name ∈ place, IsName name) :
    (path.joinAll place).components = path.components ++ place.map .name := by
  induction place generalizing path with
  | nil => exact (List.append_nil _).symm
  | cons name place ih =>
    rw [List.forall_mem_cons] at proper
    change ((path.join ⟨name⟩).joinAll place).components = _
    rw [ih _ proper.2, components_join path proper.1, List.append_assoc]
    rfl

theorem lex_map_name {place other : Place} (less : place < other) :
    List.Lex Component.Before (place.map .name) (other.map .name) := by
  induction less with
  | nil => exact .nil
  | rel less => exact .rel less
  | cons _ ih => exact .cons ih

/-- Entries below a path are in the order of the names on the way to them. -/
theorem precedes_joinAll (path : Path) {place other : Place}
    (proper : ∀ name ∈ place, IsName name) (proper' : ∀ name ∈ other, IsName name)
    (less : place < other) : Precedes (path.joinAll place) (path.joinAll other) := by
  rw [Precedes, components_joinAll path proper, components_joinAll path proper']
  exact .append_left _ (lex_map_name less) _

end Path

end AssetPack

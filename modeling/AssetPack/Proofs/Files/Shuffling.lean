import Mathlib.Data.List.Nodup
import AssetPack.Proofs.Files.Sparing
import AssetPack.Proofs.Path

/-! Folders whose entries have names of their own, and the same folders with their entries in
another order: paths lead to the same in both. -/

namespace AssetPack

/-- Whether the entry is a folder which can not be listed. -/
def Leaf.isSealed : Leaf → Bool
  | sealed _ => true
  | file _ | full => false

/-- Whether the node is a folder, which can be listed or not. -/
def Node.isFolder : Node → Bool
  | .leaf content => content.isSealed
  | .folder _ => true

namespace Folder

/-- Whether a file, or what else is no folder, is at the place. -/
def IsFile (here : Folder) (place : Place) : Prop :=
  ∃ node, here.node? place = some node ∧ node.isFolder = false

/-- Entries at every depth have names which are different in each folder. -/
def Named : Folder → Prop
  | empty => True
  | leaf name _ rest => Path.IsName name ∧ rest.get? name = none ∧ rest.Named
  | folder name inner rest => Path.IsName name ∧ rest.get? name = none ∧ inner.Named ∧ rest.Named

instance decidableNamed : DecidablePred Named
  | empty => inferInstanceAs (Decidable True)
  | leaf _ _ rest =>
    have := decidableNamed rest
    inferInstanceAs (Decidable (_ ∧ _ ∧ _))
  | folder _ inner rest =>
    have := decidableNamed inner
    have := decidableNamed rest
    inferInstanceAs (Decidable (_ ∧ _ ∧ _ ∧ _))

/-- All folders at any depth can be listed. -/
def Readable : Folder → Prop
  | empty => True
  | leaf _ content rest => content.isSealed = false ∧ rest.Readable
  | folder _ inner rest => inner.Readable ∧ rest.Readable

instance decidableReadable : DecidablePred Readable
  | empty => inferInstanceAs (Decidable True)
  | leaf _ _ rest =>
    have := decidableReadable rest
    inferInstanceAs (Decidable (_ ∧ _))
  | folder _ inner rest =>
    have := decidableReadable inner
    have := decidableReadable rest
    inferInstanceAs (Decidable (_ ∧ _))

/-- The same entries at every depth, in any order. -/
def Shuffles (here other : Folder) : Prop := ∀ place, Kin (here.node? place) (other.node? place)

/-- What holds of a folder if it holds of the folders in it holds of every folder. -/
theorem inside_induction {P : Folder → Prop}
    (step : ∀ here, (∀ name inner, (name, .folder inner) ∈ here.entries → P inner) → P here)
    (here : Folder) : P here := by
  refine step here ?_
  induction here with
  | empty => exact fun _ _ mem => absurd mem List.not_mem_nil
  | leaf name content rest ih =>
    intro other inner mem
    rcases List.mem_cons.1 mem with same | mem
    · cases same
    · exact ih other inner mem
  | folder name inside rest ihInside ih =>
    intro other inner mem
    rcases List.mem_cons.1 mem with same | mem
    · cases same
      exact step inside ihInside
    · exact ih other inner mem

theorem get?_eq_none_iff {here : Folder} {name : String} :
    here.get? name = none ↔ name ∉ here.entries.map Prod.fst := by
  induction here with
  | empty => exact iff_of_true rfl List.not_mem_nil
  | leaf other content rest ih | folder other inner rest _ ih =>
    rw [get?, entries, List.map_cons, List.mem_cons, not_or, ← ih]
    by_cases same : name = other
    · simp [same]
    · simp [same]

theorem mem_entries_of_get? {here : Folder} {name : String} {node : Node}
    (found : here.get? name = some node) : (name, node) ∈ here.entries := by
  induction here with
  | empty => cases found
  | leaf other content rest ih | folder other inner rest _ ih =>
    rw [get?] at found
    split at found
    · rename_i same
      cases found
      rw [same]
      exact List.mem_cons_self
    · exact List.mem_cons_of_mem _ (ih found)

namespace Named
variable {here inner : Folder} {name : String}

theorem nodup (named : here.Named) : (here.entries.map Prod.fst).Nodup := by
  induction here with
  | empty => exact List.nodup_nil
  | leaf other content rest ih =>
    exact List.nodup_cons.2 ⟨get?_eq_none_iff.1 named.2.1, ih named.2.2⟩
  | folder other inner rest _ ih =>
    exact List.nodup_cons.2 ⟨get?_eq_none_iff.1 named.2.1, ih named.2.2.2⟩

theorem mem_entries_iff (named : here.Named) {node : Node} :
    (name, node) ∈ here.entries ↔ here.get? name = some node := by
  refine ⟨fun mem => ?_, mem_entries_of_get?⟩
  cases found : here.get? name with
  | none => exact absurd (List.mem_map_of_mem mem) (get?_eq_none_iff.1 found)
  | some other =>
    cases List.inj_on_of_nodup_map named.nodup mem (mem_entries_of_get? found) rfl
    rfl

theorem of_mem (named : here.Named) {node : Node} (mem : (name, node) ∈ here.entries) :
    Path.IsName name ∧ ∀ inner, node = .folder inner → inner.Named := by
  induction here with
  | empty => cases mem
  | leaf other content rest ih =>
    rcases List.mem_cons.1 mem with same | mem
    · cases same
      refine ⟨named.1, ?_⟩
      rintro _ ⟨⟩
    · exact ih named.2.2 mem
  | folder other inner rest _ ih =>
    rcases List.mem_cons.1 mem with same | mem
    · cases same
      refine ⟨named.1, ?_⟩
      rintro _ ⟨⟩
      exact named.2.2.1
    · exact ih named.2.2.2 mem

theorem isName (named : here.Named) {node : Node} (found : here.get? name = some node) :
    Path.IsName name := (named.of_mem (mem_entries_of_get? found)).1

theorem inside (named : here.Named) (found : here.get? name = some (.folder inner)) :
    inner.Named := (named.of_mem (mem_entries_of_get? found)).2 inner rfl

theorem below (named : here.Named) {place : Place}
    (found : here.node? place = some (.folder inner)) : inner.Named := by
  induction place generalizing here with
  | nil =>
    cases found
    exact named
  | cons first place ih =>
    obtain ⟨middle, here_eq, found⟩ := node?_eq_folder.1 found
    exact ih (named.inside here_eq) found

/-- The names on the way to an entry. -/
theorem isName_of_node? (named : here.Named) {place : Place} {node : Node}
    (found : here.node? place = some node) : ∀ name ∈ place, Path.IsName name := by
  induction place generalizing here with
  | nil => exact fun _ mem => absurd mem List.not_mem_nil
  | cons first place ih =>
    rw [List.forall_mem_cons]
    rcases node?_cons_cases found with ⟨inner, there, found⟩ | ⟨content, there, rfl, -⟩
    · exact ⟨named.isName there, ih (named.inside there) found⟩
    · exact ⟨named.isName there, fun _ mem => absurd mem List.not_mem_nil⟩

end Named

namespace Readable
variable {here inner : Folder} {name : String}

theorem of_mem (readable : here.Readable) {node : Node} (mem : (name, node) ∈ here.entries) :
    (∀ content, node = .leaf content → content.isSealed = false) ∧
      ∀ inner, node = .folder inner → inner.Readable := by
  induction here with
  | empty => cases mem
  | leaf other content rest ih =>
    rcases List.mem_cons.1 mem with same | mem
    · cases same
      refine ⟨?_, ?_⟩
      · rintro _ ⟨⟩
        exact readable.1
      · rintro _ ⟨⟩
    · exact ih readable.2 mem
  | folder other inner rest _ ih =>
    rcases List.mem_cons.1 mem with same | mem
    · cases same
      refine ⟨?_, ?_⟩
      · rintro _ ⟨⟩
      · rintro _ ⟨⟩
        exact readable.1
    · exact ih readable.2 mem

theorem isSealed_eq (readable : here.Readable) {content : Leaf}
    (found : here.get? name = some (.leaf content)) : content.isSealed = false :=
  (readable.of_mem (mem_entries_of_get? found)).1 content rfl

theorem inside (readable : here.Readable) (found : here.get? name = some (.folder inner)) :
    inner.Readable := (readable.of_mem (mem_entries_of_get? found)).2 inner rfl

theorem isSealed_of_node? (readable : here.Readable) {place : Place} {content : Leaf}
    (found : here.node? place = some (.leaf content)) : content.isSealed = false := by
  induction place generalizing here with
  | nil => cases found
  | cons first place ih =>
    rcases node?_cons_cases found with ⟨inner, there, found⟩ | ⟨other, there, -, same⟩
    · exact ih (readable.inside there) found
    · cases same
      exact readable.isSealed_eq there

end Readable

namespace Shuffles
variable {here other : Folder}

theorem get? (shuffles : here.Shuffles other) (name : String) :
    Kin (here.get? name) (other.get? name) := by
  rw [← node?_singleton, ← node?_singleton]
  exact shuffles [name]

/-- Folders at one place are shuffled as well. -/
theorem below (shuffles : here.Shuffles other) {place : Place} {inner inner' : Folder}
    (found : here.node? place = some (.folder inner))
    (found' : other.node? place = some (.folder inner')) : inner.Shuffles inner' := by
  intro more
  rw [← node?_append found, ← node?_append found']
  exact shuffles (place ++ more)

theorem advance_eq (shuffles : here.Shuffles other) (place : Place) (piece : List Char) :
    FileTree.advance here place piece = FileTree.advance other place piece := by
  have kin := shuffles place
  rw [FileTree.advance, FileTree.advance]
  generalize found : here.node? place = node at kin
  generalize found' : other.node? place = node' at kin
  cases kin with
  | none | leaf => rfl
  | folder inner inner' =>
    have same (name : String) : (inner.get? name).isSome = (inner'.get? name).isSome :=
      ((shuffles.below found found').get? name).isSome_eq
    dsimp only
    split
    · rw [same]
    · rfl
    · rfl

theorem follow_eq (shuffles : here.Shuffles other) (place : Place) (pieces : List (List Char)) :
    FileTree.follow here place pieces = FileTree.follow other place pieces := by
  induction pieces generalizing place with
  | nil => rfl
  | cons piece pieces ih =>
    rw [FileTree.follow_cons, FileTree.follow_cons, shuffles.advance_eq]
    cases FileTree.advance other place piece with
    | error reason => rfl
    | ok next => exact ih next

end Shuffles

end Folder

namespace FileTree
open Folder

/-- Trees with the same entries in any order. -/
structure Shuffles (tree other : FileTree) : Prop where
  current : tree.current = other.current
  root : tree.root.Shuffles other.root
  named : tree.root.Named
  named' : other.root.Named

/-- What two paths lead to in shuffled trees: the same failure, the same leaf, or folders with the
same entries. -/
inductive Alike : Except IoError Node → Except IoError Node → Prop where
  | error (reason : IoError) : Alike (.error reason) (.error reason)
  | leaf (content : Leaf) : Alike (.ok (.leaf content)) (.ok (.leaf content))
  | folder {here other : Folder} (shuffles : here.Shuffles other) (named : here.Named)
    (named' : other.Named) : Alike (.ok (.folder here)) (.ok (.folder other))

theorem Shuffles.find_alike {tree other : FileTree} (shuffles : Shuffles tree other)
    (path : Path) : Alike (tree.find path) (other.find path) := by
  rw [find, find, start, start, shuffles.current, shuffles.root.follow_eq]
  cases check path with
  | error reason => exact .error reason
  | ok =>
    change Alike (Except.bind (follow other.root _ _) _) (Except.bind (follow other.root _ _) _)
    cases follow other.root (if path.isAbsolute then [] else other.current)
        (Path.pieces path.text.toList) with
    | error reason => exact .error reason
    | ok place =>
      have kin := shuffles.root place
      simp only [Except.bind]
      generalize found : tree.root.node? place = node at kin
      generalize found' : other.root.node? place = node' at kin
      cases kin with
      | none => exact .error .notFound
      | leaf content => exact .leaf content
      | folder here here' =>
        exact .folder (shuffles.root.below found found') (shuffles.named.below found)
          (shuffles.named'.below found')

end FileTree

end AssetPack

import Mathlib.Data.List.Nodup
import AssetPack.Proofs.Files.Shuffling
import AssetPack.Proofs.Manifest.Relisting

/-! The order in which the system lists the entries of folders does not matter: they are looked at
in the order of their names, so that a manifest means the same. -/

namespace AssetPack

namespace Manifest
open Folder FileTree Attempt

/-- The order in which the entries of a folder are looked at. -/
def byName {α : Type} (a b : String × α) : Bool := a.1 ≤ b.1

theorem byName_trans {α : Type} (a b c : String × α) (first : byName a b = true)
    (second : byName b c = true) : byName a c = true :=
  decide_eq_true (String.le_trans (of_decide_eq_true first) (of_decide_eq_true second))

theorem byName_total {α : Type} (a b : String × α) : (byName a b || byName b a) = true := by
  rw [Bool.or_eq_true, byName, byName, decide_eq_true_iff, decide_eq_true_iff]
  exact String.le_total a.1 b.1

theorem pairwise_byName {α : Type} (entries : List (String × α)) :
    (entries.mergeSort byName).Pairwise fun a b => a.1 ≤ b.1 :=
  (List.pairwise_mergeSort byName_trans byName_total entries).imp of_decide_eq_true

/-- Entries with different names are in strict order. -/
theorem strict_byName {α : Type} {entries : List (String × α)}
    (nodup : (entries.map Prod.fst).Nodup) :
    (entries.mergeSort byName).Pairwise fun a b => a.1 < b.1 := by
  have same := (List.mergeSort_perm entries byName).map Prod.fst
  have apart := List.pairwise_map.1 (same.nodup_iff.2 nodup)
  refine ((pairwise_byName entries).and apart).imp ?_
  rintro a b ⟨le, ne⟩
  exact String.not_le.1 fun ge => ne (String.le_antisymm le ge)

/-- The order of the entries which are looked at does not depend on the order they are given in. -/
theorem mergeSort_perm {α : Type} {entries more : List (String × α)} (perm : entries.Perm more)
    (nodup : (entries.map Prod.fst).Nodup) :
    entries.mergeSort byName = more.mergeSort byName := by
  have first := List.mergeSort_perm entries byName
  have second := (List.mergeSort_perm more byName).trans perm.symm
  refine (first.trans second.symm).eq_of_pairwise ?_ (pairwise_byName entries)
    (pairwise_byName more)
  intro a b memA memB le ge
  exact List.inj_on_of_nodup_map nodup (first.mem_iff.1 memA) (second.mem_iff.1 memB)
    (String.le_antisymm le ge)

/-- Entries in strict order are those which are looked at, one after the other. -/
theorem mergeSort_eq {α : Type} {entries sorted : List (String × α)} (perm : entries.Perm sorted)
    (strict : sorted.Pairwise fun a b => a.1 < b.1) : entries.mergeSort byName = sorted := by
  have nodup : (sorted.map Prod.fst).Nodup :=
    List.pairwise_map.2 (strict.imp fun less => String.ne_of_lt less)
  rw [mergeSort_perm perm ((perm.map Prod.fst).nodup_iff.2 nodup)]
  exact List.mergeSort_of_pairwise (strict.imp fun less => decide_eq_true (Std.le_of_lt less))

theorem value_visit (dir : Path) (found : List (String × Found)) :
    (visit dir found).run.value =
      ((found.mergeSort byName).mapM Prod.snd).run.value.map List.flatten := by
  have rest : ((found.mergeSort byName).mapM Prod.snd >>= fun files =>
      (pure files.flatten : Found)).run.value =
        ((found.mergeSort byName).mapM Prod.snd).run.value.map List.flatten := by
    rw [value_bind]
    cases ((found.mergeSort byName).mapM Prod.snd).run.value <;> rfl
  rw [visit]
  split
  · rw [value_bind]
    exact rest
  · exact rest

theorem value_visit_below (dir : Path) (here : Folder) :
    (visit dir (below dir here)).run.value =
      ((here.entries.mergeSort byName).mapM fun entry =>
        foundAt dir entry.1 entry.2).run.value.map List.flatten := by
  have sorted : (below dir here).mergeSort byName = (here.entries.mergeSort byName).map
      fun entry => (entry.1, foundAt dir entry.1 entry.2) := by
    rw [below_eq]
    exact (List.map_mergeSort (r := byName) (s := byName)
      (f := fun entry : String × Node => (entry.1, foundAt dir entry.1 entry.2))
      fun _ _ _ _ => rfl).symm
  rw [value_visit, sorted, List.mapM_map]
  rfl

/-! Listing in another order. -/

theorem keys_below (dir : Path) (here : Folder) :
    (below dir here).map Prod.fst = here.entries.map Prod.fst := by
  rw [below_eq, List.map_map]
  rfl

theorem mem_below_iff {dir : Path} {here : Folder} (named : here.Named) {name : String}
    {found : Found} : (name, found) ∈ below dir here ↔
      ∃ node, here.get? name = some node ∧ foundAt dir name node = found := by
  rw [below_eq, List.mem_map]
  constructor
  · rintro ⟨⟨other, node⟩, mem, same⟩
    cases same
    exact ⟨node, named.mem_entries_iff.1 mem, rfl⟩
  · rintro ⟨node, there, rfl⟩
    exact ⟨(name, node), named.mem_entries_iff.2 there, rfl⟩

theorem visit_perm {dir : Path} {found more : List (String × Found)} (perm : found.Perm more)
    (nodup : (found.map Prod.fst).Nodup) : visit dir found = visit dir more := by
  have sorted : found.mergeSort (fun a b => decide (a.1 ≤ b.1)) =
      more.mergeSort (fun a b => decide (a.1 ≤ b.1)) := mergeSort_perm perm nodup
  have blank : found.isEmpty = more.isEmpty := by
    rw [Bool.eq_iff_iff, List.isEmpty_iff, List.isEmpty_iff]
    exact ⟨fun none => (none ▸ perm).nil_eq.symm, fun none => (none ▸ perm).eq_nil⟩
  rw [visit, visit, sorted, blank]

theorem visit_shuffles {here other : Folder} (shuffles : here.Shuffles other) (named : here.Named)
    (named' : other.Named) (dir : Path) :
    visit dir (below dir here) = visit dir (below dir other) := by
  induction here using inside_induction generalizing other dir with
  | step here ih =>
    have same {name : String} {node node' : Node} (there : here.get? name = some node)
        (there' : other.get? name = some node') :
        foundAt dir name node = foundAt dir name node' := by
      have kin := shuffles.get? name
      rw [there, there'] at kin
      cases kin with
      | leaf => rfl
      | folder inner inner' =>
        rw [foundAt, foundAt]
        have inside : inner.Shuffles inner' :=
          shuffles.below (node?_singleton here name ▸ there) (node?_singleton other name ▸ there')
        rw [ih name inner (named.mem_entries_iff.2 there) inside (named.inside there)
          (named'.inside there')]
    have nodup : ((below dir here).map Prod.fst).Nodup := keys_below dir here ▸ named.nodup
    have nodup' : ((below dir other).map Prod.fst).Nodup := keys_below dir other ▸ named'.nodup
    refine visit_perm ((List.perm_ext_iff_of_nodup (.of_map _ nodup) (.of_map _ nodup')).2 ?_) nodup
    rintro ⟨name, found⟩
    rw [mem_below_iff named, mem_below_iff named']
    have present := (shuffles.get? name).isSome_eq
    constructor
    · rintro ⟨node, there, rfl⟩
      rw [there] at present
      obtain ⟨node', there'⟩ := Option.isSome_iff_exists.1 present.symm
      exact ⟨node', there', (same there there').symm⟩
    · rintro ⟨node', there', rfl⟩
      rw [there'] at present
      obtain ⟨node, there⟩ := Option.isSome_iff_exists.1 present
      exact ⟨node, there, same there there'⟩

theorem expand_shuffles {files later : FileTree} (shuffles : files.Shuffles later) (path : Path) :
    expand files path = expand later path := by
  have alike := shuffles.find_alike path
  rw [expand, expand]
  generalize files.find path = found at alike
  generalize later.find path = found' at alike
  cases alike with
  | error | leaf => rfl
  | folder inside named named' => exact visit_shuffles inside named named' path

theorem isFolder_shuffles {files later : FileTree} (shuffles : files.Shuffles later)
    (path : Path) : files.isFolder path = later.isFolder path := by
  have alike := shuffles.find_alike path
  rw [isFolder, isFolder]
  generalize files.find path = found at alike
  generalize later.find path = found' at alike
  cases alike <;> rfl

theorem resolve_shuffles {files later : FileTree} (shuffles : files.Shuffles later) (folder : Path)
    (entries : List Entry) : resolve files folder entries = resolve later folder entries := by
  induction entries generalizing folder with
  | nil => rfl
  | cons entry rest ih =>
    cases entry with
    | folder line fragment => exact ih _
    | path line text =>
      rw [resolve, resolve, resolvePath, resolvePath, expand_shuffles shuffles,
        isFolder_shuffles shuffles, ih]

theorem readBlocks_shuffles {files later : FileTree} (shuffles : files.Shuffles later)
    (parent : Path) (blocks : List Block) :
    readBlocks files parent blocks = readBlocks later parent blocks := by
  induction blocks with
  | nil => rfl
  | cons block rest ih => rw [readBlocks, readBlocks, resolve_shuffles shuffles, ih]

theorem parse_shuffles {files later : FileTree} (shuffles : files.Shuffles later) (parent : Path)
    (tokens : List Token) : parse files parent tokens = parse later parent tokens := by
  rw [parse, parse, readBlocks_shuffles shuffles]

end Manifest

end AssetPack

import Mathlib.Data.String.Basic
import Mathlib.Tactic.Choose
import AssetPack.Proofs.Manifest.Reordering

/-! What is listed below a folder: which of its entries, and in which order. -/

namespace AssetPack

namespace Attempt
variable {ε α β : Type}

theorem value_mapM {items : List α} {f : α → Attempt ε β} {g : α → β}
    (each : ∀ item ∈ items, (f item).run.value = .ok (g item)) :
    (items.mapM f).run.value = .ok (items.map g) := by
  induction items with
  | nil => rfl
  | cons item items ih =>
    rw [List.forall_mem_cons] at each
    rw [List.mapM_cons, value_bind, each.1]
    dsimp only
    rw [value_bind, ih each.2]
    rfl

end Attempt

namespace Manifest
open Folder FileTree Attempt

theorem isTooLong_joinAll {path : Path} {place : Place} (proper : ∀ name ∈ place, Path.IsName name)
    (long : isTooLong path = true) : isTooLong (path.joinAll place) = true :=
  decide_eq_true (Nat.le_trans (of_decide_eq_true long) (Path.utf8ByteSize_le_joinAll path proper))

/-! Which entries are listed. -/

/-- The places below a folder which are listed: files, and folders with a path which is too long to
be looked at. Only below other folders are more. -/
inductive Listed : Path → Folder → Place → Prop
  | leaf {dir : Path} {here : Folder} {name : String} {content : Leaf}
    (found : here.get? name = some (.leaf content)) : Listed dir here [name]
  | folder {dir : Path} {here inner : Folder} {name : String}
    (found : here.get? name = some (.folder inner))
    (long : isTooLong (dir.join ⟨name⟩) = true) : Listed dir here [name]
  | inside {dir : Path} {here inner : Folder} {name : String} {place : Place}
    (found : here.get? name = some (.folder inner))
    (short : isTooLong (dir.join ⟨name⟩) = false)
    (listed : Listed (dir.join ⟨name⟩) inner place) : Listed dir here (name :: place)

/-- No folder below has a path which is too long. -/
def NoneLong (dir : Path) (here : Folder) : Prop :=
  ∀ place inner, place ≠ [] → here.node? place = some (.folder inner) →
    isTooLong (dir.joinAll place) = false

/-- No folder below has a path which is too long, also of those which can not be listed. -/
def ShortFolders (dir : Path) (here : Folder) : Prop :=
  ∀ place node, place ≠ [] → here.node? place = some node → node.isFolder = true →
    isTooLong (dir.joinAll place) = false

/-- All folders below which can not be listed have a path which is too long. -/
def Listable (dir : Path) (here : Folder) : Prop :=
  ∀ place reason, here.node? place = some (.leaf (.sealed reason)) →
    isTooLong (dir.joinAll place) = true

section listed
variable {dir : Path} {here : Folder} {name : String} {place : Place}

theorem not_listed_nil : ¬ Listed dir here [] := by
  intro listed
  cases listed

theorem listed_leaf_iff {content : Leaf} (found : here.get? name = some (.leaf content)) :
    Listed dir here (name :: place) ↔ place = [] := by
  constructor
  · intro listed
    cases listed with
    | leaf | folder => rfl
    | inside other => cases found.symm.trans other
  · rintro rfl
    exact .leaf found

theorem listed_folder_iff {inner : Folder} (found : here.get? name = some (.folder inner)) :
    Listed dir here (name :: place) ↔
      if isTooLong (dir.join ⟨name⟩) = true then place = []
      else Listed (dir.join ⟨name⟩) inner place := by
  cases long : isTooLong (dir.join ⟨name⟩) with
  | true =>
    rw [if_pos rfl]
    constructor
    · intro listed
      cases listed with
      | leaf | folder => rfl
      | inside other short => cases long.symm.trans short
    · rintro rfl
      exact .folder found long
  | false =>
    rw [if_neg Bool.false_ne_true]
    constructor
    · intro listed
      cases listed with
      | leaf other => cases found.symm.trans other
      | folder other long' => cases long.symm.trans long'
      | inside other short listed =>
        cases found.symm.trans other
        exact listed
    · exact .inside found long

theorem exists_get?_of_listed (listed : Listed dir here place) :
    ∃ name more node, place = name :: more ∧ here.get? name = some node := by
  cases listed with
  | leaf found | folder found | inside found => exact ⟨_, _, _, rfl, found⟩

/-- Without such folders, the files are what is listed. -/
theorem listed_iff_leaf (short : NoneLong dir here) :
    Listed dir here place ↔ ∃ content, here.node? place = some (.leaf content) := by
  induction place generalizing dir here with
  | nil =>
    refine iff_of_false not_listed_nil ?_
    rintro ⟨content, ⟨⟩⟩
  | cons name place ih =>
    rw [node?]
    cases found : here.get? name with
    | none =>
      constructor
      · intro listed
        obtain ⟨_, _, node, same, there⟩ := exists_get?_of_listed listed
        cases same
        cases found.symm.trans there
      · rintro ⟨content, ⟨⟩⟩
    | some node =>
      cases node with
      | leaf content =>
        rw [listed_leaf_iff found]
        dsimp only
        split
        · rename_i last
          exact iff_of_true last ⟨content, rfl⟩
        · rename_i more
          refine iff_of_false more ?_
          rintro ⟨content, ⟨⟩⟩
      | folder inner =>
        have first : isTooLong (dir.join ⟨name⟩) = false :=
          short [name] inner (List.cons_ne_nil _ _) (node?_singleton here name ▸ found)
        rw [listed_folder_iff found, if_neg (first ▸ Bool.false_ne_true)]
        refine ih fun more middle _ there => short (name :: more) middle
          (List.cons_ne_nil _ _) ?_
        rw [node?, found]
        exact there

/-- On the way to a folder whose path is too long, the first such folder is listed itself. -/
theorem exists_listed_folder {node : Node} (deep : place ≠ [])
    (found : here.node? place = some node) (folder : node.isFolder = true)
    (long : isTooLong (dir.joinAll place) = true) : ∃ above other,
      Listed dir here above ∧ here.node? above = some other ∧ other.isFolder = true := by
  induction place generalizing dir here with
  | nil => exact absurd rfl deep
  | cons name place ih =>
    rcases node?_cons_cases found with ⟨inner, there, found⟩ | ⟨content, there, rfl, rfl⟩
    · cases first : isTooLong (dir.join ⟨name⟩) with
      | true => exact ⟨[name], _, .folder there first, node?_singleton here name ▸ there, rfl⟩
      | false =>
        have more : place ≠ [] := by
          rintro rfl
          cases first.symm.trans long
        obtain ⟨above, other, listed, last, folder⟩ := ih more found long
        refine ⟨name :: above, other, .inside there first listed, ?_, folder⟩
        rw [node?, there]
        exact last
    · exact ⟨[name], _, .leaf there, found, folder⟩

theorem Listable.inside {inner : Folder} (listable : Listable dir here)
    (found : here.get? name = some (.folder inner)) : Listable (dir.join ⟨name⟩) inner := by
  intro place reason there
  refine listable (name :: place) reason ?_
  rw [node?, found]
  exact there

theorem Listable.of_readable (dir : Path) (readable : here.Readable) : Listable dir here :=
  fun _ _ there => nomatch readable.isSealed_of_node? there

theorem NoneLong.shortFolders (readable : here.Readable) (short : NoneLong dir here) :
    ShortFolders dir here := by
  intro place node deep there folder
  cases node with
  | leaf content => cases folder.symm.trans (readable.isSealed_of_node? there)
  | folder inner => exact short place inner deep there

/-- Where all entries can be listed, all files are if and only if no folder has a path which is too
long. -/
theorem listed_iff_isFile (listable : Listable dir here) :
    (∀ place, Listed dir here place ↔ here.IsFile place) ↔ ShortFolders dir here := by
  constructor
  · intro files place node deep there folder
    by_contra long
    obtain ⟨above, other, listed, found, folder⟩ :=
      exists_listed_folder deep there folder (Bool.not_eq_false _ ▸ long)
    obtain ⟨last, found', file⟩ := (files above).1 listed
    cases found.symm.trans found'
    cases folder.symm.trans file
  · intro short place
    have noneLong : NoneLong dir here := fun place inner deep there => short place _ deep there rfl
    rw [listed_iff_leaf noneLong]
    constructor
    · rintro ⟨content, there⟩
      refine ⟨_, there, ?_⟩
      have deep : place ≠ [] := by
        rintro rfl
        cases there
      cases content with
      | sealed reason => cases (short place _ deep there rfl).symm.trans (listable place _ there)
      | file | full => rfl
    · rintro ⟨node, there, file⟩
      cases node with
      | leaf content => exact ⟨content, there⟩
      | folder inner => cases file

end listed

/-- The paths which are found are those to some places below a folder, in strict order. -/
def Yields (found : Found) (dir : Path) (listed : Place → Prop) : Prop :=
  ∃ places : List Place, found.run.value = .ok (places.map dir.joinAll) ∧
    places.Pairwise (· < ·) ∧ ∀ place, place ∈ places ↔ listed place

theorem yields_file {dir : Path} {here : Folder} {name : String}
    (only : ∀ place, Listed dir here (name :: place) ↔ place = []) :
    Yields (file dir (dir.join ⟨name⟩)) dir
      fun place => Listed dir here place ∧ place.head? = some name := by
  refine ⟨[[name]], rfl, List.pairwise_singleton _ _, fun place => ?_⟩
  rw [List.mem_singleton]
  constructor
  · rintro rfl
    exact ⟨(only []).2 rfl, rfl⟩
  · rintro ⟨listed, first⟩
    obtain ⟨more, rfl⟩ := List.head?_eq_some_iff.1 first
    rw [(only more).1 listed]

/-- What is found at one entry, if what is in it is found. -/
theorem yields_foundAt {dir : Path} {here : Folder} {name : String} {node : Node}
    (listable : Listable dir here) (there : here.get? name = some node)
    (inside : ∀ inner, node = .folder inner → Yields
      (visit (dir.join ⟨name⟩) (below (dir.join ⟨name⟩) inner)) (dir.join ⟨name⟩)
        (Listed (dir.join ⟨name⟩) inner)) :
    Yields (foundAt dir name node) dir
      fun place => Listed dir here place ∧ place.head? = some name := by
  cases node with
  | leaf content =>
    have single (place : Place) : Listed dir here (name :: place) ↔ place = [] :=
      listed_leaf_iff there
    cases content with
    | sealed reason =>
      have long : isTooLong (dir.join ⟨name⟩) = true :=
        listable [name] reason (node?_singleton here name ▸ there)
      rw [foundAt, if_pos long]
      exact yields_file single
    | file | full => exact yields_file single
  | folder inner =>
    rw [foundAt]
    cases long : isTooLong (dir.join ⟨name⟩) with
    | true =>
      rw [if_pos rfl]
      refine yields_file fun place => ?_
      rw [listed_folder_iff there, if_pos long]
    | false =>
      rw [if_neg Bool.false_ne_true]
      have below (place : Place) : Listed dir here (name :: place) ↔
          Listed (dir.join ⟨name⟩) inner place := by
        rw [listed_folder_iff there, if_neg (long ▸ Bool.false_ne_true)]
      obtain ⟨places, value, sorted, complete⟩ := inside inner rfl
      refine ⟨places.map (name :: ·), ?_, ?_, fun place => ?_⟩
      · rw [value, List.map_map]
        rfl
      · exact List.pairwise_map.2 (sorted.imp .cons)
      · rw [List.mem_map]
        constructor
        · rintro ⟨more, mem, rfl⟩
          exact ⟨(below more).2 ((complete more).1 mem), rfl⟩
        · rintro ⟨listed, first⟩
          obtain ⟨more, rfl⟩ := List.head?_eq_some_iff.1 first
          exact ⟨more, (complete more).2 ((below more).1 listed), rfl⟩

/-- Everything below a folder which is to be listed is listed, each entry once. -/
theorem yields_visit {dir : Path} {here : Folder} (named : here.Named)
    (listable : Listable dir here) : Yields (visit dir (below dir here)) dir (Listed dir here) := by
  induction here using inside_induction generalizing dir with
  | step here ih =>
    have perm := List.mergeSort_perm here.entries byName
    have each : ∀ entry ∈ here.entries.mergeSort byName, Yields (foundAt dir entry.1 entry.2) dir
        fun place => Listed dir here place ∧ place.head? = some entry.1 := by
      rintro ⟨name, node⟩ mem
      have mem := perm.mem_iff.1 mem
      have there := named.mem_entries_iff.1 mem
      refine yields_foundAt listable there ?_
      rintro inner rfl
      exact ih name inner mem (named.inside there) (listable.inside there)
    choose! places value sorted complete using each
    refine ⟨(here.entries.mergeSort byName).flatMap places, ?_, ?_, fun place => ?_⟩
    · rw [value_visit_below, value_mapM value, List.map_flatMap]
      rfl
    · refine List.pairwise_flatMap.2 ⟨sorted, ?_⟩
      refine (strict_byName named.nodup).imp_of_mem ?_
      intro a b memA memB less x memX y memY
      obtain ⟨more, rfl⟩ := List.head?_eq_some_iff.1 ((complete a memA x).1 memX).2
      obtain ⟨more', rfl⟩ := List.head?_eq_some_iff.1 ((complete b memB y).1 memY).2
      exact .rel less
    · rw [List.mem_flatMap]
      constructor
      · rintro ⟨entry, mem, listed⟩
        exact ((complete entry mem place).1 listed).1
      · intro listed
        obtain ⟨name, more, node, rfl, there⟩ := exists_get?_of_listed listed
        have mem := perm.mem_iff.2 (named.mem_entries_iff.2 there)
        exact ⟨(name, node), mem, (complete _ mem _).2 ⟨listed, rfl⟩⟩

/-- The entries below a folder can be listed if all those folders can which are looked at. -/
theorem succeeds_visit_below {dir : Path} {here : Folder} (named : here.Named) :
    Succeeds (visit dir (below dir here)) ↔ Listable dir here := by
  constructor
  · intro listed place reason there
    induction place generalizing dir here with
    | nil => cases there
    | cons name place ih =>
      have names := named.isName_of_node? there
      rw [List.forall_mem_cons] at names
      rw [succeeds_visit, below_eq, List.forall_mem_map] at listed
      rcases node?_cons_cases there with ⟨inner, found, there⟩ | ⟨content, found, rfl, same⟩
      · have first := listed _ (mem_entries_of_get? found)
        dsimp only [foundAt] at first
        cases long : isTooLong (dir.join ⟨name⟩) with
        | true =>
          change isTooLong ((dir.join ⟨name⟩).joinAll place) = true
          exact isTooLong_joinAll names.2 long
        | false =>
          rw [if_neg (long ▸ Bool.false_ne_true)] at first
          exact ih (named.inside found) first there
      · cases same
        have first := listed _ (mem_entries_of_get? found)
        dsimp only [foundAt] at first
        by_contra short
        have short : ¬ isTooLong (dir.join ⟨name⟩) = true := short
        rw [if_neg short] at first
        obtain ⟨_, ⟨⟩⟩ := first
  · intro listable
    obtain ⟨places, value, -⟩ := yields_visit named listable
    exact ⟨_, value⟩

/-! Folders in a section. -/

theorem value_resolve_append (files : FileTree) (folder : Path) (before after : List Entry) :
    (resolve files folder (before ++ after)).value =
      let first := (resolve files folder before).value
      let rest := (resolve files first.folder after).value
      ⟨rest.folder, first.assets ++ rest.assets, first.errors + rest.errors⟩ := by
  induction before generalizing folder with
  | nil => exact (congrArg (Contents.mk _ _) (Nat.zero_add _)).symm
  | cons entry before ih =>
    cases entry with
    | folder line fragment => exact ih _
    | path line text =>
      rw [List.cons_append, value_resolve_path, value_resolve_path, ih]
      simp only [List.append_assoc, Nat.add_assoc]

theorem Listed.exists_node? {dir : Path} {here : Folder} {place : Place}
    (listed : Listed dir here place) : ∃ node, here.node? place = some node := by
  induction listed with
  | leaf found | folder found => exact ⟨_, (node?_singleton _ _).trans found⟩
  | inside found short listed ih =>
    obtain ⟨node, there⟩ := ih
    refine ⟨node, ?_⟩
    rw [node?, found]
    exact there

/-- Paths to places in strict order are in the order of paths. -/
theorem precedes_of_sorted {dir : Path} {here : Folder} (named : here.Named) {places : List Place}
    (sorted : places.Pairwise (· < ·)) (listed : ∀ place ∈ places, Listed dir here place) :
    (places.map dir.joinAll).Pairwise Path.Precedes := by
  have proper : ∀ place ∈ places, ∀ name ∈ place, Path.IsName name := by
    intro place mem
    obtain ⟨node, there⟩ := (listed place mem).exists_node?
    exact named.isName_of_node? there
  refine List.pairwise_map.2 (sorted.imp_of_mem ?_)
  intro place other mem mem' less
  exact Path.precedes_joinAll dir (proper place mem) (proper other mem') less

/-- What a path lists which leads to a folder. -/
structure Walk (files : FileTree) (path : Path) (here : Folder) (places : List Place) : Prop where
  found : (expand files path).run.value = .ok (places.map path.joinAll)
  nodup : (places.map path.joinAll).Nodup
  sorted : (places.map path.joinAll).Pairwise Path.Precedes
  listed : ∀ place, place ∈ places ↔ Listed path here place
  /-- These are all files at any depth and nothing else if and only if no folder has a path which is
  too long. -/
  onlyFiles : (∀ place, place ∈ places ↔ ∃ content, here.node? place = some (.leaf content)) ↔
    NoneLong path here
  /-- In a section they stand between what is listed before and after. -/
  appended : ∀ folder before line text after,
    (resolve files folder before).value.folder.join ⟨text⟩ = path →
      (resolve files folder (before ++ .path line text :: after)).value.assets =
        (resolve files folder before).value.assets ++ (places.map path.joinAll ++
          (resolve files (resolve files folder before).value.folder after).value.assets)
  /-- The order in which the system lists entries changes nothing. -/
  shuffled : ∀ later, files.Shuffles later →
    ∀ parent tokens, parse later parent tokens = parse files parent tokens

theorem walk_folder {files : FileTree} {path : Path} {here : Folder} (named : files.root.Named)
    (found : files.find path = .ok (.folder here)) (readable : here.Readable) :
    ∃ places, Walk files path here places := by
  have inside : here.Named := named.below (find_eq_ok.1 found).2.2
  obtain ⟨places, value, sorted, complete⟩ := yields_visit inside (.of_readable path readable)
  have value : (expand files path).run.value = .ok (places.map path.joinAll) := by
    rw [expand_folder found, value]
  have precedes := precedes_of_sorted inside sorted fun place mem => (complete place).1 mem
  refine ⟨places, value, precedes.imp Path.Precedes.ne, precedes, complete, ?_, ?_, ?_⟩
  · constructor
    · intro files place inner deep there
      by_contra long
      obtain ⟨above, other, listed, last, folder⟩ :=
        exists_listed_folder deep there rfl (Bool.not_eq_false _ ▸ long)
      obtain ⟨content, leaf⟩ := (files above).1 ((complete above).2 listed)
      cases last.symm.trans leaf
      cases folder.symm.trans (readable.isSealed_of_node? leaf)
    · intro short place
      rw [complete, listed_iff_leaf short]
  · rintro folder before line text after rfl
    rw [value_resolve_append]
    dsimp only
    rw [value_resolve_path, value_resolvePath, value]
  · exact fun later shuffles parent tokens => (parse_shuffles shuffles parent tokens).symm

/-- A folder `b` and a file whose name starts like the one of the folder. -/
def album : Folder :=
  .leaf "b.png" (.file []) (.folder "e" .empty (.folder "b" (.leaf "x" (.file []) .empty) .empty))

def albumFiles : FileTree := ⟨.folder "a" album .empty, []⟩

theorem walk_folder_album : albumFiles.root.Named ∧
    albumFiles.find ⟨"a"⟩ = .ok (.folder album) ∧ album.Readable ∧
    ∃ places : List Place, places.map (Path.joinAll ⟨"a"⟩) = [⟨"a/b/x"⟩, ⟨"a/b.png"⟩] ∧
      Walk albumFiles ⟨"a"⟩ album places := by
  have named : albumFiles.root.Named := by decide
  have found : albumFiles.find ⟨"a"⟩ = .ok (.folder album) := by decide +kernel
  have readable : album.Readable := by decide
  obtain ⟨places, walk⟩ := walk_folder named found readable
  have listed : (expand albumFiles ⟨"a"⟩).run.value = .ok [⟨"a/b/x"⟩, ⟨"a/b.png"⟩] := by
    have sorted : album.entries.mergeSort byName = [("b", .folder (.leaf "x" (.file []) .empty)),
        ("b.png", .leaf (.file [])), ("e", .folder .empty)] :=
      mergeSort_eq (by decide) (by decide)
    rw [expand_folder found, value_visit_below, sorted]
    decide +kernel
  exact ⟨named, found, readable, places, Except.ok.inj (walk.found.symm.trans listed), walk⟩

/-! A path can be too long although it leads to a folder. -/

/-- The folder `a`, with a slash and more of them behind its name. -/
def slashed (more : Nat) : Path := ⟨String.ofList ('a' :: List.replicate (more + 1) '/')⟩

def deepFolder : Folder := .folder "b" (.leaf "x" (.file []) .empty) .empty

def deepFiles : FileTree := ⟨.folder "a" deepFolder .empty, []⟩

section slashed
variable (more : Nat)

theorem pieces_slashed :
    Path.pieces (slashed more).text.toList = ['a'] :: List.replicate (more + 1) [] := by
  have slashes (count : Nat) :
      Path.pieces (List.replicate count '/') = [] :: List.replicate count [] := by
    induction count with
    | zero => rfl
    | succ count ih =>
      rw [List.replicate_succ, Path.pieces, if_pos rfl, ih]
      rfl
  rw [slashed, String.toList_ofList, Path.pieces, if_neg (by decide), slashes]

theorem size_slashed : (slashed more).text.utf8ByteSize = more + 2 := by
  have slashes (count : Nat) : String.utf8Len (List.replicate count '/') = count := by
    induction count with
    | zero => rfl
    | succ count ih =>
      rw [List.replicate_succ, String.utf8Len, ih]
      rfl
  rw [slashed, String.utf8ByteSize_ofList, String.utf8Len, slashes]
  rfl

theorem text_join_slashed : ((slashed more).join ⟨"b"⟩).text = (slashed more).text ++ "b" := by
  have slash : (slashed more).text.toList.getLast? = some '/' := by
    rw [slashed, String.toList_ofList, List.replicate_succ', ← List.cons_append,
      List.getLast?_concat]
  rw [Path.join, if_neg (by decide), if_pos (.inr slash)]

theorem follow_blank {root inner : Folder} {place : Place}
    (found : root.node? place = some (.folder inner)) (count : Nat) :
    follow root place (List.replicate count []) = .ok place := by
  induction count with
  | zero => rfl
  | succ count ih =>
    rw [List.replicate_succ, follow, found]
    exact ih

theorem join_slashed : Path.join ⟨""⟩ (slashed more) = slashed more := by
  rw [Path.join]
  split
  · rfl
  · rw [if_pos (.inl rfl), String.empty_append]

variable {more}

theorem find_slashed (short : more + 2 < pathLimit) :
    deepFiles.find (slashed more) = .ok (.folder deepFolder) := by
  have checked : check (slashed more) = .ok () := by
    have plain : (slashed more).text.toList.contains '\x00' = false := by
      rw [slashed, String.toList_ofList, List.contains_eq_mem, decide_eq_false_iff_not,
        List.mem_cons, List.mem_replicate]
      rintro (same | ⟨-, same⟩) <;> cases same
    have visible : (slashed more).text ≠ "" := by
      rw [slashed, ← String.toList_inj.ne, String.toList_ofList]
      exact List.cons_ne_nil _ _
    have fits : isTooLong (slashed more) = false := by
      rw [isTooLong, size_slashed]
      exact decide_eq_false (Nat.not_le_of_lt short)
    rw [check, plain, if_neg Bool.false_ne_true, if_neg visible, fits, if_neg Bool.false_ne_true]
  have relative : deepFiles.start (slashed more) = [] := ite_self _
  have way : follow deepFiles.root [] (['a'] :: List.replicate (more + 1) []) = .ok ["a"] := by
    rw [follow_cons]
    have there : deepFiles.root.node? ["a"] = some (.folder deepFolder) := rfl
    exact follow_blank there _
  rw [find, checked, relative, pieces_slashed]
  change Except.bind (follow deepFiles.root [] _) _ = _
  rw [way]
  rfl

theorem expand_slashed (short : more + 2 < pathLimit) (long : pathLimit ≤ more + 3) :
    (expand deepFiles (slashed more)).run.value = .ok [(slashed more).joinAll ["b"]] := by
  have long : isTooLong ((slashed more).join ⟨"b"⟩) = true := by
    rw [isTooLong, text_join_slashed, String.utf8ByteSize_append, size_slashed]
    exact decide_eq_true long
  have single : deepFolder.entries.mergeSort byName =
      [("b", .folder (.leaf "x" (.file []) .empty))] := List.mergeSort_singleton _
  rw [expand_folder (find_slashed short), value_visit_below, single, List.mapM_cons, value_bind,
    foundAt, if_pos long]
  rfl

theorem meaning_slashed (short : more + 2 < pathLimit) (long : pathLimit ≤ more + 3) :
    meaning deepFiles ⟨""⟩ [⟨.sectionMark, 1⟩, ⟨.literal "texture", 1⟩,
        ⟨.literal (slashed more).text, 2⟩] =
      .ok ⟨⟨""⟩, [⟨.texture, ⟨""⟩, [(slashed more).joinAll ["b"]]⟩]⟩ := by
  have listed : (expand deepFiles (Path.join ⟨""⟩ (slashed more))).run.value =
      .ok [(slashed more).joinAll ["b"]] := by
    rw [join_slashed, expand_slashed short long]
  have resolved : (resolve deepFiles ⟨""⟩ [.path 2 (slashed more).text]).value =
      ⟨⟨""⟩, [(slashed more).joinAll ["b"]], 0⟩ := by
    rw [value_resolve_path, value_resolvePath, listed]
    rfl
  have read : (readBlocks deepFiles ⟨""⟩
      [⟨1, "texture", [.path 2 (slashed more).text]⟩]).value =
        ([⟨.texture, ⟨""⟩, [(slashed more).joinAll ["b"]]⟩], 0) := by
    have known : typeOfKeyword? "texture" = some .texture := by decide
    simp only [readBlocks, known, Logged.value_bind, resolved, Logged.value_pure]
  have outlined : outline [⟨.sectionMark, 1⟩, ⟨.literal "texture", 1⟩,
      ⟨.literal (slashed more).text, 2⟩] =
        ⟨[], [⟨1, "texture", [.path 2 (slashed more).text]⟩], none⟩ := rfl
  rw [meaning_eq, outlined, errorsIn, read]
  rfl

/-- The file is not the folder. -/
theorem joinAll_ne (path : Path) : path.joinAll ["b", "x"] ≠ path.joinAll ["b"] := by
  intro same
  have lengths := congrArg (fun path => path.components.length) same
  rw [Path.components_joinAll _ (by decide), Path.components_joinAll _ (by decide),
    List.length_append, List.length_append] at lengths
  exact absurd (Nat.add_left_cancel lengths) (by decide)

end slashed

/-- A folder whose path has as many bytes as are still short enough. The folder in it is listed
itself, and the file in that is not. -/
theorem meaning_deepFiles :
    deepFiles.root.Named ∧ deepFiles.find (slashed 4093) = .ok (.folder deepFolder) ∧
    deepFolder.Readable ∧ deepFolder.node? ["b"] = some (.folder (.leaf "x" (.file []) .empty)) ∧
    meaning deepFiles ⟨""⟩ [⟨.sectionMark, 1⟩, ⟨.literal "texture", 1⟩,
        ⟨.literal (slashed 4093).text, 2⟩] =
      .ok ⟨⟨""⟩, [⟨.texture, ⟨""⟩, [(slashed 4093).joinAll ["b"]]⟩]⟩ ∧
    ¬ ∀ path, path ∈ [(slashed 4093).joinAll ["b"]] ↔ ∃ place content,
      deepFolder.node? place = some (.leaf content) ∧ path = (slashed 4093).joinAll place := by
  have short : 4093 + 2 < pathLimit := by decide
  have long : pathLimit ≤ 4093 + 3 := by decide
  refine ⟨by decide, find_slashed short, by decide, rfl, meaning_slashed short long, ?_⟩
  intro files
  have mem := (files ((slashed 4093).joinAll ["b", "x"])).2 ⟨["b", "x"], .file [], rfl, rfl⟩
  exact joinAll_ne _ (List.mem_singleton.1 mem)

end Manifest

end AssetPack

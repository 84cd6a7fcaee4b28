import Mathlib.Data.List.Forall2
import AssetPack.Proofs.Manifest.Reloading
import AssetPack.Proofs.Manifest.Walking

/-! What a manifest lists, from where its words stand. A section is what follows its heading, up to
the next one, and a path starts from the folders which are named before it in its section. -/

namespace AssetPack.Manifest
open Attempt Folder

namespace Token

def isHeading (token : Token) : Bool := token.kind = .sectionMark

def isFolderMark (token : Token) : Bool := token.kind = .folderMark

/-- Comments and the end of the text say nothing. -/
def isWord (token : Token) : Bool := token.kind ≠ .comment ∧ token.kind ≠ .endOfText

def literal? (token : Token) : Option String :=
  match token.kind with
  | .literal text => some text
  | _ => none

end Token

/-- What stands above the first heading, and then what follows each one. -/
def stretches (tokens : List Token) : List (List Token) := tokens.splitOnP Token.isHeading

/-- The names of the folders: the literals directly after a mark. -/
def fragments (tokens : List Token) : List String :=
  (tokens.zip tokens.tail).filterMap fun (mark, word) =>
    if mark.isFolderMark then word.literal? else none

/-- The folder to which some tokens of a section lead. -/
def folderAfter (parent : Path) (tokens : List Token) : Path :=
  (fragments tokens).foldl (fun folder fragment => folder.join ⟨fragment⟩) parent

/-- Whether a literal which follows the tokens names a folder. -/
def Marked (tokens : List Token) : Prop := tokens.getLast?.any Token.isFolderMark = true

instance (tokens : List Token) : Decidable (Marked tokens) := inferInstanceAs (Decidable (_ = _))

/-- The path which a token names after others of its section. -/
def pathAt? (parent : Path) (before : List Token) (token : Token) : Option Path :=
  if Marked before then none
  else token.literal?.map fun text => (folderAfter parent before).join ⟨text⟩

/-- The paths which some tokens name after others of their section. -/
def namedPaths (parent : Path) (before : List Token) : List Token → List Path
  | [] => []
  | token :: rest =>
    (pathAt? parent before token).toList ++ namedPaths parent (before ++ [token]) rest

/-- The paths which are named in the sections. -/
def listedPaths (parent : Path) (tokens : List Token) : List Path :=
  (stretches tokens).tail.flatMap fun words => namedPaths parent [] words.tail

/-- All files are listed, at any depth. -/
def AllFiles (_ : Path) (here : Folder) (place : Place) : Prop := here.IsFile place

/-- What a path stands for, if some places below a folder are listed: the paths to these places,
each of them once and in strict order, if the path leads to a folder, and itself if it does not. -/
def StandsFor (files : FileTree) (listed : Path → Folder → Place → Prop) (path : Path)
    (found : List Path) : Prop :=
  if files.isFolder path = true then
    ∃ (here : Folder) (places : List Place), files.find path = .ok (.folder here) ∧
      found = places.map path.joinAll ∧ found.Pairwise Path.Precedes ∧
        ∀ place, place ∈ places ↔ listed path here place
  else found = [path]

/-- Below the folder to which the path leads, if it leads to one, no folder has a path which is too
long to be looked at. -/
def ShortBelow (files : FileTree) (path : Path) : Prop :=
  ∀ here, files.find path = .ok (.folder here) → ShortFolders path here

/-- What a path is expanded to. These are all files if and only if no folder has a path which is too
long. -/
structure Expands (files : FileTree) (path : Path) (found : List Path) : Prop where
  listed : StandsFor files Listed path found
  allFiles : StandsFor files AllFiles path found ↔ ShortBelow files path

/-- What a section lists, from what follows its heading and what each path stands for. -/
structure Lists (stands : Path → List Path → Prop) (parent : Path) (words : List Token)
    (listed : Section) : Prop where
  type : ∃ keyword, words.head?.bind Token.literal? = some keyword ∧
    typeOfKeyword? keyword = some listed.type
  folder : listed.folder = folderAfter parent words.tail
  assets : ∃ parts, List.Forall₂ stands (namedPaths parent [] words.tail) parts ∧
    listed.assets = parts.flatten

theorem Lists.imp {stands other : Path → List Path → Prop} {parent : Path} {words : List Token}
    {listed : Section}
    (weaker : ∀ path ∈ namedPaths parent [] words.tail, ∀ found, stands path found →
      other path found) (lists : Lists stands parent words listed) :
    Lists other parent words listed := by
  obtain ⟨parts, stand, assets⟩ := lists.assets
  have both := (List.forall₂_and_left (p := (· ∈ namedPaths parent [] words.tail)) _ _).2
    ⟨fun _ mem => mem, stand⟩
  exact ⟨lists.type, lists.folder, parts, both.imp fun path found h => weaker path h.1 found h.2,
    assets⟩

/-! Folders and paths. -/

theorem fragments_cons_cons (first second : Token) (rest : List Token) :
    fragments (first :: second :: rest) =
      (if first.isFolderMark then second.literal? else none).toList ++
        fragments (second :: rest) := by
  rw [fragments, List.tail_cons, List.zip_cons_cons, List.filterMap_cons]
  dsimp only
  split
  · rename_i none
    rw [none]
    rfl
  · rename_i text some
    rw [some]
    rfl

theorem fragments_concat (tokens : List Token) (token : Token) :
    fragments (tokens ++ [token]) =
      fragments tokens ++ if Marked tokens then token.literal?.toList else [] := by
  induction tokens with
  | nil => rfl
  | cons first rest ih =>
    cases rest with
    | nil =>
      have last : Marked [first] ↔ first.isFolderMark = true := Iff.rfl
      rw [List.singleton_append, fragments_cons_cons]
      simp only [last]
      cases first.isFolderMark <;> cases token.literal? <;> rfl
    | cons second rest =>
      have last : Marked (first :: second :: rest) ↔ Marked (second :: rest) := by
        rw [Marked, Marked, List.getLast?_cons_cons]
      rw [List.cons_append] at ih
      rw [List.cons_append, List.cons_append, fragments_cons_cons, fragments_cons_cons, ih,
        List.append_assoc]
      simp only [last]

theorem not_marked_concat {token : Token} (plain : token.isFolderMark = false)
    (tokens : List Token) : ¬ Marked (tokens ++ [token]) := by
  rw [Marked, List.getLast?_concat, Option.any_some, plain]
  exact Bool.false_ne_true

theorem marked_folderMark (tokens : List Token) (line : UInt32) :
    Marked (tokens ++ [⟨.folderMark, line⟩]) := by
  rw [Marked, List.getLast?_concat]
  rfl

section folder
variable {before : List Token} (parent : Path)

theorem folderAfter_concat (plain : ¬ Marked before) (token : Token) :
    folderAfter parent (before ++ [token]) = folderAfter parent before := by
  rw [folderAfter, fragments_concat, if_neg plain, List.append_nil, folderAfter]

theorem folderAfter_folder (plain : ¬ Marked before) (line place : UInt32) (fragment : String) :
    folderAfter parent (before ++ [⟨.folderMark, line⟩] ++ [⟨.literal fragment, place⟩]) =
      (folderAfter parent before).join ⟨fragment⟩ := by
  rw [folderAfter, fragments_concat, if_pos (marked_folderMark before line), fragments_concat,
    if_neg plain, List.append_nil, List.foldl_append]
  rfl

end folder

/-- The entries of a section say what its tokens say, whatever stands before them. -/
structure Covers (words : List Token) (entries : List Entry) : Prop where
  paths : ∀ parent before, ¬ Marked before →
    pathsFrom (folderAfter parent before) entries = namedPaths parent before words
  folder : ∀ files parent before, ¬ Marked before →
    (resolve files (folderAfter parent before) entries).value.folder =
      folderAfter parent (before ++ words)
  length : ∀ parent before, ¬ Marked before → entries.length =
    words.countP Token.isFolderMark + (namedPaths parent before words).length

namespace Covers
variable {words : List Token} {entries : List Entry}

theorem nil : Covers [] [] where
  paths _ _ _ := rfl
  folder _ _ before _ := by
    rw [List.append_nil]
    rfl
  length _ _ _ := rfl

theorem of_folder (covers : Covers words entries) (line place : UInt32) (fragment : String) :
    Covers (⟨.folderMark, line⟩ :: ⟨.literal fragment, place⟩ :: words)
      (.folder line fragment :: entries) := by
  have named (parent : Path) {before : List Token} (plain : ¬ Marked before) :
      namedPaths parent before (⟨.folderMark, line⟩ :: ⟨.literal fragment, place⟩ :: words) =
        namedPaths parent (before ++ [⟨.folderMark, line⟩] ++ [⟨.literal fragment, place⟩])
          words := by
    rw [namedPaths, pathAt?, if_neg plain, namedPaths, pathAt?,
      if_pos (marked_folderMark before line)]
    rfl
  have literal (before : List Token) : ¬ Marked (before ++ [⟨.literal fragment, place⟩]) :=
    not_marked_concat rfl before
  constructor
  · intro parent before plain
    rw [named parent plain, ← covers.paths parent _ (literal _), folderAfter_folder parent plain]
    rfl
  · intro files parent before plain
    rw [List.append_cons, List.append_cons, ← covers.folder files parent _ (literal _),
      folderAfter_folder parent plain]
    rfl
  · intro parent before plain
    rw [named parent plain, List.length_cons, covers.length parent _ (literal _),
      List.countP_cons_of_pos rfl, List.countP_cons_of_neg Bool.false_ne_true, Nat.add_right_comm]

theorem of_path (covers : Covers words entries) (line : UInt32) (text : String) :
    Covers (⟨.literal text, line⟩ :: words) (.path line text :: entries) := by
  have named (parent : Path) {before : List Token} (plain : ¬ Marked before) :
      namedPaths parent before (⟨.literal text, line⟩ :: words) =
        (folderAfter parent before).join ⟨text⟩ ::
          namedPaths parent (before ++ [⟨.literal text, line⟩]) words := by
    rw [namedPaths, pathAt?, if_neg plain]
    rfl
  have literal (before : List Token) : ¬ Marked (before ++ [⟨.literal text, line⟩]) :=
    not_marked_concat rfl before
  constructor
  · intro parent before plain
    rw [named parent plain, ← covers.paths parent _ (literal _), folderAfter_concat parent plain]
    rfl
  · intro files parent before plain
    rw [List.append_cons, ← covers.folder files parent _ (literal _),
      folderAfter_concat parent plain]
    rfl
  · intro parent before plain
    rw [named parent plain, List.length_cons, covers.length parent _ (literal _),
      List.countP_cons_of_neg Bool.false_ne_true]
    rfl

/-- Tokens which are no words say nothing. -/
theorem of_wordless (covers : Covers words entries) {token : Token}
    (wordless : token.isFolderMark = false) (none : token.literal? = none) :
    Covers (token :: words) entries := by
  have named (parent : Path) {before : List Token} (plain : ¬ Marked before) :
      namedPaths parent before (token :: words) = namedPaths parent (before ++ [token]) words := by
    rw [namedPaths, pathAt?, if_neg plain, none]
    rfl
  have plain' (before : List Token) : ¬ Marked (before ++ [token]) :=
    not_marked_concat wordless before
  constructor
  · intro parent before plain
    rw [named parent plain, ← covers.paths parent _ (plain' _), folderAfter_concat parent plain]
  · intro files parent before plain
    rw [List.append_cons, ← covers.folder files parent _ (plain' _),
      folderAfter_concat parent plain]
  · intro parent before plain
    rw [named parent plain, covers.length parent _ (plain' _),
      List.countP_cons_of_neg (wordless ▸ Bool.false_ne_true)]

end Covers

/-! Headings. -/

theorem stretches_heading (line : UInt32) (tokens : List Token) :
    stretches (⟨.sectionMark, line⟩ :: tokens) = [] :: stretches tokens := by
  have heading : Token.isHeading ⟨.sectionMark, line⟩ = true := rfl
  rw [stretches, List.splitOnP_cons_eq_if_modifyHead, if_pos heading, stretches]

theorem stretches_cons {token : Token} {tokens first : List Token} {rest : List (List Token)}
    (inside : token.isHeading = false) (split : stretches tokens = first :: rest) :
    stretches (token :: tokens) = (token :: first) :: rest := by
  rw [stretches] at split
  rw [stretches, List.splitOnP_cons_eq_if_modifyHead, if_neg (inside ▸ Bool.false_ne_true), split,
    List.modifyHead_cons]

theorem length_stretches (tokens : List Token) :
    (stretches tokens).tail.length = tokens.countP Token.isHeading := by
  induction tokens with
  | nil => rfl
  | cons token tokens ih =>
    obtain ⟨first, rest, split⟩ := List.exists_cons_of_ne_nil
      (List.splitOnP_ne_nil Token.isHeading tokens)
    have split : stretches tokens = first :: rest := split
    rw [split, List.tail_cons] at ih
    cases inside : token.isHeading with
    | true =>
      rw [stretches, List.splitOnP_cons_eq_if_modifyHead, if_pos inside, ← stretches, split,
        List.countP_cons_of_pos inside, ← ih]
      rfl
    | false =>
      rw [stretches_cons inside split, List.countP_cons_of_neg (inside ▸ Bool.false_ne_true), ← ih]
      rfl

/-- A block says what follows its heading. -/
def Reads (words : List Token) (block : Block) : Prop :=
  ∃ line body, words = ⟨.literal block.keyword, line⟩ :: body ∧ Covers body block.entries

/-- An outline without a failure says what the stretches of its tokens say. -/
structure Divides (tokens : List Token) (outline : Outline) (first : List Token)
    (rest : List (List Token)) : Prop where
  split : stretches tokens = first :: rest
  loose : Covers first outline.loose
  blocks : List.Forall₂ Reads rest outline.blocks

theorem divides_outline {tokens : List Token} (sound : (outline tokens).failure = none) :
    ∃ first rest, Divides tokens (outline tokens) first rest := by
  fun_induction outline tokens with
  | case1 => exact ⟨[], [], rfl, .nil, .nil⟩
  | case2 line keyword place tokens ih =>
    obtain ⟨first, rest, divides⟩ := ih sound
    have split : stretches (⟨.literal keyword, place⟩ :: tokens) = _ :: rest :=
      stretches_cons rfl divides.split
    refine ⟨[], (⟨.literal keyword, place⟩ :: first) :: rest, ?_, .nil, ?_⟩
    · rw [stretches_heading, split]
    · exact .cons ⟨place, first, rfl, divides.loose⟩ divides.blocks
  | case3 line tokens bare => cases tokens <;> cases sound
  | case4 line fragment place tokens ih =>
    obtain ⟨first, rest, divides⟩ := ih sound
    have split : stretches (⟨.literal fragment, place⟩ :: tokens) = _ :: rest :=
      stretches_cons rfl divides.split
    exact ⟨_, rest, stretches_cons rfl split, divides.loose.of_folder line place fragment,
      divides.blocks⟩
  | case5 line tokens bare => cases tokens <;> cases sound
  | case6 text line tokens ih =>
    obtain ⟨first, rest, divides⟩ := ih sound
    exact ⟨_, rest, stretches_cons rfl divides.split, divides.loose.of_path line text,
      divides.blocks⟩
  | case7 line tokens ih | case8 line tokens ih =>
    obtain ⟨first, rest, divides⟩ := ih sound
    exact ⟨_, rest, stretches_cons rfl divides.split, divides.loose.of_wordless rfl rfl,
      divides.blocks⟩

/-- Without what is no word the outline is the same, if it has no failure. -/
theorem outline_filter {tokens : List Token} (sound : (outline tokens).failure = none) :
    outline (tokens.filter Token.isWord) = outline tokens := by
  fun_induction outline tokens with
  | case1 => rfl
  | case2 line keyword place tokens ih =>
    change (outline (tokens.filter Token.isWord)).heading line keyword = _
    rw [ih sound]
  | case3 line tokens bare => cases tokens <;> cases sound
  | case4 line fragment place tokens ih =>
    change (outline (tokens.filter Token.isWord)).entry (.folder line fragment) = _
    rw [ih sound]
  | case5 line tokens bare => cases tokens <;> cases sound
  | case6 text line tokens ih =>
    change (outline (tokens.filter Token.isWord)).entry (.path line text) = _
    rw [ih sound]
  | case7 line tokens ih | case8 line tokens ih => exact ih sound

/-! Sections. -/

section listed
variable {files : FileTree} {parent : Path}

/-- Places are told apart by the paths to them. -/
theorem joinAll_inj {here : Folder} (named : here.Named) (path : Path) {place other : Place}
    {node node' : Node} (found : here.node? place = some node)
    (found' : here.node? other = some node') (same : path.joinAll place = path.joinAll other) :
    place = other := by
  have components := congrArg Path.components same
  rw [Path.components_joinAll path (named.isName_of_node? found),
    Path.components_joinAll path (named.isName_of_node? found'), List.append_cancel_left_eq]
    at components
  exact List.map_injective_iff.2 (fun _ _ => Component.name.inj) components

theorem mem_of_map_joinAll {here : Folder} (named : here.Named) {path : Path}
    {places others : List Place} (there : ∀ place ∈ places, ∃ node, here.node? place = some node)
    (there' : ∀ place ∈ others, ∃ node, here.node? place = some node)
    (same : places.map path.joinAll = others.map path.joinAll) {place : Place}
    (mem : place ∈ places) : place ∈ others := by
  have mem' : path.joinAll place ∈ others.map path.joinAll := same ▸ List.mem_map_of_mem mem
  obtain ⟨other, mem', joined⟩ := List.mem_map.1 mem'
  obtain ⟨node, found⟩ := there place mem
  obtain ⟨node', found'⟩ := there' other mem'
  exact joinAll_inj named path found' found joined ▸ mem'

theorem standsFor_single {listed : Path → Folder → Place → Prop} {path : Path} {found : List Path}
    (single : files.isFolder path = false) :
    StandsFor files listed path found ↔ found = [path] := by
  rw [StandsFor, if_neg (single ▸ Bool.false_ne_true)]

theorem standsFor_folder {listed : Path → Folder → Place → Prop} {path : Path} {here : Folder}
    (there : files.find path = .ok (.folder here)) {found : List Path} :
    StandsFor files listed path found ↔ ∃ places : List Place, found = places.map path.joinAll ∧
      found.Pairwise Path.Precedes ∧ ∀ place, place ∈ places ↔ listed path here place := by
  rw [StandsFor, if_pos (isFolder_of_find there), there]
  constructor
  · rintro ⟨_, places, ⟨⟩, rest⟩
    exact ⟨places, rest⟩
  · rintro ⟨places, rest⟩
    exact ⟨here, places, rfl, rest⟩

theorem expands_single {path : Path} (single : files.isFolder path = false) :
    Expands files path [path] where
  listed := (standsFor_single single).2 rfl
  allFiles := iff_of_true ((standsFor_single single).2 rfl) fun here there => by
    cases single.symm.trans (isFolder_of_find there)

theorem expands_folder (named : files.root.Named) {path : Path} {here : Folder}
    (there : files.find path = .ok (.folder here)) {found : List Path}
    (listed : (visit path (below path here)).run.value = .ok found) :
    Expands files path found := by
  have inside : here.Named := named.below (FileTree.find_eq_ok.1 there).2.2
  have listable := (succeeds_visit_below inside).1 ⟨found, listed⟩
  obtain ⟨places, value, sorted, complete⟩ := yields_visit inside listable
  cases listed.symm.trans value
  have precedes := precedes_of_sorted inside sorted fun place mem => (complete place).1 mem
  refine ⟨(standsFor_folder there).2 ⟨places, rfl, precedes, complete⟩, ?_⟩
  have short : ShortBelow files path ↔ ShortFolders path here := by
    constructor
    · exact fun short => short here there
    · intro short _ there'
      cases there.symm.trans there'
      exact short
  rw [short, ← listed_iff_isFile listable, standsFor_folder there]
  have present : ∀ place ∈ places, ∃ node, here.node? place = some node := fun place mem =>
    ((complete place).1 mem).exists_node?
  constructor
  · rintro ⟨others, same, -, files⟩ place
    have present' : ∀ place ∈ others, ∃ node, here.node? place = some node := fun place mem =>
      ((files place).1 mem).imp fun _ found => found.1
    rw [← complete, ← AllFiles, ← files]
    exact ⟨mem_of_map_joinAll inside present present' same,
      mem_of_map_joinAll inside present' present same.symm⟩
  · intro files
    exact ⟨places, rfl, precedes, fun place => (complete place).trans (files place)⟩

theorem expands_of_expand (named : files.root.Named) {path : Path} {found : List Path}
    (listed : (expand files path).run.value = .ok found) : Expands files path found := by
  rcases expand_cases files path with ⟨single, value⟩ | ⟨reason, -, value⟩ | ⟨here, there⟩
  · cases value.symm.trans listed
    exact expands_single single
  · cases value.symm.trans listed
  · rw [expand_folder there] at listed
    exact expands_folder named there listed

/-- A section in which nothing fails lists what its paths stand for. -/
theorem assets_resolve (named : files.root.Named) {folder : Path} {entries : List Entry}
    (sound : (resolve files folder entries).value.errors = 0) :
    ∃ parts, List.Forall₂ (Expands files) (pathsFrom folder entries) parts ∧
      (resolve files folder entries).value.assets = parts.flatten := by
  induction entries generalizing folder with
  | nil => exact ⟨[], .nil, rfl⟩
  | cons entry rest ih =>
    cases entry with
    | folder line fragment => exact ih sound
    | path line text =>
      rw [value_resolve_path, value_resolvePath] at sound ⊢
      dsimp only at sound ⊢
      obtain ⟨first, others⟩ := Nat.add_eq_zero_iff.1 sound
      obtain ⟨parts, stand, assets⟩ := ih others
      cases listed : (expand files (folder.join ⟨text⟩)).run.value with
      | error reason =>
        rw [listed] at first
        cases first
      | ok found =>
        refine ⟨found :: parts, .cons (expands_of_expand named listed) stand, ?_⟩
        rw [assets, List.flatten_cons]

theorem lists_readBlocks (named : files.root.Named) {rest : List (List Token)}
    {blocks : List Block} (reads : List.Forall₂ Reads rest blocks)
    (sound : (readBlocks files parent blocks).value.2 = 0) :
    List.Forall₂ (Lists (Expands files) parent) rest (readBlocks files parent blocks).value.1 := by
  induction reads with
  | nil => exact .nil
  | @cons words block rest blocks first others ih =>
    obtain ⟨line, body, rfl, covers⟩ := first
    have plain : ¬ Marked [] := Bool.false_ne_true
    rw [readBlocks] at sound ⊢
    cases known : typeOfKeyword? block.keyword with
    | some type =>
      simp only [known, Logged.value_bind, Logged.value_pure] at sound ⊢
      obtain ⟨none, others⟩ := Nat.add_eq_zero_iff.1 sound
      obtain ⟨parts, stand, assets⟩ := assets_resolve named none
      refine .cons ⟨⟨block.keyword, rfl, known⟩, covers.folder files parent [] plain, parts, ?_,
        assets⟩ (ih others)
      rw [List.tail_cons, ← covers.paths parent [] plain]
      exact stand
    | none =>
      simp only [known, Logged.value_bind, Logged.value_pure] at sound
      cases sound

/-- A manifest which is accepted has one section for every heading, which lists what its own words
say. These are all files below the folders which are named, if no folder has a path which is too
long. What is no word can be left out. -/
theorem sections_of_meaning (named : files.root.Named) {tokens : List Token} {manifest : Manifest}
    (read : meaning files parent tokens = .ok manifest) :
    manifest.parent = parent ∧
    manifest.sections.length = tokens.countP Token.isHeading ∧
    List.Forall₂ (Lists (Expands files) parent) (stretches tokens).tail manifest.sections ∧
    ((∀ path ∈ listedPaths parent tokens, ShortBelow files path) →
      List.Forall₂ (Lists (StandsFor files AllFiles) parent) (stretches tokens).tail
        manifest.sections) ∧
    meaning files parent (tokens.filter Token.isWord) = .ok manifest := by
  obtain ⟨sound, errors⟩ := counted_eq_some (congrArg counted read)
  obtain ⟨-, none⟩ := Nat.add_eq_zero_iff.1 errors
  obtain ⟨first, rest, divides⟩ := divides_outline sound
  have lists : List.Forall₂ (Lists (Expands files) parent) (stretches tokens).tail
      manifest.sections := by
    rw [meaning_eq_ok read, divides.split]
    exact lists_readBlocks named divides.blocks none
  refine ⟨by rw [meaning_eq_ok read], ?_, lists, fun short => ?_, ?_⟩
  · rw [← lists.length_eq, length_stretches]
  · have each : ∀ words ∈ (stretches tokens).tail,
        ∀ path ∈ namedPaths parent [] words.tail, ShortBelow files path :=
      fun words mem path inside => short path (List.mem_flatMap.2 ⟨words, mem, inside⟩)
    refine ((List.forall₂_and_left _ _).2 ⟨each, lists⟩).imp ?_
    rintro words listed ⟨short, lists⟩
    exact lists.imp fun path mem found expands => expands.allFiles.2 (short path mem)
  · rw [meaning_eq, outline_filter sound, ← meaning_eq, read]

end listed

/-- Two sections. The first one starts below the manifest and goes on in a folder of its own. -/
def twoSections : List Token :=
  [⟨.comment, 1⟩, ⟨.sectionMark, 2⟩, ⟨.literal "texture", 2⟩, ⟨.literal "x", 3⟩, ⟨.endOfText, 3⟩,
    ⟨.folderMark, 4⟩, ⟨.literal "/ui", 4⟩, ⟨.literal ".", 5⟩, ⟨.sectionMark, 6⟩,
    ⟨.literal "FONT", 6⟩, ⟨.literal "f", 7⟩]

/-- Two files and a folder with another one, which the system lists backwards. -/
def icons : Folder :=
  .leaf "b" (.file []) (.folder "a" (.leaf "c" (.file []) .empty) (.leaf "a.png" (.file []) .empty))

def iconFiles : FileTree := ⟨.folder "ui" icons .empty, []⟩

theorem find_icons : iconFiles.find ⟨"/ui/."⟩ = .ok (.folder icons) := by decide +kernel

theorem expand_icons : (expand iconFiles ⟨"/ui/."⟩).run.value =
    .ok [⟨"/ui/./a/c"⟩, ⟨"/ui/./a.png"⟩, ⟨"/ui/./b"⟩] := by
  have sorted : icons.entries.mergeSort byName =
      [("a", .folder (.leaf "c" (.file []) .empty)), ("a.png", .leaf (.file [])),
        ("b", .leaf (.file []))] :=
    mergeSort_eq (by decide) (by decide)
  rw [expand_folder find_icons, value_visit_below, sorted]
  decide +kernel

/-- The only folder below is `a`. -/
theorem shortFolders_icons : ShortFolders ⟨"/ui/."⟩ icons := by
  have readable : icons.Readable := by decide
  refine NoneLong.shortFolders readable fun place inner deep there => ?_
  cases place with
  | nil => exact absurd rfl deep
  | cons name more =>
    obtain ⟨middle, found, there⟩ := node?_eq_folder.1 there
    have only : name = "a" ∧ middle = .leaf "c" (.file []) .empty := by
      simp only [icons, get?] at found
      split at found
      · cases found
      · split at found
        · rename_i same
          cases found
          exact ⟨same, rfl⟩
        · split at found <;> cases found
    obtain ⟨rfl, rfl⟩ := only
    cases more with
    | nil => decide +kernel
    | cons name more =>
      obtain ⟨last, found, -⟩ := node?_eq_folder.1 there
      rw [get?] at found
      split at found <;> cases found

theorem meaning_twoSections : meaning iconFiles ⟨"m"⟩ twoSections = .ok ⟨⟨"m"⟩,
    [⟨.texture, ⟨"/ui"⟩, [⟨"m/x"⟩, ⟨"/ui/./a/c"⟩, ⟨"/ui/./a.png"⟩, ⟨"/ui/./b"⟩]⟩,
      ⟨.font, ⟨"m"⟩, [⟨"m/f"⟩]⟩]⟩ := by
  have outlined : outline twoSections = ⟨[], [⟨2, "texture", [.path 3 "x", .folder 4 "/ui",
      .path 5 "."]⟩, ⟨6, "FONT", [.path 7 "f"]⟩], none⟩ := rfl
  have texture : (resolve iconFiles ⟨"m"⟩ [.path 3 "x", .folder 4 "/ui", .path 5 "."]).value =
      ⟨⟨"/ui"⟩, [⟨"m/x"⟩, ⟨"/ui/./a/c"⟩, ⟨"/ui/./a.png"⟩, ⟨"/ui/./b"⟩], 0⟩ := by
    have single : (expand iconFiles (Path.join ⟨"m"⟩ ⟨"x"⟩)).run.value = .ok [⟨"m/x"⟩] := by
      decide +kernel
    have inside : Path.join (Path.join ⟨"m"⟩ ⟨"/ui"⟩) ⟨"."⟩ = ⟨"/ui/."⟩ := by decide +kernel
    rw [value_resolve_path, value_resolvePath, single, resolve, value_resolve_path,
      value_resolvePath, inside, expand_icons]
    rfl
  have font : (resolve iconFiles ⟨"m"⟩ [.path 7 "f"]).value = ⟨⟨"m"⟩, [⟨"m/f"⟩], 0⟩ := by
    decide +kernel
  have read : (readBlocks iconFiles ⟨"m"⟩ (outline twoSections).blocks).value =
      ([⟨.texture, ⟨"/ui"⟩, [⟨"m/x"⟩, ⟨"/ui/./a/c"⟩, ⟨"/ui/./a.png"⟩, ⟨"/ui/./b"⟩]⟩,
        ⟨.font, ⟨"m"⟩, [⟨"m/f"⟩]⟩], 0) := by
    have known : typeOfKeyword? "texture" = some .texture := by decide
    have known' : typeOfKeyword? "FONT" = some .font := by decide
    simp only [outlined, readBlocks, known, known', Logged.value_bind, texture, font,
      Logged.value_pure]
  rw [meaning_eq, errorsIn, read, outlined]
  rfl

theorem sections_of_meaning_twoSections : iconFiles.root.Named ∧
    meaning iconFiles ⟨"m"⟩ twoSections = .ok ⟨⟨"m"⟩,
      [⟨.texture, ⟨"/ui"⟩, [⟨"m/x"⟩, ⟨"/ui/./a/c"⟩, ⟨"/ui/./a.png"⟩, ⟨"/ui/./b"⟩]⟩,
        ⟨.font, ⟨"m"⟩, [⟨"m/f"⟩]⟩]⟩ ∧
    (stretches twoSections).tail = [twoSections.drop 2 |>.take 6, twoSections.drop 9] ∧
    (∀ path ∈ listedPaths ⟨"m"⟩ twoSections, ShortBelow iconFiles path) ∧
    List.Forall₂ (Lists (StandsFor iconFiles AllFiles) ⟨"m"⟩) (stretches twoSections).tail
      [⟨.texture, ⟨"/ui"⟩, [⟨"m/x"⟩, ⟨"/ui/./a/c"⟩, ⟨"/ui/./a.png"⟩, ⟨"/ui/./b"⟩]⟩,
        ⟨.font, ⟨"m"⟩, [⟨"m/f"⟩]⟩] := by
  have named : iconFiles.root.Named := by decide
  have split : (stretches twoSections).tail =
      [twoSections.drop 2 |>.take 6, twoSections.drop 9] := by
    decide +kernel
  have paths : listedPaths ⟨"m"⟩ twoSections = [⟨"m/x"⟩, ⟨"/ui/."⟩, ⟨"m/f"⟩] := by decide +kernel
  have short : ∀ path ∈ listedPaths ⟨"m"⟩ twoSections, ShortBelow iconFiles path := by
    have missing : iconFiles.find ⟨"m/x"⟩ = .error .notFound := by decide +kernel
    have missing' : iconFiles.find ⟨"m/f"⟩ = .error .notFound := by decide +kernel
    rw [paths]
    intro path mem here there
    simp only [List.mem_cons, List.not_mem_nil, or_false] at mem
    rcases mem with rfl | rfl | rfl
    · cases missing.symm.trans there
    · cases find_icons.symm.trans there
      exact shortFolders_icons
    · cases missing'.symm.trans there
  exact ⟨named, meaning_twoSections, split, short,
    (sections_of_meaning named meaning_twoSections).2.2.2.1 short⟩

/-- The words of a manifest which names a folder with many slashes behind its name. -/
def slashedWords (more : Nat) : List Token :=
  [⟨.sectionMark, 1⟩, ⟨.literal "texture", 1⟩, ⟨.literal (slashed more).text, 2⟩]

theorem lists_slashed {more : Nat} (short : more + 2 < FileTree.pathLimit) :
    ¬ List.Forall₂ (Lists (StandsFor deepFiles AllFiles) ⟨""⟩) (stretches (slashedWords more)).tail
      [⟨.texture, ⟨""⟩, [(slashed more).joinAll ["b"]]⟩] := by
  intro all
  have split : stretches (slashedWords more) = [[], (slashedWords more).tail] := by
    rw [slashedWords, stretches_heading]
    exact congrArg ([] :: ·) (stretches_cons rfl (stretches_cons rfl rfl))
  rw [split] at all
  obtain ⟨lists, -⟩ := List.forall₂_cons.1 all
  obtain ⟨parts, stand, assets⟩ := lists.assets
  have path : namedPaths ⟨""⟩ [] (slashedWords more).tail.tail = [slashed more] :=
    congrArg ([·]) (join_slashed more)
  rw [path] at stand
  cases stand with
  | cons first rest =>
    cases rest
    obtain ⟨places, rfl, -, files⟩ := (standsFor_folder (find_slashed short)).1 first
    have mem : ["b", "x"] ∈ places := (files _).2 ⟨.leaf (.file []), rfl, rfl⟩
    have joined := List.mem_map_of_mem (f := (slashed more).joinAll) mem
    rw [List.flatten_singleton] at assets
    rw [← assets] at joined
    exact joinAll_ne _ (List.mem_singleton.1 joined)

/-- A folder is listed whose path is too long, and not the file in it. -/
theorem sections_deepFiles : deepFiles.root.Named ∧
    meaning deepFiles ⟨""⟩ (slashedWords 4093) =
      .ok ⟨⟨""⟩, [⟨.texture, ⟨""⟩, [(slashed 4093).joinAll ["b"]]⟩]⟩ ∧
    ¬ List.Forall₂ (Lists (StandsFor deepFiles AllFiles) ⟨""⟩) (stretches (slashedWords 4093)).tail
      [⟨.texture, ⟨""⟩, [(slashed 4093).joinAll ["b"]]⟩] := by
  have short : 4093 + 2 < FileTree.pathLimit := by decide
  have long : FileTree.pathLimit ≤ 4093 + 3 := by decide
  have read := meaning_slashed short long
  exact ⟨by decide, read, lists_slashed short⟩

end AssetPack.Manifest

import AssetPack.Proofs.Manifest.Sections

/-! The errors of a manifest, from where its words stand: a mark without its literal ends it, and
all the others are counted. Each one is reported once. -/

namespace AssetPack

def errorCount (log : List Message) : Nat := log.countP (·.level = .error)

theorem errorCount_append (log more : List Message) :
    errorCount (log ++ more) = errorCount log + errorCount more := List.countP_append

namespace Attempt
variable {ε α β : Type}

/-- A computation which reports no error. It may fail. -/
def Quiet (x : Attempt ε α) : Prop := errorCount x.run.log = 0

theorem Quiet.bind {x : Attempt ε α} {f : α → Attempt ε β} (first : Quiet x)
    (rest : ∀ a, Quiet (f a)) : Quiet (x >>= f) := by
  rw [Quiet, log_bind, errorCount_append, first]
  cases x.run.value with
  | ok a => exact (Nat.zero_add _).trans (rest a)
  | error e => rfl

theorem Quiet.mapM {items : List α} {f : α → Attempt ε β}
    (each : ∀ item ∈ items, Quiet (f item)) : Quiet (items.mapM f) := by
  induction items with
  | nil => rfl
  | cons item items ih =>
    rw [List.mapM_cons]
    rw [List.forall_mem_cons] at each
    exact each.1.bind fun _ => (ih each.2).bind fun _ => rfl

end Attempt

namespace Manifest
open Attempt

def Token.sigil? (token : Token) : Option Sigil :=
  match token.kind with
  | .sectionMark => some .sectionMark
  | .folderMark => some .folderMark
  | _ => none

/-- The error of a mark which no literal follows: the word which follows it instead, or the end of
the text. -/
def openAt? (tokens : List Token) (place : Nat) : Option ParseError := do
  let mark ← tokens[place]?
  let sigil ← mark.sigil?
  match tokens[place + 1]? with
  | none => some (.unexpectedToken mark.line sigil .endOfText)
  | some next =>
    if next.literal?.isSome then none else some (.unexpectedToken next.line sigil next.kind)

structure FirstOpen (tokens : List Token) (place : Nat) (error : ParseError) : Prop where
  here : openAt? tokens place = some error
  first : ∀ earlier < place, openAt? tokens earlier = none

/-- Whether the path leads to a folder whose files can not be listed. -/
def isUnlistable (files : FileTree) (path : Path) : Bool :=
  files.isFolder path && !(expand files path).run.value.isOk

/-- The paths and folders which stand above the first heading. -/
def strays (parent : Path) (words : List Token) : Nat :=
  words.countP Token.isFolderMark + (namedPaths parent [] words).length

/-- The errors of a section, from what follows its heading. In a section of unknown type nothing
else is an error. -/
def sectionErrors (files : FileTree) (parent : Path) (words : List Token) : Nat :=
  match (words.head?.bind Token.literal?).bind typeOfKeyword? with
  | some _ => (namedPaths parent [] words.tail).countP (isUnlistable files)
  | none => 1

/-- The errors which do not end a manifest. -/
def grammarErrors (files : FileTree) (parent : Path) (tokens : List Token) : Nat :=
  strays parent ((stretches tokens).headD []) +
    ((stretches tokens).tail.map (sectionErrors files parent)).sum

/-! Marks without a literal. -/

theorem openAt?_cons {token : Token} {tokens : List Token}
    (closed : openAt? (token :: tokens) 0 = none) (sound : ∀ place, openAt? tokens place = none) :
    ∀ place, openAt? (token :: tokens) place = none
  | 0 => closed
  | place + 1 => sound place

theorem FirstOpen.cons {token : Token} {tokens : List Token} {place : Nat} {error : ParseError}
    (opens : FirstOpen tokens place error) (closed : openAt? (token :: tokens) 0 = none) :
    FirstOpen (token :: tokens) (place + 1) error where
  here := opens.here
  first
    | 0, _ => closed
    | earlier + 1, less => opens.first earlier (Nat.lt_of_succ_lt_succ less)

theorem FirstOpen.unique {tokens : List Token} {place other : Nat} {error error' : ParseError}
    (opens : FirstOpen tokens place error) (opens' : FirstOpen tokens other error') :
    place = other ∧ error = error' := by
  have same : place = other := by
    rcases Nat.lt_trichotomy place other with less | same | less
    · cases opens.here.symm.trans (opens'.first place less)
    · exact same
    · cases opens'.here.symm.trans (opens.first other less)
  subst same
  exact ⟨rfl, Option.some.inj (opens.here.symm.trans opens'.here)⟩

theorem openAt?_bare {mark : Token} {sigil : Sigil} {rest : List Token} (bare : Bare rest)
    (marked : mark.sigil? = some sigil) :
    openAt? (mark :: rest) 0 = some (unexpected mark.line sigil rest) := by
  change (mark.sigil?.bind _) = _
  rw [marked]
  cases rest with
  | nil => rfl
  | cons next rest =>
    obtain ⟨kind, line⟩ := next
    cases kind with
    | literal text => exact absurd rfl (bare text line rest)
    | sectionMark | folderMark | comment | endOfText => rfl

/-- A manifest which is ended at a place, with what stands before it. -/
structure Stops (tokens : List Token) (place : Nat) (error : ParseError) : Prop where
  opens : FirstOpen tokens place error
  sound : (outline (tokens.take place)).failure = none
  outline : outline tokens = { outline (tokens.take place) with failure := some error }

theorem Stops.start {mark : Token} {sigil : Sigil} {rest : List Token} (bare : Bare rest)
    (marked : mark.sigil? = some sigil)
    (fails : Manifest.outline (mark :: rest) = .fail (unexpected mark.line sigil rest)) :
    Stops (mark :: rest) 0 (unexpected mark.line sigil rest) where
  opens := ⟨openAt?_bare bare marked, fun _ less => absurd less (Nat.not_lt_zero _)⟩
  sound := rfl
  outline := fails

/-- Either all marks have their literals, or the first one which has none ends the outline. -/
theorem outline_cases (tokens : List Token) :
    ((outline tokens).failure = none ∧ ∀ place, openAt? tokens place = none) ∨
      ∃ place error, Stops tokens place error := by
  fun_induction outline tokens with
  | case1 => exact .inl ⟨rfl, fun _ => rfl⟩
  | case2 line text other rest ih | case4 line text other rest ih =>
    rcases ih with ⟨sound, closed⟩ | ⟨place, error, stops⟩
    · exact .inl ⟨sound, openAt?_cons rfl (openAt?_cons rfl closed)⟩
    · refine .inr ⟨place + 2, error, (stops.opens.cons rfl).cons rfl, stops.sound, ?_⟩
      rw [outline, stops.outline]
      rfl
  | case3 line rest bare =>
    exact .inr ⟨0, _, .start bare rfl (outline_sectionMark bare line)⟩
  | case5 line rest bare =>
    exact .inr ⟨0, _, .start bare rfl (outline_folderMark bare line)⟩
  | case6 text line rest ih =>
    rcases ih with ⟨sound, closed⟩ | ⟨place, error, stops⟩
    · exact .inl ⟨sound, openAt?_cons rfl closed⟩
    · refine .inr ⟨place + 1, error, stops.opens.cons rfl, stops.sound, ?_⟩
      rw [outline, stops.outline]
      rfl
  | case7 line rest ih | case8 line rest ih =>
    rcases ih with ⟨sound, closed⟩ | ⟨place, error, stops⟩
    · exact .inl ⟨sound, openAt?_cons rfl closed⟩
    · exact .inr ⟨place + 1, error, stops.opens.cons rfl, stops.sound, stops.outline⟩

/-! Errors which are counted. -/

section counting
variable {files : FileTree} {parent : Path}

/-- Only folders can fail to be listed. -/
theorem isUnlistable_iff {path : Path} : isUnlistable files path = true ↔
    ∃ reason, (expand files path).run.value = .error reason := by
  have listed (found : List Path) : ¬ ∃ reason : IoError, Except.ok found = .error reason := by
    rintro ⟨reason, ⟨⟩⟩
  rw [isUnlistable]
  rcases expand_cases files path with ⟨single, value⟩ | ⟨reason, found, value⟩ | ⟨here, there⟩
  · rw [single, value]
    exact iff_of_false Bool.false_ne_true (listed [path])
  · rw [isFolder_of_sealed found, value]
    exact iff_of_true rfl ⟨reason, rfl⟩
  · rw [isFolder_of_find there]
    cases (expand files path).run.value with
    | ok found => exact iff_of_false Bool.false_ne_true (listed found)
    | error reason => exact iff_of_true rfl ⟨reason, rfl⟩

/-- By the tree: the folder is sealed, or one below it is whose path is short enough to be looked
at. -/
theorem isUnlistable_iff_sealed (named : files.root.Named) {path : Path} :
    isUnlistable files path = true ↔
      (∃ reason, files.find path = .ok (.leaf (.sealed reason))) ∨
      ∃ here place reason, files.find path = .ok (.folder here) ∧
        here.node? place = some (.leaf (.sealed reason)) ∧
          FileTree.isTooLong (path.joinAll place) = false := by
  rw [isUnlistable]
  rcases expand_cases files path with ⟨single, -⟩ | ⟨reason, found, value⟩ | ⟨here, there⟩
  · rw [single]
    refine iff_of_false Bool.false_ne_true ?_
    rintro (⟨reason, found⟩ | ⟨here, _, _, found, -⟩)
    · cases single.symm.trans (isFolder_of_sealed found)
    · cases single.symm.trans (isFolder_of_find found)
  · rw [isFolder_of_sealed found, value]
    exact iff_of_true rfl (.inl ⟨reason, found⟩)
  · have inside : here.Named := named.below (FileTree.find_eq_ok.1 there).2.2
    rw [isFolder_of_find there, expand_folder there, Bool.true_and, Bool.not_eq_true',
      ← Bool.not_eq_true, ← succeeds_iff_isOk, succeeds_visit_below inside, there]
    simp only [Listable, not_forall, Bool.not_eq_true]
    constructor
    · rintro ⟨place, reason, found, short⟩
      exact .inr ⟨here, place, reason, rfl, found, short⟩
    · rintro (⟨_, ⟨⟩⟩ | ⟨_, place, reason, ⟨⟩, found, short⟩)
      exact ⟨place, reason, found, short⟩

theorem errors_resolve (folder : Path) (entries : List Entry) :
    (resolve files folder entries).value.errors =
      (pathsFrom folder entries).countP (isUnlistable files) := by
  induction entries generalizing folder with
  | nil => rfl
  | cons entry rest ih =>
    cases entry with
    | folder line fragment => exact ih _
    | path line text =>
      rw [value_resolve_path, value_resolvePath, pathsFrom, List.countP_cons, ← ih, Nat.add_comm]
      dsimp only
      congr 1
      cases listed : (expand files (folder.join ⟨text⟩)).run.value with
      | ok found =>
        rw [if_neg]
        rw [isUnlistable_iff, listed]
        rintro ⟨reason, ⟨⟩⟩
      | error reason => rw [if_pos (isUnlistable_iff.2 ⟨reason, listed⟩)]

theorem errors_readBlocks {rest : List (List Token)} {blocks : List Block}
    (reads : List.Forall₂ Reads rest blocks) :
    (readBlocks files parent blocks).value.2 = (rest.map (sectionErrors files parent)).sum := by
  induction reads with
  | nil => rfl
  | @cons words block rest blocks first others ih =>
    obtain ⟨line, body, rfl, covers⟩ := first
    have keyword : (Option.bind (⟨.literal block.keyword, line⟩ :: body).head? Token.literal?).bind
        typeOfKeyword? = typeOfKeyword? block.keyword := rfl
    rw [List.map_cons, List.sum_cons, readBlocks, sectionErrors, keyword, ← ih]
    cases typeOfKeyword? block.keyword with
    | some type =>
      simp only [Logged.value_bind, Logged.value_pure, List.tail_cons, errors_resolve]
      rw [← covers.paths parent [] Bool.false_ne_true]
      rfl
    | none =>
      simp only [Logged.value_bind, Logged.value_pure]
      exact Nat.add_comm _ _

/-- The errors which are counted in an outline are those of its tokens. -/
theorem errorsIn_outline {tokens : List Token} (sound : (outline tokens).failure = none) :
    errorsIn files parent (outline tokens) = grammarErrors files parent tokens := by
  obtain ⟨first, rest, divides⟩ := divides_outline sound
  rw [errorsIn, grammarErrors, divides.split, errors_readBlocks divides.blocks,
    divides.loose.length parent [] Bool.false_ne_true]
  rfl

/-! Errors which are reported. -/

theorem quiet_file (dir path : Path) : Quiet (file dir path) := rfl

theorem quiet_visit {dir : Path} {found : List (String × Found)}
    (quiet : ∀ entry ∈ found, Quiet entry.2) : Quiet (visit dir found) := by
  have visited : Quiet ((found.mergeSort fun a b => decide (a.1 ≤ b.1)).mapM (·.2)) :=
    .mapM fun entry mem => quiet entry (List.mem_mergeSort.1 mem)
  rw [visit]
  split
  · exact .bind rfl fun _ => visited.bind fun _ => rfl
  · exact visited.bind fun _ => rfl

theorem quiet_below (dir : Path) (here : Folder) : ∀ entry ∈ below dir here, Quiet entry.2 := by
  rw [below_eq, List.forall_mem_map]
  induction here generalizing dir with
  | empty => exact fun _ mem => absurd mem List.not_mem_nil
  | leaf name content rest ih =>
    rw [Folder.entries, List.forall_mem_cons]
    refine ⟨?_, ih dir⟩
    cases content with
    | sealed reason =>
      dsimp only [foundAt]
      split
      · exact quiet_file _ _
      · rfl
    | file | full => exact quiet_file _ _
  | folder name inner rest ihInner ih =>
    rw [Folder.entries, List.forall_mem_cons]
    refine ⟨?_, ih dir⟩
    dsimp only [foundAt]
    split
    · exact quiet_file _ _
    · refine quiet_visit ?_
      rw [below_eq, List.forall_mem_map]
      exact ihInner _

theorem quiet_expand (path : Path) : Quiet (expand files path) := by
  rw [expand]
  split
  · exact quiet_visit (quiet_below _ _)
  · rfl
  · rfl

theorem errorCount_resolvePath (line : UInt32) (path : Path) :
    errorCount (resolvePath files line path).log = (resolvePath files line path).value.2 := by
  have quiet : errorCount (expand files path).run.log = 0 := quiet_expand path
  rw [resolvePath]
  generalize (expand files path).run = found at quiet
  obtain ⟨log, result⟩ := found
  have after (more : List Message) : errorCount (log ++ more) = errorCount more := by
    rw [errorCount_append, quiet, Nat.zero_add]
  by_cases folder : files.isFolder path = true
  · rw [if_pos folder]
    cases result with
    | ok found => exact after []
    | error reason => exact after ([⟨.error, .sections, _⟩] ++ [])
  · rw [if_neg folder]
    have traced (more : List Message) (text : String) :
        errorCount ([⟨.trace, .sections, text⟩] ++ (log ++ more)) = errorCount more := by
      rw [errorCount_append, after]
      exact Nat.zero_add _
    cases result with
    | ok found => exact traced [] _
    | error reason => exact traced ([⟨.error, .sections, _⟩] ++ []) _

theorem errorCount_resolve (folder : Path) (entries : List Entry) :
    errorCount (resolve files folder entries).log =
      (resolve files folder entries).value.errors := by
  induction entries generalizing folder with
  | nil => rfl
  | cons entry rest ih =>
    cases entry with
    | folder line fragment => exact ih _
    | path line text =>
      rw [value_resolve_path, resolve, Logged.log_bind, errorCount_append, errorCount_resolvePath,
        Logged.log_bind, errorCount_append, ih]
      rfl

theorem errorCount_skipped (entries : List Entry) :
    errorCount (entries.forM reportSkipped).log = 0 := by
  induction entries with
  | nil => rfl
  | cons entry rest ih =>
    rw [List.forM, Logged.log_bind, errorCount_append, ih]
    cases entry <;> rfl

theorem errorCount_readBlocks (blocks : List Block) :
    errorCount (readBlocks files parent blocks).log = (readBlocks files parent blocks).value.2 := by
  induction blocks with
  | nil => rfl
  | cons block rest ih =>
    rw [readBlocks]
    cases typeOfKeyword? block.keyword with
    | some type =>
      simp only [Logged.log_bind, Logged.value_bind, Logged.log_pure, Logged.value_pure,
        errorCount_append, errorCount_resolve, ih]
      exact Nat.zero_add _
    | none =>
      simp only [Logged.log_bind, Logged.value_bind, Logged.log_pure, Logged.value_pure,
        errorCount_append, errorCount_skipped, ih, Nat.zero_add]
      exact Nat.add_comm 1 _

theorem errorCount_loose (entries : List Entry) :
    errorCount (entries.flatMap fun entry => (reportLoose entry).log) = entries.length := by
  induction entries with
  | nil => rfl
  | cons entry rest ih =>
    rw [List.flatMap_cons, errorCount_append, ih, List.length_cons, Nat.add_comm]
    cases entry <;> rfl

/-- What ends a manifest is reported as well. -/
theorem errorCount_parse (tokens : List Token) :
    errorCount (parse files parent tokens).run.log =
      errorsIn files parent (outline tokens) + (outline tokens).failure.toList.length := by
  rw [parse, log_bind, run_forM, errorCount_append, errorCount_loose]
  dsimp only
  rw [log_bind, run_lift, errorCount_append, errorCount_readBlocks, errorsIn, Nat.add_assoc]
  dsimp only
  congr 2
  cases (outline tokens).failure with
  | some error => rfl
  | none =>
    dsimp only
    split <;> rfl

end counting

/-- The errors of a manifest. The first mark without its literal ends it, and the errors before that
are reported. If there is none, all errors are counted and reported. -/
theorem parse_errors (files : FileTree) (parent : Path) (tokens : List Token) :
    (∀ place error, FirstOpen tokens place error →
      meaning files parent tokens = .error error ∧
      errorCount (parse files parent tokens).run.log =
        grammarErrors files parent (tokens.take place) + 1) ∧
    ((∀ place, openAt? tokens place = none) →
      errorCount (parse files parent tokens).run.log = grammarErrors files parent tokens ∧
      (0 < grammarErrors files parent tokens →
        meaning files parent tokens = .error (.grammar (grammarErrors files parent tokens))) ∧
      (grammarErrors files parent tokens = 0 →
        ∃ manifest, meaning files parent tokens = .ok manifest)) := by
  rw [errorCount_parse]
  constructor
  · intro place error opens
    rcases outline_cases tokens with ⟨-, closed⟩ | ⟨other, error', stops⟩
    · cases opens.here.symm.trans (closed place)
    · obtain ⟨rfl, rfl⟩ := opens.unique stops.opens
      rw [meaning_eq, stops.outline, ← errorsIn_outline stops.sound]
      exact ⟨rfl, rfl⟩
  · intro closed
    rcases outline_cases tokens with ⟨sound, -⟩ | ⟨place, error, stops⟩
    · rw [meaning_eq, sound, errorsIn_outline sound]
      refine ⟨rfl, fun wrong => if_pos wrong, fun none => ⟨_, if_neg (none ▸ Nat.lt_irrefl 0)⟩⟩
    · cases stops.opens.here.symm.trans (closed place)

/-- A folder whose files can not be listed. -/
def lockedFolder : FileTree := ⟨.leaf "s" (.sealed .nameTooLong) .empty, []⟩

/-- Two entries above any section, a section of unknown type, and the folder. -/
def strayWords : List Token :=
  [⟨.literal "x", 1⟩, ⟨.folderMark, 1⟩, ⟨.literal "d", 1⟩, ⟨.sectionMark, 2⟩, ⟨.literal "ui", 2⟩,
    ⟨.literal "s", 2⟩, ⟨.sectionMark, 3⟩, ⟨.literal "font", 3⟩, ⟨.literal "s", 3⟩]

theorem parse_errors_strayWords :
    (∀ place, openAt? strayWords place = none) ∧
    meaning lockedFolder ⟨""⟩ strayWords = .error (.grammar 4) ∧
    FirstOpen (strayWords ++ [⟨.folderMark, 4⟩, ⟨.comment, 5⟩]) 9
      (.unexpectedToken 5 .folderMark .comment) ∧
    meaning lockedFolder ⟨""⟩ (strayWords ++ [⟨.folderMark, 4⟩, ⟨.comment, 5⟩]) =
      .error (.unexpectedToken 5 .folderMark .comment) ∧
    errorCount (parse lockedFolder ⟨""⟩
      (strayWords ++ [⟨.folderMark, 4⟩, ⟨.comment, 5⟩])).run.log = 5 := by
  have closed : ∀ place, openAt? strayWords place = none := by
    intro place
    by_cases less : place < 9
    · revert place
      decide
    · rw [openAt?, List.getElem?_eq_none (Nat.le_of_not_lt less)]
      rfl
  have opens : FirstOpen (strayWords ++ [⟨.folderMark, 4⟩, ⟨.comment, 5⟩]) 9
      (.unexpectedToken 5 .folderMark .comment) := ⟨by decide, by decide⟩
  have errors : grammarErrors lockedFolder ⟨""⟩ strayWords = 4 := by decide +kernel
  obtain ⟨-, sound⟩ := parse_errors lockedFolder ⟨""⟩ strayWords
  obtain ⟨ended, left⟩ := (parse_errors lockedFolder ⟨""⟩ _).1 9 _ opens
  refine ⟨closed, ?_, opens, ended, left.trans (congrArg (· + 1) errors)⟩
  rw [(sound closed).2.1 (errors ▸ Nat.succ_pos 3), errors]

end Manifest

end AssetPack

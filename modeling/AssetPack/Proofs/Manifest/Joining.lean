import AssetPack.Proofs.Manifest.Words
import AssetPack.Proofs.Reporting

/-! Two manifests, one below the other: the words, the outline and the sections of the whole are
those of the upper one and then those of the lower one. -/

namespace AssetPack.Manifest
open Attempt

/-! Words stay what they are when a line feed follows them. -/

theorem Word.before_feed {kind : TokenKind} {chars rest : List Char} (word : Word kind chars rest)
    (more : List Char) : Word kind chars (rest ++ '\n' :: more) := by
  have first {p : Char → Prop} (ends : ∀ c ∈ rest.head?, p c) (feed : p '\n') :
      ∀ c ∈ (rest ++ '\n' :: more).head?, p c := by
    cases rest with
    | nil => simpa using feed
    | cons c rest => exact ends
  cases word with
  | sectionMark => exact .sectionMark _
  | folderMark => exact .folderMark _
  | comment inside ends => exact .comment inside (first ends rfl)
  | literal starts inside ends => exact .literal starts inside (first ends rfl)

theorem Divided.before_feed {pieces : List Piece} {rest : List Char}
    (divided : Divided pieces rest) (more : List Char) :
    Divided pieces (rest ++ '\n' :: more) := by
  induction divided with
  | nil rest => exact .nil _
  | gap blank divided ih => exact .gap blank ih
  | word word divided ih =>
    refine .word ?_ ih
    rw [← List.append_assoc]
    exact word.before_feed more

theorem textOf_append (pieces more : List Piece) :
    textOf (pieces ++ more) = textOf pieces ++ textOf more := List.flatMap_append

theorem Divided.append {pieces more : List Piece} {rest : List Char}
    (upper : Divided pieces (textOf more ++ rest)) (lower : Divided more rest) :
    Divided (pieces ++ more) rest := by
  generalize behind : textOf more ++ rest = text at upper
  induction upper with
  | nil => exact lower
  | gap blank upper ih => exact .gap blank (ih behind)
  | word word upper ih =>
    subst behind
    refine .word ?_ (ih rfl)
    rwa [List.append_eq, textOf_append, List.append_assoc]

theorem places_append (before : List Char) (pieces more : List Piece) :
    places before (pieces ++ more) =
      places before pieces ++ places (before ++ textOf pieces) more := by
  induction pieces generalizing before with
  | nil =>
    rw [textOf, List.flatMap_nil, List.append_nil]
    rfl
  | cons piece pieces ih =>
    have text : before ++ textOf (piece :: pieces) = before ++ piece.chars ++ textOf pieces :=
      (List.append_assoc _ _ _).symm
    rw [text, List.cons_append]
    cases piece with
    | gap c => exact ih _
    | word kind chars => exact congrArg (_ :: ·) (ih _)

/-- The token on a line further down. -/
def Token.lower (lines : UInt32) (token : Token) : Token :=
  { token with line := token.line + lines }

theorem lower_tokenAt (kind : TokenKind) (above before : List Char) :
    (tokenAt (kind, lineAfter before)).lower (UInt32.ofNat (above.count '\n')) =
      tokenAt (kind, lineAfter (above ++ before)) := by
  rw [tokenAt, tokenAt, Token.lower, ← UInt32.ofNat_add, lineAfter, lineAfter, List.count_append]
  simp only [Nat.add_assoc, Nat.add_comm (above.count '\n')]

/-- Text above some pieces only moves their words down. -/
theorem places_below (above before : List Char) (pieces : List Piece) :
    (places (above ++ before) pieces).map tokenAt =
      ((places before pieces).map tokenAt).map
        (Token.lower (UInt32.ofNat (above.count '\n'))) := by
  induction pieces generalizing before with
  | nil => rfl
  | cons piece pieces ih =>
    cases piece with
    | gap c =>
      rw [places, places, List.append_assoc]
      exact ih _
    | word kind chars =>
      rw [places, places, List.append_assoc, List.map_cons, List.map_cons, List.map_cons, ih,
        lower_tokenAt]

/-- The words of two texts with a line feed between them. -/
theorem tokenize_join {a b : String} {upper lower : List Token}
    (readA : (tokenize a).run.value = .ok upper) (readB : (tokenize b).run.value = .ok lower) :
    (tokenize (a ++ "\n" ++ b)).run.value =
      .ok (upper.dropLast ++
        lower.map (Token.lower (UInt32.ofNat (1 + a.toList.count '\n')))) := by
  obtain ⟨above, dividedA, wholeA, rfl⟩ := tokenize_eq_ok_iff.1 readA
  obtain ⟨below, dividedB, wholeB, rfl⟩ := tokenize_eq_ok_iff.1 readB
  have feed : (['\n'] : List Char).count '\n' = 1 := rfl
  have upper : Divided above (textOf (.gap '\n' :: below) ++ []) := by
    rw [List.append_nil]
    exact dividedA.before_feed (textOf below)
  have divided : Divided (above ++ .gap '\n' :: below) [] :=
    upper.append (.gap (by decide) dividedB)
  have whole : (a ++ "\n" ++ b).toList = textOf (above ++ .gap '\n' :: below) := by
    rw [String.toList_append, String.toList_append, wholeA, wholeB, textOf_append]
    exact List.append_assoc _ _ _
  rw [tokenize_divided divided whole, wholeA]
  have lines : 1 + (textOf above).count '\n' = (textOf above ++ ['\n']).count '\n' := by
    rw [List.count_append, feed, Nat.add_comm]
  have ending : textOf (above ++ .gap '\n' :: below) =
      (textOf above ++ ['\n']) ++ textOf below := by
    rw [textOf_append, List.append_assoc]
    rfl
  have moved := places_below (textOf above ++ ['\n']) [] below
  rw [List.append_nil] at moved
  congr 1
  rw [placesToEnd, placesToEnd, placesToEnd, places_append, places, ending, List.map_append,
    List.map_append, List.map_append, List.map_append, List.map_append, List.map_singleton,
    List.map_singleton, List.map_singleton, List.map_singleton, List.dropLast_concat, lines,
    lower_tokenAt, List.nil_append, moved, List.append_assoc]

/-! Outlines. -/

def Entry.lower (lines : UInt32) : Entry → Entry
  | .folder line fragment => .folder (line + lines) fragment
  | .path line text => .path (line + lines) text

def Block.lower (lines : UInt32) (block : Block) : Block :=
  ⟨block.line + lines, block.keyword, block.entries.map (Entry.lower lines)⟩

def ParseError.lower (lines : UInt32) : ParseError → ParseError
  | .unexpectedToken line sigil found => .unexpectedToken (line + lines) sigil found
  | .grammar errors => .grammar errors

def Outline.lower (lines : UInt32) (outline : Outline) : Outline :=
  ⟨outline.loose.map (Entry.lower lines), outline.blocks.map (Block.lower lines),
    outline.failure.map (ParseError.lower lines)⟩

theorem unexpected_lower (lines line : UInt32) (sigil : Sigil) (tokens : List Token) :
    unexpected (line + lines) sigil (tokens.map (Token.lower lines)) =
      (unexpected line sigil tokens).lower lines := by
  cases tokens <;> rfl

/-- No literal stands in front. -/
def Bare (tokens : List Token) : Prop :=
  ∀ text line rest, tokens = ⟨.literal text, line⟩ :: rest → False

theorem Bare.lower {tokens : List Token} (bare : Bare tokens) (lines : UInt32) :
    Bare (tokens.map (Token.lower lines)) := by
  intro text line rest same
  cases tokens with
  | nil => cases same
  | cons token tokens =>
    obtain ⟨kind, place⟩ := token
    obtain ⟨first, -⟩ := List.cons_eq_cons.1 same
    obtain ⟨rfl, -⟩ := Token.mk.injEq .. ▸ first
    exact bare text place tokens rfl

theorem Bare.before_end {tokens : List Token} (bare : Bare tokens) (line : UInt32) :
    Bare (tokens ++ [⟨.endOfText, line⟩]) := by
  intro text place rest same
  cases tokens with
  | nil => cases same
  | cons token tokens =>
    obtain ⟨rfl, -⟩ := List.cons_eq_cons.1 same
    exact bare text place tokens rfl

theorem outline_sectionMark {rest : List Token} (bare : Bare rest) (line : UInt32) :
    outline (⟨.sectionMark, line⟩ :: rest) = .fail (unexpected line .sectionMark rest) := by
  rw [outline]
  exact bare

theorem outline_folderMark {rest : List Token} (bare : Bare rest) (line : UInt32) :
    outline (⟨.folderMark, line⟩ :: rest) = .fail (unexpected line .folderMark rest) := by
  rw [outline]
  exact bare

theorem outline_lower (lines : UInt32) (tokens : List Token) :
    outline (tokens.map (Token.lower lines)) = (outline tokens).lower lines := by
  fun_induction outline tokens with
  | case1 => rfl
  | case2 line keyword other rest ih =>
    change (outline (rest.map (Token.lower lines))).heading (line + lines) keyword = _
    rw [ih]
    rfl
  | case3 line rest bare =>
    have moved := outline_sectionMark (Bare.lower bare lines) (line + lines)
    rw [unexpected_lower] at moved
    exact moved
  | case4 line fragment other rest ih =>
    change (outline (rest.map (Token.lower lines))).entry (.folder (line + lines) fragment) = _
    rw [ih]
    rfl
  | case5 line rest bare =>
    have moved := outline_folderMark (Bare.lower bare lines) (line + lines)
    rw [unexpected_lower] at moved
    exact moved
  | case6 text line rest ih =>
    change (outline (rest.map (Token.lower lines))).entry (.path (line + lines) text) = _
    rw [ih]
    rfl
  | case7 line rest ih => exact ih
  | case8 line rest ih => exact ih

/-- What the words of two manifests are put together to, when the upper one has no failure and
there is no entry above the first heading of the lower one. -/
def Outline.above (upper lower : Outline) : Outline :=
  ⟨upper.loose, upper.blocks ++ lower.blocks, lower.failure⟩

theorem Outline.above_of_bare {upper : Outline} {lower : Outline} (bare : lower.loose = [])
    (none : upper = ⟨[], [], .none⟩) : upper.above lower = lower := by
  obtain ⟨loose, blocks, failure⟩ := lower
  obtain rfl : loose = [] := bare
  rw [none]
  rfl

theorem outline_above {tokens lower : List Token} {line : UInt32}
    (sound : (outline (tokens ++ [⟨.endOfText, line⟩])).failure = none)
    (bare : (outline lower).loose = []) :
    outline (tokens ++ lower) =
      (outline (tokens ++ [⟨.endOfText, line⟩])).above (outline lower) := by
  fun_induction outline tokens with
  | case1 => exact (Outline.above_of_bare bare rfl).symm
  | case2 place keyword other rest ih =>
    have ih := ih sound
    change (outline (rest ++ lower)).heading place keyword = _
    rw [ih]
    rfl
  | case3 place rest blank =>
    rw [List.cons_append, outline_sectionMark (Bare.before_end blank line)] at sound
    cases sound
  | case4 place fragment other rest ih =>
    have ih := ih sound
    change (outline (rest ++ lower)).entry (.folder place fragment) = _
    rw [ih]
    rfl
  | case5 place rest blank =>
    rw [List.cons_append, outline_folderMark (Bare.before_end blank line)] at sound
    cases sound
  | case6 text place rest ih =>
    have ih := ih sound
    change (outline (rest ++ lower)).entry (.path place text) = _
    rw [ih]
    rfl
  | case7 place rest ih => exact ih sound
  | case8 place rest ih => exact ih sound

theorem loose_sectionMark (line : UInt32) (rest : List Token) :
    (outline (⟨.sectionMark, line⟩ :: rest)).loose = [] := by
  by_cases bare : Bare rest
  · rw [outline_sectionMark bare]
    rfl
  · simp only [Bare, not_forall] at bare
    obtain ⟨keyword, place, more, rfl, -⟩ := bare
    rfl

/-- The first word is a heading, or there is none at all. Comments do not count. -/
def StartsSection (tokens : List Token) : Prop :=
  (tokens.find? (·.kind ≠ .comment)).map Token.kind = some .sectionMark ∨
    ∀ token ∈ tokens, token.kind = .comment ∨ token.kind = .endOfText

theorem loose_of_startsSection {tokens : List Token} (starts : StartsSection tokens) :
    (outline tokens).loose = [] := by
  induction tokens with
  | nil => rfl
  | cons token rest ih =>
    obtain ⟨kind, line⟩ := token
    rcases starts with heading | wordless
    · cases kind with
      | sectionMark => exact loose_sectionMark line rest
      | comment => exact ih (.inl heading)
      | folderMark | literal | endOfText => cases heading
    · have rest := ih (.inr fun token mem => wordless token (List.mem_cons_of_mem _ mem))
      rcases wordless _ List.mem_cons_self with same | same <;> cases same <;> exact rest

/-! Sections. -/

theorem value_resolve_path (files : FileTree) (folder : Path) (line : UInt32) (text : String)
    (rest : List Entry) : (resolve files folder (.path line text :: rest)).value =
      let found := (resolvePath files line (folder.join ⟨text⟩)).value
      let contents := (resolve files folder rest).value
      ⟨contents.folder, found.1 ++ contents.assets, found.2 + contents.errors⟩ := rfl

theorem value_resolve_lower (files : FileTree) (folder : Path) (lines : UInt32)
    (entries : List Entry) : (resolve files folder (entries.map (Entry.lower lines))).value =
      (resolve files folder entries).value := by
  induction entries generalizing folder with
  | nil => rfl
  | cons entry rest ih =>
    cases entry with
    | folder line fragment => exact ih _
    | path line text =>
      rw [List.map_cons, Entry.lower, value_resolve_path, value_resolve_path, ih,
        value_resolvePath, value_resolvePath]

/-- The sections do not depend on the lines on which they stand. -/
theorem value_readBlocks_lower (files : FileTree) (parent : Path) (lines : UInt32)
    (blocks : List Block) : (readBlocks files parent (blocks.map (Block.lower lines))).value =
      (readBlocks files parent blocks).value := by
  induction blocks with
  | nil => rfl
  | cons block rest ih =>
    rw [List.map_cons, readBlocks, readBlocks, Block.lower]
    dsimp only
    cases typeOfKeyword? block.keyword with
    | some type =>
      simp only [Logged.value_bind, value_resolve_lower, ih]
    | none =>
      simp only [Logged.value_bind, ih]

theorem value_readBlocks_append (files : FileTree) (parent : Path) (blocks more : List Block) :
    (readBlocks files parent (blocks ++ more)).value =
      ((readBlocks files parent blocks).value.1 ++ (readBlocks files parent more).value.1,
        (readBlocks files parent blocks).value.2 + (readBlocks files parent more).value.2) := by
  induction blocks with
  | nil =>
    rw [List.nil_append, readBlocks]
    exact Prod.ext rfl (Nat.zero_add _).symm
  | cons block rest ih =>
    rw [List.cons_append, readBlocks, readBlocks]
    cases typeOfKeyword? block.keyword with
    | some type =>
      simp only [Logged.value_bind, ih, Logged.value_pure, List.cons_append, Nat.add_assoc]
    | none =>
      simp only [Logged.value_bind, ih, Logged.value_pure, Nat.add_right_comm]

/-- What the tokens of a manifest mean. -/
def meaning (files : FileTree) (parent : Path) (tokens : List Token) :
    Except ParseError Manifest :=
  (parse files parent tokens).run.value

/-- The errors which are counted in an outline, with those in its sections. -/
def errorsIn (files : FileTree) (parent : Path) (outline : Outline) : Nat :=
  outline.loose.length + (readBlocks files parent outline.blocks).value.2

theorem meaning_eq (files : FileTree) (parent : Path) (tokens : List Token) :
    meaning files parent tokens = match (outline tokens).failure with
      | some error => .error error
      | none =>
        if 0 < errorsIn files parent (outline tokens) then
          .error (.grammar (errorsIn files parent (outline tokens)))
        else .ok ⟨parent, (readBlocks files parent (outline tokens).blocks).value.1⟩ := by
  rw [meaning, parse, value_bind, run_forM]
  dsimp only
  rw [value_bind, run_lift]
  dsimp only
  cases (outline tokens).failure with
  | some error => rfl
  | none =>
    by_cases wrong : 0 < errorsIn files parent (outline tokens)
    · rw [if_pos wrong]
      rw [errorsIn] at wrong ⊢
      dsimp only
      rw [if_pos wrong]
      rfl
    · rw [if_neg wrong]
      rw [errorsIn] at wrong
      dsimp only
      rw [if_neg wrong]
      rfl

/-- The number of errors which were counted, if reading went on to the end. -/
def counted : Except ParseError Manifest → Option Nat
  | .ok _ => some 0
  | .error (.grammar errors) => some errors
  | .error (.unexpectedToken ..) => none

section join
variable {files : FileTree} {parent : Path} {tokens : List Token} {errors : Nat}

theorem outline_ne_grammar (tokens : List Token) (errors : Nat) :
    (outline tokens).failure ≠ some (.grammar errors) := by
  fun_induction outline tokens with
  | case1 => exact nofun
  | case2 line keyword other rest ih => exact ih
  | case3 line rest => cases rest <;> exact nofun
  | case4 line fragment other rest ih => exact ih
  | case5 line rest => cases rest <;> exact nofun
  | case6 text line rest ih => exact ih
  | case7 line rest ih => exact ih
  | case8 line rest ih => exact ih

theorem counted_eq_some (known : counted (meaning files parent tokens) = some errors) :
    (outline tokens).failure = none ∧ errorsIn files parent (outline tokens) = errors := by
  rw [meaning_eq] at known
  cases failure : (outline tokens).failure with
  | some error =>
    rw [failure] at known
    cases error with
    | unexpectedToken => cases known
    | grammar errors => exact absurd failure (outline_ne_grammar tokens errors)
  | none =>
    rw [failure] at known
    dsimp only at known
    split at known
    · exact ⟨rfl, Option.some.inj known⟩
    · cases known
      exact ⟨rfl, by omega⟩

theorem pos_of_grammar (read : meaning files parent tokens = .error (.grammar errors)) :
    0 < errors := by
  rw [meaning_eq] at read
  split at read
  · rename_i error failure
    rw [Except.error.inj read] at failure
    exact absurd failure (outline_ne_grammar tokens errors)
  · split at read
    · rename_i wrong
      cases read
      exact wrong
    · cases read

theorem meaning_eq_ok {manifest : Manifest} (read : meaning files parent tokens = .ok manifest) :
    manifest = ⟨parent, (readBlocks files parent (outline tokens).blocks).value.1⟩ := by
  rw [meaning_eq] at read
  split at read
  · cases read
  · split at read
    · cases read
    · exact (Except.ok.inj read).symm

theorem meaning_eq_unexpected {line : UInt32} {sigil : Sigil} {found : TokenKind}
    (read : meaning files parent tokens = .error (.unexpectedToken line sigil found)) :
    (outline tokens).failure = some (.unexpectedToken line sigil found) := by
  rw [meaning_eq] at read
  split at read
  · rename_i error failure
    rw [failure, Except.error.inj read]
  · split at read <;> cases read

theorem errorsIn_above {upper lower : Outline} (bare : lower.loose = []) (lines : UInt32) :
    errorsIn files parent (upper.above (lower.lower lines)) =
      errorsIn files parent upper + errorsIn files parent lower := by
  rw [errorsIn, errorsIn, errorsIn, bare]
  change upper.loose.length +
    (readBlocks files parent (upper.blocks ++ lower.blocks.map (Block.lower lines))).value.2 = _
  rw [value_readBlocks_append, value_readBlocks_lower, List.length_nil, Nat.zero_add,
    Nat.add_assoc]

/-- The tokens of two manifests, without the end of the upper one. Line numbers are added as the
words of 32 bits which they are. -/
def joined (upper : List Token) (lines : Nat) (lower : List Token) : List Token :=
  upper.dropLast ++ lower.map (Token.lower (UInt32.ofNat lines))

theorem dropLast_of_tokenize {source : String} (read : (tokenize source).run.value = .ok tokens) :
    ∃ line, tokens = tokens.dropLast ++ [⟨.endOfText, line⟩] := by
  obtain ⟨pieces, -, -, rfl⟩ := tokenize_eq_ok_iff.1 read
  refine ⟨UInt32.ofNat (lineAfter (textOf pieces)), ?_⟩
  rw [placesToEnd, List.map_append, List.map_singleton, List.dropLast_concat]
  rfl

theorem line_le_of_tokenize {source : String} (read : (tokenize source).run.value = .ok tokens) :
    ∀ token ∈ tokens, token.line.toNat ≤ lineAfter source.toList := by
  obtain ⟨pieces, -, whole, rfl⟩ := tokenize_eq_ok_iff.1 read
  intro token mem
  obtain ⟨place, listed, rfl⟩ := List.mem_map.1 mem
  have low : place.2 ≤ lineAfter source.toList := by
    rw [whole]
    rcases List.mem_append.1 listed with early | last
    · exact le_lineAfter pieces [] place early
    · rw [List.mem_singleton.1 last]
  exact Nat.le_trans (Nat.mod_le _ _) low

theorem toNat_line_lower {token : Token} {lines : Nat} (few : token.line.toNat + lines < 2 ^ 32) :
    (token.lower (UInt32.ofNat lines)).line.toNat = token.line.toNat + lines := by
  have small : (UInt32.ofNat lines).toNat = lines := toNat_line (by omega)
  rw [Token.lower, UInt32.toNat_add, small, Nat.mod_eq_of_lt few]

theorem outline_joined {upper lower : List Token} {source : String}
    (read : (tokenize source).run.value = .ok upper) (sound : (outline upper).failure = none)
    (starts : StartsSection lower) (lines : Nat) :
    outline (joined upper lines lower) =
      (outline upper).above ((outline lower).lower (UInt32.ofNat lines)) := by
  obtain ⟨line, whole⟩ := dropLast_of_tokenize read
  rw [whole] at sound
  have bare : (outline (lower.map (Token.lower (UInt32.ofNat lines)))).loose = [] := by
    rw [outline_lower, Outline.lower, loose_of_startsSection starts]
    rfl
  rw [joined, outline_above sound bare, ← whole, outline_lower]

end join

/-- A manifest with another one below it means what both mean. The words of the lower one keep
their order and move down by the lines of the upper one, and its sections follow the others. Errors
are counted together, and the word which ends the lower manifest ends the whole. Line numbers are
exact as long as the last line of the whole has one. -/
theorem meaning_join (files : FileTree) (parent : Path) {a b : String} {upper lower : List Token}
    (readA : (tokenize a).run.value = .ok upper) (readB : (tokenize b).run.value = .ok lower)
    (starts : StartsSection lower) :
    let lines := 1 + a.toList.count '\n'
    let whole := joined upper lines lower
    (tokenize (a ++ "\n" ++ b)).run.value = .ok whole ∧
    (lines + lineAfter b.toList < 2 ^ 32 → ∀ token ∈ lower,
      (token.lower (UInt32.ofNat lines)).line.toNat = token.line.toNat + lines) ∧
    (∀ first second, meaning files parent upper = .ok first →
      meaning files parent lower = .ok second →
        meaning files parent whole = .ok ⟨parent, first.sections ++ second.sections⟩) ∧
    (∀ m n, counted (meaning files parent upper) = some m →
      counted (meaning files parent lower) = some n →
        meaning files parent upper = .error (.grammar m) ∨
          meaning files parent lower = .error (.grammar n) →
        meaning files parent whole = .error (.grammar (m + n))) ∧
    ∀ m line sigil found, counted (meaning files parent upper) = some m →
      meaning files parent lower = .error (.unexpectedToken line sigil found) →
        meaning files parent whole =
          .error (.unexpectedToken (line + UInt32.ofNat lines) sigil found) := by
  intro lines whole
  have bare := loose_of_startsSection starts
  have outlined {m : Nat} (known : counted (meaning files parent upper) = some m) :
      outline whole = (outline upper).above ((outline lower).lower (UInt32.ofNat lines)) :=
    outline_joined readA (counted_eq_some known).1 starts lines
  refine ⟨tokenize_join readA readB, ?_, ?_, ?_, ?_⟩
  · intro few token mem
    have low := line_le_of_tokenize readB token mem
    exact toNat_line_lower (by omega)
  · intro first second readUpper readLower
    have known : counted (meaning files parent upper) = some 0 := congrArg counted readUpper
    have known' : counted (meaning files parent lower) = some 0 := congrArg counted readLower
    obtain ⟨sound, none⟩ := counted_eq_some known
    obtain ⟨sound', none'⟩ := counted_eq_some known'
    rw [meaning_eq, outlined (congrArg counted readUpper), errorsIn_above bare, none, none',
      meaning_eq_ok readUpper, meaning_eq_ok readLower]
    simp only [Outline.above, Outline.lower, sound', value_readBlocks_append,
      value_readBlocks_lower]
    rfl
  · intro m n known known' wrong
    obtain ⟨sound, errors⟩ := counted_eq_some known
    obtain ⟨sound', errors'⟩ := counted_eq_some known'
    have some : 0 < m + n := by
      rcases wrong with wrong | wrong <;> have := pos_of_grammar wrong <;> omega
    rw [meaning_eq, outlined known, errorsIn_above bare, errors, errors']
    simp only [Outline.above, Outline.lower, sound', Option.map_none, if_pos some]
  · intro m line sigil found known failed
    have failure := meaning_eq_unexpected failed
    rw [meaning_eq, outlined known]
    simp only [Outline.above, Outline.lower, failure]
    rfl

/-- A path above any section and a section of unknown type. -/
def looseWords : List Token :=
  [⟨.literal "x", 1⟩, ⟨.sectionMark, 2⟩, ⟨.literal "ui", 2⟩, ⟨.comment, 2⟩, ⟨.endOfText, 2⟩]

/-- A folder without its name. -/
def openWords : List Token :=
  [⟨.comment, 1⟩, ⟨.sectionMark, 2⟩, ⟨.literal "font", 2⟩, ⟨.folderMark, 2⟩, ⟨.endOfText, 2⟩]

def soundWords : List Token :=
  [⟨.sectionMark, 1⟩, ⟨.literal "font", 1⟩, ⟨.literal "f", 1⟩, ⟨.endOfText, 1⟩]

theorem meaning_join_openWords : StartsSection openWords ∧ StartsSection soundWords ∧
    (tokenize "x\n::ui #y\n#z\n::font $").run.value = .ok (joined looseWords 2 openWords) ∧
    meaning ⟨.empty, []⟩ ⟨"m"⟩ (joined looseWords 2 openWords) =
      .error (.unexpectedToken 4 .folderMark .endOfText) ∧
    meaning ⟨.empty, []⟩ ⟨"m"⟩ (joined looseWords 2 soundWords) = .error (.grammar 2) ∧
    meaning ⟨.empty, []⟩ ⟨"m"⟩ (joined soundWords 1 soundWords) =
      .ok ⟨⟨"m"⟩, [⟨.font, ⟨"m"⟩, [⟨"m/f"⟩]⟩, ⟨.font, ⟨"m"⟩, [⟨"m/f"⟩]⟩]⟩ := by
  have loose : (tokenize "x\n::ui #y").run.value = .ok looseWords := by decide +kernel
  have broken : (tokenize "#z\n::font $").run.value = .ok openWords := by decide +kernel
  have sound : (tokenize "::font f").run.value = .ok soundWords := by decide +kernel
  have starts : StartsSection openWords := .inl (by decide)
  have starts' : StartsSection soundWords := .inl (by decide)
  obtain ⟨read, -, -, -, stops⟩ := meaning_join ⟨.empty, []⟩ ⟨"m"⟩ loose broken starts
  obtain ⟨-, -, -, counts, -⟩ := meaning_join ⟨.empty, []⟩ ⟨"m"⟩ loose sound starts'
  obtain ⟨-, -, follows, -, -⟩ := meaning_join ⟨.empty, []⟩ ⟨"m"⟩ sound sound starts'
  refine ⟨starts, starts', read, ?_, ?_, ?_⟩
  · exact stops 2 2 .folderMark .endOfText (by decide +kernel) (by decide +kernel)
  · exact counts 2 0 (by decide +kernel) (by decide +kernel) (.inl (by decide +kernel))
  · have one : meaning ⟨.empty, []⟩ ⟨"m"⟩ soundWords =
        .ok ⟨⟨"m"⟩, [⟨.font, ⟨"m"⟩, [⟨"m/f"⟩]⟩]⟩ := by
      decide +kernel
    exact follows _ _ one one

end AssetPack.Manifest

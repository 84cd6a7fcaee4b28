import Mathlib.Algebra.Ring.Nat
import Mathlib.Data.List.TakeWhile
import AssetPack.Manifest.Token
import AssetPack.Proofs.Log

/-! Manifests as gaps and words: a text is read as what it is made of, up to the first character
which is part of neither. -/

namespace AssetPack.Manifest

theorem takeWhile_of_ends {p : Char → Bool} {text rest : List Char}
    (inside : ∀ c ∈ text, p c = true) (ends : ∀ c ∈ rest.head?, p c = false) :
    (text ++ rest).takeWhile p = text := by
  rw [List.takeWhile_append_of_pos inside]
  cases rest with
  | nil => exact List.append_nil text
  | cons c rest => rw [List.takeWhile_cons_of_neg (by simp [ends c rfl]), List.append_nil]

theorem dropWhile_of_ends {p : Char → Bool} {text rest : List Char}
    (inside : ∀ c ∈ text, p c = true) (ends : ∀ c ∈ rest.head?, p c = false) :
    (text ++ rest).dropWhile p = rest := by
  rw [List.dropWhile_append_of_pos inside]
  cases rest with
  | nil => rfl
  | cons c rest => exact List.dropWhile_cons_of_neg (by simp [ends c rfl])

theorem dropWhile_ends {p : Char → Bool} (text : List Char) :
    ∀ c ∈ (text.dropWhile p).head?, p c = false := by
  intro c first
  have stops := List.head?_dropWhile_not p text
  rwa [Option.mem_def.1 first] at stops

/-- The characters of which gaps are made. Other blanks end a literal, but are in no gap. -/
def gapChars : List Char := [' ', '\t', '\r', '\n']

/-- The signs with which a literal can start, besides letters and digits. -/
def literalSigns : List Char := ['_', '.', '/', '\\']

/-- A word with its characters, in front of what follows. A comment goes on to the end of its line,
and a literal to the next blank. -/
inductive Word : TokenKind → List Char → List Char → Prop
  | sectionMark (rest : List Char) : Word .sectionMark [':', ':'] rest
  | folderMark (rest : List Char) : Word .folderMark ['$'] rest
  | comment {text rest : List Char} (inside : ∀ c ∈ text, c ≠ '\n')
    (ends : ∀ c ∈ rest.head?, c = '\n') : Word .comment ('#' :: text) rest
  | literal {first : Char} {text rest : List Char}
    (starts : first.isAlphanum = true ∨ first ∈ literalSigns)
    (inside : ∀ c ∈ text, Text.isBlank c = false) (ends : ∀ c ∈ rest.head?, Text.isBlank c = true) :
    Word (.literal (String.ofList (first :: text))) (first :: text) rest

inductive Piece where
  | gap (c : Char)
  | word (kind : TokenKind) (chars : List Char)
  deriving DecidableEq, Repr

def Piece.chars : Piece → List Char
  | gap c => [c]
  | word _ chars => chars

def textOf (pieces : List Piece) : List Char := pieces.flatMap Piece.chars

/-- Gaps and words which stand one after the other, in front of what follows. -/
inductive Divided : List Piece → List Char → Prop
  | nil (rest : List Char) : Divided [] rest
  | gap {c : Char} {pieces : List Piece} {rest : List Char} (blank : c ∈ gapChars)
    (more : Divided pieces rest) : Divided (.gap c :: pieces) rest
  | word {kind : TokenKind} {chars : List Char} {pieces : List Piece} {rest : List Char}
    (word : Word kind chars (textOf pieces ++ rest)) (more : Divided pieces rest) :
    Divided (.word kind chars :: pieces) rest

/-- The line on which a text goes on. -/
def lineAfter (text : List Char) : Nat := 1 + text.count '\n'

/-- The words among some pieces with the lines on which they start. -/
def places (before : List Char) : List Piece → List (TokenKind × Nat)
  | [] => []
  | .gap c :: more => places (before ++ [c]) more
  | .word kind chars :: more => (kind, lineAfter before) :: places (before ++ chars) more

/-- The words of a whole text, at whose end stands a last one. -/
def placesToEnd (pieces : List Piece) : List (TokenKind × Nat) :=
  places [] pieces ++ [(.endOfText, lineAfter (textOf pieces))]

/-- The pieces of a text, up to where none is left to be found. -/
structure Longest (text : List Char) (pieces : List Piece) (rest : List Char) : Prop where
  divided : Divided pieces rest
  whole : text = textOf pieces ++ rest
  longest : ∀ pieces' rest', Divided pieces' rest' → text = textOf pieces' ++ rest' →
    (textOf pieces').length ≤ (textOf pieces).length

/-! Words are told apart by their characters. -/

theorem Word.ne_nil {kind : TokenKind} {chars rest : List Char} (word : Word kind chars rest) :
    chars ≠ [] := by
  cases word <;> exact List.cons_ne_nil _ _

theorem startsLiteral_iff {c : Char} :
    startsLiteral c = true ↔ c.isAlphanum = true ∨ c ∈ literalSigns := by
  simp [startsLiteral, literalSigns, or_assoc]

theorem ne_of_starts {first : Char}
    (starts : first.isAlphanum = true ∨ first ∈ literalSigns) (sign : Char)
    (never : ¬ (sign.isAlphanum = true ∨ sign ∈ literalSigns)) : first ≠ sign := by
  rintro rfl
  exact never starts

theorem Word.not_gap {kind : TokenKind} {c : Char} {chars rest : List Char}
    (word : Word kind (c :: chars) rest) : c ∉ gapChars := by
  cases word with
  | sectionMark | folderMark | comment => decide
  | literal starts =>
    intro gap
    simp only [gapChars, List.mem_cons, List.not_mem_nil, or_false] at gap
    rcases gap with rfl | rfl | rfl | rfl <;> exact ne_of_starts starts _ (by decide) rfl

/-- The word at the front of a text, if there is one. -/
def frontWord (text : List Char) : TokenKind × List Char :=
  match text with
  | [] => (.endOfText, [])
  | c :: rest =>
    if c = ':' then (.sectionMark, [':', ':'])
    else if c = '$' then (.folderMark, ['$'])
    else if c = '#' then (.comment, '#' :: rest.takeWhile (· ≠ '\n'))
    else
      let chars := c :: rest.takeWhile (! Text.isBlank ·)
      (.literal (String.ofList chars), chars)

theorem Word.frontWord_eq {kind : TokenKind} {chars rest : List Char}
    (word : Word kind chars rest) : frontWord (chars ++ rest) = (kind, chars) := by
  cases word with
  | sectionMark | folderMark => rfl
  | @comment text rest inside ends =>
    have line : (text ++ rest).takeWhile (· ≠ '\n') = text :=
      takeWhile_of_ends (by simpa using inside) (by simpa using ends)
    rw [List.cons_append, frontWord, if_neg (by decide), if_neg (by decide), if_pos rfl, line]
  | @literal first text rest starts inside ends =>
    have solid : (text ++ rest).takeWhile (! Text.isBlank ·) = text :=
      takeWhile_of_ends (by simpa using inside) (by simpa using ends)
    have other := ne_of_starts starts
    simp [frontWord, solid, other ':' (by decide), other '$' (by decide), other '#' (by decide)]

theorem Word.unique {kind kind' : TokenKind} {chars chars' rest rest' : List Char}
    (word : Word kind chars rest) (word' : Word kind' chars' rest')
    (same : chars ++ rest = chars' ++ rest') : kind = kind' ∧ chars = chars' := by
  rw [← Prod.mk.injEq, ← word.frontWord_eq, same, word'.frontWord_eq]

/-- No gap and no word stands at the front of the text. -/
structure Stuck (text : List Char) : Prop where
  noGap : ∀ c ∈ text.head?, c ∉ gapChars
  noWord : ∀ kind chars rest, text = chars ++ rest → ¬ Word kind chars rest

/-- Every text can be divided up to where it is stuck. -/
theorem exists_divided (text : List Char) :
    ∃ pieces rest, Divided pieces rest ∧ text = textOf pieces ++ rest ∧ Stuck rest := by
  induction length : text.length using Nat.strong_induction_on generalizing text with
  | _ n ih =>
    by_cases stuck : Stuck text
    · exact ⟨[], text, .nil text, rfl, stuck⟩
    by_cases gap : ∃ c ∈ text.head?, c ∈ gapChars
    · obtain ⟨c, first, blank⟩ := gap
      obtain ⟨more, rfl⟩ := List.head?_eq_some_iff.1 first
      obtain ⟨pieces, rest, divided, rfl, ends⟩ := ih more.length (by simp [← length]) more rfl
      exact ⟨.gap c :: pieces, rest, .gap blank divided, rfl, ends⟩
    · have word : ∃ kind chars more, text = chars ++ more ∧ Word kind chars more := by
        by_contra none
        refine stuck ⟨fun c first blank => gap ⟨c, first, blank⟩, ?_⟩
        intro kind chars more whole word
        exact none ⟨kind, chars, more, whole, word⟩
      obtain ⟨kind, chars, more, rfl, word⟩ := word
      have shorter : more.length < n := by
        have some := List.length_pos_iff.2 word.ne_nil
        rw [← length, List.length_append]
        omega
      obtain ⟨pieces, rest, divided, rfl, ends⟩ := ih more.length shorter more rfl
      refine ⟨.word kind chars :: pieces, rest, .word word divided, ?_, ends⟩
      rw [← List.append_assoc]
      rfl

/-- There is only one way to divide a text, which ends where the text is stuck. -/
theorem Divided.prefix_of_stuck {pieces pieces' : List Piece} {rest rest' : List Char}
    (divided : Divided pieces rest) (stuck : Stuck rest) (divided' : Divided pieces' rest')
    (same : textOf pieces ++ rest = textOf pieces' ++ rest') : pieces' <+: pieces := by
  induction divided' generalizing pieces with
  | nil => exact List.nil_prefix
  | @gap c pieces' rest' blank more ih =>
    change _ = c :: (textOf pieces' ++ rest') at same
    cases divided with
    | nil =>
      have first : c ∈ rest.head? := by
        rw [show rest = c :: _ from same]
        rfl
      exact absurd blank (stuck.noGap c first)
    | gap blank' more' =>
      obtain ⟨rfl, tails⟩ := List.cons_eq_cons.1 same
      exact (List.prefix_cons_inj _).2 (ih more' tails)
    | @word kind chars pieces _ word more' =>
      obtain ⟨first, chars, rfl⟩ := List.exists_cons_of_ne_nil word.ne_nil
      obtain ⟨rfl, -⟩ := List.cons_eq_cons.1 same
      exact absurd blank word.not_gap
  | @word kind chars pieces' rest' word more ih =>
    change _ = chars ++ textOf pieces' ++ rest' at same
    rw [List.append_assoc] at same
    cases divided with
    | nil => exact absurd word (stuck.noWord kind chars _ same)
    | gap blank more' =>
      obtain ⟨first, chars, rfl⟩ := List.exists_cons_of_ne_nil word.ne_nil
      obtain ⟨rfl, -⟩ := List.cons_eq_cons.1 same
      exact absurd blank word.not_gap
    | @word kind' chars' pieces _ word' more' =>
      change chars' ++ textOf pieces ++ rest = _ at same
      rw [List.append_assoc] at same
      obtain ⟨rfl, rfl⟩ := word'.unique word same
      exact (List.prefix_cons_inj _).2 (ih more' (List.append_cancel_left same))

/-! What the pieces of a text are read as. -/

theorem scan_gap {c : Char} (blank : c ∈ gapChars) (line : UInt32) (rest : List Char) :
    scan line (c :: rest) = scan (if c = '\n' then line + 1 else line) rest := by
  simp only [gapChars, List.mem_cons, List.not_mem_nil, or_false] at blank
  rw [scan.eq_def]
  rcases blank with rfl | rfl | rfl | rfl <;> rfl

theorem scan_word {kind : TokenKind} {chars rest : List Char} (word : Word kind chars rest)
    (line : UInt32) : scan line (chars ++ rest) = (scan line rest).cons ⟨kind, line⟩ := by
  cases word with
  | sectionMark | folderMark =>
    rw [List.cons_append, scan.eq_def]
    rfl
  | @comment text rest inside ends =>
    have behind : (text ++ rest).dropWhile (· ≠ '\n') = rest :=
      dropWhile_of_ends (by simpa using inside) (by simpa using ends)
    rw [List.cons_append, scan.eq_def]
    change (scan line ((text ++ rest).dropWhile (· ≠ '\n'))).cons _ = _
    rw [behind]
  | @literal first text rest starts inside ends =>
    have solid : (text ++ rest).takeWhile (! Text.isBlank ·) = text :=
      takeWhile_of_ends (by simpa using inside) (by simpa using ends)
    have behind : (text ++ rest).dropWhile (! Text.isBlank ·) = rest :=
      dropWhile_of_ends (by simpa using inside) (by simpa using ends)
    have other := ne_of_starts starts
    have noGap : isGap first = false := by
      simp [isGap, other ' ' (by decide), other '\t' (by decide), other '\r' (by decide)]
    rw [List.cons_append, scan.eq_def]
    simp [noGap, solid, behind, other '\n' (by decide), other ':' (by decide),
      other '$' (by decide), other '#' (by decide), startsLiteral_iff.2 starts]

/-- What is wrong with a text which is stuck. -/
def stuckError (line : UInt32) (c : Char) (rest : List Char) : LexError :=
  if c = ':' then .malformedSection line rest.head? else .unrecognizedCharacter line c

theorem scan_stuck {c : Char} {rest : List Char} (stuck : Stuck (c :: rest)) (line : UInt32) :
    scan line (c :: rest) = ⟨[], some (stuckError line c rest)⟩ := by
  have noGap : c ∉ gapChars := stuck.noGap c rfl
  have noFolder : c ≠ '$' := by
    rintro rfl
    exact stuck.noWord _ ['$'] rest rfl (.folderMark rest)
  have noComment : c ≠ '#' := by
    rintro rfl
    refine stuck.noWord _ ('#' :: rest.takeWhile (· ≠ '\n')) (rest.dropWhile (· ≠ '\n')) ?_
      (.comment ?_ ?_)
    · rw [List.cons_append, List.takeWhile_append_dropWhile]
    · exact fun c mem => by simpa using List.mem_takeWhile_imp mem
    · exact fun c first => by simpa using dropWhile_ends rest c first
  have noLiteral : startsLiteral c = false := by
    rw [Bool.eq_false_iff]
    intro starts
    refine stuck.noWord _ (c :: rest.takeWhile (! Text.isBlank ·))
      (rest.dropWhile (! Text.isBlank ·)) ?_ (.literal (startsLiteral_iff.1 starts) ?_ ?_)
    · rw [List.cons_append, List.takeWhile_append_dropWhile]
    · exact fun c mem => by simpa using List.mem_takeWhile_imp mem
    · exact fun c first => by simpa using dropWhile_ends rest c first
  simp only [gapChars, List.mem_cons, List.not_mem_nil, or_false, not_or] at noGap
  obtain ⟨noSpace, noTab, noReturn, noFeed⟩ := noGap
  rw [scan.eq_def, stuckError]
  by_cases colon : c = ':'
  · subst colon
    cases rest with
    | nil => rfl
    | cons next rest =>
      have single : next ≠ ':' := by
        rintro rfl
        exact stuck.noWord _ [':', ':'] rest rfl (.sectionMark rest)
      simp [isGap, single]
  · simp [isGap, noSpace, noTab, noReturn, noFeed, colon, noFolder, noComment, noLiteral]

theorem lineAfter_append_gap (before : List Char) (c : Char) :
    lineAfter (before ++ [c]) = lineAfter before + if c = '\n' then 1 else 0 := by
  rw [lineAfter, lineAfter, List.count_append, List.count_singleton, Nat.add_assoc]
  simp only [beq_iff_eq]

/-- Line feeds stand in gaps only. -/
theorem Word.count_feed {kind : TokenKind} {chars rest : List Char} (word : Word kind chars rest) :
    chars.count '\n' = 0 := by
  rw [List.count_eq_zero]
  cases word with
  | sectionMark | folderMark => decide
  | comment inside =>
    rw [List.mem_cons, not_or]
    exact ⟨by decide, fun mem => inside _ mem rfl⟩
  | literal starts inside =>
    rw [List.mem_cons, not_or]
    refine ⟨fun same => ?_, fun mem => ?_⟩
    · exact ne_of_starts starts '\n' (by decide) same.symm
    · cases inside _ mem

theorem lineAfter_append_word {kind : TokenKind} {chars rest : List Char}
    (word : Word kind chars rest) (before : List Char) :
    lineAfter (before ++ chars) = lineAfter before := by
  rw [lineAfter, List.count_append, word.count_feed, Nat.add_zero, lineAfter]

/-- The token of a word on a line. -/
def tokenAt (place : TokenKind × Nat) : Token := ⟨place.1, UInt32.ofNat place.2⟩

/-- The pieces in front of a text come out as the tokens of their words. -/
theorem scan_divided {pieces : List Piece} {rest : List Char} (divided : Divided pieces rest)
    (before : List Char) :
    scan (UInt32.ofNat (lineAfter before)) (textOf pieces ++ rest) =
      let behind := scan (UInt32.ofNat (lineAfter (before ++ textOf pieces))) rest
      ⟨(places before pieces).map tokenAt ++ behind.tokens, behind.failure⟩ := by
  induction divided generalizing before with
  | nil =>
    rw [textOf, List.flatMap_nil, List.append_nil]
    rfl
  | @gap c pieces rest blank more ih =>
    have line : (if c = '\n' then UInt32.ofNat (lineAfter before) + 1
        else UInt32.ofNat (lineAfter before)) = UInt32.ofNat (lineAfter (before ++ [c])) := by
      rw [lineAfter_append_gap, UInt32.ofNat_add]
      split
      · rfl
      · exact (UInt32.add_zero _).symm
    change scan _ (c :: (textOf pieces ++ rest)) = _
    rw [scan_gap blank, line, ih, List.append_assoc]
    rfl
  | @word kind chars pieces rest word more ih =>
    change scan _ (chars ++ textOf pieces ++ rest) = _
    rw [List.append_assoc, scan_word word, ← lineAfter_append_word word before, ih,
      List.append_assoc, Scan.cons, places, ← lineAfter_append_word word before]
    rfl

theorem value_tokenize (source : String) :
    (tokenize source).run.value = match (scan 1 source.toList).failure with
      | none => .ok (scan 1 source.toList).tokens
      | some error => .error error := by
  rw [tokenize, Attempt.value_bind, Attempt.run_forM]
  dsimp only
  cases (scan 1 source.toList).failure <;> rfl

theorem tokenize_divided {source : String} {pieces : List Piece} (divided : Divided pieces [])
    (whole : source.toList = textOf pieces) :
    (tokenize source).run.value = .ok ((placesToEnd pieces).map tokenAt) := by
  have first : scan 1 (textOf pieces ++ []) = _ := scan_divided divided []
  rw [List.append_nil, List.nil_append, scan.eq_def _ []] at first
  rw [value_tokenize, whole, first, placesToEnd, List.map_append]
  rfl

theorem tokenize_stuck {source : String} {pieces : List Piece} {c : Char} {rest : List Char}
    (divided : Divided pieces (c :: rest)) (stuck : Stuck (c :: rest))
    (whole : source.toList = textOf pieces ++ c :: rest) : (tokenize source).run.value =
      .error (stuckError (UInt32.ofNat (lineAfter (textOf pieces))) c rest) := by
  have first : scan 1 (textOf pieces ++ c :: rest) = _ := scan_divided divided []
  rw [value_tokenize, whole, first, scan_stuck stuck]
  rfl

/-- The pieces of a text end where it is stuck. -/
theorem longest_iff {text rest : List Char} {pieces : List Piece} :
    Longest text pieces rest ↔ Divided pieces rest ∧ text = textOf pieces ++ rest ∧ Stuck rest := by
  have shorter {pieces pieces' : List Piece} (part : pieces' <+: pieces) :
      (textOf pieces').length ≤ (textOf pieces).length := by
    obtain ⟨more, rfl⟩ := part
    rw [textOf, textOf, List.flatMap_append, List.length_append]
    exact Nat.le_add_right _ _
  constructor
  · rintro ⟨divided, rfl, longest⟩
    obtain ⟨pieces', rest', divided', whole, stuck⟩ := exists_divided (textOf pieces ++ rest)
    have part := divided'.prefix_of_stuck stuck divided whole.symm
    have same := Nat.le_antisymm (shorter part) (longest pieces' rest' divided' whole)
    obtain ⟨-, rfl⟩ := List.append_inj whole same
    exact ⟨divided, rfl, stuck⟩
  · rintro ⟨divided, rfl, stuck⟩
    exact ⟨divided, rfl, fun pieces' rest' divided' same =>
      shorter (divided.prefix_of_stuck stuck divided' same)⟩

theorem tokenize_eq_ok_iff {source : String} {tokens : List Token} :
    (tokenize source).run.value = .ok tokens ↔ ∃ pieces, Divided pieces [] ∧
      source.toList = textOf pieces ∧ tokens = (placesToEnd pieces).map tokenAt := by
  constructor
  · intro read
    obtain ⟨pieces, rest, divided, whole, stuck⟩ := exists_divided source.toList
    cases rest with
    | nil =>
      rw [List.append_nil] at whole
      rw [tokenize_divided divided whole] at read
      exact ⟨pieces, divided, whole, (Except.ok.inj read).symm⟩
    | cons c more =>
      rw [tokenize_stuck divided stuck whole] at read
      cases read
  · rintro ⟨pieces, divided, whole, rfl⟩
    exact tokenize_divided divided whole

theorem tokenize_eq_error_iff {source : String} {error : LexError} :
    (tokenize source).run.value = .error error ↔ ∃ pieces c rest,
      Longest source.toList pieces (c :: rest) ∧
        error = stuckError (UInt32.ofNat (lineAfter (textOf pieces))) c rest := by
  constructor
  · intro read
    obtain ⟨pieces, rest, divided, whole, stuck⟩ := exists_divided source.toList
    cases rest with
    | nil =>
      rw [List.append_nil] at whole
      rw [tokenize_divided divided whole] at read
      cases read
    | cons c more =>
      rw [tokenize_stuck divided stuck whole] at read
      exact ⟨pieces, c, more, longest_iff.2 ⟨divided, whole, stuck⟩, (Except.error.inj read).symm⟩
  · rintro ⟨pieces, c, rest, longest, rfl⟩
    obtain ⟨divided, whole, stuck⟩ := longest_iff.1 longest
    exact tokenize_stuck divided stuck whole

/-! Lines as numbers, which wrap around. -/

theorem le_lineAfter (pieces : List Piece) (before : List Char) :
    ∀ place ∈ places before pieces, place.2 ≤ lineAfter (before ++ textOf pieces) := by
  intro place mem
  induction pieces generalizing before with
  | nil => cases mem
  | cons piece more ih =>
    rw [textOf, List.flatMap_cons, ← textOf, ← List.append_assoc]
    cases piece with
    | gap c => exact ih (before ++ [c]) mem
    | word kind chars =>
      rcases List.mem_cons.1 mem with rfl | mem
      · rw [lineAfter, lineAfter, List.append_assoc, List.count_append]
        omega
      · exact ih (before ++ chars) mem

def Token.place (token : Token) : TokenKind × Nat := (token.kind, token.line.toNat)

theorem toNat_line {line : Nat} (less : line < 2 ^ 32) : (UInt32.ofNat line).toNat = line := by
  rw [UInt32.toNat_ofNat', Nat.mod_eq_of_lt less]

theorem map_place_tokenAt {all : List (TokenKind × Nat)} (less : ∀ place ∈ all, place.2 < 2 ^ 32) :
    (all.map tokenAt).map Token.place = all := by
  rw [List.map_map]
  refine (List.map_congr_left fun place mem => ?_).trans (List.map_id all)
  exact congrArg (Prod.mk place.1) (toNat_line (less place mem))

/-- A text which is made of gaps and words is read as its words, with the lines on which they start.
In every other text the first character which is part of neither is wrong. Numbers of lines wrap
around after the one which `few` still admits. -/
theorem tokenize_words (source : String) (few : source.toList.count '\n' < 2 ^ 32 - 1) :
    (∀ words, (∃ tokens, (tokenize source).run.value = .ok tokens ∧
        tokens.map Token.place = words) ↔
      ∃ pieces, Divided pieces [] ∧ source.toList = textOf pieces ∧ words = placesToEnd pieces) ∧
    ∀ error, (tokenize source).run.value = .error error ↔
      ∃ pieces c rest line, Longest source.toList pieces (c :: rest) ∧
        line.toNat = lineAfter (textOf pieces) ∧ error = stuckError line c rest := by
  have last : lineAfter source.toList < 2 ^ 32 := by
    rw [lineAfter]
    omega
  constructor
  · intro words
    have numbers {pieces : List Piece} (whole : source.toList = textOf pieces) :
        ((placesToEnd pieces).map tokenAt).map Token.place = placesToEnd pieces := by
      rw [whole] at last
      refine map_place_tokenAt fun place mem => ?_
      rcases List.mem_append.1 mem with mem | mem
      · exact Nat.lt_of_le_of_lt (le_lineAfter pieces [] place mem) last
      · rw [List.mem_singleton.1 mem]
        exact last
    constructor
    · rintro ⟨tokens, read, rfl⟩
      obtain ⟨pieces, divided, whole, rfl⟩ := tokenize_eq_ok_iff.1 read
      exact ⟨pieces, divided, whole, numbers whole⟩
    · rintro ⟨pieces, divided, whole, rfl⟩
      exact ⟨_, tokenize_eq_ok_iff.2 ⟨pieces, divided, whole, rfl⟩, numbers whole⟩
  · intro error
    have early {pieces : List Piece} {rest : List Char}
        (longest : Longest source.toList pieces rest) : lineAfter (textOf pieces) < 2 ^ 32 := by
      rw [lineAfter, longest.whole, List.count_append] at last
      rw [lineAfter]
      omega
    rw [tokenize_eq_error_iff]
    constructor
    · rintro ⟨pieces, c, rest, longest, rfl⟩
      exact ⟨pieces, c, rest, _, longest, toNat_line (early longest), rfl⟩
    · rintro ⟨pieces, c, rest, line, longest, number, rfl⟩
      refine ⟨pieces, c, rest, longest, ?_⟩
      rw [← number, UInt32.ofNat_toNat]

/-- A literal goes on over signs, and a comment over a carriage return. -/
def closeWords : List Piece :=
  [.word .sectionMark [':', ':'], .word (.literal "ui$") ['u', 'i', '$'], .gap '\n',
    .word .comment ['#', 'a', ' ', '$', '\r'], .gap '\n', .word .folderMark ['$'],
    .word (.literal "x:#") ['x', ':', '#']]

theorem divided_closeWords : Divided closeWords [] := by
  have blank : ∀ c ∈ ['\n'].head?, Text.isBlank c = true := by simp [Text.isBlank]
  have feed : ∀ c ∈ ['\n'].head?, c = '\n' := by simp
  exact .word (.sectionMark _) <|
    .word (.literal (.inl (by decide)) (by simp [Text.isBlank]) blank) <| .gap (by decide) <|
    .word (.comment (by simp) feed) <| .gap (by decide) <| .word (.folderMark _) <|
    .word (.literal (.inl (by decide)) (by simp [Text.isBlank]) (by simp [textOf])) <| .nil []

theorem stuck_singleColon : Stuck [':', '\t'] where
  noGap := by simp [gapChars]
  noWord kind chars rest whole word := by
    cases word with
    | sectionMark | folderMark => cases whole
    | comment =>
      obtain ⟨same, -⟩ := List.cons_eq_cons.1 whole
      revert same
      decide
    | literal starts =>
      exact ne_of_starts starts ':' (by decide) (List.cons_eq_cons.1 whole).1.symm

theorem tokenize_words_closeWords :
    ("::ui$\n#a $\r\n$x:#".toList.count '\n' < 2 ^ 32 - 1 ∧
      ∃ tokens, (tokenize "::ui$\n#a $\r\n$x:#").run.value = .ok tokens ∧
        tokens.map Token.place = [(.sectionMark, 1), (.literal "ui$", 1), (.comment, 2),
          (.folderMark, 3), (.literal "x:#", 3), (.endOfText, 3)]) ∧
    ("#a\n:\t".toList.count '\n' < 2 ^ 32 - 1 ∧
      (tokenize "#a\n:\t").run.value = .error (.malformedSection 2 (some '\t'))) := by
  have whole := tokenize_words "::ui$\n#a $\r\n$x:#" (by decide)
  have broken := tokenize_words "#a\n:\t" (by decide)
  refine ⟨⟨by decide, ?_⟩, by decide, ?_⟩
  · exact (whole.1 _).2 ⟨closeWords, divided_closeWords, rfl, rfl⟩
  · have divided : Divided [.word .comment ['#', 'a'], .gap '\n'] [':', '\t'] :=
      .word (.comment (by simp) (by simp [textOf, Piece.chars])) (.gap (by decide) (.nil _))
    have longest := longest_iff.2 ⟨divided, rfl, stuck_singleColon⟩
    exact (broken.2 _).2 ⟨_, ':', ['\t'], 2, longest, rfl, rfl⟩

end AssetPack.Manifest

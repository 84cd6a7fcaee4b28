import AssetPack.Import.Stages
import AssetPack.Proofs.Manifest.Words

/-! Line ends: a text with carriage returns before its line feeds means the same as without them,
as a manifest and as the source of a shader. -/

namespace AssetPack

namespace Text

/-- The text with a carriage return before every line feed. -/
def withReturns (text : List Char) : List Char :=
  text.flatMap fun c => if c = '\n' then ['\r', '\n'] else [c]

theorem withReturns_feed (rest : List Char) :
    withReturns ('\n' :: rest) = '\r' :: '\n' :: withReturns rest := rfl

theorem withReturns_cons {c : Char} (other : c ≠ '\n') (rest : List Char) :
    withReturns (c :: rest) = c :: withReturns rest := by
  simp [withReturns, other]

theorem withReturns_of_solid {text : List Char} (solid : '\n' ∉ text) (rest : List Char) :
    withReturns (text ++ rest) = text ++ withReturns rest := by
  induction text with
  | nil => rfl
  | cons c text ih =>
    rw [List.mem_cons, not_or] at solid
    rw [List.cons_append, withReturns_cons (Ne.symm solid.1), ih solid.2, List.cons_append]

end Text

namespace Manifest
open Text

/-- What is wrong with a text when its line feeds have carriage returns before them. -/
def LexError.withReturn : LexError → LexError
  | .malformedSection line (some '\n') => .malformedSection line (some '\r')
  | error => error

def Scan.withReturn (scan : Scan) : Scan :=
  { scan with failure := scan.failure.map LexError.withReturn }

/-- What follows a literal still ends it. -/
theorem blank_withReturns {text : List Char} (ends : ∀ c ∈ text.head?, isBlank c = true) :
    ∀ c ∈ (withReturns text).head?, isBlank c = true := by
  cases text with
  | nil => exact ends
  | cons c rest =>
    by_cases feed : c = '\n'
    · subst feed
      rw [withReturns_feed]
      simp [isBlank]
    · rw [withReturns_cons feed]
      exact ends

/-- A carriage return at its end is part of a comment. -/
theorem scan_comment_withReturns (line : UInt32) (rest : List Char) :
    scan line ('#' :: withReturns rest) =
      (scan line (withReturns (rest.dropWhile (· ≠ '\n')))).cons ⟨.comment, line⟩ := by
  have inside : ∀ c ∈ rest.takeWhile (· ≠ '\n'), c ≠ '\n' :=
    fun c mem => by simpa using List.mem_takeWhile_imp mem
  have first := dropWhile_ends (p := (· ≠ '\n')) rest
  have whole := List.takeWhile_append_dropWhile (p := (· ≠ '\n')) (l := rest)
  generalize rest.takeWhile (· ≠ '\n') = text at inside whole
  generalize rest.dropWhile (· ≠ '\n') = behind at first whole ⊢
  rw [← whole, withReturns_of_solid fun mem => inside _ mem rfl]
  cases behind with
  | nil => exact scan_word (.comment inside (by simp [withReturns])) line
  | cons c more =>
    obtain rfl : c = '\n' := by simpa using first c rfl
    have inside' : ∀ c ∈ text ++ ['\r'], c ≠ '\n' := by
      simpa [or_imp, forall_and] using inside
    have word : Word .comment ('#' :: (text ++ ['\r'])) ('\n' :: withReturns more) :=
      .comment inside' (by simp)
    have read := scan_word word line
    rw [List.cons_append, List.append_assoc] at read
    rw [withReturns_feed, scan_gap (by decide : '\r' ∈ gapChars)]
    exact read

theorem withReturn_malformedSection {c : Char} (other : c ≠ '\n') (line : UInt32) :
    (LexError.malformedSection line (some c)).withReturn = .malformedSection line (some c) := by
  rw [LexError.withReturn.eq_2]
  intro place same
  cases same
  exact other rfl

theorem scan_colon {rest : List Char} (single : ∀ more, rest ≠ ':' :: more) (line : UInt32) :
    scan line (':' :: rest) = ⟨[], some (.malformedSection line rest.head?)⟩ := by
  cases rest with
  | nil => rw [scan.eq_def]; rfl
  | cons c more =>
    rw [scan.eq_def]
    simp [isGap]

theorem scan_withReturns (line : UInt32) (text : List Char) :
    scan line (withReturns text) = (scan line text).withReturn := by
  fun_induction scan line text with
  | case1 line =>
    rw [withReturns, List.flatMap_nil, scan.eq_def]
    rfl
  | case2 line c rest gap ih =>
    have other : c ≠ '\n' := by
      rintro rfl
      cases gap
    have blank : c ∈ gapChars := by
      simpa [isGap, gapChars, other] using gap
    rw [withReturns_cons other, scan_gap blank, if_neg other, ih]
  | case3 line rest noGap ih =>
    rw [withReturns_feed, scan_gap (by decide), scan_gap (by decide)]
    exact ih
  | case4 line rest noGap noFeed ih =>
    rw [withReturns_cons (by decide), withReturns_cons (by decide)]
    have read := scan_word (.sectionMark (withReturns rest)) line
    rw [ih] at read
    exact read
  | case5 line rest single noGap noFeed =>
    rw [withReturns_cons (by decide)]
    cases rest with
    | nil => exact scan_colon (by simp [withReturns]) line
    | cons c more =>
      by_cases feed : c = '\n'
      · subst feed
        exact scan_colon (by simp [withReturns_feed]) line
      · rw [withReturns_cons feed, scan_colon (fun other same => ?_) line]
        · have same := withReturn_malformedSection feed line
          exact congrArg (fun error => (⟨[], some error⟩ : Scan)) same.symm
        · obtain ⟨rfl, -⟩ := List.cons_eq_cons.1 same
          exact single more rfl
  | case6 line rest noGap noFeed noColon ih =>
    rw [withReturns_cons (by decide)]
    have read := scan_word (.folderMark (withReturns rest)) line
    rw [ih] at read
    exact read
  | case7 line rest noGap noFeed noColon noFolder ih =>
    rw [withReturns_cons (by decide), scan_comment_withReturns, ih]
    rfl
  | case8 line c rest noGap noFeed noColon noFolder noComment starts ih =>
    have inside : ∀ c ∈ rest.takeWhile (! isBlank ·), isBlank c = false :=
      fun c mem => by simpa using List.mem_takeWhile_imp mem
    have ends : ∀ c ∈ (rest.dropWhile (! isBlank ·)).head?, isBlank c = true :=
      fun c first => by simpa using dropWhile_ends rest c first
    have solid : '\n' ∉ rest.takeWhile (! isBlank ·) := fun mem => by cases inside _ mem
    have whole := List.takeWhile_append_dropWhile (p := (! isBlank ·)) (l := rest)
    have read := scan_word
      (.literal (startsLiteral_iff.1 starts) inside (blank_withReturns ends)) line
    rw [ih, List.cons_append, ← withReturns_of_solid solid, whole] at read
    rw [withReturns_cons noFeed]
    exact read
  | case9 line c rest noGap noFeed noColon noFolder noComment noLiteral =>
    rw [withReturns_cons noFeed, scan.eq_def]
    simp [noGap, noFeed, noColon, noFolder, noComment, noLiteral]
    rfl

theorem value_tokenize_withReturns (source : String) :
    (tokenize (String.ofList (withReturns source.toList))).run.value =
      (tokenize source).run.value.mapError LexError.withReturn := by
  rw [value_tokenize, value_tokenize, String.toList_ofList, scan_withReturns]
  cases failure : (scan 1 source.toList).failure <;> simp only [Scan.withReturn, failure] <;> rfl

end Manifest

namespace Text

theorem lines_cons {c : Char} (noFeed : c ≠ '\n') (noReturn : c ≠ '\r') (rest : List Char) :
    lines (c :: rest) = match lines rest with
      | [] => [[c]]
      | line :: more => (c :: line) :: more := by
  rewrite [lines]
  · rfl
  · exact noFeed
  · exact fun _ same => absurd same noReturn

theorem lines_withReturns {text : List Char} (plain : '\r' ∉ text) :
    lines (withReturns text) = lines text := by
  induction text with
  | nil => rfl
  | cons c rest ih =>
    rw [List.mem_cons, not_or] at plain
    have ih := ih plain.2
    by_cases feed : c = '\n'
    · subst feed
      rw [withReturns_feed, lines, lines, ih]
    · rw [withReturns_cons feed, lines_cons feed (Ne.symm plain.1),
        lines_cons feed (Ne.symm plain.1), ih]

end Text

open Text in
/-- A text with carriage returns before its line feeds has the same words on the same lines, and the
same stages if it is the source of a shader. -/
theorem tokenize_splitStages_withReturns (source : String) (plain : '\r' ∉ source.toList) :
    let other := String.ofList (withReturns source.toList)
    (Manifest.tokenize other).run.value =
        (Manifest.tokenize source).run.value.mapError Manifest.LexError.withReturn ∧
      Import.splitStages other = Import.splitStages source := by
  intro other
  refine ⟨Manifest.value_tokenize_withReturns source, ?_⟩
  rw [Import.splitStages, Import.splitStages, String.toList_ofList, lines_withReturns plain]

theorem tokenize_splitStages_withReturns_colon :
    '\r' ∉ "#shader compute\nx\n:\n".toList ∧
      (Manifest.tokenize "#shader compute\r\nx\r\n:\r\n").run.value =
        .error (.malformedSection 3 (some '\r')) ∧
      Import.splitStages "#shader compute\r\nx\r\n:\r\n" = .ok (.compute "x\n:\n") := by
  have plain : '\r' ∉ "#shader compute\nx\n:\n".toList := by decide
  have words : (Manifest.tokenize "#shader compute\nx\n:\n").run.value =
      .error (.malformedSection 3 (some '\n')) := by
    decide +kernel
  have stages : Import.splitStages "#shader compute\nx\n:\n" = .ok (.compute "x\n:\n") := by
    decide +kernel
  obtain ⟨same, same'⟩ := tokenize_splitStages_withReturns "#shader compute\nx\n:\n" plain
  rw [words] at same
  rw [stages] at same'
  exact ⟨plain, same, same'⟩

end AssetPack

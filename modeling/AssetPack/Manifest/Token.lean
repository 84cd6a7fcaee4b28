import AssetPack.Log
import AssetPack.Text.Blank
import AssetPack.Text.Quoted
namespace AssetPack.Manifest

/-! The words of a manifest. -/

/-- `sectionMark` is written `::`, `folderMark` is written `$`. -/
inductive TokenKind where
  | sectionMark | folderMark | comment
  | literal (text : String)
  | endOfText
  deriving DecidableEq, Repr

def TokenKind.describe : TokenKind → String
  | sectionMark => "'::'"
  | folderMark => "'$'"
  | comment => "a comment"
  | literal text => Text.quote text
  | endOfText => "end of file"

/-- Lines are counted from 1. -/
structure Token where
  kind : TokenKind
  line : UInt32
  deriving DecidableEq, Repr

inductive LexError where
  | malformedSection (line : UInt32) (found : Option Char)
  | unrecognizedCharacter (line : UInt32) (found : Char)
  deriving DecidableEq, Repr

def LexError.message : LexError → String
  | malformedSection line found =>
    s!"line {line}: expected '::', found ':' followed by " ++
      match found with
      | some c => Text.quoteChar c
      | none => TokenKind.endOfText.describe
  | unrecognizedCharacter line found =>
    s!"line {line}: unrecognized character {Text.quoteChar found}"

/-- The blanks which can stand between words, line feeds apart. -/
def isGap (c : Char) : Bool := c = ' ' ∨ c = '\t' ∨ c = '\r'

/-- The characters a literal can start with. -/
def startsLiteral (c : Char) : Bool :=
  c.isAlphanum || c = '_' || c = '.' || c = '/' || c = '\\'

/-- The tokens of a text, and what ended them if that was not the end of the text. -/
structure Scan where
  tokens : List Token
  failure : Option LexError
  deriving DecidableEq, Repr

def Scan.cons (token : Token) (scan : Scan) : Scan := { scan with tokens := token :: scan.tokens }

/-- A comment ends before the line feed, a literal before the next blank. -/
def scan (line : UInt32) : List Char → Scan
  | [] => ⟨[⟨.endOfText, line⟩], none⟩
  | c :: rest =>
    if isGap c then scan line rest
    else if c = '\n' then scan (line + 1) rest
    else if c = ':' then
      match rest with
      | ':' :: rest => (scan line rest).cons ⟨.sectionMark, line⟩
      | other => ⟨[], some (.malformedSection line other.head?)⟩
    else if c = '$' then (scan line rest).cons ⟨.folderMark, line⟩
    else if c = '#' then (scan line (rest.dropWhile (· ≠ '\n'))).cons ⟨.comment, line⟩
    else if startsLiteral c then
      (scan line (rest.dropWhile (! Text.isBlank ·))).cons
        ⟨.literal (String.ofList (c :: rest.takeWhile (! Text.isBlank ·))), line⟩
    else ⟨[], some (.unrecognizedCharacter line c)⟩
  termination_by text => text.length
  decreasing_by
    · exact Nat.lt_succ_self _
    · exact Nat.lt_succ_self _
    · exact Nat.lt_succ_of_lt (Nat.lt_succ_self _)
    · exact Nat.lt_succ_self _
    · exact Nat.lt_succ_of_le (List.dropWhile_sublist _).length_le
    · exact Nat.lt_succ_of_le (List.dropWhile_sublist _).length_le

/-- The end of the text is no word of it. -/
def Token.trace (token : Token) : Logged Unit :=
  if token.kind = .endOfText then pure ()
  else report .trace .tokens s!"Line {token.line}: {token.kind.describe}"

def tokenize (source : String) : Attempt LexError (List Token) := do
  let scan := scan 1 source.toList
  scan.tokens.forM fun token => token.trace
  match scan.failure with
  | none => return scan.tokens
  | some error => fail .tokens s!"Failed to tokenize manifest: {error.message}" error

end AssetPack.Manifest

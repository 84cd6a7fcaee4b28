import AssetPack.Asset.Type
import AssetPack.Manifest.Token
namespace AssetPack.Manifest

/-! The outline of a manifest: which lines stand in which section, before any of them is
understood. -/

/-- A line of a section: a folder for the lines after it, or a path. -/
inductive Entry where
  | folder (line : UInt32) (fragment : String)
  | path (line : UInt32) (text : String)
  deriving DecidableEq, Repr

/-- A section, with the line and the word of its heading. -/
structure Block where
  line : UInt32
  keyword : String
  entries : List Entry
  deriving DecidableEq, Repr

/-- The words which have to be followed by a literal. -/
inductive Sigil where
  | sectionMark | folderMark
  deriving DecidableEq, Repr

def Sigil.expected : Sigil → String
  | sectionMark => "an asset type after '::'"
  | folderMark => "a directory after '$'"

inductive ParseError where
  | unexpectedToken (line : UInt32) (sigil : Sigil) (found : TokenKind)
  | grammar (errors : Nat)
  deriving DecidableEq, Repr

def ParseError.message : ParseError → String
  | unexpectedToken line sigil found =>
    s!"line {line}: expected {sigil.expected}, found {found.describe}"
  | grammar errors => s!"manifest has {errors} error(s), see the log for details"

/-- `loose` holds the entries before the first section. After a failure nothing follows. -/
structure Outline where
  loose : List Entry
  blocks : List Block
  failure : Option ParseError
  deriving DecidableEq, Repr

namespace Outline

def fail (error : ParseError) : Outline := ⟨[], [], some error⟩

/-- Puts a heading in front, whose section then holds the loose entries. -/
def heading (line : UInt32) (keyword : String) (rest : Outline) : Outline :=
  { rest with loose := [], blocks := ⟨line, keyword, rest.loose⟩ :: rest.blocks }

def entry (first : Entry) (rest : Outline) : Outline := { rest with loose := first :: rest.loose }

end Outline

/-- A word which is not followed by a literal. At the end of the tokens the place is its own. -/
def unexpected (line : UInt32) (sigil : Sigil) : List Token → ParseError
  | [] => .unexpectedToken line sigil .endOfText
  | token :: _ => .unexpectedToken token.line sigil token.kind

def outline : List Token → Outline
  | [] => ⟨[], [], none⟩
  | ⟨.sectionMark, line⟩ :: ⟨.literal keyword, _⟩ :: rest => (outline rest).heading line keyword
  | ⟨.sectionMark, line⟩ :: rest => .fail (unexpected line .sectionMark rest)
  | ⟨.folderMark, line⟩ :: ⟨.literal fragment, _⟩ :: rest =>
    (outline rest).entry (.folder line fragment)
  | ⟨.folderMark, line⟩ :: rest => .fail (unexpected line .folderMark rest)
  | ⟨.literal text, line⟩ :: rest => (outline rest).entry (.path line text)
  | ⟨.comment, _⟩ :: rest => outline rest
  | ⟨.endOfText, _⟩ :: rest => outline rest

/-- The words which name a type of assets. Other spellings name none. -/
def keywords : List (String × AssetType) :=
  [("texture", .texture), ("TEXTURE", .texture), ("shader", .shader), ("SHADER", .shader),
    ("font", .font), ("FONT", .font), ("audio", .audioBuffer), ("AUDIO", .audioBuffer)]

def typeOfKeyword? (keyword : String) : Option AssetType := keywords.lookup keyword

end AssetPack.Manifest

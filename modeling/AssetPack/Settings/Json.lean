import AssetPack.Settings.Decimal
namespace AssetPack.Settings

/-! The JSON texts in which settings are kept. -/

/-- `scalar` stands for numbers and for the words `null`, `true` and `false`, which settings do
not use. -/
inductive Json where
  | scalar
  | text (content : String)
  | list (items : List Json)
  | object (members : List (String × Json))
  deriving Repr

namespace Json

/-- A reader gives a value and what it left over. -/
abbrev Reader (α : Type) := List Char → Option (α × List Char)

def skip (chars : List Char) : List Char :=
  chars.dropWhile fun c => c = ' ' ∨ c = '\n' ∨ c = '\t' ∨ c = '\r'

def hexDigit? (c : Char) : Option Nat :=
  if '0' ≤ c ∧ c ≤ '9' then some (c.toNat - '0'.toNat)
  else if 'a' ≤ c ∧ c ≤ 'f' then some (c.toNat - 'a'.toNat + 10)
  else if 'A' ≤ c ∧ c ≤ 'F' then some (c.toNat - 'A'.toNat + 10)
  else none

/-- The number which four hexadecimal digits spell. -/
def unit? (a b c d : Char) : Option Nat := do
  return (((← hexDigit? a) * 16 + (← hexDigit? b)) * 16 + (← hexDigit? c)) * 16 + (← hexDigit? d)

/-- The character which a letter behind a backslash stands for. -/
def escaped? (c : Char) : Option Char :=
  [('"', '"'), ('\\', '\\'), ('/', '/'), ('b', '\x08'), ('f', '\x0c'), ('n', '\n'), ('r', '\r'),
    ('t', '\t')].lookup c

def isHighSurrogate (unit : Nat) : Bool := 0xd800 ≤ unit && unit < 0xdc00

def isLowSurrogate (unit : Nat) : Bool := 0xdc00 ≤ unit && unit < 0xe000

def pair (high low : Nat) : Char :=
  Char.ofNat (0x10000 + (high - 0xd800) * 0x400 + (low - 0xdc00))

def prepend (c : Char) : Option (List Char × List Char) → Option (List Char × List Char)
  | some (chars, rest) => some (c :: chars, rest)
  | none => none

/-- Reads up to the closing quote. Surrogates have to come in pairs, and control characters have
to be escaped. -/
def textBody : Reader (List Char)
  | [] => none
  | '"' :: rest => some ([], rest)
  | '\\' :: 'u' :: a :: b :: c :: d :: rest =>
    match unit? a b c d with
    | none => none
    | some high =>
      if isLowSurrogate high then none
      else if isHighSurrogate high then
        match rest with
        | '\\' :: 'u' :: e :: f :: g :: h :: rest =>
          match unit? e f g h with
          | none => none
          | some low =>
            if isLowSurrogate low then prepend (pair high low) (textBody rest) else none
        | _ => none
      else prepend (Char.ofNat high) (textBody rest)
  | '\\' :: c :: rest =>
    match escaped? c with
    | some c => prepend c (textBody rest)
    | none => none
  | c :: rest => if c.toNat < 0x20 then none else prepend c (textBody rest)

def isDigit (c : Char) : Bool := '0' ≤ c && c ≤ '9'

def spanDigits (chars : List Char) : List Char × List Char :=
  (chars.takeWhile isDigit, chars.dropWhile isDigit)

/-- The digits behind a point, if there is one. -/
def fraction : Reader (List Char)
  | '.' :: rest =>
    let (digits, rest) := spanDigits rest
    if digits.isEmpty then none else some (digits, rest)
  | rest => some ([], rest)

def signed : List Char → Int × List Char
  | '-' :: rest => (-1, rest)
  | '+' :: rest => (1, rest)
  | rest => (1, rest)

def exponent : Reader Int
  | c :: rest =>
    if c = 'e' ∨ c = 'E' then
      let (sign, rest) := signed rest
      let (digits, rest) := spanDigits rest
      if digits.isEmpty then none else some (sign * Decimal.natOf digits, rest)
    else some (0, c :: rest)
  | [] => some (0, [])

def number (chars : List Char) : Option (Json × List Char) := do
  let (whole, rest) := spanDigits chars
  if whole.isEmpty ∨ (whole.head? = some '0' ∧ 1 < whole.length) then none
  let (digits, rest) ← fraction rest
  let (power, rest) ← exponent rest
  if (Decimal.ofDigits whole digits power).isOutOfRange then none
  return (.scalar, rest)

def word (word : String) (chars : List Char) : Option (Json × List Char) :=
  if word.toList.isPrefixOf chars then some (.scalar, chars.drop word.length) else none

/-- Reads what is neither a list nor an object. -/
def simple : Reader Json
  | '"' :: rest => do
    let (chars, rest) ← textBody rest
    return (.text (String.ofList chars), rest)
  | '-' :: rest => number rest
  | chars =>
    match word "null" chars, word "true" chars, word "false" chars with
    | some found, _, _ | none, some found, _ | none, none, some found => some found
    | none, none, none => number chars

/-- Items with commas between them, up to the closing bracket. -/
def items (item : Reader Json) : Nat → Reader (List Json)
  | 0, _ => none
  | fuel + 1, chars => do
    let (first, rest) ← item chars
    match skip rest with
    | ',' :: rest =>
      let (more, rest) ← items item fuel rest
      return (first :: more, rest)
    | ']' :: rest => return ([first], rest)
    | _ => none

/-- A name, a colon and a value. -/
def member (item : Reader Json) (chars : List Char) : Option ((String × Json) × List Char) :=
  match skip chars with
  | '"' :: rest => do
    let (name, rest) ← textBody rest
    match skip rest with
    | ':' :: rest =>
      let (value, rest) ← item rest
      return ((String.ofList name, value), rest)
    | _ => none
  | _ => none

/-- Members with commas between them, up to the closing brace. -/
def members (item : Reader Json) : Nat → Reader (List (String × Json))
  | 0, _ => none
  | fuel + 1, chars => do
    let (first, rest) ← member item chars
    match skip rest with
    | ',' :: rest =>
      let (more, rest) ← members item fuel rest
      return (first :: more, rest)
    | '\x7d' :: rest => return ([first], rest)
    | _ => none

/-- Reads a value with lists and objects nested up to the given depth. -/
def value : Nat → Reader Json
  | 0, chars =>
    match skip chars with
    | '[' :: _ | '\x7b' :: _ => none
    | chars => simple chars
  | depth + 1, chars =>
    match skip chars with
    | '[' :: rest =>
      match skip rest with
      | ']' :: rest => some (.list [], rest)
      | rest => do
        let (found, rest) ← items (value depth) rest.length rest
        return (.list found, rest)
    | '\x7b' :: rest =>
      match skip rest with
      | '\x7d' :: rest => some (.object [], rest)
      | rest => do
        let (found, rest) ← members (value depth) rest.length rest
        return (.object found, rest)
    | chars => simple chars

def depthLimit : Nat := 127

def parse? (text : String) : Option Json := do
  let (found, rest) ← value depthLimit text.toList
  if (skip rest).isEmpty then some found else none

def escape (c : Char) : List Char :=
  if c = '"' then ['\\', '"']
  else if c = '\\' then ['\\', '\\']
  else if c = '\x08' then ['\\', 'b']
  else if c = '\x0c' then ['\\', 'f']
  else if c = '\n' then ['\\', 'n']
  else if c = '\r' then ['\\', 'r']
  else if c = '\t' then ['\\', 't']
  else if c.toNat < 0x20 then
    let digits := Nat.toDigits 16 c.toNat
    ['\\', 'u'] ++ List.replicate (4 - digits.length) '0' ++ digits
  else [c]

def quote (text : String) : String :=
  String.ofList ('"' :: text.toList.flatMap escape ++ ['"'])

end Json

end AssetPack.Settings

import AssetPack.Text.Hidden
namespace AssetPack.Text

/-! Quoted text, in which every character that could mislead a reader is spelled out. -/

def hexDigits (n : Nat) : List Char := Nat.toDigits 16 n

def spellOut (c : Char) : List Char := ['\\', 'u', '\x7b'] ++ hexDigits c.toNat ++ ['\x7d']

/-- `delimiter` is the kind of quote around the text, the only one which is escaped. -/
def escape (delimiter c : Char) : List Char :=
  if c = '\x00' then ['\\', '0']
  else if c = '\t' then ['\\', 't']
  else if c = '\r' then ['\\', 'r']
  else if c = '\n' then ['\\', 'n']
  else if c = '\\' ∨ c = delimiter then ['\\', c]
  else if isHidden c then spellOut c
  else [c]

def quote (text : String) : String :=
  String.ofList ('"' :: text.toList.flatMap (escape '"') ++ ['"'])

def quoteChar (c : Char) : String :=
  String.ofList ('\'' :: escape '\'' c ++ ['\''])

/-- At least two hexadecimal digits. -/
def hexPair (n : Nat) : List Char :=
  let digits := hexDigits n
  List.replicate (2 - digits.length) '0' ++ digits

/-- A byte as it is named in messages: `0x` and two digits. -/
def hexByte (b : UInt8) : String := "0x" ++ String.ofList (hexPair b.toNat)

end AssetPack.Text

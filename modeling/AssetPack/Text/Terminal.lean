import AssetPack.Text.Quoted
namespace AssetPack.Text

/-! Text for a terminal, which would obey the control characters in it. -/

/-- The control characters below U+0080 which are spelled out. -/
def controls : List Char := ['\x07', '\x08', '\x0c', '\x1b', '\x7f']

def showChar (c : Char) : List Char :=
  if c ∈ controls then ['\\', 'x'] ++ hexPair c.toNat
  else if 0x80 ≤ c.toNat ∧ c.toNat < 0xa0 then spellOut c
  else [c]

/-- Spells out what a terminal would obey. Blanks are left as they are. -/
def forTerminal (text : String) : String := String.ofList (text.toList.flatMap showChar)

end AssetPack.Text

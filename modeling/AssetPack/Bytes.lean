namespace AssetPack

/-! Byte strings: words with the least significant byte first, and text in UTF-8. -/

abbrev Bytes := List UInt8

namespace Bytes

def ofWord (w : UInt32) : Bytes :=
  [w.toUInt8, (w / 256).toUInt8, (w / 65536).toUInt8, (w / 16777216).toUInt8]

def toWord (a b c d : UInt8) : UInt32 :=
  UInt32.ofNat (a.toNat + 256 * b.toNat + 65536 * c.toNat + 16777216 * d.toNat)

def ofSample (s : Int16) : Bytes :=
  [s.toUInt16.toUInt8, (s.toUInt16 / 256).toUInt8]

def ofText (text : String) : Bytes := text.toUTF8.data.toList

/-- The text, if the bytes are the UTF-8 form of one. -/
def text? (bytes : Bytes) : Option String := String.fromUTF8? ⟨bytes.toArray⟩

@[simp] theorem length_ofWord (w : UInt32) : (ofWord w).length = 4 := rfl

theorem toWord_ofWord (w : UInt32) :
    toWord w.toUInt8 (w / 256).toUInt8 (w / 65536).toUInt8 (w / 16777216).toUInt8 = w := by
  apply UInt32.toNat_inj.1
  have := w.toNat_lt
  simp [toWord, UInt32.toNat_div]
  omega

theorem ofWord_toWord (a b c d : UInt8) : ofWord (toWord a b c d) = [a, b, c, d] := by
  have ha := a.toNat_lt
  have hb := b.toNat_lt
  have hc := c.toNat_lt
  have hd := d.toNat_lt
  simp only [ofWord, toWord, List.cons.injEq, and_true, ← UInt8.toNat_inj, UInt32.toNat_toUInt8,
    UInt32.toNat_div, UInt32.toNat_ofNat']
  refine ⟨?_, ?_, ?_, ?_⟩ <;> simp <;> omega

theorem length_ofText (text : String) : (ofText text).length = text.utf8ByteSize := by
  simp [ofText]

theorem text?_ofText (text : String) : text? (ofText text) = some text := by
  simp only [text?, ofText, String.fromUTF8?, Array.toArray_toList]
  exact dif_pos text.isValidUTF8

/-- No other bytes are read as the text. -/
theorem ofText_of_text? {bytes : Bytes} {text : String} (h : text? bytes = some text) :
    ofText text = bytes := by
  simp only [text?, String.fromUTF8?] at h
  split at h
  · cases h
    rfl
  · cases h

end Bytes

end AssetPack

import AssetPack.Package.Record
import AssetPack.Settings.File
import AssetPack.Proofs.Settings.Rendering

/-! What is read from the settings file. -/

namespace AssetPack.Settings

/-- What is rendered is parsed as the same settings. -/
def Format.Inverse (format : Format) : Prop :=
  ∀ settings, format.parse? (format.render settings) = some settings

/-- The control characters which may stand between the words of a text. -/
def blanks : List Char := ['\t', '\n', '\r']

/-- No text is parsed which starts with another control character, as is the rule in JSON. -/
def Format.StartsVisible (format : Format) : Prop :=
  ∀ c rest, c.toNat < 0x20 → c ∉ blanks → format.parse? (String.ofList (c :: rest)) = none

section read
variable {format : Format} {files next : FileTree} {path : Path}

theorem value_read_absent (absent : files.isPresent path = false) :
    (format.read files path).run.value = .ok .empty := by
  rw [Format.read, absent]
  rfl

theorem isPresent_of_contents? {bytes : Bytes} (holds : files.contents? path = some bytes) :
    files.isPresent path = true := by
  rw [FileTree.contents?] at holds
  rw [FileTree.isPresent]
  split at holds
  · rename_i found
    rw [found]
    rfl
  · cases holds

theorem read_of_contents? {bytes : Bytes} (holds : files.contents? path = some bytes) :
    files.read path = .ok bytes := by
  rw [FileTree.contents?] at holds
  split at holds
  · rename_i found
    cases holds
    rw [FileTree.read, found]
    rfl
  · cases holds

theorem readText_of_contents? {bytes : Bytes} (holds : files.contents? path = some bytes) :
    files.readText path = match Bytes.text? bytes with
      | some text => .ok text
      | none => .error IoError.invalidUtf8 := by
  rw [FileTree.readText, read_of_contents? holds]
  rfl

theorem value_read_rendered (inverse : format.Inverse) {settings : Settings}
    (holds : files.contents? path = some (Bytes.ofText (format.render settings))) :
    (format.read files path).run.value = .ok settings := by
  rw [Format.read, isPresent_of_contents? holds]
  simp only [if_true, readText_of_contents? holds, Bytes.text?_ofText, inverse settings]
  rfl

/-- Bytes which are no settings. -/
def Format.Malformed (format : Format) (bytes : Bytes) : Prop :=
  ∀ text, Bytes.text? bytes = some text → format.parse? text = none

theorem value_read_malformed {bytes : Bytes} (holds : files.contents? path = some bytes)
    (malformed : format.Malformed bytes) :
    ∃ error, (format.read files path).run.value = .error error := by
  rw [Format.read, isPresent_of_contents? holds]
  simp only [if_true, readText_of_contents? holds]
  cases known : Bytes.text? bytes with
  | none => exact ⟨_, rfl⟩
  | some text =>
    simp only [malformed text known]
    exact ⟨_, rfl⟩

theorem write_eq_ok {settings : Settings} : format.write files path settings = .ok next ↔
    files.write path (Bytes.ofText (format.render settings)) = .ok next := by
  rw [Format.write]
  cases files.write path (Bytes.ofText (format.render settings)) <;> simp

end read

/-! Bytes of other kinds. -/

theorem ofText_eq (text : String) :
    Bytes.ofText text = text.toList.flatMap String.utf8EncodeChar := by
  rw [Bytes.ofText, String.toUTF8, ← String.utf8Encode_toList, List.utf8Encode]
  simp

/-- A character whose first byte is below 0x80 is the character of this number. -/
theorem toNat_of_head {c : Char} {b : UInt8} {more : Bytes}
    (h : String.utf8EncodeChar c = b :: more) (small : b.toNat < 0x80) :
    c.val.toNat = b.toNat := by
  unfold String.utf8EncodeChar at h
  dsimp only at h
  split at h
  · rw [← (List.cons.inj h).1, UInt8.toNat_ofNat']
    omega
  -- The other forms start with a byte of at least 0xc0.
  · exfalso
    split at h
    · rw [← (List.cons.inj h).1, UInt8.toNat_ofNat'] at small
      omega
    · split at h
      · rw [← (List.cons.inj h).1, UInt8.toNat_ofNat'] at small
        omega
      · rw [← (List.cons.inj h).1, UInt8.toNat_ofNat'] at small
        omega

/-- The byte which starts a package stands at the start of no settings. -/
theorem malformed_of_version {format : Format} (visible : format.StartsVisible)
    {bytes rest : Bytes} (starts : bytes = Package.formatVersion :: rest) :
    format.Malformed bytes := by
  intro text same
  rw [← Bytes.ofText_of_text? same, ofText_eq] at starts
  cases chars : text.toList with
  | nil =>
    rw [chars] at starts
    cases starts
  | cons c more =>
    rw [chars, List.flatMap_cons] at starts
    cases form : String.utf8EncodeChar c with
    | nil =>
      have short := String.length_utf8EncodeChar c
      rw [form] at short
      exact absurd short.symm (Nat.ne_of_gt c.utf8Size_pos)
    | cons b others =>
      rw [form] at starts
      obtain ⟨rfl, -⟩ := List.cons.inj starts
      have version : c = '\x01' := Char.ext (UInt32.toNat_inj.1 (toNat_of_head form (by decide)))
      rw [← String.ofList_toList (s := text), chars, version]
      exact visible '\x01' more (by decide) (by decide)

/-! Settings in JSON. -/

theorem inverse_json : json.Inverse := parse?_render

namespace Json

section control
variable {c : Char} (control : c.toNat < 0x20) (rest : List Char)
include control

theorem ne_of_control {d : Char} (visible : 0x20 ≤ d.toNat) : c ≠ d := by
  rintro rfl
  exact Nat.not_lt_of_le visible control

theorem word_control {text : String} {d : Char} {more : List Char}
    (spelled : text.toList = d :: more) (visible : 0x20 ≤ d.toNat) :
    word text (c :: rest) = none := by
  rw [word, spelled, List.isPrefixOf_cons_cons,
    beq_eq_false_iff_ne.2 (ne_of_control control visible).symm]
  rfl

theorem number_control : number (c :: rest) = none := by
  have noDigit : isDigit c = false := by
    rw [isDigit, Bool.and_eq_false_iff]
    have less : c.toNat < '0'.toNat := Nat.lt_trans control (by decide)
    exact .inl (decide_eq_false (Nat.not_le_of_lt less))
  rw [number, spanDigits, List.takeWhile_cons, noDigit]
  rfl

theorem simple_control : simple (c :: rest) = none := by
  rw [simple, word_control control rest rfl (by decide), word_control control rest rfl (by decide),
    word_control control rest rfl (by decide)]
  · exact number_control control rest
  · exact fun _ same => ne_of_control control (by decide) (List.cons.inj same).1
  · exact fun _ same => ne_of_control control (by decide) (List.cons.inj same).1

theorem skip_control (notBlank : c ∉ blanks) : skip (c :: rest) = c :: rest := by
  simp only [blanks, List.mem_cons, List.not_mem_nil, or_false, not_or] at notBlank
  obtain ⟨noTab, noFeed, noReturn⟩ := notBlank
  have noSpace : c ≠ ' ' := ne_of_control control (by decide)
  simp [skip, noTab, noFeed, noReturn, noSpace]

theorem value_control (notBlank : c ∉ blanks) (depth : Nat) :
    value (depth + 1) (c :: rest) = none := by
  rw [value, skip_control control rest notBlank]
  split
  · rename_i same
    exact absurd (List.cons.inj same).1 (ne_of_control control (by decide))
  · rename_i same
    exact absurd (List.cons.inj same).1 (ne_of_control control (by decide))
  · exact simple_control control rest

end control

end Json

theorem startsVisible_json : json.StartsVisible := by
  intro c rest control notBlank
  have unread : Json.parse? (String.ofList (c :: rest)) = none := by
    rw [Json.parse?, String.toList_ofList, Json.depthLimit,
      Json.value_control control rest notBlank]
    rfl
  change (Json.parse? _ >>= ofJson?) = none
  rw [unread]
  rfl

end AssetPack.Settings

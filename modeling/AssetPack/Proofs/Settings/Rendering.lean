import AssetPack.Settings.File

/-! Settings as text: what is rendered is read again. -/

namespace AssetPack.Settings

namespace Json
variable {α : Type}

/-- A text which is read as a value, whatever follows it. -/
def Reads (reader : Reader α) (text : List Char) (a : α) : Prop :=
  ∀ rest, reader (text ++ rest) = some (a, rest)

/-- Blanks between the parts of a text. -/
def Gap (gap : List Char) : Prop := ∀ more, skip (gap ++ more) = skip more

/-! Texts in quotes. -/

/-- The digits with which a control character is spelled. -/
theorem digits_control : ∀ n < 0x20,
    List.replicate (4 - (Nat.toDigits 16 n).length) '0' ++ Nat.toDigits 16 n =
        ['0', '0', Nat.digitChar (n / 16), Nat.digitChar (n % 16)] ∧
      unit? '0' '0' (Nat.digitChar (n / 16)) (Nat.digitChar (n % 16)) = some n := by
  decide

/-- The characters which are escaped by a letter. -/
def lettered : List Char := ['"', '\\', '\x08', '\x0c', '\n', '\r', '\t']

theorem escape_control {c : Char} (plain : c ∉ lettered) (control : c.toNat < 0x20) : escape c =
    ['\\', 'u', '0', '0', Nat.digitChar (c.toNat / 16), Nat.digitChar (c.toNat % 16)] := by
  simp only [lettered, List.mem_cons, List.not_mem_nil, or_false, not_or] at plain
  obtain ⟨quote, backslash, noB, noF, noN, noR, noT⟩ := plain
  simp only [escape, quote, backslash, noB, noF, noN, noR, noT, control, if_true, if_false]
  rw [List.append_assoc, (digits_control _ control).1]
  rfl

theorem escape_plain {c : Char} (plain : c ∉ lettered) (noControl : ¬ c.toNat < 0x20) :
    escape c = [c] := by
  simp only [lettered, List.mem_cons, List.not_mem_nil, or_false, not_or] at plain
  obtain ⟨quote, backslash, noB, noF, noN, noR, noT⟩ := plain
  simp only [escape, quote, backslash, noB, noF, noN, noR, noT, noControl, if_false]

theorem textBody_escape_cons (c : Char) (more : List Char) :
    textBody (escape c ++ more) = prepend c (textBody more) := by
  by_cases plain : c ∉ lettered
  · by_cases control : c.toNat < 0x20
    · have low : isLowSurrogate c.toNat = false := by
        simp only [isLowSurrogate, Bool.and_eq_false_iff, decide_eq_false_iff_not]
        omega
      have high : isHighSurrogate c.toNat = false := by
        simp only [isHighSurrogate, Bool.and_eq_false_iff, decide_eq_false_iff_not]
        omega
      rw [escape_control plain control]
      simp [textBody, (digits_control _ control).2, low, high, Char.ofNat_toNat]
    · have quote : c ≠ '"' := fun same => plain (same ▸ by decide)
      have backslash : c ≠ '\\' := fun same => plain (same ▸ by decide)
      rw [escape_plain plain control, List.singleton_append, textBody.eq_5, if_neg control]
      · exact quote
      · exact fun _ _ _ _ _ same => absurd same backslash
      · exact fun _ _ same => absurd same backslash
  · rw [Decidable.not_not] at plain
    simp only [lettered, List.mem_cons, List.not_mem_nil, or_false] at plain
    rcases plain with rfl | rfl | rfl | rfl | rfl | rfl | rfl <;> rfl

theorem textBody_escape (text rest : List Char) :
    textBody (text.flatMap escape ++ '"' :: rest) = some (text, rest) := by
  induction text with
  | nil => rfl
  | cons c text ih =>
    rw [List.flatMap_cons, List.append_assoc, textBody_escape_cons, ih]
    rfl

theorem toList_quote (text : String) :
    (quote text).toList = '"' :: text.toList.flatMap escape ++ ['"'] := String.toList_ofList

theorem reads_simple_quote (text : String) : Reads simple (quote text).toList (.text text) := by
  intro rest
  rw [toList_quote, List.append_assoc, List.cons_append, simple]
  change (textBody (_ ++ '"' :: rest)).bind _ = _
  rw [textBody_escape]
  change some (Json.text (String.ofList text.toList), rest) = _
  rw [String.ofList_toList]

/-! Values. -/

theorem value_congr {chars other : List Char} (same : skip chars = skip other) (depth : Nat) :
    value depth chars = value depth other := by
  cases depth <;> rw [value, value, same]

theorem Gap.value {gap : List Char} (blank : Gap gap) (depth : Nat) (more : List Char) :
    value depth (gap ++ more) = Json.value depth more := value_congr (blank more) depth

theorem reads_quote (depth : Nat) (text : String) :
    Reads (value depth) (quote text).toList (.text text) := by
  intro rest
  rw [← reads_simple_quote text rest, toList_quote]
  cases depth <;> rfl

theorem Reads.gap {depth : Nat} {gap text : List Char} {v : Json}
    (reads : Reads (value depth) text v) (blank : Gap gap) :
    Reads (value depth) (gap ++ text) v := by
  intro rest
  rw [List.append_assoc, blank.value, reads rest]

theorem Reads.space {depth : Nat} {text : List Char} {v : Json}
    (reads : Reads (value depth) text v) : Reads (value depth) (' ' :: text) v :=
  have blank : Gap [' '] := fun _ => rfl
  reads.gap blank

/-! Members and items. -/

theorem member_quote {item : Reader Json} {text : List Char} {v : Json} (reads : Reads item text v)
    {gap : List Char} (blank : Gap gap) (key : String) :
    Reads (member item) (gap ++ (quote key).toList ++ ':' :: text) (key, v) := by
  intro rest
  have start : skip (gap ++ (quote key).toList ++ ':' :: text ++ rest) =
      '"' :: (key.toList.flatMap escape ++ '"' :: ':' :: (text ++ rest)) := by
    rw [List.append_assoc, List.append_assoc, blank, toList_quote]
    simp [skip]
  have colon : skip (':' :: (text ++ rest)) = ':' :: (text ++ rest) := rfl
  rw [member, start]
  simp [textBody_escape, colon, reads rest]

theorem member_congr (item : Reader Json) {chars other : List Char}
    (same : skip chars = skip other) : member item chars = member item other := by
  rw [member, member, same]

/-- An object with two members, each behind the same blanks. -/
def pairText (gap last : List Char) (key : String) (text : List Char) (key' : String)
    (text' : List Char) : List Char :=
  '\x7b' :: (gap ++ (quote key).toList ++ ':' :: text) ++
    ',' :: (gap ++ (quote key').toList ++ ':' :: text') ++ last ++ ['\x7d']

section containers
variable {item : Reader Json} {depth fuel : Nat} {gap last chars more rest : List Char}

theorem members_more {first : String × Json} {others : List (String × Json)}
    (found : member item chars = some (first, ',' :: more))
    (behind : members item fuel more = some (others, rest)) :
    members item (fuel + 1) chars = some (first :: others, rest) := by
  have comma : skip (',' :: more) = ',' :: more := rfl
  simp [members, found, comma, behind]

theorem members_last {only : String × Json}
    (found : member item chars = some (only, last ++ '\x7d' :: rest)) (blank : Gap last) :
    members item (fuel + 1) chars = some ([only], rest) := by
  have ending : skip (last ++ '\x7d' :: rest) = '\x7d' :: rest := blank _
  simp [members, found, ending]

theorem items_more {first : Json} {others : List Json}
    (found : item chars = some (first, ',' :: more))
    (behind : items item fuel more = some (others, rest)) :
    items item (fuel + 1) chars = some (first :: others, rest) := by
  have comma : skip (',' :: more) = ',' :: more := rfl
  simp [items, found, comma, behind]

theorem items_last {only : Json} (found : item chars = some (only, last ++ ']' :: rest))
    (blank : Gap last) : items item (fuel + 1) chars = some ([only], rest) := by
  have ending : skip (last ++ ']' :: rest) = ']' :: rest := blank _
  simp [items, found, ending]

theorem reads_pair {text text' : List Char} {v w : Json} (first : Reads (value depth) text v)
    (second : Reads (value depth) text' w) (blank : Gap gap) (blank' : Gap last)
    (key key' : String) : Reads (value (depth + 1)) (pairText gap last key text key' text')
      (.object [(key, v), (key', w)]) := by
  intro rest
  -- The first member stands behind blanks, which are skipped before the members are read.
  let upper := gap ++ (quote key).toList ++ ':' :: text
  let lower := gap ++ (quote key').toList ++ ':' :: text' ++ (last ++ '\x7d' :: rest)
  have whole : pairText gap last key text key' text' ++ rest =
      '\x7b' :: (upper ++ ',' :: lower) := by
    simp [pairText, upper, lower]
  have start : ∃ c more, skip (upper ++ ',' :: lower) = '"' :: c :: more := by
    rw [List.append_assoc, List.append_assoc, blank, toList_quote]
    obtain ⟨c, more, some⟩ := List.exists_cons_of_ne_nil
      (List.append_ne_nil_of_right_ne_nil (key.toList.flatMap escape) (List.cons_ne_nil '"' []))
    refine ⟨c, more ++ (':' :: text ++ ',' :: lower), ?_⟩
    rw [List.cons_append, some]
    rfl
  obtain ⟨c, more, start⟩ := start
  have skipped : skip ('"' :: c :: more) = skip (upper ++ ',' :: lower) := by
    rw [start]
    rfl
  have found : member (value depth) ('"' :: c :: more) = some ((key, v), ',' :: lower) := by
    rw [member_congr _ skipped]
    exact member_quote first blank key _
  have found' : member (value depth) lower = some ((key', w), last ++ '\x7d' :: rest) :=
    member_quote second blank key' _
  have both : members (value depth) (more.length + 2) ('"' :: c :: more) =
      some ([(key, v), (key', w)], rest) := members_more found (members_last found' blank')
  have brace : skip ('\x7b' :: (upper ++ ',' :: lower)) = '\x7b' :: (upper ++ ',' :: lower) := rfl
  rw [whole, value, brace]
  simp [start, both]

theorem items_congr (same : skip chars = skip more) :
    items (value depth) fuel chars = items (value depth) fuel more := by
  cases fuel with
  | zero => rfl
  | succ fuel => rw [items, items, value_congr same]

/-- Texts, each behind a comma and blanks. -/
def commaTexts (gap : List Char) (pairs : List (List Char × Json)) : List Char :=
  pairs.flatMap fun pair => ',' :: gap ++ pair.1

theorem length_le_commaTexts (gap : List Char) (pairs : List (List Char × Json)) :
    pairs.length ≤ (commaTexts gap pairs).length := by
  induction pairs with
  | nil => exact Nat.zero_le _
  | cons pair pairs ih =>
    rw [commaTexts, List.flatMap_cons, List.length_append, ← commaTexts]
    simp
    omega

theorem items_commaTexts {first : List Char × Json} {pairs : List (List Char × Json)}
    (one : Reads (value depth) first.1 first.2)
    (each : ∀ pair ∈ pairs, Reads (value depth) pair.1 pair.2) (blank : Gap gap)
    (blank' : Gap last) (enough : pairs.length ≤ fuel) (rest : List Char) :
    items (value depth) (fuel + 1) (first.1 ++ (commaTexts gap pairs ++ (last ++ ']' :: rest))) =
      some (first.2 :: pairs.map (·.2), rest) := by
  induction pairs generalizing first fuel with
  | nil => exact items_last (one _) blank'
  | cons pair pairs ih =>
    obtain ⟨fuel, rfl⟩ := Nat.exists_eq_add_of_lt (Nat.lt_of_lt_of_le (Nat.succ_pos _) enough)
    rw [Nat.zero_add] at enough ⊢
    have behind := ih (each pair List.mem_cons_self)
      (fun other mem => each other (List.mem_cons_of_mem _ mem)) (Nat.le_of_succ_le_succ enough)
    rw [items_congr (blank _).symm] at behind
    refine items_more ?_ behind
    rw [one, commaTexts, List.flatMap_cons, commaTexts]
    simp

/-- A list of texts of which the first one is an object. -/
theorem reads_list {start body after : List Char} {v : Json} {pairs : List (List Char × Json)}
    (one : Reads (value depth) (start ++ '\x7b' :: body) v)
    (each : ∀ pair ∈ pairs, Reads (value depth) pair.1 pair.2) (blank : Gap gap)
    (blank' : Gap last) (blankAfter : Gap after) (blankStart : Gap start) :
    Reads (value (depth + 1))
      ('[' :: after ++ (start ++ '\x7b' :: body) ++ commaTexts gap pairs ++ last ++ [']'])
      (.list (v :: pairs.map (·.2))) := by
  intro rest
  let behind := commaTexts gap pairs ++ (last ++ ']' :: rest)
  have whole : '[' :: after ++ (start ++ '\x7b' :: body) ++ commaTexts gap pairs ++ last ++ [']'] ++
      rest = '[' :: (after ++ (start ++ ('\x7b' :: body ++ behind))) := by
    simp [behind]
  have first : skip (after ++ (start ++ ('\x7b' :: body ++ behind))) =
      '\x7b' :: (body ++ behind) := by
    rw [blankAfter, blankStart]
    rfl
  have enough : pairs.length ≤ (body ++ behind).length := by
    have := length_le_commaTexts gap pairs
    simp only [behind, List.length_append]
    omega
  let head : List Char × Json := (start ++ '\x7b' :: body, v)
  have one : Reads (value depth) head.1 head.2 := one
  have found := items_commaTexts one each blank blank' enough rest
  have same : skip (start ++ '\x7b' :: body ++ behind) = skip ('\x7b' :: (body ++ behind)) := by
    rw [List.append_assoc, blankStart]
    rfl
  rw [items_congr same] at found
  have bracket : skip ('[' :: (after ++ (start ++ ('\x7b' :: body ++ behind)))) =
      '[' :: (after ++ (start ++ ('\x7b' :: body ++ behind))) := rfl
  rw [whole, value, bracket]
  simp only [first]
  change (items (value depth) ((body ++ behind).length + 1) ('\x7b' :: (body ++ behind))).bind _ = _
  rw [found]
  rfl

end containers

end Json

/-! Settings. -/

open Json

def entryJson (entry : BuildEntry) : Json :=
  .object [("manifest", .text entry.manifest.text), ("output", .text entry.output.text)]

/-- The start of a line. -/
def lineGap (depth : Nat) : List Char := '\n' :: List.replicate depth ' '

/-- What an entry is between its braces, and behind the blanks in front of it. -/
def entryText (entry : BuildEntry) : List Char :=
  pairText (lineGap 6) (lineGap 4) "manifest" (' ' :: (quote entry.manifest.text).toList)
    "output" (' ' :: (quote entry.output.text).toList)

theorem toList_renderEntry (entry : BuildEntry) :
    (renderEntry entry).toList = List.replicate 4 ' ' ++ entryText entry := by
  have opening : "    \x7b\n      \"manifest\": ".toList = List.replicate 4 ' ' ++
      '\x7b' :: (lineGap 6 ++ (quote "manifest").toList ++ [':', ' ']) := by
    decide +kernel
  have middle : ",\n      \"output\": ".toList =
      ',' :: (lineGap 6 ++ (quote "output").toList ++ [':', ' ']) := by
    decide +kernel
  have ending : "\n    \x7d".toList = lineGap 4 ++ ['\x7d'] := by decide +kernel
  unfold renderEntry
  simp only [String.toList_append, opening, middle, ending, entryText, pairText,
    List.append_assoc, List.cons_append, List.nil_append]

theorem gap_lineGap (depth : Nat) : Gap (lineGap depth) := by
  intro more
  induction depth with
  | zero => rfl
  | succ depth ih => exact ih

theorem reads_entryText (depth : Nat) (entry : BuildEntry) :
    Reads (value (depth + 1)) (entryText entry) (entryJson entry) := by
  exact reads_pair (reads_quote depth _).space (reads_quote depth _).space (gap_lineGap 6)
    (gap_lineGap 4) _ _

theorem map_tail_intercalate (sep first : List Char) (texts : List (List Char)) :
    sep.intercalate (first :: texts) = first ++ texts.flatMap (sep ++ ·) := by
  induction texts generalizing first with
  | nil => simp
  | cons text texts ih => rw [List.intercalate_cons_cons, ih, List.flatMap_cons, List.append_assoc,
      List.append_assoc]

theorem toList_renderBuilds (first : BuildEntry) (builds : List BuildEntry) :
    (renderBuilds (first :: builds)).toList =
      '[' :: lineGap 0 ++ (List.replicate 4 ' ' ++ entryText first) ++
        commaTexts (lineGap 0) (builds.map fun entry =>
          (List.replicate 4 ' ' ++ entryText entry, entryJson entry)) ++ lineGap 2 ++ [']'] := by
  have separator : ",\n".toList = ',' :: lineGap 0 := by decide +kernel
  have opening : "[\n".toList = '[' :: lineGap 0 := by decide +kernel
  have ending : "\n  ]".toList = lineGap 2 ++ [']'] := by decide +kernel
  rw [renderBuilds, if_neg (by simp), String.toList_append, String.toList_append,
    String.toList_intercalate, separator, opening, ending, List.map_cons, List.map_cons,
    map_tail_intercalate, toList_renderEntry, List.map_map, commaTexts, List.flatMap_map,
    List.flatMap_map]
  simp only [Function.comp_apply, toList_renderEntry, List.append_assoc, List.cons_append]

theorem reads_renderBuilds (depth : Nat) (builds : List BuildEntry) :
    Reads (value (depth + 2)) (renderBuilds builds).toList (.list (builds.map entryJson)) := by
  cases builds with
  | nil => exact fun _ => rfl
  | cons first builds =>
    have each (entry : BuildEntry) : Reads (value (depth + 1))
        (List.replicate 4 ' ' ++ entryText entry) (entryJson entry) :=
      (reads_entryText depth entry).gap fun _ => rfl
    have others : ∀ pair ∈ builds.map fun entry =>
        (List.replicate 4 ' ' ++ entryText entry, entryJson entry),
          Reads (value (depth + 1)) pair.1 pair.2 := by
      intro pair mem
      obtain ⟨entry, -, rfl⟩ := List.mem_map.1 mem
      exact each entry
    have all := reads_list (each first) others (gap_lineGap 0) (gap_lineGap 2) (gap_lineGap 0)
      fun _ => rfl
    rw [List.map_map] at all
    rw [toList_renderBuilds]
    exact all

theorem toList_render (settings : Settings) : (render settings).toList =
    pairText (lineGap 2) (lineGap 0) versionKey (' ' :: (quote version).toList)
      "builds" (' ' :: (renderBuilds settings.builds).toList) := by
  have opening : "\x7b\n  ".toList = '\x7b' :: lineGap 2 := by decide +kernel
  have colon : ": ".toList = [':', ' '] := by decide +kernel
  have middle : ",\n  \"builds\": ".toList =
      ',' :: (lineGap 2 ++ (quote "builds").toList ++ [':', ' ']) := by
    decide +kernel
  have ending : "\n\x7d".toList = lineGap 0 ++ ['\x7d'] := by decide +kernel
  unfold render
  simp only [String.toList_append, opening, colon, middle, ending, pairText,
    List.append_assoc, List.cons_append, List.nil_append]

/-- What is written as settings is read as the same settings. -/
theorem parse?_render (settings : Settings) : parse? settings.render = some settings := by
  have whole := reads_pair (reads_quote 126 version).space
    (reads_renderBuilds 124 settings.builds).space (gap_lineGap 2) (gap_lineGap 0)
    versionKey "builds" []
  rw [List.append_nil] at whole
  have entries : (settings.builds.map entryJson).mapM entry? = some settings.builds := by
    induction settings.builds with
    | nil => rfl
    | cons entry builds ih =>
      rw [List.map_cons, List.mapM_cons, ih]
      rfl
  have parsed : Json.parse? settings.render = some (.object [(versionKey, .text Settings.version),
      ("builds", .list (settings.builds.map entryJson))]) := by
    rw [Json.parse?, toList_render]
    change (value 127 _).bind _ = _
    rw [whole]
    rfl
  have listed : builds? (.list (settings.builds.map entryJson)) = some settings := by
    rw [builds?, entries]
    rfl
  have key : only? versionKey [(versionKey, .text Settings.version),
      ("builds", .list (settings.builds.map entryJson))] = some (.text Settings.version) := rfl
  have key' : only? "builds" [(versionKey, .text Settings.version),
      ("builds", .list (settings.builds.map entryJson))] =
        some (.list (settings.builds.map entryJson)) := rfl
  rw [parse?, parsed, Option.bind_eq_bind, Option.bind_some, ofJson?, key, Option.bind_eq_bind,
    Option.bind_some]
  dsimp only
  rw [if_pos rfl, key']
  exact listed

end AssetPack.Settings

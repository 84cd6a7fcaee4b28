import AssetPack.Package.Record

/-! Where forms end: a decoder which gives a value takes the same bytes whatever follows them, and
every shorter part of them is too short. -/

namespace AssetPack.Package

/-- A beginning of some bytes ends inside their first part, or goes on behind it. -/
theorem prefix_append_cases {α : Type} {part first rest : List α} (h : part <+: first ++ rest) :
    (part <+: first ∧ part ≠ first) ∨ ∃ more, part = first ++ more ∧ more <+: rest := by
  rcases List.prefix_or_prefix_of_prefix h (List.prefix_append first rest) with inside | ⟨more, rfl⟩
  · by_cases same : part = first
    · exact .inr ⟨[], by rw [same, List.append_nil], List.nil_prefix⟩
    · exact .inl ⟨inside, same⟩
  · exact .inr ⟨more, rfl, (List.prefix_append_right_inj first).1 h⟩

namespace Decoder
variable {α β : Type}

/-- A property which the smallest decoders have, and each which is made of others with it. -/
structure Composes (P : (α : Type) → Decoder α → Prop) : Prop where
  value {α : Type} (value : α) : P α (pure value)
  failure {α : Type} (error : DecodeError) : P α (throw error)
  byte : P UInt8 byte
  take (size : Nat) : P Bytes (take size)
  bind {α β : Type} {decoder : Decoder α} {next : α → Decoder β} :
    P α decoder → (∀ first, P β (next first)) → P β (decoder >>= next)

namespace Composes
variable {P : (α : Type) → Decoder α → Prop} (composes : Composes P)
include composes

theorem lift (result : Except DecodeError α) : P α (liftM result) := by
  cases result with
  | error e => exact composes.failure e
  | ok value => exact composes.value value

theorem map {decoder : Decoder α} (f : α → β) (h : P α decoder) : P β (f <$> decoder) := by
  rw [← bind_pure_comp]
  exact composes.bind h fun value => composes.value (f value)

theorem word : P UInt32 word :=
  composes.bind composes.byte fun _ => composes.bind composes.byte fun _ =>
    composes.bind composes.byte fun _ => composes.bind composes.byte fun _ => composes.value _

theorem tagged (ofTag? : UInt8 → Option α) (error : UInt8 → DecodeError) :
    P α (tagged ofTag? error) := by
  refine composes.bind composes.byte fun tag => ?_
  split
  · exact composes.value _
  · exact composes.failure _

theorem counted : P Bytes counted :=
  composes.bind composes.word fun size => composes.take size.toNat

theorem text : P String text := by
  refine composes.bind composes.counted fun bytes => ?_
  split
  · exact composes.value _
  · exact composes.failure _

theorem header : P RunHeader Packed.decode :=
  composes.bind (composes.tagged _ _) fun _ => composes.bind composes.word fun _ =>
    composes.value _

/-- A descriptor is decoded from the bytes which are counted in front of it, and from no others. -/
theorem named {α : Type} [Packed α] : P (Named α) Packed.decode :=
  composes.bind composes.text fun _ => composes.bind composes.counted fun _ =>
    composes.bind (composes.lift _) fun _ => composes.value _

theorem item (type : AssetType) : P Item (decodeItem type) := by
  cases type <;> exact composes.map _ composes.named

end Composes

/-- The decoder takes exactly these bytes for the value. -/
structure Takes (decoder : Decoder α) (value : α) (form : Bytes) : Prop where
  run (rest : Bytes) : decoder.run (form ++ rest) = .ok (value, rest)
  short {part : Bytes} : part <+: form → part ≠ form → decoder.run part = .error .truncated

/-- Where the form of a value ends can be told from the form alone. -/
def PrefixCode (decoder : Decoder α) : Prop :=
  ∀ bytes value rest, decoder.run bytes = .ok (value, rest) →
    ∃ form, bytes = form ++ rest ∧ decoder.Takes value form

theorem PrefixCode.takes {decoder : Decoder α} (code : decoder.PrefixCode) {form : Bytes} {value : α}
    (ok : decoder.run form = .ok (value, [])) : decoder.Takes value form := by
  obtain ⟨form', same, takes⟩ := code form value [] ok
  rw [same, List.append_nil]
  exact takes

theorem Takes.bind {decoder : Decoder α} {next : α → Decoder β} {first : α} {value : β}
    {form more : Bytes} (h : decoder.Takes first form) (h' : (next first).Takes value more) :
    (decoder >>= next).Takes value (form ++ more) where
  run rest := by
    rw [List.append_assoc, StateT.run_bind, h.run]
    exact h'.run rest
  short sub ne := by
    rcases prefix_append_cases sub with ⟨inside, other⟩ | ⟨part, rfl, inside⟩
    · rw [StateT.run_bind, h.short inside other]
      rfl
    · rw [StateT.run_bind, h.run]
      exact h'.short inside fun same => ne (same ▸ rfl)

theorem PrefixCode.bind {decoder : Decoder α} {next : α → Decoder β} (h : decoder.PrefixCode)
    (h' : ∀ first, (next first).PrefixCode) : (decoder >>= next).PrefixCode := by
  intro bytes value rest ok
  rw [StateT.run_bind] at ok
  cases first : decoder.run bytes with
  | error e =>
    rw [first] at ok
    cases ok
  | ok pair =>
    obtain ⟨a, middle⟩ := pair
    rw [first] at ok
    obtain ⟨form, rfl, takes⟩ := h bytes a middle first
    obtain ⟨more, rfl, takes'⟩ := h' a middle value rest ok
    exact ⟨form ++ more, (List.append_assoc _ _ _).symm, takes.bind takes'⟩

theorem prefixCode_pure (value : α) : (pure value : Decoder α).PrefixCode := by
  intro bytes a rest ok
  cases ok
  refine ⟨[], rfl, fun rest => rfl, fun inside ne => ?_⟩
  exact absurd (List.prefix_nil.1 inside) ne

theorem prefixCode_throw (error : DecodeError) : (throw error : Decoder α).PrefixCode := by
  intro bytes value rest ok
  cases ok

theorem prefixCode_byte : byte.PrefixCode := by
  intro bytes value rest ok
  cases bytes with
  | nil => cases ok
  | cons b more =>
    cases ok
    refine ⟨[value], rfl, fun rest => rfl, fun {part} inside ne => ?_⟩
    have empty : part = [] := by
      rcases List.prefix_cons_iff.1 inside with empty | ⟨more, rfl, inside'⟩
      · exact empty
      · exact absurd (congrArg (List.cons value) (List.prefix_nil.1 inside')) ne
    subst empty
    rfl

theorem prefixCode_take (size : Nat) : (take size).PrefixCode := by
  intro bytes value rest ok
  simp only [StateT.run, take] at ok
  split at ok
  · rename_i enough
    cases ok
    refine ⟨bytes.take size, (List.take_append_drop size bytes).symm, fun rest => ?_,
      fun {part} inside ne => ?_⟩
    · have whole := run_take (bytes.take size) rest
      rwa [enough] at whole
    · have less : part.length < size := by
        rw [← enough]
        exact Nat.lt_of_le_of_ne inside.length_le fun same => ne (inside.eq_of_length same)
      rw [StateT.run, take]
      exact if_neg (by rw [List.length_take]; omega)
  · cases ok

theorem composes_prefixCode : Composes fun _ decoder => decoder.PrefixCode where
  value := prefixCode_pure
  failure := prefixCode_throw
  byte := prefixCode_byte
  take := prefixCode_take
  bind := PrefixCode.bind

end Decoder

end AssetPack.Package

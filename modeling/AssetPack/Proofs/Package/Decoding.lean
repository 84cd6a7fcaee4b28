import AssetPack.Package.Record

namespace AssetPack.Package

/-! What decoders accept: each gives a value exactly on the form of the value, whatever follows. -/

namespace Decoder
variable {α β : Type}

theorem run_bind_eq_ok {decoder : Decoder α} {next : α → Decoder β} {bytes rest : Bytes}
    {value : β} : (decoder >>= next).run bytes = .ok (value, rest) ↔
      ∃ first middle, decoder.run bytes = .ok (first, middle) ∧
        (next first).run middle = .ok (value, rest) := by
  rw [StateT.run_bind]
  cases decoder.run bytes with
  | error e => simp [Bind.bind, Except.bind]
  | ok pair =>
    obtain ⟨first, middle⟩ := pair
    simp only [Bind.bind, Except.bind, Except.ok.injEq, Prod.mk.injEq]
    constructor
    · intro h
      exact ⟨first, middle, ⟨rfl, rfl⟩, h⟩
    · intro h
      obtain ⟨_, _, ⟨rfl, rfl⟩, h⟩ := h
      exact h

theorem run_pure_eq_ok {a value : α} {bytes rest : Bytes} :
    (pure a : Decoder α).run bytes = .ok (value, rest) ↔ value = a ∧ bytes = rest := by
  change Except.ok (a, bytes) = _ ↔ _
  simp [eq_comm]

theorem run_throw_ne_ok {error : DecodeError} {bytes rest : Bytes} {value : α} :
    (throw error : Decoder α).run bytes ≠ .ok (value, rest) := by
  change Except.error error ≠ _
  simp

theorem run_map_eq_ok {decoder : Decoder α} {f : α → β} {bytes rest : Bytes} {value : β} :
    (f <$> decoder).run bytes = .ok (value, rest) ↔
      ∃ first, decoder.run bytes = .ok (first, rest) ∧ value = f first := by
  rw [← bind_pure_comp, run_bind_eq_ok]
  simp only [run_pure_eq_ok]
  constructor
  · intro h
    obtain ⟨first, middle, taken, rfl, rfl⟩ := h
    exact ⟨first, taken, rfl⟩
  · intro h
    obtain ⟨first, taken, rfl⟩ := h
    exact ⟨first, rest, taken, rfl, rfl⟩

theorem run_lift_eq_ok {result : Except DecodeError α} {bytes rest : Bytes} {value : α} :
    (liftM result : Decoder α).run bytes = .ok (value, rest) ↔
      result = .ok value ∧ bytes = rest := by
  cases result with
  | error e =>
    change Except.error e = _ ↔ _
    simp
  | ok v =>
    change Except.ok (v, bytes) = _ ↔ _
    simp

theorem run_byte_eq_ok {bytes rest : Bytes} {b : UInt8} :
    byte.run bytes = .ok (b, rest) ↔ bytes = b :: rest := by
  cases bytes <;> simp [byte, StateT.run]

theorem run_word_eq_ok {bytes rest : Bytes} {w : UInt32} :
    word.run bytes = .ok (w, rest) ↔ bytes = Bytes.ofWord w ++ rest := by
  constructor
  · intro h
    simp only [word, run_bind_eq_ok, run_byte_eq_ok, run_pure_eq_ok] at h
    obtain ⟨a, _, rfl, b, _, rfl, c, _, rfl, d, _, rfl, rfl, rfl⟩ := h
    rw [Bytes.ofWord_toWord]
    rfl
  · intro h
    subst h
    exact run_word w rest

theorem run_take_eq_ok {size : Nat} {bytes taken rest : Bytes} :
    (take size).run bytes = .ok (taken, rest) ↔ taken.length = size ∧ bytes = taken ++ rest := by
  constructor
  · intro h
    simp only [take, StateT.run] at h
    split at h
    · rename_i enough
      cases h
      exact ⟨enough, (List.take_append_drop size bytes).symm⟩
    · cases h
  · intro h
    obtain ⟨rfl, rfl⟩ := h
    exact run_take taken rest

theorem run_tagged_eq_ok {ofTag? : UInt8 → Option α} {error : UInt8 → DecodeError}
    {bytes rest : Bytes} {value : α} :
    (tagged ofTag? error).run bytes = .ok (value, rest) ↔
      ∃ tag, ofTag? tag = some value ∧ bytes = tag :: rest := by
  simp only [tagged, run_bind_eq_ok, run_byte_eq_ok]
  constructor
  · intro h
    obtain ⟨tag, middle, rfl, h⟩ := h
    cases known : ofTag? tag with
    | none =>
      rw [known] at h
      exact absurd h run_throw_ne_ok
    | some v =>
      simp only [known, run_pure_eq_ok] at h
      obtain ⟨rfl, rfl⟩ := h
      exact ⟨tag, known, rfl⟩
  · intro h
    obtain ⟨tag, known, rfl⟩ := h
    refine ⟨tag, rest, rfl, ?_⟩
    rw [known]
    exact run_pure_eq_ok.2 ⟨rfl, rfl⟩

theorem encode_bytes_append (bytes rest : Bytes) : Packed.encode bytes ++ rest =
    Bytes.ofWord (UInt32.ofNat bytes.length) ++ (bytes ++ rest) :=
  List.append_assoc _ _ _

theorem encode_text_append (content : String) (rest : Bytes) : Packed.encode content ++ rest =
    Bytes.ofWord (UInt32.ofNat content.utf8ByteSize) ++ (Bytes.ofText content ++ rest) :=
  List.append_assoc _ _ _

theorem run_counted_eq_ok {bytes taken rest : Bytes} :
    counted.run bytes = .ok (taken, rest) ↔
      taken.length < UInt32.size ∧ bytes = Packed.encode taken ++ rest := by
  rw [encode_bytes_append]
  constructor
  · intro h
    simp only [counted, run_bind_eq_ok, run_word_eq_ok, run_take_eq_ok] at h
    obtain ⟨size, _, rfl, length, rfl⟩ := h
    rw [length, UInt32.ofNat_toNat]
    exact ⟨size.toNat_lt, rfl⟩
  · intro h
    obtain ⟨small, rfl⟩ := h
    exact run_counted small rest

theorem run_text_eq_ok {bytes rest : Bytes} {content : String} :
    text.run bytes = .ok (content, rest) ↔
      content.utf8ByteSize < UInt32.size ∧ bytes = Packed.encode content ++ rest := by
  rw [encode_text_append]
  constructor
  · intro h
    simp only [text, run_bind_eq_ok, run_counted_eq_ok] at h
    obtain ⟨taken, middle, ⟨small, rfl⟩, h⟩ := h
    cases known : Bytes.text? taken with
    | none =>
      rw [known] at h
      exact absurd h run_throw_ne_ok
    | some t =>
      simp only [known, run_pure_eq_ok] at h
      obtain ⟨rfl, rfl⟩ := h
      rw [← Bytes.ofText_of_text? known] at small ⊢
      rw [Bytes.length_ofText] at small
      rw [encode_bytes_append, Bytes.length_ofText]
      exact ⟨small, rfl⟩
  · intro h
    obtain ⟨small, rfl⟩ := h
    exact run_text small rest

theorem whole_eq_ok {decoder : Decoder α} {bytes : Bytes} {value : α} :
    whole decoder bytes = .ok value ↔ decoder.run bytes = .ok (value, []) := by
  rw [whole]
  split <;> simp_all

end Decoder

/-! The tags of types and formats. -/

theorem tag_of_getElem? {α : Type} {all : List α} {tag : α → UInt8}
    (numbered : all.map (fun value => (tag value).toNat) = List.range all.length)
    {t : UInt8} {value : α} (h : all[t.toNat]? = some value) : t = tag value := by
  obtain ⟨lt, rfl⟩ := List.getElem?_eq_some_iff.1 h
  have place : (all.map fun value => (tag value).toNat)[t.toNat]? = some t.toNat := by
    rw [numbered, List.getElem?_range lt]
  rw [List.getElem?_map, h] at place
  exact UInt8.toNat_inj.1 (Option.some.inj place).symm

theorem ofTag?_eq_some {tag : UInt8} {type : AssetType} :
    AssetType.ofTag? tag = some type ↔ type ≠ .invalid ∧ tag = type.tag := by
  constructor
  · intro h
    exact ⟨AssetType.mem_all.1 (List.mem_of_getElem? h), tag_of_getElem? (by decide) h⟩
  · intro h
    obtain ⟨real, rfl⟩ := h
    exact AssetType.ofTag?_tag real

theorem pixelFormat_ofTag?_eq_some {tag : UInt8} {format : PixelFormat} :
    PixelFormat.ofTag? tag = some format ↔ tag = format.tag := by
  constructor
  · exact tag_of_getElem? (by decide)
  · intro h
    subst h
    exact format.ofTag?_tag

theorem audioFormat_ofTag?_eq_some {tag : UInt8} {format : AudioFormat} :
    AudioFormat.ofTag? tag = some format ↔ tag = format.tag := by
  constructor
  · exact tag_of_getElem? (by decide)
  · intro h
    subst h
    exact format.ofTag?_tag

open Decoder

theorem run_header_eq_ok {bytes rest : Bytes} {header : RunHeader} :
    (Packed.decode : Decoder RunHeader).run bytes = .ok (header, rest) ↔
      header.type ≠ .invalid ∧ bytes = Packed.encode header ++ rest := by
  simp only [Packed.decode, run_bind_eq_ok, run_tagged_eq_ok, run_word_eq_ok, run_pure_eq_ok,
    ofTag?_eq_some]
  constructor
  · intro h
    obtain ⟨type, _, ⟨_, ⟨real, rfl⟩, rfl⟩, count, _, rfl, rfl, rfl⟩ := h
    exact ⟨real, rfl⟩
  · intro h
    obtain ⟨real, rfl⟩ := h
    exact ⟨header.type, _, ⟨_, ⟨real, rfl⟩, rfl⟩, header.count, _, rfl, rfl, rfl⟩

/-- Forms which are read back exactly: a descriptor comes back from its form if it is sound, and
no other bytes are read as it. -/
class Exact (α : Type) [Packed α] where
  Sound : α → Prop
  length_encode (value : α) : (Packed.encode value).length = Packed.size value
  whole_decode (bytes : Bytes) (value : α) :
    whole Packed.decode bytes = .ok value ↔ Sound value ∧ bytes = Packed.encode value

/-- A texture with as many bytes of pixels as its dimensions ask for. -/
def Complete (texture : Texture) : Prop :=
  texture.pixels.length = Texture.pixelBytes texture.width texture.height texture.format

instance (texture : Texture) : Decidable (Complete texture) :=
  inferInstanceAs (Decidable (_ = _))

theorem encode_texture (texture : Texture) : Packed.encode texture =
    Bytes.ofWord texture.width ++ (Bytes.ofWord texture.height ++
      texture.format.tag :: texture.pixels) := by
  change Bytes.ofWord _ ++ Bytes.ofWord _ ++ [_] ++ _ = _
  rw [List.append_assoc, List.append_assoc]
  rfl

instance : Exact Texture where
  Sound := Complete
  length_encode texture := by
    rw [encode_texture]
    simp only [Packed.size, List.length_append, Bytes.length_ofWord, List.length_cons]
    omega
  whole_decode bytes texture := by
    simp only [whole_eq_ok, encode_texture, Packed.decode, run_bind_eq_ok, run_word_eq_ok,
      run_tagged_eq_ok, run_take_eq_ok, run_pure_eq_ok, pixelFormat_ofTag?_eq_some]
    constructor
    · intro h
      obtain ⟨width, _, rfl, height, _, rfl, format, _, ⟨_, rfl, rfl⟩, pixels, _,
        ⟨complete, rfl⟩, rfl, rfl⟩ := h
      rw [List.append_nil]
      exact ⟨complete, rfl⟩
    · intro h
      obtain ⟨complete, rfl⟩ := h
      exact ⟨texture.width, _, rfl, texture.height, _, rfl, texture.format, _, ⟨_, rfl, rfl⟩,
        texture.pixels, [], ⟨complete, (List.append_nil _).symm⟩, rfl, rfl⟩

theorem length_encode_text (content : String) :
    (Packed.encode content).length = Packed.size content := by
  change (Bytes.ofWord _ ++ Bytes.ofText content).length = 4 + content.utf8ByteSize
  rw [List.length_append, Bytes.length_ofWord, Bytes.length_ofText]

/-- The sources of a shader have lengths which can be written in front of them. -/
def ShortSources : Shader → Prop
  | .graphics vertex pixel =>
    vertex.utf8ByteSize < UInt32.size ∧ pixel.utf8ByteSize < UInt32.size
  | .compute source => source.utf8ByteSize < UInt32.size

theorem encode_graphics (vertex pixel : String) : Packed.encode (Shader.graphics vertex pixel) =
    0 :: (Packed.encode vertex ++ Packed.encode pixel) := rfl

theorem encode_compute (source : String) :
    Packed.encode (Shader.compute source) = 1 :: Packed.encode source := rfl

instance : Exact Shader where
  Sound := ShortSources
  length_encode shader := by
    cases shader with
    | graphics vertex pixel =>
      rw [encode_graphics, List.length_cons, List.length_append, length_encode_text,
        length_encode_text, Nat.add_comm]
      rfl
    | compute source =>
      rw [encode_compute, List.length_cons, length_encode_text, Nat.add_comm]
      rfl
  whole_decode bytes shader := by
    simp only [whole_eq_ok, Packed.decode, run_bind_eq_ok, run_byte_eq_ok]
    constructor
    · intro h
      obtain ⟨kind, rest, rfl, h⟩ := h
      split at h
      · subst kind
        simp only [run_bind_eq_ok, run_text_eq_ok, run_pure_eq_ok] at h
        obtain ⟨vertex, _, ⟨shortVertex, rfl⟩, pixel, _, ⟨shortPixel, rfl⟩, rfl, rfl⟩ := h
        rw [encode_graphics, List.append_nil]
        exact ⟨⟨shortVertex, shortPixel⟩, rfl⟩
      · split at h
        · subst kind
          simp only [run_bind_eq_ok, run_text_eq_ok, run_pure_eq_ok] at h
          obtain ⟨source, _, ⟨short, rfl⟩, rfl, rfl⟩ := h
          rw [encode_compute, List.append_nil]
          exact ⟨short, rfl⟩
        · exact absurd h run_throw_ne_ok
    · intro h
      obtain ⟨short, rfl⟩ := h
      cases shader with
      | graphics vertex pixel =>
        refine ⟨0, _, rfl, ?_⟩
        simp only [if_true, run_bind_eq_ok, run_text_eq_ok, run_pure_eq_ok]
        exact ⟨vertex, _, ⟨short.1, rfl⟩, pixel, [], ⟨short.2, (List.append_nil _).symm⟩, rfl, rfl⟩
      | compute source =>
        refine ⟨1, _, rfl, ?_⟩
        rw [if_neg (by decide), if_pos rfl]
        simp only [run_bind_eq_ok, run_text_eq_ok, run_pure_eq_ok]
        exact ⟨source, [], ⟨short, (List.append_nil _).symm⟩, rfl, rfl⟩

theorem encode_audio (audio : AudioBuffer) : Packed.encode audio =
    audio.format.tag :: audio.channels :: (Bytes.ofWord (UInt32.ofNat audio.pcm.length) ++
      (Bytes.ofWord audio.sampleRate ++ audio.pcm)) := by
  change [_, _] ++ Bytes.ofWord _ ++ Bytes.ofWord _ ++ _ = _
  rw [List.append_assoc, List.append_assoc]
  rfl

instance : Exact AudioBuffer where
  Sound audio := audio.pcm.length < UInt32.size
  length_encode audio := by
    rw [encode_audio]
    simp only [Packed.size, List.length_append, Bytes.length_ofWord, List.length_cons]
    omega
  whole_decode bytes audio := by
    simp only [whole_eq_ok, encode_audio, Packed.decode, run_bind_eq_ok, run_byte_eq_ok,
      run_word_eq_ok, run_tagged_eq_ok, run_take_eq_ok, run_pure_eq_ok,
      audioFormat_ofTag?_eq_some]
    constructor
    · intro h
      obtain ⟨format, _, ⟨_, rfl, rfl⟩, channels, _, rfl, size, _, rfl, rate, _, rfl,
        pcm, _, ⟨length, rfl⟩, rfl, rfl⟩ := h
      rw [length, UInt32.ofNat_toNat, List.append_nil]
      exact ⟨size.toNat_lt, rfl⟩
    · intro h
      obtain ⟨short, rfl⟩ := h
      exact ⟨audio.format, _, ⟨_, rfl, rfl⟩, audio.channels, _, rfl,
        UInt32.ofNat audio.pcm.length, _, rfl, audio.sampleRate, _, rfl, audio.pcm, [],
        ⟨(UInt32.toNat_ofNat_of_lt short).symm, (List.append_nil _).symm⟩, rfl, rfl⟩

instance : Exact Opaque where
  Sound _ := True
  length_encode _ := rfl
  whole_decode bytes descriptor := by
    rw [whole_eq_ok]
    change Except.ok (Opaque.mk bytes, []) = _ ↔ True ∧ bytes = descriptor.bytes
    obtain ⟨content⟩ := descriptor
    simp

/-- The lengths of the name and of the descriptor can be written in front of them. -/
def Named.Short {α : Type} [Packed α] (named : Named α) : Prop :=
  named.name.utf8ByteSize < UInt32.size ∧ Packed.size named.asset < UInt32.size

theorem encode_named {α : Type} [Packed α] [Exact α] (named : Named α) : Packed.encode named =
    Packed.encode named.name ++ Packed.encode (Packed.encode named.asset) := by
  change Packed.encode named.name ++ lengthWord (Packed.size named.asset) ++ _ = _
  rw [← Exact.length_encode, List.append_assoc]
  rfl

theorem run_named_eq_ok {α : Type} [Packed α] [Exact α] {bytes rest : Bytes} {named : Named α} :
    (Packed.decode : Decoder (Named α)).run bytes = .ok (named, rest) ↔
      named.Short ∧ Exact.Sound named.asset ∧ bytes = Packed.encode named ++ rest := by
  rw [encode_named, List.append_assoc]
  simp only [Packed.decode, run_bind_eq_ok, run_text_eq_ok, run_counted_eq_ok, run_lift_eq_ok,
    Exact.whole_decode, run_pure_eq_ok]
  constructor
  · intro h
    obtain ⟨name, _, ⟨shortName, rfl⟩, _, _, ⟨short, rfl⟩, asset, _, ⟨⟨sound, rfl⟩, rfl⟩,
      rfl, rfl⟩ := h
    rw [Exact.length_encode] at short
    exact ⟨⟨shortName, short⟩, sound, rfl⟩
  · intro h
    obtain ⟨⟨shortName, short⟩, sound, rfl⟩ := h
    rw [← Exact.length_encode] at short
    exact ⟨named.name, _, ⟨shortName, rfl⟩, _, _, ⟨short, rfl⟩, named.asset, _,
      ⟨⟨sound, rfl⟩, rfl⟩, rfl, rfl⟩

end AssetPack.Package

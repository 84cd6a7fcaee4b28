import AssetPack.Package.Fill
import AssetPack.Proofs.Package.Decoding

/-! Values written over bytes of their size. Nothing goes wrong as long as every length in front of a
part has a word, and afterwards the bytes are the form of the value, whatever stood there before. -/

namespace AssetPack.Package

/-- Values with lengths which can all be written: of the text and the bytes in them, and of the
descriptors of records. -/
inductive Fits : {α : Type} → [Packed α] → [Fill α] → α → Prop
  | byte (b : UInt8) : Fits b
  | word (w : UInt32) : Fits w
  | bytes {bytes : Bytes} : bytes.length < UInt32.size → Fits bytes
  | text {text : String} : text.utf8ByteSize < UInt32.size → Fits text
  | header (header : RunHeader) : Fits header
  | texture (texture : Texture) : Fits texture
  | graphics {vertex pixel : String} : Fits vertex → Fits pixel →
      Fits (Shader.graphics vertex pixel)
  | compute {source : String} : Fits source → Fits (Shader.compute source)
  | audio {audio : AudioBuffer} : audio.pcm.length < UInt32.size → Fits audio
  | named {α : Type} [Packed α] [Fill α] {named : Named α} : Fits named.name →
      Packed.size named.asset < UInt32.size → Fits named.asset → Fits named

/-- Whatever stands in bytes of its size, the value turns them into its form. -/
structure Fillable {α : Type} [Packed α] [Fill α] (value : α) : Prop where
  length_encode : (Packed.encode value).length = Packed.size value
  fill (bytes : Bytes) : bytes.length = Packed.size value →
    Fill.fill value bytes = .ok (Packed.encode value)

namespace Filler
variable {α : Type} [Packed α] {value : α} {form : Bytes} {filler : Filler Unit}

theorem slice_append (before part after : Bytes) {last : Nat}
    (ends : last = before.length + part.length) :
    slice (before ++ part ++ after) before.length last = .ok part := by
  have inside : last ≤ (before ++ part ++ after).length := by
    rw [List.length_append, List.length_append]
    omega
  rw [slice, if_pos ⟨by omega, inside⟩, ends, ← List.length_append, List.take_left, List.drop_left]

theorem slice_rest (before part : Bytes) :
    slice (before ++ part) before.length (before ++ part).length = .ok part := by
  have found := slice_append before part [] List.length_append
  rwa [List.append_nil] at found

/-- The next bytes are replaced, and nothing in front of them or behind. -/
theorem run_put [Fill α] (fillable : Fillable value) (before gap after : Bytes)
    (length : gap.length = Packed.size value) :
    (put value).run ⟨before ++ gap ++ after, before.length⟩ =
      .ok ((), ⟨before ++ Packed.encode value ++ after,
        (before ++ Packed.encode value).length⟩) := by
  have part := slice_append before gap after (congrArg (before.length + ·) length.symm)
  have behind : (before ++ gap ++ after).drop (before.length + Packed.size value) = after := by
    rw [← length, ← List.length_append, List.drop_left]
  simp only [StateT.run, put, part, fillable.fill gap length, behind, Bind.bind, Except.bind]
  rw [List.append_assoc before gap, List.take_left, List.length_append, fillable.length_encode]
  rfl

/-- From its cursor to its end a page is filled with these bytes, whatever stood there. -/
def Writes (filler : Filler Unit) (form : Bytes) : Prop :=
  ∀ before gap : Bytes, gap.length = form.length →
    ∃ cursor, filler.run ⟨before ++ gap, before.length⟩ = .ok ((), ⟨before ++ form, cursor⟩)

theorem writes_putRest (source : Bytes) : Writes (putRest source) source := by
  intro before gap length
  refine ⟨before.length, ?_⟩
  have same : copy source gap = .ok source := if_pos length.symm
  simp only [StateT.run, putRest, slice_rest, same, Bind.bind, Except.bind]
  rw [List.take_left]
  rfl

/-- The next value, and then the rest of the page. -/
theorem Writes.put [Fill α] (fillable : Fillable value) (rest : Writes filler form) :
    Writes (do put value; filler) (Packed.encode value ++ form) := by
  intro before gap length
  rw [List.length_append, fillable.length_encode] at length
  have first : (gap.take (Packed.size value)).length = Packed.size value := by
    rw [List.length_take]
    omega
  have later : (gap.drop (Packed.size value)).length = form.length := by
    rw [List.length_drop]
    omega
  obtain ⟨cursor, run⟩ := rest (before ++ Packed.encode value) _ later
  refine ⟨cursor, ?_⟩
  conv => lhs; rw [← List.take_append_drop (Packed.size value) gap, ← List.append_assoc]
  rw [StateT.run_bind, run_put fillable before _ _ first, ← List.append_assoc]
  exact run

theorem Writes.last [Fill α] (fillable : Fillable value) :
    Writes (Filler.put value) (Packed.encode value) := by
  intro before gap length
  rw [fillable.length_encode] at length
  have run := run_put fillable before gap [] length
  rw [List.append_nil, List.append_nil] at run
  exact ⟨_, run⟩

/-- A length which has a word is written like any other word. -/
theorem Writes.prefixed {length : Nat} (short : length < UInt32.size) {next : UInt32 → Filler Unit}
    (writes : Writes (next (UInt32.ofNat length)) form) :
    Writes (do next (← lengthPrefix length)) form := by
  rw [lengthPrefix, if_pos short, pure_bind]
  exact writes

theorem Writes.start (writes : Writes filler form) {bytes : Bytes}
    (length : bytes.length = form.length) : filler.start bytes = .ok form := by
  obtain ⟨cursor, run⟩ := writes [] bytes length
  exact congrArg (Except.map fun done => done.2.bytes) run

end Filler

open Filler

/-- A value which is written as its form, part by part, over all of the bytes. -/
theorem Fillable.of_writes {α : Type} [Packed α] [Fill α] {value : α} {filler : Filler Unit}
    (parts : Fill.fill value = overwrite value filler)
    (same : (Packed.encode value).length = Packed.size value)
    (writes : Writes filler (Packed.encode value)) : Fillable value where
  length_encode := same
  fill bytes length := by
    rw [parts, overwrite, if_neg (not_not_intro length)]
    exact writes.start (length.trans same.symm)

namespace Fillable

theorem byte (b : UInt8) : Fillable b where
  length_encode := rfl
  fill bytes length := by
    obtain ⟨old, rfl⟩ := List.length_eq_one_iff.1 length
    rfl

theorem word (w : UInt32) : Fillable w where
  length_encode := rfl
  fill bytes length := by
    change bytes.length = (Bytes.ofWord w).length at length
    simp only [Fill.fill, length, copy]
    rfl

theorem bytes {bytes : Bytes} (short : bytes.length < UInt32.size) : Fillable bytes := by
  refine .of_writes rfl ?_ (.prefixed short (.put (word _) (writes_putRest bytes)))
  change (Bytes.ofWord _ ++ bytes).length = 4 + bytes.length
  rw [List.length_append, Bytes.length_ofWord]

theorem text {text : String} (short : text.utf8ByteSize < UInt32.size) : Fillable text where
  length_encode := length_encode_text text
  fill old length := by
    rw [← Bytes.length_ofText] at short
    change old.length = 4 + text.utf8ByteSize at length
    rw [← Bytes.length_ofText] at length
    refine ((bytes short).fill old length).trans ?_
    change Except.ok (lengthWord (Bytes.ofText text).length ++ Bytes.ofText text) = _
    rw [Bytes.length_ofText]
    rfl

theorem header (header : RunHeader) : Fillable header :=
  .of_writes rfl rfl (.put (byte _) (.last (word _)))

theorem texture (texture : Texture) : Fillable texture := by
  refine .of_writes rfl (Exact.length_encode texture) ?_
  rw [encode_texture]
  exact .put (word _) (.put (word _) (.put (byte _) (writes_putRest _)))

theorem graphics {vertex pixel : String} (first : Fillable vertex) (second : Fillable pixel) :
    Fillable (Shader.graphics vertex pixel) :=
  .of_writes rfl (Exact.length_encode _) (.put (byte _) (.put first (.last second)))

theorem compute {source : String} (fillable : Fillable source) :
    Fillable (Shader.compute source) :=
  .of_writes rfl (Exact.length_encode _) (.put (byte _) (.last fillable))

theorem audio {audio : AudioBuffer} (short : audio.pcm.length < UInt32.size) :
    Fillable audio := by
  refine .of_writes rfl (Exact.length_encode audio) ?_
  rw [encode_audio]
  exact .put (byte _) (.put (byte _)
    (.prefixed short (.put (word _) (.put (word _) (writes_putRest _)))))

theorem named {α : Type} [Packed α] [Fill α] {named : Named α} (name : Fillable named.name)
    (short : Packed.size named.asset < UInt32.size) (asset : Fillable named.asset) :
    Fillable named := by
  have form : Packed.encode named = Packed.encode named.name ++
      (lengthWord (Packed.size named.asset) ++ Packed.encode named.asset) := List.append_assoc _ _ _
  refine .of_writes rfl ?_ ?_
  · rw [form, List.length_append, List.length_append, name.length_encode, asset.length_encode]
    rfl
  · rw [form]
    exact .put name (.prefixed short (.put (word _) (.last asset)))

end Fillable

theorem Fits.fillable {α : Type} [Packed α] [Fill α] {value : α} (fits : Fits value) :
    Fillable value := by
  induction fits with
  | byte b => exact .byte b
  | word w => exact .word w
  | bytes short => exact .bytes short
  | text short => exact .text short
  | header header => exact .header header
  | texture texture => exact .texture texture
  | graphics _ _ first second => exact .graphics first second
  | compute _ fillable => exact .compute fillable
  | audio short => exact .audio short
  | named _ short _ name asset => exact .named name short asset

/-- Nothing goes wrong when a value is written whose lengths can all be written. It fills bytes of
its size exactly, every one of them with a byte of its form, whatever stood there before. -/
theorem Fits.filled_eq {α : Type} [Packed α] [Fill α] {value : α} (fits : Fits value) :
    filled value = .ok (Packed.encode value) ∧
      (Packed.encode value).length = Packed.size value ∧
      ∀ bytes, bytes.length = Packed.size value →
        Fill.fill value bytes = .ok (Packed.encode value) := by
  have fillable := fits.fillable
  refine ⟨?_, fillable.length_encode, fillable.fill⟩
  have zeros : (List.replicate (Packed.size value) (0 : UInt8)).length = Packed.size value :=
    List.length_replicate
  exact (Writes.last fillable).start (zeros.trans fillable.length_encode.symm)

theorem filled_eq_stages :
    Fits (⟨"a", .graphics "v" "px"⟩ : Named Shader) ∧
      filled (⟨"a", .graphics "v" "px"⟩ : Named Shader) = .ok [1, 0, 0, 0, 97, 12, 0, 0, 0, 0,
        1, 0, 0, 0, 118, 2, 0, 0, 0, 112, 120] ∧
      Fill.fill (⟨"a", .graphics "v" "px"⟩ : Named Shader) (List.replicate 21 9) =
        .ok [1, 0, 0, 0, 97, 12, 0, 0, 0, 0, 1, 0, 0, 0, 118, 2, 0, 0, 0, 112, 120] := by
  have fits : Fits (⟨"a", .graphics "v" "px"⟩ : Named Shader) :=
    .named (.text (by decide)) (by decide) (.graphics (.text (by decide)) (.text (by decide)))
  obtain ⟨written, -, again⟩ := fits.filled_eq
  exact ⟨fits, written, again _ (by decide)⟩

end AssetPack.Package

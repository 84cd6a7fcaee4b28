import AssetPack.Package.Run
import AssetPack.Proofs.Package.Decoding

/-! Reading the parts of a package: the form of runs is taken apart into their parts, and bytes
which are read to their end are the form of runs. -/

namespace AssetPack

namespace PackagedAsset

def size : PackagedAsset → Nat
  | texture t => Package.Packed.size t
  | shader s => Package.Packed.size s
  | audio a => Package.Packed.size a

def Complete : PackagedAsset → Prop
  | texture t => Package.Complete t
  | _ => True

end PackagedAsset

namespace Package
open Decoder

namespace Item

/-- The lengths of the name and of the descriptor can be written in front of them. -/
def Short : Item → Prop
  | record named => named.name.utf8ByteSize < UInt32.size ∧ named.asset.size < UInt32.size
  | skipped _ named => named.Short

def Complete : Item → Prop
  | record named => named.asset.Complete
  | skipped .. => True

def record? : Item → Option Record
  | record named => some named
  | skipped .. => none

end Item

theorem shortSources {shader : Shader} (h : Packed.size shader < UInt32.size) :
    ShortSources shader := by
  cases shader with
  | graphics vertex pixel =>
    change 1 + ((4 + vertex.utf8ByteSize) + (4 + pixel.utf8ByteSize)) < _ at h
    exact ⟨by omega, by omega⟩
  | compute source =>
    change 1 + (4 + source.utf8ByteSize) < _ at h
    change source.utf8ByteSize < _
    omega

theorem shortPcm {audio : AudioBuffer} (h : Packed.size audio < UInt32.size) :
    audio.pcm.length < UInt32.size := by
  change 10 + audio.pcm.length < _ at h
  omega

/-- One type of descriptors, which `wrap` puts among the assets. -/
theorem run_wrapped_eq_ok {α : Type} [Packed α] [Exact α] (wrap : α → PackagedAsset)
    {type : AssetType} (typed : ∀ asset : PackagedAsset, asset.type = type ↔ ∃ a, asset = wrap a)
    (encode : ∀ name a, (Item.record ⟨name, wrap a⟩).encode = Packed.encode (⟨name, a⟩ : Named α))
    (size : ∀ a, (wrap a).size = Packed.size a)
    (sound : ∀ a : α, Packed.size a < UInt32.size → (Exact.Sound a ↔ (wrap a).Complete))
    (packaged : isPackaged type = true) {bytes rest : Bytes} {item : Item} :
    ((fun named : Named α => Item.record (named.map wrap)) <$>
        (Packed.decode : Decoder (Named α))).run bytes = .ok (item, rest) ↔
      item.Fits type ∧ item.Short ∧ item.Complete ∧ bytes = item.encode ++ rest := by
  simp only [run_map_eq_ok, run_named_eq_ok]
  constructor
  · intro h
    obtain ⟨⟨name, a⟩, ⟨short, exact, rfl⟩, rfl⟩ := h
    refine ⟨(typed _).2 ⟨a, rfl⟩, ⟨short.1, ?_⟩, (sound a short.2).1 exact, ?_⟩
    · exact (size a).symm ▸ short.2
    · rw [← encode]
      rfl
  · intro h
    obtain ⟨fits, short, complete, rfl⟩ := h
    cases item with
    | skipped other named =>
      obtain ⟨rfl, other⟩ := fits
      rw [packaged] at other
      cases other
    | record named =>
      obtain ⟨name, asset⟩ := named
      obtain ⟨a, rfl⟩ := (typed asset).1 fits
      have shortSize : Packed.size a < UInt32.size := (size a) ▸ short.2
      exact ⟨⟨name, a⟩, ⟨⟨short.1, shortSize⟩, (sound a shortSize).2 complete, by rw [← encode]⟩,
        rfl⟩

theorem run_skipped_eq_ok {type : AssetType} (h : isPackaged type = false) {bytes rest : Bytes}
    {item : Item} : (Item.skipped type <$> (Packed.decode : Decoder (Named Opaque))).run bytes =
        .ok (item, rest) ↔
      item.Fits type ∧ item.Short ∧ item.Complete ∧ bytes = item.encode ++ rest := by
  simp only [run_map_eq_ok, run_named_eq_ok]
  constructor
  · intro h
    obtain ⟨named, ⟨short, -, rfl⟩, rfl⟩ := h
    exact ⟨⟨rfl, h⟩, short, trivial, rfl⟩
  · intro h
    obtain ⟨fits, short, -, rfl⟩ := h
    cases item with
    | skipped other named =>
      obtain ⟨rfl, -⟩ := fits
      exact ⟨named, ⟨short, trivial, rfl⟩, rfl⟩
    | record named =>
      obtain ⟨name, asset⟩ := named
      cases fits
      cases asset <;> cases h

/-- A record is read exactly off the form of an item which fits the type. -/
theorem run_item_eq_ok {type : AssetType} {bytes rest : Bytes} {item : Item} :
    (decodeItem type).run bytes = .ok (item, rest) ↔
      item.Fits type ∧ item.Short ∧ item.Complete ∧ bytes = item.encode ++ rest := by
  cases type with
  | texture =>
    refine run_wrapped_eq_ok .texture (fun asset => ?_) (fun _ _ => rfl) (fun _ => rfl)
      (fun _ _ => Iff.rfl) rfl
    cases asset <;> simp [PackagedAsset.type]
  | shader =>
    refine run_wrapped_eq_ok .shader (fun asset => ?_) (fun _ _ => rfl) (fun _ => rfl)
      (fun _ h => ⟨fun _ => trivial, fun _ => shortSources h⟩) rfl
    cases asset <;> simp [PackagedAsset.type]
  | audioBuffer =>
    refine run_wrapped_eq_ok .audio (fun asset => ?_) (fun _ _ => rfl) (fun _ => rfl)
      (fun _ h => ⟨fun _ => trivial, fun _ => shortPcm h⟩) rfl
    cases asset <;> simp [PackagedAsset.type]
  | buffer => exact run_skipped_eq_ok rfl
  | shaderContext => exact run_skipped_eq_ok rfl
  | animation => exact run_skipped_eq_ok rfl
  | font => exact run_skipped_eq_ok rfl
  | invalid => exact run_skipped_eq_ok rfl

namespace Run

/-- The numbers and lengths of the run can all be written. -/
def Short (run : Run) : Prop :=
  run.items.length < UInt32.size ∧ ∀ item ∈ run.items, item.Short

/-- Every texture has as many bytes of pixels as its dimensions ask for. -/
def Complete (run : Run) : Prop := ∀ item ∈ run.items, item.Complete

/-- The records of types which are packaged. -/
def records (run : Run) : List Record := run.items.filterMap Item.record?

end Run

theorem Run.toNat_count {run : Run} (few : run.items.length < UInt32.size) :
    run.header.count.toNat = run.items.length :=
  UInt32.toNat_ofNat_of_lt few

/-! One step of reading. -/

theorem scan_nil (type : AssetType) : scan type 0 [] = ⟨[], none⟩ := by
  rw [scan, if_pos rfl, if_pos rfl]

theorem scan_header {type : AssetType} {bytes rest : Bytes} {header : RunHeader}
    (found : (Packed.decode : Decoder RunHeader).run bytes = .ok (header, rest)) :
    scan type 0 bytes = (scan header.type header.count.toNat rest).cons (.header header) := by
  have nonempty : bytes ≠ [] := by
    intro h
    subst h
    cases found
  rw [scan, if_pos rfl, if_neg nonempty]
  split
  · rename_i same
    rw [found] at same
    cases same
    rfl
  · rename_i same
    rw [found] at same
    cases same

theorem scan_header_error {type : AssetType} {bytes : Bytes} {error : DecodeError}
    (nonempty : bytes ≠ [])
    (found : (Packed.decode : Decoder RunHeader).run bytes = .error error) :
    scan type 0 bytes = .fail error bytes := by
  rw [scan, if_pos rfl, if_neg nonempty]
  split
  · rename_i same
    rw [found] at same
    cases same
  · rename_i same
    rw [found] at same
    cases same
    rfl

theorem scan_item {type : AssetType} {count : Nat} {bytes rest : Bytes} {item : Item}
    (found : (decodeItem type).run bytes = .ok (item, rest)) :
    scan type (count + 1) bytes = (scan type count rest).cons (.item item) := by
  rw [scan, if_neg (Nat.succ_ne_zero count)]
  split
  · rename_i same
    rw [found] at same
    cases same
    rfl
  · rename_i same
    rw [found] at same
    cases same

theorem scan_item_error {type : AssetType} {count : Nat} {bytes : Bytes} {error : DecodeError}
    (found : (decodeItem type).run bytes = .error error) :
    scan type (count + 1) bytes = .fail error bytes := by
  rw [scan, if_neg (Nat.succ_ne_zero count)]
  split
  · rename_i same
    rw [found] at same
    cases same
  · rename_i same
    rw [found] at same
    cases same
    rfl

def Scan.prepend (parts : List Part) (scan : Scan) : Scan :=
  { scan with parts := parts ++ scan.parts }

/-- Between runs the type does not matter. -/
theorem scan_zero (type other : AssetType) (bytes : Bytes) :
    scan type 0 bytes = scan other 0 bytes := by
  rw [scan, scan]
  rfl

/-- A record which can be in a run and is read back. -/
def Item.Good (type : AssetType) (item : Item) : Prop :=
  item.Fits type ∧ item.Short ∧ item.Complete

/-- The records at the start of a run are read, and as many fewer are left to read. -/
theorem scan_items_add {type : AssetType} {items : List Item}
    (good : ∀ item ∈ items, item.Good type) (count : Nat) (rest : Bytes) :
    scan type (items.length + count) (items.flatMap Item.encode ++ rest) =
      (scan type count rest).prepend (items.map .item) := by
  induction items with
  | nil => simp [Scan.prepend]
  | cons item items ih =>
    obtain ⟨fits, short, complete⟩ := good item List.mem_cons_self
    have taken : (decodeItem type).run ((item :: items).flatMap Item.encode ++ rest) =
        .ok (item, items.flatMap Item.encode ++ rest) := by
      rw [run_item_eq_ok, List.flatMap_cons, List.append_assoc]
      exact ⟨fits, short, complete, rfl⟩
    rw [List.length_cons, Nat.add_right_comm, scan_item taken,
      ih fun other mem => good other (List.mem_cons_of_mem item mem)]
    rfl

theorem scan_items {type : AssetType} {items : List Item}
    (good : ∀ item ∈ items, item.Good type) (rest : Bytes) :
    scan type items.length (items.flatMap Item.encode ++ rest) =
      (scan .invalid 0 rest).prepend (items.map .item) := by
  rw [← scan_zero type]
  exact scan_items_add good 0 rest

/-- Runs are read independently of what follows them. -/
theorem scan_runs {runs : List Run} (short : ∀ run ∈ runs, run.Short)
    (complete : ∀ run ∈ runs, run.Complete) (rest : Bytes) :
    scan .invalid 0 (runs.flatMap Run.encode ++ rest) =
      (scan .invalid 0 rest).prepend (runs.flatMap Run.parts) := by
  induction runs with
  | nil => rfl
  | cons run runs ih =>
    have others := ih (fun other mem => short other (List.mem_cons_of_mem run mem))
      (fun other mem => complete other (List.mem_cons_of_mem run mem))
    obtain ⟨few, shortItems⟩ := short run List.mem_cons_self
    have good : ∀ item ∈ run.items, item.Good run.type := fun item mem =>
      ⟨run.fits item mem, shortItems item mem, complete run List.mem_cons_self item mem⟩
    have taken : (Packed.decode : Decoder RunHeader).run
        ((run :: runs).flatMap Run.encode ++ rest) = .ok (run.header,
          run.items.flatMap Item.encode ++ (runs.flatMap Run.encode ++ rest)) := by
      rw [run_header_eq_ok, List.flatMap_cons, Run.encode, List.append_assoc, List.append_assoc]
      exact ⟨run.type_ne_invalid, rfl⟩
    rw [scan_header taken, Run.toNat_count few]
    change (scan run.type _ _).cons _ = _
    rw [scan_items good, others]
    simp [Scan.prepend, Scan.cons, Run.parts]

/-- Records which were read behind a header, as many as it says, are a run. -/
theorem exists_run {header : RunHeader} {items : List Item} (real : header.type ≠ .invalid)
    (good : ∀ item ∈ items, item.Good header.type) (length : items.length = header.count.toNat) :
    ∃ run : Run, run.header = header ∧ run.items = items ∧ run.Short ∧ run.Complete := by
  let run : Run := ⟨header.type, items, real, fun item mem => (good item mem).1⟩
  have same : run.header = header := by
    rw [Run.header, length, UInt32.ofNat_toNat]
  have few : run.items.length < UInt32.size := by
    rw [length]
    exact header.count.toNat_lt
  exact ⟨run, same, rfl, ⟨few, fun item mem => (good item mem).2.1⟩,
    fun item mem => (good item mem).2.2⟩

/-- The parts of a package which is read to its end are those of runs, whose form it is. -/
theorem runs_of_scan {type : AssetType} {count : Nat} {bytes : Bytes} {parts : List Part}
    (h : scan type count bytes = ⟨parts, none⟩) :
    ∃ (items : List Item) (runs : List Run), items.length = count ∧
      (∀ item ∈ items, item.Good type) ∧ (∀ run ∈ runs, run.Short ∧ run.Complete) ∧
      bytes = items.flatMap Item.encode ++ runs.flatMap Run.encode ∧
      parts = items.map .item ++ runs.flatMap Run.parts := by
  induction type, count, bytes using scan.induct generalizing parts with
  | case1 type =>
    rw [scan_nil] at h
    cases h
    exact ⟨[], [], rfl, by simp, by simp, rfl, rfl⟩
  | case2 type bytes nonempty header rest found ih =>
    rw [scan_header found] at h
    obtain ⟨tail, tailEq⟩ : ∃ tail, scan header.type header.count.toNat rest = ⟨tail, none⟩ :=
      ⟨_, congrArg (Scan.mk _) (congrArg Scan.failure h)⟩
    obtain ⟨items, runs, length, good, goodRuns, rfl, rfl⟩ := ih tailEq
    obtain ⟨real, rfl⟩ := run_header_eq_ok.1 found
    rw [tailEq] at h
    cases h
    obtain ⟨run, same, rfl, goodRun⟩ := exists_run real good length
    refine ⟨[], run :: runs, rfl, by simp, ?_, ?_, ?_⟩
    · intro other mem
      rcases List.mem_cons.1 mem with rfl | mem
      · exact goodRun
      · exact goodRuns other mem
    · rw [List.flatMap_nil, List.nil_append, List.flatMap_cons, Run.encode, same,
        List.append_assoc]
    · rw [List.map_nil, List.nil_append, List.flatMap_cons, Run.parts, same]
      rfl
  | case3 type bytes nonempty error found =>
    rw [scan_header_error nonempty found] at h
    cases h
  | case4 type count bytes positive item rest found ih =>
    obtain ⟨count, rfl⟩ := Nat.exists_eq_succ_of_ne_zero positive
    rw [Nat.succ_eq_add_one, scan_item found] at h
    obtain ⟨tail, tailEq⟩ : ∃ tail, scan type count rest = ⟨tail, none⟩ :=
      ⟨_, congrArg (Scan.mk _) (congrArg Scan.failure h)⟩
    obtain ⟨items, runs, length, good, goodRuns, rfl, rfl⟩ := ih tailEq
    obtain ⟨fits, short, complete, rfl⟩ := run_item_eq_ok.1 found
    rw [tailEq] at h
    cases h
    refine ⟨item :: items, runs, congrArg Nat.succ length, ?_, goodRuns, ?_, rfl⟩
    · intro other mem
      rcases List.mem_cons.1 mem with rfl | mem
      · exact ⟨fits, short, complete⟩
      · exact good other mem
    · rw [List.flatMap_cons, List.append_assoc]
  | case5 type count bytes positive error found =>
    obtain ⟨count, rfl⟩ := Nat.exists_eq_succ_of_ne_zero positive
    rw [Nat.succ_eq_add_one, scan_item_error found] at h
    cases h

/-- The start of a run, behind which something is not read: nothing, where a header should follow,
or a header and fewer records than it asks for. -/
inductive Stuck (left : Bytes) (error : DecodeError) : Bytes → Prop
  | header (some : left ≠ [])
    (unread : (Packed.decode : Decoder RunHeader).run left = .error error) : Stuck left error []
  | item (header : RunHeader) (items : List Item) (real : header.type ≠ .invalid)
    (good : ∀ item ∈ items, item.Good header.type) (missing : items.length < header.count.toNat)
    (unread : (decodeItem header.type).run left = .error error) :
    Stuck left error (Packed.encode header ++ items.flatMap Item.encode)

/-- Where reading stops, the records which were asked for are not complete, or they are followed by
runs and by the start of one more. -/
theorem stuck_of_scan {type : AssetType} {count : Nat} {bytes left : Bytes} {error : DecodeError}
    (stopped : (scan type count bytes).failure = some (error, left)) :
    ∃ items : List Item, (∀ item ∈ items, item.Good type) ∧
      ((items.length < count ∧ bytes = items.flatMap Item.encode ++ left ∧
          (decodeItem type).run left = .error error) ∨
        items.length = count ∧ ∃ (runs : List Run) (start : Bytes),
          (∀ run ∈ runs, run.Short ∧ run.Complete) ∧ Stuck left error start ∧
            bytes = items.flatMap Item.encode ++ (runs.flatMap Run.encode ++ (start ++ left))) := by
  induction type, count, bytes using scan.induct with
  | case1 type =>
    rw [scan_nil] at stopped
    cases stopped
  | case2 type bytes nonempty header rest found ih =>
    rw [scan_header found] at stopped
    obtain ⟨real, rfl⟩ := run_header_eq_ok.1 found
    obtain ⟨items, good, ⟨missing, rfl, unread⟩ | ⟨length, runs, start, goodRuns, stuck, rfl⟩⟩ :=
      ih stopped
    · have stuck : Stuck left error _ := .item header items real good missing unread
      refine ⟨[], by simp, .inr ⟨rfl, [], _, by simp, stuck, ?_⟩⟩
      simp
    · obtain ⟨run, same, rfl, goodRun⟩ := exists_run real good length
      refine ⟨[], by simp, .inr ⟨rfl, run :: runs, start, ?_, stuck, ?_⟩⟩
      · intro other mem
        rcases List.mem_cons.1 mem with rfl | mem
        · exact goodRun
        · exact goodRuns other mem
      · simp [Run.encode, same]
  | case3 type bytes nonempty error found =>
    rw [scan_header_error nonempty found] at stopped
    cases stopped
    exact ⟨[], by simp, .inr ⟨rfl, [], [], by simp, .header nonempty found, rfl⟩⟩
  | case4 type count bytes positive item rest found ih =>
    obtain ⟨count, rfl⟩ := Nat.exists_eq_succ_of_ne_zero positive
    rw [Nat.succ_eq_add_one, scan_item found] at stopped
    obtain ⟨fits, short, complete, rfl⟩ := run_item_eq_ok.1 found
    obtain ⟨items, good, rest⟩ := ih stopped
    refine ⟨item :: items, ?_, ?_⟩
    · intro other mem
      rcases List.mem_cons.1 mem with rfl | mem
      · exact ⟨fits, short, complete⟩
      · exact good other mem
    · rw [List.flatMap_cons, List.append_assoc, List.length_cons]
      rcases rest with ⟨missing, rfl, unread⟩ | ⟨length, runs, start, goodRuns, stuck, rfl⟩
      · exact .inl ⟨Nat.succ_lt_succ missing, rfl, unread⟩
      · refine .inr ⟨congrArg Nat.succ length, runs, start, goodRuns, stuck, ?_⟩
        rw [List.append_assoc]
  | case5 type count bytes positive error found =>
    obtain ⟨count, rfl⟩ := Nat.exists_eq_succ_of_ne_zero positive
    rw [Nat.succ_eq_add_one, scan_item_error found] at stopped
    cases stopped
    exact ⟨[], by simp, .inl ⟨Nat.succ_pos count, rfl, found⟩⟩

end Package

end AssetPack

import AssetPack.Package.Build
import AssetPack.Proofs.Log
import AssetPack.Proofs.Files.Writing
import AssetPack.Proofs.Package.Scanning

/-! The steps of a build: what is written, which loaders are called, and what they answered. -/

namespace AssetPack.Package
open Process

namespace Builder
variable {α : Type}

theorem eval_update (target : Target) (change : Progress → Except IoError Progress)
    (p : Progress) : eval (update target change) p = match change p with
      | .ok q => (.ok (), q)
      | .error reason => (.error (.write target.path (.io reason)), p) := by
  rw [update, eval_bind, eval_get]
  dsimp only
  cases change p <;> rfl

theorem update_eq_ok {target : Target} {change : Progress → Except IoError Progress}
    {p q : Progress} {a : Unit} (h : eval (update target change) p = (.ok a, q)) :
    change p = .ok q := by
  rw [eval_update] at h
  split at h
  · rename_i next changed
    cases h
    exact changed
  · cases h

end Builder

/-! The package file while it is written. -/

/-- The bytes which were accepted so far are in the file, or wait behind those which are. -/
def Stands (files : FileTree) (output : Path) (bytes : Bytes) (p : Progress) : Prop :=
  ∃ before, files.write output before = .ok p.files ∧ before ++ p.pending = bytes

section writing
variable {files emptied : FileTree} {target : Target} {bytes more : Bytes} {p q : Progress}

theorem flush_eq_ok (opened : files.create target.path = .ok (emptied, target.sink))
    (stands : Stands files target.path bytes p) (h : p.flush target.sink = .ok q) :
    files.write target.path bytes = .ok q.files ∧ q.pending = [] ∧ q.loads = p.loads := by
  obtain ⟨before, written, rfl⟩ := stands
  simp only [Progress.flush, Bind.bind, Except.bind] at h
  split at h
  · cases h
  · rename_i tree appended
    cases h
    exact ⟨FileTree.write_append opened written appended, rfl, rfl⟩

theorem Stands.wait (stands : Stands files target.path bytes p) (more : Bytes) :
    Stands files target.path (bytes ++ more) { p with pending := p.pending ++ more } := by
  obtain ⟨before, written, rfl⟩ := stands
  exact ⟨before, written, (List.append_assoc _ _ _).symm⟩

theorem Stands.pass (opened : files.create target.path = .ok (emptied, target.sink))
    (stands : Stands files target.path bytes p) (none : p.pending = []) {tree : FileTree}
    (appended : p.files.append more target.sink = .ok tree) :
    Stands files target.path (bytes ++ more) { p with files := tree } := by
  obtain ⟨before, written, rfl⟩ := stands
  rw [none, List.append_nil]
  exact ⟨before ++ more, FileTree.write_append opened written appended, List.append_nil _⟩

/-- The end of `push`. More than fit at all only go on when nothing waits. -/
theorem accept_eq_ok (opened : files.create target.path = .ok (emptied, target.sink))
    (stands : Stands files target.path bytes p)
    (ready : Progress.capacity ≤ more.length → p.pending = [])
    (h : (if Progress.capacity ≤ more.length then do
        return { p with files := ← p.files.append more target.sink }
      else return { p with pending := p.pending ++ more }) = Except.ok (ε := IoError) q) :
    Stands files target.path (bytes ++ more) q ∧ q.loads = p.loads := by
  split at h
  · rename_i large
    simp only [Bind.bind, Except.bind] at h
    split at h
    · cases h
    · rename_i tree appended
      cases h
      exact ⟨stands.pass opened (ready large) appended, rfl⟩
  · cases h
    exact ⟨stands.wait more, rfl⟩

theorem push_eq_ok (opened : files.create target.path = .ok (emptied, target.sink))
    (stands : Stands files target.path bytes p) (h : p.push target.sink more = .ok q) :
    Stands files target.path (bytes ++ more) q ∧ q.loads = p.loads := by
  simp only [Progress.push] at h
  split at h
  · cases h
    exact ⟨stands.wait more, rfl⟩
  · split at h
    · cases flushed : p.flush target.sink with
      | error reason =>
        rw [flushed] at h
        cases h
      | ok next =>
        rw [flushed] at h
        obtain ⟨written, none, loads⟩ := flush_eq_ok opened stands flushed
        have stands : Stands files target.path bytes next :=
          ⟨bytes, written, by rw [none, List.append_nil]⟩
        obtain ⟨stands, same⟩ := accept_eq_ok opened stands (fun _ => none) h
        exact ⟨stands, same.trans loads⟩
    -- Without a flush the bytes fill the room exactly, and the room is no more than the capacity.
    · refine accept_eq_ok opened stands (fun large => ?_) h
      have room : more.length = Progress.capacity - p.pending.length := by omega
      have some : 0 < Progress.capacity := by decide
      exact List.eq_nil_of_length_eq_zero (by omega)

end writing

/-! Calls of loaders, and the records which come of them. -/

/-- The type of the assets which a loader makes. -/
def LoadKind.type : LoadKind → AssetType
  | .texture => .texture
  | .shader => .shader
  | .audio => .audioBuffer

def LoadKind.ofType? : AssetType → Option LoadKind
  | .texture => some .texture
  | .shader => some .shader
  | .audioBuffer => some .audio
  | _ => none

/-- A path without a file name gives a record without a name. -/
def Load.record (call : Load) (asset : PackagedAsset) : Record :=
  ⟨call.path.fileName.getD "", asset⟩

/-- What a call comes to which is made after `earlier`. -/
def Loaders.answer (loaders : Loaders) (earlier : List Load) (files : FileTree) (call : Load) :
    Except LoadError PackagedAsset :=
  match call.kind with
  | .texture => (loaders.texture earlier files call.path).run.value.map .texture
  | .shader => (loaders.shader earlier files call.path).run.value.map .shader
  | .audio => (loaders.audio earlier files call.path).run.value.map .audio

theorem map_eq_ok {ε α β : Type} {f : α → β} {x : Except ε α} {b : β} :
    x.map f = .ok b ↔ ∃ a, x = .ok a ∧ f a = b := by
  cases x <;> simp [Except.map]

theorem type_answer {loaders : Loaders} {earlier : List Load} {files : FileTree} {call : Load}
    {asset : PackagedAsset} (h : loaders.answer earlier files call = .ok asset) :
    asset.type = call.kind.type := by
  obtain ⟨kind, path⟩ := call
  cases kind with
  | texture =>
    obtain ⟨texture, -, rfl⟩ := map_eq_ok.1 h
    rfl
  | shader =>
    obtain ⟨shader, -, rfl⟩ := map_eq_ok.1 h
    rfl
  | audio =>
    obtain ⟨audio, -, rfl⟩ := map_eq_ok.1 h
    rfl

/-- A texture which the build lets pass. -/
def Accepted : PackagedAsset → Prop
  | .texture t => t.pixels.length = t.pixelDataSize.toNat
  | _ => True

/-- Calls which were answered one after the other, while some bytes stood in the output, and the
records of the answers. -/
inductive Loaded (loaders : Loaders) (files : FileTree) (output : Path) :
    List Load → List Record → Prop
  | nil : Loaded loaders files output [] []
  | snoc {calls : List Load} {records : List Record} (call : Load) {asset : PackagedAsset}
    {written : Bytes} {tree : FileTree} (before : Loaded loaders files output calls records)
    (place : files.write output written = .ok tree)
    (answer : loaders.answer calls tree call = .ok asset) (accepted : Accepted asset) :
    Loaded loaders files output (calls ++ [call]) (records ++ [call.record asset])

namespace Loaded
variable {loaders : Loaders} {files : FileTree} {output : Path} {calls : List Load}
  {records : List Record}

theorem length_eq (h : Loaded loaders files output calls records) :
    records.length = calls.length := by
  induction h with
  | nil => rfl
  | snoc call before place answer accepted ih =>
    rw [List.length_append, List.length_append, ih]
    rfl

theorem types_eq (h : Loaded loaders files output calls records) :
    records.map (·.asset.type) = calls.map (·.kind.type) := by
  induction h with
  | nil => rfl
  | snoc call before place answer accepted ih =>
    rw [List.map_append, List.map_append, ih]
    exact congrArg (_ ++ [·]) (type_answer answer)

end Loaded

namespace Builder
variable {α : Type} {p q : Progress}

theorem eval_load (kind : LoadKind) (loader : Loader α) (path : Path) (p : Progress) :
    eval (load kind loader path) p =
      (match (loader p.loads p.files path).run.value with
        | .ok a => .ok a
        | .error reason => .error (.load path reason),
      p.note ⟨kind, path⟩) := by
  rw [load, eval_bind, eval_get]
  dsimp only
  rw [eval_bind, eval_set]
  dsimp only
  rw [eval_bind, eval_logged]
  dsimp only
  cases (loader p.loads p.files path).run.value <;> rfl

theorem load_eq_ok {kind : LoadKind} {loader : Loader α} {path : Path} {a : α}
    (h : eval (load kind loader path) p = (.ok a, q)) :
    q = p.note ⟨kind, path⟩ ∧ (loader p.loads p.files path).run.value = .ok a := by
  rw [eval_load] at h
  split at h
  · rename_i asset answered
    cases h
    exact ⟨rfl, answered⟩
  · cases h

theorem loadTexture_eq_ok {loader : Loader Texture} {path : Path} {texture : Texture}
    (h : eval (loadTexture loader path) p = (.ok texture, q)) :
    eval (load .texture loader path) p = (.ok texture, q) ∧
      texture.pixels.length = texture.pixelDataSize.toNat := by
  rw [loadTexture, bind_eq_ok] at h
  obtain ⟨texture', q', loaded, h⟩ := h
  split at h
  · cases h
  · rename_i complete
    obtain ⟨rfl, rfl⟩ := pure_eq_ok.1 h
    exact ⟨loaded, Decidable.of_not_not complete⟩

/-- How the assets of one kind are loaded: by one call of the loader of the kind. -/
structure Calls [Packed α] (loaders : Loaders) (kind : LoadKind) (wrap : α → PackagedAsset)
    (load : Path → Builder α) : Prop where
  encode : ∀ name a, (Item.record ⟨name, wrap a⟩).encode = Packed.encode (⟨name, a⟩ : Named α)
  answer : ∀ {path p q a}, eval (load path) p = (.ok a, q) → q = p.note ⟨kind, path⟩ ∧
    loaders.answer p.loads p.files ⟨kind, path⟩ = .ok (wrap a) ∧ Accepted (wrap a)

theorem calls_texture (loaders : Loaders) :
    Calls loaders .texture .texture (loadTexture loaders.texture) := by
  refine ⟨fun _ _ => rfl, fun h => ?_⟩
  obtain ⟨loaded, complete⟩ := loadTexture_eq_ok h
  obtain ⟨rfl, answer⟩ := load_eq_ok loaded
  exact ⟨rfl, map_eq_ok.2 ⟨_, answer, rfl⟩, complete⟩

theorem calls_shader (loaders : Loaders) :
    Calls loaders .shader .shader (load .shader loaders.shader) := by
  refine ⟨fun _ _ => rfl, fun h => ?_⟩
  obtain ⟨rfl, answer⟩ := load_eq_ok h
  exact ⟨rfl, map_eq_ok.2 ⟨_, answer, rfl⟩, trivial⟩

theorem calls_audio (loaders : Loaders) :
    Calls loaders .audio .audio (load .audio loaders.audio) := by
  refine ⟨fun _ _ => rfl, fun h => ?_⟩
  obtain ⟨rfl, answer⟩ := load_eq_ok h
  exact ⟨rfl, map_eq_ok.2 ⟨_, answer, rfl⟩, trivial⟩

end Builder

/-- A run which is short enough, of records which are all read. -/
structure Run.Packaged (run : Run) : Prop where
  few : run.items.length < UInt32.size
  read : run.items = run.records.map .record

theorem Run.Packaged.forall_items {run : Run} (packaged : run.Packaged) {P : Item → Prop}
    (each : ∀ record ∈ run.records, P (.record record)) : ∀ item ∈ run.items, P item := by
  intro item mem
  rw [packaged.read] at mem
  obtain ⟨record, of, rfl⟩ := List.mem_map.1 mem
  exact each record of

/-- The type of a run and the number of its records. -/
def Run.shape (run : Run) : AssetType × Nat := (run.type, run.items.length)

theorem filterMap_record (records : List Record) :
    (records.map Item.record).filterMap Item.record? = records := by
  rw [List.filterMap_map]
  exact List.filterMap_some

/-- A build which goes well so far: the bytes it has written, and the records among them. -/
structure Reached (loaders : Loaders) (files : FileTree) (output : Path) (bytes : Bytes)
    (records : List Record) (p : Progress) : Prop where
  stands : Stands files output bytes p
  loaded : Loaded loaders files output p.loads records

namespace Reached
variable {α : Type} {loaders : Loaders} {files emptied : FileTree} {target : Target}
  {bytes more : Bytes} {records : List Record} {p q : Progress}

theorem write (reached : Reached loaders files target.path bytes records p)
    (opened : files.create target.path = .ok (emptied, target.sink)) {a : Unit}
    (h : eval (Builder.write target more) p = (.ok a, q)) :
    Reached loaders files target.path (bytes ++ more) records q ∧ q.loads = p.loads := by
  obtain ⟨stands, same⟩ := push_eq_ok opened reached.stands (Builder.update_eq_ok h)
  exact ⟨⟨stands, same ▸ reached.loaded⟩, same⟩

theorem load [Packed α] {kind : LoadKind} {wrap : α → PackagedAsset} {load : Path → Builder α}
    (reached : Reached loaders files target.path bytes records p)
    (calls : Builder.Calls loaders kind wrap load) {path : Path} {a : α}
    (h : eval (load path) p = (.ok a, q)) :
    Reached loaders files target.path bytes
        (records ++ [(⟨kind, path⟩ : Load).record (wrap a)]) q ∧
      q.loads = p.loads ++ [⟨kind, path⟩] := by
  obtain ⟨rfl, answer, accepted⟩ := calls.answer h
  obtain ⟨before, written, rfl⟩ := reached.stands
  exact ⟨⟨⟨before, written, rfl⟩, .snoc ⟨kind, path⟩ reached.loaded written answer accepted⟩, rfl⟩

/-- Every path leaves one call and one record. -/
theorem writeRecords [Packed α] {kind : LoadKind} {wrap : α → PackagedAsset}
    {load : Path → Builder α} (reached : Reached loaders files target.path bytes records p)
    (opened : files.create target.path = .ok (emptied, target.sink))
    (calls : Builder.Calls loaders kind wrap load) {type : AssetType} {paths : List Path} {u : Unit}
    (h : eval (Builder.writeRecords target type load paths) p = (.ok u, q)) :
    ∃ more : List Record, q.loads = p.loads ++ paths.map (⟨kind, ·⟩) ∧
      Reached loaders files target.path
        (bytes ++ (more.map Item.record).flatMap Item.encode) (records ++ more) q := by
  induction paths generalizing bytes records p with
  | nil =>
    obtain ⟨rfl, rfl⟩ := pure_eq_ok.1 h
    exact ⟨[], by simp, by simpa using reached⟩
  | cons path paths ih =>
    rw [Builder.writeRecords, bind_eq_ok] at h
    obtain ⟨asset, p', loaded, h⟩ := h
    rw [bind_eq_ok] at h
    obtain ⟨_, _, reported, h⟩ := h
    rw [eval_logged] at reported
    cases reported
    rw [bind_eq_ok] at h
    obtain ⟨_, p'', wrote, h⟩ := h
    obtain ⟨reached, called⟩ := reached.load calls loaded
    rw [← calls.encode] at wrote
    obtain ⟨reached, same⟩ := reached.write opened wrote
    obtain ⟨more, rest, reached⟩ := ih reached h
    refine ⟨(⟨kind, path⟩ : Load).record (wrap asset) :: more, ?_, ?_⟩
    · rw [rest, same, called, List.append_assoc]
      rfl
    · rw [List.append_assoc, List.append_assoc] at reached
      exact reached

/-- The calls which were made last tell the types of the last records. -/
theorem types_of_calls {kind : LoadKind} {paths : List Path}
    (before : Reached loaders files target.path bytes records p) {written : Bytes}
    {last : List Record} (after : Reached loaders files target.path written (records ++ last) q)
    (called : q.loads = p.loads ++ paths.map (⟨kind, ·⟩)) :
    last.map (·.asset.type) = paths.map fun _ => kind.type := by
  have types := after.loaded.types_eq
  rw [called, List.map_append, List.map_append, before.loaded.types_eq, List.map_map] at types
  exact List.append_cancel_left types

theorem fits_of_types {type : AssetType} {paths : List Path}
    (types : records.map (·.asset.type) = paths.map fun _ => type) :
    ∀ item ∈ records.map Item.record, item.Fits type := by
  intro item h
  obtain ⟨record, mem, rfl⟩ := List.mem_map.1 h
  have typed : record.asset.type ∈ records.map (·.asset.type) := List.mem_map_of_mem mem
  rw [types] at typed
  obtain ⟨_, -, same⟩ := List.mem_map.1 typed
  exact same.symm

/-- What is written for a section is a run with one record for every path. -/
theorem writeRun [Packed α] {kind : LoadKind} {wrap : α → PackagedAsset}
    {load : Path → Builder α} (reached : Reached loaders files target.path bytes records p)
    (opened : files.create target.path = .ok (emptied, target.sink))
    (calls : Builder.Calls loaders kind wrap load) {paths : List Path} {count : UInt32}
    (h : eval (Builder.writeRun target kind.type load paths) p = (.ok count, q)) :
    count = UInt32.ofNat paths.length ∧ q.loads = p.loads ++ paths.map (⟨kind, ·⟩) ∧
      ∃ run : Run, run.Packaged ∧ run.shape = (kind.type, paths.length) ∧
        Reached loaders files target.path (bytes ++ run.encode) (records ++ run.records) q := by
  rw [Builder.writeRun] at h
  split at h
  · cases h
  rename_i few
  rw [bind_eq_ok] at h
  obtain ⟨_, p'', wrote, h⟩ := h
  rw [bind_eq_ok] at h
  obtain ⟨_, _, recorded, h⟩ := h
  obtain ⟨rfl, rfl⟩ := pure_eq_ok.1 h
  obtain ⟨header, same⟩ := reached.write opened wrote
  obtain ⟨more, called, reached'⟩ := header.writeRecords opened calls recorded
  have types := header.types_of_calls reached' called
  have length : more.length = paths.length := by
    have := congrArg List.length types
    rwa [List.length_map, List.length_map] at this
  have real : kind.type ≠ .invalid := by cases kind <;> decide
  have fits := fits_of_types types
  rw [same] at called
  refine ⟨rfl, called, ⟨kind.type, more.map .record, real, fits⟩, ⟨?_, ?_⟩, ?_, ?_⟩
  · rw [List.length_map, length]
    omega
  · rw [Run.records, filterMap_record]
  · rw [Run.shape, List.length_map, length]
  · rw [Run.encode, Run.header, List.length_map, length, ← List.append_assoc, Run.records,
      filterMap_record]
    exact reached'

end Reached

end AssetPack.Package

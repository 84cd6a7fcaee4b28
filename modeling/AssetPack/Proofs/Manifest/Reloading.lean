import Mathlib.Data.List.Forall2
import AssetPack.Package.Run
import AssetPack.Proofs.Manifest.Relisting

/-! Reading a manifest again, when its paths still list files. -/

namespace AssetPack.Manifest
open Attempt

/-- The paths which are named in a section. -/
def pathsFrom (folder : Path) : List Entry → List Path
  | [] => []
  | .folder _ fragment :: rest => pathsFrom (folder.join ⟨fragment⟩) rest
  | .path _ text :: rest => folder.join ⟨text⟩ :: pathsFrom folder rest

/-- The paths which are named in the sections of types which are packaged. -/
def packagedFrom (parent : Path) (blocks : List Block) : List Path :=
  blocks.flatMap fun block =>
    match typeOfKeyword? block.keyword with
    | some type => if Package.isPackaged type then pathsFrom parent block.entries else []
    | none => []

/-- The paths which the file of a manifest names for the package. -/
def packagedPaths (files : FileTree) (path : Path) : List Path :=
  match files.readText path with
  | .error _ => []
  | .ok source =>
    match (tokenize source).run.value with
    | .error _ => []
    | .ok tokens => packagedFrom (path.parent.getD ⟨""⟩) (outline tokens).blocks

/-- A section which is the same as another for the package. -/
structure Section.Matches (listed again : Section) : Prop where
  type : again.type = listed.type
  assets : Package.isPackaged listed.type → again.assets = listed.assets

theorem load_eq_ok {files : FileTree} {path : Path} {manifest : Manifest} :
    (load files path).run.value = .ok manifest ↔ path.extension = some requiredExtension ∧
      ∃ source tokens, files.readText path = .ok source ∧
        (tokenize source).run.value = .ok tokens ∧
          meaning files (path.parent.getD ⟨""⟩) tokens = .ok manifest := by
  rw [load]
  by_cases known : path.extension = some requiredExtension
  · rw [if_neg (not_not_intro known), and_iff_right known]
    cases files.readText path with
    | error reason =>
      constructor
      · intro loaded
        cases loaded
      · rintro ⟨_, _, ⟨⟩, -⟩
    | ok source =>
      simp only [value_bind_eq_ok, value_adapt_eq_ok, Except.ok.injEq, exists_and_left,
        exists_eq_left']
      constructor
      · rintro ⟨tokens, scanned, listed, meant, _, -, ⟨⟩⟩
        exact ⟨tokens, scanned, meant⟩
      · rintro ⟨tokens, scanned, meant⟩
        exact ⟨tokens, scanned, manifest, meant, _, rfl, rfl⟩
  · rw [if_pos known]
    constructor
    · intro loaded
      cases loaded
    · exact fun listed => absurd listed.1 known

section again
variable {files later : FileTree} {Same : Path → Prop}
  (again : ∀ path found, (expand files path).run.value = .ok found →
    ∃ more, (expand later path).run.value = .ok more ∧ (Same path → more = found))
include again

theorem resolve_again {folder : Path} {entries : List Entry}
    (sound : (resolve files folder entries).value.errors = 0) :
    (resolve later folder entries).value.errors = 0 ∧
      (resolve later folder entries).value.folder = (resolve files folder entries).value.folder ∧
        ((∀ path ∈ pathsFrom folder entries, Same path) →
          (resolve later folder entries).value.assets =
            (resolve files folder entries).value.assets) := by
  induction entries generalizing folder with
  | nil => exact ⟨rfl, rfl, fun _ => rfl⟩
  | cons entry rest ih =>
    cases entry with
    | folder line fragment => exact ih sound
    | path line text =>
      rw [value_resolve_path, value_resolvePath] at sound ⊢
      rw [value_resolve_path, value_resolvePath]
      dsimp only at sound ⊢
      obtain ⟨first, others⟩ := Nat.add_eq_zero_iff.1 sound
      obtain ⟨none, folder_eq, assets_eq⟩ := ih others
      cases listed : (expand files (folder.join ⟨text⟩)).run.value with
      | error reason =>
        rw [listed] at first
        cases first
      | ok found =>
        obtain ⟨more, listed', equal⟩ := again _ found listed
        rw [listed']
        refine ⟨by rw [none], folder_eq, fun same => ?_⟩
        rw [pathsFrom, List.forall_mem_cons] at same
        rw [equal same.1, assets_eq same.2]

theorem readBlocks_again {parent : Path} {blocks : List Block}
    (same : ∀ path ∈ packagedFrom parent blocks, Same path)
    (sound : (readBlocks files parent blocks).value.2 = 0) :
    (readBlocks later parent blocks).value.2 = 0 ∧
      List.Forall₂ Section.Matches (readBlocks files parent blocks).value.1
        (readBlocks later parent blocks).value.1 := by
  induction blocks with
  | nil => exact ⟨rfl, .nil⟩
  | cons block rest ih =>
    rw [packagedFrom, List.flatMap_cons, List.forall_mem_append] at same
    rw [readBlocks] at sound ⊢
    rw [readBlocks]
    cases known : typeOfKeyword? block.keyword with
    | some type =>
      simp only [known, Logged.value_bind, Logged.value_pure] at sound same ⊢
      obtain ⟨first, others⟩ := Nat.add_eq_zero_iff.1 sound
      obtain ⟨none, folder, assets⟩ := resolve_again again first
      obtain ⟨none', matching⟩ := ih same.2 others
      refine ⟨by rw [none, none'], .cons ⟨rfl, fun packaged => ?_⟩ matching⟩
      rw [if_pos packaged] at same
      exact assets same.1
    | none =>
      simp only [known, Logged.value_bind, Logged.value_pure] at sound
      cases sound

theorem load_again {path : Path} {manifest : Manifest}
    (text : ∀ source, files.readText path = .ok source → later.readText path = .ok source)
    (same : ∀ named ∈ packagedPaths files path, Same named)
    (loaded : (load files path).run.value = .ok manifest) : ∃ next,
      (load later path).run.value = .ok next ∧
        List.Forall₂ Section.Matches manifest.sections next.sections := by
  obtain ⟨known, source, tokens, read, scanned, meant⟩ := load_eq_ok.1 loaded
  simp only [packagedPaths, read, scanned] at same
  obtain ⟨sound, errors⟩ := counted_eq_some (congrArg counted meant)
  obtain ⟨loose, none⟩ := Nat.add_eq_zero_iff.1 errors
  obtain ⟨none', matching⟩ := readBlocks_again again same none
  have errors' : errorsIn later (path.parent.getD ⟨""⟩) (outline tokens) = 0 := by
    rw [errorsIn, loose, none']
  have meant' : meaning later (path.parent.getD ⟨""⟩) tokens = .ok ⟨path.parent.getD ⟨""⟩,
      (readBlocks later (path.parent.getD ⟨""⟩) (outline tokens).blocks).value.1⟩ := by
    rw [meaning_eq, sound, errors']
    rfl
  refine ⟨_, load_eq_ok.2 ⟨known, source, tokens, text source read, scanned, meant'⟩, ?_⟩
  rw [meaning_eq_ok meant]
  exact matching

end again

end AssetPack.Manifest

import AssetPack.Proofs.Command.Running
import AssetPack.Proofs.Package.Repeating

/-! A build which is recorded can be repeated, if it does not get in its own way. -/

namespace AssetPack

namespace FileTree

/-- A text which is read from bytes that are read again. -/
theorem readText_congr {files later : FileTree} {path : Path}
    (same : ∀ bytes, files.read path = .ok bytes → later.read path = .ok bytes) {text : String}
    (h : files.readText path = .ok text) : later.readText path = .ok text := by
  rw [readText] at h ⊢
  cases read : files.read path with
  | error reason =>
    rw [read] at h
    cases h
  | ok bytes =>
    rw [read] at h
    rw [same bytes read]
    exact h

end FileTree

namespace Command
open Process FileTree Folder

/-- No folder which the manifest names for the package has the path in it. -/
def Outside (files : FileTree) (manifest path : Path) : Prop :=
  ∀ named ∈ Manifest.packagedPaths files manifest,
    files.isFolder named → ¬ files.place named <+: files.place path

instance (files : FileTree) (manifest path : Path) : Decidable (Outside files manifest path) :=
  inferInstanceAs (Decidable (∀ named ∈ Manifest.packagedPaths files manifest, _))

/-- The places of a first build, which puts the package at the output, and then the settings at a
place where nothing was. -/
structure FirstBuild (files : FileTree) (settings output : Path) (package : Bytes) where
  dir : Place
  name : String
  inner : Folder
  opens : Opens files output dir name inner
  old : Replaceable inner name
  dir' : Place
  name' : String
  inner' : Folder
  opens' : Opens (files.withFile (dir ++ [name]) package) settings dir' name' inner'
  missing : inner'.get? name' = none
  apart : dir' ++ [name'] ≠ dir ++ [name]

namespace FirstBuild
variable {files : FileTree} {settings output : Path} {package : Bytes}
  (first : FirstBuild files settings output package)

/-- The files with the package. -/
def made : FileTree := files.withFile (first.dir ++ [first.name]) package

/-- The files with the package and the settings. -/
def left (text : Bytes) : FileTree := first.made.withFile (first.dir' ++ [first.name']) text

theorem spares_made : Spares (first.dir ++ [first.name]) files first.made :=
  first.opens.spares first.old package

theorem spares_left (text : Bytes) :
    Spares (first.dir' ++ [first.name']) first.made (first.left text) :=
  first.opens'.spares (.inl first.missing) text

theorem missing_made : first.made.root.node? (first.dir' ++ [first.name']) = none := by
  rw [made, node?_append first.opens'.found, node?_singleton, first.missing]

theorem missing_files : files.root.node? (first.dir' ++ [first.name']) = none := by
  exact (first.spares_made.root.kin _ first.apart).none_iff.2 first.missing_made

theorem place_output_ne : files.place output ≠ first.dir' ++ [first.name'] := by
  rw [← first.opens.place]
  exact first.apart.symm

/-- The output is opened again, in the same folder. -/
theorem opens_left (text : Bytes) : ∃ inner,
    Opens (first.left text) output first.dir first.name inner ∧ Replaceable inner first.name := by
  obtain ⟨inner, opens, regular⟩ := first.opens.withFile first.old package
  obtain ⟨inner', opens', kin⟩ := (first.spares_left text).opens opens first.place_output_ne
  have old : Replaceable inner first.name := .inr ⟨package, regular⟩
  exact ⟨inner', opens', old.of_kin kin⟩

/-- Everything that is read during the first build is read again. -/
theorem repeatable (text : Bytes) :
    Package.Repeatable files (first.left text) first.dir first.name := by
  obtain ⟨inner, opens, old⟩ := first.opens_left text
  refine ⟨⟨_, first.opens.found⟩, ⟨_, opens.found⟩, fun written path bytes read => ?_⟩
  have kin : ∀ q, q ≠ first.dir ++ [first.name] → q ≠ first.dir' ++ [first.name'] →
      Kin (files.root.node? q) ((first.left text).root.node? q) := fun q ne ne' =>
    (first.spares_made.root.kin q ne).trans ((first.spares_left text).root.kin q ne')
  have closed : ¬ IsPassage (files.root.node? (first.dir' ++ [first.name'])) := by
    rw [first.missing_files]
    exact id
  have spares := first.opens.spares_both first.old opens old rfl first.apart kin closed
    (first.spares_left text).root.closed' written
  have absent := ((first.opens.spares first.old written).root.kin _ first.apart).none_iff.1
    first.missing_files
  exact spares.read_of_absent absent read

/-- A manifest which is not the output is read again. -/
theorem readText_left (text : Bytes) {manifest : Path}
    (ne : files.place manifest ≠ files.place output) {source : String}
    (read : files.readText manifest = .ok source) :
    (first.left text).readText manifest = .ok source := by
  rw [← first.opens.place] at ne
  have made := readText_congr (fun _ => first.spares_made.read_eq_ok ne) read
  exact readText_congr (fun _ => (first.spares_left text).read_of_absent first.missing_made) made

/-- What a path lists after the build. -/
theorem expand_left (text : Bytes) {path : Path} {found : List Path}
    (listed : (Manifest.expand files path).run.value = .ok found) : ∃ more,
      (Manifest.expand (first.left text) path).run.value = .ok more ∧
        (Manifest.Undisturbed files (first.dir ++ [first.name]) path ∧
          Manifest.Undisturbed first.made (first.dir' ++ [first.name']) path → more = found) := by
  obtain ⟨middle, made, same⟩ := Manifest.expand_withFile first.opens first.old package listed
  obtain ⟨more, left, same'⟩ :=
    Manifest.expand_withFile first.opens' (.inl first.missing) text made
  exact ⟨more, left, fun undisturbed => (same' undisturbed.2).trans (same undisturbed.1)⟩

/-- The package is in no folder which is listed for it, or in the place of an older file. -/
theorem undisturbed_output {manifest path : Path}
    (outside : files.isPresent output = false → Outside files manifest output)
    (mem : path ∈ Manifest.packagedPaths files manifest) :
    Manifest.Undisturbed files (first.dir ++ [first.name]) path := by
  rcases first.old with missing | ⟨bytes, regular⟩
  · have absent : files.isPresent output = false := by
      rw [first.opens.isPresent_eq, missing]
      rfl
    rw [first.opens.place]
    exact .inr (outside absent path mem)
  · refine .inl ⟨bytes, ?_⟩
    rw [node?_append first.opens.found, node?_singleton, regular]

theorem undisturbed_settings {manifest path : Path} (outside : Outside files manifest settings)
    (mem : path ∈ Manifest.packagedPaths files manifest) :
    Manifest.Undisturbed first.made (first.dir' ++ [first.name']) path := by
  refine .inr fun folder => ?_
  have place : first.dir' ++ [first.name'] = files.place settings := first.opens'.place
  rw [place]
  by_cases same : files.place path = first.dir ++ [first.name]
  -- Where the package was put there is no folder.
  · exfalso
    have regular : first.made.root.node? (files.place path) =
        some (.leaf (.file package)) := by
      rw [same, made, withFile, node?_put _ _ first.opens.found]
    rw [isFolder] at folder
    split at folder
    · rename_i found
      have there := (find_eq_ok.1 found).2.2
      rw [made, place_withFile, ← made, regular] at there
      cases there
    · rename_i found
      have there := (find_eq_ok.1 found).2.2
      rw [made, place_withFile, ← made, regular] at there
      cases there
    · cases folder
  · exact outside path mem ((first.spares_made.isFolder_eq same).trans folder)

/-- What the manifest lists for the package, it lists again. -/
theorem load_left (text : Bytes) {manifest : Path} {listed : Manifest}
    (ne : files.place manifest ≠ files.place output)
    (outside : files.isPresent output = false → Outside files manifest output)
    (outside' : Outside files manifest settings)
    (loaded : (Manifest.load files manifest).run.value = .ok listed) : ∃ again,
      (Manifest.load (first.left text) manifest).run.value = .ok again ∧
        List.Forall₂ Manifest.Section.Matches listed.sections again.sections :=
  Manifest.load_again (fun _ _ => first.expand_left text)
    (fun _ => first.readText_left text ne)
    (fun _ mem => ⟨first.undisturbed_output outside mem, first.undisturbed_settings outside' mem⟩)
    loaded

end FirstBuild

/-- The settings are not written in the place of a package, where they could not be read. -/
theorem place_ne_of_read {format : Settings.Format} (visible : format.StartsVisible)
    {files : FileTree} {settings : Path} {rest : Bytes}
    {dir dir' : Place} {name name' : String} {inner inner' : Folder} {known : Settings}
    (found : files.root.node? dir = some (.folder inner))
    (opens : Opens (files.withFile (dir ++ [name]) (Package.formatVersion :: rest)) settings dir'
      name' inner')
    (read : (format.read (files.withFile (dir ++ [name]) (Package.formatVersion :: rest))
      settings).run.value = .ok known) : dir' ++ [name'] ≠ dir ++ [name] := by
  intro same
  have there : (files.withFile (dir ++ [name]) (Package.formatVersion :: rest)).root.node?
      (dir' ++ [name']) = some (.leaf (.file (Package.formatVersion :: rest))) := by
    rw [same]
    exact node?_put _ name found
  have holds := opens.find (.refl _) there
  have contents : (files.withFile (dir ++ [name]) (Package.formatVersion :: rest)).contents?
      settings = some (Package.formatVersion :: rest) := by
    change FileTree.find (files.withFile _ _) settings = _ at holds
    rw [contents?, holds]
  obtain ⟨error, unread⟩ :=
    Settings.value_read_malformed contents (Settings.malformed_of_version visible rfl)
  rw [read] at unread
  cases unread

/-- A build which succeeds without a settings file before leaves its package, and the settings with
this build alone. -/
theorem exists_firstBuild {parts : Parts} (visible : parts.format.StartsVisible)
    {files next : FileTree} {settings : Path} {entry : BuildEntry}
    (absent : files.isPresent settings = false)
    (ends : eval (parts.perform settings (.build entry)) files = (.ok (), next)) :
    ∃ (package : Bytes) (first : FirstBuild files settings entry.output package)
      (summary : Package.Summary), (parts.outcome entry files).result = .ok summary ∧
        (parts.outcome entry files).files = first.made ∧
          next = first.left (Bytes.ofText (parts.format.render ⟨[entry]⟩)) := by
  obtain ⟨summary, known, result, read, written⟩ := Parts.perform_build_eq_ok ends
  obtain ⟨listed, dir, name, inner, rest, -, opens, old, made⟩ := Package.files_of_build_ok result
  change (parts.outcome entry files).files = _ at made
  rw [made] at read written
  rw [Settings.write_eq_ok] at written
  obtain ⟨dir', name', inner', opens', -⟩ := exists_opens_of_write written
  have apart := place_ne_of_read visible opens.found opens' read
  have ne : files.place settings ≠ dir ++ [name] := opens'.place ▸ apart
  rw [(opens.spares old (Package.formatVersion :: rest)).isPresent_eq ne] at absent
  have missing := opens'.get?_eq_none absent
  rw [Settings.value_read_absent absent] at read
  cases read
  rw [opens'.write_eq (.inl missing)] at written
  exact ⟨_, ⟨dir, name, inner, opens, old, dir', name', inner', opens', missing, apart⟩, summary,
    result, made, (Except.ok.inj written).symm⟩

/-- The settings of one build make it again. -/
theorem eval_rebuild_single (parts : Parts) (entry : BuildEntry) (files : FileTree) :
    eval (parts.rebuild ⟨[entry]⟩) files = eval (parts.runBuild entry) files := by
  rw [Parts.rebuild, if_neg (by simp), List.forM, eval_bind, eval_bind, eval_logged]
  dsimp only
  cases eval (parts.runBuild entry) files with
  | mk result next => cases result <;> rfl

/-- A build which succeeds without a settings file before is made again by the next run: that one
succeeds, and the output has the same bytes. The manifest must not be the output itself, and the
folders which are listed for the package must not contain a file which only the build makes. The
loaders are those which depend on nothing but the bytes at their path. -/
theorem rebuild_repeats {parts : Parts} (reads : parts.loaders.Reads)
    (inverse : parts.format.Inverse) (visible : parts.format.StartsVisible)
    {files : FileTree} {settings : Path} {entry : BuildEntry}
    {arguments again : List String} {verbosity verbosity' : Nat}
    (parsed : parts.options arguments = .ok ⟨verbosity, settings, .build entry⟩)
    (parsed' : parts.options again = .ok ⟨verbosity', settings, .rebuild⟩)
    (absent : files.isPresent settings = false)
    (ne : files.place entry.manifest ≠ files.place entry.output)
    (outside : files.isPresent entry.output = false → Outside files entry.manifest entry.output)
    (outside' : Outside files entry.manifest settings)
    (success : (parts.run files arguments).ending = .success) :
    (parts.run (parts.run files arguments).files again).ending = .success ∧ ∃ bytes,
      (parts.run files arguments).files.contents? entry.output = some bytes ∧
        (parts.run (parts.run files arguments).files again).files.contents? entry.output =
          some bytes := by
  rw [Parts.ending_run parsed] at success
  rw [Parts.files_run parsed]
  dsimp only at success ⊢
  cases ends : eval (parts.perform settings (.build entry)) files with
  | mk result next =>
    rw [ends] at success
    cases result with
    | error error => cases success
    | ok done =>
      obtain ⟨package, first, summary, ok, made, rfl⟩ := exists_firstBuild visible absent ends
      let text := Bytes.ofText (parts.format.render ⟨[entry]⟩)
      -- The rebuild reads the settings and makes the build again.
      have kept : (first.left text).contents? settings = some text :=
        first.opens'.contents?_withFile (.inl first.missing) text
      have repeats : eval (parts.perform settings .rebuild) (first.left text) =
          eval (parts.runBuild entry) (first.left text) := by
        rw [Parts.eval_perform_rebuild, Settings.value_read_rendered inverse kept]
        exact eval_rebuild_single parts entry (first.left text)
      rw [Parts.ending_run parsed', Parts.files_run parsed']
      dsimp only
      rw [repeats, Parts.eval_runBuild]
      -- It goes as the first one went.
      obtain ⟨listed, _, _, _, _, loaded, -⟩ := Package.files_of_build_ok ok
      obtain ⟨listed', loaded', same⟩ := first.load_left text ne outside outside' loaded
      obtain ⟨inner, opens, old⟩ := first.opens_left text
      obtain ⟨bytes, summary', before, ok', after⟩ := Package.build_again reads
        first.opens first.old opens old (first.repeatable text) loaded loaded' same ok
      change (parts.outcome entry files).files = _ at before
      change (parts.outcome entry (first.left text)).result = _ at ok'
      change (parts.outcome entry (first.left text)).files = _ at after
      rw [ok', after]
      refine ⟨rfl, bytes, ?_, opens.contents?_withFile old bytes⟩
      have holds := first.opens.contents?_withFile first.old bytes
      rw [← before, made] at holds
      exact (first.spares_left text).contents?_eq_some first.place_output_ne holds

/-- A manifest which lists a folder of shaders. -/
def gallery (art : Folder) : FileTree :=
  ⟨.leaf "a.frlist" (.file (Bytes.ofText "::shader art")) (.folder "art" art .empty), []⟩

def oneShader : Folder :=
  .leaf "c" (.file (Bytes.ofText "#shader compute\nmain")) .empty

theorem rebuild_repeats_gallery : Import.fileLoaders.Reads ∧ Settings.json.Inverse ∧
    Settings.json.StartsVisible ∧
    (run (run (gallery oneShader) ["build", "-m", "a.frlist", "-o", "a"]).files
        ["rebuild"]).ending = .success ∧ ∃ bytes,
      (run (gallery oneShader) ["build", "-m", "a.frlist", "-o", "a"]).files.contents? ⟨"a"⟩ =
          some bytes ∧
        (run (run (gallery oneShader) ["build", "-m", "a.frlist", "-o", "a"]).files
          ["rebuild"]).files.contents? ⟨"a"⟩ = some bytes := by
  have parsed : Parts.standard.options ["build", "-m", "a.frlist", "-o", "a"] =
      .ok ⟨3, defaultSettings, .build ⟨⟨"a.frlist"⟩, ⟨"a"⟩⟩⟩ := rfl
  have parsed' : Parts.standard.options ["rebuild"] = .ok ⟨3, defaultSettings, .rebuild⟩ := rfl
  have outside : Outside (gallery oneShader) ⟨"a.frlist"⟩ ⟨"a"⟩ := by decide +kernel
  have outside' : Outside (gallery oneShader) ⟨"a.frlist"⟩ defaultSettings := by decide +kernel
  have reads : Parts.standard.loaders.Reads := Import.reads_fileLoaders
  have inverse : Parts.standard.format.Inverse := Settings.inverse_json
  have visible : Parts.standard.format.StartsVisible := Settings.startsVisible_json
  exact ⟨reads, inverse, visible, rebuild_repeats reads inverse visible parsed parsed'
    (by decide +kernel) (by decide +kernel) (fun _ => outside) outside' (by decide +kernel)⟩

/-- Otherwise the next run fails: on the package or the settings file, which are listed as shaders
then, or on the manifest, in whose place the package stands. -/
theorem rebuild_repeats_ownFiles :
    ((gallery .empty).isPresent defaultSettings = false ∧
      (run (gallery .empty) ["build", "-m", "a.frlist", "-o", "art/a"]).ending = .success ∧
      (run (run (gallery .empty) ["build", "-m", "a.frlist", "-o", "art/a"]).files
        ["rebuild"]).ending ≠ .success) ∧
    ((gallery .empty).isPresent ⟨"art/s"⟩ = false ∧
      (run (gallery .empty) ["--settings=art/s", "build", "-m", "a.frlist", "-o", "a"]).ending =
        .success ∧
      (run (run (gallery .empty) ["--settings=art/s", "build", "-m", "a.frlist", "-o", "a"]).files
        ["--settings=art/s", "rebuild"]).ending ≠ .success) ∧
    ((gallery .empty).isPresent defaultSettings = false ∧
      (run (gallery .empty) ["build", "-m", "a.frlist", "-o", "a.frlist"]).ending = .success ∧
      (run (run (gallery .empty) ["build", "-m", "a.frlist", "-o", "a.frlist"]).files
        ["rebuild"]).ending ≠ .success) := by
  decide +kernel

end Command

end AssetPack

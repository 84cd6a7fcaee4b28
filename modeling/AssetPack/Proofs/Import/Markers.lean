import AssetPack.Import.Stages

/-! The lines of shader files: markers of stages, and what can be wrong with a line behind the ones
before it. -/

namespace AssetPack.Import
open Text

abbrev Line := List Char

/-- The names of a stage in markers. -/
def Stage.names : Stage → List String
  | vertex => ["vertex"]
  | pixel => ["pixel", "fragment"]
  | compute => ["compute"]

/-- Trimmed, the line is the word for a marker with the name behind it. -/
def Marks (line name : Line) : Prop := ∃ rest, trim line = marker.toList ++ rest ∧ trim rest = name

def IsMarker (line : Line) : Prop := ∃ name, Marks line name

/-- The line is a marker of the stage. -/
def Starts (stage : Stage) (line : Line) : Prop := ∃ name ∈ stage.names, Marks line name.toList

/-- One of the lines is a marker of the stage. -/
def Has (lines : List Line) (stage : Stage) : Prop := ∃ line ∈ lines, Starts stage line

/-! What is wrong with a file. -/

/-- What is wrong with a line behind the given ones. -/
inductive Offends (before : List Line) (line : Line) : StageError → Prop
  | source (plain : ¬ IsMarker line) (first : ∀ other ∈ before, ¬ IsMarker other)
    (solid : trim line ≠ []) : Offends before line (.sourceBeforeStages (before.length + 1))
  | unknown {name : Line} (marks : Marks line name)
    (unknown : ∀ stage : Stage, String.ofList name ∉ stage.names) :
    Offends before line (.unknownStage (before.length + 1) (String.ofList name))
  | again {stage : Stage} (starts : Starts stage line) (before' : Has before stage) :
    Offends before line (.repeatedStage (before.length + 1) stage)

/-- No line is wrong. -/
def Clean (lines : List Line) : Prop :=
  ∀ before line after, lines = before ++ line :: after → ∀ error, ¬ Offends before line error

/-- The first line which is wrong makes the error. -/
def FirstOffence (lines : List Line) (error : StageError) : Prop :=
  ∃ before line after, lines = before ++ line :: after ∧ Clean before ∧ Offends before line error

/-- The stages which are present do not make a shader. -/
inductive Lacks (present : Stage → Prop) : StageError → Prop
  | all (none : ∀ stage, ¬ present stage) : Lacks present .noStages
  | mixed (compute : present .compute) (more : present .vertex ∨ present .pixel) :
    Lacks present .mixedStages
  | pixel (vertex : present .vertex) (noPixel : ¬ present .pixel)
    (noCompute : ¬ present .compute) : Lacks present .vertexAlone
  | vertex (pixel : present .pixel) (noVertex : ¬ present .vertex)
    (noCompute : ¬ present .compute) : Lacks present .pixelAlone

/-- The stages which are present make a shader. -/
def Suffice (present : Stage → Prop) : Prop :=
  (present .vertex ∧ present .pixel ∧ ¬ present .compute) ∨
    (present .compute ∧ ¬ present .vertex ∧ ¬ present .pixel)

/-! Markers and their names. -/

theorem stageName?_eq_some {line name : Line} : stageName? line = some name ↔ Marks line name := by
  simp only [stageName?, Option.map_eq_some_iff, after?_eq_some, Marks]

theorem stageName?_eq_none {line : Line} : stageName? line = none ↔ ¬ IsMarker line := by
  rw [Option.eq_none_iff_forall_ne_some, IsMarker, not_exists]
  exact forall_congr' fun name => not_congr stageName?_eq_some

theorem Marks.unique {line name other : Line} (h : Marks line name) (h' : Marks line other) :
    name = other := by
  rw [← stageName?_eq_some] at h h'
  exact Option.some.inj (h.symm.trans h')

theorem not_isMarker_of_blank {line : Line} (blank : trim line = []) : ¬ IsMarker line := by
  rintro ⟨name, rest, same, -⟩
  rw [blank] at same
  cases same

theorem ofName?_eq_some {name : String} {stage : Stage} :
    Stage.ofName? name = some stage ↔ name ∈ stage.names := by
  simp only [Stage.ofName?, List.lookup_cons, List.lookup_nil]
  cases stage <;> grind [Stage.names]

theorem ofName?_eq_none {name : String} :
    Stage.ofName? name = none ↔ ∀ stage : Stage, name ∉ stage.names := by
  rw [Option.eq_none_iff_forall_ne_some]
  exact forall_congr' fun stage => not_congr ofName?_eq_some

theorem Stage.eq_of_name {name : String} {stage other : Stage} (h : name ∈ stage.names)
    (h' : name ∈ other.names) : stage = other := by
  rw [← ofName?_eq_some] at h h'
  exact Option.some.inj (h.symm.trans h')

theorem Marks.starts_iff {line name : Line} (marks : Marks line name) {stage : Stage} :
    Starts stage line ↔ String.ofList name ∈ stage.names := by
  constructor
  · rintro ⟨other, known, same⟩
    rwa [marks.unique same, String.ofList_toList]
  · intro known
    exact ⟨String.ofList name, known, by rwa [String.toList_ofList]⟩

theorem Starts.isMarker {stage : Stage} {line : Line} (starts : Starts stage line) :
    IsMarker line := by
  obtain ⟨name, -, marks⟩ := starts
  exact ⟨name.toList, marks⟩

theorem Starts.unique {stage other : Stage} {line : Line} (h : Starts stage line)
    (h' : Starts other line) : stage = other := by
  obtain ⟨name, marks⟩ := h.isMarker
  exact Stage.eq_of_name (marks.starts_iff.1 h) (marks.starts_iff.1 h')

/-! Lines which are not wrong. -/

theorem Clean.concat {lines : List Line} {line : Line} (clean : Clean lines)
    (right : ∀ error, ¬ Offends lines line error) : Clean (lines ++ [line]) := by
  intro before other after split
  rcases List.eq_nil_or_concat after with rfl | ⟨after, last, rfl⟩
  · obtain ⟨rfl, same⟩ := List.append_inj' split rfl
    obtain rfl := List.singleton_inj.1 same
    exact right
  · rw [List.concat_eq_append, ← List.cons_append, ← List.append_assoc] at split
    exact clean before other after (List.append_inj' split rfl).1

/-- Behind a marker every line is source, up to the next one. -/
theorem Clean.append {lines body : List Line} (clean : Clean lines)
    (begun : ∃ line ∈ lines, IsMarker line) (plain : ∀ line ∈ body, ¬ IsMarker line) :
    Clean (lines ++ body) := by
  induction body generalizing lines with
  | nil => rwa [List.append_nil]
  | cons line body ih =>
    obtain ⟨first, mem, isMarker⟩ := begun
    have noMarker := plain line List.mem_cons_self
    have right (error : StageError) : ¬ Offends lines line error := by
      rintro (⟨-, none, -⟩ | ⟨marks, -⟩ | ⟨starts, -⟩)
      · exact none first mem isMarker
      · exact noMarker ⟨_, marks⟩
      · exact noMarker starts.isMarker
    rw [List.append_cons]
    exact ih (clean.concat right) ⟨first, List.mem_append_left _ mem, isMarker⟩
      fun other mem => plain other (List.mem_cons_of_mem line mem)

theorem clean_of_blank {lines : List Line} (blank : ∀ line ∈ lines, trim line = []) :
    Clean lines := by
  rintro before line after rfl error
  have blank := blank line (List.mem_append_right _ List.mem_cons_self)
  have plain := not_isMarker_of_blank blank
  rintro (⟨-, -, solid⟩ | ⟨marks, -⟩ | ⟨starts, -⟩)
  · exact solid blank
  · exact plain ⟨_, marks⟩
  · exact plain starts.isMarker

/-- Every line before the first marker is blank, every marker has the name of a stage, and no stage
has two markers. -/
structure WellMarked (lines : List Line) : Prop where
  blank : ∀ before line after, lines = before ++ line :: after →
    (∀ other ∈ before ++ [line], ¬ IsMarker other) → trim line = []
  known : ∀ line ∈ lines, IsMarker line → ∃ stage, Starts stage line
  once : ∀ before line after, lines = before ++ line :: after →
    ∀ stage, Starts stage line → ¬ Has before stage

theorem clean_iff {lines : List Line} : Clean lines ↔ WellMarked lines := by
  constructor
  · intro clean
    refine ⟨fun before line after split plain => ?_, fun line mem isMarker => ?_, ?_⟩
    · refine Classical.byContradiction fun solid =>
        clean before line after split _ (.source ?_ (fun other mem => ?_) solid)
      · exact plain line (List.mem_append_right _ (List.mem_singleton_self _))
      · exact plain other (List.mem_append_left _ mem)
    · obtain ⟨before, after, split⟩ := List.append_of_mem mem
      obtain ⟨name, marks⟩ := isMarker
      refine Classical.byContradiction fun unknown =>
        clean before line after split _ (.unknown marks fun stage known => unknown ?_)
      exact ⟨stage, marks.starts_iff.2 known⟩
    · exact fun before line after split stage starts again =>
        clean before line after split _ (.again starts again)
  · intro wellMarked before line after split error offends
    cases offends with
    | source plain first solid =>
      refine solid (wellMarked.blank before line after split fun other mem => ?_)
      rcases List.mem_append.1 mem with mem | only
      · exact first other mem
      · rwa [List.mem_singleton.1 only]
    | unknown marks unknown =>
      have mem : line ∈ lines := split ▸ List.mem_append_right _ List.mem_cons_self
      obtain ⟨stage, starts⟩ := wellMarked.known line mem ⟨_, marks⟩
      exact unknown stage (marks.starts_iff.1 starts)
    | again starts before => exact wellMarked.once _ line after split _ starts before

theorem Offends.unique {before : List Line} {line : Line} {error other : StageError}
    (h : Offends before line error) (h' : Offends before line other) : error = other := by
  cases h with
  | source plain =>
    cases h' with
    | source => rfl
    | unknown marks => exact absurd ⟨_, marks⟩ plain
    | again starts => exact absurd starts.isMarker plain
  | unknown marks none =>
    cases h' with
    | source plain => exact absurd ⟨_, marks⟩ plain
    | unknown marks' => rw [marks.unique marks']
    | again starts => exact absurd (marks.starts_iff.1 starts) (none _)
  | again starts =>
    cases h' with
    | source plain => exact absurd starts.isMarker plain
    | unknown marks none => exact absurd (marks.starts_iff.1 starts) (none _)
    | again starts' => rw [starts.unique starts']

theorem FirstOffence.not_clean {lines : List Line} {error : StageError}
    (first : FirstOffence lines error) : ¬ Clean lines := by
  obtain ⟨before, line, after, split, -, offends⟩ := first
  exact fun clean => clean before line after split error offends

/-- A line which is wrong is none of those in front of the first one which is. -/
theorem Offends.eq_of_clean {before more after after' : List Line} {line line' : Line}
    {error other : StageError} (offends : Offends before line error)
    (clean : Clean (before ++ more)) (offends' : Offends (before ++ more) line' other)
    (rest : line :: after = more ++ line' :: after') : error = other := by
  cases more with
  | nil =>
    obtain ⟨rfl, -⟩ := List.cons_eq_cons.1 rest
    rw [List.append_nil] at offends'
    exact offends.unique offends'
  | cons next more =>
    obtain ⟨rfl, -⟩ := List.cons_eq_cons.1 rest
    exact absurd offends (clean before line more rfl error)

theorem FirstOffence.unique {lines : List Line} {error other : StageError}
    (h : FirstOffence lines error) (h' : FirstOffence lines other) : error = other := by
  obtain ⟨before, line, after, rfl, clean, offends⟩ := h
  obtain ⟨before', line', after', split, clean', offends'⟩ := h'
  rcases List.append_eq_append_iff.1 split with ⟨more, rfl, rest⟩ | ⟨more, rfl, rest⟩
  · exact offends.eq_of_clean clean' offends' rest
  · exact (offends'.eq_of_clean clean offends rest).symm

theorem Lacks.unique {present : Stage → Prop} {error other : StageError} (h : Lacks present error)
    (h' : Lacks present other) : error = other := by
  cases h <;> cases h' <;> grind

theorem Lacks.not_suffice {present : Stage → Prop} {error : StageError} (h : Lacks present error) :
    ¬ Suffice present := by
  cases h <;> grind [Suffice]

end AssetPack.Import

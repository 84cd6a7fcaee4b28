import Mathlib.Data.List.Nodup
import AssetPack.Proofs.Import.Markers

/-! Shader files: which of them are split into stages, what the stages are, and what is wrong with
the others. The lines fall into blocks, each of which is a marker with the lines up to the next
one. -/

namespace AssetPack.Import
open Text

/-! Blocks of lines. -/

/-- A marker, and the lines up to the next one. -/
structure Block where
  marker : Line
  name : Line
  body : List Line
  marks : Marks marker name
  plain : ∀ line ∈ body, ¬ IsMarker line

namespace Block

def lines (block : Block) : List Line := block.marker :: block.body

/-- The lines behind the marker, each of which ends with a line feed. -/
def text (block : Block) : String := String.ofList (block.body.flatMap (· ++ ['\n']))

/-- The block is the source of the stage. -/
def Of (block : Block) (stage : Stage) : Prop := String.ofList block.name ∈ stage.names

theorem starts (block : Block) {stage : Stage} : Starts stage block.marker ↔ block.Of stage :=
  block.marks.starts_iff

theorem has_lines (block : Block) {stage : Stage} : Has block.lines stage ↔ block.Of stage := by
  constructor
  · rintro ⟨line, mem, starts⟩
    rcases List.mem_cons.1 mem with rfl | mem
    · exact block.starts.1 starts
    · exact absurd starts.isMarker (block.plain line mem)
  · intro of
    exact ⟨block.marker, List.mem_cons_self, block.starts.2 of⟩

/-- The chapters of the blocks, the first of which starts at the line with the number. -/
def chapters (number : Nat) : List Block → List Chapter
  | [] => []
  | block :: rest =>
    ⟨number, block.name, block.body⟩ :: chapters (number + block.lines.length) rest

end Block

theorem has_append {lines more : List Line} {stage : Stage} :
    Has (lines ++ more) stage ↔ Has lines stage ∨ Has more stage := by
  simp only [Has, List.mem_append, or_and_right, exists_or]

/-- All lines fall into those in front of the first marker, and blocks. -/
theorem exists_blocks (lines : List Line) : ∃ (front : List Line) (blocks : List Block),
    lines = front ++ blocks.flatMap Block.lines ∧ ∀ line ∈ front, ¬ IsMarker line := by
  induction lines with
  | nil => exact ⟨[], [], rfl, by simp⟩
  | cons line lines ih =>
    obtain ⟨front, blocks, rfl, plain⟩ := ih
    by_cases isMarker : IsMarker line
    · obtain ⟨name, marks⟩ := isMarker
      exact ⟨[], ⟨line, name, front, marks, plain⟩ :: blocks, rfl, by simp⟩
    · exact ⟨line :: front, blocks, rfl, by simpa [isMarker] using plain⟩

theorem chapters_plain {body : List Line} (plain : ∀ line ∈ body, ¬ IsMarker line) (number : Nat)
    (rest : List Line) : chapters number (body ++ rest) =
      (body ++ (chapters (number + body.length) rest).1,
        (chapters (number + body.length) rest).2) := by
  induction body generalizing number with
  | nil => rfl
  | cons line body ih =>
    have noName := stageName?_eq_none.2 (plain line List.mem_cons_self)
    have rest := ih (fun other mem => plain other (List.mem_cons_of_mem line mem)) (number + 1)
    rw [List.cons_append, chapters, rest, noName, List.length_cons, Nat.add_assoc,
      Nat.add_comm 1]
    rfl

theorem chapters_blocks (blocks : List Block) (number : Nat) :
    chapters number (blocks.flatMap Block.lines) = ([], Block.chapters number blocks) := by
  induction blocks generalizing number with
  | nil => rfl
  | cons block rest ih =>
    rw [List.flatMap_cons, Block.lines, List.cons_append, chapters, chapters_plain block.plain,
      stageName?_eq_some.2 block.marks, ih, Block.chapters, Block.lines, List.length_cons,
      Nat.add_assoc, Nat.add_comm 1, List.append_nil]

theorem chapters_split {front : List Line} (plain : ∀ line ∈ front, ¬ IsMarker line)
    (blocks : List Block) (number : Nat) :
    chapters number (front ++ blocks.flatMap Block.lines) =
      (front, Block.chapters (number + front.length) blocks) := by
  rw [chapters_plain plain, chapters_blocks, List.append_nil]

/-! Blocks and their stages. -/

/-- A block, and the stage whose source it is. -/
structure Part extends Block where
  stage : Stage
  of_stage : toBlock.Of stage

def Part.lines (part : Part) : List Line := part.toBlock.lines

def Part.source (part : Part) : Stage × String := (part.stage, part.text)

theorem has_parts {parts : List Part} {stage : Stage} :
    Has (parts.flatMap Part.lines) stage ↔ stage ∈ parts.map Part.stage := by
  induction parts with
  | nil => simp [Has]
  | cons part parts ih =>
    have own : Has part.lines stage ↔ stage = part.stage := by
      rw [Part.lines, Block.has_lines]
      constructor
      · intro of_stage
        exact Stage.eq_of_name of_stage part.of_stage
      · rintro rfl
        exact part.of_stage
    rw [List.flatMap_cons, has_append, ih, own, List.map_cons, List.mem_cons]

/-- The parts have different stages, none of which was seen before. -/
def Fresh (seen : List Stage) (parts : List Part) : Prop :=
  (parts.map Part.stage).Nodup ∧ ∀ part ∈ parts, part.stage ∉ seen

theorem fresh_cons {seen : List Stage} {part : Part} {parts : List Part} :
    Fresh seen (part :: parts) ↔ part.stage ∉ seen ∧ Fresh (part.stage :: seen) parts := by
  simp only [Fresh, List.map_cons, List.nodup_cons, List.mem_map, List.mem_cons, not_or, not_exists,
    not_and]
  grind

theorem assign_parts {seen : List Stage} {parts : List Part} (fresh : Fresh seen parts)
    (number : Nat) : assign seen (Block.chapters number (parts.map Part.toBlock)) =
      .ok (parts.map Part.source) := by
  induction parts generalizing seen number with
  | nil => rfl
  | cons part parts ih =>
    obtain ⟨new, fresh⟩ := fresh_cons.1 fresh
    rw [List.map_cons, Block.chapters, assign, ofName?_eq_some.2 part.of_stage]
    dsimp only
    rw [if_neg new, ih fresh]
    rfl

theorem Clean.block {front : List Line} (clean : Clean front) (block : Block) {stage : Stage}
    (of_stage : block.Of stage) (new : ¬ Has front stage) : Clean (front ++ block.lines) := by
  have isMarker : IsMarker block.marker := ⟨block.name, block.marks⟩
  have right (error : StageError) : ¬ Offends front block.marker error := by
    rintro (⟨plain, -, -⟩ | ⟨marks, unknown⟩ | ⟨starts, before⟩)
    · exact plain isMarker
    · rw [marks.unique block.marks] at unknown
      exact unknown stage of_stage
    · rw [starts.unique (block.starts.2 of_stage)] at before
      exact new before
  rw [Block.lines, List.append_cons]
  exact (clean.concat right).append
    ⟨block.marker, List.mem_append_right _ (List.mem_singleton_self _), isMarker⟩ block.plain

/-- Blocks behind lines which are not wrong: one of their markers is the first line which is wrong,
or they are parts with different stages. -/
theorem assign_cases {seen : List Stage} {front : List Line} (clean : Clean front)
    (known : ∀ stage, stage ∈ seen ↔ Has front stage) (blocks : List Block) :
    (∃ error, assign seen (Block.chapters (front.length + 1) blocks) = .error error ∧
      FirstOffence (front ++ blocks.flatMap Block.lines) error) ∨
    ∃ parts : List Part, blocks = parts.map Part.toBlock ∧ Fresh seen parts ∧
      Clean (front ++ blocks.flatMap Block.lines) := by
  induction blocks generalizing seen front with
  | nil =>
    refine .inr ⟨[], rfl, ⟨List.nodup_nil, by simp⟩, ?_⟩
    rwa [List.flatMap_nil, List.append_nil]
  | cons block blocks ih =>
    rw [List.flatMap_cons, ← List.append_assoc, Block.chapters, assign]
    have first {error : StageError} (offends : Offends front block.marker error) :
        FirstOffence (front ++ block.lines ++ blocks.flatMap Block.lines) error := by
      refine ⟨front, block.marker, block.body ++ blocks.flatMap Block.lines, ?_, clean, offends⟩
      rw [Block.lines, List.append_assoc, List.cons_append]
    cases name : Stage.ofName? (String.ofList block.name) with
    | none => exact .inl ⟨_, rfl, first (.unknown block.marks (ofName?_eq_none.1 name))⟩
    | some stage =>
      have of_stage : block.Of stage := ofName?_eq_some.1 name
      by_cases again : stage ∈ seen
      · refine .inl ⟨_, if_pos again, first ?_⟩
        exact .again (block.starts.2 of_stage) ((known stage).1 again)
      · have clean := clean.block block of_stage fun before => again ((known stage).2 before)
        have known' (other : Stage) : other ∈ stage :: seen ↔ Has (front ++ block.lines) other := by
          rw [List.mem_cons, has_append, block.has_lines, known other, or_comm]
          refine or_congr_right ⟨?_, fun of_other => Stage.eq_of_name of_other of_stage⟩
          rintro rfl
          exact of_stage
        have number :
            (front ++ block.lines).length + 1 = front.length + 1 + block.lines.length := by
          rw [List.length_append]
          omega
        have rest := ih clean known'
        rw [number] at rest
        rcases rest with ⟨error, failed, first⟩ | ⟨parts, rfl, fresh, clean⟩
        · refine .inl ⟨error, ?_, first⟩
          dsimp only
          rw [if_neg again, failed]
          rfl
        · exact .inr ⟨⟨block, stage, of_stage⟩ :: parts, rfl, fresh_cons.2 ⟨again, fresh⟩, clean⟩

/-! Stages which make a shader. -/

/-- The parts of a vertex and a pixel stage, in either order, or the part of a compute stage. -/
inductive Makes : List Part → Shader → Prop
  | graphics {vertex pixel : Part} (first : vertex.stage = .vertex)
    (second : pixel.stage = .pixel) : Makes [vertex, pixel] (.graphics vertex.text pixel.text)
  | swapped {vertex pixel : Part} (first : pixel.stage = .pixel)
    (second : vertex.stage = .vertex) : Makes [pixel, vertex] (.graphics vertex.text pixel.text)
  | compute {part : Part} (only : part.stage = .compute) : Makes [part] (.compute part.text)

theorem Makes.fresh {parts : List Part} {shader : Shader} (makes : Makes parts shader) :
    Fresh [] parts := by
  cases makes <;> simp_all [Fresh]

theorem Makes.combine_eq {parts : List Part} {shader : Shader} (makes : Makes parts shader) :
    combine (parts.map Part.source) = .ok shader := by
  cases makes with
  | graphics first second =>
    simp only [List.map_cons, Part.source, first, second]
    rfl
  | swapped first second =>
    simp only [List.map_cons, Part.source, first, second]
    rfl
  | compute only =>
    simp only [List.map_cons, Part.source, only]
    rfl

theorem stages_of_suffice {stages : List Stage} (nodup : stages.Nodup)
    (suffice : Suffice (· ∈ stages)) :
    stages = [.vertex, .pixel] ∨ stages = [.pixel, .vertex] ∨ stages = [.compute] := by
  rcases suffice with ⟨vertex, pixel, noCompute⟩ | ⟨compute, noVertex, noPixel⟩
  · have two : stages.Perm [.vertex, .pixel] := by
      refine (List.perm_ext_iff_of_nodup nodup (by decide)).2 fun stage => ?_
      cases stage <;> simp [vertex, pixel, noCompute]
    obtain ⟨a, b, rfl⟩ := List.length_eq_two.1 two.length_eq
    cases a <;> cases b <;> simp_all
  · have one : stages.Perm [.compute] := by
      refine (List.perm_ext_iff_of_nodup nodup (by decide)).2 fun stage => ?_
      cases stage <;> simp [compute, noVertex, noPixel]
    exact .inr (.inr (List.perm_singleton.1 one))

theorem exists_makes {parts : List Part} (fresh : Fresh [] parts)
    (suffice : Suffice (· ∈ parts.map Part.stage)) : ∃ shader, Makes parts shader := by
  rcases stages_of_suffice fresh.1 suffice with stages | stages | stages
  · obtain ⟨vertex, pixel, rfl⟩ := List.length_eq_two.1
      ((List.length_map _).symm.trans (congrArg List.length stages))
    simp only [List.map_cons, List.map_nil, List.cons.injEq, and_true] at stages
    exact ⟨_, .graphics stages.1 stages.2⟩
  · obtain ⟨pixel, vertex, rfl⟩ := List.length_eq_two.1
      ((List.length_map _).symm.trans (congrArg List.length stages))
    simp only [List.map_cons, List.map_nil, List.cons.injEq, and_true] at stages
    exact ⟨_, .swapped stages.1 stages.2⟩
  · obtain ⟨part, rfl⟩ := List.length_eq_one_iff.1
      ((List.length_map _).symm.trans (congrArg List.length stages))
    simp only [List.map_cons, List.map_nil, List.cons.injEq, and_true] at stages
    exact ⟨_, .compute stages⟩

theorem suffice_or_lacks (present : Stage → Prop) :
    Suffice present ∨ ∃ error, Lacks present error := by
  by_cases compute : present .compute
  · by_cases more : present .vertex ∨ present .pixel
    · exact .inr ⟨_, .mixed compute more⟩
    · exact .inl (.inr ⟨compute, not_or.1 more⟩)
  · by_cases vertex : present .vertex
    · by_cases pixel : present .pixel
      · exact .inl (.inl ⟨vertex, pixel, compute⟩)
      · exact .inr ⟨_, .pixel vertex pixel compute⟩
    · by_cases pixel : present .pixel
      · exact .inr ⟨_, .vertex pixel vertex compute⟩
      · refine .inr ⟨_, .all fun stage => ?_⟩
        cases stage
        · exact vertex
        · exact pixel
        · exact compute

theorem lookup_of_mem {sources : List (Stage × String)} {stage : Stage}
    (mem : stage ∈ sources.map Prod.fst) : ∃ text, sources.lookup stage = some text := by
  rw [← Option.ne_none_iff_exists', Ne, List.lookup_eq_none_iff]
  obtain ⟨source, there, rfl⟩ := List.mem_map.1 mem
  exact fun none => bne_iff_ne.1 (none source there) rfl

theorem lookup_of_not_mem {sources : List (Stage × String)} {stage : Stage}
    (notMem : stage ∉ sources.map Prod.fst) : sources.lookup stage = none := by
  rw [List.lookup_eq_none_iff]
  exact fun source mem => bne_iff_ne.2 fun same =>
    notMem (List.mem_map.2 ⟨source, mem, same.symm⟩)

theorem combine_eq_error {sources : List (Stage × String)} {error : StageError}
    (lacks : Lacks (· ∈ sources.map Prod.fst) error) : combine sources = .error error := by
  cases lacks with
  | all none =>
    rw [combine, lookup_of_not_mem (none _), lookup_of_not_mem (none _),
      lookup_of_not_mem (none _)]
  | mixed compute more =>
    obtain ⟨source, compute⟩ := lookup_of_mem compute
    rw [combine, compute]
    rcases more with vertex | pixel
    · obtain ⟨vertexSource, vertex⟩ := lookup_of_mem vertex
      rw [vertex]
      cases sources.lookup .pixel <;> rfl
    · obtain ⟨pixelSource, pixel⟩ := lookup_of_mem pixel
      rw [pixel]
      cases sources.lookup .vertex <;> rfl
  | pixel vertex noPixel noCompute =>
    obtain ⟨source, vertex⟩ := lookup_of_mem vertex
    rw [combine, vertex, lookup_of_not_mem noPixel, lookup_of_not_mem noCompute]
  | vertex pixel noVertex noCompute =>
    obtain ⟨source, pixel⟩ := lookup_of_mem pixel
    rw [combine, pixel, lookup_of_not_mem noVertex, lookup_of_not_mem noCompute]

/-! Whole files. -/

/-- The lines are blank ones and the parts of a shader. No line is left out, and every line behind
the first marker which is not one itself is in exactly one part. -/
def Accepts (lines : List Line) (shader : Shader) : Prop :=
  ∃ (front : List Line) (parts : List Part), lines = front ++ parts.flatMap Part.lines ∧
    (∀ line ∈ front, trim line = []) ∧ Makes parts shader

/-- The error is that of the first line which is wrong, or else of the stages which are present. -/
def Rejects (lines : List Line) (error : StageError) : Prop :=
  FirstOffence lines error ∨ Clean lines ∧ Lacks (Has lines) error

theorem Rejects.unique {lines : List Line} {error other : StageError} (h : Rejects lines error)
    (h' : Rejects lines other) : error = other := by
  rcases h with first | ⟨clean, lacks⟩
  · rcases h' with first' | ⟨clean, -⟩
    · exact first.unique first'
    · exact absurd clean first.not_clean
  · rcases h' with first | ⟨-, lacks'⟩
    · exact absurd clean first.not_clean
    · exact lacks.unique lacks'

theorem splitStages_blocks {source : String} {front : List Line} {blocks : List Block}
    (split : Text.lines source.toList = front ++ blocks.flatMap Block.lines)
    (plain : ∀ line ∈ front, ¬ IsMarker line) : splitStages source =
      match front.findIdx? fun line => ! (trim line).isEmpty with
      | some i => .error (.sourceBeforeStages (i + 1))
      | none => assign [] (Block.chapters (front.length + 1) blocks) >>= combine := by
  have found : chapters 1 (Text.lines source.toList) =
      (front, Block.chapters (front.length + 1) blocks) := by
    rw [split, chapters_split plain, Nat.add_comm]
  rw [splitStages]
  exact found ▸ rfl

theorem findIdx?_blank {front : List Line} (blank : ∀ line ∈ front, trim line = []) :
    (front.findIdx? fun line => ! (trim line).isEmpty) = none := by
  rw [List.findIdx?_eq_none_iff]
  intro line mem
  rw [blank line mem]
  rfl

theorem splitStages_of_accepts {source : String} {shader : Shader}
    (accepts : Accepts (Text.lines source.toList) shader) : splitStages source = .ok shader := by
  obtain ⟨front, parts, split, blank, makes⟩ := accepts
  have split : Text.lines source.toList =
      front ++ (parts.map Part.toBlock).flatMap Block.lines := by
    rw [split, List.flatMap_map]
    rfl
  rw [splitStages_blocks split fun line mem => not_isMarker_of_blank (blank line mem),
    findIdx?_blank blank]
  dsimp only
  rw [assign_parts makes.fresh]
  exact makes.combine_eq

theorem firstOffence_of_findIdx? {front more : List Line} {i : Nat}
    (plain : ∀ line ∈ front, ¬ IsMarker line)
    (found : (front.findIdx? fun line => ! (trim line).isEmpty) = some i) :
    FirstOffence (front ++ more) (.sourceBeforeStages (i + 1)) := by
  obtain ⟨less, solid, blank⟩ := List.findIdx?_eq_some_iff_getElem.1 found
  have length : (front.take i).length = i := List.length_take_of_le (Nat.le_of_lt less)
  have clean : Clean (front.take i) := by
    refine clean_of_blank fun line mem => ?_
    obtain ⟨j, less', rfl⟩ := List.mem_take_iff_getElem.1 mem
    simpa using blank j (by omega)
  have offends :
      Offends (front.take i) front[i] (.sourceBeforeStages ((front.take i).length + 1)) := by
    refine .source (plain _ (List.getElem_mem less)) (fun other mem => ?_) (by simpa using solid)
    exact plain other (List.mem_of_mem_take mem)
  rw [length] at offends
  refine ⟨front.take i, front[i], front.drop (i + 1) ++ more, ?_, clean, offends⟩
  rw [← List.cons_append, List.getElem_cons_drop, ← List.append_assoc, List.take_append_drop]

/-- A file is split into stages which it has, or it is not split for a reason which it gives. -/
theorem splitStages_cases (source : String) :
    (∃ shader, Accepts (Text.lines source.toList) shader ∧ Clean (Text.lines source.toList) ∧
      Suffice (Has (Text.lines source.toList))) ∨
    ∃ error, splitStages source = .error error ∧ Rejects (Text.lines source.toList) error := by
  obtain ⟨front, blocks, split, plain⟩ := exists_blocks (Text.lines source.toList)
  rw [splitStages_blocks split plain, split]
  cases found : front.findIdx? fun line => ! (trim line).isEmpty with
  | some i => exact .inr ⟨_, rfl, .inl (firstOffence_of_findIdx? plain found)⟩
  | none =>
    dsimp only
    have blank : ∀ line ∈ front, trim line = [] := by
      simpa using List.findIdx?_eq_none_iff.1 found
    have unseen (stage : Stage) : ¬ Has front stage := by
      rintro ⟨line, mem, starts⟩
      exact plain line mem starts.isMarker
    have nothing (stage : Stage) : stage ∈ [] ↔ Has front stage :=
      iff_of_false List.not_mem_nil (unseen stage)
    rcases assign_cases (clean_of_blank blank) nothing blocks with
      ⟨error, failed, first⟩ | ⟨parts, rfl, fresh, clean⟩
    · refine .inr ⟨error, ?_, .inl first⟩
      rw [failed]
      rfl
    · have lines : (parts.map Part.toBlock).flatMap Block.lines = parts.flatMap Part.lines := by
        rw [List.flatMap_map]
        rfl
      rw [lines] at clean ⊢
      have present (stage : Stage) :
          Has (front ++ parts.flatMap Part.lines) stage ↔ stage ∈ parts.map Part.stage := by
        rw [has_append, has_parts, or_iff_right (unseen stage)]
      rw [assign_parts fresh, funext fun stage => propext (present stage)]
      rcases suffice_or_lacks (· ∈ parts.map Part.stage) with suffice | ⟨error, lacks⟩
      · obtain ⟨shader, makes⟩ := exists_makes fresh suffice
        exact .inl ⟨shader, ⟨front, parts, rfl, blank, makes⟩, clean, suffice⟩
      · refine .inr ⟨error, ?_, .inr ⟨clean, ?_⟩⟩
        · refine combine_eq_error ?_
          rw [List.map_map]
          exact lacks
        · rw [funext fun stage => propext (present stage)]
          exact lacks

/-- A shader file is split exactly if the lines before its first marker are blank, its markers have
the names of stages, no stage has two of them, and the stages make a shader. Each stage is then the
lines between its marker and the next one. Otherwise the first line which is wrong makes the error,
and only if there is none the stages do. -/
theorem splitStages_lines (source : String) :
    ((∃ shader, splitStages source = .ok shader) ↔
        WellMarked (Text.lines source.toList) ∧ Suffice (Has (Text.lines source.toList))) ∧
      (∀ shader, splitStages source = .ok shader ↔ Accepts (Text.lines source.toList) shader) ∧
      ∀ error, splitStages source = .error error ↔ Rejects (Text.lines source.toList) error := by
  rw [← clean_iff]
  rcases splitStages_cases source with ⟨shader, accepts, clean, suffice⟩ | ⟨error, failed, rejects⟩
  · have ok := splitStages_of_accepts accepts
    refine ⟨iff_of_true ⟨shader, ok⟩ ⟨clean, suffice⟩, fun other => ⟨fun same => ?_, ?_⟩,
      fun error => iff_of_false (by simp [ok]) ?_⟩
    · obtain rfl := Except.ok.inj (ok.symm.trans same)
      exact accepts
    · exact splitStages_of_accepts
    · rintro (first | ⟨-, lacks⟩)
      · exact first.not_clean clean
      · exact lacks.not_suffice suffice
  · have notOk (shader : Shader) : splitStages source ≠ .ok shader := by simp [failed]
    refine ⟨iff_of_false (fun ⟨shader, ok⟩ => notOk shader ok) ?_,
      fun shader => iff_of_false (notOk shader) fun accepts =>
        notOk shader (splitStages_of_accepts accepts),
      fun other => ⟨fun same => ?_, fun rejects' => ?_⟩⟩
    · rintro ⟨clean, suffice⟩
      rcases rejects with first | ⟨-, lacks⟩
      · exact first.not_clean clean
      · exact lacks.not_suffice suffice
    · obtain rfl := Except.error.inj (failed.symm.trans same)
      exact rejects
    · rw [failed, rejects.unique rejects']

end AssetPack.Import

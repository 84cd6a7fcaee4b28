import AssetPack.Store.ShaderContext

/-! The uniforms which a shader context caches: the first ones which are usable, as many as there is
room for. What is left out for want of room or for a long name leaves a warning. -/

namespace AssetPack

/-- The uniform has a location, and its name is not too long for the cache. -/
def Uniform.Usable (uniform : Uniform) : Prop :=
  uniform.location ≠ -1 ∧ uniform.name.utf8ByteSize ≤ 64

instance (uniform : Uniform) : Decidable uniform.Usable :=
  inferInstanceAs (Decidable (_ ∧ _))

namespace ShaderContext
variable {shader : AssetId} {front reported : List Uniform} {uniform : Uniform}

/-- The uniforms of a list, each with those in front of it: `front`, and those before it in the
list. -/
def placed (front : List Uniform) : List Uniform → List (List Uniform × Uniform)
  | [] => []
  | uniform :: rest => (front, uniform) :: placed (front ++ [uniform]) rest

/-- So many uniforms which are usable still find room behind the given ones. -/
def roomBehind (front : List Uniform) : Nat := 32 - front.countP fun uniform => uniform.Usable

/-- Behind `front`, the uniform is cached. -/
def Cached (front : List Uniform) (uniform : Uniform) : Prop :=
  uniform.Usable ∧ (front.countP fun other => other.Usable) < 32

instance (front : List Uniform) (uniform : Uniform) : Decidable (Cached front uniform) :=
  inferInstanceAs (Decidable (_ ∧ _))

theorem roomBehind_usable (usable : uniform.Usable) :
    roomBehind (front ++ [uniform]) = roomBehind front - 1 := by
  rw [roomBehind, List.countP_append, List.countP_singleton, if_pos (by simpa using usable),
    roomBehind, Nat.sub_sub]

theorem roomBehind_unusable (unusable : ¬ uniform.Usable) :
    roomBehind (front ++ [uniform]) = roomBehind front := by
  rw [roomBehind, List.countP_append, List.countP_singleton, if_neg (by simpa using unusable),
    Nat.add_zero, roomBehind]

theorem cached_of_room {room : Nat} (usable : uniform.Usable)
    (some : roomBehind front = room + 1) : Cached front uniform := by
  rw [roomBehind] at some
  exact ⟨usable, by omega⟩

theorem not_cached_of_room (none : roomBehind front = 0) : ¬ Cached front uniform := by
  rw [roomBehind] at none
  exact fun cached => Nat.not_le_of_lt cached.2 (Nat.le_of_sub_eq_zero none)

/-- The warning about a uniform which has a location and is not cached. -/
def warning (shader : AssetId) (uniform : Uniform) : Message :=
  ⟨.warn, .shaderContext,
    if 64 < uniform.name.utf8ByteSize then
      s!"Uniform name {Text.quote uniform.name} is longer than {nameLimit} bytes, " ++
        "it won't be cached."
    else
      s!"Shader {shader.spelling} has more than {uniformLimit} uniforms, " ++
        s!"uniform {uniform.name} won't be cached."⟩

/-- The warnings among messages. -/
def warnings (log : List Message) : List Message := log.filter (·.level = .warn)

/-! One uniform more: it is not usable, or there is no room for it, or it is cached. -/

section keeping
variable {room : Nat}

theorem keep_unusable (unusable : ¬ uniform.Usable) :
    (keep shader room (uniform :: reported)).value = (keep shader room reported).value ∧
      warnings (keep shader room (uniform :: reported)).log =
        (if uniform.location = -1 then [] else [warning shader uniform]) ++
          warnings (keep shader room reported).log := by
  rw [keep.eq_def]
  dsimp only
  by_cases none : uniform.location = -1
  · rw [if_pos none, if_pos none]
    exact ⟨rfl, rfl⟩
  · have long : 64 < uniform.name.utf8ByteSize :=
      Nat.lt_of_not_le fun short => unusable ⟨none, short⟩
    rw [if_neg none, if_neg none, if_pos (show nameLimit < _ from long), warning, if_pos long]
    exact ⟨rfl, rfl⟩

theorem keep_usable_full (usable : uniform.Usable) :
    (keep shader 0 (uniform :: reported)).value = (keep shader 0 reported).value ∧
      warnings (keep shader 0 (uniform :: reported)).log =
        warning shader uniform :: warnings (keep shader 0 reported).log := by
  have short : ¬ 64 < uniform.name.utf8ByteSize := Nat.not_lt_of_le usable.2
  rw [keep.eq_def]
  dsimp only
  rw [if_neg usable.1, if_neg (show ¬ nameLimit < _ from short), warning, if_neg short]
  exact ⟨rfl, rfl⟩

theorem keep_usable_roomy (usable : uniform.Usable) :
    (keep shader (room + 1) (uniform :: reported)).value =
        uniform :: (keep shader room reported).value ∧
      warnings (keep shader (room + 1) (uniform :: reported)).log =
        warnings (keep shader room reported).log := by
  have short : ¬ nameLimit < uniform.name.utf8ByteSize := Nat.not_lt_of_le usable.2
  rw [keep.eq_def]
  dsimp only
  rw [if_neg usable.1, if_neg short, Logged.value_bind, Logged.log_bind, Logged.log_pure,
    List.append_nil]
  exact ⟨rfl, rfl⟩

theorem value_keep (shader : AssetId) (room : Nat) (reported : List Uniform) :
    (keep shader room reported).value =
      (reported.filter fun uniform => uniform.Usable).take room := by
  induction reported generalizing room with
  | nil => exact List.take_nil.symm
  | cons uniform rest ih =>
    by_cases usable : uniform.Usable
    · rw [List.filter_cons_of_pos (by simpa using usable)]
      cases room with
      | zero => rw [(keep_usable_full usable).1, ih, List.take_zero, List.take_zero]
      | succ room => rw [(keep_usable_roomy usable).1, ih, List.take_succ_cons]
    · rw [(keep_unusable usable).1, ih, List.filter_cons_of_neg (by simpa using usable)]

/-- Behind some uniforms, what is not cached leaves a warning, unless it has no location. -/
theorem warnings_keep (shader : AssetId) (front reported : List Uniform) :
    warnings (keep shader (roomBehind front) reported).log =
      (placed front reported).flatMap fun place =>
        if place.2.location ≠ -1 ∧ ¬ Cached place.1 place.2 then [warning shader place.2]
        else [] := by
  induction reported generalizing front with
  | nil => rfl
  | cons uniform rest ih =>
    have rest := ih (front ++ [uniform])
    rw [placed, List.flatMap_cons]
    by_cases usable : uniform.Usable
    · rw [roomBehind_usable usable] at rest
      have located := usable.1
      cases room : roomBehind front with
      | zero =>
        rw [room] at rest
        rw [(keep_usable_full usable).2, if_pos ⟨located, not_cached_of_room room⟩, ← rest]
        rfl
      | succ left =>
        rw [room, Nat.add_sub_cancel] at rest
        rw [(keep_usable_roomy usable).2, if_neg fun out => out.2 (cached_of_room usable room),
          ← rest]
        rfl
    · rw [roomBehind_unusable usable] at rest
      have out : ¬ Cached front uniform := fun cached => usable cached.1
      rw [(keep_unusable usable).2, ← rest]
      simp only [out, not_false_eq_true, and_true, ne_eq, ite_not]

end keeping

/-- The location of the first usable uniform with a name, if there is room for it. -/
def firstLocation? (front reported : List Uniform) (name : String) : Option Int32 :=
  ((placed front reported).find? fun place => place.2.Usable ∧ place.2.name = name).bind
    fun place => if Cached place.1 place.2 then some place.2.location else none

theorem location?_keep (front reported : List Uniform) (name : String) :
    (((reported.filter fun uniform => uniform.Usable).take (roomBehind front)).find?
        (·.name = name)).map (·.location) = firstLocation? front reported name := by
  induction reported generalizing front with
  | nil => simp [firstLocation?, placed]
  | cons uniform rest ih =>
    have rest := ih (front ++ [uniform])
    rw [firstLocation?, placed]
    by_cases usable : uniform.Usable
    · rw [roomBehind_usable usable] at rest
      rw [List.filter_cons_of_pos (by simpa using usable)]
      by_cases named : uniform.name = name
      · rw [List.find?_cons_of_pos (by simp [usable, named]), Option.bind_some]
        cases room : roomBehind front with
        | zero =>
          rw [if_neg (not_cached_of_room room)]
          rfl
        | succ left =>
          rw [if_pos (cached_of_room usable room), List.take_succ_cons,
            List.find?_cons_of_pos (by simpa using named)]
          rfl
      · rw [List.find?_cons_of_neg (by simp [named]), ← firstLocation?, ← rest]
        cases roomBehind front with
        | zero => rfl
        | succ left =>
          rw [List.take_succ_cons, List.find?_cons_of_neg (by simpa using named)]
          rfl
    · rw [roomBehind_unusable usable] at rest
      rw [List.filter_cons_of_neg (by simpa using usable), rest, firstLocation?,
        List.find?_cons_of_neg (by simp [usable])]

/-- A context caches the first 32 usable uniforms. Under a name it has the location of the first
usable one with that name, if fewer than 32 usable ones are in front of it. Each other uniform which
has a location leaves one warning, and nothing else does. -/
theorem make_caches (shader : AssetId) (reported : List Uniform) :
    (make shader reported).value.uniforms =
        (reported.filter fun uniform => uniform.Usable).take 32 ∧
      (∀ name, (make shader reported).value.location? name = firstLocation? [] reported name) ∧
      warnings (make shader reported).log = (placed [] reported).flatMap fun place =>
        if place.2.location ≠ -1 ∧ ¬ Cached place.1 place.2 then [warning shader place.2]
        else [] := by
  have uniforms : (make shader reported).value.uniforms =
      (reported.filter fun uniform => uniform.Usable).take 32 := value_keep shader 32 reported
  refine ⟨uniforms, fun name => ?_, ?_⟩
  · rw [location?, uniforms]
    exact location?_keep [] reported name
  · rw [make, Logged.log_bind, Logged.log_pure, List.append_nil]
    exact warnings_keep shader [] reported

end ShaderContext

end AssetPack

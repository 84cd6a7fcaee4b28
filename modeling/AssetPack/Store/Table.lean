namespace AssetPack

/-! Tables from keys to values, in which each key stands once. -/

structure Table (κ α : Type) where
  entries : List (κ × α)
  nodup : (entries.map Prod.fst).Nodup

namespace Table

variable {κ α : Type}

def empty : Table κ α := ⟨[], List.nodup_nil⟩

def keys (table : Table κ α) : List κ := table.entries.map Prod.fst

def size (table : Table κ α) : Nat := table.entries.length

variable [DecidableEq κ]

def get? (table : Table κ α) (key : κ) : Option α := table.entries.lookup key

def contains (table : Table κ α) (key : κ) : Bool := (table.get? key).isSome

theorem get?_eq_none_iff (table : Table κ α) (key : κ) :
    table.get? key = none ↔ key ∉ table.keys := by
  rw [get?, keys, List.lookup_eq_none_iff, List.mem_map]
  constructor
  · rintro different ⟨entry, mem, rfl⟩
    exact (bne_iff_ne.1 (different entry mem)) rfl
  · intro missing entry mem
    exact bne_iff_ne.2 fun same => missing ⟨entry, mem, same.symm⟩

def updateEntries (key : κ) (f : α → α) : List (κ × α) → List (κ × α)
  | [] => []
  | (other, value) :: rest =>
    if key = other then (other, f value) :: rest else (other, value) :: updateEntries key f rest

theorem keys_updateEntries (key : κ) (f : α → α) (entries : List (κ × α)) :
    (updateEntries key f entries).map Prod.fst = entries.map Prod.fst := by
  induction entries with
  | nil => rfl
  | cons entry rest ih =>
    rw [updateEntries]
    split
    · rfl
    · rw [List.map_cons, List.map_cons, ih]

/-- Changes the value of a key, if it has one. -/
def update (table : Table κ α) (key : κ) (f : α → α) : Table κ α where
  entries := updateEntries key f table.entries
  nodup := (keys_updateEntries key f table.entries).symm ▸ table.nodup

theorem contains_iff (table : Table κ α) (key : κ) :
    table.contains key = true ↔ key ∈ table.keys := by
  rw [contains, Option.isSome_iff_ne_none, Ne, get?_eq_none_iff, Decidable.not_not]

/-- Gives a key a value, in place of the one it had. -/
def insert (table : Table κ α) (key : κ) (value : α) : Table κ α :=
  if known : table.contains key then table.update key fun _ => value
  else {
    entries := (key, value) :: table.entries
    nodup := List.nodup_cons.2 ⟨mt (contains_iff table key).2 known, table.nodup⟩ }

def erase (table : Table κ α) (key : κ) : Table κ α where
  entries := table.entries.filter fun entry => entry.1 ≠ key
  nodup := table.nodup.sublist (List.filter_sublist.map Prod.fst)

@[simp] theorem get?_empty (key : κ) : (empty : Table κ α).get? key = none := rfl

theorem get?_update (table : Table κ α) (key other : κ) (f : α → α) :
    (table.update key f).get? other =
      if other = key then (table.get? other).map f else table.get? other := by
  obtain ⟨entries, nodup⟩ := table
  simp only [get?, update]
  clear nodup
  induction entries with
  | nil => simp [updateEntries]
  | cons entry rest ih =>
    obtain ⟨k, v⟩ := entry
    rw [updateEntries]
    by_cases hk : key = k
    · subst hk
      by_cases ho : other = key
      · simp [ho]
      · simp [ho, List.lookup_cons, beq_eq_false_iff_ne.2 ho]
    · by_cases ho : other = k
      · have : other ≠ key := fun h => hk (h.symm.trans ho)
        simp [hk, ho, Ne.symm hk]
      · simp [hk, List.lookup_cons, beq_eq_false_iff_ne.2 ho, ih]

theorem get?_insert (table : Table κ α) (key other : κ) (value : α) :
    (table.insert key value).get? other = if other = key then some value else table.get? other := by
  unfold insert
  split
  · rename_i known
    rw [get?_update]
    split
    · rename_i same
      subst same
      obtain ⟨v, hv⟩ := Option.isSome_iff_exists.1 known
      simp [hv]
    · rfl
  · simp only [get?, List.lookup_cons]
    by_cases same : other = key
    · simp [same]
    · simp [same, beq_eq_false_iff_ne.2 same]

theorem get?_erase (table : Table κ α) (key other : κ) :
    (table.erase key).get? other = if other = key then none else table.get? other := by
  obtain ⟨entries, nodup⟩ := table
  simp only [get?, erase]
  clear nodup
  induction entries with
  | nil => simp
  | cons entry rest ih =>
    obtain ⟨k, v⟩ := entry
    by_cases hk : k = key
    · subst hk
      by_cases ho : other = k
      · simpa [ho] using ih
      · simpa [ho, List.lookup_cons, beq_eq_false_iff_ne.2 ho] using ih
    · by_cases ho : other = k
      · subst ho
        simp [hk]
      · simp [hk, List.lookup_cons, beq_eq_false_iff_ne.2 ho] at ih ⊢
        exact ih

end Table

end AssetPack

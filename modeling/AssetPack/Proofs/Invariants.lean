import Mathlib.Data.List.Forall2
import AssetPack.Proofs.Log

/-! What stays true while a computation runs, and what two runs of one computation share. -/

namespace AssetPack.Process

section keeps
variable {ε σ α β : Type} {P : σ → Prop}

/-- The state keeps a property, also when the computation fails. -/
def Keeps (P : σ → Prop) (x : Process ε σ α) : Prop := ∀ s, P s → P (eval x s).2

theorem keeps_pure (a : α) : Keeps P (pure a : Process ε σ α) := fun _ h => h

theorem keeps_throw (e : ε) : Keeps P (throw e : Process ε σ α) := fun _ h => h

theorem keeps_logged (x : Logged α) : Keeps P (liftM x : Process ε σ α) := fun _ h => h

theorem Keeps.bind {x : Process ε σ α} {f : α → Process ε σ β} (first : Keeps P x)
    (rest : ∀ a, Keeps P (f a)) : Keeps P (x >>= f) := by
  intro s h
  have middle := first s h
  rw [eval_bind]
  split
  · rename_i a t same
    rw [same] at middle
    exact rest a t middle
  · rename_i e t same
    rw [same] at middle
    exact middle

theorem Keeps.foldlM {f : β → α → Process ε σ β} (each : ∀ b a, Keeps P (f b a))
    (items : List α) (b : β) : Keeps P (items.foldlM f b) := by
  induction items generalizing b with
  | nil => exact keeps_pure b
  | cons item items ih =>
    rw [List.foldlM_cons]
    exact .bind (each b item) fun c => ih c

theorem Keeps.forM {f : α → Process ε σ PUnit} {items : List α}
    (each : ∀ a ∈ items, Keeps P (f a)) : Keeps P (items.forM f) := by
  induction items with
  | nil => exact keeps_pure _
  | cons item items ih =>
    rw [List.forM]
    exact .bind (each item List.mem_cons_self) fun _ =>
      ih fun a mem => each a (List.mem_cons_of_mem _ mem)

end keeps

section fails
variable {ε σ α β : Type} {P : σ → Prop} {E : ε → σ → Prop}

/-- Started in a state with a property, the computation fails only as `E` says, with what it leaves
behind. -/
def Fails (P : σ → Prop) (E : ε → σ → Prop) (x : Process ε σ α) : Prop :=
  ∀ s e t, P s → eval x s = (.error e, t) → E e t

theorem fails_pure (a : α) : Fails P E (pure a : Process ε σ α) := fun _ _ _ _ h => nomatch h

theorem fails_logged (x : Logged α) : Fails P E (liftM x : Process ε σ α) :=
  fun _ _ _ _ h => nomatch h

theorem Fails.bind {x : Process ε σ α} {f : α → Process ε σ β} (first : Fails P E x)
    (kept : Keeps P x) (rest : ∀ a, Fails P E (f a)) : Fails P E (x >>= f) := by
  intro s e t h failed
  rcases bind_eq_error.1 failed with failed | ⟨a, u, passed, failed⟩
  · exact first s e t h failed
  · have middle := kept s h
    rw [passed] at middle
    exact rest a u e t middle failed

theorem Fails.foldlM {f : β → α → Process ε σ β} {items : List α}
    (each : ∀ b, ∀ a ∈ items, Fails P E (f b a)) (kept : ∀ b a, Keeps P (f b a)) (b : β) :
    Fails P E (items.foldlM f b) := by
  induction items generalizing b with
  | nil => exact fails_pure b
  | cons item items ih =>
    rw [List.foldlM_cons]
    exact (each b item List.mem_cons_self).bind (kept b item) fun c =>
      ih (fun b a mem => each b a (List.mem_cons_of_mem _ mem)) c

end fails

section follows
variable {ε σ α β γ δ : Type} {R : σ → σ → Prop} {S : α → β → Prop}

/-- Where the first computation goes well, the second one does from states which are related, and
what they come to is related. -/
def Follows (R : σ → σ → Prop) (S : α → β → Prop) (x : Process ε σ α) (y : Process ε σ β) : Prop :=
  ∀ s t a s', R s t → eval x s = (.ok a, s') → ∃ b t', eval y t = (.ok b, t') ∧ S a b ∧ R s' t'

theorem follows_pure {a : α} {b : β} (same : S a b) :
    Follows R S (pure a : Process ε σ α) (pure b) := by
  intro s t a' s' related h
  obtain ⟨rfl, rfl⟩ := pure_eq_ok.1 h
  exact ⟨b, t, rfl, same, related⟩

theorem follows_logged (x y : Logged Unit) :
    Follows R (· = ·) (liftM x : Process ε σ Unit) (liftM y) := by
  intro s t a s' related h
  rw [eval_logged] at h
  cases h
  exact ⟨(), t, rfl, rfl, related⟩

theorem Follows.bind {x : Process ε σ α} {y : Process ε σ β} {T : γ → δ → Prop}
    {f : α → Process ε σ γ} {g : β → Process ε σ δ} (first : Follows R S x y)
    (rest : ∀ a b, S a b → Follows R T (f a) (g b)) : Follows R T (x >>= f) (y >>= g) := by
  intro s t c s' related h
  obtain ⟨a, u, start, h⟩ := bind_eq_ok.1 h
  obtain ⟨b, v, start', same, related⟩ := first s t a u related start
  obtain ⟨d, t', finish, same, related⟩ := rest a b same u v c s' related h
  exact ⟨d, t', bind_eq_ok.2 ⟨b, v, start', finish⟩, same, related⟩

theorem Follows.foldlM {M : γ → δ → Prop} {f : α → γ → Process ε σ α} {g : β → δ → Process ε σ β}
    (each : ∀ a b c d, S a b → M c d → Follows R S (f a c) (g b d)) {items : List γ}
    {others : List δ} (matching : List.Forall₂ M items others) {a : α} {b : β} (start : S a b) :
    Follows R S (items.foldlM f a) (others.foldlM g b) := by
  induction matching generalizing a b with
  | nil => exact follows_pure start
  | cons first _ ih =>
    rw [List.foldlM_cons, List.foldlM_cons]
    exact (each _ _ _ _ start first).bind fun _ _ same => ih same

end follows

end AssetPack.Process

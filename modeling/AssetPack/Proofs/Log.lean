import AssetPack.Log

namespace AssetPack

/-! Computations which leave messages, one after the other. -/

namespace Attempt
variable {ε α β : Type}

theorem value_bind (x : Attempt ε α) (f : α → Attempt ε β) :
    (x >>= f).run.value = match x.run.value with
      | .ok a => (f a).run.value
      | .error e => .error e := by
  change (ExceptT.bind x f).value = _
  obtain ⟨log, value⟩ := x
  cases value <;> rfl

theorem log_bind (x : Attempt ε α) (f : α → Attempt ε β) :
    (x >>= f).run.log = x.run.log ++ match x.run.value with
      | .ok a => (f a).run.log
      | .error _ => [] := by
  change (ExceptT.bind x f).log = _
  obtain ⟨log, value⟩ := x
  cases value <;> rfl

theorem value_adapt {ε' : Type} (x : Attempt ε α) (f : ε → ε') :
    (x.adapt f).run.value = x.run.value.mapError f := rfl

theorem value_bind_eq_ok {x : Attempt ε α} {f : α → Attempt ε β} {b : β} :
    (x >>= f).run.value = .ok b ↔ ∃ a, x.run.value = .ok a ∧ (f a).run.value = .ok b := by
  rw [value_bind]
  cases x.run.value <;> simp

theorem value_adapt_eq_ok {ε' : Type} {x : Attempt ε α} {f : ε → ε'} {a : α} :
    (x.adapt f).run.value = .ok a ↔ x.run.value = .ok a := by
  rw [value_adapt]
  cases x.run.value <;> constructor <;> intro h <;> cases h <;> rfl

theorem run_lift (x : Logged α) : (liftM x : Attempt ε α).run = ⟨x.log, .ok x.value⟩ := by
  apply Logged.ext
  · exact List.append_nil x.log
  · rfl

theorem run_forM (items : List α) (f : α → Logged Unit) :
    (items.forM fun item => (liftM (f item) : Attempt ε Unit)).run =
      ⟨items.flatMap fun item => (f item).log, .ok ()⟩ := by
  induction items with
  | nil => rfl
  | cons item items ih =>
    rw [List.forM]
    apply Logged.ext
    · rw [log_bind, run_lift, ih]
      rfl
    · rw [value_bind, run_lift, ih]

end Attempt

/-- A computation which changes a state, leaves messages and may fail. -/
abbrev Process (ε σ α : Type) := ExceptT ε (StateT σ Logged) α

namespace Process
variable {ε σ α β : Type}

/-- What a computation comes to from a state, without its messages. -/
def eval (x : Process ε σ α) (s : σ) : Except ε α × σ := (x.run.run s).value

theorem eval_bind (x : Process ε σ α) (f : α → Process ε σ β) (s : σ) :
    eval (x >>= f) s = match eval x s with
      | (.ok a, t) => eval (f a) t
      | (.error e, t) => (.error e, t) := by
  change (ExceptT.bindCont (fun a => f a) (eval x s).1 (eval x s).2).value = _
  cases eval x s with
  | mk result t => cases result <;> rfl

theorem bind_eq_ok {x : Process ε σ α} {f : α → Process ε σ β} {s u : σ} {b : β} :
    eval (x >>= f) s = (.ok b, u) ↔ ∃ a t, eval x s = (.ok a, t) ∧ eval (f a) t = (.ok b, u) := by
  rw [eval_bind]
  cases eval x s with
  | mk result t =>
    cases result with
    | error e => simp
    | ok a =>
      simp only [Prod.mk.injEq, Except.ok.injEq]
      constructor
      · intro h
        exact ⟨a, t, ⟨rfl, rfl⟩, h⟩
      · intro h
        obtain ⟨_, _, ⟨rfl, rfl⟩, h⟩ := h
        exact h

theorem bind_eq_error {x : Process ε σ α} {f : α → Process ε σ β} {s u : σ} {e : ε} :
    eval (x >>= f) s = (.error e, u) ↔ eval x s = (.error e, u) ∨
      ∃ a t, eval x s = (.ok a, t) ∧ eval (f a) t = (.error e, u) := by
  rw [eval_bind]
  cases eval x s with
  | mk result t =>
    cases result with
    | error e' => simp
    | ok a =>
      simp only [Prod.mk.injEq, Except.ok.injEq, reduceCtorEq, false_and, false_or]
      constructor
      · intro h
        exact ⟨a, t, ⟨rfl, rfl⟩, h⟩
      · intro h
        obtain ⟨_, _, ⟨rfl, rfl⟩, h⟩ := h
        exact h

/-- A loop which fails has gone well up to one of its items. -/
theorem foldlM_eq_error {f : β → α → Process ε σ β} {items : List α} {b : β} {s u : σ} {e : ε}
    (h : eval (items.foldlM f b) s = (.error e, u)) : ∃ before item after c t,
      items = before ++ item :: after ∧ eval (before.foldlM f b) s = (.ok c, t) ∧
        eval (f c item) t = (.error e, u) := by
  induction items generalizing b s with
  | nil => cases h
  | cons item items ih =>
    rw [List.foldlM_cons, bind_eq_error] at h
    rcases h with stopped | ⟨c, t, passed, h⟩
    · exact ⟨[], item, items, b, s, rfl, rfl, stopped⟩
    · obtain ⟨before, next, after, d, v, rfl, gone, stopped⟩ := ih h
      refine ⟨item :: before, next, after, d, v, rfl, ?_, stopped⟩
      rw [List.foldlM_cons, bind_eq_ok]
      exact ⟨c, t, passed, gone⟩

theorem eval_pure (a : α) (s : σ) : eval (pure a : Process ε σ α) s = (.ok a, s) := rfl

theorem pure_eq_ok {a b : α} {s t : σ} :
    eval (pure a : Process ε σ α) s = (.ok b, t) ↔ a = b ∧ s = t := by
  rw [eval_pure, Prod.mk.injEq, Except.ok.injEq]

theorem eval_logged (x : Logged α) (s : σ) :
    eval (liftM x : Process ε σ α) s = (.ok x.value, s) := rfl

theorem eval_stateful (x : StateT σ Logged α) (s : σ) :
    eval (liftM x : Process ε σ α) s = (.ok (x.run s).value.1, (x.run s).value.2) := rfl

theorem eval_get (s : σ) : eval (get : Process ε σ σ) s = (.ok s, s) := rfl

theorem eval_set (s t : σ) : eval (set t : Process ε σ PUnit) s = (.ok ⟨⟩, t) := rfl

end Process

end AssetPack

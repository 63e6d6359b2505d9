import Mathlib.Order.Defs.Unbundled

/-!
# Computations that may fail

How a result comes about: of `Except`, by going through the parts one after another, and of a
computation with a state, by running the parts from the state that each one leaves behind. A failure
keeps the state that it happened in.
-/

namespace SecureCoap

/-! ### Results -/

section

variable {ε ε' α β : Type}

theorem ok_bind (a : α) (f : α → Except ε β) : (Except.ok a >>= f) = f a := rfl

theorem bind_eq_ok {x : Except ε α} {f : α → Except ε β} {b : β} :
    (x >>= f) = .ok b ↔ ∃ a, x = .ok a ∧ f a = .ok b := by
  cases x with
  | error e =>
    constructor
    · intro h
      cases h
    · intro h
      obtain ⟨a, h, -⟩ := h
      cases h
  | ok a =>
    constructor
    · intro h
      exact ⟨a, rfl, h⟩
    · intro h
      obtain ⟨a', h, hf⟩ := h
      cases h
      exact hf

theorem bind_eq_error {x : Except ε α} {f : α → Except ε β} {e : ε} :
    (x >>= f) = .error e ↔ x = .error e ∨ ∃ a, x = .ok a ∧ f a = .error e := by
  cases x with
  | error e' =>
    show Except.error e' = .error e ↔ _
    simp
  | ok a =>
    show f a = .error e ↔ _
    simp

theorem pure_ne_error {a : α} {e : ε} : (pure a : Except ε α) ≠ .error e := by
  intro h
  cases h

theorem pure_eq_ok {a b : α} : (pure a : Except ε α) = .ok b ↔ a = b := by
  show Except.ok a = .ok b ↔ a = b
  rw [Except.ok.injEq]

theorem mapError_eq_ok {x : Except ε α} {f : ε → ε'} {a : α} :
    x.mapError f = .ok a ↔ x = .ok a := by
  cases x with
  | error e =>
    constructor
    · intro h
      cases h
    · intro h
      cases h
  | ok a' =>
    show Except.ok a' = .ok a ↔ Except.ok a' = .ok a
    rw [Except.ok.injEq, Except.ok.injEq]

theorem map_eq_ok {x : Except ε α} {f : α → β} {b : β} :
    x.map f = .ok b ↔ ∃ a, x = .ok a ∧ f a = b := by
  cases x with
  | error e => simp [Except.map]
  | ok a => simp [Except.map]

theorem map_eq_error {x : Except ε α} {f : α → β} {e : ε} :
    x.map f = .error e ↔ x = .error e := by
  cases x with
  | error e' => simp [Except.map]
  | ok a => simp [Except.map]

theorem isOk_iff {x : Except ε α} : x.isOk = true ↔ ∃ a, x = .ok a := by
  cases x with
  | error e => simp [Except.isOk, Except.toBool]
  | ok a => simp [Except.isOk, Except.toBool]

theorem isOk_map (x : Except ε α) (f : α → β) : (x.map f).isOk = x.isOk := by
  cases x with
  | error e => rfl
  | ok a => rfl

theorem toOption_eq_some {x : Except ε α} {a : α} : x.toOption = some a ↔ x = .ok a := by
  cases x with
  | error e => simp [Except.toOption]
  | ok a' => simp [Except.toOption]

end

/-! ### Computations with a state -/

section

variable {ε σ α β : Type} {s s' : σ} {b : β}

theorem run_bind_eq (m : ExceptT ε (StateM σ) α) (f : α → ExceptT ε (StateM σ) β) (s : σ) :
    (m >>= f).run.run s =
      match m.run.run s with
      | (.ok a, s') => (f a).run.run s'
      | (.error e, s') => (.error e, s') := by
  show (ExceptT.bindCont f (m.run.run s).1 : StateM σ _).run (m.run.run s).2 = _
  rcases m.run.run s with ⟨e | a, s'⟩
  · rfl
  · rfl

theorem run_tryCatch_eq (m : ExceptT ε (StateM σ) α) (f : ε → ExceptT ε (StateM σ) α) (s : σ) :
    (tryCatch m f).run.run s =
      match m.run.run s with
      | (.ok a, s') => (.ok a, s')
      | (.error e, s') => (f e).run.run s' := by
  have h : (tryCatch m f).run.run s
      = (match (m.run.run s).1 with
        | .ok a => (pure (Except.ok a) : StateM σ _)
        | .error e => (f e).run).run (m.run.run s).2 := rfl
  rw [h]
  rcases m.run.run s with ⟨e | a, s'⟩
  · rfl
  · rfl

theorem run_result_bind (r : Except ε α) (f : α → ExceptT ε (StateM σ) β) (s : σ) :
    (liftM r >>= f).run.run s =
      match r with
      | .ok a => (f a).run.run s
      | .error e => (.error e, s) := by
  cases r with
  | error e => rfl
  | ok a => rfl

theorem run_get (s : σ) :
    (get : ExceptT ε (StateM σ) σ).run.run s = (.ok s, s) := rfl

theorem run_result_ok {r : Except ε β}
    (h : (monadLift r : ExceptT ε (StateM σ) β).run.run s = (.ok b, s')) : r = .ok b ∧ s' = s := by
  obtain ⟨hr, hs⟩ := Prod.mk.inj h
  cases r with
  | error e => cases hr
  | ok a =>
    cases hr
    exact ⟨rfl, hs.symm⟩

theorem run_bind_ok {m : ExceptT ε (StateM σ) α} {f : α → ExceptT ε (StateM σ) β}
    (h : (m >>= f).run.run s = (.ok b, s')) :
    ∃ a t, m.run.run s = (.ok a, t) ∧ (f a).run.run t = (.ok b, s') := by
  rw [run_bind_eq] at h
  rcases hm : m.run.run s with ⟨e | a, t⟩
  · rw [hm] at h
    cases h
  · rw [hm] at h
    exact ⟨a, t, rfl, h⟩

end

/-! ### What computations do to the state -/

section

variable {ε σ α β : Type} {R : σ → σ → Prop}

/-- Whatever comes of a computation, the state after it is so related to the state before. -/
def Moves (R : σ → σ → Prop) (m : ExceptT ε (StateM σ) α) : Prop := ∀ s, R s (m.run.run s).2

theorem Moves.of_run {m : ExceptT ε (StateM σ) α} (hm : Moves R m) {s s' : σ} {r : Except ε α}
    (h : m.run.run s = (r, s')) : R s s' := by
  have hmoves := hm s
  rw [h] at hmoves
  exact hmoves

variable [IsPreorder σ R]

theorem Moves.bind {m : ExceptT ε (StateM σ) α} {f : α → ExceptT ε (StateM σ) β}
    (hm : Moves R m) (hf : ∀ a, Moves R (f a)) : Moves R (m >>= f) := by
  intro s
  have hfirst := hm s
  rw [run_bind_eq]
  rcases hrun : m.run.run s with ⟨e | a, t⟩
  · rw [hrun] at hfirst
    exact hfirst
  · rw [hrun] at hfirst
    exact trans_of R hfirst (hf a t)

theorem Moves.pure (a : α) : Moves R (Pure.pure a : ExceptT ε (StateM σ) α) :=
  fun s => refl_of R s

theorem Moves.throw (e : ε) : Moves R (throw e : ExceptT ε (StateM σ) α) :=
  fun s => refl_of R s

end

end SecureCoap

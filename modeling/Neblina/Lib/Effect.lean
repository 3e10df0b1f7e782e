/-!
# `Lib.Effect` — state-and-exception computations on a part of the state

`EStateM ε σ α` keeps the state on both exits, which is what a language with exceptions and mutable
objects does: what was changed before the throw stays changed. The two lifts below run a computation on
one half of a pair and leave the other half alone.
-/

namespace Effect

variable {ε σ τ α : Type}

/-- Run a computation on the first half of the state. -/
def onFst (m : EStateM ε σ α) : EStateM ε (σ × τ) α := fun s =>
  match m s.1 with
  | .ok a s1 => .ok a (s1, s.2)
  | .error e s1 => .error e (s1, s.2)

/-- Run a computation on the second half of the state. -/
def onSnd (m : EStateM ε τ α) : EStateM ε (σ × τ) α := fun s =>
  match m s.2 with
  | .ok a s2 => .ok a (s.1, s2)
  | .error e s2 => .error e (s.1, s2)

/-- A sequence goes on with the second computation where the first one ended. -/
theorem bind_of_ok {β : Type} {m : EStateM ε σ α} {f : α → EStateM ε σ β} {s s' : σ} {a : α}
    (h : m s = .ok a s') : (m >>= f) s = f a s' := by
  show EStateM.bind m f s = f a s'
  unfold EStateM.bind
  rw [h]

/-- A throw in the first computation ends the sequence. -/
theorem bind_of_error {β : Type} {m : EStateM ε σ α} {f : α → EStateM ε σ β} {s s' : σ} {e : ε}
    (h : m s = .error e s') : (m >>= f) s = .error e s' := by
  show EStateM.bind m f s = .error e s'
  unfold EStateM.bind
  rw [h]

/-- A sequence that returns went through both computations. -/
theorem bind_eq_ok {β : Type} {m : EStateM ε σ α} {f : α → EStateM ε σ β} {s s' : σ} {b : β}
    (h : (m >>= f) s = .ok b s') : ∃ a s₁, m s = .ok a s₁ ∧ f a s₁ = .ok b s' := by
  cases hr : m s with
  | error e s₁ =>
      rw [bind_of_error hr] at h
      cases h
  | ok a s₁ =>
      rw [bind_of_ok hr] at h
      exact ⟨a, s₁, rfl, h⟩

/-- A sequence that throws does so in one of the two. -/
theorem bind_eq_error {β : Type} {m : EStateM ε σ α} {f : α → EStateM ε σ β} {s s' : σ} {e : ε}
    (h : (m >>= f) s = .error e s') :
    m s = .error e s' ∨ ∃ a s₁, m s = .ok a s₁ ∧ f a s₁ = .error e s' := by
  cases hr : m s with
  | error e₁ s₁ =>
      rw [bind_of_error hr] at h
      cases h
      exact Or.inl rfl
  | ok a s₁ =>
      rw [bind_of_ok hr] at h
      exact Or.inr ⟨a, s₁, rfl, h⟩

theorem bind_get {β : Type} (f : σ → EStateM ε σ β) (s : σ) : (get >>= f) s = f s s := rfl

theorem onFst_of_ok {m : EStateM ε σ α} {s s1 : σ} {t : τ} {a : α} (h : m s = .ok a s1) :
    onFst m (s, t) = .ok a (s1, t) := by
  simp only [onFst, h]

theorem onFst_of_error {m : EStateM ε σ α} {s s1 : σ} {t : τ} {e : ε} (h : m s = .error e s1) :
    onFst m (s, t) = .error e (s1, t) := by
  simp only [onFst, h]

theorem onSnd_of_ok {m : EStateM ε τ α} {s : σ} {t t1 : τ} {a : α} (h : m t = .ok a t1) :
    onSnd m (s, t) = .ok a (s, t1) := by
  simp only [onSnd, h]

theorem onSnd_of_error {m : EStateM ε τ α} {s : σ} {t t1 : τ} {e : ε} (h : m t = .error e t1) :
    onSnd m (s, t) = .error e (s, t1) := by
  simp only [onSnd, h]

end Effect

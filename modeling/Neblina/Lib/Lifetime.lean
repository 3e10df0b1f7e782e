import Mathlib
import Neblina.Lib.Effect

/-!
# `Lib.Lifetime` — constructors that throw

A construction holds resources. What becomes of them when it throws depends on who owns them at that moment:
a subobject that is complete is destroyed, the object under construction is not. `member` is the first case,
plain sequencing the second: a raw handle that was acquired before is left behind. `leased` is a handle that
is given back at the end of the normal path only.

`Accounts m own lost` says what `m` holds when it returns and what it leaves with which exception when it
throws, besides what was held before. There is one rule for each way to put constructions together.
-/

namespace Lifetime

variable {ε R α β : Type}

/-- A computation on the resources that are held. -/
abbrev Build (ε R α : Type) := EStateM ε (Multiset R) α

def acquire (r : R) : Build ε R Unit := fun s => .ok () (r ::ₘ s)

section Decidable

variable [DecidableEq R]

/-- The rest of a construction after a subobject with the resources `own` is complete: when it throws, the
    subobject is destroyed. -/
def member (own : Multiset R) (rest : Build ε R α) : Build ε R α := fun s =>
  match rest s with
  | .ok a s' => .ok a s'
  | .error e s' => .error e (s' - own)

/-- A handle that is given back when `body` returns. -/
def leased (r : R) (body : Build ε R α) : Build ε R α := fun s =>
  match body (r ::ₘ s) with
  | .ok a s' => .ok a (s'.erase r)
  | .error e s' => .error e s'

end Decidable

/-- `m` can return `a`. -/
def Yields (m : Build ε R α) (a : α) : Prop := ∃ s s', m s = .ok a s'

theorem Yields.of_pure {a b : α} (h : Yields (Pure.pure a : Build ε R α) b) : b = a := by
  obtain ⟨s, s', h⟩ := h
  cases h
  rfl

theorem Yields.of_bind {m : Build ε R α} {f : α → Build ε R β} {b : β} (h : Yields (m >>= f) b) :
    ∃ a, Yields m a ∧ Yields (f a) b := by
  obtain ⟨s, s', h⟩ := h
  obtain ⟨a, s₁, hm, hf⟩ := Effect.bind_eq_ok h
  exact ⟨a, ⟨s, s₁, hm⟩, ⟨s₁, s', hf⟩⟩

theorem Yields.of_member [DecidableEq R] {own : Multiset R} {m : Build ε R α} {a : α}
    (h : Yields (member own m) a) : Yields m a := by
  obtain ⟨s, s', h⟩ := h
  unfold member at h
  split at h
  · next hm =>
      cases h
      exact ⟨s, s', hm⟩
  · cases h

theorem Yields.of_leased [DecidableEq R] {r : R} {m : Build ε R α} {a : α} (h : Yields (leased r m) a) :
    Yields m a := by
  obtain ⟨s, s', h⟩ := h
  unfold leased at h
  split at h
  · next hm =>
      cases h
      exact ⟨_, _, hm⟩
  · cases h

theorem not_yields_throw {e : ε} {a : α} : ¬ Yields (MonadExcept.throw e : Build ε R α) a := by
  rintro ⟨s, s', ⟨⟩⟩

/-- What is held after `m` besides what was held before: `own a` when it returns `a`, and one of `lost e` when
    it throws `e`. -/
structure Accounts (m : Build ε R α) (own : α → Multiset R) (lost : ε → Multiset R → Prop) : Prop where
  ok    : ∀ s a s', m s = .ok a s' → s' = s + own a
  error : ∀ s e s', m s = .error e s' → ∃ l, lost e l ∧ s' = s + l

namespace Accounts

variable {m : Build ε R α} {own : α → Multiset R} {lost : ε → Multiset R → Prop}

theorem pure (a : α) (h : own a = 0) : Accounts (Pure.pure a : Build ε R α) own lost := by
  refine ⟨?_, ?_⟩
  · rintro s _ _ ⟨⟩
    rw [h, add_zero]
  · rintro s e s' ⟨⟩

theorem throw (e : ε) (h : lost e 0) : Accounts (MonadExcept.throw e : Build ε R α) own lost := by
  refine ⟨?_, ?_⟩
  · rintro s a s' ⟨⟩
  · rintro s _ _ ⟨⟩
    exact ⟨0, h, (add_zero _).symm⟩

theorem acquire (r : R) : Accounts (Lifetime.acquire r : Build ε R Unit) (fun _ => {r}) lost := by
  refine ⟨?_, ?_⟩
  · rintro s _ _ ⟨⟩
    rw [add_comm, Multiset.singleton_add]
  · rintro s e s' ⟨⟩

theorem mono {lost' : ε → Multiset R → Prop} (hm : Accounts m own lost)
    (hlost : ∀ e l, lost e l → lost' e l) : Accounts m own lost' := by
  refine ⟨hm.ok, ?_⟩
  intro s e s' h
  obtain ⟨l, hl, hs⟩ := hm.error s e s' h
  exact ⟨l, hlost e l hl, hs⟩

section Sequence

variable {f : α → Build ε R β} {own' : β → Multiset R} {rest : α → β → Multiset R}
  {lost' : α → ε → Multiset R → Prop} {total : ε → Multiset R → Prop}

/-- **Plain sequencing**: what was acquired first is left behind when the rest throws. -/
theorem bind (hm : Accounts m own lost) (hf : ∀ a, Accounts (f a) (rest a) (lost' a))
    (hown : ∀ a b, Yields (f a) b → own a + rest a b = own' b) (hfirst : ∀ e l, lost e l → total e l)
    (hthen : ∀ a e l, Yields m a → lost' a e l → total e (own a + l)) : Accounts (m >>= f) own' total := by
  refine ⟨?_, ?_⟩
  · intro s b s' h
    obtain ⟨a, s₁, hr, hb⟩ := Effect.bind_eq_ok h
    rw [(hf a).ok s₁ b s' hb, hm.ok s a s₁ hr, add_assoc, hown a b ⟨s₁, s', hb⟩]
  · intro s e s' h
    rcases Effect.bind_eq_error h with hr | ⟨a, s₁, hr, hb⟩
    · obtain ⟨l, hl, hs⟩ := hm.error s e s' hr
      exact ⟨l, hfirst e l hl, hs⟩
    · obtain ⟨l, hl, hs⟩ := (hf a).error s₁ e s' hb
      exact ⟨own a + l, hthen a e l ⟨s, s₁, hr⟩ hl, by rw [hs, hm.ok s a s₁ hr, add_assoc]⟩

/-- A result that is put together from that of `m` holds nothing more. -/
theorem bind_pure {g : α → β} (hm : Accounts m own lost) (hown : ∀ a, own a = own' (g a)) :
    Accounts (m >>= fun a => Pure.pure (g a)) own' lost := by
  have hnothing : ∀ a, Accounts (Pure.pure (g a) : Build ε R β) (fun _ => 0) (fun _ _ => False) :=
    fun a => pure (g a) rfl
  refine bind hm hnothing ?_ (fun _ _ hl => hl) (fun _ _ _ _ hl => absurd hl id)
  intro a b hb
  rw [hb.of_pure, add_zero, hown]

variable [DecidableEq R]

/-- **A complete subobject**: what it holds is given back when the rest throws. -/
theorem bind_member (hm : Accounts m own lost) (hf : ∀ a, Accounts (f a) (rest a) (lost' a))
    (hown : ∀ a b, Yields (f a) b → own a + rest a b = own' b) (hfirst : ∀ e l, lost e l → total e l)
    (hthen : ∀ a e l, Yields m a → lost' a e l → total e l) :
    Accounts (m >>= fun a => member (own a) (f a)) own' total := by
  refine ⟨?_, ?_⟩
  · intro s b s' h
    obtain ⟨a, s₁, hr, hb⟩ := Effect.bind_eq_ok h
    unfold member at hb
    split at hb
    · next hrest =>
        cases hb
        rw [(hf a).ok _ _ _ hrest, hm.ok s a s₁ hr, add_assoc, hown a _ ⟨_, _, hrest⟩]
    · cases hb
  · intro s e s' h
    rcases Effect.bind_eq_error h with hr | ⟨a, s₁, hr, hb⟩
    · obtain ⟨l, hl, hs⟩ := hm.error s e s' hr
      exact ⟨l, hfirst e l hl, hs⟩
    · unfold member at hb
      split at hb
      · cases hb
      · next hrest =>
          cases hb
          obtain ⟨l, hl, hs⟩ := (hf a).error _ _ _ hrest
          refine ⟨l, hthen a _ l ⟨s, s₁, hr⟩ hl, ?_⟩
          rw [hs, hm.ok s a s₁ hr, add_right_comm, Multiset.add_sub_cancel_right]

end Sequence

variable [DecidableEq R]

/-- **A handle that is given back on the normal path** is left behind when `body` throws. -/
theorem leased {r : R} {lost' : ε → Multiset R → Prop} (hm : Accounts m own lost)
    (hlost : ∀ e l, lost e l → lost' e (r ::ₘ l)) : Accounts (Lifetime.leased r m) own lost' := by
  refine ⟨?_, ?_⟩
  · intro s a s' h
    unfold Lifetime.leased at h
    split at h
    · next hm' =>
        cases h
        rw [hm.ok _ _ _ hm', Multiset.cons_add, Multiset.erase_cons_head]
    · cases h
  · intro s e s' h
    unfold Lifetime.leased at h
    split at h
    · cases h
    · next hm' =>
        cases h
        obtain ⟨l, hl, hs⟩ := hm.error _ _ _ hm'
        exact ⟨r ::ₘ l, hlost _ l hl, by rw [hs, Multiset.cons_add, Multiset.add_cons]⟩

/-- A handle that is given back at once. -/
theorem leased_pure (r : R) (a : α) (h : own a = 0) :
    Accounts (Lifetime.leased r (Pure.pure a : Build ε R α)) own lost := by
  have hnothing : Accounts (Pure.pure a : Build ε R α) own (fun _ _ => False) := pure a h
  exact leased hnothing (fun _ _ hl => absurd hl id)

end Accounts

end Lifetime

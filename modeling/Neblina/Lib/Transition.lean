import Mathlib.Algebra.BigOperators.Group.List.Basic
import Mathlib.Algebra.GroupWithZero.Nat

/-!
# `Lib.Transition` — runs of a labelled transition function

`step s l` is the state after the step labelled `l`, or `none` when that step is not enabled in `s`. A
schedule is a list of labels, so "every interleaving" is "every list of labels" and a run can be
computed. `run_invariant` is the induction every safety proof uses; `run_invariant_of` is the same for
the runs all of whose steps meet a condition on the state before the step.
-/

namespace Transition

variable {S L : Type}

/-- The state after a list of steps, if each of them was enabled in its turn. -/
def run (step : S → L → Option S) : S → List L → Option S
  | s, [] => some s
  | s, l :: ls =>
      match step s l with
      | none => none
      | some s' => run step s' ls

/-- Every step of the run meets `cond`, judged in the state before that step. -/
def AllSteps (step : S → L → Option S) (cond : S → L → Prop) : S → List L → Prop
  | _, [] => True
  | s, l :: ls =>
      cond s l ∧
        match step s l with
        | none => True
        | some s' => AllSteps step cond s' ls

variable {step : S → L → Option S} {cond : S → L → Prop}

@[simp] theorem run_nil (s : S) : run step s [] = some s := rfl

theorem run_cons_of_some {s s' : S} {l : L} {ls : List L} (h : step s l = some s') :
    run step s (l :: ls) = run step s' ls := by
  simp only [run, h]

/-- A run that starts with `l` takes that step first. -/
theorem run_cons_eq_some {s t : S} {l : L} {ls : List L} (h : run step s (l :: ls) = some t) :
    ∃ s', step s l = some s' ∧ run step s' ls = some t := by
  simp only [run] at h
  cases hs : step s l with
  | none => rw [hs] at h; exact absurd h (by simp)
  | some s' => rw [hs] at h; exact ⟨s', rfl, h⟩

/-- Two runs one after the other are one run. -/
theorem run_append {s t : S} {ls ms : List L} (h : run step s ls = some t) :
    run step s (ls ++ ms) = run step t ms := by
  induction ls generalizing s with
  | nil =>
      simp only [run_nil, Option.some.injEq] at h
      rw [List.nil_append, h]
  | cons l ls ih =>
      obtain ⟨s', hs, hrest⟩ := run_cons_eq_some h
      rw [List.cons_append, run_cons_of_some hs]
      exact ih hrest

/-- **The simulation rule.** Where `f` turns the steps of one system into the steps of another, it turns its
    runs into runs. -/
theorem run_map {T : Type} {step' : T → L → Option T} {f : S → T}
    (hstep : ∀ s l, step' (f s) l = (step s l).map f) (s : S) (ls : List L) :
    run step' (f s) ls = (run step s ls).map f := by
  induction ls generalizing s with
  | nil => rfl
  | cons l ls ih =>
      simp only [run, hstep]
      cases step s l with
      | none => rfl
      | some s' => exact ih s'

/-- **The projection rule.** Where `f` turns each step either into a step of another system or into none, it
    turns a run into a run of the steps that are left. -/
theorem run_project {T M : Type} {step' : T → M → Option T} {f : S → T} {g : L → Option M}
    (hmove : ∀ {s l s' m}, step s l = some s' → g l = some m → step' (f s) m = some (f s'))
    (hstay : ∀ {s l s'}, step s l = some s' → g l = none → f s' = f s) :
    ∀ {ls : List L} {s t : S}, run step s ls = some t → run step' (f s) (ls.filterMap g) = some (f t) := by
  intro ls
  induction ls with
  | nil =>
      intro s t h
      simp only [run_nil, Option.some.injEq] at h
      rw [h]
      rfl
  | cons l ls ih =>
      intro s t h
      obtain ⟨s', hl, hrest⟩ := run_cons_eq_some h
      cases hg : g l with
      | none =>
          rw [List.filterMap_cons_none hg, ← hstay hl hg]
          exact ih hrest
      | some m =>
          rw [List.filterMap_cons_some hg, run_cons_of_some (hmove hl hg)]
          exact ih hrest

/-- **The invariant rule.** What every step preserves holds at the end of every run. -/
theorem run_invariant {Inv : S → Prop}
    (hstep : ∀ {s l s'}, Inv s → step s l = some s' → Inv s') :
    ∀ {ls : List L} {s t : S}, Inv s → run step s ls = some t → Inv t := by
  intro ls
  induction ls with
  | nil =>
      intro s t hs h
      simp only [run_nil, Option.some.injEq] at h
      exact h ▸ hs
  | cons l ls ih =>
      intro s t hs h
      obtain ⟨s', hl, hrest⟩ := run_cons_eq_some h
      exact ih (hstep hs hl) hrest

/-- **The invariant rule under a condition.** Only the steps that meet `cond` have to preserve it. -/
theorem run_invariant_of {Inv : S → Prop}
    (hstep : ∀ {s l s'}, Inv s → cond s l → step s l = some s' → Inv s') :
    ∀ {ls : List L} {s t : S}, Inv s → AllSteps step cond s ls → run step s ls = some t → Inv t := by
  intro ls
  induction ls with
  | nil =>
      intro s t hs _ h
      simp only [run_nil, Option.some.injEq] at h
      exact h ▸ hs
  | cons l ls ih =>
      intro s t hs hall h
      obtain ⟨s', hl, hrest⟩ := run_cons_eq_some h
      simp only [AllSteps, hl] at hall
      exact ih (hstep hs hall.1 hl) hall.2 hrest

/-- **The rule for what comes to hold.** What does not hold at the start of a run and holds at its end came to
    hold in one of its steps. -/
theorem run_became {P : S → Prop} : ∀ {ls : List L} {s t : S}, run step s ls = some t → ¬ P s → P t →
    ∃ pre l post a b, ls = pre ++ l :: post ∧ run step s pre = some a ∧ step a l = some b ∧ ¬ P a ∧ P b := by
  intro ls
  induction ls with
  | nil =>
      intro s t hrun hs ht
      rw [run_nil, Option.some.injEq] at hrun
      exact absurd (hrun ▸ ht) hs
  | cons l ls ih =>
      intro s t hrun hs ht
      obtain ⟨s', hl, hrest⟩ := run_cons_eq_some hrun
      by_cases hs' : P s'
      · exact ⟨[], l, ls, s, s', rfl, rfl, hl, hs, hs'⟩
      · obtain ⟨pre, l', post, a, b, rfl, ha, hb⟩ := ih hrest hs' ht
        refine ⟨l :: pre, l', post, a, b, rfl, ?_, hb⟩
        rw [run_cons_of_some hl]
        exact ha

/-- What the steps of a run put out, each by the state before it. -/
def trace {α : Type} (step : S → L → Option S) (out : S → L → List α) : S → List L → List α
  | _, [] => []
  | s, l :: ls =>
      out s l ++
        match step s l with
        | none => []
        | some s' => trace step out s' ls

/-- **The conservation rule.** Where each step puts out, and keeps in `held`, what was held and what it took in,
    in this order, so does a run. -/
theorem run_trace {α : Type} {Inv : S → Prop} {out : S → L → List α} {inp : L → List α} (held : S → List α)
    (hstep : ∀ s l s', Inv s → step s l = some s' → Inv s' ∧ out s l ++ held s' = held s ++ inp l) :
    ∀ {ls : List L} {s t : S}, Inv s → run step s ls = some t →
      trace step out s ls ++ held t = held s ++ ls.flatMap inp := by
  intro ls
  induction ls with
  | nil =>
      intro s t _ h
      simp only [run_nil, Option.some.injEq] at h
      rw [h, List.flatMap_nil, List.append_nil]
      rfl
  | cons l ls ih =>
      intro s t hs h
      obtain ⟨s', hl, hrest⟩ := run_cons_eq_some h
      obtain ⟨hs', hkeep⟩ := hstep s l s' hs hl
      simp only [trace, hl]
      rw [List.append_assoc, ih hs' hrest, List.flatMap_cons, ← List.append_assoc, hkeep, List.append_assoc]

/-- **The translation rule.** Where each step puts out the translation of what another trace has of it, so
    does a run; `φ` translates lists piece by piece. -/
theorem trace_hom {α β : Type} {Inv : S → Prop} {out : S → L → List α} {out' : S → L → List β}
    (φ : List α → List β) (hnil : φ [] = []) (happend : ∀ as bs, φ (as ++ bs) = φ as ++ φ bs)
    (hstep : ∀ s l s', Inv s → step s l = some s' → Inv s' ∧ out' s l = φ (out s l)) :
    ∀ {ls : List L} {s t : S}, Inv s → run step s ls = some t →
      trace step out' s ls = φ (trace step out s ls) := by
  intro ls
  induction ls with
  | nil =>
      intro s t _ _
      exact hnil.symm
  | cons l ls ih =>
      intro s t hs h
      obtain ⟨s', hl, hrest⟩ := run_cons_eq_some h
      obtain ⟨hs', hout⟩ := hstep s l s' hs hl
      simp only [trace, hl]
      rw [happend, hout, ih hs' hrest]

/-- The number of steps with a `cost`, judged in the state before the step. -/
def tally (step : S → L → Option S) (cost : S → L → Bool) : S → List L → Nat
  | _, [] => 0
  | s, l :: ls =>
      (cost s l).toNat +
        match step s l with
        | none => 0
        | some s' => tally step cost s' ls

/-- **The budget rule.** Where every step with a cost takes one from the budget, and a step adds at most its
    `income`, the steps with a cost and what is left of the budget are paid for by the budget at the start and
    the income. -/
theorem run_tally {Inv : S → Prop} (budget : S → Nat) (cost : S → L → Bool) (income : L → Nat)
    (hstep : ∀ s l s', Inv s → cond s l → step s l = some s' →
      Inv s' ∧ budget s' + (cost s l).toNat ≤ budget s + income l) :
    ∀ {ls : List L} {s t : S}, Inv s → AllSteps step cond s ls → run step s ls = some t →
      Inv t ∧ budget t + tally step cost s ls ≤ budget s + (ls.map income).sum := by
  intro ls
  induction ls with
  | nil =>
      intro s t hs _ h
      simp only [run_nil, Option.some.injEq] at h
      subst h
      exact ⟨hs, Nat.le_refl _⟩
  | cons l ls ih =>
      intro s t hs hall h
      obtain ⟨s', hl, hrest⟩ := run_cons_eq_some h
      simp only [AllSteps, hl] at hall
      obtain ⟨hs', hcost⟩ := hstep s l s' hs hall.1 hl
      obtain ⟨ht, hle⟩ := ih hs' hall.2 hrest
      refine ⟨ht, ?_⟩
      simp only [tally, hl, List.map_cons, List.sum_cons]
      omega

/-- A cost that is a matter of the label is counted in the labels. -/
theorem tally_eq_countP (cost : L → Bool) :
    ∀ {ls : List L} {s t : S}, run step s ls = some t → tally step (fun _ => cost) s ls = ls.countP cost := by
  intro ls
  induction ls with
  | nil => intro s t _; rfl
  | cons l ls ih =>
      intro s t h
      obtain ⟨s', hl, hrest⟩ := run_cons_eq_some h
      simp only [tally, hl, ih hrest, List.countP_cons]
      cases cost l with
      | false => simp
      | true => simp [Nat.add_comm]

/-- The budget rule for such a cost, without income. -/
theorem run_budget {Inv : S → Prop} (budget : S → Nat) (cost : L → Bool)
    (hstep : ∀ s l s', Inv s → cond s l → step s l = some s' →
      Inv s' ∧ budget s' + (cost l).toNat ≤ budget s)
    {ls : List L} {s t : S} (hs : Inv s) (hall : AllSteps step cond s ls) (hrun : run step s ls = some t) :
    Inv t ∧ budget t + ls.countP cost ≤ budget s := by
  rw [← tally_eq_countP cost hrun]
  have htally := run_tally budget (fun _ => cost) (fun _ => 0) hstep hs hall hrun
  have hzero : (ls.map (fun _ => 0)).sum = 0 := by simp
  rw [hzero] at htally
  exact htally

/-- A condition that follows from another one step by step follows for whole runs. -/
theorem AllSteps.mono {cond' : S → L → Prop} (himp : ∀ {s l}, cond s l → cond' s l) :
    ∀ {ls : List L} {s : S}, AllSteps step cond s ls → AllSteps step cond' s ls := by
  intro ls
  induction ls with
  | nil => intro s _; trivial
  | cons l ls ih =>
      intro s hall
      simp only [AllSteps] at hall ⊢
      refine ⟨himp hall.1, ?_⟩
      cases hs : step s l with
      | none => trivial
      | some s' => rw [hs] at hall; exact ih hall.2

/-- A condition along the simulated run is that condition on the images along the run itself. -/
theorem AllSteps.map {T : Type} {step' : T → L → Option T} {cond' : T → L → Prop} {f : S → T}
    (hstep : ∀ s l, step' (f s) l = (step s l).map f) :
    ∀ {ls : List L} {s : S},
      AllSteps step' cond' (f s) ls ↔ AllSteps step (fun s l => cond' (f s) l) s ls := by
  intro ls
  induction ls with
  | nil => intro s; exact Iff.rfl
  | cons l ls ih =>
      intro s
      simp only [AllSteps, hstep]
      apply and_congr_right
      intro _
      cases step s l with
      | none => exact Iff.rfl
      | some s' => exact ih

/-- **The rule for conditions on steps.** What holds of a step from a state with the invariant holds of every
    step of a run. -/
theorem AllSteps.of_invariant {Inv : S → Prop} {goal : S → L → Prop}
    (hstep : ∀ {s l s'}, Inv s → cond s l → step s l = some s' → Inv s')
    (hgoal : ∀ {s l}, Inv s → cond s l → goal s l) :
    ∀ {ls : List L} {s : S}, Inv s → AllSteps step cond s ls → AllSteps step goal s ls := by
  intro ls
  induction ls with
  | nil => intro s _ _; trivial
  | cons l ls ih =>
      intro s hs hall
      simp only [AllSteps] at hall ⊢
      refine ⟨hgoal hs hall.1, ?_⟩
      cases hl : step s l with
      | none => trivial
      | some s' =>
          rw [hl] at hall
          exact ih (hstep hs hall.1 hl) hall.2

/-- The condition at one step of a run. -/
theorem AllSteps.at_step : ∀ {ls ms : List L} {l : L} {s t : S}, AllSteps step cond s (ls ++ l :: ms) →
    run step s ls = some t → cond t l := by
  intro ls
  induction ls with
  | nil =>
      intro ms l s t hall hrun
      rw [run_nil, Option.some.injEq] at hrun
      exact hrun ▸ hall.1
  | cons l' ls ih =>
      intro ms l s t hall hrun
      obtain ⟨s', hs, hrest⟩ := run_cons_eq_some hrun
      rw [List.cons_append] at hall
      simp only [AllSteps, hs] at hall
      exact ih hall.2 hrest

theorem AllSteps.append : ∀ {ls ms : List L} {s t : S}, AllSteps step cond s ls → run step s ls = some t →
    AllSteps step cond t ms → AllSteps step cond s (ls ++ ms) := by
  intro ls
  induction ls with
  | nil =>
      intro ms s t _ hrun hms
      rw [run_nil, Option.some.injEq] at hrun
      rw [List.nil_append, hrun]
      exact hms
  | cons l ls ih =>
      intro ms s t hls hrun hms
      obtain ⟨s', hl, hrest⟩ := run_cons_eq_some hrun
      simp only [List.cons_append, AllSteps, hl] at hls ⊢
      exact ⟨hls.1, ih hls.2 hrest hms⟩

theorem AllSteps.and {cond' : S → L → Prop} :
    ∀ {ls : List L} {s : S}, AllSteps step cond s ls → AllSteps step cond' s ls →
      AllSteps step (fun s l => cond s l ∧ cond' s l) s ls := by
  intro ls
  induction ls with
  | nil => intro s _ _; trivial
  | cons l ls ih =>
      intro s h h'
      simp only [AllSteps] at h h' ⊢
      refine ⟨⟨h.1, h'.1⟩, ?_⟩
      cases hl : step s l with
      | none => trivial
      | some s' =>
          rw [hl] at h h'
          exact ih h.2 h'.2

/-- **The rule for conditions that a bad state gives away.** While every step meets `cond` the invariant
    holds; the first step that does not leads to a bad state, and from there only to bad ones. -/
theorem AllSteps.or_bad {cond' : S → L → Prop} {Inv Bad : S → Prop}
    (hstep : ∀ {s l s'}, Inv s → cond s l → cond' s l → step s l = some s' → Inv s')
    (hbreak : ∀ {s l s'}, Inv s → cond s l → ¬ cond' s l → step s l = some s' → Bad s')
    (hbad : ∀ {s l s'}, Bad s → cond s l → step s l = some s' → Bad s') :
    ∀ {ls : List L} {s t : S}, Inv s → AllSteps step cond s ls → run step s ls = some t →
      AllSteps step cond' s ls ∨ Bad t := by
  intro ls
  induction ls with
  | nil => intro s t _ _ _; exact Or.inl trivial
  | cons l ls ih =>
      intro s t hs hall hrun
      obtain ⟨s', hl, hrest⟩ := run_cons_eq_some hrun
      simp only [AllSteps, hl] at hall ⊢
      by_cases hc : cond' s l
      · rcases ih (hstep hs hall.1 hc hl) hall.2 hrest with hgood | hbad
        · exact Or.inl ⟨hc, hgood⟩
        · exact Or.inr hbad
      · exact Or.inr (run_invariant_of hbad (hbreak hs hall.1 hc hl) hall.2 hrest)

/-- A condition on the labels alone holds along a run when it holds of the labels. -/
theorem AllSteps.of_forall : ∀ {ls : List L} {s : S}, (∀ l ∈ ls, ∀ s, cond s l) → AllSteps step cond s ls := by
  intro ls
  induction ls with
  | nil => intro s _; trivial
  | cons l ls ih =>
      intro s hall
      refine ⟨hall l List.mem_cons_self s, ?_⟩
      cases hs : step s l with
      | none => trivial
      | some s' => exact ih (fun l' hl' => hall l' (List.mem_cons_of_mem _ hl'))

instance decidableAllSteps [∀ s l, Decidable (cond s l)] :
    ∀ (s : S) (ls : List L), Decidable (AllSteps step cond s ls)
  | _, [] => isTrue trivial
  | s, l :: ls =>
      match h : step s l with
      | none => decidable_of_iff (cond s l) (by simp [AllSteps, h])
      | some s' =>
          have := decidableAllSteps s' ls
          decidable_of_iff (cond s l ∧ AllSteps step cond s' ls) (by simp [AllSteps, h])

end Transition

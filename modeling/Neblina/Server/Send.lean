import Mathlib.Data.List.Infix
import Neblina.Server.Connection

/-!
# `Server.Send` — what the `send` loops hand over

All four `send` functions of the program run the same loop: `while (pos < data.size())`, each pass offering
`data` from its first byte and adding the result to `pos`. After a short write the next pass therefore
offers the beginning of `data` again, not what is left of it. `accepted_prefix_iff` says exactly when the
bytes handed over are nevertheless the beginning of `data`: when every accepted write puts bytes that also
stand at `pos` (`Fits`).

`passes_rec` is the induction over the passes of the loop that all proofs here use.
-/

namespace Neblina

variable {data done : Bytes} {rs : List SendResult} {pos : Nat}

/-! ## One pass -/

theorem sendLoop_done (h : ¬ pos < data.length) : sendLoop data rs pos done = ⟨none, done, rs⟩ := by
  unfold sendLoop
  rw [if_neg h]

theorem sendLoop_out (h : pos < data.length) :
    sendLoop data [] pos done = ⟨some .running, done, []⟩ := by
  unfold sendLoop
  rw [if_pos h]

theorem sendLoop_failed (h : pos < data.length) (errno : Errno) :
    sendLoop data (.failed errno :: rs) pos done =
      ⟨some (.throws (.runtimeError "send error: " (some errno))), done, rs⟩ := by
  unfold sendLoop
  rw [if_pos h]

theorem sendLoop_accepted (h : pos < data.length) (r : Nat) :
    sendLoop data (.accepted r :: rs) pos done = sendLoop data rs (pos + r) (done ++ data.take r) := by
  rw [sendLoop, if_pos h]

/-- **Induction over the passes of the loop.** -/
@[elab_as_elim]
theorem passes_rec (data : Bytes) {motive : List SendResult → Nat → Bytes → Prop}
    (ended : ∀ rs pos done, ¬ pos < data.length → motive rs pos done)
    (out : ∀ pos done, pos < data.length → motive [] pos done)
    (failed : ∀ errno rs pos done, pos < data.length → motive (.failed errno :: rs) pos done)
    (accepted : ∀ r rs pos done, pos < data.length → motive rs (pos + r) (done ++ data.take r) →
      motive (.accepted r :: rs) pos done) :
    ∀ rs pos done, motive rs pos done := by
  intro rs
  induction rs with
  | nil =>
      intro pos done
      by_cases hlt : pos < data.length
      · exact out pos done hlt
      · exact ended [] pos done hlt
  | cons x rs ih =>
      intro pos done
      by_cases hlt : pos < data.length
      · cases x with
        | failed errno => exact failed errno rs pos done hlt
        | accepted r => exact accepted r rs pos done hlt (ih _ _)
      · exact ended _ pos done hlt

/-! ## The calls the loop makes -/

/-- The results of the calls the loop makes from position `pos` on, of those it is handed. -/
def made (data : Bytes) : List SendResult → Nat → List SendResult
  | [], _ => []
  | .failed errno :: _, pos => if pos < data.length then [.failed errno] else []
  | .accepted r :: rs, pos => if pos < data.length then .accepted r :: made data rs (pos + r) else []

/-- **Every accepted write puts bytes that stand at its position in `data`.** The write at position `pos`
    that is answered with `r` puts the first `r` bytes of `data`. -/
def Fits (data : Bytes) : List SendResult → Nat → Prop
  | [], _ => True
  | .failed _ :: _, _ => True
  | .accepted r :: rs, pos =>
      pos < data.length → data.take r <+: data.drop pos ∧ Fits data rs (pos + r)

instance decidableFits (data : Bytes) : ∀ (rs : List SendResult) (pos : Nat), Decidable (Fits data rs pos)
  | [], _ => isTrue trivial
  | .failed _ :: _, _ => isTrue trivial
  | .accepted r :: rs, pos =>
      have := decidableFits data rs (pos + r)
      inferInstanceAs (Decidable (pos < data.length → data.take r <+: data.drop pos ∧ Fits data rs (pos + r)))

theorem made_done (h : ¬ pos < data.length) : made data rs pos = [] := by
  cases rs with
  | nil => rfl
  | cons x rs =>
      cases x with
      | failed errno => exact if_neg h
      | accepted r => exact if_neg h

theorem made_failed (h : pos < data.length) (errno : Errno) :
    made data (.failed errno :: rs) pos = [.failed errno] := if_pos h

theorem made_accepted (h : pos < data.length) (r : Nat) :
    made data (.accepted r :: rs) pos = .accepted r :: made data rs (pos + r) := if_pos h

theorem fits_done (h : ¬ pos < data.length) : Fits data rs pos := by
  cases rs with
  | nil => trivial
  | cons x rs =>
      cases x with
      | failed errno => trivial
      | accepted r => exact fun hlt => absurd hlt h

theorem fits_accepted (h : pos < data.length) (r : Nat) :
    Fits data (.accepted r :: rs) pos ↔ data.take r <+: data.drop pos ∧ Fits data rs (pos + r) :=
  ⟨fun hf => hf h, fun hf _ => hf⟩

/-- A first write that takes everything fits, whatever would come after it. -/
theorem fits_whole (data : Bytes) (rs : List SendResult) : Fits data (.accepted data.length :: rs) 0 := by
  intro _
  refine ⟨?_, fits_done (by omega)⟩
  rw [List.take_length, List.drop_zero]

/-! ## What was handed over -/

/-- What was handed over stays handed over. -/
theorem sendLoop_extends (data : Bytes) (rs : List SendResult) (pos : Nat) (done : Bytes) :
    done <+: (sendLoop data rs pos done).accepted := by
  induction rs, pos, done using passes_rec data with
  | ended rs pos done h => rw [sendLoop_done h]
  | out pos done h => rw [sendLoop_out h]
  | failed errno rs pos done h => rw [sendLoop_failed h]
  | accepted r rs pos done h ih =>
      rw [sendLoop_accepted h]
      exact (List.prefix_append _ _).trans ih

/-- **The bytes handed over are the beginning of `data` exactly when every accepted write fits.** -/
theorem accepted_prefix_iff (data : Bytes) (rs : List SendResult) (pos : Nat) (done : Bytes)
    (hle : ∀ r, .accepted r ∈ rs → r ≤ data.length) (hdone : done <+: data) (hpos : done.length = pos) :
    (sendLoop data rs pos done).accepted <+: data ↔ Fits data rs pos := by
  induction rs, pos, done using passes_rec data with
  | ended rs pos done h =>
      rw [sendLoop_done h]
      exact ⟨fun _ => fits_done h, fun _ => hdone⟩
  | out pos done h =>
      rw [sendLoop_out h]
      exact ⟨fun _ => trivial, fun _ => hdone⟩
  | failed errno rs pos done h =>
      rw [sendLoop_failed h]
      exact ⟨fun _ => trivial, fun _ => hdone⟩
  | accepted r rs pos done h ih =>
      rw [sendLoop_accepted h, fits_accepted h]
      have hdata : done ++ data.drop pos = data := by
        rw [← hpos]
        exact List.prefix_iff_eq_append.mp hdone
      -- a write that fits leads to a longer beginning of `data`, any other write away from it for good
      have hput : done ++ data.take r <+: data ↔ data.take r <+: data.drop pos := by
        have hinj : done ++ data.take r <+: done ++ data.drop pos ↔ data.take r <+: data.drop pos :=
          List.prefix_append_right_inj done
        rwa [hdata] at hinj
      have hrest : ∀ r', .accepted r' ∈ rs → r' ≤ data.length :=
        fun r' hr' => hle r' (List.mem_cons_of_mem _ hr')
      have hlen : (done ++ data.take r).length = pos + r := by
        rw [List.length_append, List.length_take, hpos, Nat.min_eq_left (hle r List.mem_cons_self)]
      constructor
      · intro hall
        have hhere := (sendLoop_extends data rs (pos + r) (done ++ data.take r)).trans hall
        exact ⟨hput.mp hhere, (ih hrest hhere hlen).mp hall⟩
      · rintro ⟨hhere, hmore⟩
        exact (ih hrest (hput.mpr hhere) hlen).mpr hmore

/-- A call that returns has put at least as many bytes as `data` has. -/
theorem length_le_accepted (data : Bytes) (rs : List SendResult) (pos : Nat) (done : Bytes)
    (hle : ∀ r, .accepted r ∈ rs → r ≤ data.length) (hpos : done.length = pos)
    (hstop : (sendLoop data rs pos done).stop = none) :
    data.length ≤ (sendLoop data rs pos done).accepted.length := by
  induction rs, pos, done using passes_rec data with
  | ended rs pos done h =>
      rw [sendLoop_done h, hpos]
      exact Nat.le_of_not_lt h
  | out pos done h =>
      rw [sendLoop_out h] at hstop
      exact absurd hstop (by simp)
  | failed errno rs pos done h =>
      rw [sendLoop_failed h] at hstop
      exact absurd hstop (by simp)
  | accepted r rs pos done h ih =>
      rw [sendLoop_accepted h] at hstop ⊢
      refine ih (fun r' hr' => hle r' (List.mem_cons_of_mem _ hr')) ?_ hstop
      rw [List.length_append, List.length_take, hpos, Nat.min_eq_left (hle r List.mem_cons_self)]

/-- **A call that throws has not put the whole of `data`.** -/
theorem accepted_lt_of_throws (data : Bytes) (rs : List SendResult) (pos : Nat) (done : Bytes) {e : Exc}
    (hpos : done.length ≤ pos) (hstop : (sendLoop data rs pos done).stop = some (.throws e)) :
    (sendLoop data rs pos done).accepted.length < data.length := by
  induction rs, pos, done using passes_rec data with
  | ended rs pos done h =>
      rw [sendLoop_done h] at hstop
      exact absurd hstop (by simp)
  | out pos done h =>
      rw [sendLoop_out h] at hstop
      exact absurd hstop (by simp)
  | failed errno rs pos done h =>
      rw [sendLoop_failed h]
      exact Nat.lt_of_le_of_lt hpos h
  | accepted r rs pos done h ih =>
      rw [sendLoop_accepted h] at hstop ⊢
      refine ih ?_ hstop
      rw [List.length_append, List.length_take]
      omega

/-! ## When the loop ends -/

/-- The loop returns, throws, or waits for the next result. -/
theorem sendLoop_stop (data : Bytes) (rs : List SendResult) (pos : Nat) (done : Bytes) :
    (sendLoop data rs pos done).stop = none ∨ (sendLoop data rs pos done).stop = some .running ∨
      ∃ e, (sendLoop data rs pos done).stop = some (.throws e) := by
  induction rs, pos, done using passes_rec data with
  | ended rs pos done h => exact Or.inl (by rw [sendLoop_done h])
  | out pos done h => exact Or.inr (Or.inl (by rw [sendLoop_out h]))
  | failed errno rs pos done h => exact Or.inr (Or.inr ⟨_, by rw [sendLoop_failed h]⟩)
  | accepted r rs pos done h ih => rwa [sendLoop_accepted h]

/-- The bytes a call with these results was told it has put. -/
def total : List SendResult → Nat
  | [] => 0
  | .failed _ :: rs => total rs
  | .accepted r :: rs => r + total rs

/-- **The loop throws exactly when a call fails before it has counted up to the length of `data`.** -/
theorem throws_iff (data : Bytes) (rs : List SendResult) (pos : Nat) (done : Bytes) :
    (∃ e, (sendLoop data rs pos done).stop = some (.throws e)) ↔
      ∃ pre errno post, rs = pre ++ .failed errno :: post ∧ pos + total pre < data.length := by
  induction rs, pos, done using passes_rec data with
  | ended rs pos done h =>
      rw [sendLoop_done h]
      constructor
      · rintro ⟨e, he⟩
        exact absurd he (by simp)
      · rintro ⟨pre, errno, post, _, hlt⟩
        exact absurd (Nat.lt_of_le_of_lt (Nat.le_add_right _ _) hlt) h
  | out pos done h =>
      rw [sendLoop_out h]
      constructor
      · rintro ⟨e, he⟩
        exact absurd he (by simp)
      · rintro ⟨pre, errno, post, hrs, _⟩
        exact absurd hrs.symm (by simp)
  | failed errno rs pos done h =>
      rw [sendLoop_failed h]
      exact ⟨fun _ => ⟨[], errno, rs, rfl, h⟩, fun _ => ⟨_, rfl⟩⟩
  | accepted r rs pos done h ih =>
      rw [sendLoop_accepted h, ih]
      constructor
      · rintro ⟨pre, errno, post, rfl, hlt⟩
        exact ⟨.accepted r :: pre, errno, post, rfl, by rw [total, ← Nat.add_assoc]; exact hlt⟩
      · rintro ⟨pre, errno, post, hrs, hlt⟩
        cases pre with
        | nil => exact absurd hrs (by simp)
        | cons x pre =>
            rw [List.cons_append, List.cons.injEq] at hrs
            obtain ⟨rfl, rfl⟩ := hrs
            exact ⟨pre, errno, post, rfl, by rw [total, ← Nat.add_assoc] at hlt; exact hlt⟩

/-- While no call is answered with zero, each call that leaves the loop running takes it at least one byte
    further. -/
theorem length_lt_of_running (data : Bytes) (rs : List SendResult) (pos : Nat) (done : Bytes)
    (hzero : .accepted 0 ∉ made data rs pos) (hstop : (sendLoop data rs pos done).stop = some .running) :
    pos + rs.length < data.length := by
  induction rs, pos, done using passes_rec data with
  | ended rs pos done h =>
      rw [sendLoop_done h] at hstop
      exact absurd hstop (by simp)
  | out pos done h => exact h
  | failed errno rs pos done h =>
      rw [sendLoop_failed h] at hstop
      exact absurd hstop (by simp)
  | accepted r rs pos done h ih =>
      rw [made_accepted h, List.mem_cons, not_or] at hzero
      rw [sendLoop_accepted h] at hstop
      have hr : r ≠ 0 := fun hr => hzero.1 (by rw [hr])
      have hmore := ih hzero.2 hstop
      rw [List.length_cons]
      omega

/-- **A call answered with zero is never the last one.** -/
theorem running_of_made_zero (data : Bytes) (rs : List SendResult) (pos : Nat) (done : Bytes)
    {pre : List SendResult} (hmade : made data rs pos = pre ++ [.accepted 0]) :
    (sendLoop data rs pos done).stop = some .running := by
  induction rs, pos, done using passes_rec data generalizing pre with
  | ended rs pos done h =>
      rw [made_done h] at hmade
      exact absurd hmade.symm (by simp)
  | out pos done h => rw [sendLoop_out h]
  | failed errno rs pos done h =>
      rw [made_failed h] at hmade
      exact absurd (congrArg List.getLast? hmade) (by simp)
  | accepted r rs pos done h ih =>
      rw [made_accepted h] at hmade
      rw [sendLoop_accepted h]
      cases pre with
      | cons y pre => exact ih (List.cons.injEq _ _ _ _ ▸ hmade).2
      | nil =>
          -- the zero came last: no result is left, and the loop stands where it stood before
          simp only [List.nil_append, List.cons.injEq, SendResult.accepted.injEq] at hmade
          obtain ⟨rfl, hnone⟩ := hmade
          rw [Nat.add_zero] at hnone ⊢
          cases rs with
          | nil => rw [sendLoop_out h]
          | cons y rs =>
              cases y with
              | failed errno => exact absurd hnone (by rw [made_failed h]; simp)
              | accepted r => exact absurd hnone (by rw [made_accepted h]; simp)

/-- Results that come after the loop ended change nothing. -/
theorem sendLoop_append (data : Bytes) (rs more : List SendResult) (pos : Nat) (done : Bytes)
    (hends : (sendLoop data rs pos done).stop ≠ some .running) :
    made data (rs ++ more) pos = made data rs pos ∧ (Fits data (rs ++ more) pos ↔ Fits data rs pos) := by
  induction rs, pos, done using passes_rec data with
  | ended rs pos done h =>
      rw [made_done h, made_done h]
      exact ⟨rfl, fun _ => fits_done h, fun _ => fits_done h⟩
  | out pos done h =>
      rw [sendLoop_out h] at hends
      exact absurd rfl hends
  | failed errno rs pos done h => exact ⟨rfl, Iff.rfl⟩
  | accepted r rs pos done h ih =>
      rw [sendLoop_accepted h] at hends
      obtain ⟨hmade, hfits⟩ := ih hends
      rw [List.cons_append, made_accepted h, made_accepted h, fits_accepted h, fits_accepted h, hmade, hfits]
      exact ⟨rfl, Iff.rfl⟩

/-- The calls made on fewer results are the first of those made on more. -/
theorem made_prefix_append (data : Bytes) (rs more : List SendResult) (pos : Nat) :
    made data rs pos <+: made data (rs ++ more) pos ∧ (Fits data (rs ++ more) pos → Fits data rs pos) := by
  induction rs, pos, ([] : Bytes) using passes_rec data with
  | ended rs pos done h =>
      rw [made_done h, made_done h]
      exact ⟨List.prefix_refl _, fun _ => fits_done h⟩
  | out pos done h =>
      refine ⟨?_, fun _ => trivial⟩
      exact List.nil_prefix
  | failed errno rs pos done h => exact ⟨List.prefix_refl _, id⟩
  | accepted r rs pos done h ih =>
      rw [List.cons_append, made_accepted h, made_accepted h, fits_accepted h, fits_accepted h]
      exact ⟨List.cons_prefix_cons.mpr ⟨rfl, ih.1⟩, fun hf => ⟨hf.1, ih.2 hf.2⟩⟩

end Neblina

import Neblina.Thread.Recorded

/-!
# `Thread.Queue` — in which order and how soon a worker serves

`data_available` puts a descriptor at the end of the queue of its thread, a pass of the worker takes the first
one and runs the session it leads to; nothing else touches the queue, not even the removal of the session an
entry is about. So each worker goes through what was announced to it in the order in which it was announced,
and the iterations the sessions write down in its passes are those of the sessions it found
(`served_in_order`). An entry whose session stays waits for as many passes as there are entries before it,
and in the next one its session is iterated, whatever the event loop and the other workers do in the meantime
(`served_in_turn`).
-/

namespace Neblina

open ThreadManager

namespace Pool

variable {tc : ThreadCount} {σ W : Type}

/-- What a step puts into the queue of `k`. -/
def announcedTo (k : Fin tc.size) : Label tc → List SOCKET
  | .call (.dataAvailable fd) => if tc.kind = .multi ∧ fd % tc.size = k then [fd] else []
  | _ => []

/-- What a step of the worker `k` takes out of its queue. -/
def takenBy (k : Fin tc.size) (s : State tc σ W) (l : Label tc) : List SOCKET :=
  if l = .worker k then (s.threads k).queue.head?.toList else []

/-- The entry the worker `k` takes, and the session object its descriptor leads to, if there is one. -/
def visitedBy (k : Fin tc.size) (s : State tc σ W) (l : Label tc) : List (SOCKET × Option Nat) :=
  (takenBy k s l).map (fun fd => (fd, owner s.threads fd))

/-- What the sessions write down in a pass of the worker `k`. -/
def writtenIn (k : Fin tc.size) (S : SessionClass W σ) (init : σ) (s : State tc σ (Recorded W)) (l : Label tc) :
    List Act :=
  if l = .worker k then
    match step S.recorded init s l with
    | none => []
    | some s' => s'.world.acts.drop s.world.acts.length
  else []

theorem takenBy_eq (k : Fin tc.size) (s : State tc σ W) (l : Label tc) :
    takenBy k s l = (visitedBy k s l).map Prod.fst := by
  unfold visitedBy
  rw [List.map_map]
  exact (List.map_id _).symm

section Steps

variable {S : SessionClass W σ} {init : σ} {l : Label tc}

/-- **What a step does to the queue of `k`**: what it takes out is the first entry, what it puts in is the last
    one. -/
theorem queue_step {s s' : State tc σ W} (hr : Routed s.threads) (h : step S init s l = some s')
    (k : Fin tc.size) :
    takenBy k s l ++ (s'.threads k).queue = (s.threads k).queue ++ announcedTo k l := by
  have hpos : 0 < tc.size := Nat.lt_of_le_of_lt (Nat.zero_le _) k.isLt
  cases does_of_step hpos hr h with
  | added fd => simp [takenBy, announcedTo]
  | removed fd => simp [takenBy, announcedTo]
  | queued fd hk =>
      by_cases hfd : fd % tc.size = k
      · simp [takenBy, announcedTo, queue_enqueue, hk, hfd]
      · simp [takenBy, announcedTo, queue_enqueue, hfd]
  | ran fd tm w hk hit =>
      simp only [takenBy, announcedTo, queue_iterate hit, hk]
      simp
  | idle j hk hq =>
      by_cases hj : j = k
      · rw [hj] at hq
        simp [takenBy, announcedTo, hq]
      · simp [takenBy, announcedTo, hj]
  | served j fd rest tm w hk hq hit =>
      rw [queue_iterate hit, queue_setQueue]
      by_cases hj : j = k
      · rw [hj] at hq ⊢
        simp [takenBy, announcedTo, hq]
      · have hkj : k ≠ j := fun h => hj h.symm
        simp [takenBy, announcedTo, hj, hkj]

/-- A queue that is not empty, after a pass of its worker and after any other step. -/
theorem queue_cons {s s' : State tc σ W} (hr : Routed s.threads) (h : step S init s l = some s')
    {k : Fin tc.size} {fd : SOCKET} {rest : List SOCKET} (hq : (s.threads k).queue = fd :: rest) :
    (l = .worker k ∧ (s'.threads k).queue = rest) ∨
      (l ≠ .worker k ∧ ∃ more, (s'.threads k).queue = fd :: rest ++ more) := by
  have hstep := queue_step hr h k
  unfold takenBy at hstep
  by_cases hl : l = .worker k
  · rw [if_pos hl, hq, hl] at hstep
    refine Or.inl ⟨hl, ?_⟩
    simpa [announcedTo] using hstep
  · rw [if_neg hl, hq] at hstep
    exact Or.inr ⟨hl, _, hstep⟩

/-- A descriptor leads to the same session object until a session is added or removed under it. -/
theorem owner_step (hpos : 0 < tc.size) {s s' : State tc σ W} (hr : Routed s.threads)
    (h : step S init s l = some s') {fd : SOCKET} (hadd : l ≠ .call (.addSession fd))
    (hremove : l ≠ .call (.removeSession fd)) : owner s'.threads fd = owner s.threads fd := by
  cases does_of_step hpos hr h with
  | added fd' =>
      have hne : fd ≠ fd' := fun he => hadd (by rw [he])
      rw [owner_of_update (lookup_insert hpos _)]
      exact Function.update_of_ne hne _ _
  | removed fd' =>
      have hne : fd ≠ fd' := fun he => hremove (by rw [he])
      rw [owner_of_update (lookup_remove hpos)]
      exact Function.update_of_ne hne _ _
  | queued fd' hk => rw [owner_congr (conns_congr lookup_enqueue)]
  | ran fd' tm w hk hit => rw [owner_congr (conns_iterate hpos hit)]
  | idle k hk hq => rfl
  | served k fd' rest tm w hk hq hit =>
      rw [owner_congr ((conns_iterate hpos hit).trans (conns_congr (lookup_setQueue k rest)))]

/-- **What the sessions write down in a pass** is the iteration of the session the worker found. -/
theorem writtenIn_eq {s s' : State tc σ (Recorded W)} (hr : Routed s.threads)
    (h : step S.recorded init s l = some s') (k : Fin tc.size) :
    writtenIn k S init s l = (visitedBy k s l).filterMap (fun v => v.2.map .iterated) := by
  have hpos : 0 < tc.size := Nat.lt_of_le_of_lt (Nat.zero_le _) k.isLt
  unfold writtenIn visitedBy takenBy
  by_cases hl : l = .worker k
  · rw [if_pos hl, if_pos hl, h]
    simp only
    rw [acts_step hpos hr h, List.drop_left, hl, due]
    cases (s.threads k).queue with
    | nil => rfl
    | cons fd rest =>
        rw [List.head?_cons, Option.bind_some, Option.toList_some, List.map_singleton, List.filterMap_cons]
        cases owner s.threads fd with
        | none => rfl
        | some id => rfl
  · rw [if_neg hl, if_neg hl]
    rfl

end Steps

section Runs

variable (S : SessionClass W σ) (init : σ)

/-- **A worker serves what is announced to it, in that order.** In every run of the pool: what it has taken and
    what is in its queue are what was announced to it; and what the sessions wrote down in its passes are the
    iterations of the objects that the descriptors it took led to, one for each that led to one. -/
theorem served_in_order (w : W) (ls : List (Label tc)) (s : State tc σ (Recorded W))
    (hrun : Transition.run (step S.recorded init) (start tc ⟨w, []⟩) ls = some s) (k : Fin tc.size) :
    (Transition.trace (step S.recorded init) (visitedBy k) (start tc ⟨w, []⟩) ls).map Prod.fst ++
        (s.threads k).queue = ls.flatMap (announcedTo k) ∧
      Transition.trace (step S.recorded init) (writtenIn k S init) (start tc ⟨w, []⟩) ls =
        (Transition.trace (step S.recorded init) (visitedBy k) (start tc ⟨w, []⟩) ls).filterMap
          (fun v => v.2.map .iterated) := by
  have hpos : 0 < tc.size := Nat.lt_of_le_of_lt (Nat.zero_le _) k.isLt
  have hrouted : ∀ (a : State tc σ (Recorded W)) l b, Routed a.threads →
      step S.recorded init a l = some b → Routed b.threads :=
    fun _ _ _ hr h => routed_step hpos hr h
  refine ⟨?_, ?_⟩
  · have htaken : Transition.trace (step S.recorded init) (takenBy k) (start tc ⟨w, []⟩) ls =
        (Transition.trace (step S.recorded init) (visitedBy k) (start tc ⟨w, []⟩) ls).map Prod.fst :=
      Transition.trace_hom (List.map Prod.fst) rfl (fun _ _ => List.map_append)
        (fun a l b hr h => ⟨hrouted a l b hr h, takenBy_eq k a l⟩) routed_create hrun
    rw [← htaken]
    exact Transition.run_trace (fun a : State tc σ (Recorded W) => (a.threads k).queue)
      (fun a l b hr h => ⟨hrouted a l b hr h, queue_step hr h k⟩) routed_create hrun
  · exact Transition.trace_hom (List.filterMap _) rfl (fun _ _ => List.filterMap_append)
      (fun a l b hr h => ⟨hrouted a l b hr h, writtenIn_eq hr h k⟩) routed_create hrun

/-- In `ms`, the pass of `k` after `n` passes of it is an iteration of the session object `id`. -/
def IteratedAfter (s : State tc σ (Recorded W)) (ms : List (Label tc)) (k : Fin tc.size) (n id : Nat) : Prop :=
  ∃ pre post u u', ms = pre ++ .worker k :: post ∧ pre.count (.worker k) = n ∧
    Transition.run (step S.recorded init) s pre = some u ∧ step S.recorded init u (.worker k) = some u' ∧
    u'.world.acts = u.world.acts ++ [.iterated id]

variable {S init}

/-- One step before. -/
theorem IteratedAfter.cons {s s' : State tc σ (Recorded W)} {ms : List (Label tc)} {k : Fin tc.size} {n id : Nat}
    {l : Label tc} (h : IteratedAfter S init s' ms k n id) (hl : step S.recorded init s l = some s') :
    IteratedAfter S init s (l :: ms) k (if l = .worker k then n + 1 else n) id := by
  obtain ⟨pre, post, u, u', rfl, hcount, hpre, hpass, hacts⟩ := h
  refine ⟨l :: pre, post, u, u', rfl, ?_, ?_, hpass, hacts⟩
  · rw [List.count_cons, hcount]
    by_cases hw : l = .worker k
    · simp [hw]
    · simp [hw]
  · rw [Transition.run_cons_of_some hl]
    exact hpre

/-- The entry with `before.length` entries before it, from any state. -/
theorem iteratedAfter_of_queue {k : Fin tc.size} {fd : SOCKET} {id : Nat} {ms : List (Label tc)} :
    ∀ {s t : State tc σ (Recorded W)} {before after : List SOCKET}, Routed s.threads →
      (s.threads k).queue = before ++ fd :: after → owner s.threads fd = some id →
      Transition.run (step S.recorded init) s ms = some t →
      .call (.addSession fd) ∉ ms → .call (.removeSession fd) ∉ ms →
      before.length < ms.count (.worker k) → IteratedAfter S init s ms k before.length id := by
  have hpos : 0 < tc.size := Nat.lt_of_le_of_lt (Nat.zero_le _) k.isLt
  induction ms with
  | nil =>
      intro s t before after _ _ _ _ _ _ hpasses
      exact absurd hpasses (Nat.not_lt_zero _)
  | cons l ms ih =>
      intro s t before after hr hq hid hrun hadd hremove hpasses
      obtain ⟨s', hl, hrest⟩ := Transition.run_cons_eq_some hrun
      rw [List.mem_cons, not_or] at hadd hremove
      have hr' := routed_step hpos hr hl
      have hid' : owner s'.threads fd = some id :=
        (owner_step hpos hr hl (Ne.symm hadd.1) (Ne.symm hremove.1)).trans hid
      -- a step that is not a pass of `k` leaves the entry where it is
      have hother : ∀ more, l ≠ .worker k → (s'.threads k).queue = (before ++ fd :: after) ++ more →
          IteratedAfter S init s (l :: ms) k before.length id := by
        intro more hne hq'
        rw [List.append_assoc, List.cons_append] at hq'
        rw [List.count_cons_of_ne hne] at hpasses
        have hlater := (ih hr' hq' hid' hrest hadd.2 hremove.2 hpasses).cons hl
        rwa [if_neg hne] at hlater
      cases before with
      | nil =>
          rcases queue_cons hr hl hq with ⟨rfl, _⟩ | ⟨hne, more, hq'⟩
          · refine ⟨[], ms, s, s', rfl, rfl, rfl, hl, ?_⟩
            rw [acts_step hpos hr hl, due, hq, List.nil_append, List.head?_cons, Option.bind_some, hid]
            rfl
          · exact hother more hne hq'
      | cons fd' before =>
          rcases queue_cons hr hl hq with ⟨rfl, hq'⟩ | ⟨hne, more, hq'⟩
          · rw [List.count_cons_self, List.length_cons, Nat.succ_lt_succ_iff] at hpasses
            have hlater := (ih hr' hq' hid' hrest hadd.2 hremove.2 hpasses).cons hl
            rwa [if_pos rfl] at hlater
          · exact hother more hne hq'

variable (S init)

/-- **An entry waits for as many passes as there are entries before it.** Whatever the event loop, the other
    workers and the sessions do: the pass that comes after as many passes as there are entries before it runs
    the `iteration()` of the session object the entry is for, as long as that is not removed before. -/
theorem served_in_turn (w : W) (ls ms : List (Label tc)) (s t : State tc σ (Recorded W)) (k : Fin tc.size)
    (hrun : Transition.run (step S.recorded init) (start tc ⟨w, []⟩) ls = some s)
    (before after : List SOCKET) (fd : SOCKET) (id : Nat)
    (hq : (s.threads k).queue = before ++ fd :: after) (hid : owner s.threads fd = some id)
    (hcont : Transition.run (step S.recorded init) s ms = some t)
    (hstays : .call (.addSession fd) ∉ ms ∧ .call (.removeSession fd) ∉ ms)
    (hpasses : before.length < ms.count (.worker k)) : IteratedAfter S init s ms k before.length id := by
  have hpos : 0 < tc.size := Nat.lt_of_le_of_lt (Nat.zero_le _) k.isLt
  have hr : Routed s.threads :=
    Transition.run_invariant (fun hs h => routed_step hpos hs h) routed_create hrun
  exact iteratedAfter_of_queue hr hq hid hcont hstays.1 hstays.2 hpasses

end Runs

/-! ### Two sessions of one worker -/

/-- Two clients of the same worker are announced, and the first of them leaves. -/
def firstLeaves : List (Label (.count 1)) :=
  [.call (.addSession 4), .call (.addSession 6), .call (.dataAvailable 4), .call (.dataAvailable 6),
    .call (.removeSession 4)]

/-- Two passes, and a third client between them. -/
def twoPasses : List (Label (.count 1)) :=
  [.worker ThreadCount.only, .call (.dataAvailable 8), .worker ThreadCount.only]

/-- The entry of the first client stays where it is and is taken without an iteration; that of the second is
    taken with one. -/
theorem served_in_order_first_leaves :
    ∃ s, Transition.run (step SessionClass.silent.recorded ()) (start (.count 1) ⟨(), []⟩)
        (firstLeaves ++ twoPasses) = some s ∧
      Transition.trace (step SessionClass.silent.recorded ()) (visitedBy ThreadCount.only)
        (start (.count 1) ⟨(), []⟩) (firstLeaves ++ twoPasses) = [(4, none), (6, some 1)] ∧
      (s.threads ThreadCount.only).queue = [8] ∧
      Transition.trace (step SessionClass.silent.recorded ()) (writtenIn ThreadCount.only SessionClass.silent ())
        (start (.count 1) ⟨(), []⟩) (firstLeaves ++ twoPasses) = [.iterated 1] :=
  ⟨_, rfl, rfl, rfl, (served_in_order SessionClass.silent () () (firstLeaves ++ twoPasses) _ rfl
    ThreadCount.only).2⟩

/-- The second client is served in the second pass, though a third one comes in between. -/
theorem served_in_turn_first_leaves :
    ∃ s t, Transition.run (step SessionClass.silent.recorded ()) (start (.count 1) ⟨(), []⟩) firstLeaves =
        some s ∧
      Transition.run (step SessionClass.silent.recorded ()) s twoPasses = some t ∧
      t.world.acts = [.destroyed 0, .iterated 1] ∧
      IteratedAfter SessionClass.silent () s twoPasses ThreadCount.only 1 1 :=
  ⟨_, _, rfl, rfl, rfl, served_in_turn SessionClass.silent () () firstLeaves twoPasses _ _ ThreadCount.only rfl
    [4] [] 6 1 rfl rfl rfl (by decide) (by decide)⟩

end Pool

end Neblina

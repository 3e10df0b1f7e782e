import Mathlib.Data.List.Infix
import Neblina.Thread.Shutdown

/-!
# `Thread.Ending` — the destructor of a `ThreadMulti` returns

`Thread.Shutdown` asks whether the worker uses a member that is gone. Here the question is whether the two
threads come to their ends, and what becomes of the queue. Each waits for the other: the destructor for
`mutex_` and for the end of the worker (`~jthread`), the worker for `mutex_`.

`left pc` is the number of steps the worker still takes when the stop is requested; from `6` on a `pop_front`
is among them. `Locked` is who holds `mutex_` where. Together: no deadlock, at most twenty steps, and all of
the queue but at most its first entry is never served (`destructor_ends`). This is about the schedules in which
no member ends too early: a lock that is gone orders nothing.
-/

namespace Neblina

variable {σ W : Type}

namespace Shutdown

/-- The steps the worker takes until it is done, if the stop is requested. -/
def left : WorkerPc → Nat
  | .check => 2
  | .lock => 11
  | .wait => 10
  | .waiting => 9
  | .reacquire => 8
  | .test => 7
  | .pop => 6
  | .lookup _ => 5
  | .iterate _ => 4
  | .unlock => 3
  | .finish => 1
  | .done => 0

/-- The worker holds `mutex_`. -/
def inside : WorkerPc → Bool
  | .wait => true
  | .test => true
  | .pop => true
  | .lookup _ => true
  | .iterate _ => true
  | .unlock => true
  | _ => false

/-- The destructor holds `mutex_`, by what is left of it. -/
def owned : Option (List Action) → Bool
  | some (.notify :: _) => true
  | some (.unlock :: _) => true
  | _ => false

/-- The `iteration()` the worker is in throws, and the exception leaves the thread's function; or it does not
    return. -/
def NoReturn (S : SessionClass W σ) (s : State σ W) : Prop :=
  ∃ fd, s.pc = .iterate fd ∧ ∃ e r, Thread.iterate S fd (s.thread, s.world) = .error e r

/-- Both threads are at their ends. -/
def Ended (s : State σ W) : Prop := s.pc = .done ∧ s.todo = some []

/-! ## The steps of the worker -/

/-- What a step of the worker does with `mutex_`, the queue and the sessions. A step that takes nothing from
    the queue and runs no session is nearer to the end, once the stop is requested. -/
inductive Worked (S : SessionClass W σ) (s : State σ W) : State σ W → Prop where
  | moved (pc' : WorkerPc) : inside pc' = inside s.pc → (pc' = .pop → s.thread.queue ≠ []) →
      (s.stop = true → left pc' < left s.pc) → Worked S s { s with pc := pc' }
  | took (pc' : WorkerPc) : s.holder = none → inside pc' = true → pc' ≠ .pop → left pc' < left s.pc →
      Worked S s { s with holder := some .worker, pc := pc' }
  | gave (pc' : WorkerPc) : inside s.pc = true → inside pc' = false → left pc' < left s.pc →
      Worked S s { s with holder := none, pc := pc' }
  | popped (fd : SOCKET) (rest : List SOCKET) : s.pc = .pop → s.thread.queue = fd :: rest →
      Worked S s { s with thread := { s.thread with queue := rest }, pc := .lookup fd }
  | iterated (fd : SOCKET) (r : Thread σ × W) : s.pc = .iterate fd →
      Thread.iterate S fd (s.thread, s.world) = .ok () r →
      Worked S s { s with thread := r.1, world := r.2, pc := .unlock }

section Steps

variable {order : List Member} {S : SessionClass W σ} {s s' : State σ W}

theorem worked_of_work (h : work S s = some s') : Worked S s s' := by
  unfold work at h
  cases hpc : s.pc with
  | check =>
      simp only [hpc, Option.some.injEq] at h
      subst h
      by_cases hstop : s.stop = true
      · rw [if_pos hstop]
        exact .moved .finish (by rw [hpc]; rfl) (by simp) (by rw [hpc]; simp [left])
      · rw [if_neg hstop]
        exact .moved .lock (by rw [hpc]; rfl) (by simp) (fun h => absurd h hstop)
  | lock =>
      simp only [hpc] at h
      split at h
      · next hfree =>
          cases h
          exact .took .wait hfree rfl (by simp) (by rw [hpc]; decide)
      · cases h
  | wait =>
      simp only [hpc, Option.some.injEq] at h
      subst h
      exact .gave .waiting (by rw [hpc]; rfl) rfl (by rw [hpc]; decide)
  | waiting =>
      simp only [hpc, Option.some.injEq] at h
      subst h
      exact .moved .reacquire (by rw [hpc]; rfl) (by simp) (by rw [hpc]; simp [left])
  | reacquire =>
      simp only [hpc] at h
      split at h
      · next hfree =>
          cases h
          exact .took .test hfree rfl (by simp) (by rw [hpc]; decide)
      · cases h
  | test =>
      simp only [hpc, Option.some.injEq] at h
      subst h
      by_cases hq : s.thread.queue = []
      · rw [if_pos hq]
        exact .moved .unlock (by rw [hpc]; rfl) (by simp) (by rw [hpc]; simp [left])
      · rw [if_neg hq]
        exact .moved .pop (by rw [hpc]; rfl) (fun _ => hq) (by rw [hpc]; simp [left])
  | pop =>
      simp only [hpc] at h
      split at h
      · cases h
      · next fd rest hq =>
          cases h
          exact .popped fd rest hpc hq
  | lookup fd =>
      simp only [hpc, Option.some.injEq] at h
      subst h
      cases (s.thread.sessions fd).isSome with
      | true => exact .moved (.iterate fd) (by rw [hpc]; rfl) (by simp) (by rw [hpc]; simp [left])
      | false => exact .moved .unlock (by rw [hpc]; rfl) (by simp) (by rw [hpc]; simp [left])
  | iterate fd =>
      simp only [hpc] at h
      split at h
      · next r hit =>
          cases h
          exact .iterated fd r hpc hit
      · cases h
  | unlock =>
      simp only [hpc, Option.some.injEq] at h
      subst h
      exact .gave .check (by rw [hpc]; rfl) rfl (by rw [hpc]; decide)
  | finish =>
      simp only [hpc, Option.some.injEq] at h
      subst h
      exact .moved .done (by rw [hpc]; rfl) (by simp) (by rw [hpc]; simp [left])
  | done =>
      simp only [hpc] at h
      cases h

/-- Once the stop is requested, every step of the worker brings it nearer to its end. -/
theorem Worked.left_lt (h : Worked S s s') (hstop : s.stop = true) : left s'.pc < left s.pc := by
  cases h with
  | moved pc' _ _ hlt => exact hlt hstop
  | took pc' _ _ _ hlt => exact hlt
  | gave pc' _ _ hlt => exact hlt
  | popped fd rest hpc _ =>
      rw [hpc]
      exact Nat.lt_succ_self 5
  | iterated fd r hpc _ =>
      rw [hpc]
      exact Nat.lt_succ_self 3

/-- A worker that is not done moves, unless `mutex_` is the destructor's or its session throws. -/
theorem work_enabled (hpop : s.pc = .pop → s.thread.queue ≠ [])
    (hfree : s.holder = some .worker → inside s.pc = true) (hnot : s.holder ≠ some .owner) (hdone : s.pc ≠ .done) :
    (work S s).isSome ∨ NoReturn S s := by
  have hnone : inside s.pc = false → s.holder = none := by
    intro hin
    cases hh : s.holder with
    | none => rfl
    | some p =>
        cases p with
        | owner => exact absurd hh hnot
        | worker => exact absurd (hfree hh) (by rw [hin]; simp)
  unfold work
  cases hpc : s.pc with
  | lock =>
      have hh := hnone (by rw [hpc]; rfl)
      exact Or.inl (by simp [hh])
  | reacquire =>
      have hh := hnone (by rw [hpc]; rfl)
      exact Or.inl (by simp [hh])
  | pop =>
      obtain ⟨fd, rest, hq⟩ := List.exists_cons_of_ne_nil (hpop hpc)
      exact Or.inl (by simp [hq])
  | iterate fd =>
      cases hit : Thread.iterate S fd (s.thread, s.world) with
      | ok a r => exact Or.inl (by simp [hit])
      | error e r => exact Or.inr ⟨fd, hpc, e, r, hit⟩
  | done => exact absurd hpc hdone
  | check => exact Or.inl rfl
  | wait => exact Or.inl rfl
  | waiting => exact Or.inl rfl
  | test => exact Or.inl rfl
  | lookup fd => exact Or.inl rfl
  | unlock => exact Or.inl rfl
  | finish => exact Or.inl rfl

/-- An iteration leaves the queue alone. -/
theorem queue_of_iterate {fd : SOCKET} {t : Thread σ} {w : W} {r : Thread σ × W}
    (h : Thread.iterate S fd (t, w) = .ok () r) : r.1.queue = t.queue := by
  unfold Thread.iterate at h
  split at h
  · cases h
    rfl
  · split at h
    · cases h
      rfl
    · cases h

/-! ## Who holds `mutex_` -/

/-- The actions that are left of the destructor, by the first of them. -/
theorem rest_cases {a : Action} {rest : List Action} (h : a :: rest <:+ (destructor order).tail) :
    (a = .sleep ∧ owned (some rest) = false) ∨ (a = .lock ∧ owned (some rest) = true) ∨
      (a = .notify ∧ owned (some rest) = true) ∨ (a = .unlock ∧ owned (some rest) = false) ∨
      (∃ m, a = .endOf m) ∧ owned (some rest) = false := by
  have hends : ∀ l, l <:+ order.reverse.map Action.endOf → owned (some l) = false := by
    intro l hl
    cases l with
    | nil => rfl
    | cons b l =>
        obtain ⟨m, _, rfl⟩ := List.mem_map.mp (hl.subset List.mem_cons_self)
        rfl
  have htail : (destructor order).tail =
      .sleep :: .lock :: .notify :: .unlock :: order.reverse.map Action.endOf := rfl
  rw [htail] at h
  rcases List.suffix_cons_iff.mp h with h | h
  · obtain ⟨rfl, rfl⟩ := List.cons.inj h
    exact Or.inl ⟨rfl, rfl⟩
  rcases List.suffix_cons_iff.mp h with h | h
  · obtain ⟨rfl, rfl⟩ := List.cons.inj h
    exact Or.inr (Or.inl ⟨rfl, rfl⟩)
  rcases List.suffix_cons_iff.mp h with h | h
  · obtain ⟨rfl, rfl⟩ := List.cons.inj h
    exact Or.inr (Or.inr (Or.inl ⟨rfl, rfl⟩))
  rcases List.suffix_cons_iff.mp h with h | h
  · obtain ⟨rfl, rfl⟩ := List.cons.inj h
    exact Or.inr (Or.inr (Or.inr (Or.inl ⟨rfl, hends _ (List.suffix_refl _)⟩)))
  · obtain ⟨m, _, rfl⟩ := List.mem_map.mp (h.subset List.mem_cons_self)
    exact Or.inr (Or.inr (Or.inr (Or.inr ⟨⟨m, rfl⟩, hends rest ((List.suffix_cons _ _).trans h)⟩)))

/-- Who holds `mutex_` is said by where the two threads are; the destructor goes through its actions, and is
    past the join only when the worker is done. -/
structure Locked (order : List Member) (s : State σ W) : Prop where
  stopped : s.todo ≠ none → s.stop = true
  rest    : ∀ l, s.todo = some l → l <:+ (destructor order).tail
  joins   : ∀ l, s.todo = some l → .endOf .thread ∈ l ∨ s.pc = .done
  worker  : s.holder = some .worker ↔ inside s.pc = true
  owner   : s.holder = some .owner ↔ owned s.todo = true
  pop     : s.pc = .pop → s.thread.queue ≠ []

theorem locked_start (w : W) : Locked order (start w : State σ W) where
  stopped := fun h => absurd rfl h
  rest := fun _ h => absurd h (by simp [start])
  joins := fun _ h => absurd h (by simp [start])
  worker := by simp [start, inside]
  owner := by simp [start, owned]
  pop := fun h => absurd h (by simp [start])

theorem Locked.worked (hs : Locked order s) (h : Worked S s s') (hdone : s.pc ≠ .done) :
    Locked order s' := by
  -- a worker that moves is not done, so the join is still to come
  have hjoins : ∀ l, s.todo = some l → .endOf .thread ∈ l :=
    fun l hl => (hs.joins l hl).resolve_right hdone
  cases h with
  | moved pc' hin hpop _ =>
      refine ⟨hs.stopped, hs.rest, ?_, ?_, hs.owner, hpop⟩
      · exact fun l hl => Or.inl (hjoins l hl)
      · exact hs.worker.trans (by rw [hin])
  | took pc' hfree hin hpop _ =>
      refine ⟨hs.stopped, hs.rest, ?_, ?_, ?_, fun h => absurd h hpop⟩
      · exact fun l hl => Or.inl (hjoins l hl)
      · exact ⟨fun _ => hin, fun _ => rfl⟩
      · -- `mutex_` was free, so the destructor is not between its `lock` and its `unlock`
        refine ⟨fun h => absurd h (by simp), ?_⟩
        intro howned
        exact absurd (hs.owner.mpr howned) (by rw [hfree]; simp)
  | gave pc' hin hout _ =>
      have hheld := hs.worker.mpr hin
      refine ⟨hs.stopped, hs.rest, ?_, ?_, ?_, ?_⟩
      · exact fun l hl => Or.inl (hjoins l hl)
      · exact ⟨fun h => absurd h (by simp), fun h => absurd (hout.symm.trans h) (by simp)⟩
      · refine ⟨fun h => absurd h (by simp), ?_⟩
        intro howned
        exact absurd (hheld.symm.trans (hs.owner.mpr howned)) (by simp)
      · rintro rfl
        exact absurd hout (by simp [inside])
  | popped fd rest hpc hq =>
      refine ⟨hs.stopped, hs.rest, ?_, ?_, hs.owner, fun h => absurd h (by simp)⟩
      · exact fun l hl => Or.inl (hjoins l hl)
      · exact hs.worker.trans (by rw [hpc]; rfl)
  | iterated fd r hpc _ =>
      refine ⟨hs.stopped, hs.rest, ?_, ?_, hs.owner, fun h => absurd h (by simp)⟩
      · exact fun l hl => Or.inl (hjoins l hl)
      · exact hs.worker.trans (by rw [hpc]; rfl)

theorem Locked.destroyed (hjoin : .thread ∈ order) (hs : Locked order s)
    (h : step order S s .destroy = some s') : Locked order s' := by
  rcases destroy_cases h with ⟨hnone, rfl⟩ | ⟨a, rest, t, htodo, hact, rfl⟩
  · have howner : s.holder ≠ some .owner := by
      intro hh
      exact absurd (hs.owner.mp hh) (by rw [hnone]; simp [owned])
    refine ⟨fun _ => rfl, ?_, ?_, hs.worker, ?_, hs.pop⟩
    · rintro l ⟨⟩
      exact List.suffix_refl _
    · rintro l ⟨⟩
      exact Or.inl (by simp [destructor, hjoin])
    · exact ⟨fun hh => absurd hh howner, fun hh => absurd hh (by simp [destructor, owned])⟩
  · have hsuffix := hs.rest _ htodo
    obtain ⟨hpc, hstop, hends⟩ := act_frame hact
    have hrest : ∀ l, some rest = some l → l <:+ (destructor order).tail := by
      rintro l ⟨⟩
      exact (List.suffix_cons a rest).trans hsuffix
    have hjoins : ∀ l, some rest = some l → .endOf .thread ∈ l ∨ s.pc = .done := by
      rintro l ⟨⟩
      rcases hs.joins _ htodo with hin | hdone
      · rcases List.mem_cons.mp hin with rfl | hin
        · -- the join itself
          rcases hends with ⟨m, hm, _, hdone⟩ | ⟨hno, _⟩
          · injection hm with hm
            exact Or.inr (hdone hm.symm)
          · exact absurd rfl (hno .thread)
        · exact Or.inl hin
      · exact Or.inr hdone
    have hstopped := hs.stopped (by rw [htodo]; simp)
    have howner := hs.owner
    rw [htodo] at howner
    rcases rest_cases hsuffix with ⟨rfl, ho⟩ | ⟨rfl, ho⟩ | ⟨rfl, ho⟩ | ⟨rfl, ho⟩ | ⟨⟨m, rfl⟩, ho⟩
    · cases hact
      refine ⟨fun _ => hstopped, hrest, hjoins, hs.worker, ?_, hs.pop⟩
      rw [ho]
      exact howner
    · simp only [act] at hact
      split at hact
      · next hfree =>
          cases hact
          refine ⟨fun _ => hstopped, hrest, hjoins, ?_, ?_, hs.pop⟩
          · refine ⟨fun hh => absurd hh (by simp), ?_⟩
            intro hin
            exact absurd (hs.worker.mpr hin) (by rw [hfree]; simp)
          · exact ⟨fun _ => ho, fun _ => rfl⟩
      · cases hact
    · cases hact
      refine ⟨fun _ => hstopped, hrest, hjoins, hs.worker, ?_, hs.pop⟩
      rw [ho]
      exact howner
    · cases hact
      have hheld : s.holder = some .owner := howner.mpr rfl
      refine ⟨fun _ => hstopped, hrest, hjoins, ?_, ?_, hs.pop⟩
      · refine ⟨fun hh => absurd hh (by simp), ?_⟩
        intro hin
        exact absurd (hheld.symm.trans (hs.worker.mpr hin)) (by simp)
      · rw [ho]
        simp
    · simp only [act] at hact
      split at hact
      · cases hact
      · cases hact
        refine ⟨fun _ => hstopped, hrest, hjoins, hs.worker, ?_, hs.pop⟩
        rw [ho]
        exact howner

/-- A call of the owner waits for `mutex_`. -/
theorem call_free {c : Call σ} (h : step order S s (.call c) = some s') : s.holder = none := by
  simp only [step] at h
  split at h
  · next hguard => exact hguard.2
  · cases h

theorem locked_step {l : Label σ} (hjoin : .thread ∈ order) (hs : Locked order s)
    (h : step order S s l = some s') : Locked order s' := by
  cases l with
  | call c =>
      obtain ⟨hnone, t, w, rfl⟩ := call_frame h
      refine ⟨hs.stopped, hs.rest, hs.joins, hs.worker, hs.owner, ?_⟩
      intro hpc
      have hheld := hs.worker.mpr (by rw [show s.pc = .pop from hpc]; rfl)
      exact absurd (hheld.symm.trans (call_free h)) (by simp)
  | worker =>
      refine hs.worked (worked_of_work h) ?_
      intro hdone
      have hstuck : work S s = none := by
        unfold work
        rw [hdone]
      exact absurd (hstuck.symm.trans h) (by simp)
  | destroy => exact hs.destroyed hjoin h

/-! ## The destructor's turn or the worker's -/

/-- **No deadlock**: until both threads are at their ends one of them can take a step, and one that ends no
    member the worker still uses. -/
theorem Locked.moves (hs : Locked order s) (hstarted : s.todo ≠ none) :
    Ended s ∨ NoReturn S s ∨ ∃ l, Clear s l ∧ (step order S s l).isSome := by
  obtain ⟨todo, htodo⟩ := Option.ne_none_iff_exists'.mp hstarted
  have hworker : s.holder ≠ some .owner → s.pc ≠ .done →
      NoReturn S s ∨ ∃ l, Clear s l ∧ (step order S s l).isSome := by
    intro howner hdone
    rcases work_enabled hs.pop hs.worker.mp howner hdone with hmove | hthrow
    · exact Or.inr ⟨.worker, trivial, hmove⟩
    · exact Or.inl hthrow
  cases todo with
  | nil =>
      rcases hs.joins [] htodo with h | h
      · exact absurd h List.not_mem_nil
      · exact Or.inl ⟨h, htodo⟩
  | cons a rest =>
      right
      have howner := hs.owner
      rw [htodo] at howner
      -- a step of the destructor that ends no member is in nobody's way
      have hbody : (∀ m, a ≠ .endOf m) → (act s a).isSome → ∃ l, Clear s l ∧ (step order S s l).isSome := by
        intro hno hact
        refine ⟨.destroy, ?_, ?_⟩
        · intro m hm
          unfold ending at hm
          rw [htodo] at hm
          split at hm
          · next m' _ hcons =>
              injection hcons with hcons
              exact absurd (List.cons.inj hcons).1 (hno m')
          · exact absurd hm (by simp)
        · simp only [step, htodo, Option.getD_some, Option.isSome_map]
          exact hact
      rcases rest_cases (hs.rest _ htodo) with ⟨rfl, _⟩ | ⟨rfl, _⟩ | ⟨rfl, _⟩ | ⟨rfl, _⟩ | ⟨⟨m, rfl⟩, _⟩
      · exact Or.inr (hbody (by simp) rfl)
      · have hnot : s.holder ≠ some .owner := fun hh => absurd (howner.mp hh) (by simp [owned])
        by_cases hfree : s.holder = none
        · exact Or.inr (hbody (by simp) (by simp [act, hfree]))
        · -- `mutex_` is the worker's, which is not done then
          apply hworker hnot
          intro hdone
          cases hh : s.holder with
          | none => exact hfree hh
          | some p =>
              cases p with
              | owner => exact hnot hh
              | worker => exact absurd (hs.worker.mp hh) (by rw [hdone]; simp [inside])
      · exact Or.inr (hbody (by simp) rfl)
      · exact Or.inr (hbody (by simp) rfl)
      · have hnot : s.holder ≠ some .owner := fun hh => absurd (howner.mp hh) (by simp [owned])
        by_cases hdone : s.pc = .done
        · refine Or.inr ⟨.destroy, ?_, ?_⟩
          · intro m' _
            rw [hdone]
            exact List.not_mem_nil
          · simp [step, htodo, act, hdone]
        · exact hworker hnot hdone

/-! ## Runs -/

/-- The queue is as it was, or the worker has taken the first entry and takes no other. -/
def Took (q : List SOCKET) (s : State σ W) : Prop :=
  s.thread.queue = q ∨ left s.pc < 6 ∧ ∃ fd, q = fd :: s.thread.queue

theorem Took.worked {q : List SOCKET} (ht : Took q s) (hstop : s.stop = true) (h : Worked S s s') :
    Took q s' := by
  have hlt := h.left_lt hstop
  have hkeep : s'.thread.queue = s.thread.queue → Took q s' := by
    intro hq
    unfold Took
    rw [hq]
    exact ht.imp_right (fun hleft => ⟨Nat.lt_trans hlt hleft.1, hleft.2⟩)
  cases h with
  | moved pc' _ _ _ => exact hkeep rfl
  | took pc' _ _ _ _ => exact hkeep rfl
  | gave pc' _ _ _ => exact hkeep rfl
  | iterated fd r _ hit => exact hkeep (queue_of_iterate hit)
  | popped fd rest hpc hq =>
      rcases ht with hsame | ⟨hleft, _⟩
      · exact Or.inr ⟨Nat.lt_succ_self 5, fd, by rw [← hsame, hq]⟩
      · rw [hpc] at hleft
        exact absurd hleft (by decide)

/-- The steps that are left of both threads. -/
def remaining (s : State σ W) : Nat := left s.pc + (s.todo.getD []).length

/-- The destructor has begun, when the queue was `q`. -/
def Began (order : List Member) (q : List SOCKET) (s : State σ W) : Prop :=
  Locked order s ∧ s.todo ≠ none ∧ Took q s

/-- **A step of either thread**, once the destructor has begun, is one less to take. -/
theorem began_step {q : List SOCKET} {l : Label σ} (hjoin : .thread ∈ order) (hs : Began order q s)
    (h : step order S s l = some s') : Began order q s' ∧ remaining s' + 1 ≤ remaining s := by
  obtain ⟨hlocked, hstarted, htook⟩ := hs
  have hlocked' := locked_step hjoin hlocked h
  cases l with
  | call c =>
      obtain ⟨hnone, _⟩ := call_frame h
      exact absurd hnone hstarted
  | worker =>
      have hw := worked_of_work (show work S s = some s' from h)
      have hstop := hlocked.stopped hstarted
      obtain ⟨_, _, htodo, _⟩ := work_frame (show work S s = some s' from h)
      have hlt := hw.left_lt hstop
      refine ⟨⟨hlocked', by rw [htodo]; exact hstarted, htook.worked hstop hw⟩, ?_⟩
      unfold remaining
      rw [htodo]
      omega
  | destroy =>
      rcases destroy_cases h with ⟨hnone, _⟩ | ⟨a, rest, t, htodo, hact, rfl⟩
      · exact absurd hnone hstarted
      · obtain ⟨hpc, _, _⟩ := act_frame hact
        have hthread : t.thread = s.thread := by
          cases a with
          | lock =>
              simp only [act] at hact
              split at hact <;> cases hact
              rfl
          | endOf m =>
              simp only [act] at hact
              split at hact <;> cases hact
              rfl
          | requestStop => cases hact; rfl
          | sleep => cases hact; rfl
          | notify => cases hact; rfl
          | unlock => cases hact; rfl
        refine ⟨⟨hlocked', by simp, ?_⟩, ?_⟩
        · unfold Took at htook ⊢
          rw [← hthread, ← hpc] at htook
          exact htook
        · unfold remaining
          rw [htodo]
          show left t.pc + rest.length + 1 ≤ left s.pc + (rest.length + 1)
          rw [hpc]
          exact Nat.le_refl _

end Steps

section Runs

variable (S : SessionClass W σ) (w : W)

theorem left_le (pc : WorkerPc) : left pc ≤ 11 := by
  cases pc <;> simp [left]

/-- **The destruction of a `ThreadMulti` ends**, from every state in which it starts and under every schedule
    that ends no member the worker still uses: after at most twenty steps of the two threads both are at
    their ends, or the session the worker runs throws or does not return. Until then one of them can move, and
    again without ending a member too early. Of what was in the queue at most the first entry is served, and
    no step is on a member that is gone. -/
theorem destructor_ends {pre post : List (Label σ)} {s t : State σ W}
    (hpre : Transition.run (step declared S) (start w) pre = some s) (hstarted : s.todo ≠ none)
    (hrun : Transition.run (step declared S) s post = some t)
    (hclear : Transition.AllSteps (step declared S) Clear (start w) (pre ++ post)) :
    post.length ≤ 20 ∧ (Ended t ∨ NoReturn S t ∨ ∃ l, Clear t l ∧ (step declared S t l).isSome) ∧
      (t.thread.queue = s.thread.queue ∨ ∃ fd, s.thread.queue = fd :: t.thread.queue) ∧
      Transition.AllSteps (step declared S) Alive (start w) (pre ++ post) := by
  have hjoin : Member.thread ∈ declared := by decide
  have hlocked : Locked declared s :=
    Transition.run_invariant (fun hs h => locked_step hjoin hs h) (locked_start w) hpre
  have hbegan : Began declared s.thread.queue s := ⟨hlocked, hstarted, Or.inl rfl⟩
  have hsteps : Began declared s.thread.queue t ∧ remaining t + post.countP (fun _ => true) ≤ remaining s :=
    Transition.run_budget remaining (fun _ => true) (fun _ _ _ hs _ h => began_step hjoin hs h) hbegan
      (Transition.AllSteps.of_forall (fun _ _ _ => trivial)) hrun
  obtain ⟨⟨hlocked', hstarted', htook⟩, hlength⟩ := hsteps
  refine ⟨?_, hlocked'.moves hstarted', htook.imp_right And.right, alive_of_clear_in declared S w _ hclear⟩
  obtain ⟨todo, htodo⟩ := Option.ne_none_iff_exists'.mp hstarted
  have hpc : left s.pc ≤ 11 := left_le s.pc
  have htodos : todo.length ≤ 9 := (hlocked.rest todo htodo).length_le
  have hlen : post.length ≤ left s.pc + todo.length := by
    simp only [remaining, htodo, Option.getD_some, List.countP_true] at hlength
    omega
  omega

end Runs

/-- Two entries are queued, and the worker has passed its test when the destructor begins. -/
def twoQueued : List (Label Unit) :=
  [.call (.addSession ⟨⟨3, 0⟩, ()⟩), .call (.dataAvailable 3), .call (.dataAvailable 4), .worker, .destroy]

/-- The worker goes first. -/
def workerFirst : List (Label Unit) := List.replicate 11 .worker ++ List.replicate 9 .destroy

/-- After `twoQueued` and `workerFirst` the first entry has been served, the second is lost, and all twenty
    steps are taken. -/
theorem destructor_ends_two_queued :
    ∃ s t, Transition.run (step declared SessionClass.silent) (start ()) twoQueued = some s ∧
      Transition.run (step declared SessionClass.silent) s workerFirst = some t ∧
      s.thread.queue = [3, 4] ∧ t.thread.queue = [4] ∧ Ended t ∧ workerFirst.length = 20 ∧
      Transition.AllSteps (step declared SessionClass.silent) Alive (start ()) (twoQueued ++ workerFirst) := by
  refine ⟨_, _, rfl, rfl, rfl, rfl, ⟨rfl, rfl⟩, rfl, ?_⟩
  have hpre : Transition.run (step declared SessionClass.silent) (start ()) twoQueued = _ := rfl
  have hends := destructor_ends SessionClass.silent () hpre (by simp)
    (show Transition.run (step declared SessionClass.silent) _ workerFirst = _ from rfl) (by decide)
  exact hends.2.2.2

end Shutdown

end Neblina

import Neblina.Lib.Transition
import Neblina.Thread.Thread

/-!
# `Thread.Shutdown` — the end of a `ThreadMulti`

The destructor of `ThreadMulti` and its worker, step by step. The members end in the reverse order of their
declaration, and `thread_`, which joins the worker, is declared first: `mutex_`, `queue_` and `cond_` are
gone before anybody waits for the worker. The 15 ms of sleep order nothing.

`ahead pc` are the members the worker still uses between `pc` and its next test for the stop request. If
each member ends only when it is not `ahead` of the worker, the worker never uses a dead one
(`alive_of_clear`). Had `thread_` been declared last, no condition would be needed
(`alive_of_joined_first`). `pass_of_work` ties these steps to the pass `Thread.Thread` models.
-/

namespace Neblina

variable {σ W : Type}

namespace Shutdown

/-- The members of `ThreadMulti`. -/
inductive Member where
  | thread
  | mutex
  | queue
  | cond
  | finished
  deriving DecidableEq, Repr

/-- The members in the order of `threadmulti.hh`. -/
def declared : List Member := [.thread, .mutex, .queue, .cond, .finished]

/-- Where the worker stands, before the step of this name. -/
inductive WorkerPc where
  /-- `while (!st.stop_requested())` -/
  | check
  /-- `std::unique_lock lock(mutex_)` -/
  | lock
  /-- `cond_.wait_for(lock, 10ms)`: the call, which releases `mutex_` -/
  | wait
  /-- in `wait_for`, until a notification, the timeout or a spurious wake-up -/
  | waiting
  /-- in `wait_for`, taking `mutex_` again -/
  | reacquire
  /-- `queue_.empty()` -/
  | test
  /-- `queue_.front()` and `queue_.pop_front()` -/
  | pop
  /-- `sessions_.find(fd)` -/
  | lookup (fd : SOCKET)
  /-- `it->second->iteration()` -/
  | iterate (fd : SOCKET)
  /-- the end of the scope of `lock` -/
  | unlock
  /-- `finished_ = true` -/
  | finish
  | done
  deriving DecidableEq, Repr

/-- The steps of the destructor: its body, then the ends of the members. -/
inductive Action where
  | requestStop
  | sleep
  | lock
  | notify
  | unlock
  | endOf (m : Member)
  deriving DecidableEq, Repr

/-- `~ThreadMulti` of a class with the members declared in this order. -/
def destructor (order : List Member) : List Action :=
  [.requestStop, .sleep, .lock, .notify, .unlock] ++ order.reverse.map .endOf

inductive Party where
  | worker
  | owner
  deriving DecidableEq, Repr

/-- The two threads and what they share. `todo` is what is left of the destructor, once it has started. -/
structure State (σ W : Type) where
  pc     : WorkerPc
  todo   : Option (List Action)
  holder : Option Party
  stop   : Bool
  alive  : Member → Bool
  thread : Thread σ
  world  : W

/-- After the constructor. -/
def start (w : W) : State σ W := ⟨.check, none, none, false, fun _ => true, Thread.empty, w⟩

/-- The calls of the owner while the object lives. -/
inductive Call (σ : Type) where
  | addSession (s : Session σ)
  | removeSession (fd : SOCKET)
  | dataAvailable (fd : SOCKET)

def Call.run (S : SessionClass W σ) : Call σ → EStateM Abrupt (Thread σ × W) Unit
  | .addSession s => ThreadMulti.addSession S s
  | .removeSession fd => ThreadMulti.removeSession S fd
  | .dataAvailable fd => ThreadMulti.dataAvailable fd

inductive Label (σ : Type) where
  | call (c : Call σ)
  | destroy
  | worker

/-- A step of the destructor. A `notify_one` makes no difference: the worker may wake up at any time. -/
def act (s : State σ W) : Action → Option (State σ W)
  | .requestStop => some { s with stop := true }
  | .sleep => some s
  | .lock => if s.holder = none then some { s with holder := some .owner } else none
  | .notify => some s
  | .unlock => some { s with holder := none }
  | .endOf m =>
      -- `~jthread` joins
      if m = .thread ∧ s.pc ≠ .done then none
      else some { s with alive := Function.update s.alive m false }

/-- A step of the worker. A member that is dead is used as if it lived. -/
def work (S : SessionClass W σ) (s : State σ W) : Option (State σ W) :=
  match s.pc with
  | .check => some { s with pc := if s.stop then .finish else .lock }
  | .lock => if s.holder = none then some { s with holder := some .worker, pc := .wait } else none
  | .wait => some { s with holder := none, pc := .waiting }
  | .waiting => some { s with pc := .reacquire }
  | .reacquire => if s.holder = none then some { s with holder := some .worker, pc := .test } else none
  | .test => some { s with pc := if s.thread.queue = [] then .unlock else .pop }
  | .pop =>
      match s.thread.queue with
      | [] => none
      | fd :: rest => some { s with thread := { s.thread with queue := rest }, pc := .lookup fd }
  | .lookup fd => some { s with pc := if (s.thread.sessions fd).isSome then .iterate fd else .unlock }
  | .iterate fd =>
      match Thread.iterate S fd (s.thread, s.world) with
      | .ok _ r => some { s with thread := r.1, world := r.2, pc := .unlock }
      | .error _ _ => none
  | .unlock => some { s with holder := none, pc := .check }
  | .finish => some { s with pc := .done }
  | .done => none

/-- One step of the object's last days. -/
def step (order : List Member) (S : SessionClass W σ) (s : State σ W) : Label σ → Option (State σ W)
  | .call c =>
      if s.todo.isNone ∧ s.holder = none then
        match c.run S (s.thread, s.world) with
        | .ok _ r => some { s with thread := r.1, world := r.2 }
        | .error _ _ => none
      else none
  | .destroy =>
      match s.todo.getD (destructor order) with
      | [] => none
      | a :: rest => (act s a).map (fun s' => { s' with todo := some rest })
  | .worker => work S s

/-! ## What the worker uses -/

/-- The members the worker's next step is on. (The stop token has its state in the heap.) -/
def touches : WorkerPc → List Member
  | .check => []
  | .lock => [.mutex]
  | .wait => [.cond, .mutex]
  | .waiting => [.cond]
  | .reacquire => [.mutex]
  | .test => [.queue]
  | .pop => [.queue]
  | .lookup _ => []
  | .iterate _ => []
  | .unlock => [.mutex]
  | .finish => [.finished]
  | .done => []

/-- `mutex_`, `cond_` and `queue_`, as far as the worker uses them before it tests for the stop request
    again. -/
def ahead : WorkerPc → List Member
  | .check => []
  | .lock => [.mutex, .cond, .queue]
  | .wait => [.mutex, .cond, .queue]
  | .waiting => [.mutex, .cond, .queue]
  | .reacquire => [.mutex, .queue]
  | .test => [.mutex, .queue]
  | .pop => [.mutex, .queue]
  | .lookup _ => [.mutex]
  | .iterate _ => [.mutex]
  | .unlock => [.mutex]
  | .finish => []
  | .done => []

/-- **The worker takes no step on a dead member** (`mutex_`, `cond_`, `queue_`). -/
def Alive (s : State σ W) : Label σ → Prop
  | .worker => ∀ m ∈ touches s.pc, m ≠ .finished → s.alive m = true
  | _ => True

/-- The member whose life the next step of the destructor ends. -/
def ending (s : State σ W) : Option Member :=
  match s.todo with
  | some (.endOf m :: _) => some m
  | _ => none

/-- No member ends that the worker uses before its next test for the stop request. -/
def Clear (s : State σ W) : Label σ → Prop
  | .destroy => ∀ m ∈ ending s, m ∉ ahead s.pc
  | _ => True

instance (s : State σ W) (l : Label σ) : Decidable (Alive s l) :=
  match l with
  | .worker => inferInstanceAs (Decidable (∀ m ∈ touches s.pc, _))
  | .call _ => isTrue trivial
  | .destroy => isTrue trivial

instance (s : State σ W) (l : Label σ) : Decidable (Clear s l) :=
  match l with
  | .destroy => inferInstanceAs (Decidable (∀ m ∈ ending s, m ∉ ahead s.pc))
  | .call _ => isTrue trivial
  | .worker => isTrue trivial

/-! ## The steps -/

section Steps

variable {order : List Member} {S : SessionClass W σ} {s s' : State σ W}

/-- **A step of the worker** leaves the members and the destructor alone, and once the stop is requested
    nothing new comes ahead. -/
theorem work_frame (h : work S s = some s') :
    s'.alive = s.alive ∧ s'.stop = s.stop ∧ s'.todo = s.todo ∧
      (s.stop = true → ∀ m ∈ ahead s'.pc, m ∈ ahead s.pc) := by
  unfold work at h
  cases hpc : s.pc with
  | check =>
      simp only [hpc, Option.some.injEq] at h
      subst h
      refine ⟨rfl, rfl, rfl, ?_⟩
      intro hstop m hm
      rw [if_pos hstop] at hm
      exact hm
  | lock =>
      simp only [hpc] at h
      split at h
      · cases h
        exact ⟨rfl, rfl, rfl, fun _ m hm => hm⟩
      · cases h
  | wait =>
      simp only [hpc, Option.some.injEq] at h
      subst h
      exact ⟨rfl, rfl, rfl, fun _ m hm => hm⟩
  | waiting =>
      simp only [hpc, Option.some.injEq] at h
      subst h
      refine ⟨rfl, rfl, rfl, ?_⟩
      intro _ m hm
      rcases List.mem_cons.mp hm with rfl | hm
      · exact List.mem_cons_self
      · exact List.mem_cons_of_mem _ (List.mem_cons_of_mem _ hm)
  | reacquire =>
      simp only [hpc] at h
      split at h
      · cases h
        exact ⟨rfl, rfl, rfl, fun _ m hm => hm⟩
      · cases h
  | test =>
      simp only [hpc, Option.some.injEq] at h
      subst h
      refine ⟨rfl, rfl, rfl, ?_⟩
      intro _ m hm
      split at hm
      · exact List.mem_cons.mpr (Or.inl (List.mem_singleton.mp hm))
      · exact hm
  | pop =>
      simp only [hpc] at h
      split at h
      · cases h
      · cases h
        refine ⟨rfl, rfl, rfl, ?_⟩
        intro _ m hm
        exact List.mem_cons.mpr (Or.inl (List.mem_singleton.mp hm))
  | lookup fd =>
      simp only [hpc, Option.some.injEq] at h
      subst h
      refine ⟨rfl, rfl, rfl, ?_⟩
      intro _ m hm
      split at hm
      · exact hm
      · exact hm
  | iterate fd =>
      simp only [hpc] at h
      split at h
      · cases h
        exact ⟨rfl, rfl, rfl, fun _ m hm => hm⟩
      · cases h
  | unlock =>
      simp only [hpc, Option.some.injEq] at h
      subst h
      exact ⟨rfl, rfl, rfl, fun _ m hm => absurd hm List.not_mem_nil⟩
  | finish =>
      simp only [hpc, Option.some.injEq] at h
      subst h
      exact ⟨rfl, rfl, rfl, fun _ m hm => hm⟩
  | done =>
      simp only [hpc] at h
      cases h

/-- The step of the worker is on a member that is ahead of it. -/
theorem mem_ahead {pc : WorkerPc} {m : Member} (h : m ∈ touches pc) (hm : m ≠ .finished) : m ∈ ahead pc := by
  cases pc <;> cases m <;> simp_all [touches, ahead]

/-- **A step of the destructor**: the request to stop, or the next action that is left. -/
theorem destroy_cases (h : step order S s .destroy = some s') :
    (s.todo = none ∧ s' = { s with stop := true, todo := some (destructor order).tail }) ∨
    ∃ a rest t, s.todo = some (a :: rest) ∧ act s a = some t ∧ s' = { t with todo := some rest } := by
  simp only [step] at h
  cases htodo : s.todo with
  | none =>
      simp only [htodo, Option.getD_none, destructor, List.cons_append, act, Option.map_some,
        Option.some.injEq] at h
      exact Or.inl ⟨rfl, h.symm⟩
  | some l =>
      cases l with
      | nil =>
          simp only [htodo, Option.getD_some] at h
          cases h
      | cons a rest =>
          simp only [htodo, Option.getD_some] at h
          obtain ⟨t, ht, rfl⟩ := Option.map_eq_some_iff.mp h
          exact Or.inr ⟨a, rest, t, rfl, ht, rfl⟩

/-- An action of the destructor leaves the worker where it is; only the end of a member ends one. -/
theorem act_frame {a : Action} (h : act s a = some s') :
    s'.pc = s.pc ∧ (s.stop = true → s'.stop = true) ∧
      ((∃ m, a = .endOf m ∧ s'.alive = Function.update s.alive m false ∧ (m = .thread → s.pc = .done)) ∨
        ((∀ m, a ≠ .endOf m) ∧ s'.alive = s.alive)) := by
  cases a with
  | requestStop =>
      cases h
      exact ⟨rfl, fun _ => rfl, Or.inr ⟨by simp, rfl⟩⟩
  | sleep =>
      cases h
      exact ⟨rfl, fun hs => hs, Or.inr ⟨by simp, rfl⟩⟩
  | lock =>
      simp only [act] at h
      split at h
      · cases h
        exact ⟨rfl, fun hs => hs, Or.inr ⟨by simp, rfl⟩⟩
      · cases h
  | notify =>
      cases h
      exact ⟨rfl, fun hs => hs, Or.inr ⟨by simp, rfl⟩⟩
  | unlock =>
      cases h
      exact ⟨rfl, fun hs => hs, Or.inr ⟨by simp, rfl⟩⟩
  | endOf m =>
      simp only [act] at h
      split at h
      · cases h
      · next hjoin =>
          cases h
          refine ⟨rfl, fun hs => hs, Or.inl ⟨m, rfl, rfl, ?_⟩⟩
          intro hm
          by_cases hpc : s.pc = .done
          · exact hpc
          · exact absurd ⟨hm, hpc⟩ hjoin

/-- A call of the owner changes the sessions and the queue only, and comes before the destructor. -/
theorem call_frame {c : Call σ} (h : step order S s (.call c) = some s') :
    s.todo = none ∧ ∃ t w, s' = { s with thread := t, world := w } := by
  simp only [step] at h
  split at h
  · next hguard =>
      split at h
      · next r _ =>
          cases h
          exact ⟨Option.isNone_iff_eq_none.mp hguard.1, r.1, r.2, rfl⟩
      · cases h
  · cases h

/-! ## A pass of the worker -/

/-- **The steps from the return of `wait_for` to the next test are one pass** of the worker, on the same
    sessions, queue and outside. -/
theorem pass_of_work {r : Thread σ × W} (hpc : s.pc = .reacquire) (hfree : s.holder = none)
    (h : ThreadMulti.pass S (s.thread, s.world) = .ok () r) :
    ∃ n, Transition.run (step order S) s (List.replicate n .worker) =
      some { s with pc := .check, thread := r.1, world := r.2 } := by
  obtain ⟨pc, todo, holder, stop, alive, thread, world⟩ := s
  simp only at hpc hfree h
  subst hpc hfree
  unfold ThreadMulti.pass at h
  cases hq : thread.queue with
  | nil =>
      simp only [hq] at h
      cases h
      exact ⟨3, by simp [Transition.run, step, work, List.replicate, hq]⟩
  | cons fd rest =>
      simp only [hq] at h
      cases hx : thread.sessions fd with
      | none =>
          simp only [Thread.iterate, hx] at h
          cases h
          exact ⟨5, by simp [Transition.run, step, work, List.replicate, hq, hx]⟩
      | some x =>
          refine ⟨6, ?_⟩
          have hit : Thread.iterate S fd ({ thread with queue := rest }, world) = .ok () r := h
          simp [Transition.run, step, work, List.replicate, hq, hx, hit]

/-! ## The invariant -/

/-- Members end after the stop request only, and only when they are not ahead of the worker. -/
structure Inv (s : State σ W) : Prop where
  stopped : s.todo ≠ none → s.stop = true
  dead    : ∀ m, s.alive m = false → s.todo ≠ none ∧ m ∉ ahead s.pc

theorem inv_start (w : W) : Inv (start w : State σ W) := by
  refine ⟨fun h => absurd rfl h, ?_⟩
  intro m h
  exact absurd h (by simp [start])

/-- **A step that ends no member too early keeps the invariant.** -/
theorem inv_step {l : Label σ} (hs : Inv s) (hclear : Clear s l) (h : step order S s l = some s') :
    Inv s' := by
  cases l with
  | call c =>
      obtain ⟨_, t, w, rfl⟩ := call_frame h
      exact ⟨hs.stopped, hs.dead⟩
  | worker =>
      obtain ⟨halive, hstop, htodo, hahead⟩ := work_frame h
      refine ⟨?_, ?_⟩
      · rw [htodo, hstop]
        exact hs.stopped
      · intro m hm
        rw [halive] at hm
        obtain ⟨hstarted, hnot⟩ := hs.dead m hm
        rw [htodo]
        exact ⟨hstarted, fun hin => hnot (hahead (hs.stopped hstarted) m hin)⟩
  | destroy =>
      rcases destroy_cases h with ⟨_, rfl⟩ | ⟨a, rest, t, htodo, hact, rfl⟩
      · refine ⟨fun _ => rfl, ?_⟩
        intro m hm
        exact ⟨by simp, (hs.dead m hm).2⟩
      · obtain ⟨hpc, hstop, halive⟩ := act_frame hact
        refine ⟨fun _ => hstop (hs.stopped (by rw [htodo]; simp)), ?_⟩
        intro m hm
        refine ⟨by simp, ?_⟩
        show m ∉ ahead t.pc
        rw [hpc]
        rcases halive with ⟨m', rfl, halive, _⟩ | ⟨_, halive⟩
        · change t.alive m = false at hm
          rw [halive] at hm
          by_cases hmm : m = m'
          · -- the member that ends now
            apply hclear m
            unfold ending
            rw [htodo, hmm]
            exact Option.mem_some_self _
          · rw [Function.update_of_ne hmm] at hm
            exact (hs.dead m hm).2
        · change t.alive m = false at hm
          rw [halive] at hm
          exact (hs.dead m hm).2

theorem alive_of_inv {l : Label σ} (hs : Inv s) : Alive s l := by
  cases l with
  | call c => trivial
  | destroy => trivial
  | worker =>
      intro m hm hne
      cases halive : s.alive m with
      | true => rfl
      | false => exact absurd (mem_ahead hm hne) (hs.dead m halive).2

end Steps

/-! ## Runs -/

section Runs

variable (order : List Member) (S : SessionClass W σ) (w : W) (ls : List (Label σ))

/-- The same for every order of declaration. -/
theorem alive_of_clear_in (hclear : Transition.AllSteps (step order S) Clear (start w) ls) :
    Transition.AllSteps (step order S) Alive (start w) ls :=
  Transition.AllSteps.of_invariant (fun hs hc h => inv_step hs hc h) (fun hs _ => alive_of_inv hs)
    (inv_start w) hclear

/-- **The worker uses no dead member, as long as no member ends that is ahead of it.** For every state of the
    worker and its queue at which the destruction starts, and every interleaving of the two. -/
theorem alive_of_clear (hclear : Transition.AllSteps (step declared S) Clear (start w) ls) :
    Transition.AllSteps (step declared S) Alive (start w) ls :=
  alive_of_clear_in declared S w ls hclear

end Runs

/-! ## A class that joins first -/

section Joined

variable {order : List Member} {S : SessionClass W σ} {s s' : State σ W}

/-- Once the destructor has started, the join is the first end that is left, or the worker is done. -/
def Joined (s : State σ W) : Prop :=
  ∀ l, s.todo = some l →
    (∃ body ends, l = body ++ .endOf .thread :: ends ∧ ∀ a ∈ body, ∀ m, a ≠ .endOf m) ∨ s.pc = .done

theorem joined_step {l : Label σ} (hs : Joined s) (h : step (order ++ [.thread]) S s l = some s') :
    Joined s' := by
  cases l with
  | call c =>
      obtain ⟨hnone, t, w, rfl⟩ := call_frame h
      intro l hl
      exact hs l hl
  | worker =>
      obtain ⟨_, _, htodo, _⟩ := work_frame h
      intro l hl
      rw [htodo] at hl
      rcases hs l hl with hleft | hdone
      · exact Or.inl hleft
      · -- a worker that is done takes no step
        have hstuck : work S s = none := by
          unfold work
          rw [hdone]
        exact absurd (hstuck.symm.trans h) (by simp)
  | destroy =>
      rcases destroy_cases h with ⟨_, rfl⟩ | ⟨a, rest, t, htodo, hact, rfl⟩
      · intro l hl
        refine Or.inl ⟨[.sleep, .lock, .notify, .unlock], order.reverse.map .endOf, ?_, ?_⟩
        · rw [← Option.some.inj hl]
          simp [destructor]
        · intro a ha m
          rintro rfl
          exact absurd ha (by simp)
      · obtain ⟨hpc, _, halive⟩ := act_frame hact
        intro l hl
        rw [← Option.some.inj hl]
        rcases hs _ htodo with ⟨body, ends, hsplit, hbody⟩ | hdone
        · cases body with
          | nil =>
              obtain ⟨rfl, rfl⟩ := List.cons.inj hsplit
              rcases halive with ⟨m, hm, _, hjoin⟩ | ⟨hno, _⟩
              · injection hm with hm
                exact Or.inr (hpc.trans (hjoin hm.symm))
              · exact absurd rfl (hno .thread)
          | cons b body =>
              obtain ⟨rfl, rfl⟩ := List.cons.inj hsplit
              exact Or.inl ⟨body, ends, rfl, fun a ha => hbody a (List.mem_cons_of_mem _ ha)⟩
        · exact Or.inr (hpc.trans hdone)

theorem clear_of_joined {l : Label σ} (hs : Joined s) : Clear s l := by
  cases l with
  | call c => trivial
  | worker => trivial
  | destroy =>
      intro m hm
      unfold ending at hm
      split at hm
      · next m' rest htodo =>
          cases hm
          rcases hs _ htodo with ⟨body, ends, hsplit, hbody⟩ | hdone
          · cases body with
            | nil =>
                obtain ⟨hm, _⟩ := List.cons.inj hsplit
                injection hm with hm
                rw [hm]
                cases s.pc <;> simp [ahead]
            | cons b body =>
                obtain ⟨rfl, _⟩ := List.cons.inj hsplit
                exact absurd rfl (hbody _ List.mem_cons_self m)
          · rw [hdone]
            exact List.not_mem_nil
      · exact absurd hm (by simp)

/-- **With `thread_` declared last the worker never uses a dead member**, in whatever order the others are
    declared and whatever the schedule. -/
theorem alive_of_joined_first (order : List Member) (S : SessionClass W σ) (w : W) (ls : List (Label σ)) :
    Transition.AllSteps (step (order ++ [.thread]) S) Alive (start w) ls := by
  have hfree : Transition.AllSteps (step (order ++ [.thread]) S) (fun _ _ => True) (start w) ls :=
    Transition.AllSteps.of_forall (fun _ _ _ => trivial)
  apply alive_of_clear_in
  refine Transition.AllSteps.of_invariant (fun hs _ h => joined_step hs h) (fun hs _ => clear_of_joined hs) ?_
    hfree
  intro l hl
  exact absurd hl (by simp [start])

end Joined

/-! ### A worker in `wait_for` -/

/-- The worker sees the stop request before any member ends. -/
def stoppedInTime : List (Label Unit) :=
  [.destroy, .worker, .worker] ++ List.replicate 9 .destroy

/-- The worker is in `wait_for` when `cond_` ends. -/
def caughtWaiting : List (Label Unit) :=
  [.worker, .worker, .worker] ++ List.replicate 7 .destroy

/-- In `stoppedInTime` all members end, and the worker has used none of them after its end. -/
theorem alive_of_clear_stopped_in_time :
    Transition.AllSteps (step declared SessionClass.silent) Alive (start ()) stoppedInTime ∧
    (Transition.run (step declared SessionClass.silent) (start ()) stoppedInTime).map (fun s => (s.pc, s.todo)) =
      some (.done, some []) :=
  ⟨alive_of_clear SessionClass.silent () stoppedInTime (by decide), by decide⟩

/-- **The worker wakes up on a dead condition variable.** In `caughtWaiting` the destructor has run up to the
    end of `cond_` while the worker is in `wait_for`, and the worker's next step is possible. -/
theorem not_alive_caught_waiting :
    ¬ Transition.AllSteps (step declared SessionClass.silent) Alive (start ()) (caughtWaiting ++ [.worker]) ∧
    (Transition.run (step declared SessionClass.silent) (start ()) (caughtWaiting ++ [.worker])).isSome = true :=
  ⟨by decide, by decide⟩

end Shutdown

end Neblina

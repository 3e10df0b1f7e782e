import Mathlib.Data.List.OfFn
import Neblina.Thread.Routing

/-!
# `Thread.Vector` — `threads_` as the vector the constructor fills

`Thread.ThreadManager` takes the threads as a function on the indices below `ThreadCount.size`, so that an
index is always good. Here `threads_` is the vector itself: the loop of the constructor pushes the threads,
every call computes `fd % threads_.size()` and hands the result to `threads_.at`, and either of the two can
go wrong. `run_ofState` says that with at least one thread this is the same pool. `routing_defined_iff`
says when nothing goes wrong: the count is `Threads::Single` or an `int` of at least one. Nothing checks
that: `Server`, `TCPServer` and `SSLServer` pass `thread_count` on as it is.
-/

namespace Neblina

open ThreadManager (index)

/-- How `threads_.at(fd % threads_.size())` can go wrong. -/
inductive Misroute where
  /-- `fd % 0`. -/
  | moduloZero
  /-- `threads_.at(index)` with `index ≥ size`. -/
  | outOfRange (index size : Nat)
  deriving DecidableEq, Repr

/-- What a `std::unique_ptr<Thread>` of `threads_` points to: an object of one of the two classes. -/
structure ThreadObject (σ : Type) where
  kind   : ThreadKind
  thread : Thread σ

namespace ThreadVector

variable {σ W : Type}

/-! ## The constructor -/

/-- `for (; i < *n; ++i) threads_.push_back(std::make_unique<ThreadMulti>());` -/
def pushThreads (n i : Int) (threads : List (ThreadObject σ)) : List (ThreadObject σ) :=
  if i < n then pushThreads n (i + 1) (threads ++ [⟨.multi, Thread.empty⟩]) else threads
termination_by (n - i).toNat
decreasing_by omega

/-- `ThreadManager::ThreadManager`: `threads_` when it returns. -/
def construct : ThreadCount → List (ThreadObject σ)
  | .count n => pushThreads n 0 []
  | .single => [⟨.single, Thread.empty⟩]

/-! ## The calls -/

/-- `fd % threads_.size()`, both sides as `size_t`. -/
def modSize (fd : SOCKET) (size : Nat) : Except Misroute Nat :=
  if size = 0 then .error .moduloZero else .ok (fd % size)

/-- `threads_.at(index)`. -/
def atIndex (threads : List (ThreadObject σ)) (index : Nat) : Except Misroute (ThreadObject σ) :=
  match threads[index]? with
  | none => .error (.outOfRange index threads.length)
  | some t => .ok t

/-- The vector after an operation of the object at `index` ended with `r`. -/
def put (threads : List (ThreadObject σ)) (index : Nat) (kind : ThreadKind) :
    EStateM.Result Abrupt (Thread σ × W) Unit → EStateM.Result Abrupt (List (ThreadObject σ) × W) Unit
  | .ok _ r => .ok () (threads.set index ⟨kind, r.1⟩, r.2)
  | .error e r => .error e (threads.set index ⟨kind, r.1⟩, r.2)

/-- `threads_.at(fd % threads_.size())->op(...)`. -/
def atThread (fd : SOCKET) (op : ThreadKind → EStateM Abrupt (Thread σ × W) Unit)
    (x : List (ThreadObject σ) × W) :
    Except Misroute (EStateM.Result Abrupt (List (ThreadObject σ) × W) Unit) :=
  match modSize fd x.1.length with
  | .error m => .error m
  | .ok index =>
      match atIndex x.1 index with
      | .error m => .error m
      | .ok t => .ok (put x.1 index t.kind (op t.kind (t.thread, x.2)))

/-- The vector, the outside, and the identity of the next session object. -/
structure State (σ W : Type) where
  threads : List (ThreadObject σ)
  world   : W
  nextId  : Nat

/-- The state after the constructor. -/
def start (tc : ThreadCount) (w : W) : State σ W := ⟨construct tc, w, 0⟩

/-- `ThreadManager::add_session`, `ThreadManager::remove_session` and `ThreadManager::data_available`. -/
def perform (S : SessionClass W σ) (init : σ) (s : State σ W) :
    Call → Except Misroute (EStateM.Result Abrupt (List (ThreadObject σ) × W) Unit)
  | .addSession fd => atThread fd (ThreadKind.addSession S ⟨⟨fd, s.nextId⟩, init⟩) (s.threads, s.world)
  | .removeSession fd => atThread fd (ThreadKind.removeSession S fd) (s.threads, s.world)
  | .dataAvailable fd => atThread fd (ThreadKind.dataAvailable S fd) (s.threads, s.world)

/-- The state after a call, however it ended. -/
def resume (nextId : Nat) : EStateM.Result Abrupt (List (ThreadObject σ) × W) Unit → State σ W
  | .ok _ r => ⟨r.1, r.2, nextId⟩
  | .error _ r => ⟨r.1, r.2, nextId⟩

/-- The identity of the next session object after a call. -/
def nextIdAfter (nextId : Nat) : Call → Nat
  | .addSession _ => nextId + 1
  | _ => nextId

/-- A pass of the worker of the thread at `k`. An exception in it ends the process. -/
def workerPass (S : SessionClass W σ) (s : State σ W) (k : Nat) : Option (State σ W) :=
  match s.threads[k]? with
  | some ⟨.multi, t⟩ =>
      match put s.threads k .multi (ThreadMulti.pass S (t, s.world)) with
      | .ok _ r => some ⟨r.1, r.2, s.nextId⟩
      | .error _ _ => none
  | _ => none

/-- One step of the pool under a caller that goes on after an exception. A misrouted call has no next state. -/
def step {tc : ThreadCount} (S : SessionClass W σ) (init : σ) (s : State σ W) :
    Pool.Label tc → Option (State σ W)
  | .call c =>
      match perform S init s c with
      | .error _ => none
      | .ok r => some (resume (nextIdAfter s.nextId c) r)
  | .worker k => workerPass S s k

/-- No `fd % 0` and no index outside `threads_` in this step. Only calls compute an index. -/
def Defined {tc : ThreadCount} (S : SessionClass W σ) (init : σ) (s : State σ W) : Pool.Label tc → Prop
  | .call c => ∀ m, perform S init s c ≠ .error m
  | .worker _ => True

/-! ## The same pool -/

section Simulation

variable {tc : ThreadCount}

/-- The vector of a manager. -/
def asVector (tm : ThreadManager tc σ) : List (ThreadObject σ) := List.ofFn (fun k => ⟨tc.kind, tm k⟩)

def ofState (s : Pool.State tc σ W) : State σ W := ⟨asVector s.threads, s.world, s.nextId⟩

def ofResult : EStateM.Result Abrupt (ThreadManager tc σ × W) Unit →
    EStateM.Result Abrupt (List (ThreadObject σ) × W) Unit
  | .ok _ r => .ok () (asVector r.1, r.2)
  | .error e r => .error e (asVector r.1, r.2)

@[simp] theorem length_asVector (tm : ThreadManager tc σ) : (asVector tm).length = tc.size := by
  simp [asVector]

@[simp] theorem getElem?_asVector (tm : ThreadManager tc σ) (k : Fin tc.size) :
    (asVector tm)[(k : Nat)]? = some ⟨tc.kind, tm k⟩ := by
  simp [asVector]

theorem set_asVector (tm : ThreadManager tc σ) (k : Fin tc.size) (t : Thread σ) :
    (asVector tm).set k ⟨tc.kind, t⟩ = asVector (Function.update tm k t) := by
  apply List.ext_getElem
  · simp
  · intro i hi hi'
    rw [length_asVector] at hi'
    by_cases hk : k = ⟨i, hi'⟩
    · subst hk
      simp [asVector]
    · have hne : (k : Nat) ≠ i := fun he => hk (Fin.ext he)
      have hne' : (⟨i, hi'⟩ : Fin tc.size) ≠ k := fun he => hk he.symm
      simp [asVector, List.getElem_set_ne hne, Function.update_of_ne hne']

theorem pushThreads_eq (n i : Int) (threads : List (ThreadObject σ)) :
    pushThreads n i threads = threads ++ List.replicate (n - i).toNat ⟨.multi, Thread.empty⟩ := by
  induction i, threads using pushThreads.induct (n := n) with
  | case1 i threads hlt ih =>
      have hcount : (n - i).toNat = (n - (i + 1)).toNat + 1 := by omega
      rw [pushThreads, if_pos hlt, ih, hcount, List.replicate_succ, List.append_assoc,
        List.singleton_append]
  | case2 i threads hge =>
      have hcount : (n - i).toNat = 0 := by omega
      rw [pushThreads, if_neg hge, hcount, List.replicate_zero, List.append_nil]

/-- The constructor fills the vector with as many empty threads as `ThreadCount.size` says. -/
theorem construct_eq (tc : ThreadCount) :
    (construct tc : List (ThreadObject σ)) = asVector (ThreadManager.create tc) := by
  have hconst : asVector (ThreadManager.create tc : ThreadManager tc σ) =
      List.replicate tc.size ⟨tc.kind, Thread.empty⟩ := by
    simp only [asVector, ThreadManager.create, List.ofFn_const]
  rw [hconst]
  cases tc with
  | single => rfl
  | count n =>
      rw [construct, pushThreads_eq, List.nil_append, Int.sub_zero]
      rfl

/-- With at least one thread the index is computed and is good, and the call is the manager's. -/
theorem atThread_asVector (hpos : 0 < tc.size) (fd : SOCKET)
    (op : ThreadKind → EStateM Abrupt (Thread σ × W) Unit) (tm : ThreadManager tc σ) (w : W) :
    atThread fd op (asVector tm, w) = .ok (ofResult (ThreadManager.atThread fd (op tc.kind) (tm, w))) := by
  have hmod : modSize fd (asVector tm).length = .ok (index hpos fd : Nat) := by
    rw [length_asVector, modSize, if_neg (Nat.ne_of_gt hpos)]
    rfl
  have hat : atIndex (asVector tm) (index hpos fd) = .ok ⟨tc.kind, tm (index hpos fd)⟩ := by
    simp only [atIndex, getElem?_asVector]
  simp only [atThread, hmod, hat, ThreadManager.atThread, dif_pos hpos]
  cases op tc.kind (tm (index hpos fd), w) with
  | ok a r => simp only [put, ofResult, set_asVector]
  | error e r => simp only [put, ofResult, set_asVector]

/-- With no thread every call divides by zero. -/
theorem atThread_nil (fd : SOCKET) (op : ThreadKind → EStateM Abrupt (Thread σ × W) Unit) (w : W) :
    atThread fd op ([], w) = .error .moduloZero := rfl

variable {S : SessionClass W σ} {init : σ}

theorem start_eq (tc : ThreadCount) (w : W) : (start tc w : State σ W) = ofState (Pool.start tc w) := by
  simp only [start, construct_eq, ofState, Pool.start]

theorem resume_ofResult (n : Nat) (r : EStateM.Result Abrupt (ThreadManager tc σ × W) Unit) :
    resume n (ofResult r) = ofState (Pool.resume n r) := by
  cases r with
  | ok a x => rfl
  | error e x => rfl

/-- The pool's call, as the manager performs it. -/
def performed (S : SessionClass W σ) (init : σ) (s : Pool.State tc σ W) :
    Call → EStateM.Result Abrupt (ThreadManager tc σ × W) Unit
  | .addSession fd => ThreadManager.addSession S (s.fresh init fd) (s.threads, s.world)
  | .removeSession fd => ThreadManager.removeSession S fd (s.threads, s.world)
  | .dataAvailable fd => ThreadManager.dataAvailable S fd (s.threads, s.world)

/-- **A call on the vector is the call on the manager**, with at least one thread. -/
theorem perform_ofState (hpos : 0 < tc.size) (s : Pool.State tc σ W) (c : Call) :
    perform S init (ofState s) c = .ok (ofResult (performed S init s c)) := by
  cases c with
  | addSession fd =>
      rw [performed, ThreadManager.addSession_virtual]
      exact atThread_asVector hpos fd _ s.threads s.world
  | removeSession fd =>
      rw [performed, ThreadManager.removeSession_virtual]
      exact atThread_asVector hpos fd _ s.threads s.world
  | dataAvailable fd =>
      rw [performed, ThreadManager.dataAvailable_virtual]
      exact atThread_asVector hpos fd _ s.threads s.world

/-- With no thread every call, whichever it is and whatever its descriptor, computes `fd % 0`. -/
theorem perform_of_no_thread (hzero : tc.size = 0) (s : Pool.State tc σ W) (c : Call) :
    perform S init (ofState s) c = .error .moduloZero := by
  have hnil : asVector s.threads = [] := List.eq_nil_of_length_eq_zero (by rw [length_asVector, hzero])
  cases c with
  | addSession fd => simp only [perform, ofState, hnil, atThread_nil]
  | removeSession fd => simp only [perform, ofState, hnil, atThread_nil]
  | dataAvailable fd => simp only [perform, ofState, hnil, atThread_nil]

theorem workerPass_ofState (init : σ) (s : Pool.State tc σ W) (k : Fin tc.size) :
    workerPass S (ofState s) k = (Pool.step S init s (.worker k)).map ofState := by
  cases hk : tc.kind with
  | single => simp only [workerPass, ofState, getElem?_asVector, hk, Pool.step, Option.map_none]
  | multi =>
      simp only [workerPass, ofState, getElem?_asVector, hk, Pool.step, ThreadManager.workerPass]
      cases ThreadMulti.pass S (s.threads k, s.world) with
      | ok a r => simp only [put, ← hk, set_asVector, Pool.settle, Option.map_some]; rfl
      | error e r => rfl

/-- **A step of the vector is the step of the pool.** -/
theorem step_ofState (hpos : 0 < tc.size) (s : Pool.State tc σ W) (l : Pool.Label tc) :
    step S init (ofState s) l = (Pool.catchingStep S init s l).map ofState := by
  cases l with
  | worker k => exact workerPass_ofState init s k
  | call c =>
      simp only [step, perform_ofState hpos, resume_ofResult]
      cases c <;> rfl

/-- **A run of the vector is the run of the pool**, state by state. -/
theorem run_ofState (hpos : 0 < tc.size) (s : Pool.State tc σ W) (ls : List (Pool.Label tc)) :
    Transition.run (step S init) (ofState s) ls =
      (Transition.run (Pool.catchingStep S init) s ls).map ofState :=
  Transition.run_map (step_ofState hpos) s ls

/-- What holds of the pool after every run holds of the vector: its threads share out the single map of the
    same calls. -/
theorem partition_of_vector_run (hpos : 0 < tc.size) (w : W) {ls : List (Pool.Label tc)} {t : State σ W}
    (h : Transition.run (step S init) (start tc w) ls = some t) :
    ∃ tm : ThreadManager tc σ, t.threads = asVector tm ∧ Pool.Partition (Pool.flat ls).sessions tm := by
  rw [start_eq, run_ofState hpos] at h
  obtain ⟨p, hp, rfl⟩ := Option.map_eq_some_iff.mp h
  have hc : Pool.Cut (Pool.flat ls) p := Pool.Cut.run hpos (Pool.cut_start w) hp
  exact ⟨p.threads, rfl, hc.partition⟩

/-! ## The routing arithmetic -/

theorem defined_ofState (hpos : 0 < tc.size) (s : Pool.State tc σ W) (l : Pool.Label tc) :
    Defined S init (ofState s) l := by
  cases l with
  | worker k => trivial
  | call c =>
      intro m
      rw [perform_ofState hpos]
      simp

theorem defined_of_run (hpos : 0 < tc.size) (s : Pool.State tc σ W) (ls : List (Pool.Label tc)) :
    Transition.AllSteps (step S init) (Defined S init) (ofState s) ls := by
  rw [Transition.AllSteps.map (step_ofState hpos)]
  apply Transition.AllSteps.of_forall
  intro l _ s
  exact defined_ofState hpos s l

/-- With no thread the first call is the last. -/
theorem eq_nil_of_defined (hzero : tc.size = 0) (s : Pool.State tc σ W) {ls : List (Pool.Label tc)}
    (h : Transition.AllSteps (step S init) (Defined S init) (ofState s) ls) : ls = [] := by
  cases ls with
  | nil => rfl
  | cons l ls =>
      cases l with
      | call c => exact absurd (perform_of_no_thread hzero s c) (h.1 .moduloZero)
      | worker k => exact absurd hzero (Nat.ne_of_gt k.pos)

end Simulation

/-- The thread counts whose constructor loop pushes at least one thread. -/
theorem size_pos_iff (tc : ThreadCount) : 0 < tc.size ↔ tc = .single ∨ ∃ n, tc = .count n ∧ 1 ≤ n := by
  cases tc with
  | single => simp [ThreadCount.size]
  | count n =>
      simp only [ThreadCount.size, reduceCtorEq, ThreadCount.count.injEq, exists_eq_left', false_or]
      omega

/-- **The routing is defined exactly for the thread counts with a thread.** For every `ThreadCount` and every
    sequence of calls on any descriptors, interleaved with passes of the workers: no call computes `fd % 0` and
    none hands `threads_.at` an index outside `threads_` if and only if the count is `Threads::Single` or an
    `int` of at least one, or nothing is called at all. -/
theorem routing_defined_iff (tc : ThreadCount) (S : SessionClass W σ) (init : σ) (w : W)
    (ls : List (Pool.Label tc)) :
    Transition.AllSteps (step S init) (Defined S init) (start tc w) ls ↔
      (tc = .single ∨ ∃ n, tc = .count n ∧ 1 ≤ n) ∨ ls = [] := by
  rw [start_eq, ← size_pos_iff]
  constructor
  · intro h
    rcases Nat.eq_zero_or_pos tc.size with hzero | hpos
    · exact Or.inr (eq_nil_of_defined hzero _ h)
    · exact Or.inl hpos
  · rintro (hpos | rfl)
    · exact defined_of_run hpos _ ls
    · trivial

/-- A server with `ThreadCount` 0, or -1, and its first client. -/
theorem misrouted_first_client :
    perform SessionClass.silent () (start (.count 0) ()) (.addSession 5) = .error .moduloZero ∧
      perform SessionClass.silent () (start (.count (-1)) ()) (.addSession 5) = .error .moduloZero ∧
      ¬ Transition.AllSteps (step SessionClass.silent ()) (Defined SessionClass.silent ()) (start (.count 0) ())
        [(.call (.addSession 5) : Pool.Label (.count 0))] := by
  have hzero : perform SessionClass.silent () (start (.count 0) ()) (.addSession 5) = .error .moduloZero := by
    rw [start_eq]
    exact perform_of_no_thread rfl _ _
  refine ⟨hzero, ?_, fun h => h.1 .moduloZero hzero⟩
  rw [start_eq]
  exact perform_of_no_thread rfl _ _

end ThreadVector

end Neblina

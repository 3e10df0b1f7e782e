import Neblina.Lib.Transition
import Neblina.Server.Server

/-!
# `Server.System` — the server, its workers and its clients

A run of the whole system is an interleaving of four kinds of steps: the clients and the network act, the
event loop waits, the event loop goes on with what `wait` returned, a worker takes a pass. What is left of
the current `iterate` is the list of `Task`s; the handling of a new client is two of them, because a worker
can run between `add_session` and `add_client`.

An exception that leaves `iterate` is recorded in `escaped` and the tasks are lost; the caller may go on
with the next `iterate`. An exception that leaves a worker ends the process, and so does a division by
zero: such a step has no next state. `does_of_step` lists what a step can do, and `sound_step` is the
invariant the other modules build on: a session reaches its own client's socket.
-/

namespace Neblina

open ThreadManager

/-- What is left to do of an `iterate`. -/
inductive Task where
  | event (ev : Event)
  | register (fd : SOCKET)
  deriving DecidableEq, Repr

/-- The calls of the poller's interface, as far as they returned. -/
inductive PollerCall where
  | returned (evs : List Event)
  | added (fd : SOCKET)
  deriving DecidableEq, Repr

/-- The threads and the kernel; what is left of the current `iterate`; the exceptions that left `iterate`,
    and the calls of the poller, oldest first. -/
structure Sys (tc : ThreadCount) (σ : Type) where
  threads : ThreadManager tc σ
  kernel  : Kernel
  tasks   : List Task
  escaped : List Abrupt
  calls   : List PollerCall

namespace Sys

variable {σ : Type} {tc : ThreadCount}

inductive Label (tc : ThreadCount) where
  | env (e : Env)
  | wait (r : PollResult)
  | go (os : Os)
  | worker (k : Fin tc.size) (os : Os)

def start (S : Setup σ) (tc : ThreadCount) : Sys tc σ :=
  ⟨create tc, Kernel.init S.serverFd, [], [], []⟩

/-- `iterate` is left with `e`. -/
def abandon (s : Sys tc σ) (e : Abrupt) (r : ThreadManager tc σ × Kernel) : Option (Sys tc σ) :=
  match e with
  | .throws _ => some { s with threads := r.1, kernel := r.2, tasks := [], escaped := s.escaped ++ [e] }
  | _ => none

/-- The state after an operation of the event loop. -/
def settle (s : Sys tc σ) (rest : List Task) (calls : List PollerCall) :
    EStateM.Result Abrupt (ThreadManager tc σ × Kernel) Unit → Option (Sys tc σ)
  | .ok _ r => some { s with threads := r.1, kernel := r.2, tasks := rest, calls := s.calls ++ calls }
  | .error e r => s.abandon e r

/-- The next task of `iterate`. -/
def go (S : Setup σ) (s : Sys tc σ) (os : Os) : List Task → Option (Sys tc σ)
  | [] => none
  | .event ⟨.newClient, _⟩ :: rest =>
      match Server.takeIn S os (s.threads, s.kernel) with
      | .ok fd r => some { s with threads := r.1, kernel := r.2, tasks := .register fd :: rest }
      | .error e r => s.abandon e r
  | .event ⟨.clientDataReady, fd⟩ :: rest =>
      s.settle rest [] (dataAvailable (S.sessions os) fd (s.threads, s.kernel))
  | .event ⟨.clientDisconnected, fd⟩ :: rest =>
      s.settle rest [] (removeSession (S.sessions os) fd (s.threads, s.kernel))
  | .register fd :: rest =>
      s.settle rest [.added fd]
        (Effect.onSnd (Poller.addClient S.platform fd) (s.threads, s.kernel))

/-- One step of the system. -/
def step (S : Setup σ) (s : Sys tc σ) : Label tc → Option (Sys tc σ)
  | .env e => (s.kernel.env S.transport e).map (fun k => { s with kernel := k })
  | .wait r =>
      if s.tasks = [] ∧ Poller.Reports S.platform S.serverFd s.kernel r then
        match Poller.wait S.platform S.serverFd r s.kernel with
        | .ok evs k =>
            some { s with kernel := k, tasks := evs.map .event, calls := s.calls ++ [.returned evs] }
        | .error e k => s.abandon e (s.threads, k)
      else none
  | .go os => s.go S os s.tasks
  | .worker k os =>
      match tc.kind with
      | .single => none
      | .multi =>
          match workerPass (S.sessions os) k (s.threads, s.kernel) with
          | .ok _ r => some { s with threads := r.1, kernel := r.2 }
          | .error _ _ => none

/-! ## What a step does -/

/-- What a step does. -/
inductive Does (S : Setup σ) (s : Sys tc σ) : Label tc → Sys tc σ → Prop
  | env (e : Env) (k : Kernel) (h : s.kernel.env S.transport e = some k) :
      Does S s (.env e) { s with kernel := k }
  | waited (raw : List PollEvent) (ht : s.tasks = [])
      (hr : Poller.Reports S.platform S.serverFd s.kernel (.ok raw)) :
      Does S s (.wait (.ok raw))
        { s with
          kernel := Poller.afterWait S.platform S.serverFd raw s.kernel
          tasks := (Poller.events S.platform S.serverFd raw).map .event
          calls := s.calls ++ [.returned (Poller.events S.platform S.serverFd raw)] }
  | interrupted (errno : Errno) (ht : s.tasks = []) :
      Does S s (.wait (.error errno)) { s with calls := s.calls ++ [.returned []] }
  | waitFailed (errno : Errno) (e : Exc) (ht : s.tasks = [])
      (he : e = .nonRecoverable "epoll error: " (some errno) ∨ e = .runtimeError "WSAPoll failed" none) :
      Does S s (.wait (.error errno)) { s with tasks := [], escaped := s.escaped ++ [.throws e] }
  | admitted (os : Os) (fd0 fd : SOCKET) (id : Nat) (queue : List Nat) (rest : List Task)
      (hpos : 0 < tc.size) (ht : s.tasks = .event ⟨.newClient, fd0⟩ :: rest)
      (ha : Server.Accepts S os s.kernel fd id queue)
      (hm : socketMarkAsNonblocking S.platform os.fcntl = none)
      (hh : Server.handshakeError S.transport os = none) :
      Does S s (.go os)
        { s with
          threads := insert s.threads ⟨⟨fd, id⟩, S.machine.init⟩
          kernel := Thread.destroy (S.sessions os) (lookup s.threads fd) (s.kernel.opened fd id queue)
          tasks := .register fd :: rest }
  | refused (os : Os) (fd0 : SOCKET) (rest : List Task) (e : Exc) (k : Kernel)
      (ht : s.tasks = .event ⟨.newClient, fd0⟩ :: rest)
      (he : (k = s.kernel ∧ (∃ errno, os.accept = .failed errno)) ∨
        ∃ fd id queue, Server.Accepts S os s.kernel fd id queue ∧
          ((socketMarkAsNonblocking S.platform os.fcntl = some e ∧ k = s.kernel.opened fd id queue) ∨
            (Server.handshakeError S.transport os = some e ∧
              k = Kernel.close ⟨fd, id⟩ (s.kernel.opened fd id queue)))) :
      Does S s (.go os) { s with kernel := k, tasks := [], escaped := s.escaped ++ [.throws e] }
  | registered (os : Os) (fd : SOCKET) (rest : List Task) (k : Kernel)
      (ht : s.tasks = .register fd :: rest) (h : Poller.addClient S.platform fd s.kernel = .ok () k) :
      Does S s (.go os) { s with kernel := k, tasks := rest, calls := s.calls ++ [.added fd] }
  | unregistrable (os : Os) (fd : SOCKET) (rest : List Task) (e : Exc)
      (ht : s.tasks = .register fd :: rest) (hi : s.kernel.interest fd = true) :
      Does S s (.go os) { s with tasks := [], escaped := s.escaped ++ [.throws e] }
  | removed (os : Os) (fd : SOCKET) (rest : List Task) (hpos : 0 < tc.size)
      (ht : s.tasks = .event ⟨.clientDisconnected, fd⟩ :: rest) :
      Does S s (.go os)
        { s with
          threads := remove s.threads fd
          kernel := Thread.destroy (S.sessions os) (lookup s.threads fd) s.kernel
          tasks := rest }
  | queued (os : Os) (fd : SOCKET) (rest : List Task) (hpos : 0 < tc.size) (hk : tc.kind = .multi)
      (ht : s.tasks = .event ⟨.clientDataReady, fd⟩ :: rest) :
      Does S s (.go os) { s with threads := enqueue s.threads fd, tasks := rest }
  | ran (os : Os) (fd : SOCKET) (rest : List Task) (tm : ThreadManager tc σ) (k : Kernel)
      (hpos : 0 < tc.size) (hk : tc.kind = .single)
      (ht : s.tasks = .event ⟨.clientDataReady, fd⟩ :: rest)
      (h : iterate (S.sessions os) fd (s.threads, s.kernel) = .ok () (tm, k)) :
      Does S s (.go os) { s with threads := tm, kernel := k, tasks := rest }
  | failed (os : Os) (fd : SOCKET) (rest : List Task) (e : Exc) (tm : ThreadManager tc σ) (k : Kernel)
      (hpos : 0 < tc.size) (hk : tc.kind = .single)
      (ht : s.tasks = .event ⟨.clientDataReady, fd⟩ :: rest)
      (h : iterate (S.sessions os) fd (s.threads, s.kernel) = .error (.throws e) (tm, k)) :
      Does S s (.go os)
        { s with threads := tm, kernel := k, tasks := [], escaped := s.escaped ++ [.throws e] }
  | idle (k : Fin tc.size) (os : Os) (hk : tc.kind = .multi) (hq : (s.threads k).queue = []) :
      Does S s (.worker k os) s
  | served (k : Fin tc.size) (os : Os) (fd : SOCKET) (rest : List SOCKET) (tm : ThreadManager tc σ)
      (w : Kernel) (hpos : 0 < tc.size) (hk : tc.kind = .multi) (hq : (s.threads k).queue = fd :: rest)
      (h : iterate (S.sessions os) fd (setQueue s.threads k rest, s.kernel) = .ok () (tm, w)) :
      Does S s (.worker k os) { s with threads := tm, kernel := w }

/-! ### The cases of a step -/

section Cases

variable {S : Setup σ} {s s' : Sys tc σ}

theorem abandon_eq_some {e : Abrupt} {r : ThreadManager tc σ × Kernel} (h : s.abandon e r = some s') :
    ∃ x, e = .throws x ∧
      s' = { s with threads := r.1, kernel := r.2, tasks := [], escaped := s.escaped ++ [.throws x] } := by
  cases e with
  | throws x => exact ⟨x, rfl, (Option.some.inj h).symm⟩
  | divisionByZero => exact absurd h (by simp [abandon])
  | running => exact absurd h (by simp [abandon])

/-- With no thread the calls into the thread manager divide by zero. -/
theorem pos_of_atThread {op : EStateM Abrupt (Thread σ × Kernel) Unit} {fd : SOCKET} {rest : List Task}
    {calls : List PollerCall}
    (h : s.settle rest calls (atThread fd op (s.threads, s.kernel)) = some s') : 0 < tc.size := by
  by_cases hpos : 0 < tc.size
  · exact hpos
  · rw [atThread_none hpos] at h
    exact absurd h (by simp [settle, abandon])

theorem does_of_wait {r : PollResult} (h : s.step S (.wait r) = some s') : Does S s (.wait r) s' := by
  simp only [step] at h
  by_cases hguard : s.tasks = [] ∧ Poller.Reports S.platform S.serverFd s.kernel r
  · rw [if_pos hguard] at h
    cases r with
    | ok raw =>
        rw [Poller.wait_eq hguard.2] at h
        rw [← Option.some.inj h]
        exact .waited raw hguard.1 hguard.2
    | error errno =>
        rcases Poller.wait_failed S.platform S.serverFd errno s.kernel with hok | ⟨e, hthrow, he⟩
        · rw [hok] at h
          rw [← Option.some.inj h]
          simp only [List.map_nil, ← hguard.1]
          exact .interrupted errno hguard.1
        · rw [hthrow] at h
          rw [← Option.some.inj h]
          exact .waitFailed errno e hguard.1 he
  · rw [if_neg hguard] at h
    exact absurd h (by simp)

theorem does_of_new {os : Os} {fd0 : SOCKET} {rest : List Task}
    (ht : s.tasks = .event ⟨.newClient, fd0⟩ :: rest) (h : s.step S (.go os) = some s') :
    Does S s (.go os) s' := by
  simp only [step, ht, go] at h
  rcases Server.accept_cases S os s.kernel with ⟨errno, hres, hacc⟩ | hacc | ⟨fd, id, queue, hacc⟩
  · have hadm : Server.takeIn S os (s.threads, s.kernel) =
        .error (.throws (.nonRecoverable "listen error: " (some errno))) (s.threads, s.kernel) :=
      Effect.bind_of_error (Effect.onSnd_of_error hacc)
    rw [hadm] at h
    rw [← Option.some.inj h]
    exact .refused os fd0 rest _ s.kernel ht (Or.inl ⟨rfl, errno, hres⟩)
  · have hadm : Server.takeIn S os (s.threads, s.kernel) = .error .running (s.threads, s.kernel) :=
      Effect.bind_of_error (Effect.onSnd_of_error hacc)
    rw [hadm] at h
    exact absurd h (by simp [abandon])
  · rw [Server.takeIn_eq hacc] at h
    cases hm : socketMarkAsNonblocking S.platform os.fcntl with
    | some e =>
        simp only [hm] at h
        rw [← Option.some.inj h]
        exact .refused os fd0 rest e _ ht (Or.inr ⟨fd, id, queue, hacc, Or.inl ⟨hm, rfl⟩⟩)
    | none =>
        cases hh : Server.handshakeError S.transport os with
        | some e =>
            simp only [hm, hh] at h
            rw [← Option.some.inj h]
            exact .refused os fd0 rest e _ ht (Or.inr ⟨fd, id, queue, hacc, Or.inr ⟨hh, rfl⟩⟩)
        | none =>
            simp only [hm, hh] at h
            by_cases hpos : 0 < tc.size
            · rw [if_pos hpos] at h
              rw [← Option.some.inj h]
              exact .admitted os fd0 fd id queue rest hpos ht hacc hm hh
            · rw [if_neg hpos] at h
              exact absurd h (by simp [abandon])

theorem does_of_data {os : Os} {fd : SOCKET} {rest : List Task}
    (ht : s.tasks = .event ⟨.clientDataReady, fd⟩ :: rest) (h : s.step S (.go os) = some s') :
    Does S s (.go os) s' := by
  simp only [step, ht, go] at h
  have hpos : 0 < tc.size := by
    rw [dataAvailable_virtual] at h
    exact pos_of_atThread h
  cases hk : tc.kind with
  | multi =>
      rw [dataAvailable_multi hpos hk] at h
      simp only [settle, List.append_nil, Option.some.injEq] at h
      rw [← h]
      exact .queued os fd rest hpos hk ht
  | single =>
      rw [dataAvailable_single hpos hk] at h
      cases hit : iterate (S.sessions os) fd (s.threads, s.kernel) with
      | ok a r =>
          rw [hit] at h
          simp only [settle, List.append_nil, Option.some.injEq] at h
          rw [← h]
          exact .ran os fd rest r.1 r.2 hpos hk ht hit
      | error e r =>
          rw [hit] at h
          obtain ⟨x, rfl, rfl⟩ := abandon_eq_some h
          exact .failed os fd rest x r.1 r.2 hpos hk ht hit

theorem does_of_gone {os : Os} {fd : SOCKET} {rest : List Task}
    (ht : s.tasks = .event ⟨.clientDisconnected, fd⟩ :: rest) (h : s.step S (.go os) = some s') :
    Does S s (.go os) s' := by
  simp only [step, ht, go] at h
  have hpos : 0 < tc.size := by
    rw [removeSession_virtual] at h
    exact pos_of_atThread h
  rw [removeSession_eq hpos] at h
  simp only [settle, List.append_nil, Option.some.injEq] at h
  rw [← h]
  exact .removed os fd rest hpos ht

theorem does_of_register {os : Os} {fd : SOCKET} {rest : List Task}
    (ht : s.tasks = .register fd :: rest) (h : s.step S (.go os) = some s') :
    Does S s (.go os) s' := by
  simp only [step, ht, go] at h
  cases hadd : Poller.addClient S.platform fd s.kernel with
  | ok a k =>
      rw [Effect.onSnd_of_ok hadd] at h
      rw [← Option.some.inj h]
      exact .registered os fd rest k ht hadd
  | error e k =>
      rw [Effect.onSnd_of_error hadd] at h
      obtain ⟨x, rfl, rfl⟩ := abandon_eq_some h
      obtain ⟨hi, hk⟩ := Poller.addClient_error hadd
      subst hk
      exact .unregistrable os fd rest x ht hi

/-- **The cases of a step.** -/
theorem does_of_step {l : Label tc} (hr : Routed s.threads) (h : s.step S l = some s') :
    Does S s l s' := by
  cases l with
  | env e =>
      obtain ⟨k, hk, rfl⟩ := Option.map_eq_some_iff.mp h
      exact .env e k hk
  | wait r => exact does_of_wait h
  | go os =>
      cases ht : s.tasks with
      | nil =>
          simp only [step, ht, go] at h
          exact absurd h (by simp)
      | cons task rest =>
          cases task with
          | register fd => exact does_of_register ht h
          | event ev =>
              obtain ⟨type, fd⟩ := ev
              cases type with
              | newClient => exact does_of_new ht h
              | clientDataReady => exact does_of_data ht h
              | clientDisconnected => exact does_of_gone ht h
  | worker k os =>
      cases hk : tc.kind with
      | single =>
          simp only [step, hk] at h
          exact absurd h (by simp)
      | multi =>
          simp only [step, hk] at h
          have hpos : 0 < tc.size := Nat.lt_of_le_of_lt (Nat.zero_le _) k.isLt
          cases hq : (s.threads k).queue with
          | nil =>
              rw [workerPass_empty hq] at h
              rw [← Option.some.inj h]
              exact .idle k os hk hq
          | cons fd rest =>
              have hfd := hr.queue k fd (by rw [hq]; exact List.mem_cons_self)
              rw [workerPass_cons hpos hq hfd] at h
              cases hit : iterate (S.sessions os) fd (setQueue s.threads k rest, s.kernel) with
              | ok a r =>
                  rw [hit] at h
                  rw [← Option.some.inj h]
                  exact .served k os fd rest r.1 r.2 hpos hk hq hit
              | error e r =>
                  rw [hit] at h
                  exact absurd h (by simp)

end Cases

/-! ## `iterate` is a run -/

/-- The steps of the loop of `iterate`: a new client takes two. -/
def loopLabels : List (Event × Os) → List (Label tc)
  | [] => []
  | (ev, os) :: rest =>
      match ev.type with
      | .newClient => .go os :: .go os :: loopLabels rest
      | _ => .go os :: loopLabels rest

section Iterate

variable {S : Setup σ}

/-- After an exception nothing is left to go on with. -/
theorem run_abandoned {s s₁ s' : Sys tc σ} {e : Abrupt} {r : ThreadManager tc σ × Kernel}
    {ls : List (Event × Os)} (h : s.abandon e r = some s₁)
    (hrun : Transition.run (Sys.step S) s₁ (loopLabels ls) = some s') : s'.escaped ≠ s.escaped := by
  obtain ⟨x, _, rfl⟩ := abandon_eq_some h
  cases ls with
  | nil =>
      rw [loopLabels, Transition.run_nil, Option.some.injEq] at hrun
      subst hrun
      intro heq
      have hlen := congrArg List.length heq
      rw [List.length_append] at hlen
      simp at hlen
  | cons p rest =>
      obtain ⟨ev, os⟩ := p
      have hstuck : ∀ more, Transition.run (Sys.step S) { s with
          threads := r.1, kernel := r.2, tasks := [], escaped := s.escaped ++ [.throws x] }
          (.go os :: more) = none := fun _ => rfl
      unfold loopLabels at hrun
      split at hrun
      · exact absurd ((hstuck _).symm.trans hrun) (by simp)
      · exact absurd ((hstuck _).symm.trans hrun) (by simp)

/-- A task that is one call. -/
theorem handle_of_settle {s s₁ s' : Sys tc σ} {rest : List Task} {calls : List PollerCall}
    {op : EStateM.Result Abrupt (ThreadManager tc σ × Kernel) Unit} {ls : List (Event × Os)}
    (h : s.settle rest calls op = some s₁)
    (hrun : Transition.run (Sys.step S) s₁ (loopLabels ls) = some s') (hesc : s'.escaped = s.escaped) :
    op = .ok () (s₁.threads, s₁.kernel) ∧ s₁.tasks = rest ∧ s₁.escaped = s.escaped := by
  cases op with
  | ok a r =>
      simp only [settle, Option.some.injEq] at h
      subst h
      exact ⟨rfl, rfl, rfl⟩
  | error e r => exact absurd hesc (run_abandoned h hrun)

/-- **The loop of `iterate` is the run of its steps**, when nothing is thrown. -/
theorem handleAll_of_run {ls : List (Event × Os)} : ∀ {s s' : Sys tc σ},
    s.tasks = ls.map (fun p => .event p.1) →
    Transition.run (Sys.step S) s (loopLabels ls) = some s' → s'.escaped = s.escaped →
    Server.handleAll S ls (s.threads, s.kernel) = .ok () (s'.threads, s'.kernel) ∧ s'.tasks = [] := by
  induction ls with
  | nil =>
      intro s s' ht hrun _
      rw [loopLabels, Transition.run_nil, Option.some.injEq] at hrun
      subst hrun
      exact ⟨rfl, ht⟩
  | cons p rest ih =>
      intro s s' ht hrun hesc
      obtain ⟨⟨type, fd⟩, os⟩ := p
      rw [Server.handleAll]
      cases type with
      | newClient =>
          obtain ⟨s₁, h₁, hrun⟩ := Transition.run_cons_eq_some
            (show Transition.run (Sys.step S) s (.go os :: .go os :: loopLabels rest) = some s' from hrun)
          obtain ⟨s₂, h₂, hloop⟩ := Transition.run_cons_eq_some hrun
          simp only [step, ht, List.map_cons, go] at h₁
          cases hadm : Server.takeIn S os (s.threads, s.kernel) with
          | error e r =>
              -- the registration has nothing to do after an exception
              rw [hadm] at h₁
              obtain ⟨x, _, rfl⟩ := abandon_eq_some h₁
              exact absurd h₂ (by simp [step, go])
          | ok fd' r =>
              rw [hadm] at h₁
              simp only [Option.some.injEq] at h₁
              subst h₁
              simp only [step, go] at h₂
              obtain ⟨hreg, htasks, hesc₂⟩ := handle_of_settle h₂ hloop hesc
              have hhandle : Server.handle S os ⟨.newClient, fd⟩ (s.threads, s.kernel) =
                  .ok () (s₂.threads, s₂.kernel) := (Effect.bind_of_ok hadm).trans hreg
              obtain ⟨hrest, hdone⟩ := ih htasks hloop (by rw [hesc, hesc₂])
              exact ⟨(Effect.bind_of_ok hhandle).trans hrest, hdone⟩
      | clientDataReady =>
          obtain ⟨s₁, h₁, hrun⟩ := Transition.run_cons_eq_some
            (show Transition.run (Sys.step S) s (.go os :: loopLabels rest) = some s' from hrun)
          simp only [step, ht, List.map_cons, go] at h₁
          obtain ⟨hhandle, htasks, hesc₁⟩ := handle_of_settle h₁ hrun hesc
          obtain ⟨hrest, hdone⟩ := ih htasks hrun (by rw [hesc, hesc₁])
          exact ⟨(Effect.bind_of_ok hhandle).trans hrest, hdone⟩
      | clientDisconnected =>
          obtain ⟨s₁, h₁, hrun⟩ := Transition.run_cons_eq_some
            (show Transition.run (Sys.step S) s (.go os :: loopLabels rest) = some s' from hrun)
          simp only [step, ht, List.map_cons, go] at h₁
          obtain ⟨hhandle, htasks, hesc₁⟩ := handle_of_settle h₁ hrun hesc
          obtain ⟨hrest, hdone⟩ := ih htasks hrun (by rw [hesc, hesc₁])
          exact ⟨(Effect.bind_of_ok hhandle).trans hrest, hdone⟩

/-- **`Server::iterate` is a run of the system**: a `wait` and the steps of the loop, with nothing between
    them. -/
theorem iterate_of_run {s s' : Sys tc σ} {raw : List PollEvent} {results : List Os}
    (hlen : (Poller.events S.platform S.serverFd raw).length = results.length)
    (hrun : Transition.run (Sys.step S) s
      (.wait (.ok raw) :: loopLabels ((Poller.events S.platform S.serverFd raw).zip results)) = some s')
    (hesc : s'.escaped = s.escaped) :
    Server.iterate S (.ok raw) results (s.threads, s.kernel) = .ok () (s'.threads, s'.kernel) ∧
      s'.tasks = [] := by
  obtain ⟨s₁, h₁, hrun⟩ := Transition.run_cons_eq_some hrun
  cases does_of_wait h₁ with
  | waited _ ht hr =>
      have hwait := Poller.wait_eq hr
      have htasks : (Poller.events S.platform S.serverFd raw).map Task.event =
          ((Poller.events S.platform S.serverFd raw).zip results).map (fun p => .event p.1) := by
        have hfst := List.map_fst_zip (Nat.le_of_eq hlen)
        calc (Poller.events S.platform S.serverFd raw).map Task.event
            = (((Poller.events S.platform S.serverFd raw).zip results).map Prod.fst).map Task.event := by
              rw [hfst]
          _ = ((Poller.events S.platform S.serverFd raw).zip results).map (fun p => .event p.1) :=
              List.map_map
      obtain ⟨hall, hdone⟩ := handleAll_of_run (s := { s with
        kernel := Poller.afterWait S.platform S.serverFd raw s.kernel
        tasks := (Poller.events S.platform S.serverFd raw).map .event
        calls := s.calls ++ [.returned (Poller.events S.platform S.serverFd raw)] }) htasks hrun hesc
      exact ⟨(Effect.bind_of_ok (Effect.onSnd_of_ok hwait)).trans hall, hdone⟩

end Iterate

end Sys

end Neblina

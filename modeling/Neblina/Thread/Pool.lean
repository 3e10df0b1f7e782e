import Neblina.Lib.Transition
import Neblina.Thread.ThreadManager

/-!
# `Thread.Pool` — the thread manager between the event loop and the workers

The event loop calls `add_session`, `data_available` and `remove_session`; the workers take their passes.
All of these are critical sections, so a run of the pool is an interleaving of them: a list of `Label`s.
`does_of_step` says once what each step does, and every proof about the pool goes by its cases.

An exception that leaves a worker ends the process (`std::terminate`), and one that leaves a call ends the
event loop, so a step that throws has no next state here.
-/

namespace Neblina

open ThreadManager

/-- The calls of `Server::iterate` into the thread manager. -/
inductive Call where
  | addSession (fd : SOCKET)
  | dataAvailable (fd : SOCKET)
  | removeSession (fd : SOCKET)
  deriving DecidableEq, Repr

namespace Pool

/-- A step of the pool: a call of the event loop, or a pass of a worker. -/
inductive Label (tc : ThreadCount) where
  | call (c : Call)
  | worker (k : Fin tc.size)
  deriving DecidableEq

/-- The threads, the outside, and the identity of the next session object. -/
structure State (tc : ThreadCount) (σ W : Type) where
  threads : ThreadManager tc σ
  world   : W
  nextId  : Nat

variable {tc : ThreadCount} {σ W : Type}

def start (tc : ThreadCount) (w : W) : State tc σ W := ⟨create tc, w, 0⟩

/-- The session `protocol_->create_session(create_connection(fd))` returns. -/
def State.fresh (s : State tc σ W) (init : σ) (fd : SOCKET) : Session σ := ⟨⟨fd, s.nextId⟩, init⟩

/-- The state after an operation that returned. -/
def settle (nextId : Nat) :
    EStateM.Result Abrupt (ThreadManager tc σ × W) Unit → Option (State tc σ W)
  | .ok _ r => some ⟨r.1, r.2, nextId⟩
  | .error _ _ => none

/-- One step of the pool whose new sessions have the fields `init`. -/
def step (S : SessionClass W σ) (init : σ) (s : State tc σ W) : Label tc → Option (State tc σ W)
  | .call (.addSession fd) =>
      settle (s.nextId + 1) (addSession S (s.fresh init fd) (s.threads, s.world))
  | .call (.dataAvailable fd) => settle s.nextId (dataAvailable S fd (s.threads, s.world))
  | .call (.removeSession fd) => settle s.nextId (removeSession S fd (s.threads, s.world))
  | .worker k =>
      match tc.kind with
      | .single => none
      | .multi => settle s.nextId (workerPass S k (s.threads, s.world))

/-- What a step does, after routing. -/
inductive Does (S : SessionClass W σ) (init : σ) (s : State tc σ W) : Label tc → State tc σ W → Prop
  | added (fd : SOCKET) :
      Does S init s (.call (.addSession fd))
        { threads := insert s.threads (s.fresh init fd)
          world := Thread.destroy S (lookup s.threads fd) s.world
          nextId := s.nextId + 1 }
  | removed (fd : SOCKET) :
      Does S init s (.call (.removeSession fd))
        { s with
          threads := remove s.threads fd
          world := Thread.destroy S (lookup s.threads fd) s.world }
  | queued (fd : SOCKET) (hk : tc.kind = .multi) :
      Does S init s (.call (.dataAvailable fd)) { s with threads := enqueue s.threads fd }
  | ran (fd : SOCKET) (tm : ThreadManager tc σ) (w : W) (hk : tc.kind = .single)
      (h : iterate S fd (s.threads, s.world) = .ok () (tm, w)) :
      Does S init s (.call (.dataAvailable fd)) { s with threads := tm, world := w }
  | idle (k : Fin tc.size) (hk : tc.kind = .multi) (hq : (s.threads k).queue = []) :
      Does S init s (.worker k) s
  | served (k : Fin tc.size) (fd : SOCKET) (rest : List SOCKET) (tm : ThreadManager tc σ) (w : W)
      (hk : tc.kind = .multi) (hq : (s.threads k).queue = fd :: rest)
      (h : iterate S fd (setQueue s.threads k rest, s.world) = .ok () (tm, w)) :
      Does S init s (.worker k) { s with threads := tm, world := w }

theorem settle_eq_some {s' : State tc σ W} {n : Nat}
    {r : EStateM.Result Abrupt (ThreadManager tc σ × W) Unit} (h : settle n r = some s') :
    r = .ok () (s'.threads, s'.world) ∧ s'.nextId = n := by
  cases r with
  | error e x => exact absurd h (by simp [settle])
  | ok a x =>
      simp only [settle, Option.some.injEq] at h
      subst h
      exact ⟨rfl, rfl⟩

/-- **The cases of a step.** -/
theorem does_of_step {S : SessionClass W σ} {init : σ} {s s' : State tc σ W} {l : Label tc}
    (hpos : 0 < tc.size) (hr : Routed s.threads) (h : step S init s l = some s') :
    Does S init s l s' := by
  cases l with
  | call c =>
      cases c with
      | addSession fd =>
          obtain ⟨hok, hn⟩ := settle_eq_some h
          rw [addSession_eq hpos] at hok
          obtain ⟨threads, world, nextId⟩ := s'
          simp only [EStateM.Result.ok.injEq, Prod.mk.injEq, true_and] at hok hn
          rw [← hok.1, ← hok.2, hn]
          exact .added fd
      | removeSession fd =>
          obtain ⟨hok, hn⟩ := settle_eq_some h
          rw [removeSession_eq hpos] at hok
          obtain ⟨threads, world, nextId⟩ := s'
          simp only [EStateM.Result.ok.injEq, Prod.mk.injEq, true_and] at hok hn
          rw [← hok.1, ← hok.2, hn]
          exact .removed fd
      | dataAvailable fd =>
          obtain ⟨hok, hn⟩ := settle_eq_some h
          obtain ⟨threads, world, nextId⟩ := s'
          simp only at hok hn
          cases hk : tc.kind with
          | single =>
              rw [dataAvailable_single hpos hk] at hok
              rw [hn]
              exact .ran fd threads world hk hok
          | multi =>
              rw [dataAvailable_multi hpos hk] at hok
              simp only [EStateM.Result.ok.injEq, Prod.mk.injEq, true_and] at hok
              rw [← hok.1, ← hok.2, hn]
              exact .queued fd hk
  | worker k =>
      cases hk : tc.kind with
      | single =>
          simp only [step, hk] at h
          exact absurd h (by simp)
      | multi =>
          simp only [step, hk] at h
          obtain ⟨hok, hn⟩ := settle_eq_some h
          cases hq : (s.threads k).queue with
          | nil =>
              rw [workerPass_empty hq] at hok
              obtain ⟨threads, world, nextId⟩ := s'
              simp only [EStateM.Result.ok.injEq, Prod.mk.injEq, true_and] at hok hn
              rw [← hok.1, ← hok.2, hn]
              exact .idle k hk hq
          | cons fd rest =>
              have hfd := hr.queue k fd (by rw [hq]; exact List.mem_cons_self)
              rw [workerPass_cons hpos hq hfd] at hok
              obtain ⟨threads, world, nextId⟩ := s'
              simp only at hok hn
              rw [hn]
              exact .served k fd rest threads world hk hq hok

/-- Iterations keep the routing. -/
theorem routed_iterate {S : SessionClass W σ} {fd : SOCKET} {tm tm' : ThreadManager tc σ} {w w' : W}
    (hr : Routed tm) (h : iterate S fd (tm, w) = .ok () (tm', w')) : Routed tm' := by
  rcases iterate_ok h with ⟨_, rfl, _⟩ | ⟨s, self, _, _, rfl⟩
  · exact hr
  · exact hr.setSelf fd s self

/-- **The routing invariant is kept by every step.** -/
theorem routed_step {S : SessionClass W σ} {init : σ} {s s' : State tc σ W} {l : Label tc}
    (hpos : 0 < tc.size) (hr : Routed s.threads) (h : step S init s l = some s') :
    Routed s'.threads := by
  cases does_of_step hpos hr h with
  | added fd => exact hr.insert _
  | removed fd => exact hr.remove fd
  | queued fd hk => exact hr.enqueue fd
  | ran fd tm w hk hit => exact routed_iterate hr hit
  | idle k hk hq => exact hr
  | served k fd rest tm w hk hq hit =>
      refine routed_iterate (hr.setQueue ?_) hit
      intro fd' hfd'
      rw [hq]
      exact List.mem_cons_of_mem _ hfd'

end Pool

end Neblina

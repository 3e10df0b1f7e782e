import Neblina.Thread.Pool

/-!
# `Thread.Recorded` — what the session objects themselves do

Whether a queue entry led to an `iteration()` of a session object cannot be seen in the maps and queues of the
threads. The objects of a `recorded` class write it down themselves: that their `iteration()` was run and has
returned, and that they were destroyed. Nothing else changes; a pool of recorded sessions is the pool, once
the record is forgotten (`step_forget`). `acts_step` says what is written down in each step.
-/

namespace Neblina

open ThreadManager

variable {σ W : Type}

/-- What a session object writes down, under its identity. -/
inductive Act where
  | iterated (id : Nat)
  | destroyed (id : Nat)
  deriving DecidableEq, Repr

/-- The outside, and what the session objects wrote down, oldest first. -/
structure Recorded (W : Type) where
  world : W
  acts  : List Act

/-- The same sessions, with a record. -/
def SessionClass.recorded (S : SessionClass W σ) : SessionClass (Recorded W) σ where
  iteration conn x :=
    match S.iteration conn (x.1, x.2.world) with
    | .ok _ r => .ok () (r.1, ⟨r.2, x.2.acts ++ [.iterated conn.id]⟩)
    | .error e r => .error e (r.1, ⟨r.2, x.2.acts⟩)
  close conn w := ⟨S.close conn w.world, w.acts ++ [.destroyed conn.id]⟩

/-- An iteration of a recorded session that returned is the session's, and is in the record. -/
theorem SessionClass.recorded_iteration {S : SessionClass W σ} {conn : Connection} {self self' : σ}
    {w w' : Recorded W} (h : S.recorded.iteration conn (self, w) = .ok () (self', w')) :
    S.iteration conn (self, w.world) = .ok () (self', w'.world) ∧
      w'.acts = w.acts ++ [.iterated conn.id] := by
  simp only [SessionClass.recorded] at h
  cases hit : S.iteration conn (self, w.world) with
  | error e r =>
      rw [hit] at h
      exact absurd h (by simp)
  | ok a r =>
      rw [hit] at h
      simp only [EStateM.Result.ok.injEq, Prod.mk.injEq, true_and] at h
      obtain ⟨rfl, rfl⟩ := h
      exact ⟨rfl, rfl⟩

/-! ## Forgetting the record -/

/-- The result of an operation without the record. -/
def Recorded.forget {α : Type} :
    EStateM.Result Abrupt (α × Recorded W) Unit → EStateM.Result Abrupt (α × W) Unit
  | .ok _ r => .ok () (r.1, r.2.world)
  | .error e r => .error e (r.1, r.2.world)

theorem Thread.destroy_forget (S : SessionClass W σ) (old : Option (Session σ)) (w : Recorded W) :
    (Thread.destroy S.recorded old w).world = Thread.destroy S old w.world := by
  cases old with
  | none => rfl
  | some s => rfl

theorem Thread.iterate_forget (S : SessionClass W σ) (fd : SOCKET) (t : Thread σ) (w : Recorded W) :
    Thread.iterate S fd (t, w.world) = Recorded.forget (Thread.iterate S.recorded fd (t, w)) := by
  unfold Thread.iterate
  cases t.sessions fd with
  | none => rfl
  | some s =>
      simp only [SessionClass.recorded]
      cases S.iteration s.conn (s.self, w.world) with
      | ok a r => rfl
      | error e r => rfl

theorem ThreadMulti.pass_forget (S : SessionClass W σ) (t : Thread σ) (w : Recorded W) :
    ThreadMulti.pass S (t, w.world) = Recorded.forget (ThreadMulti.pass S.recorded (t, w)) := by
  unfold ThreadMulti.pass
  simp only
  split
  · rfl
  · exact Thread.iterate_forget S _ _ w

namespace ThreadManager

variable {tc : ThreadCount}

/-- The routing hands the outside on as it is. -/
theorem atThread_forget {fd : SOCKET} {op : EStateM Abrupt (Thread σ × W) Unit}
    {op' : EStateM Abrupt (Thread σ × Recorded W) Unit}
    (hop : ∀ t w, op (t, w.world) = Recorded.forget (op' (t, w))) (tm : ThreadManager tc σ) (w : Recorded W) :
    atThread fd op (tm, w.world) = Recorded.forget (atThread fd op' (tm, w)) := by
  unfold atThread
  by_cases hpos : 0 < tc.size
  · rw [dif_pos hpos, dif_pos hpos]
    simp only [hop]
    cases op' (tm (index hpos fd), w) with
    | ok a r => rfl
    | error e r => rfl
  · rw [dif_neg hpos, dif_neg hpos]
    rfl

end ThreadManager

namespace Pool

variable {tc : ThreadCount} {S : SessionClass W σ} {init : σ}

/-- The pool without the record. -/
def State.forget (s : State tc σ (Recorded W)) : State tc σ W := ⟨s.threads, s.world.world, s.nextId⟩

theorem settle_forget (n : Nat) (r : EStateM.Result Abrupt (ThreadManager tc σ × Recorded W) Unit) :
    settle n (Recorded.forget r) = (settle n r).map State.forget := by
  cases r with
  | ok a x => rfl
  | error e x => rfl

/-- **The record changes nothing**: a step of recorded sessions is the step of the sessions. -/
theorem step_forget (s : State tc σ (Recorded W)) (l : Label tc) :
    step S init s.forget l = (step S.recorded init s l).map State.forget := by
  have herase : ∀ fd (t : Thread σ) (w : Recorded W),
      (.ok () (Thread.erase S fd (t, w.world)) : EStateM.Result Abrupt (Thread σ × W) Unit) =
        Recorded.forget (.ok () (Thread.erase S.recorded fd (t, w))) := by
    intro fd t w
    simp only [Recorded.forget, Thread.erase, Thread.destroy_forget]
  have hemplace : ∀ (x : Session σ) (t : Thread σ) (w : Recorded W),
      (.ok () (Thread.emplace S x (t, w.world)) : EStateM.Result Abrupt (Thread σ × W) Unit) =
        Recorded.forget (.ok () (Thread.emplace S.recorded x (t, w))) := by
    intro x t w
    simp only [Recorded.forget, Thread.emplace, Thread.destroy_forget]
  cases l with
  | call c =>
      cases c with
      | addSession fd =>
          simp only [step]
          rw [← settle_forget]
          congr 1
          unfold addSession
          cases tc.kind with
          | single => exact atThread_forget (hemplace _) _ _
          | multi => exact atThread_forget (hemplace _) _ _
      | removeSession fd =>
          simp only [step]
          rw [← settle_forget]
          congr 1
          unfold removeSession
          cases tc.kind with
          | single => exact atThread_forget (herase fd) _ _
          | multi => exact atThread_forget (herase fd) _ _
      | dataAvailable fd =>
          simp only [step]
          rw [← settle_forget]
          congr 1
          unfold dataAvailable
          cases tc.kind with
          | single => exact atThread_forget (Thread.iterate_forget S fd) _ _
          | multi => exact atThread_forget (fun _ _ => rfl) _ _
  | worker k =>
      simp only [step]
      cases tc.kind with
      | single => rfl
      | multi =>
          simp only
          rw [← settle_forget]
          congr 1
          unfold workerPass
          simp only [State.forget, ThreadMulti.pass_forget]
          cases ThreadMulti.pass S.recorded (s.threads k, s.world) with
          | ok a r => rfl
          | error e r => rfl

/-! ## What is written down -/

/-- The session object that `fd` leads to. -/
def owner (tm : ThreadManager tc σ) (fd : SOCKET) : Option Nat :=
  (lookup tm fd).map (fun x => x.conn.id)

section Owner

variable {tm tm' : ThreadManager tc σ} {fd : SOCKET}

theorem owner_eq (tm : ThreadManager tc σ) : owner tm = fun fd => (conns tm fd).map Connection.id := by
  funext fd
  unfold owner conns
  rw [Option.map_map]
  rfl

theorem owner_of_update {v : Option (Session σ)}
    (h : lookup tm' = Function.update (lookup tm) fd v) :
    owner tm' = Function.update (owner tm) fd (v.map (fun x => x.conn.id)) := by
  rw [owner_eq, owner_eq, conns_of_update h]
  funext fd'
  by_cases hfd : fd' = fd
  · rw [hfd, Function.update_self, Function.update_self, Option.map_map]
    rfl
  · rw [Function.update_of_ne hfd, Function.update_of_ne hfd]

theorem owner_congr (h : conns tm' = conns tm) : owner tm' = owner tm := by
  rw [owner_eq, owner_eq, h]

theorem queue_iterate {S : SessionClass W σ} {w w' : W}
    (h : iterate S fd (tm, w) = .ok () (tm', w')) (k : Fin tc.size) :
    (tm' k).queue = (tm k).queue := by
  rcases iterate_ok h with ⟨_, rfl, _⟩ | ⟨x, self, _, _, rfl⟩
  · rfl
  · exact queue_setSelf x self k

end Owner

/-- The objects that a step destroys and iterates: the one that is in the way of a new session or is removed;
    the one the data of a `ThreadSingle` is for, or the first entry of the worker's queue. -/
def due (s : State tc σ W) : Label tc → List Act
  | .call (.addSession fd) => ((owner s.threads fd).map .destroyed).toList
  | .call (.removeSession fd) => ((owner s.threads fd).map .destroyed).toList
  | .call (.dataAvailable fd) =>
      match tc.kind with
      | .single => ((owner s.threads fd).map .iterated).toList
      | .multi => []
  | .worker k => (((s.threads k).queue.head?.bind (owner s.threads)).map .iterated).toList

theorem acts_destroy (tm : ThreadManager tc σ) (fd : SOCKET) (w : Recorded W) :
    (Thread.destroy S.recorded (lookup tm fd) w).acts =
      w.acts ++ ((owner tm fd).map .destroyed).toList := by
  unfold owner
  cases lookup tm fd with
  | none => exact (List.append_nil _).symm
  | some x => rfl

theorem acts_iterate {tm tm' : ThreadManager tc σ} {fd : SOCKET} {w w' : Recorded W}
    (h : iterate S.recorded fd (tm, w) = .ok () (tm', w')) :
    w'.acts = w.acts ++ ((owner tm fd).map .iterated).toList := by
  unfold owner
  rcases iterate_ok h with ⟨hnone, _, rfl⟩ | ⟨x, self, hx, hit, _⟩
  · rw [hnone]
    exact (List.append_nil _).symm
  · rw [hx]
    exact (SessionClass.recorded_iteration hit).2

/-- **What the sessions write down in a step.** -/
theorem acts_step {s s' : State tc σ (Recorded W)} {l : Label tc} (hpos : 0 < tc.size)
    (hr : Routed s.threads) (h : step S.recorded init s l = some s') :
    s'.world.acts = s.world.acts ++ due s l := by
  cases does_of_step hpos hr h with
  | added fd => exact acts_destroy s.threads fd s.world
  | removed fd => exact acts_destroy s.threads fd s.world
  | queued fd hk =>
      simp only [due, hk]
      exact (List.append_nil _).symm
  | ran fd tm w hk hit =>
      simp only [due, hk]
      exact acts_iterate hit
  | idle k hk hq =>
      simp only [due, hq]
      exact (List.append_nil _).symm
  | served k fd rest tm w hk hq hit =>
      have hacts := acts_iterate hit
      rw [owner_congr (conns_congr (lookup_setQueue k rest))] at hacts
      simp only [due, hq]
      exact hacts

end Pool

end Neblina

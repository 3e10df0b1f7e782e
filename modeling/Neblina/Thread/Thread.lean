import Mathlib.Logic.Function.Basic
import Neblina.Protocol.Session

/-!
# `Thread.Thread` — `Thread`, `ThreadSingle` and `ThreadMulti`

A thread owns a map from descriptors to sessions; `ThreadMulti` has a queue of descriptors besides.
`ThreadSingle` runs the iteration inside `data_available`, `ThreadMulti` queues the descriptor and its
worker runs one iteration per pass.

Every operation of `ThreadMulti` holds `mutex_` from its first access to its last, and so does a pass of
the worker from the return of `wait_for` to the end of the loop body. Each is therefore one step on the
thread's state. (The worker's steps inside a pass matter only for the destructor: `Thread.Shutdown`.)
-/

namespace Neblina

variable {σ W : Type}

/-- What a thread uses of its sessions: the virtual `iteration`, and the end of the session's connection
    when the `unique_ptr` lets go of the session. -/
structure SessionClass (W σ : Type) where
  iteration : Connection → EStateM Abrupt (σ × W) Unit
  close     : Connection → W → W

/-- The sessions that behave as `m` on connections `ops`. -/
def Machine.sessionClass (m : Machine σ) (ops : ConnectionOps W) : SessionClass W σ where
  iteration := m.iteration ops
  close := ops.close

/-- Sessions that do nothing. -/
def SessionClass.silent : SessionClass Unit Unit := ⟨fun _ x => .ok () x, fun _ w => w⟩

/-- `sessions_`, and the `queue_` of a `ThreadMulti` (in a `ThreadSingle` it stays empty). -/
structure Thread (σ : Type) where
  sessions : SOCKET → Option (Session σ)
  queue    : List SOCKET

namespace Thread

def empty : Thread σ := ⟨fun _ => none, []⟩

/-- The destruction of the session a map entry held, if it held one. -/
def destroy (S : SessionClass W σ) (old : Option (Session σ)) (w : W) : W :=
  match old with
  | none => w
  | some s => S.close s.conn w

/-- `sessions_[session->fd()] = std::move(session)`. A session that was there is destroyed. -/
def emplace (S : SessionClass W σ) (s : Session σ) (x : Thread σ × W) : Thread σ × W :=
  ({ x.1 with sessions := Function.update x.1.sessions s.fd (some s) },
    destroy S (x.1.sessions s.fd) x.2)

/-- `sessions_.erase(fd)`. -/
def erase (S : SessionClass W σ) (fd : SOCKET) (x : Thread σ × W) : Thread σ × W :=
  ({ x.1 with sessions := Function.update x.1.sessions fd none }, destroy S (x.1.sessions fd) x.2)

/-- `queue_.push_back(fd)`. -/
def push (fd : SOCKET) (t : Thread σ) : Thread σ := { t with queue := t.queue ++ [fd] }

/-- The session under `fd` after its fields became `self`. -/
def store (t : Thread σ) (fd : SOCKET) (s : Session σ) (self : σ) : Thread σ :=
  { t with sessions := Function.update t.sessions fd (some { s with self := self }) }

/-- `auto it = sessions_.find(fd); if (it != sessions_.end()) it->second->iteration();` -/
def iterate (S : SessionClass W σ) (fd : SOCKET) : EStateM Abrupt (Thread σ × W) Unit := fun x =>
  match x.1.sessions fd with
  | none => .ok () x
  | some s =>
      match S.iteration s.conn (s.self, x.2) with
      | .ok _ r => .ok () (x.1.store fd s r.1, r.2)
      | .error e r => .error e (x.1.store fd s r.1, r.2)

end Thread

/-! ## `ThreadSingle` -/

namespace ThreadSingle

/-- `ThreadSingle::add_session`. -/
def addSession (S : SessionClass W σ) (s : Session σ) : EStateM Abrupt (Thread σ × W) Unit :=
  fun x => .ok () (Thread.emplace S s x)

/-- `ThreadSingle::remove_session`. -/
def removeSession (S : SessionClass W σ) (fd : SOCKET) : EStateM Abrupt (Thread σ × W) Unit :=
  fun x => .ok () (Thread.erase S fd x)

/-- `ThreadSingle::data_available`. -/
def dataAvailable (S : SessionClass W σ) (fd : SOCKET) : EStateM Abrupt (Thread σ × W) Unit :=
  Thread.iterate S fd

end ThreadSingle

/-! ## `ThreadMulti` -/

namespace ThreadMulti

/-- `ThreadMulti::add_session`. -/
def addSession (S : SessionClass W σ) (s : Session σ) : EStateM Abrupt (Thread σ × W) Unit :=
  fun x => .ok () (Thread.emplace S s x)

/-- `ThreadMulti::remove_session`. -/
def removeSession (S : SessionClass W σ) (fd : SOCKET) : EStateM Abrupt (Thread σ × W) Unit :=
  fun x => .ok () (Thread.erase S fd x)

/-- `ThreadMulti::data_available`. -/
def dataAvailable (fd : SOCKET) : EStateM Abrupt (Thread σ × W) Unit :=
  fun x => .ok () (x.1.push fd, x.2)

/-- One pass of the worker's loop, from the return of `wait_for` on. Why `wait_for` returned (a
    notification, the 10 ms timeout, a spurious wake-up) makes no difference. -/
def pass (S : SessionClass W σ) : EStateM Abrupt (Thread σ × W) Unit := fun x =>
  match x.1.queue with
  | [] => .ok () x
  | fd :: rest => Thread.iterate S fd ({ x.1 with queue := rest }, x.2)

end ThreadMulti

end Neblina

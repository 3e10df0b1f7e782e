import Mathlib.Logic.Function.Basic
import Neblina.Protocol.Session

/-!
# `Protocol.Scripted` — connections whose `recv` results are fixed in advance

The outside of a server in which no call fails: each connection returns the pieces of its own script from
successive `recv` calls, and then empty strings (the non-blocking socket would block), and takes whatever
is sent on it. Used where a property is about what the sessions do with given pieces.
-/

namespace Neblina

/-- For each connection, by its identity: what `recv` will still return, and what `send` was given. -/
structure Scripted where
  inbox  : Nat → List Bytes
  outbox : Nat → List Bytes

namespace Scripted

def recv (c : Connection) : EStateM Abrupt Scripted Bytes := fun w =>
  match w.inbox c.id with
  | [] => .ok [] w
  | bs :: rest => .ok bs { w with inbox := Function.update w.inbox c.id rest }

def send (c : Connection) (data : Bytes) : EStateM Abrupt Scripted Unit := fun w =>
  .ok () { w with outbox := Function.update w.outbox c.id (w.outbox c.id ++ [data]) }

def ops : ConnectionOps Scripted where
  recv := recv
  send := send
  close _ w := w

/-- The piece the next `recv` on `c` returns. -/
def next (w : Scripted) (c : Connection) : Bytes := (w.inbox c.id).headD []

/-- The world after a `recv` on `c` and, when `out` is given, a `send` of it. -/
def after (w : Scripted) (c : Connection) (out : Option Bytes) : Scripted where
  inbox := Function.update w.inbox c.id (w.inbox c.id).tail
  outbox := Function.update w.outbox c.id (w.outbox c.id ++ out.toList)

theorem recv_eq (c : Connection) (w : Scripted) :
    recv c w = .ok (w.next c) { w with inbox := Function.update w.inbox c.id (w.inbox c.id).tail } := by
  unfold recv next
  cases h : w.inbox c.id with
  | nil =>
      have hupd : Function.update w.inbox c.id [] = w.inbox := by
        rw [← h]
        exact Function.update_eq_self _ _
      simp [hupd]
  | cons bs rest => rfl

/-- **One iteration on a scripted connection.** It never fails, takes one piece of the connection's own
    script and adds at most one entry to what was sent on it. -/
theorem iteration_eq {σ : Type} (m : Machine σ) (c : Connection) (self : σ) (w : Scripted) :
    m.iteration ops c (self, w) =
      .ok () ((m.onData self (w.next c)).1, w.after c (m.onData self (w.next c)).2) := by
  rw [Machine.iteration_recv_ok (recv_eq c w)]
  cases (m.onData self (w.next c)).2 with
  | none => simp [after]
  | some response => rfl

end Scripted

end Neblina

import Neblina.Lib.Effect
import Neblina.Server.Connection

/-!
# `Protocol.Session` — sessions as request/response machines

`Session::iteration` reads once, calls `process` when something came, and sends the response. Seen from
the threads a session is a `Machine`: what it does with the data of one `recv`. `Session::iteration` and
`LineSession::iteration` (`Protocol.LineSession`) are both `Machine.iteration` of such a machine, so what
the thread and server layers prove holds for either.
-/

namespace Neblina

open Effect

/-- `process` of a concrete session class: a function of the object's own fields and of the data, which
    may throw. -/
abbrev Process (σ : Type) := Bytes → EStateM Abrupt σ Bytes

/-- A `process` that returns on every input. -/
def Process.total {σ : Type} (f : σ → Bytes → Bytes × σ) : Process σ :=
  fun data s => .ok (f s data).1 (f s data).2

/-- A `Session` object: its connection and its fields. -/
structure Session (σ : Type) where
  conn : Connection
  self : σ

namespace Session

variable {σ W : Type}

/-- `Session::fd`. -/
def fd (s : Session σ) : SOCKET := s.conn.fd

/-- `Session::iteration`. -/
def iteration (ops : ConnectionOps W) (process : Process σ) (conn : Connection) :
    EStateM Abrupt (σ × W) Unit := do
  let request ← onSnd (ops.recv conn)
  if !request.isEmpty then
    let response ← onFst (process request)
    onSnd (ops.send conn response)

end Session

/-! ## Machines -/

/-- What a session does with the data of one `recv`: its new fields, and what it hands to `send` (`none`
    when `send` is not called). -/
structure Machine (σ : Type) where
  init : σ
  onData : σ → Bytes → σ × Option Bytes

namespace Machine

variable {σ W : Type}

/-- The machine's reaction as a computation on the session's fields. -/
def react (m : Machine σ) (data : Bytes) : EStateM Abrupt σ (Option Bytes) :=
  fun s => .ok (m.onData s data).2 (m.onData s data).1

/-- `iteration` of a session that behaves as the machine: one `recv`, then at most one `send`. -/
def iteration (m : Machine σ) (ops : ConnectionOps W) (conn : Connection) :
    EStateM Abrupt (σ × W) Unit := do
  let data ← onSnd (ops.recv conn)
  let response ← onFst (m.react data)
  match response with
  | none => pure ()
  | some response => onSnd (ops.send conn response)

/-- The machine of a plain `Session` with a total `process`. -/
def plain (init : σ) (f : σ → Bytes → Bytes × σ) : Machine σ where
  init := init
  onData s data := if data.isEmpty then (s, none) else ((f s data).2, some (f s data).1)

/-- **A plain session is its machine.** -/
theorem session_iteration_eq_plain (ops : ConnectionOps W) (init : σ) (f : σ → Bytes → Bytes × σ)
    (conn : Connection) (s : σ × W) :
    Session.iteration ops (Process.total f) conn s = (plain init f).iteration ops conn s := by
  obtain ⟨self, w⟩ := s
  cases hr : ops.recv conn w with
  | error e w' =>
      have h := onSnd_of_error (s := self) hr
      rw [Session.iteration, Machine.iteration, bind_of_error h, bind_of_error h]
  | ok data w' =>
      have h := onSnd_of_ok (s := self) hr
      rw [Session.iteration, Machine.iteration, bind_of_ok h, bind_of_ok h]
      cases data with
      | nil => rfl
      | cons b bs => rfl

/-! ### One iteration, by how its `recv` and `send` end -/

variable {m : Machine σ} {ops : ConnectionOps W} {conn : Connection} {self : σ} {w w' : W}

theorem iteration_recv_error {e : Abrupt} (h : ops.recv conn w = .error e w') :
    m.iteration ops conn (self, w) = .error e (self, w') := by
  rw [Machine.iteration, bind_of_error (onSnd_of_error h)]

theorem iteration_recv_ok {data : Bytes} (h : ops.recv conn w = .ok data w') :
    m.iteration ops conn (self, w) =
      match (m.onData self data).2 with
      | none => .ok () ((m.onData self data).1, w')
      | some response => onSnd (ops.send conn response) ((m.onData self data).1, w') := by
  have hreact : (onFst (m.react data) : EStateM Abrupt (σ × W) (Option Bytes)) (self, w') =
      .ok (m.onData self data).2 ((m.onData self data).1, w') := onFst_of_ok rfl
  rw [Machine.iteration, bind_of_ok (onSnd_of_ok h), bind_of_ok hreact]
  cases (m.onData self data).2 with
  | none => rfl
  | some response => rfl

end Machine

end Neblina

import Neblina.Server.Poller
import Neblina.Thread.ThreadManager

/-!
# `Server.Server` — `Server`, `TCPServer` and `SSLServer`

`Server::iterate` waits, and handles the events one after the other. A new client is accepted, its
connection and session are created, the session goes to the thread manager and the descriptor to the
poller; an exception on the way leaves `iterate`, and the events behind it are lost.

`takeIn` is the part of that up to the thread manager. `accept_cases` and `takeIn_eq` list its ends.
-/

namespace Neblina

open ThreadManager

/-- A server: `TCPServer` or `SSLServer` (by its connections), the poller it was built with, its listening
    socket, and the sessions its protocol creates. -/
structure Setup (σ : Type) where
  platform  : Platform
  transport : Transport
  serverFd  : SOCKET
  machine   : Machine σ

variable {σ : Type} {tc : ThreadCount}

/-- The sessions in a step in which the OS returns `os`. -/
def Setup.sessions (S : Setup σ) (os : Os) : SessionClass Kernel σ :=
  S.machine.sessionClass (Kernel.ops S.transport os)

/-- `socket_mark_as_nonblocking`: what it throws. Windows makes one call, POSIX two. -/
def socketMarkAsNonblocking : Platform → FcntlResult → Option Exc
  | _, .done => none
  | .win32, _ => some (.nonRecoverable "error marking socket as non-blocking" none)
  | _, .getFailed errno => some (.nonRecoverable "fcntl: {}" (some errno))
  | _, .setFailed => some (.nonRecoverable "error marking socket as non-blocking" none)

/-- The kernel after `::accept` gave out `fd` for the client `id` at the head of the backlog. -/
def Kernel.opened (k : Kernel) (fd : SOCKET) (id : Nat) (rest : List Nat) : Kernel :=
  { k with backlog := rest, fds := Function.update k.fds fd (some id) }

namespace Server

/-- `TCPServer::accept`. The call does not return while nobody has connected, and it returns a descriptor
    that is not open. -/
def accept (S : Setup σ) (os : Os) : EStateM Abrupt Kernel SOCKET := fun k =>
  match os.accept with
  | .failed errno => .error (.throws (.nonRecoverable "listen error: " (some errno))) k
  | .accepted fd =>
      match k.backlog with
      | [] => .error .running k
      | id :: rest =>
          if fd = S.serverFd ∨ (k.fds fd).isSome then .error .running k
          else
            match socketMarkAsNonblocking S.platform os.fcntl with
            | none => .ok fd (k.opened fd id rest)
            | some e => .error (.throws e) (k.opened fd id rest)

/-- What `SSLConnection::SSLConnection` throws: `ERR_print_errors_cb` calls `err`, which throws, with the
    first string of the error queue. A handshake that failed with nothing in the queue goes unnoticed. -/
def handshakeError (t : Transport) (os : Os) : Option Exc :=
  match t, os.handshake with
  | .tls, some (str :: _) => some (.runtimeError ("ssl server: {}" ++ str) none)
  | _, _ => none

/-- `create_connection`. When the constructor of `SSLConnection` throws, `~Connection` closes the
    descriptor. -/
def createConnection (S : Setup σ) (os : Os) (fd : SOCKET) : EStateM Abrupt Kernel Connection := fun k =>
  let c : Connection := ⟨fd, (k.fds fd).getD k.clients⟩
  match handshakeError S.transport os with
  | none => .ok c k
  | some e => .error (.throws e) (Kernel.close c k)

/-- `SOCKET fd = accept(); thread_manager_.add_session(protocol_->create_session(create_connection(fd)));` -/
def takeIn (S : Setup σ) (os : Os) : EStateM Abrupt (ThreadManager tc σ × Kernel) SOCKET := do
  let fd ← Effect.onSnd (accept S os)
  let conn ← Effect.onSnd (createConnection S os fd)
  addSession (S.sessions os) ⟨conn, S.machine.init⟩
  pure fd

/-- One pass of the loop of `Server::iterate`. -/
def handle (S : Setup σ) (os : Os) (ev : Event) : EStateM Abrupt (ThreadManager tc σ × Kernel) Unit :=
  match ev.type with
  | .newClient => do
      let fd ← takeIn S os
      Effect.onSnd (Poller.addClient S.platform fd)
  | .clientDataReady => dataAvailable (S.sessions os) ev.fd
  | .clientDisconnected => removeSession (S.sessions os) ev.fd

/-- The loop of `Server::iterate`, with the results the OS returns in each pass. -/
def handleAll (S : Setup σ) : List (Event × Os) → EStateM Abrupt (ThreadManager tc σ × Kernel) Unit
  | [] => pure ()
  | (ev, os) :: rest => do
      handle S os ev
      handleAll S rest

/-- `Server::iterate`. `results` has one entry for each event of the batch: with fewer of them the passes behind
    the last one are not made, and what is too much is not looked at. -/
def iterate (S : Setup σ) (r : PollResult) (results : List Os) :
    EStateM Abrupt (ThreadManager tc σ × Kernel) Unit := do
  let evs ← Effect.onSnd (Poller.wait S.platform S.serverFd r)
  handleAll S (evs.zip results)

/-! ## The ends of `takeIn` -/

variable {S : Setup σ} {os : Os} {tm : ThreadManager tc σ} {k : Kernel}

/-- The descriptor and the client of an `::accept` that can return. -/
structure Accepts (S : Setup σ) (os : Os) (k : Kernel) (fd : SOCKET) (id : Nat) (rest : List Nat) :
    Prop where
  result  : os.accept = .accepted fd
  backlog : k.backlog = id :: rest
  other   : fd ≠ S.serverFd
  closed  : k.fds fd = none

section Accepts

variable {fd : SOCKET} {id : Nat} {rest : List Nat}

theorem Accepts.head_mem (h : Accepts S os k fd id rest) : id ∈ k.backlog := by
  rw [h.backlog]
  exact List.mem_cons_self

theorem Accepts.mem_of_rest (h : Accepts S os k fd id rest) {id' : Nat} (hin : id' ∈ rest) : id' ∈ k.backlog := by
  rw [h.backlog]
  exact List.mem_cons_of_mem _ hin

/-- The new descriptor is none of the open ones. -/
theorem Accepts.ne_of_open (h : Accepts S os k fd id rest) {fd' : SOCKET} (hopen : (k.fds fd').isSome) :
    fd' ≠ fd := by
  rintro rfl
  rw [h.closed] at hopen
  exact absurd hopen (by simp)

end Accepts

theorem accept_eq {fd : SOCKET} {id : Nat} {rest : List Nat} (h : Accepts S os k fd id rest) :
    accept S os k =
      match socketMarkAsNonblocking S.platform os.fcntl with
      | none => .ok fd (k.opened fd id rest)
      | some e => .error (.throws e) (k.opened fd id rest) := by
  have hfree : ¬ (fd = S.serverFd ∨ (k.fds fd).isSome) := by
    rw [h.closed]
    intro hor
    exact hor.elim h.other (by simp)
  unfold accept
  rw [h.result, h.backlog]
  simp only [if_neg hfree]

/-- `::accept` fails, is still running, or returns. -/
theorem accept_cases (S : Setup σ) (os : Os) (k : Kernel) :
    (∃ errno, os.accept = .failed errno ∧
      accept S os k = .error (.throws (.nonRecoverable "listen error: " (some errno))) k) ∨
    accept S os k = .error .running k ∨ ∃ fd id rest, Accepts S os k fd id rest := by
  cases hacc : os.accept with
  | failed errno =>
      refine Or.inl ⟨errno, rfl, ?_⟩
      unfold accept
      rw [hacc]
  | accepted fd =>
      cases hb : k.backlog with
      | nil =>
          refine Or.inr (Or.inl ?_)
          unfold accept
          rw [hacc, hb]
      | cons id rest =>
          by_cases hfree : fd = S.serverFd ∨ (k.fds fd).isSome
          · refine Or.inr (Or.inl ?_)
            unfold accept
            rw [hacc, hb]
            simp only [if_pos hfree]
          · refine Or.inr (Or.inr ⟨fd, id, rest, hacc, hb, fun h => hfree (Or.inl h), ?_⟩)
            cases hfd : k.fds fd with
            | none => rfl
            | some _ => exact absurd (Or.inr (by rw [hfd]; rfl)) hfree

/-- `takeIn` after an `::accept` that returned. -/
theorem takeIn_eq {fd : SOCKET} {id : Nat} {rest : List Nat} (h : Accepts S os k fd id rest) :
    takeIn S os (tm, k) =
      match socketMarkAsNonblocking S.platform os.fcntl, handshakeError S.transport os with
      | some e, _ => .error (.throws e) (tm, k.opened fd id rest)
      | none, some e => .error (.throws e) (tm, Kernel.close ⟨fd, id⟩ (k.opened fd id rest))
      | none, none =>
          if 0 < tc.size then
            .ok fd (insert tm ⟨⟨fd, id⟩, S.machine.init⟩,
              Thread.destroy (S.sessions os) (lookup tm fd) (k.opened fd id rest))
          else .error .divisionByZero (tm, k.opened fd id rest) := by
  have hacc := accept_eq h
  have hid : (k.opened fd id rest).fds fd = some id := Function.update_self _ _ _
  unfold takeIn
  cases hmark : socketMarkAsNonblocking S.platform os.fcntl with
  | some e =>
      rw [hmark] at hacc
      exact Effect.bind_of_error (Effect.onSnd_of_error hacc)
  | none =>
      rw [hmark] at hacc
      refine (Effect.bind_of_ok (Effect.onSnd_of_ok hacc)).trans ?_
      cases hhs : handshakeError S.transport os with
      | some e =>
          have hconn : createConnection S os fd (k.opened fd id rest) =
              .error (.throws e) (Kernel.close ⟨fd, id⟩ (k.opened fd id rest)) := by
            unfold createConnection
            rw [hhs, hid]
            rfl
          exact Effect.bind_of_error (Effect.onSnd_of_error hconn)
      | none =>
          have hconn : createConnection S os fd (k.opened fd id rest) =
              .ok ⟨fd, id⟩ (k.opened fd id rest) := by
            unfold createConnection
            rw [hhs, hid]
            rfl
          refine (Effect.bind_of_ok (Effect.onSnd_of_ok hconn)).trans ?_
          by_cases hpos : 0 < tc.size
          · rw [if_pos hpos]
            exact Effect.bind_of_ok (addSession_eq hpos ⟨⟨fd, id⟩, S.machine.init⟩)
          · rw [if_neg hpos]
            have hadd : addSession (S.sessions os) ⟨⟨fd, id⟩, S.machine.init⟩ (tm, k.opened fd id rest) =
                .error .divisionByZero (tm, k.opened fd id rest) := by
              rw [addSession_virtual]
              exact atThread_none hpos _ _
            exact Effect.bind_of_error hadd

end Server

end Neblina

import Mathlib.Logic.Function.Basic
import Neblina.Protocol.Session

/-!
# `Server.Kernel` — the sockets of the clients

Everything outside the server's own objects: the clients, what they sent and what of it has arrived, the
table of open descriptors, the registrations with the poller and the history of `close`. A connection
object reaches its socket only through its descriptor, so a descriptor that was closed and given out again
leads to the new client; that it never does so in this program is for the invariants to say.

What the OS and OpenSSL decide in a step of the server is in the `Os` of that step, so every result they
can return is a possible argument.
-/

namespace Neblina

/-! ## The receive buffer -/

namespace Transport

/-- What is left in the buffer as one arrival. -/
def rest (bs : Bytes) : List Bytes := if bs = [] then [] else [bs]

/-- One read from a buffer that is not empty: what it returns and what it leaves. `::recv` returns what is
    there up to the size of the caller's buffer, `SSL_read` one record, which always fits. -/
def read : Transport → List Bytes → Bytes × List Bytes
  | .tcp, rx => (rx.flatten.take recvBufSz, rest (rx.flatten.drop recvBufSz))
  | .tls, rx => (rx.headD [], rx.tail)

/-- The number of reads that empty the buffer. -/
def readsNeeded : Transport → List Bytes → Nat
  | .tcp, rx => (rx.flatten.length + (recvBufSz - 1)) / recvBufSz
  | .tls, rx => rx.length

/-- The largest arrival: a TLS record has at most 2^14 bytes. -/
def fits : Transport → Nat → Bool
  | .tcp, _ => true
  | .tls, n => n ≤ recvBufSz

theorem flatten_rest (bs : Bytes) : (rest bs).flatten = bs := by
  unfold rest
  by_cases h : bs = []
  · rw [if_pos h, h]
    rfl
  · rw [if_neg h]
    exact List.append_nil bs

theorem mem_rest {bs b : Bytes} (h : b ∈ rest bs) : b ≠ [] := by
  unfold rest at h
  by_cases hbs : bs = []
  · rw [if_pos hbs] at h
    exact absurd h List.not_mem_nil
  · rw [if_neg hbs, List.mem_singleton] at h
    rw [h]
    exact hbs

/-- A read takes from the front. -/
theorem read_flatten (t : Transport) (rx : List Bytes) :
    (t.read rx).1 ++ (t.read rx).2.flatten = rx.flatten := by
  cases t with
  | tcp =>
      show rx.flatten.take recvBufSz ++ (rest (rx.flatten.drop recvBufSz)).flatten = rx.flatten
      rw [flatten_rest, List.take_append_drop]
  | tls =>
      cases rx with
      | nil => rfl
      | cons r rs => rfl

theorem flatten_ne_nil {rx : List Bytes} (hne : ∀ b ∈ rx, b ≠ []) (h : rx ≠ []) : rx.flatten ≠ [] := by
  cases rx with
  | nil => exact absurd rfl h
  | cons r rs =>
      intro hnil
      rw [List.flatten_cons, List.append_eq_nil_iff] at hnil
      exact hne r List.mem_cons_self hnil.1

/-- A read from a buffer that is not empty returns something. -/
theorem read_ne_nil (t : Transport) {rx : List Bytes} (hne : ∀ b ∈ rx, b ≠ []) (h : rx ≠ []) :
    (t.read rx).1 ≠ [] := by
  cases t with
  | tcp =>
      show rx.flatten.take recvBufSz ≠ []
      intro hnil
      rcases List.take_eq_nil_iff.mp hnil with h0 | h0
      · exact absurd h0 (by decide)
      · exact flatten_ne_nil hne h h0
  | tls =>
      cases rx with
      | nil => exact absurd rfl h
      | cons r rs => exact hne r List.mem_cons_self

theorem read_rest_ne_nil (t : Transport) {rx : List Bytes} (hne : ∀ b ∈ rx, b ≠ []) :
    ∀ b ∈ (t.read rx).2, b ≠ [] := by
  intro b hb
  cases t with
  | tcp => exact mem_rest hb
  | tls => exact hne b (List.mem_of_mem_tail hb)

/-- **One read is one read less.** -/
theorem readsNeeded_read (t : Transport) (rx : List Bytes) :
    t.readsNeeded (t.read rx).2 = t.readsNeeded rx - 1 := by
  cases t with
  | tcp =>
      show ((rest (rx.flatten.drop recvBufSz)).flatten.length + (recvBufSz - 1)) / recvBufSz =
        (rx.flatten.length + (recvBufSz - 1)) / recvBufSz - 1
      rw [flatten_rest, List.length_drop]
      simp only [recvBufSz]
      omega
  | tls => exact List.length_tail

theorem readsNeeded_eq_zero {t : Transport} {rx : List Bytes} (hne : ∀ b ∈ rx, b ≠ [])
    (h : t.readsNeeded rx = 0) : rx = [] := by
  by_cases hrx : rx = []
  · exact hrx
  · cases t with
    | tcp =>
        have hpos := List.length_pos_iff.mpr (flatten_ne_nil hne hrx)
        have hzero : (rx.flatten.length + (recvBufSz - 1)) / recvBufSz = 0 := h
        simp only [recvBufSz] at hzero
        omega
    | tls => exact List.length_eq_zero_iff.mp h

end Transport

/-! ## Sockets -/

/-- The socket of one client, seen from the server. -/
structure Sock where
  /-- Everything the client sent. -/
  sent  : Bytes
  /-- What of it is still on its way. -/
  wire  : Bytes
  /-- What arrived and was not read, one entry for each arrival (for TLS, for each record). -/
  rx    : List Bytes
  /-- The bytes the reads returned, oldest read first. -/
  reads : List Bytes
  /-- The end of the stream arrived (FIN or RST): nothing can arrive after it. -/
  fin   : Bool
  /-- Something arrived since the socket was last reported or registered. -/
  edge  : Bool
  /-- Everything that was written to the client. -/
  tx    : Bytes
  deriving DecidableEq, Repr

def Sock.empty : Sock := ⟨[], [], [], [], false, false, []⟩

/-- The kernel would report the socket as readable. -/
def Sock.ready (s : Sock) : Bool := !s.rx.isEmpty || s.fin

/-! ## The clients -/

/-- What the clients and the network do. -/
inductive Env where
  | connect
  | send (id : Nat) (bs : Bytes)
  | arrive (id : Nat) (n : Nat)
  | finish (id : Nat)
  | reset (id : Nat)
  deriving DecidableEq, Repr

/-- The socket after an action of its client or of the network, if the action is possible. The stream
    arrives in order, so its end comes when nothing is on the way. -/
def Sock.act (t : Transport) (s : Sock) : Env → Option Sock
  | .connect => none
  | .send _ bs =>
      if s.fin then none else some { s with sent := s.sent ++ bs, wire := s.wire ++ bs }
  | .arrive _ n =>
      if !s.fin && 0 < n && n ≤ s.wire.length && t.fits n then
        some { s with rx := s.rx ++ [s.wire.take n], wire := s.wire.drop n, edge := true }
      else none
  | .finish _ =>
      if !s.fin && s.wire.isEmpty then some { s with fin := true, edge := true } else none
  | .reset _ =>
      if s.fin then none else some { s with wire := [], fin := true, edge := true }

/-- The socket an action is on. -/
def Env.sock : Env → Option Nat
  | .connect => none
  | .send id _ => some id
  | .arrive id _ => some id
  | .finish id => some id
  | .reset id => some id

/-- The state of the outside. Clients are numbered in the order they connect. -/
structure Kernel where
  socks    : Nat → Sock
  clients  : Nat
  /-- Connected and not accepted. -/
  backlog  : List Nat
  /-- The open client descriptors. -/
  fds      : SOCKET → Option Nat
  /-- The client descriptors registered with epoll or kqueue. -/
  interest : SOCKET → Bool
  /-- `p->fds` of the win32 poller. -/
  table    : List SOCKET
  /-- The calls of `close` on a client descriptor, with the socket it was open for. -/
  closes   : List (SOCKET × Option Nat)

namespace Kernel

def init (serverFd : SOCKET) : Kernel where
  socks _ := Sock.empty
  clients := 0
  backlog := []
  fds _ := none
  interest _ := false
  table := [serverFd]
  closes := []

def setSock (k : Kernel) (id : Nat) (s : Sock) : Kernel :=
  { k with socks := Function.update k.socks id s }

/-- An action on the socket of a connected client. -/
def onSock (k : Kernel) (id : Nat) (g : Sock → Option Sock) : Option Kernel :=
  if id < k.clients then (g (k.socks id)).map (k.setSock id) else none

def env (t : Transport) (k : Kernel) (e : Env) : Option Kernel :=
  match e with
  | .connect => some { k with clients := k.clients + 1, backlog := k.backlog ++ [k.clients] }
  | .send id _ => k.onSock id (fun s => s.act t e)
  | .arrive id _ => k.onSock id (fun s => s.act t e)
  | .finish id => k.onSock id (fun s => s.act t e)
  | .reset id => k.onSock id (fun s => s.act t e)

/-- **What the clients can do to the kernel**: connect, or change one socket. -/
theorem env_cases {t : Transport} {k k' : Kernel} {e : Env} (h : k.env t e = some k') :
    (e = .connect ∧ k' = { k with clients := k.clients + 1, backlog := k.backlog ++ [k.clients] }) ∨
    ∃ id s, e.sock = some id ∧ id < k.clients ∧ (k.socks id).act t e = some s ∧
      k' = k.setSock id s := by
  have hsock : ∀ {id}, k.onSock id (fun s => s.act t e) = some k' →
      ∃ s, id < k.clients ∧ (k.socks id).act t e = some s ∧ k' = k.setSock id s := by
    intro id hid
    unfold onSock at hid
    by_cases hlt : id < k.clients
    · rw [if_pos hlt, Option.map_eq_some_iff] at hid
      obtain ⟨s, hs, rfl⟩ := hid
      exact ⟨s, hlt, hs, rfl⟩
    · rw [if_neg hlt] at hid
      exact absurd hid (by simp)
  cases e with
  | connect => exact Or.inl ⟨rfl, (Option.some.inj h).symm⟩
  | send id bs =>
      obtain ⟨s, hs⟩ := hsock h
      exact Or.inr ⟨id, s, rfl, hs⟩
  | arrive id n =>
      obtain ⟨s, hs⟩ := hsock h
      exact Or.inr ⟨id, s, rfl, hs⟩
  | finish id =>
      obtain ⟨s, hs⟩ := hsock h
      exact Or.inr ⟨id, s, rfl, hs⟩
  | reset id =>
      obtain ⟨s, hs⟩ := hsock h
      exact Or.inr ⟨id, s, rfl, hs⟩

end Kernel

/-! ## The results of the calls -/

/-- The result of `::accept`. -/
inductive AcceptResult where
  | accepted (fd : SOCKET)
  | failed (errno : Errno)
  deriving DecidableEq, Repr

/-- The results of the two `fcntl` calls of `socket_mark_as_nonblocking`. -/
inductive FcntlResult where
  | done
  | getFailed (errno : Errno)
  | setFailed
  deriving DecidableEq, Repr

/-- What the OS and OpenSSL return in one step of the server: of `::accept`, `fcntl` and `SSL_accept` (when
    that fails, the strings in the error queue), of the one read (`recv`, unless it fails by itself:
    `none`), and of the writes (`none`: the first one takes everything). -/
structure Os where
  accept    : AcceptResult
  fcntl     : FcntlResult
  handshake : Option (List String)
  recv      : Option Errno
  send      : Option (List SendResult)
  deriving DecidableEq, Repr

/-- No call fails and every write takes everything. -/
def Os.smooth (fd : SOCKET) : Os := ⟨.accepted fd, .done, none, none, none⟩

namespace Kernel

/-! ## The connections -/

/-- `::recv(fd, ...)` or `SSL_read`. -/
def recvCall (t : Transport) (os : Os) (fd : SOCKET) (k : Kernel) : RecvResult × Kernel :=
  match k.fds fd with
  | none => (.failed .EBADF, k)
  | some id =>
      match os.recv with
      | some errno => (.failed errno, k)
      | none =>
          let s := k.socks id
          if s.rx = [] then (if s.fin then .received [] else .failed .EAGAIN, k)
          else
            (.received (t.read s.rx).1,
              k.setSock id { s with rx := (t.read s.rx).2, reads := s.reads ++ [(t.read s.rx).1] })

/-- `connection_->recv()`. -/
def recv (t : Transport) (os : Os) (c : Connection) : EStateM Abrupt Kernel Bytes := fun k =>
  let r :=
    match t with
    | .tcp => TCPConnection.recv (recvCall t os c.fd k).1
    | .tls => SSLConnection.recv (recvCall t os c.fd k).1
  match r with
  | .ok bs => .ok bs (recvCall t os c.fd k).2
  | .error e => .error e (recvCall t os c.fd k).2

/-- The results of the writes of one `send`. -/
def writes (os : Os) (isOpen : Bool) (data : Bytes) : List SendResult :=
  if isOpen then os.send.getD [.accepted data.length] else [.failed .EBADF]

/-- `connection_->send(data)`. -/
def send (t : Transport) (os : Os) (c : Connection) (data : Bytes) : EStateM Abrupt Kernel Unit :=
  fun k =>
    let o :=
      match t with
      | .tcp => TCPConnection.send data (writes os (k.fds c.fd).isSome data)
      | .tls => SSLConnection.send data (writes os (k.fds c.fd).isSome data)
    let k' :=
      match k.fds c.fd with
      | none => k
      | some id => k.setSock id { k.socks id with tx := (k.socks id).tx ++ o.accepted }
    match o.stop with
    | none => .ok () k'
    | some e => .error e k'

/-- The destructor's `close_socket(fd_)`. A closed descriptor leaves the poller by itself. -/
def close (c : Connection) (k : Kernel) : Kernel :=
  { k with
    fds := Function.update k.fds c.fd none
    interest := Function.update k.interest c.fd false
    closes := k.closes ++ [(c.fd, k.fds c.fd)] }

def ops (t : Transport) (os : Os) : ConnectionOps Kernel where
  recv := recv t os
  send := send t os
  close := close

/-! ## One iteration on an open connection -/

end Kernel

/-- What the one read of an iteration returns, when it does not fail. -/
def Sock.data (t : Transport) (os : Os) (s : Sock) : Bytes :=
  if os.recv = none ∧ s.rx ≠ [] then (t.read s.rx).1 else []

/-- The socket after that read. -/
def Sock.afterRead (t : Transport) (os : Os) (s : Sock) : Sock :=
  if os.recv = none ∧ s.rx ≠ [] then
    { s with rx := (t.read s.rx).2, reads := s.reads ++ [(t.read s.rx).1] }
  else s

/-- The end of a `send` of `out`, if there is one. -/
def Os.sent (os : Os) : Option Bytes → SendOutcome
  | none => ⟨none, [], []⟩
  | some data => sendLoop data (Kernel.writes os true data) 0 []

/-- The socket after one iteration of a session with the fields `self`. -/
def Sock.afterTurn {σ : Type} (t : Transport) (m : Machine σ) (os : Os) (self : σ) (s : Sock) : Sock :=
  { s.afterRead t os with tx := s.tx ++ (os.sent (m.onData self (s.data t os)).2).accepted }

namespace Kernel

/-- The read of this step does not fail, or fails with `EAGAIN`, which is no error. -/
def recvOk (os : Os) : Prop := os.recv = none ∨ os.recv = some .EAGAIN

instance (os : Os) : Decidable (recvOk os) := inferInstanceAs (Decidable (_ ∨ _))

theorem recv_of_not_recvOk {os : Os} (h : ¬ recvOk os) : ∃ errno, os.recv = some errno ∧ errno ≠ .EAGAIN := by
  cases hrecv : os.recv with
  | none => exact absurd (Or.inl hrecv) h
  | some errno =>
      refine ⟨errno, rfl, ?_⟩
      rintro rfl
      exact h (Or.inr hrecv)

theorem setSock_self (k : Kernel) (id : Nat) : k.setSock id (k.socks id) = k := by
  unfold setSock
  rw [Function.update_eq_self]

theorem setSock_setSock (k : Kernel) (id : Nat) (s s' : Sock) :
    (k.setSock id s).setSock id s' = k.setSock id s' := by
  unfold setSock
  simp only [Function.update_idem]

/-- The two kernels differ in the sockets at most: the same clients, open descriptors, registrations and
    history of `close`. -/
structure SameTables (k k' : Kernel) : Prop where
  clients  : k'.clients = k.clients
  backlog  : k'.backlog = k.backlog
  fds      : k'.fds = k.fds
  interest : k'.interest = k.interest
  table    : k'.table = k.table
  closes   : k'.closes = k.closes

theorem SameTables.refl (k : Kernel) : SameTables k k := ⟨rfl, rfl, rfl, rfl, rfl, rfl⟩

theorem sameTables_setSock (k : Kernel) (id : Nat) (s : Sock) : SameTables k (k.setSock id s) :=
  ⟨rfl, rfl, rfl, rfl, rfl, rfl⟩

@[simp] theorem setSock_fds (k : Kernel) (id : Nat) (s : Sock) : (k.setSock id s).fds = k.fds := rfl

@[simp] theorem setSock_socks (k : Kernel) (id : Nat) (s : Sock) :
    (k.setSock id s).socks = Function.update k.socks id s := rfl

section Turn

variable {σ : Type} {t : Transport} {os : Os} {c : Connection} {k : Kernel} {id : Nat}

theorem recv_ok (hfd : k.fds c.fd = some id) (hr : recvOk os) :
    recv t os c k = .ok ((k.socks id).data t os) (k.setSock id ((k.socks id).afterRead t os)) := by
  unfold recv recvCall Sock.data Sock.afterRead
  rw [hfd]
  rcases hr with hr | hr
  · rw [hr]
    by_cases hrx : (k.socks id).rx = []
    · rw [if_neg (fun h => h.2 hrx), if_neg (fun h => h.2 hrx), setSock_self]
      -- the end of the stream and an empty buffer both come out as the empty string
      cases hfin : (k.socks id).fin <;> cases t <;>
        simp [hrx, hfin, TCPConnection.recv, SSLConnection.recv, recvWith]
    · rw [if_pos ⟨rfl, hrx⟩, if_pos ⟨rfl, hrx⟩]
      cases t <;> simp [hrx, TCPConnection.recv, SSLConnection.recv, recvWith]
  · rw [hr, if_neg (fun h => by simp at h), if_neg (fun h => by simp at h), setSock_self]
    cases t <;> simp [TCPConnection.recv, SSLConnection.recv, recvWith]

theorem recv_fails (hfd : k.fds c.fd = some id) {errno : Errno} (hr : os.recv = some errno)
    (hne : errno ≠ .EAGAIN) :
    recv t os c k = .error (.throws (.runtimeError "recv error: " (some errno))) k := by
  unfold recv recvCall
  rw [hfd, hr]
  cases t <;> simp [TCPConnection.recv, SSLConnection.recv, recvWith, hne]

theorem send_eq (hfd : k.fds c.fd = some id) (data : Bytes) :
    send t os c data k =
      match (os.sent (some data)).stop with
      | none => .ok () (k.setSock id
          { k.socks id with tx := (k.socks id).tx ++ (os.sent (some data)).accepted })
      | some e => .error e (k.setSock id
          { k.socks id with tx := (k.socks id).tx ++ (os.sent (some data)).accepted }) := by
  unfold send
  rw [hfd]
  cases t <;> rfl

/-- **One iteration on an open connection whose read does not fail.** It changes the session's fields and
    its own socket only; it throws if and only if the writes do. -/
theorem iteration_eq (m : Machine σ) (self : σ) (hfd : k.fds c.fd = some id) (hr : recvOk os) :
    m.iteration (ops t os) c (self, k) =
      match (os.sent (m.onData self ((k.socks id).data t os)).2).stop with
      | none => .ok () ((m.onData self ((k.socks id).data t os)).1,
          k.setSock id ((k.socks id).afterTurn t m os self))
      | some e => .error e ((m.onData self ((k.socks id).data t os)).1,
          k.setSock id ((k.socks id).afterTurn t m os self)) := by
  have htx : ((k.socks id).afterRead t os).tx = (k.socks id).tx := by
    unfold Sock.afterRead
    split <;> rfl
  have hrecv : (ops t os).recv c k =
      .ok ((k.socks id).data t os) (k.setSock id ((k.socks id).afterRead t os)) := recv_ok hfd hr
  rw [Machine.iteration_recv_ok hrecv]
  unfold Sock.afterTurn
  cases hout : (m.onData self ((k.socks id).data t os)).2 with
  | none =>
      simp only [Os.sent, List.append_nil, ← htx]
  | some response =>
      simp only
      have hfd' : (k.setSock id ((k.socks id).afterRead t os)).fds c.fd = some id := hfd
      have hsend : (ops t os).send c response _ = _ := send_eq hfd' response
      simp only [setSock_socks, Function.update_self, setSock_setSock, htx] at hsend
      cases hstop : (os.sent (some response)).stop with
      | none =>
          rw [hstop] at hsend
          exact Effect.onSnd_of_ok hsend
      | some e =>
          rw [hstop] at hsend
          exact Effect.onSnd_of_error hsend

/-- An iteration whose read fails throws and changes nothing. -/
theorem iteration_fails (m : Machine σ) (self : σ) (hfd : k.fds c.fd = some id) {errno : Errno}
    (hr : os.recv = some errno) (hne : errno ≠ .EAGAIN) :
    m.iteration (ops t os) c (self, k) =
      .error (.throws (.runtimeError "recv error: " (some errno))) (self, k) := by
  have hrecv : (ops t os).recv c k = .error (.throws (.runtimeError "recv error: " (some errno))) k :=
    recv_fails hfd hr hne
  exact Machine.iteration_recv_error hrecv

/-- What an iteration that returns did. -/
theorem iteration_ok {m : Machine σ} {self self' : σ} {k' : Kernel} (hfd : k.fds c.fd = some id)
    (h : m.iteration (ops t os) c (self, k) = .ok () (self', k')) :
    recvOk os ∧ self' = (m.onData self ((k.socks id).data t os)).1 ∧
      k' = k.setSock id ((k.socks id).afterTurn t m os self) := by
  cases hrecv : os.recv with
  | none =>
      have hr : recvOk os := Or.inl hrecv
      rw [iteration_eq m self hfd hr] at h
      split at h
      · cases h
        exact ⟨hr, rfl, rfl⟩
      · exact absurd h (by simp)
  | some errno =>
      by_cases hne : errno = .EAGAIN
      · have hr : recvOk os := Or.inr (by rw [hrecv, hne])
        rw [iteration_eq m self hfd hr] at h
        split at h
        · cases h
          exact ⟨hr, rfl, rfl⟩
        · exact absurd h (by simp)
      · rw [iteration_fails m self hfd hrecv hne] at h
        exact absurd h (by simp)

end Turn

end Kernel

end Neblina

import Neblina.Server.Server

/-!
# `Server.Opening` — `TCPServer::create_listener` and `TCPClient::open_connection`

Both functions ask `getaddrinfo` for a list of candidates and take the first one that works. What they hold
on the way is the sockets they have opened and not closed, and the list; `Held` keeps account of both. They
differ in where they free the list and in what they do when a call fails:

* `create_listener` throws out of its loop when `socket` or `setsockopt` fails, past `freeaddrinfo` and with
  the new socket open, and leaves the bound socket open when `listen` fails;
* `open_connection` throws past `freeaddrinfo` when no candidate works, and leaves the connected socket open
  when it cannot be made non-blocking.

`opening_leaks_nothing_iff` says on which outcomes each of them leaves nothing behind.
-/

namespace Neblina

/-- What a function that opens a socket holds: the sockets it opened and did not close, the number of times it
    freed the list of candidates, and `errno`. -/
structure Held where
  sockets : List SOCKET
  freed   : Nat
  errno   : Errno
  deriving DecidableEq, Repr

namespace Held

/-- At the call: nothing is held. -/
def start (errno : Errno) : Held := ⟨[], 0, errno⟩

/-- `socket(...)` returned `fd`. -/
def openSocket (fd : SOCKET) : EStateM Abrupt Held Unit :=
  fun s => .ok () { s with sockets := fd :: s.sockets }

/-- A call failed with `errno`. -/
def failed (errno : Errno) : EStateM Abrupt Held Unit := fun s => .ok () { s with errno := errno }

/-- `close_socket(fd)`. -/
def closeSocket (fd : SOCKET) : EStateM Abrupt Held Unit :=
  fun s => .ok () { s with sockets := s.sockets.erase fd }

/-- `freeaddrinfo(servinfo)`. -/
def freeaddrinfo : EStateM Abrupt Held Unit := fun s => .ok () { s with freed := s.freed + 1 }

end Held

/-- `getaddrinfo`: the candidates, or the `gai_strerror` of the error. -/
abbrev AddrInfo (α : Type) := Except String (List α)

/-! ## `create_listener` -/

/-- The outcomes of the calls on one candidate: the descriptor of `socket`, and the errors of `setsockopt` and
    `bind` (`none`: success). -/
structure ListenCandidate where
  socket     : Except Errno SOCKET
  setsockopt : Option Errno
  bind       : Option Errno

namespace TCPServer

/-- The candidate loop of `create_listener`: the bound socket, or `none` when `p` runs off the list. -/
def bindFirst : List ListenCandidate → EStateM Abrupt Held (Option SOCKET)
  | [] => pure none
  | p :: ps =>
      match p.socket with
      | .error errno => throw (.throws (.nonRecoverable "socket error: " (some errno)))
      | .ok listener => do
          Held.openSocket listener
          match p.setsockopt with
          | some errno => throw (.throws (.nonRecoverable "setsocket error: " (some errno)))
          | none =>
              match p.bind with
              | some errno => do
                  Held.failed errno
                  Held.closeSocket listener
                  bindFirst ps
              | none => pure (some listener)

/-- `TCPServer::create_listener`, by the outcomes of `getaddrinfo`, of the calls on the candidates and of
    `listen`. -/
def createListener (servinfo : AddrInfo ListenCandidate) (listen : Option Errno) : EStateM Abrupt Held SOCKET :=
  match servinfo with
  | .error gai => throw (.throws (.nonRecoverable ("getaddrinfo error: " ++ gai) none))
  | .ok ps => do
      let bound ← bindFirst ps
      Held.freeaddrinfo
      let s ← get
      match bound with
      | none => throw (.throws (.nonRecoverable "failed to bind: " (some s.errno)))
      | some listener =>
          match listen with
          | some errno => throw (.throws (.nonRecoverable "listen error: " (some errno)))
          | none => return listener

end TCPServer

/-! ## `open_connection` -/

/-- The outcomes of the calls on one candidate: the descriptor of `socket`, and the error of `connect`. -/
structure ConnectCandidate where
  socket  : Except Errno SOCKET
  connect : Option Errno

namespace TCPClient

/-- The candidate loop of `open_connection`. -/
def connectFirst : List ConnectCandidate → EStateM Abrupt Held (Option SOCKET)
  | [] => pure none
  | p :: ps =>
      match p.socket with
      | .error errno => do
          Held.failed errno
          connectFirst ps
      | .ok sockfd => do
          Held.openSocket sockfd
          match p.connect with
          | some errno => do
              Held.failed errno
              Held.closeSocket sockfd
              connectFirst ps
          | none => pure (some sockfd)

/-- `TCPClient::open_connection`, by the outcomes of `getaddrinfo`, of the calls on the candidates and of the
    calls of `socket_mark_as_nonblocking`. -/
def openConnection (platform : Platform) (servinfo : AddrInfo ConnectCandidate) (fcntl : FcntlResult) :
    EStateM Abrupt Held SOCKET :=
  match servinfo with
  | .error gai => do
      -- the format string, with `{}` in the place of the `strerror`: `"getaddrinfo: {} // {}"`
      let s ← get
      throw (.throws (.runtimeError ("getaddrinfo: {} // " ++ gai) (some s.errno)))
  | .ok ps => do
      let connected ← connectFirst ps
      match connected with
      | none => throw (.throws (.runtimeError "client: Failed to connect." none))
      | some sockfd => do
          Held.freeaddrinfo
          match socketMarkAsNonblocking platform fcntl with
          | some e => throw (.throws e)
          | none => return sockfd

end TCPClient

/-! ## What it means to leak nothing -/

/-- `fd` is the socket of the first candidate that works. -/
def First {α : Type} (works : α → Option SOCKET) (ps : List α) (fd : SOCKET) : Prop :=
  ∃ pre p post, ps = pre ++ p :: post ∧ (∀ q ∈ pre, works q = none) ∧ works p = some fd

/-- **Nothing is leaked.** A return leaves exactly one socket open, that of the first candidate that works; an
    exception leaves none open; and if there was a list of candidates, it was freed exactly once. -/
def LeaksNothing {α : Type} (works : α → Option SOCKET) (servinfo : AddrInfo α) :
    EStateM.Result Abrupt Held SOCKET → Prop
  | .ok fd s => s.sockets = [fd] ∧ s.freed = 1 ∧ ∃ ps, servinfo = .ok ps ∧ First works ps fd
  | .error _ s => s.sockets = [] ∧ ∀ ps, servinfo = .ok ps → s.freed = 1

/-- The socket of a candidate that can be bound. -/
def ListenCandidate.works (p : ListenCandidate) : Option SOCKET :=
  match p.socket, p.setsockopt, p.bind with
  | .ok fd, none, none => some fd
  | _, _, _ => none

/-- The socket of a candidate that can be connected. -/
def ConnectCandidate.works (p : ConnectCandidate) : Option SOCKET :=
  match p.socket, p.connect with
  | .ok fd, none => some fd
  | _, _ => none

section First

variable {α : Type} {works : α → Option SOCKET} {p : α} {ps : List α} {fd : SOCKET}

theorem first_head (h : works p = some fd) : First works (p :: ps) fd :=
  ⟨[], p, ps, rfl, fun _ hq => absurd hq List.not_mem_nil, h⟩

theorem First.cons (hp : works p = none) (h : First works ps fd) : First works (p :: ps) fd := by
  obtain ⟨pre, q, post, rfl, hpre, hq⟩ := h
  refine ⟨p :: pre, q, post, rfl, ?_, hq⟩
  intro q' hq'
  rcases List.mem_cons.mp hq' with rfl | hq'
  · exact hp
  · exact hpre q' hq'

theorem First.exists_works (h : First works ps fd) : ∃ p ∈ ps, (works p).isSome := by
  obtain ⟨pre, p, post, rfl, _, hp⟩ := h
  exact ⟨p, List.mem_append_right _ List.mem_cons_self, by rw [hp]; rfl⟩

end First

/-! ## The candidate loops -/

/-- The exits of a candidate loop that starts with nothing held: it holds the socket it returns and no other,
    it does not free the list, and it throws exactly when `calm` does not hold. -/
def LoopExits {α : Type} (works : α → Option SOCKET) (calm : Prop) (ps : List α) (s : Held) :
    EStateM.Result Abrupt Held (Option SOCKET) → Prop
  | .ok (some fd) s' => calm ∧ First works ps fd ∧ s'.sockets = [fd] ∧ s'.freed = s.freed
  | .ok none s' => calm ∧ (∀ p ∈ ps, works p = none) ∧ s'.sockets = [] ∧ s'.freed = s.freed
  | .error _ s' => ¬ calm ∧ s'.freed = s.freed

/-- A candidate that did not work changes nothing for the rest of the loop. -/
theorem LoopExits.cons {α : Type} {works : α → Option SOCKET} {calm calm' : Prop} {p : α} {ps : List α}
    {s s1 : Held} (hp : works p = none) (hcalm : calm' ↔ calm) (hfreed : s1.freed = s.freed)
    {out : EStateM.Result Abrupt Held (Option SOCKET)} (h : LoopExits works calm ps s1 out) :
    LoopExits works calm' (p :: ps) s out := by
  cases out with
  | error e s' => exact ⟨fun hall => h.1 (hcalm.mp hall), h.2.trans hfreed⟩
  | ok found s' =>
      cases found with
      | some fd =>
          obtain ⟨hall, hfirst, hsockets, hf⟩ := h
          exact ⟨hcalm.mpr hall, hfirst.cons hp, hsockets, hf.trans hfreed⟩
      | none =>
          obtain ⟨hall, hnone, hsockets, hf⟩ := h
          exact ⟨hcalm.mpr hall, List.forall_mem_cons.mpr ⟨hp, hnone⟩, hsockets, hf.trans hfreed⟩

/-- `socket` and `setsockopt` succeed for every candidate the loop of `create_listener` gets to. -/
def AllOpened : List ListenCandidate → Prop
  | [] => True
  | p :: ps => (∃ fd, p.socket = .ok fd) ∧ p.setsockopt = none ∧ (p.bind ≠ none → AllOpened ps)

theorem bindFirst_exits (ps : List ListenCandidate) :
    ∀ s : Held, s.sockets = [] →
      LoopExits ListenCandidate.works (AllOpened ps) ps s (TCPServer.bindFirst ps s) := by
  induction ps with
  | nil =>
      intro s hs
      exact ⟨trivial, fun p hp => absurd hp List.not_mem_nil, hs, rfl⟩
  | cons p ps ih =>
      intro s hs
      obtain ⟨socket, setsockopt, bind⟩ := p
      cases socket with
      | error errno => exact ⟨fun ⟨⟨fd, hfd⟩, _⟩ => absurd hfd (by simp), rfl⟩
      | ok fd =>
          cases setsockopt with
          | some errno => exact ⟨fun ⟨_, hset, _⟩ => absurd hset (by simp), rfl⟩
          | none =>
              cases bind with
              | none =>
                  refine ⟨⟨⟨fd, rfl⟩, rfl, fun h => absurd rfl h⟩, first_head rfl, ?_, rfl⟩
                  show fd :: s.sockets = [fd]
                  rw [hs]
              | some errno =>
                  -- the socket is closed again before the next candidate
                  have hclosed : (fd :: s.sockets).erase fd = [] := by
                    rw [hs, List.erase_cons_head]
                  apply LoopExits.cons rfl _ rfl (ih ⟨(fd :: s.sockets).erase fd, s.freed, errno⟩ hclosed)
                  exact ⟨fun h => h.2.2 (by simp), fun h => ⟨⟨fd, rfl⟩, rfl, fun _ => h⟩⟩

/-- The loop of `open_connection` goes on after every failure, so it never throws. -/
theorem connectFirst_exits (ps : List ConnectCandidate) :
    ∀ s : Held, s.sockets = [] →
      LoopExits ConnectCandidate.works True ps s (TCPClient.connectFirst ps s) := by
  induction ps with
  | nil =>
      intro s hs
      exact ⟨trivial, fun p hp => absurd hp List.not_mem_nil, hs, rfl⟩
  | cons p ps ih =>
      intro s hs
      obtain ⟨socket, connect⟩ := p
      cases socket with
      | error errno => exact LoopExits.cons rfl Iff.rfl rfl (ih ⟨s.sockets, s.freed, errno⟩ hs)
      | ok fd =>
          cases connect with
          | none =>
              refine ⟨trivial, first_head rfl, ?_, rfl⟩
              show fd :: s.sockets = [fd]
              rw [hs]
          | some errno =>
              have hclosed : (fd :: s.sockets).erase fd = [] := by
                rw [hs, List.erase_cons_head]
              exact LoopExits.cons rfl Iff.rfl rfl (ih ⟨(fd :: s.sockets).erase fd, s.freed, errno⟩ hclosed)

/-! ## The two functions -/

/-- The outcomes on which `create_listener` leaks nothing. -/
def ListenerSafe (servinfo : AddrInfo ListenCandidate) (listen : Option Errno) : Prop :=
  ∀ ps, servinfo = .ok ps → AllOpened ps ∧ ((∃ p ∈ ps, p.works.isSome) → listen = none)

/-- The outcomes on which `open_connection` leaks nothing. -/
def ConnectSafe (platform : Platform) (servinfo : AddrInfo ConnectCandidate) (fcntl : FcntlResult) : Prop :=
  ∀ ps, servinfo = .ok ps → (∃ p ∈ ps, p.works.isSome) ∧ socketMarkAsNonblocking platform fcntl = none

open Effect

theorem createListener_leaksNothing_iff (servinfo : AddrInfo ListenCandidate) (listen : Option Errno)
    (errno : Errno) :
    LeaksNothing ListenCandidate.works servinfo (TCPServer.createListener servinfo listen (Held.start errno)) ↔
      ListenerSafe servinfo listen := by
  cases servinfo with
  | error gai =>
      exact ⟨fun _ ps hps => absurd hps (by simp), fun _ => ⟨rfl, fun ps hps => absurd hps (by simp)⟩⟩
  | ok ps =>
      have hexits := bindFirst_exits ps (Held.start errno) rfl
      unfold TCPServer.createListener
      dsimp only
      cases hloop : TCPServer.bindFirst ps (Held.start errno) with
      | error e s =>
          -- the loop threw: the list was not freed
          rw [hloop] at hexits
          rw [bind_of_error hloop]
          constructor
          · rintro ⟨_, hfreed⟩
            exact absurd (hexits.2.symm.trans (hfreed ps rfl)) Nat.zero_ne_one
          · intro hsafe
            exact absurd (hsafe ps rfl).1 hexits.1
      | ok found s =>
          rw [hloop] at hexits
          have hfree : Held.freeaddrinfo s = .ok () { s with freed := s.freed + 1 } := rfl
          rw [bind_of_ok hloop, bind_of_ok hfree, bind_get]
          cases found with
          | none =>
              obtain ⟨hall, hnone, hsockets, hfreed⟩ := hexits
              refine ⟨?_, fun _ => ⟨hsockets, fun _ _ => congrArg (· + 1) hfreed⟩⟩
              rintro _ ps' hps
              cases hps
              refine ⟨hall, ?_⟩
              rintro ⟨p, hp, hworks⟩
              rw [hnone p hp] at hworks
              exact absurd hworks (by simp)
          | some fd =>
              obtain ⟨hall, hfirst, hsockets, hfreed⟩ := hexits
              cases listen with
              | none =>
                  refine ⟨?_, fun _ => ⟨hsockets, congrArg (· + 1) hfreed, ps, rfl, hfirst⟩⟩
                  rintro _ ps' hps
                  cases hps
                  exact ⟨hall, fun _ => rfl⟩
              | some errno' =>
                  -- the bound socket is still open
                  constructor
                  · rintro ⟨hnil, _⟩
                    exact absurd (hsockets.symm.trans hnil) (by simp)
                  · intro hsafe
                    exact absurd ((hsafe ps rfl).2 hfirst.exists_works) (by simp)

theorem openConnection_leaksNothing_iff (platform : Platform) (servinfo : AddrInfo ConnectCandidate)
    (fcntl : FcntlResult) (errno : Errno) :
    LeaksNothing ConnectCandidate.works servinfo
        (TCPClient.openConnection platform servinfo fcntl (Held.start errno)) ↔
      ConnectSafe platform servinfo fcntl := by
  cases servinfo with
  | error gai =>
      exact ⟨fun _ ps hps => absurd hps (by simp), fun _ => ⟨rfl, fun ps hps => absurd hps (by simp)⟩⟩
  | ok ps =>
      have hexits := connectFirst_exits ps (Held.start errno) rfl
      unfold TCPClient.openConnection
      dsimp only
      cases hloop : TCPClient.connectFirst ps (Held.start errno) with
      | error e s =>
          rw [hloop] at hexits
          exact absurd trivial hexits.1
      | ok found s =>
          rw [hloop] at hexits
          rw [bind_of_ok hloop]
          cases found with
          | none =>
              -- no candidate: the list is not freed on the way out
              obtain ⟨_, hnone, _, hfreed⟩ := hexits
              constructor
              · rintro ⟨_, hfree⟩
                exact absurd (hfreed.symm.trans (hfree ps rfl)) Nat.zero_ne_one
              · intro hsafe
                obtain ⟨p, hp, hworks⟩ := (hsafe ps rfl).1
                rw [hnone p hp] at hworks
                exact absurd hworks (by simp)
          | some fd =>
              obtain ⟨_, hfirst, hsockets, hfreed⟩ := hexits
              have hfree : Held.freeaddrinfo s = .ok () { s with freed := s.freed + 1 } := rfl
              dsimp only
              rw [bind_of_ok hfree]
              unfold ConnectSafe
              cases hmark : socketMarkAsNonblocking platform fcntl with
              | none =>
                  refine ⟨?_, fun _ => ⟨hsockets, congrArg (· + 1) hfreed, ps, rfl, hfirst⟩⟩
                  rintro _ ps' hps
                  cases hps
                  exact ⟨hfirst.exists_works, rfl⟩
              | some e =>
                  -- the connected socket is still open
                  constructor
                  · rintro ⟨hnil, _⟩
                    exact absurd (hsockets.symm.trans hnil) (by simp)
                  · intro hsafe
                    exact absurd (hsafe ps rfl).2 (by simp)

/-- **When opening a socket leaks nothing.** For every list of candidates and all outcomes of the calls on
    them: `create_listener` leaks nothing if and only if `socket` and `setsockopt` succeed for every candidate
    up to the first that can be bound, and `listen` succeeds if there is one; `open_connection` leaks nothing
    if and only if some candidate can be connected and its socket can be made non-blocking. -/
theorem opening_leaks_nothing_iff (listeners : AddrInfo ListenCandidate) (listen : Option Errno)
    (platform : Platform) (peers : AddrInfo ConnectCandidate) (fcntl : FcntlResult) (errno : Errno) :
    (LeaksNothing ListenCandidate.works listeners
        (TCPServer.createListener listeners listen (Held.start errno)) ↔ ListenerSafe listeners listen) ∧
      (LeaksNothing ConnectCandidate.works peers
        (TCPClient.openConnection platform peers fcntl (Held.start errno)) ↔ ConnectSafe platform peers fcntl) :=
  ⟨createListener_leaksNothing_iff listeners listen errno,
    openConnection_leaksNothing_iff platform peers fcntl errno⟩

/-- **Both functions leak.** A bound socket stays open when `listen` fails; a list is not freed when `socket`
    fails or when nobody answers; a connected socket stays open when it cannot be made non-blocking. -/
theorem opening_leaks :
    (TCPServer.createListener (.ok [⟨.ok 5, none, none⟩]) (some (.other 98)) (Held.start .ENOENT) =
        .error (.throws (.nonRecoverable "listen error: " (some (.other 98)))) ⟨[5], 1, .ENOENT⟩ ∧
      ¬ LeaksNothing ListenCandidate.works (.ok [⟨.ok 5, none, none⟩])
        (TCPServer.createListener (.ok [⟨.ok 5, none, none⟩]) (some (.other 98)) (Held.start .ENOENT))) ∧
    (TCPServer.createListener (.ok [⟨.error (.other 24), none, none⟩]) none (Held.start .ENOENT) =
        .error (.throws (.nonRecoverable "socket error: " (some (.other 24)))) ⟨[], 0, .ENOENT⟩ ∧
      ¬ LeaksNothing ListenCandidate.works (.ok [⟨.error (.other 24), none, none⟩])
        (TCPServer.createListener (.ok [⟨.error (.other 24), none, none⟩]) none (Held.start .ENOENT))) ∧
    (TCPClient.openConnection .linux (.ok [⟨.ok 5, some (.other 111)⟩]) .done (Held.start .ENOENT) =
        .error (.throws (.runtimeError "client: Failed to connect." none)) ⟨[], 0, .other 111⟩ ∧
      ¬ LeaksNothing ConnectCandidate.works (.ok [⟨.ok 5, some (.other 111)⟩])
        (TCPClient.openConnection .linux (.ok [⟨.ok 5, some (.other 111)⟩]) .done (Held.start .ENOENT))) := by
  refine ⟨⟨rfl, ?_⟩, ⟨rfl, ?_⟩, ⟨rfl, ?_⟩⟩
  · rintro ⟨hnil, _⟩
    exact absurd hnil (by decide)
  · rintro ⟨_, hfree⟩
    exact absurd (hfree _ rfl) (by decide)
  · rintro ⟨_, hfree⟩
    exact absurd (hfree _ rfl) (by decide)

end Neblina

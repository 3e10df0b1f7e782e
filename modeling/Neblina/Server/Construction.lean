import Neblina.Lib.Lifetime
import Neblina.Server.Opening

/-!
# `Server.Construction` — the constructors and destructors of the servers

`TCPServer` opens the listening socket and hands it to `Server`, whose members are the descriptor, the poller
and the thread manager; `SSLServer` loads its certificate and key after that. What is left behind when one of
them throws depends on how far it got:

* `fd_` is a plain descriptor that `~Server` closes, and `~Server` does not run while the constructor of
  `Server` has not returned; so a poller or a worker that cannot be created costs the listening socket;
* the descriptor of the poller is closed by `~Poller` in the same way, so it is lost when the listening socket
  cannot be registered with it;
* the workers and the poller are members, and are gone when a later worker cannot be started;
* from the body of `SSLServer` on the whole `Server` is a base that is complete; `ctx_` is not, and the handles
  on the certificate and the key are freed on the normal path only.

`construction_leaves` is the list of all that can be left, with the cause of each entry.
-/

namespace Neblina

open Lifetime

/-- What a server holds, memory apart. -/
inductive Resource where
  | socket (fd : SOCKET)
  /-- The list of `getaddrinfo`. -/
  | addrinfo
  /-- The descriptor of `epoll_create1` or `kqueue`. -/
  | poller (fd : SOCKET)
  /-- The thread of a `ThreadMulti`. -/
  | worker (i : Nat)
  | ctx
  | certbio
  | cert
  | keybio
  | pkey
  deriving DecidableEq, Repr

/-- The results of the calls of `SSLServer::SSLServer` after `SSL_CTX_new`, which is taken to succeed: whether
    each object was created, whether the key is that of the certificate, and, for the three places with
    `ERR_print_errors_cb`, the first string of the error queue. -/
structure TlsOutcomes where
  certbio     : Bool
  cert        : Bool
  keybio      : Bool
  keybioError : Option String
  pkey        : Bool
  pkeyError   : Option String
  matching    : Bool
  checkError  : Option String
  deriving DecidableEq, Repr

/-- The results of the calls of the constructors. `starts i` is the error of the `i`-th thread; `tls` is
    absent for a `TCPServer`. -/
structure Outcomes where
  servinfo : AddrInfo ListenCandidate
  listen   : Option Errno
  errno    : Errno
  create   : Except Errno SOCKET
  add      : Option Errno
  starts   : Nat → Option Errno
  tls      : Option TlsOutcomes

/-- What `create_listener` holds. -/
def Held.resources {α : Type} (servinfo : AddrInfo α) (h : Held) : Multiset Resource :=
  (h.sockets.map Resource.socket : List Resource) +
    match servinfo with
    | .ok _ => if h.freed = 0 then {.addrinfo} else 0
    | .error _ => 0

/-! ## The constructors -/

/-- `TCPServer::create_listener`. -/
def TCPServer.listener (o : Outcomes) : Build Abrupt Resource SOCKET := fun s =>
  match createListener o.servinfo o.listen (Held.start o.errno) with
  | .ok fd h => .ok fd (s + h.resources o.servinfo)
  | .error e h => .error e (s + h.resources o.servinfo)

namespace Poller

/-- `p->epoll_fd` or `p->kqueue_fd`; the win32 poller has none. -/
def holds : Option SOCKET → Multiset Resource
  | none => 0
  | some fd => {.poller fd}

/-- The registration of the listening socket. -/
def watch (what : String) (fd : SOCKET) (add : Option Errno) : Build Abrupt Resource (Option SOCKET) :=
  match add with
  | some errno => throw (.throws (.nonRecoverable what (some errno)))
  | none => pure (some fd)

/-- The common body of the Linux and BSD constructors. -/
def constructWith (what whatAdd : String) (create : Except Errno SOCKET) (add : Option Errno) :
    Build Abrupt Resource (Option SOCKET) :=
  match create with
  | .error errno => throw (.throws (.nonRecoverable what (some errno)))
  | .ok fd =>
      acquire (.poller fd) >>= fun _ => watch whatAdd fd add

/-- `Poller::Poller`. -/
def construct (p : Platform) (o : Outcomes) : Build Abrupt Resource (Option SOCKET) :=
  match p with
  | .linux => constructWith "Could not initialize epoll: " "Could not initialize socket fd in epoll: " o.create o.add
  | .bsd => constructWith "Could not initialize kqueue: " "Could not initialize socket fd in kqueue: " o.create o.add
  | .win32 => pure none

end Poller

namespace ThreadManager

/-- `std::make_unique<ThreadMulti>()`. -/
def startWorker (starts : Nat → Option Errno) (i : Nat) : Build Abrupt Resource Unit :=
  match starts i with
  | some errno => throw (.throws (.runtimeError "" (some errno)))
  | none => acquire (.worker i)

/-- The loop of `ThreadManager::ThreadManager` from `i` on, with `n` threads to go: the ones in `threads_` are
    destroyed when the next one cannot be started. -/
def startWorkers (starts : Nat → Option Errno) : Nat → Nat → Build Abrupt Resource Unit
  | _, 0 => pure ()
  | i, n + 1 => startWorker starts i >>= fun _ => member {.worker i} (startWorkers starts (i + 1) n)

/-- The number of threads the thread manager starts: a `ThreadSingle` has none. -/
def workers (tc : ThreadCount) : Nat :=
  match tc.kind with
  | .single => 0
  | .multi => tc.size

/-- What `n` workers from `i` on hold. -/
def workersHold : Nat → Nat → Multiset Resource
  | _, 0 => 0
  | i, n + 1 => {.worker i} + workersHold (i + 1) n

end ThreadManager

namespace Server

/-- A server, as far as it holds something: `fd_`, `poller_` and the context of an `SSLServer`. -/
structure Parts where
  fd     : SOCKET
  poller : Option SOCKET
  ctx    : Bool
  deriving DecidableEq, Repr

/-- The members of `Server` that hold something. -/
def baseHolds (tc : ThreadCount) (fd : SOCKET) (q : Option SOCKET) : Multiset Resource :=
  {.socket fd} + (Poller.holds q + ThreadManager.workersHold 0 (ThreadManager.workers tc))

def ctxHolds : Bool → Multiset Resource
  | true => {.ctx}
  | false => 0

def Parts.holds (tc : ThreadCount) (srv : Parts) : Multiset Resource :=
  baseHolds tc srv.fd srv.poller + ctxHolds srv.ctx

/-- The constructor of `Server` on the listening socket: `poller_`, then `thread_manager_`. -/
def construct (p : Platform) (tc : ThreadCount) (o : Outcomes) (fd : SOCKET) :
    Build Abrupt Resource (SOCKET × Option SOCKET) :=
  Poller.construct p o >>= fun q =>
    member (Poller.holds q)
      (ThreadManager.startWorkers o.starts 0 (ThreadManager.workers tc) >>= fun _ => pure (fd, q))

/-- `~SSLServer` and `~Server`: `SSL_CTX_free(ctx_)`, `close_socket(fd_)`, then the members. -/
def destroy (tc : ThreadCount) (srv : Parts) (s : Multiset Resource) : Multiset Resource :=
  s - ctxHolds srv.ctx - {.socket srv.fd} - ThreadManager.workersHold 0 (ThreadManager.workers tc) -
    Poller.holds srv.poller

end Server

/-- `TCPServer::TCPServer`. -/
def TCPServer.construct (p : Platform) (tc : ThreadCount) (o : Outcomes) :
    Build Abrupt Resource (SOCKET × Option SOCKET) :=
  TCPServer.listener o >>= fun fd => Server.construct p tc o fd

namespace SSLServer

/-- `ERR_print_errors_cb(err, nullptr)`: `err` throws with the first string; with none, nothing happens. -/
def printErrors : Option String → Build Abrupt Resource Unit
  | some str => throw (.throws (.nonRecoverable ("ssl server: {}" ++ str) none))
  | none => pure ()

/-- The certificate: `X509_free` and `BIO_free` come at the end. -/
def loadCertificate (t : TlsOutcomes) : Build Abrupt Resource Unit :=
  if t.certbio then
    leased .certbio
      (if t.cert then leased .cert (pure ())
        else throw (.throws (.nonRecoverable "Invalid certificate key." none)))
  else throw (.throws (.nonRecoverable "Invalid certificate key." none))

/-- `PEM_read_bio_PrivateKey` and the use of the key. -/
def readKey (t : TlsOutcomes) : Build Abrupt Resource Unit :=
  if t.pkey then leased .pkey (pure ()) else printErrors t.pkeyError

/-- The private key. -/
def loadKey (t : TlsOutcomes) : Build Abrupt Resource Unit :=
  if t.keybio then leased .keybio (readKey t)
  else printErrors t.keybioError >>= fun _ => readKey t

/-- `SSL_CTX_check_private_key`. -/
def checkKey (t : TlsOutcomes) : Build Abrupt Resource Unit :=
  if t.matching then pure () else printErrors t.checkError

/-- The body of `SSLServer::SSLServer`. -/
def body (t : TlsOutcomes) : Build Abrupt Resource Unit :=
  -- `ctx_ = SSL_CTX_new(method)`
  acquire .ctx >>= fun _ => loadCertificate t >>= fun _ => loadKey t >>= fun _ => checkKey t

/-- The body, if there is one, and the finished server. -/
def finish (o : Outcomes) (fd : SOCKET) (q : Option SOCKET) : Build Abrupt Resource Server.Parts :=
  match o.tls with
  | none => pure ⟨fd, q, false⟩
  | some t => body t >>= fun _ => pure ⟨fd, q, true⟩

/-- The construction of a server: `SSLServer::SSLServer`, or without its body `TCPServer::TCPServer`. -/
def construct (p : Platform) (tc : ThreadCount) (o : Outcomes) : Build Abrupt Resource Server.Parts :=
  TCPServer.construct p tc o >>= fun base =>
    member (Server.baseHolds tc base.1 base.2) (finish o base.1 base.2)

end SSLServer

/-! ## What the listener leaves -/

/-- The exits of `create_listener`: it returns the one socket it holds, with the list freed; and the list is
    never freed twice. -/
def ListenerExits : EStateM.Result Abrupt Held SOCKET → Prop
  | .ok fd h => h.sockets = [fd] ∧ h.freed = 1
  | .error _ h => h.freed ≤ 1

theorem createListener_exits (servinfo : AddrInfo ListenCandidate) (listen : Option Errno) (errno : Errno) :
    ListenerExits (TCPServer.createListener servinfo listen (Held.start errno)) := by
  cases servinfo with
  | error gai => exact Nat.zero_le 1
  | ok ps =>
      have hexits := bindFirst_exits ps (Held.start errno) rfl
      unfold TCPServer.createListener
      dsimp only
      cases hloop : TCPServer.bindFirst ps (Held.start errno) with
      | error e s =>
          rw [hloop] at hexits
          rw [Effect.bind_of_error hloop]
          exact hexits.2.le.trans (Nat.zero_le 1)
      | ok found s =>
          rw [hloop] at hexits
          have hfree : Held.freeaddrinfo s = .ok () { s with freed := s.freed + 1 } := rfl
          rw [Effect.bind_of_ok hloop, Effect.bind_of_ok hfree, Effect.bind_get]
          cases found with
          | none => exact (congrArg (· + 1) hexits.2.2.2).le
          | some fd =>
              obtain ⟨_, _, hsockets, hfreed⟩ := hexits
              cases listen with
              | none => exact ⟨hsockets, congrArg (· + 1) hfreed⟩
              | some errno' => exact (congrArg (· + 1) hfreed).le

section Listener

variable {servinfo : AddrInfo ListenCandidate} {listen : Option Errno} {errno : Errno}
  {fd : SOCKET} {e : Abrupt} {h : Held}

theorem createListener_ok_resources
    (hc : TCPServer.createListener servinfo listen (Held.start errno) = .ok fd h) :
    h.resources servinfo = {.socket fd} := by
  have hexits := createListener_exits servinfo listen errno
  rw [hc] at hexits
  obtain ⟨hsockets, hfreed⟩ := hexits
  unfold Held.resources
  rw [hsockets, hfreed]
  cases servinfo <;> rfl

/-- An exception of `create_listener` leaves nothing exactly when the outcomes are safe. -/
theorem createListener_error_resources
    (hc : TCPServer.createListener servinfo listen (Held.start errno) = .error e h) :
    h.resources servinfo = 0 ↔ ListenerSafe servinfo listen := by
  have hexits := createListener_exits servinfo listen errno
  rw [← createListener_leaksNothing_iff servinfo listen errno, hc]
  rw [hc] at hexits
  unfold Held.resources
  rw [add_eq_zero, Multiset.coe_eq_zero, List.map_eq_nil_iff]
  refine and_congr_right fun _ => ?_
  cases servinfo with
  | error gai => simp
  | ok ps =>
      have hle : h.freed ≤ 1 := hexits
      by_cases hzero : h.freed = 0
      · simp [hzero]
      · have hone : h.freed = 1 := by omega
        simp [hone]

theorem worker_not_mem_resources (i : Nat) (h : Held) (servinfo : AddrInfo ListenCandidate) :
    Resource.worker i ∉ h.resources servinfo := by
  unfold Held.resources
  rw [Multiset.mem_add, Multiset.mem_coe, List.mem_map]
  rintro (⟨fd, _, hfd⟩ | hmem)
  · cases hfd
  · cases servinfo with
    | error gai => simp at hmem
    | ok ps =>
        dsimp only at hmem
        split at hmem <;> simp at hmem

end Listener

/-- `create_listener` returned `fd`. -/
def Outcomes.Listening (o : Outcomes) (fd : SOCKET) : Prop :=
  ∃ h, TCPServer.createListener o.servinfo o.listen (Held.start o.errno) = .ok fd h

/-! ## What the constructors leave -/

/-- What a poller with these messages throws when it cannot be constructed, and what it leaves. -/
inductive Poller.LeftWith (what whatAdd : String) (o : Outcomes) : Abrupt → Multiset Resource → Prop
  | notCreated {errno : Errno} (hcreate : o.create = .error errno) :
      LeftWith what whatAdd o (.throws (.nonRecoverable what (some errno))) 0
  | notWatching {q : SOCKET} {errno : Errno} (hcreate : o.create = .ok q) (hadd : o.add = some errno) :
      LeftWith what whatAdd o (.throws (.nonRecoverable whatAdd (some errno))) {.poller q}

def Poller.Left (p : Platform) (o : Outcomes) : Abrupt → Multiset Resource → Prop :=
  match p with
  | .linux => Poller.LeftWith "Could not initialize epoll: " "Could not initialize socket fd in epoll: " o
  | .bsd => Poller.LeftWith "Could not initialize kqueue: " "Could not initialize socket fd in kqueue: " o
  | .win32 => fun _ _ => False

/-- The poller can be constructed. -/
def Poller.Made (p : Platform) (o : Outcomes) : Prop :=
  p = .win32 ∨ (∃ q, o.create = .ok q) ∧ o.add = none

/-- The threads from `i` on, `n` of them, can be started. -/
def ThreadManager.Started (starts : Nat → Option Errno) (i n : Nat) : Prop :=
  ∀ j, i ≤ j → j < i + n → starts j = none

/-- One of them cannot be started, those before it can, and `e` is what its start throws. -/
def ThreadManager.Fails (starts : Nat → Option Errno) (i n : Nat) (e : Abrupt) : Prop :=
  ∃ j errno, i ≤ j ∧ j < i + n ∧ (∀ k, i ≤ k → k < j → starts k = none) ∧ starts j = some errno ∧
    e = .throws (.runtimeError "" (some errno))

/-- `TCPServer::TCPServer` comes to its end, with the listening socket `fd`. -/
structure Server.Built (p : Platform) (tc : ThreadCount) (o : Outcomes) (fd : SOCKET) : Prop where
  listening : o.Listening fd
  poller    : Poller.Made p o
  started   : ThreadManager.Started o.starts 0 (ThreadManager.workers tc)

namespace SSLServer

/-- `ERR_print_errors_cb` throws `e`. -/
def Prints (str : Option String) (e : Abrupt) : Prop :=
  ∃ s, str = some s ∧ e = .throws (.nonRecoverable ("ssl server: {}" ++ s) none)

/-- The certificate was read. -/
def Certified (t : TlsOutcomes) : Prop := t.certbio = true ∧ t.cert = true

/-- The private key was read, or nobody noticed that it was not. -/
def Keyed (t : TlsOutcomes) : Prop :=
  (t.keybio = true ∨ t.keybioError = none) ∧ (t.pkey = true ∨ t.pkeyError = none)

/-- What the body of `SSLServer::SSLServer` throws, and what it leaves. -/
inductive Left (t : TlsOutcomes) : Abrupt → Multiset Resource → Prop
  | noCertbio (h : t.certbio = false) :
      Left t (.throws (.nonRecoverable "Invalid certificate key." none)) {.ctx}
  | badCertificate (h : t.certbio = true) (hcert : t.cert = false) :
      Left t (.throws (.nonRecoverable "Invalid certificate key." none)) {.ctx, .certbio}
  | noKeybio {e : Abrupt} (hcert : Certified t) (h : t.keybio = false)
      (he : Prints t.keybioError e ∨ t.keybioError = none ∧ t.pkey = false ∧ Prints t.pkeyError e) :
      Left t e {.ctx}
  | badKey {e : Abrupt} (hcert : Certified t) (h : t.keybio = true) (hkey : t.pkey = false)
      (he : Prints t.pkeyError e) : Left t e {.ctx, .keybio}
  | mismatch {e : Abrupt} (hcert : Certified t) (hkey : Keyed t) (h : t.matching = false)
      (he : Prints t.checkError e) : Left t e {.ctx}

end SSLServer

/-- **What the construction of a server throws, and what it then leaves**, by the part that threw; the parts
    before it were constructed. -/
inductive Leftover (p : Platform) (tc : ThreadCount) (o : Outcomes) : Abrupt → Multiset Resource → Prop
  | listener {e : Abrupt} {h : Held}
      (hc : TCPServer.createListener o.servinfo o.listen (Held.start o.errno) = .error e h) :
      Leftover p tc o e (h.resources o.servinfo)
  | poller {fd : SOCKET} {e : Abrupt} {l : Multiset Resource} (hfd : o.Listening fd)
      (hl : Poller.Left p o e l) : Leftover p tc o e ({.socket fd} + l)
  | worker {fd : SOCKET} {e : Abrupt} (hfd : o.Listening fd) (hpoller : Poller.Made p o)
      (hfails : ThreadManager.Fails o.starts 0 (ThreadManager.workers tc) e) : Leftover p tc o e {.socket fd}
  | tls {fd : SOCKET} {t : TlsOutcomes} {e : Abrupt} {l : Multiset Resource} (hbase : Server.Built p tc o fd)
      (ht : o.tls = some t) (hl : SSLServer.Left t e l) : Leftover p tc o e l

/-! ### The listener and the poller -/

theorem TCPServer.listener_accounts (o : Outcomes) :
    Accounts (TCPServer.listener o) (fun fd => {.socket fd})
      (fun e l => ∃ h, TCPServer.createListener o.servinfo o.listen (Held.start o.errno) = .error e h ∧
        l = h.resources o.servinfo) := by
  refine ⟨?_, ?_⟩
  · intro s fd s' hs
    unfold TCPServer.listener at hs
    split at hs
    · next hc =>
        cases hs
        rw [createListener_ok_resources hc]
    · cases hs
  · intro s e s' hs
    unfold TCPServer.listener at hs
    split at hs
    · cases hs
    · next hc =>
        cases hs
        exact ⟨_, ⟨_, hc, rfl⟩, rfl⟩

theorem TCPServer.listening_of_yields {o : Outcomes} {fd : SOCKET} (h : Yields (TCPServer.listener o) fd) :
    o.Listening fd := by
  obtain ⟨s, s', hs⟩ := h
  unfold TCPServer.listener at hs
  split at hs
  · next hc =>
      cases hs
      exact ⟨_, hc⟩
  · cases hs

namespace Poller

theorem watch_accounts (what : String) (q : SOCKET) (add : Option Errno) :
    Accounts (watch what q add) (fun _ => 0)
      (fun e l => l = 0 ∧ ∃ errno, add = some errno ∧ e = .throws (.nonRecoverable what (some errno))) := by
  unfold watch
  split
  · exact Accounts.throw _ ⟨rfl, _, rfl, rfl⟩
  · exact Accounts.pure _ rfl

theorem of_yields_watch {what : String} {q : SOCKET} {add : Option Errno} {r : Option SOCKET}
    (h : Yields (watch what q add) r) : r = some q ∧ add = none := by
  unfold watch at h
  split at h
  · exact absurd h not_yields_throw
  · exact ⟨h.of_pure, rfl⟩

theorem constructWith_accounts (o : Outcomes) (what whatAdd : String) :
    Accounts (constructWith what whatAdd o.create o.add) holds (LeftWith what whatAdd o) := by
  unfold constructWith
  split
  · next hcreate => exact Accounts.throw _ (.notCreated hcreate)
  · next q hcreate =>
      -- the descriptor belongs to an object whose destructor will not run
      have hacquire : Accounts (acquire (.poller q) : Build Abrupt Resource Unit) (fun _ => {.poller q})
          (fun _ _ => False) := Accounts.acquire _
      refine Accounts.bind hacquire (fun _ => watch_accounts whatAdd q o.add) ?_ (fun _ _ hl => absurd hl id) ?_
      · intro _ r hr
        rw [(of_yields_watch hr).1]
        rfl
      · rintro _ e l _ ⟨rfl, errno, hadd, rfl⟩
        exact .notWatching hcreate hadd

theorem construct_accounts (p : Platform) (o : Outcomes) : Accounts (construct p o) holds (Left p o) := by
  unfold construct Left
  cases p with
  | linux => exact constructWith_accounts o _ _
  | bsd => exact constructWith_accounts o _ _
  | win32 => exact Accounts.pure _ rfl

theorem made_of_yields {p : Platform} {o : Outcomes} {q : Option SOCKET} (h : Yields (construct p o) q) :
    Made p o := by
  have hwith : ∀ {what whatAdd}, Yields (constructWith what whatAdd o.create o.add) q → Made p o := by
    intro what whatAdd hq
    unfold constructWith at hq
    split at hq
    · exact absurd hq not_yields_throw
    · next fd hcreate =>
        obtain ⟨_, _, hwatch⟩ := hq.of_bind
        exact Or.inr ⟨⟨fd, hcreate⟩, (of_yields_watch hwatch).2⟩
  cases p with
  | linux => exact hwith h
  | bsd => exact hwith h
  | win32 => exact Or.inl rfl

/-- A poller that throws was not constructed, and there is one thing it can throw. -/
theorem LeftWith.unique {what whatAdd : String} {o : Outcomes} {e e' : Abrupt} {l l' : Multiset Resource}
    (h : LeftWith what whatAdd o e l) (h' : LeftWith what whatAdd o e' l') : e' = e ∧ l' = l := by
  cases h with
  | notCreated hcreate =>
      cases h' with
      | notCreated hcreate' => simp_all
      | notWatching hcreate' hadd' => simp_all
  | notWatching hcreate hadd =>
      cases h' with
      | notCreated hcreate' => simp_all
      | notWatching hcreate' hadd' => simp_all

theorem LeftWith.not_made {what whatAdd : String} {o : Outcomes} {e : Abrupt} {l : Multiset Resource}
    (h : LeftWith what whatAdd o e l) : ¬ ((∃ q, o.create = .ok q) ∧ o.add = none) := by
  cases h with
  | notCreated hcreate => simp [hcreate]
  | notWatching hcreate hadd => simp [hadd]

theorem Left.unique {p : Platform} {o : Outcomes} {e e' : Abrupt} {l l' : Multiset Resource}
    (h : Left p o e l) (h' : Left p o e' l') : e' = e ∧ l' = l := by
  cases p with
  | linux => exact LeftWith.unique h h'
  | bsd => exact LeftWith.unique h h'
  | win32 => exact absurd h id

theorem Left.not_made {p : Platform} {o : Outcomes} {e : Abrupt} {l : Multiset Resource} (h : Left p o e l) :
    ¬ Made p o := by
  cases p with
  | linux => exact fun hmade => LeftWith.not_made h (hmade.resolve_left (by decide))
  | bsd => exact fun hmade => LeftWith.not_made h (hmade.resolve_left (by decide))
  | win32 => exact absurd h id

theorem Left.no_worker {p : Platform} {o : Outcomes} {e : Abrupt} {l : Multiset Resource} (h : Left p o e l)
    (i : Nat) : .worker i ∉ l := by
  have hwith : ∀ {what whatAdd}, LeftWith what whatAdd o e l → .worker i ∉ l := by
    intro what whatAdd hl
    cases hl with
    | notCreated _ => exact Multiset.notMem_zero _
    | notWatching _ _ => simp
  cases p with
  | linux => exact hwith h
  | bsd => exact hwith h
  | win32 => exact absurd h id

end Poller

/-! ### The threads -/

namespace ThreadManager

theorem started_of_yields {starts : Nat → Option Errno} {n : Nat} :
    ∀ {i}, Yields (startWorkers starts i n) () → Started starts i n := by
  induction n with
  | zero =>
      intro i _ j hij hj
      omega
  | succ n ih =>
      intro i h j hij hj
      obtain ⟨_, hfirst, hrest⟩ := h.of_bind
      by_cases hji : j = i
      · unfold startWorker at hfirst
        split at hfirst
        · exact absurd hfirst not_yields_throw
        · next hnone => rw [hji, hnone]
      · exact ih hrest.of_member j (by omega) (by omega)

/-- The workers are members: when one cannot be started, the ones before it are gone. -/
theorem startWorkers_accounts (starts : Nat → Option Errno) (n : Nat) :
    ∀ i, Accounts (startWorkers starts i n) (fun _ => workersHold i n)
      (fun e l => l = 0 ∧ Fails starts i n e) := by
  induction n with
  | zero =>
      intro i
      exact Accounts.pure _ rfl
  | succ n ih =>
      intro i
      have hfirst : Accounts (startWorker starts i) (fun _ => {.worker i})
          (fun e l => l = 0 ∧ Fails starts i (n + 1) e) := by
        unfold startWorker
        split
        · next errno hstart =>
            exact Accounts.throw _ ⟨rfl, i, errno, Nat.le_refl i, by omega, by omega, hstart, rfl⟩
        · exact Accounts.acquire _
      refine Accounts.bind_member hfirst (fun _ => ih (i + 1)) (fun _ _ _ => rfl) (fun _ _ hl => hl) ?_
      rintro _ e l hyields ⟨rfl, j, errno, hij, hj, hbefore, hstart, he⟩
      refine ⟨rfl, j, errno, by omega, by omega, ?_, hstart, he⟩
      intro k hik hkj
      by_cases hki : k = i
      · unfold startWorker at hyields
        split at hyields
        · exact absurd hyields not_yields_throw
        · next hnone => rw [hki, hnone]
      · exact hbefore k (by omega) hkj

theorem Fails.unique {starts : Nat → Option Errno} {i n : Nat} {e e' : Abrupt} (h : Fails starts i n e)
    (h' : Fails starts i n e') : e' = e := by
  obtain ⟨j, errno, hij, _, hbefore, hstart, rfl⟩ := h
  obtain ⟨j', errno', hij', _, hbefore', hstart', rfl⟩ := h'
  have hjj : j' = j := by
    rcases Nat.lt_trichotomy j' j with hlt | heq | hgt
    · rw [hbefore j' hij' hlt] at hstart'
      cases hstart'
    · exact heq
    · rw [hbefore' j hij hgt] at hstart
      cases hstart
  subst hjj
  rw [hstart] at hstart'
  cases hstart'
  rfl

theorem Fails.not_started {starts : Nat → Option Errno} {i n : Nat} {e : Abrupt} (h : Fails starts i n e) :
    ¬ Started starts i n := by
  obtain ⟨j, errno, hij, hj, _, hstart, _⟩ := h
  intro hstarted
  rw [hstarted j hij hj] at hstart
  cases hstart

end ThreadManager

section Server

variable (p : Platform) (tc : ThreadCount) (o : Outcomes)

theorem Server.threads_accounts (r : SOCKET × Option SOCKET) :
    Accounts (ThreadManager.startWorkers o.starts 0 (ThreadManager.workers tc) >>= fun _ => pure r)
      (fun _ => ThreadManager.workersHold 0 (ThreadManager.workers tc))
      (fun e l => l = 0 ∧ ThreadManager.Fails o.starts 0 (ThreadManager.workers tc) e) :=
  (ThreadManager.startWorkers_accounts o.starts (ThreadManager.workers tc) 0).bind_pure (fun _ => rfl)

theorem Server.of_yields_threads {r r' : SOCKET × Option SOCKET}
    (h : Yields (ThreadManager.startWorkers o.starts 0 (ThreadManager.workers tc) >>= fun _ => pure r) r') :
    r' = r ∧ ThreadManager.Started o.starts 0 (ThreadManager.workers tc) := by
  obtain ⟨_, hstart, hpure⟩ := h.of_bind
  exact ⟨hpure.of_pure, ThreadManager.started_of_yields hstart⟩

/-- The poller is a member, the descriptor is not. -/
theorem Server.construct_accounts (fd : SOCKET) :
    Accounts (Server.construct p tc o fd)
      (fun r => Poller.holds r.2 + ThreadManager.workersHold 0 (ThreadManager.workers tc))
      (fun e l => Poller.Left p o e l ∨
        (l = 0 ∧ Poller.Made p o ∧ ThreadManager.Fails o.starts 0 (ThreadManager.workers tc) e)) := by
  refine Accounts.bind_member (Poller.construct_accounts p o) (fun q => Server.threads_accounts tc o (fd, q)) ?_
    (fun _ _ hl => Or.inl hl) ?_
  · intro q r hr
    rw [(Server.of_yields_threads tc o hr).1]
  · rintro q e l hq ⟨hl, hfails⟩
    exact Or.inr ⟨hl, Poller.made_of_yields hq, hfails⟩

theorem Server.of_yields_construct {fd : SOCKET} {r : SOCKET × Option SOCKET}
    (h : Yields (Server.construct p tc o fd) r) :
    r.1 = fd ∧ Poller.Made p o ∧ ThreadManager.Started o.starts 0 (ThreadManager.workers tc) := by
  obtain ⟨q, hpoller, hthreads⟩ := h.of_bind
  obtain ⟨hr, hstarted⟩ := Server.of_yields_threads tc o hthreads.of_member
  exact ⟨by rw [hr], Poller.made_of_yields hpoller, hstarted⟩

theorem TCPServer.construct_accounts :
    Accounts (TCPServer.construct p tc o) (fun r => Server.baseHolds tc r.1 r.2) (Leftover p tc o) := by
  refine Accounts.bind (TCPServer.listener_accounts o) (Server.construct_accounts p tc o) ?_ ?_ ?_
  · intro fd r hr
    rw [← (Server.of_yields_construct p tc o hr).1]
    rfl
  · rintro e l ⟨h, hc, rfl⟩
    exact .listener hc
  · rintro fd e l hfd (hl | ⟨rfl, hpoller, hfails⟩)
    · exact .poller (TCPServer.listening_of_yields hfd) hl
    · exact .worker (TCPServer.listening_of_yields hfd) hpoller hfails

theorem TCPServer.built_of_yields {r : SOCKET × Option SOCKET} (h : Yields (TCPServer.construct p tc o) r) :
    Server.Built p tc o r.1 := by
  obtain ⟨fd, hlistener, hserver⟩ := h.of_bind
  obtain ⟨hr, hpoller, hstarted⟩ := Server.of_yields_construct p tc o hserver
  rw [hr]
  exact ⟨TCPServer.listening_of_yields hlistener, hpoller, hstarted⟩

end Server

/-! ### The certificate and the key -/

namespace SSLServer

variable (t : TlsOutcomes)

theorem printErrors_accounts (str : Option String) :
    Accounts (printErrors str) (fun _ => 0) (fun e l => l = 0 ∧ Prints str e) := by
  cases str with
  | some str => exact Accounts.throw _ ⟨rfl, str, rfl, rfl⟩
  | none => exact Accounts.pure _ rfl

theorem none_of_yields_printErrors {str : Option String} (h : Yields (printErrors str) ()) : str = none := by
  cases str with
  | some str => exact absurd h not_yields_throw
  | none => rfl

theorem loadCertificate_accounts :
    Accounts (loadCertificate t) (fun _ => 0)
      (fun e l => e = .throws (.nonRecoverable "Invalid certificate key." none) ∧
        ((l = 0 ∧ t.certbio = false) ∨ (l = {.certbio} ∧ t.certbio = true ∧ t.cert = false))) := by
  unfold loadCertificate
  split
  · next hbio =>
      have hread : Accounts
          (if t.cert then leased .cert (pure ())
            else throw (.throws (.nonRecoverable "Invalid certificate key." none)) : Build Abrupt Resource Unit)
          (fun _ => 0)
          (fun e l => l = 0 ∧ t.cert = false ∧ e = .throws (.nonRecoverable "Invalid certificate key." none)) := by
        split
        · exact Accounts.leased_pure _ () rfl
        · next hcert => exact Accounts.throw _ ⟨rfl, by simpa using hcert, rfl⟩
      refine Accounts.leased hread ?_
      rintro e l ⟨rfl, hcert, he⟩
      exact ⟨he, Or.inr ⟨rfl, hbio, hcert⟩⟩
  · next hbio => exact Accounts.throw _ ⟨rfl, Or.inl ⟨rfl, by simpa using hbio⟩⟩

theorem certified_of_yields (h : Yields (loadCertificate t) ()) : Certified t := by
  unfold loadCertificate at h
  split at h
  · next hbio =>
      have hread := h.of_leased
      split at hread
      · next hcert => exact ⟨hbio, hcert⟩
      · exact absurd hread not_yields_throw
  · exact absurd h not_yields_throw

theorem readKey_accounts :
    Accounts (readKey t) (fun _ => 0) (fun e l => l = 0 ∧ t.pkey = false ∧ Prints t.pkeyError e) := by
  unfold readKey
  split
  · exact Accounts.leased_pure _ () rfl
  · next hkey =>
      apply (printErrors_accounts t.pkeyError).mono
      rintro e l ⟨hl, hprints⟩
      exact ⟨hl, by simpa using hkey, hprints⟩

theorem read_of_yields (h : Yields (readKey t) ()) : t.pkey = true ∨ t.pkeyError = none := by
  unfold readKey at h
  split at h
  · next hkey => exact Or.inl hkey
  · exact Or.inr (none_of_yields_printErrors h)

theorem loadKey_accounts :
    Accounts (loadKey t) (fun _ => 0)
      (fun e l => (l = 0 ∧ t.keybio = false ∧
          (Prints t.keybioError e ∨ t.keybioError = none ∧ t.pkey = false ∧ Prints t.pkeyError e)) ∨
        (l = {.keybio} ∧ t.keybio = true ∧ t.pkey = false ∧ Prints t.pkeyError e)) := by
  unfold loadKey
  split
  · next hbio =>
      refine Accounts.leased (readKey_accounts t) ?_
      rintro e l ⟨rfl, hkey, he⟩
      exact Or.inr ⟨rfl, hbio, hkey, he⟩
  · next hbio =>
      have hbio' : t.keybio = false := by simpa using hbio
      refine Accounts.bind (printErrors_accounts t.keybioError) (fun _ => readKey_accounts t)
        (fun _ _ _ => add_zero _) ?_ ?_
      · rintro e l ⟨hl, he⟩
        exact Or.inl ⟨hl, hbio', Or.inl he⟩
      · rintro _ e l hnone ⟨rfl, hkey, he⟩
        exact Or.inl ⟨add_zero _, hbio', Or.inr ⟨none_of_yields_printErrors hnone, hkey, he⟩⟩

theorem keyed_of_yields (h : Yields (loadKey t) ()) : Keyed t := by
  unfold loadKey at h
  split at h
  · next hbio => exact ⟨Or.inl hbio, read_of_yields t h.of_leased⟩
  · obtain ⟨_, hnone, hread⟩ := h.of_bind
    exact ⟨Or.inr (none_of_yields_printErrors hnone), read_of_yields t hread⟩

theorem checkKey_accounts :
    Accounts (checkKey t) (fun _ => 0) (fun e l => l = 0 ∧ t.matching = false ∧ Prints t.checkError e) := by
  unfold checkKey
  split
  · exact Accounts.pure _ rfl
  · next hkey =>
      apply (printErrors_accounts t.checkError).mono
      rintro e l ⟨hl, hprints⟩
      exact ⟨hl, by simpa using hkey, hprints⟩

theorem checked_of_yields (h : Yields (checkKey t) ()) : t.matching = true ∨ t.checkError = none := by
  unfold checkKey at h
  split at h
  · next hkey => exact Or.inl hkey
  · exact Or.inr (none_of_yields_printErrors h)

/-- `ctx_` is lost whenever the body throws: `~SSLServer` does not run. -/
theorem body_accounts : Accounts (body t) (fun _ => {.ctx}) (Left t) := by
  have hacquire : Accounts (acquire .ctx : Build Abrupt Resource Unit) (fun _ => {.ctx}) (fun _ _ => False) :=
    Accounts.acquire _
  have hkeys : Accounts (loadKey t >>= fun _ => checkKey t) (fun _ => 0)
      (fun e l => Certified t → Left t e (.ctx ::ₘ l)) := by
    refine Accounts.bind (loadKey_accounts t) (fun _ => checkKey_accounts t) (fun _ _ _ => add_zero _) ?_ ?_
    · rintro e l (⟨rfl, hbio, he⟩ | ⟨rfl, hbio, hkey, he⟩) hcert
      · exact .noKeybio hcert hbio he
      · exact .badKey hcert hbio hkey he
    · rintro _ e l hkeyed ⟨rfl, hmatching, he⟩ hcert
      exact .mismatch hcert (keyed_of_yields t hkeyed) hmatching he
  have hload : Accounts (loadCertificate t >>= fun _ => loadKey t >>= fun _ => checkKey t)
      (fun _ => 0) (fun e l => Left t e (.ctx ::ₘ l)) := by
    refine Accounts.bind (loadCertificate_accounts t) (fun _ => hkeys) (fun _ _ _ => add_zero _) ?_ ?_
    · rintro e l ⟨rfl, ⟨rfl, hbio⟩ | ⟨rfl, hbio, hcert⟩⟩
      · exact .noCertbio hbio
      · exact .badCertificate hbio hcert
    · intro _ e l hcert hl
      rw [zero_add]
      exact hl (certified_of_yields t hcert)
  refine Accounts.bind hacquire (fun _ => hload) (fun _ _ _ => add_zero _) (fun _ _ hl => absurd hl id) ?_
  intro _ e l _ hl
  rwa [Multiset.singleton_add]

variable {t} {e e' : Abrupt} {l l' : Multiset Resource}

theorem Prints.unique {str : Option String} (h : Prints str e) (h' : Prints str e') : e' = e := by
  obtain ⟨s, rfl, rfl⟩ := h
  obtain ⟨s', hs, rfl⟩ := h'
  cases hs
  rfl

theorem Prints.ne_none {str : Option String} (h : Prints str e) : str ≠ none := by
  obtain ⟨s, rfl, _⟩ := h
  simp

theorem Keyed.not_badKey (hkey : Keyed t) (hno : t.pkey = false) : ¬ Prints t.pkeyError e :=
  fun he => he.ne_none (hkey.2.resolve_left (by simp [hno]))

theorem Keyed.not_noKeybio (hkey : Keyed t) (h : t.keybio = false) :
    ¬ (Prints t.keybioError e ∨ t.keybioError = none ∧ t.pkey = false ∧ Prints t.pkeyError e) := by
  rintro (he | ⟨_, hno, he⟩)
  · exact he.ne_none (hkey.1.resolve_left (by simp [h]))
  · exact hkey.not_badKey hno he

/-- A body that throws did not come to its end. -/
theorem Left.not_yields (h : Left t e l) : ¬ Yields (body t) () := by
  intro hbody
  obtain ⟨_, _, hload⟩ := hbody.of_bind
  obtain ⟨_, hcert, hkeys⟩ := hload.of_bind
  obtain ⟨_, hkey, hcheck⟩ := hkeys.of_bind
  obtain ⟨hbio, hread⟩ := certified_of_yields t hcert
  have hkeyed := keyed_of_yields t hkey
  have hchecked := checked_of_yields t hcheck
  cases h with
  | noCertbio h => simp_all
  | badCertificate h hcert => simp_all
  | noKeybio _ h he => exact hkeyed.not_noKeybio h he
  | badKey _ _ hno he => exact hkeyed.not_badKey hno he
  | mismatch _ _ h he => exact he.ne_none (hchecked.resolve_left (by simp [h]))

/-- What the body throws and leaves is decided by the first of its steps that fails. -/
theorem Left.unique (h : Left t e l) (h' : Left t e' l') : e' = e ∧ l' = l := by
  cases h with
  | noCertbio _ => cases h' <;> simp_all [Certified]
  | badCertificate _ _ => cases h' <;> simp_all [Certified]
  | noKeybio _ hbio he =>
      cases h' with
      | noKeybio _ _ he' =>
          refine ⟨?_, rfl⟩
          rcases he with he | ⟨hnone, _, he⟩ <;> rcases he' with he' | ⟨hnone', _, he'⟩
          · exact he.unique he'
          · exact absurd hnone' he.ne_none
          · exact absurd hnone he'.ne_none
          · exact he.unique he'
      | mismatch _ hkey _ _ => exact absurd he (hkey.not_noKeybio hbio)
      | _ => simp_all [Certified]
  | badKey _ _ hno he =>
      cases h' with
      | badKey _ _ _ he' => exact ⟨he.unique he', rfl⟩
      | mismatch _ hkey _ _ => exact absurd he (hkey.not_badKey hno)
      | _ => simp_all [Certified]
  | mismatch _ hkey _ he =>
      cases h' with
      | mismatch _ _ _ he' => exact ⟨he.unique he', rfl⟩
      | noKeybio _ hbio he' => exact absurd he' (hkey.not_noKeybio hbio)
      | badKey _ _ hno he' => exact absurd he' (hkey.not_badKey hno)
      | _ => simp_all [Certified]

end SSLServer

/-! ## The whole construction -/

section Whole

variable (p : Platform) (tc : ThreadCount) (o : Outcomes)

theorem SSLServer.finish_accounts (fd : SOCKET) (q : Option SOCKET) :
    Accounts (SSLServer.finish o fd q) (fun srv => Server.ctxHolds srv.ctx)
      (fun e l => ∃ t, o.tls = some t ∧ SSLServer.Left t e l) := by
  unfold SSLServer.finish
  split
  · exact Accounts.pure _ rfl
  · next t ht =>
      refine Accounts.bind_pure ((SSLServer.body_accounts t).mono ?_) (fun _ => rfl)
      intro e l hl
      exact ⟨t, ht, hl⟩

theorem SSLServer.of_yields_finish {fd : SOCKET} {q : Option SOCKET} {srv : Server.Parts}
    (h : Yields (SSLServer.finish o fd q) srv) :
    srv.fd = fd ∧ srv.poller = q ∧ ∀ t, o.tls = some t → Yields (SSLServer.body t) () := by
  unfold SSLServer.finish at h
  split at h
  · next hnone =>
      rw [h.of_pure]
      refine ⟨rfl, rfl, ?_⟩
      intro t ht
      rw [hnone] at ht
      cases ht
  · next t ht =>
      obtain ⟨_, hbody, hpure⟩ := h.of_bind
      rw [hpure.of_pure]
      refine ⟨rfl, rfl, ?_⟩
      intro t' ht'
      rw [ht, Option.some.injEq] at ht'
      exact ht' ▸ hbody

/-- From the body of `SSLServer` on, what `TCPServer` holds is given back. -/
theorem SSLServer.construct_accounts :
    Accounts (SSLServer.construct p tc o) (Server.Parts.holds tc) (Leftover p tc o) := by
  refine Accounts.bind_member (TCPServer.construct_accounts p tc o)
    (fun r => SSLServer.finish_accounts o r.1 r.2) ?_ (fun _ _ hl => hl) ?_
  · intro r srv hsrv
    obtain ⟨hfd, hq, _⟩ := SSLServer.of_yields_finish o hsrv
    unfold Server.Parts.holds
    rw [hfd, hq]
  · rintro r e l hr ⟨t, ht, hl⟩
    exact .tls (TCPServer.built_of_yields p tc o hr) ht hl

theorem SSLServer.of_yields_construct {srv : Server.Parts} (h : Yields (SSLServer.construct p tc o) srv) :
    Server.Built p tc o srv.fd ∧ ∀ t, o.tls = some t → Yields (SSLServer.body t) () := by
  obtain ⟨r, hbase, hfinish⟩ := h.of_bind
  obtain ⟨hfd, _, hbody⟩ := SSLServer.of_yields_finish o hfinish.of_member
  rw [hfd]
  exact ⟨TCPServer.built_of_yields p tc o hbase, hbody⟩

variable {p tc o}

theorem Server.destroy_holds (srv : Server.Parts) : Server.destroy tc srv (srv.holds tc) = 0 := by
  unfold Server.destroy Server.Parts.holds Server.baseHolds
  rw [add_tsub_cancel_right, add_tsub_cancel_left, add_tsub_cancel_right, tsub_self]

theorem Outcomes.Listening.unique {fd fd' : SOCKET} (h : o.Listening fd) (h' : o.Listening fd') : fd' = fd := by
  obtain ⟨_, h⟩ := h
  obtain ⟨_, h'⟩ := h'
  rw [h] at h'
  cases h'
  rfl

theorem Outcomes.Listening.ne_error {fd : SOCKET} {e : Abrupt} {h : Held} (hfd : o.Listening fd) :
    TCPServer.createListener o.servinfo o.listen (Held.start o.errno) ≠ .error e h := by
  obtain ⟨_, hok⟩ := hfd
  rw [hok]
  simp

variable {e e' : Abrupt} {s s' : Multiset Resource}

theorem Leftover.no_worker (h : Leftover p tc o e s) (i : Nat) : .worker i ∉ s := by
  cases h with
  | listener hc => exact worker_not_mem_resources i _ _
  | poller hfd hl => simp [hl.no_worker i]
  | worker hfd hpoller hfails => simp
  | tls hbase ht hl => cases hl <;> simp

/-- Once the listening socket is open, a constructor that throws leaves something. -/
theorem Leftover.ne_zero (h : Leftover p tc o e s) {fd : SOCKET} (hfd : o.Listening fd) : s ≠ 0 := by
  cases h with
  | listener hc => exact absurd hc hfd.ne_error
  | poller hfd hl => simp
  | worker hfd hpoller hfails => simp
  | tls hbase ht hl => cases hl <;> simp

/-- **When a constructor that throws leaves nothing**: it is `create_listener` that threw, on outcomes on which
    it does not leak. -/
theorem Leftover.eq_zero_iff (h : Leftover p tc o e s) :
    s = 0 ↔ (∀ fd, ¬ o.Listening fd) ∧ ListenerSafe o.servinfo o.listen := by
  by_cases hlistening : ∃ fd, o.Listening fd
  · obtain ⟨fd, hfd⟩ := hlistening
    exact iff_of_false (h.ne_zero hfd) (fun hnot => hnot.1 fd hfd)
  · cases h with
    | listener hc =>
        rw [createListener_error_resources hc]
        exact ⟨fun hsafe => ⟨not_exists.mp hlistening, hsafe⟩, And.right⟩
    | poller hfd hl => exact absurd ⟨_, hfd⟩ hlistening
    | worker hfd hpoller hfails => exact absurd ⟨_, hfd⟩ hlistening
    | tls hbase ht hl => exact absurd ⟨_, hbase.listening⟩ hlistening

/-- **There is one part that throws, and one thing it throws and leaves.** -/
theorem Leftover.unique (h : Leftover p tc o e s) (h' : Leftover p tc o e' s') : e' = e ∧ s' = s := by
  cases h with
  | listener hc =>
      cases h' with
      | listener hc' =>
          rw [hc] at hc'
          cases hc'
          exact ⟨rfl, rfl⟩
      | poller hfd' hl' => exact absurd hc hfd'.ne_error
      | worker hfd' hpoller' hfails' => exact absurd hc hfd'.ne_error
      | tls hbase' ht' hl' => exact absurd hc hbase'.listening.ne_error
  | poller hfd hl =>
      cases h' with
      | listener hc' => exact absurd hc' hfd.ne_error
      | poller hfd' hl' =>
          obtain ⟨he, hs⟩ := hl.unique hl'
          exact ⟨he, by rw [hfd.unique hfd', hs]⟩
      | worker hfd' hpoller' hfails' => exact absurd hpoller' hl.not_made
      | tls hbase' ht' hl' => exact absurd hbase'.poller hl.not_made
  | worker hfd hpoller hfails =>
      cases h' with
      | listener hc' => exact absurd hc' hfd.ne_error
      | poller hfd' hl' => exact absurd hpoller hl'.not_made
      | worker hfd' hpoller' hfails' => exact ⟨hfails.unique hfails', by rw [hfd.unique hfd']⟩
      | tls hbase' ht' hl' => exact absurd hbase'.started hfails.not_started
  | tls hbase ht hl =>
      cases h' with
      | listener hc' => exact absurd hc' hbase.listening.ne_error
      | poller hfd' hl' => exact absurd hbase.poller hl'.not_made
      | worker hfd' hpoller' hfails' => exact absurd hbase.started hfails'.not_started
      | tls hbase' ht' hl' =>
          rw [ht, Option.some.injEq] at ht'
          subst ht'
          exact hl.unique hl'

/-- A construction that throws does not return. -/
theorem Leftover.not_yields (h : Leftover p tc o e s) (srv : Server.Parts) :
    ¬ Yields (SSLServer.construct p tc o) srv := by
  intro hyields
  obtain ⟨hbuilt, hbody⟩ := SSLServer.of_yields_construct p tc o hyields
  cases h with
  | listener hc => exact hbuilt.listening.ne_error hc
  | poller hfd hl => exact hl.not_made hbuilt.poller
  | worker hfd hpoller hfails => exact hfails.not_started hbuilt.started
  | tls hbase ht hl => exact hl.not_yields (hbody _ ht)

/-- What a construction that starts with nothing held comes to. -/
def Constructed (p : Platform) (tc : ThreadCount) (o : Outcomes) :
    EStateM.Result Abrupt (Multiset Resource) Server.Parts → Prop
  | .ok srv s =>
      o.Listening srv.fd ∧ s = srv.holds tc ∧ Server.destroy tc srv s = 0 ∧ ∀ e l, ¬ Leftover p tc o e l
  | .error e s =>
      (∀ e' l, Leftover p tc o e' l ↔ e' = e ∧ l = s) ∧ (∀ i, .worker i ∉ s) ∧
        (s = 0 ↔ (∀ fd, ¬ o.Listening fd) ∧ ListenerSafe o.servinfo o.listen)

/-- **What the constructors leave.** For every platform, thread count and outcome of every call but
    `SSL_CTX_new`, which is taken to succeed: a server that was constructed holds its own parts and no more, its
    destructor gives all of them back, and `Leftover` lists nothing. A construction that throws throws and
    leaves the one thing `Leftover` lists. No worker is ever among what is left, and nothing at all is left
    exactly when `create_listener` threw on outcomes on which it does not leak: once the listening socket is
    open, every exception leaves something behind. -/
theorem construction_leaves (p : Platform) (tc : ThreadCount) (o : Outcomes) :
    Constructed p tc o (SSLServer.construct p tc o 0) := by
  have haccounts := SSLServer.construct_accounts p tc o
  cases hrun : SSLServer.construct p tc o 0 with
  | ok srv s =>
      have hs : s = srv.holds tc := by
        rw [haccounts.ok _ _ _ hrun, zero_add]
      have hyields : Yields (SSLServer.construct p tc o) srv := ⟨_, _, hrun⟩
      refine ⟨(SSLServer.of_yields_construct p tc o hyields).1.listening, hs, ?_, ?_⟩
      · rw [hs, Server.destroy_holds]
      · intro e l hl
        exact hl.not_yields srv hyields
  | error e s =>
      obtain ⟨l, hl, hs⟩ := haccounts.error _ _ _ hrun
      rw [zero_add] at hs
      subst hs
      refine ⟨?_, hl.no_worker, hl.eq_zero_iff⟩
      intro e' l'
      refine ⟨hl.unique, ?_⟩
      rintro ⟨rfl, rfl⟩
      exact hl

end Whole

/-- An `SSLServer` with two workers and a certificate that cannot be read: the context and its `BIO` are left. -/
example :
    SSLServer.construct .linux (.count 2)
        ⟨.ok [⟨.ok 3, none, none⟩], none, .ENOENT, .ok 4, none, fun _ => none,
          some ⟨true, false, true, none, true, none, true, none⟩⟩ 0 =
      .error (.throws (.nonRecoverable "Invalid certificate key." none)) {.certbio, .ctx} := by
  rfl

end Neblina

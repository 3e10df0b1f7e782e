import Neblina.Server.Kernel

/-!
# `Server.Poller` — the three pollers

`poller.linux.cpp`, `poller.bsd.cpp` and `poller.win32.cpp` turn what the kernel reports into the same
three events. The first two keep the registrations in the kernel (`Kernel.interest`) and delete one in the
middle of `wait`; the third keeps its own table (`Kernel.table`) and never deletes an entry.

`wait_eq` says what `wait` does when the kernel keeps its promise (at most one event for each registered
descriptor): the events in order, and the registrations of the disconnected ones gone.
-/

namespace Neblina

inductive Platform where
  | linux
  | bsd
  | win32
  deriving DecidableEq, Repr

/-- `Poller::EventType`. -/
inductive EventType where
  | newClient
  | clientDataReady
  | clientDisconnected
  deriving DecidableEq, Repr

/-- `Poller::Event`. -/
structure Event where
  type : EventType
  fd   : SOCKET
  deriving DecidableEq, Repr

/-- One event of `epoll_wait` or `kevent`, or one entry of `WSAPoll`, with the flags the code tests:
    `EPOLLIN` / `POLLRDNORM`, `EPOLLRDHUP` / `EV_EOF`, `EPOLLHUP` / `POLLHUP`, `EPOLLERR` / `POLLERR` and
    `POLLNVAL`. -/
structure PollEvent where
  fd       : SOCKET
  readable : Bool
  eof      : Bool
  hup      : Bool
  err      : Bool
  nval     : Bool
  deriving DecidableEq, Repr

/-- The result of the call that waits. -/
abbrev PollResult := Except Errno (List PollEvent)

namespace Poller

/-- `EVENT_BUFFER_SZ`. -/
def eventBufferSz : Nat := 64

/-- An event counts as reported, whatever `wait` makes of it. -/
def report (raw : List PollEvent) (k : Kernel) : Kernel :=
  { k with
    socks := fun id =>
      if raw.any (fun e => k.fds e.fd == some id) then { k.socks id with edge := false }
      else k.socks id }

/-- `epoll_ctl(EPOLL_CTL_DEL)` and `kevent(EV_DELETE)`, which fail when the descriptor is not registered. -/
def unregister (what : String) (fd : SOCKET) : EStateM Abrupt Kernel Unit := fun k =>
  if k.interest fd then .ok () { k with interest := Function.update k.interest fd false }
  else .error (.throws (.nonRecoverable what (some .ENOENT))) k

/-- `epoll_ctl(EPOLL_CTL_ADD)` and `kevent(EV_ADD)`, which fail when the descriptor is registered. What is
    in the buffer already counts as arrived. -/
def register (what : String) (fd : SOCKET) : EStateM Abrupt Kernel Unit := fun k =>
  if k.interest fd then .error (.throws (.nonRecoverable what (some .EEXIST))) k
  else
    let k' := { k with interest := Function.update k.interest fd true }
    match k.fds fd with
    | none => .ok () k'
    | some id => .ok () (k'.setSock id { k.socks id with edge := (k.socks id).ready })

/-! ## `Poller::wait` -/

/-- The event the loop of `wait` puts in for an entry, if any. -/
def event (classify : PollEvent → Option EventType) (serverFd : SOCKET) (e : PollEvent) : Option Event :=
  if e.fd = serverFd then some ⟨.newClient, serverFd⟩ else (classify e).map (fun type => ⟨type, e.fd⟩)

/-- The common loop of the Linux and BSD `wait`: a disconnected client is deregistered on the way, and
    `what` is thrown when that fails. -/
def collect (what : String) (classify : PollEvent → Option EventType) (serverFd : SOCKET) :
    List PollEvent → EStateM Abrupt Kernel (List Event)
  | [] => pure []
  | e :: es => do
      if e.fd ≠ serverFd ∧ classify e = some .clientDisconnected then
        unregister what e.fd
      let evs ← collect what classify serverFd es
      pure ((event classify serverFd e).toList ++ evs)

/-- The common body of the Linux and BSD `wait`. -/
def waitWith (what : String) (classify : PollEvent → Option EventType) (serverFd : SOCKET) :
    PollResult → EStateM Abrupt Kernel (List Event)
  | .error errno =>
      if errno = .EINTR then pure []
      else throw (.throws (.nonRecoverable "epoll error: " (some errno)))
  | .ok raw => do
      modify (report raw)
      collect what classify serverFd raw

/-- The branches on a client's flags in `poller.linux.cpp`: `EPOLLERR | EPOLLHUP | EPOLLRDHUP`, then
    `EPOLLIN | EPOLLET` (the kernel never sets the latter in what it reports). -/
def Linux.classify (e : PollEvent) : Option EventType :=
  if e.err || e.hup || e.eof then some .clientDisconnected
  else if e.readable then some .clientDataReady
  else none

/-- `Poller::wait` of `poller.linux.cpp`. -/
def Linux.wait : SOCKET → PollResult → EStateM Abrupt Kernel (List Event) :=
  waitWith "Could not remove client socket from epoll: " Linux.classify

/-- The branches on a client's flags in `poller.bsd.cpp`: `EV_EOF`, or data. -/
def Bsd.classify (e : PollEvent) : Option EventType :=
  if e.eof then some .clientDisconnected else some .clientDataReady

/-- `Poller::wait` of `poller.bsd.cpp`. -/
def Bsd.wait : SOCKET → PollResult → EStateM Abrupt Kernel (List Event) :=
  waitWith "Could not remove client socket from kqueue: " Bsd.classify

/-- `revents & (POLLHUP | POLLERR | POLLNVAL)`. -/
def PollEvent.lost (e : PollEvent) : Bool := e.hup || e.err || e.nval

/-- What `Poller::wait` of `poller.win32.cpp` makes of the entry of a client. -/
def Win32.entry (e : PollEvent) : List Event :=
  (if e.readable then [⟨.clientDataReady, e.fd⟩] else []) ++
    (if PollEvent.lost e then [⟨.clientDisconnected, e.fd⟩] else [])

/-- The events of `Poller::wait` in `poller.win32.cpp`; index 0 is the server socket. -/
def Win32.events (serverFd : SOCKET) : List PollEvent → List Event
  | [] => []
  | server :: clients =>
      (if server.readable then [⟨.newClient, serverFd⟩] else []) ++ clients.flatMap Win32.entry

/-- `Poller::wait` of `poller.win32.cpp`. -/
def Win32.wait (serverFd : SOCKET) : PollResult → EStateM Abrupt Kernel (List Event)
  | .error _ => throw (.throws (.runtimeError "WSAPoll failed" none))
  | .ok raw => do
      modify (report raw)
      pure (Win32.events serverFd raw)

def wait : Platform → SOCKET → PollResult → EStateM Abrupt Kernel (List Event)
  | .linux => Linux.wait
  | .bsd => Bsd.wait
  | .win32 => Win32.wait

/-- `Poller::add_client`. -/
def addClient (p : Platform) (fd : SOCKET) : EStateM Abrupt Kernel Unit :=
  match p with
  | .linux => register "Could not add client socket in epoll: " fd
  | .bsd => register "Could not add client socket in kqueue: " fd
  | .win32 => fun k => .ok () { k with table := k.table ++ [fd] }

/-! ## What the kernel may report -/

/-- `epoll_wait` and `kevent` report each registered descriptor at most once and fill at most the buffer;
    `WSAPoll` fills in every entry of the table. -/
def Reports (p : Platform) (serverFd : SOCKET) (k : Kernel) : PollResult → Prop
  | .error _ => True
  | .ok raw =>
      match p with
      | .win32 => raw.map PollEvent.fd = k.table
      | _ => (raw.map PollEvent.fd).Nodup ∧ raw.length ≤ eventBufferSz ∧
          ∀ e ∈ raw, e.fd = serverFd ∨ k.interest e.fd = true

instance (p : Platform) (serverFd : SOCKET) (k : Kernel) (r : PollResult) :
    Decidable (Reports p serverFd k r) :=
  match r, p with
  | .error _, _ => isTrue trivial
  | .ok raw, .win32 => inferInstanceAs (Decidable (raw.map PollEvent.fd = k.table))
  | .ok _, .linux => inferInstanceAs (Decidable (_ ∧ _ ∧ _))
  | .ok _, .bsd => inferInstanceAs (Decidable (_ ∧ _ ∧ _))

/-! ## `wait`, when the kernel keeps its promise -/

/-- The descriptors with a `ClientDisconnected` among the events. -/
def disconnected (evs : List Event) : List SOCKET :=
  (evs.filter (fun ev => ev.type = .clientDisconnected)).map Event.fd

/-- The kernel without the registrations of `fds`. -/
def forget (fds : List SOCKET) (k : Kernel) : Kernel :=
  { k with interest := fun fd => k.interest fd && !fds.contains fd }

theorem disconnected_append (evs evs' : List Event) :
    disconnected (evs ++ evs') = disconnected evs ++ disconnected evs' := by
  unfold disconnected
  rw [List.filter_append, List.map_append]

theorem forget_nil (k : Kernel) : forget [] k = k := by
  unfold forget
  simp

theorem forget_cons {fd : SOCKET} (fds : List SOCKET) (k : Kernel) :
    forget fds { k with interest := Function.update k.interest fd false } = forget (fd :: fds) k := by
  unfold forget
  simp only [Kernel.mk.injEq, true_and, and_true]
  funext fd'
  by_cases h : fd' = fd
  · rw [h, Function.update_self]
    simp
  · rw [Function.update_of_ne h]
    simp [h]

section Wait

variable {what : String} {classify : PollEvent → Option EventType} {serverFd : SOCKET}

/-- What an entry contributes to the disconnected descriptors. -/
theorem disconnected_event (e : PollEvent) :
    disconnected (event classify serverFd e).toList =
      if e.fd ≠ serverFd ∧ classify e = some .clientDisconnected then [e.fd] else [] := by
  unfold event
  by_cases hs : e.fd = serverFd
  · rw [if_pos hs, if_neg (fun h => h.1 hs)]
    rfl
  · rw [if_neg hs]
    cases hc : classify e with
    | none => simp [disconnected]
    | some type => cases type <;> simp [disconnected, hs]

/-- **The loop of `wait`.** When every entry is about the server or a registered descriptor, and no
    descriptor occurs twice, nothing is thrown. -/
theorem collect_eq {raw : List PollEvent} : ∀ {k : Kernel}, (raw.map PollEvent.fd).Nodup →
    (∀ e ∈ raw, e.fd = serverFd ∨ k.interest e.fd = true) →
    collect what classify serverFd raw k =
      .ok (raw.flatMap (fun e => (event classify serverFd e).toList))
        (forget (disconnected (raw.flatMap (fun e => (event classify serverFd e).toList))) k) := by
  induction raw with
  | nil =>
      intro k _ _
      show EStateM.Result.ok [] k = .ok [] (forget [] k)
      rw [forget_nil]
  | cons e es ih =>
      intro k hnd hreg
      rw [List.map_cons, List.nodup_cons] at hnd
      have htail : ∀ e' ∈ es, e'.fd = serverFd ∨ k.interest e'.fd = true :=
        fun e' he' => hreg e' (List.mem_cons_of_mem _ he')
      rw [collect, List.flatMap_cons, disconnected_append, disconnected_event]
      by_cases hgone : e.fd ≠ serverFd ∧ classify e = some .clientDisconnected
      · rw [if_pos hgone, if_pos hgone]
        have hon : k.interest e.fd = true := (hreg e List.mem_cons_self).resolve_left hgone.1
        have hunreg : unregister what e.fd k =
            .ok () { k with interest := Function.update k.interest e.fd false } := by
          unfold unregister
          rw [if_pos hon]
        -- no later entry is about the same descriptor, so the others are still registered
        have hrest : ∀ e' ∈ es, e'.fd = serverFd ∨
            Function.update k.interest e.fd false e'.fd = true := by
          intro e' he'
          have hne : e'.fd ≠ e.fd := by
            intro h
            exact hnd.1 (h ▸ List.mem_map_of_mem he')
          rw [Function.update_of_ne hne]
          exact htail e' he'
        refine (Effect.bind_of_ok hunreg).trans ?_
        refine (Effect.bind_of_ok (ih hnd.2 hrest)).trans ?_
        rw [forget_cons]
        rfl
      · rw [if_neg hgone, if_neg hgone]
        exact Effect.bind_of_ok (ih hnd.2 htail)

end Wait

/-- `classify` of a platform. -/
def classify : Platform → PollEvent → Option EventType
  | .linux => Linux.classify
  | _ => Bsd.classify

/-- The events of a `wait` that got `raw`. -/
def events (p : Platform) (serverFd : SOCKET) (raw : List PollEvent) : List Event :=
  match p with
  | .win32 => Win32.events serverFd raw
  | _ => raw.flatMap (fun e => (event (classify p) serverFd e).toList)

/-- On Linux and BSD the events are those of the entries, in their order. -/
theorem events_unix {p : Platform} (hp : p ≠ .win32) (serverFd : SOCKET) (raw : List PollEvent) :
    events p serverFd raw = raw.flatMap (fun e => (event (classify p) serverFd e).toList) := by
  cases p with
  | linux => rfl
  | bsd => rfl
  | win32 => exact absurd rfl hp

/-- **What an entry becomes**: a new client, if it is the server's, else what it is classified as. -/
theorem event_cases {c : PollEvent → Option EventType} {serverFd : SOCKET} {e : PollEvent} {ev : Event}
    (h : event c serverFd e = some ev) :
    (e.fd = serverFd ∧ ev = ⟨.newClient, serverFd⟩) ∨
      (e.fd ≠ serverFd ∧ ev.fd = e.fd ∧ c e = some ev.type) := by
  unfold event at h
  by_cases hs : e.fd = serverFd
  · rw [if_pos hs, Option.some.injEq] at h
    exact Or.inl ⟨hs, h.symm⟩
  · rw [if_neg hs, Option.map_eq_some_iff] at h
    obtain ⟨type, htype, rfl⟩ := h
    exact Or.inr ⟨hs, rfl, htype⟩

theorem mem_events_unix {p : Platform} (hp : p ≠ .win32) {serverFd : SOCKET} {raw : List PollEvent}
    {ev : Event} :
    ev ∈ events p serverFd raw ↔ ∃ e ∈ raw, event (classify p) serverFd e = some ev := by
  rw [events_unix hp, List.mem_flatMap]
  simp only [Option.mem_toList]

/-- The kernel after a `wait` that got `raw`. -/
def afterWait (p : Platform) (serverFd : SOCKET) (raw : List PollEvent) (k : Kernel) : Kernel :=
  match p with
  | .win32 => report raw k
  | _ => forget (disconnected (events p serverFd raw)) (report raw k)

section AfterWait

variable (p : Platform) (serverFd : SOCKET) (raw : List PollEvent) (k : Kernel)

@[simp] theorem afterWait_fds : (afterWait p serverFd raw k).fds = k.fds := by
  cases p <;> rfl

@[simp] theorem afterWait_clients : (afterWait p serverFd raw k).clients = k.clients := by
  cases p <;> rfl

@[simp] theorem afterWait_backlog : (afterWait p serverFd raw k).backlog = k.backlog := by
  cases p <;> rfl

@[simp] theorem afterWait_closes : (afterWait p serverFd raw k).closes = k.closes := by
  cases p <;> rfl

@[simp] theorem afterWait_table : (afterWait p serverFd raw k).table = k.table := by
  cases p <;> rfl

@[simp] theorem afterWait_socks : (afterWait p serverFd raw k).socks = (report raw k).socks := by
  cases p <;> rfl

end AfterWait

/-- `wait` registers nothing. -/
theorem afterWait_interest {p : Platform} {serverFd : SOCKET} {raw : List PollEvent} {k : Kernel}
    {fd : SOCKET} (h : (afterWait p serverFd raw k).interest fd = true) : k.interest fd = true := by
  cases p with
  | linux => exact (Bool.and_eq_true_iff.mp h).1
  | bsd => exact (Bool.and_eq_true_iff.mp h).1
  | win32 => exact h

/-- **What `wait` does** on what the kernel may report: it returns the events, and on Linux and BSD the
    disconnected clients are no longer registered. -/
theorem wait_eq {p : Platform} {serverFd : SOCKET} {raw : List PollEvent} {k : Kernel}
    (h : Reports p serverFd k (.ok raw)) :
    wait p serverFd (.ok raw) k = .ok (events p serverFd raw) (afterWait p serverFd raw k) := by
  cases p with
  | linux => exact collect_eq h.1 h.2.2
  | bsd => exact collect_eq h.1 h.2.2
  | win32 => rfl

/-- A call that failed leaves everything as it was. -/
theorem wait_failed (p : Platform) (serverFd : SOCKET) (errno : Errno) (k : Kernel) :
    wait p serverFd (.error errno) k = .ok [] k ∨
    ∃ e, wait p serverFd (.error errno) k = .error (.throws e) k ∧
      (e = .nonRecoverable "epoll error: " (some errno) ∨ e = .runtimeError "WSAPoll failed" none) := by
  have hunix : ∀ what classify, waitWith what classify serverFd (.error errno) k = .ok [] k ∨
      waitWith what classify serverFd (.error errno) k =
        .error (.throws (.nonRecoverable "epoll error: " (some errno))) k := by
    intro what classify
    by_cases hi : errno = .EINTR
    · left
      simp only [waitWith, if_pos hi]
      rfl
    · right
      simp only [waitWith, if_neg hi]
      rfl
  cases p with
  | linux =>
      exact (hunix "Could not remove client socket from epoll: " Linux.classify).imp_right
        (fun h => ⟨_, h, Or.inl rfl⟩)
  | bsd =>
      exact (hunix "Could not remove client socket from kqueue: " Bsd.classify).imp_right
        (fun h => ⟨_, h, Or.inl rfl⟩)
  | win32 => exact Or.inr ⟨_, rfl, Or.inr rfl⟩

theorem register_error {what : String} {fd : SOCKET} {k k' : Kernel} {e : Abrupt}
    (h : register what fd k = .error e k') : k.interest fd = true ∧ k' = k := by
  unfold register at h
  by_cases hi : k.interest fd = true
  · rw [if_pos hi] at h
    exact ⟨hi, (EStateM.Result.error.inj h).2.symm⟩
  · rw [if_neg hi] at h
    cases hfd : k.fds fd with
    | none =>
        simp only [hfd] at h
        exact absurd h (by simp)
    | some id =>
        simp only [hfd] at h
        exact absurd h (by simp)

/-- `add_client` throws only when the descriptor is registered, and changes nothing then. -/
theorem addClient_error {p : Platform} {fd : SOCKET} {k k' : Kernel} {e : Abrupt}
    (h : addClient p fd k = .error e k') : k.interest fd = true ∧ k' = k := by
  cases p with
  | linux => exact register_error h
  | bsd => exact register_error h
  | win32 => exact absurd h (by simp [addClient])

/-- The socket of `id` after its descriptor was registered. -/
def arm (fd : SOCKET) (k : Kernel) : Nat → Sock := fun id =>
  if k.fds fd = some id then { k.socks id with edge := (k.socks id).ready } else k.socks id

/-- **What `add_client` does.** -/
theorem addClient_ok {p : Platform} {fd : SOCKET} {k k' : Kernel} (h : addClient p fd k = .ok () k') :
    (p = .win32 ∧ k' = { k with table := k.table ++ [fd] }) ∨
    (p ≠ .win32 ∧ k.interest fd = false ∧
      k' = { k with interest := Function.update k.interest fd true, socks := arm fd k }) := by
  have hreg : ∀ {what}, register what fd k = .ok () k' → k.interest fd = false ∧
      k' = { k with interest := Function.update k.interest fd true, socks := arm fd k } := by
    intro what h
    unfold register at h
    by_cases hi : k.interest fd = true
    · rw [if_pos hi] at h
      exact absurd h (by simp)
    · rw [if_neg hi] at h
      refine ⟨Bool.eq_false_iff.mpr hi, ?_⟩
      cases hfd : k.fds fd with
      | none =>
          simp only [hfd, EStateM.Result.ok.injEq, true_and] at h
          have harm : arm fd k = k.socks := by
            funext id
            unfold arm
            rw [hfd, if_neg (by simp)]
          rw [harm, ← h]
      | some id =>
          simp only [hfd, EStateM.Result.ok.injEq, true_and] at h
          have harm : arm fd k =
              Function.update k.socks id { k.socks id with edge := (k.socks id).ready } := by
            funext id'
            unfold arm
            rw [hfd]
            by_cases hid : id' = id
            · rw [hid, Function.update_self, if_pos rfl]
            · rw [Function.update_of_ne hid, if_neg (fun he => hid (Option.some.inj he).symm)]
          rw [harm, ← h]
          rfl
  cases p with
  | linux =>
      obtain ⟨hi, hk⟩ := hreg h
      exact Or.inr ⟨by simp, hi, hk⟩
  | bsd =>
      obtain ⟨hi, hk⟩ := hreg h
      exact Or.inr ⟨by simp, hi, hk⟩
  | win32 => exact Or.inl ⟨rfl, (EStateM.Result.ok.inj h).2.symm⟩

end Poller

end Neblina

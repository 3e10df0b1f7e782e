import Mathlib.Data.List.Nodup
import Neblina.Server.Ledger
import Neblina.Server.Send

/-!
# `Server.Registration` — descriptors, registrations and sessions stay in step

`wait` deletes the registrations of a whole batch at once; the sessions and their descriptors go one by one
while `iterate` works through the batch, and a new client may get a descriptor that was closed a moment
ago. `InStep` is what holds in between: an open descriptor is registered unless one of the tasks that are
left is its disconnection or its registration. With no task left the three sets are equal
(`in_step_run`). The history of `close` is that of `Server.Ledger`.
-/

namespace Neblina

open ThreadManager

variable {σ : Type} {tc : ThreadCount}

/-- The client descriptor a task is about. -/
def Task.client : Task → Option SOCKET
  | .event ⟨.newClient, _⟩ => none
  | .event ⟨.clientDataReady, fd⟩ => some fd
  | .event ⟨.clientDisconnected, fd⟩ => some fd
  | .register fd => some fd

/-- The client descriptor that is open and not registered while the task is left. -/
def Task.unwatched : Task → Option SOCKET
  | .event ⟨.newClient, _⟩ => none
  | .event ⟨.clientDataReady, _⟩ => none
  | .event ⟨.clientDisconnected, fd⟩ => some fd
  | .register fd => some fd

theorem Task.client_of_unwatched {t : Task} {fd : SOCKET} (h : t.unwatched = some fd) :
    t.client = some fd := by
  cases t with
  | register fd' => exact h
  | event ev =>
      obtain ⟨type, fd'⟩ := ev
      cases type with
      | newClient => exact absurd h (by simp [Task.unwatched])
      | clientDataReady => exact absurd h (by simp [Task.unwatched])
      | clientDisconnected => exact h

theorem Task.mem_client {ts : List Task} {fd : SOCKET} (h : fd ∈ ts.filterMap Task.unwatched) :
    fd ∈ ts.filterMap Task.client := by
  obtain ⟨t, ht, hfd⟩ := List.mem_filterMap.mp h
  exact List.mem_filterMap.mpr ⟨t, ht, Task.client_of_unwatched hfd⟩

namespace Poller

/-- The tasks of a batch are about the descriptors of the batch, in their order. -/
theorem clients_sublist {p : Platform} (hp : p ≠ .win32) (serverFd : SOCKET) (raw : List PollEvent) :
    (((events p serverFd raw).map Task.event).filterMap Task.client).Sublist (raw.map PollEvent.fd) := by
  rw [events_unix hp]
  induction raw with
  | nil => exact List.Sublist.refl _
  | cons e es ih =>
      rw [List.flatMap_cons, List.map_append, List.filterMap_append, List.map_cons]
      have hhead : (((event (classify p) serverFd e).toList.map Task.event).filterMap Task.client).Sublist
          [e.fd] := by
        cases hev : event (classify p) serverFd e with
        | none => exact List.nil_sublist _
        | some ev =>
            obtain ⟨type, fd⟩ := ev
            rcases event_cases hev with ⟨_, hnew⟩ | ⟨_, hfd, _⟩
            · rw [hnew]
              exact List.nil_sublist _
            · simp only at hfd
              subst hfd
              cases type with
              | newClient => exact List.nil_sublist _
              | clientDataReady => exact List.Sublist.refl _
              | clientDisconnected => exact List.Sublist.refl _
      exact hhead.append ih

/-- No task of a batch is about the listening socket as a client. -/
theorem clients_ne_server {p : Platform} (hp : p ≠ .win32) {serverFd : SOCKET} {raw : List PollEvent}
    {fd : SOCKET} (h : fd ∈ ((events p serverFd raw).map Task.event).filterMap Task.client) :
    fd ≠ serverFd := by
  obtain ⟨t, ht, hfd⟩ := List.mem_filterMap.mp h
  obtain ⟨ev, hev, rfl⟩ := List.mem_map.mp ht
  obtain ⟨e, _, he⟩ := (mem_events_unix hp).mp hev
  rcases event_cases he with ⟨_, rfl⟩ | ⟨hs, hevfd, _⟩
  · exact absurd hfd (by simp [Task.client])
  · rw [← hevfd] at hs
    obtain ⟨type, fd'⟩ := ev
    cases type with
    | newClient => exact absurd hfd (by simp [Task.client])
    | clientDataReady => exact Option.some.inj hfd ▸ hs
    | clientDisconnected => exact Option.some.inj hfd ▸ hs

/-- The descriptors a batch leaves unregistered are the disconnected ones. -/
theorem unwatched_events (evs : List Event) :
    (evs.map Task.event).filterMap Task.unwatched = disconnected evs := by
  induction evs with
  | nil => rfl
  | cons ev evs ih =>
      obtain ⟨type, fd⟩ := ev
      cases type with
      | newClient => exact ih
      | clientDataReady => exact ih
      | clientDisconnected => exact congrArg (List.cons fd) ih

end Poller

namespace Sys

/-- The tasks that are left are about different clients, whose descriptors are open. -/
structure Batched (s : Sys tc σ) : Prop where
  nodup  : (s.tasks.filterMap Task.client).Nodup
  isOpen : ∀ fd ∈ s.tasks.filterMap Task.client, (s.kernel.fds fd).isSome

section Batch

variable {S : Setup σ} {s s' : Sys tc σ}

theorem batched_of_nil (h : s.tasks = []) : Batched s := by
  refine ⟨?_, ?_⟩
  · rw [h]
    exact List.nodup_nil
  · intro fd hfd
    rw [h] at hfd
    exact absurd hfd List.not_mem_nil

/-- Fewer tasks, and no descriptor they are about was closed. -/
theorem Batched.congr (hs : Batched s)
    (hcl : (s'.tasks.filterMap Task.client).Sublist (s.tasks.filterMap Task.client))
    (hfds : ∀ fd ∈ s'.tasks.filterMap Task.client, s'.kernel.fds fd = s.kernel.fds fd) : Batched s' := by
  refine ⟨hs.nodup.sublist hcl, ?_⟩
  intro fd hfd
  rw [hfds fd hfd]
  exact hs.isOpen fd (hcl.subset hfd)

/-- What the kernel may report, on Linux and BSD. -/
theorem reports_unix (hp : S.platform ≠ .win32) {raw : List PollEvent}
    (hr : Poller.Reports S.platform S.serverFd s.kernel (.ok raw)) :
    (raw.map PollEvent.fd).Nodup ∧ ∀ e ∈ raw, e.fd = S.serverFd ∨ s.kernel.interest e.fd = true := by
  cases hplat : S.platform with
  | linux =>
      rw [hplat] at hr
      exact ⟨hr.1, hr.2.2⟩
  | bsd =>
      rw [hplat] at hr
      exact ⟨hr.1, hr.2.2⟩
  | win32 => exact absurd hplat hp

/-- **Every step keeps the tasks apart**, whatever the OS returns. -/
theorem batched_step (hp : S.platform ≠ .win32) {l : Label tc} (hsound : Sound S s) (hs : Batched s)
    (h : s.step S l = some s') : Batched s' := by
  have htail : ∀ {t rest}, s.tasks = t :: rest →
      (rest.filterMap Task.client).Sublist (s.tasks.filterMap Task.client) := by
    intro t rest ht
    rw [ht]
    exact (List.sublist_cons_self t rest).filterMap _
  cases does_of_step hsound.routed h with
  | env e k he =>
      rcases Kernel.env_cases he with ⟨_, rfl⟩ | ⟨id, sock, _, _, _, rfl⟩
      · exact hs.congr (List.Sublist.refl _) (fun _ _ => rfl)
      · exact hs.congr (List.Sublist.refl _) (fun _ _ => rfl)
  | waited raw ht hr =>
      obtain ⟨hnd, hreg⟩ := reports_unix hp hr
      have hsub := Poller.clients_sublist hp S.serverFd raw
      refine ⟨hnd.sublist hsub, ?_⟩
      intro fd hfd
      show ((Poller.afterWait S.platform S.serverFd raw s.kernel).fds fd).isSome
      rw [Poller.afterWait_fds]
      obtain ⟨e, he, rfl⟩ := List.mem_map.mp (hsub.subset hfd)
      exact hsound.watched e.fd ((hreg e he).resolve_left (Poller.clients_ne_server hp hfd))
  | interrupted errno ht => exact hs.congr (List.Sublist.refl _) (fun _ _ => rfl)
  | waitFailed errno e ht he => exact batched_of_nil rfl
  | admitted os fd0 fd id queue rest hpos ht ha hm hh =>
      rw [hsound.lookup_eq_none ha.closed]
      have hin : ∀ fd' ∈ rest.filterMap Task.client, (s.kernel.fds fd').isSome :=
        fun fd' hfd' => hs.isOpen fd' ((htail ht).subset hfd')
      -- the tasks that are left are about open descriptors, and this one was not open
      have hfree : fd ∉ rest.filterMap Task.client := fun hfd => ha.ne_of_open (hin fd hfd) rfl
      refine ⟨List.nodup_cons.mpr ⟨hfree, hs.nodup.sublist (htail ht)⟩, ?_⟩
      intro fd' hfd'
      show (Function.update s.kernel.fds fd (some id) fd').isSome
      by_cases hfd : fd' = fd
      · rw [hfd, Function.update_self]
        rfl
      · rw [Function.update_of_ne hfd]
        exact hin fd' ((List.mem_cons.mp hfd').resolve_left hfd)
  | refused os fd0 rest e k ht he => exact batched_of_nil rfl
  | registered os fd rest k ht hadd =>
      rcases Poller.addClient_ok hadd with ⟨_, rfl⟩ | ⟨_, _, rfl⟩
      · exact hs.congr (htail ht) (fun _ _ => rfl)
      · exact hs.congr (htail ht) (fun _ _ => rfl)
  | unregistrable os fd rest e ht hi => exact batched_of_nil rfl
  | removed os fd rest hpos ht =>
      refine hs.congr (htail ht) ?_
      intro fd' hfd'
      have hnodup := hs.nodup
      rw [ht] at hnodup
      have hne : fd' ≠ fd := by
        rintro rfl
        exact (List.nodup_cons.mp hnodup).1 hfd'
      cases hx : lookup s.threads fd with
      | none => rfl
      | some x =>
          obtain ⟨hfd, _⟩ := hsound.owned.of_lookup hx
          show Function.update s.kernel.fds x.conn.fd none fd' = _
          rw [hfd, Function.update_of_ne hne]
  | queued os fd rest hpos hk ht => exact hs.congr (htail ht) (fun _ _ => rfl)
  | ran os fd rest tm k hpos hk ht hit =>
      have hk := iterate_tables hsound.owned hit
      exact hs.congr (htail ht) (fun fd' _ => congrFun hk.fds fd')
  | failed os fd rest e tm k hpos hk ht hit => exact batched_of_nil rfl
  | idle k os hk hq => exact hs
  | served k os fd rest tm w hpos hk hq hit =>
      have hk := iterate_tables (hsound.popped hq).owned hit
      exact hs.congr (List.Sublist.refl _) (fun fd' _ => congrFun hk.fds fd')

end Batch

/-- Nothing the OS returns in this step is an error: `accept`, `fcntl` and the handshake succeed, the read
    does not fail (or only with `EAGAIN`), and no write fails. -/
structure Benign (S : Setup σ) (os : Os) : Prop where
  accept    : ∀ errno, os.accept ≠ .failed errno
  fcntl     : socketMarkAsNonblocking S.platform os.fcntl = none
  handshake : Server.handshakeError S.transport os = none
  recv      : Kernel.recvOk os
  send      : ∀ rs, os.send = some rs → ∀ errno, .failed errno ∉ rs

/-- A new client is not refused when no call fails. -/
theorem Benign.not_refused {S : Setup σ} {os : Os} (hok : Benign S os) {k k' : Kernel} {e : Exc}
    (h : (k' = k ∧ (∃ errno, os.accept = .failed errno)) ∨
      ∃ fd id queue, Server.Accepts S os k fd id queue ∧
        ((socketMarkAsNonblocking S.platform os.fcntl = some e ∧ k' = k.opened fd id queue) ∨
          (Server.handshakeError S.transport os = some e ∧
            k' = Kernel.close ⟨fd, id⟩ (k.opened fd id queue)))) : False := by
  rcases h with ⟨_, errno, hacc⟩ | ⟨fd, id, queue, _, ⟨hm, _⟩ | ⟨hh, _⟩⟩
  · exact hok.accept errno hacc
  · exact absurd (hok.fcntl.symm.trans hm) (by simp)
  · exact absurd (hok.handshake.symm.trans hh) (by simp)

/-- No error is raised in the event loop's step. (An error in a worker ends the run.) -/
def Faultless (S : Setup σ) (_ : Sys tc σ) : Label tc → Prop
  | .go os => Benign S os
  | _ => True

/-- The invariant between the tasks. -/
structure InStep (s : Sys tc σ) : Prop where
  session : ∀ fd id, s.kernel.fds fd = some id → (conns s.threads fd).isSome
  watch   : ∀ fd, s.kernel.interest fd = true ↔
    (s.kernel.fds fd).isSome ∧ fd ∉ s.tasks.filterMap Task.unwatched
  calm    : ∀ e ∈ s.escaped, (∃ errno, e = .throws (.nonRecoverable "epoll error: " (some errno))) ∨
    e = .throws (.runtimeError "WSAPoll failed" none)

section Steps

variable {S : Setup σ} {s s' : Sys tc σ}

theorem inStep_start (S : Setup σ) : InStep (start S tc) := by
  refine ⟨?_, ?_, ?_⟩
  · intro fd id h
    exact absurd h (by simp [start, Kernel.init])
  · intro fd
    simp [start, Kernel.init]
  · intro e h
    exact absurd h List.not_mem_nil

/-- What touches none of the sets. -/
theorem InStep.congr (hs : InStep s) (hconns : conns s'.threads = conns s.threads)
    (hk : Kernel.SameTables s.kernel s'.kernel)
    (hun : s'.tasks.filterMap Task.unwatched = s.tasks.filterMap Task.unwatched)
    (hcalm : ∀ e ∈ s'.escaped, e ∈ s.escaped ∨
      (∃ errno, e = .throws (.nonRecoverable "epoll error: " (some errno))) ∨
        e = .throws (.runtimeError "WSAPoll failed" none)) : InStep s' := by
  refine ⟨?_, ?_, ?_⟩
  · rw [hk.fds, hconns]
    exact hs.session
  · rw [hk.interest, hk.fds, hun]
    exact hs.watch
  · intro e he
    rcases hcalm e he with he | he
    · exact hs.calm e he
    · exact he

/-- A client connects, or a client or the network acts on a socket. -/
theorem InStep.acted (hs : InStep s) {e : Env} {k : Kernel} (he : s.kernel.env S.transport e = some k) :
    InStep { s with kernel := k } := by
  rcases Kernel.env_cases he with ⟨_, rfl⟩ | ⟨id, sock, _, _, _, rfl⟩
  · -- the new client waits in the backlog: it has no descriptor
    exact ⟨hs.session, hs.watch, hs.calm⟩
  · exact hs.congr rfl (Kernel.sameTables_setSock _ _ _) rfl (fun _ he => Or.inl he)

/-- A batch: the disconnected clients are deregistered together. -/
theorem InStep.waited (hp : S.platform ≠ .win32) (hs : InStep s) {raw : List PollEvent}
    (ht : s.tasks = []) {calls : List PollerCall} :
    InStep { s with
      kernel := Poller.afterWait S.platform S.serverFd raw s.kernel
      tasks := (Poller.events S.platform S.serverFd raw).map .event
      calls := calls } := by
  have hinterest : ∀ fd, (Poller.afterWait S.platform S.serverFd raw s.kernel).interest fd =
      (s.kernel.interest fd &&
        !(Poller.disconnected (Poller.events S.platform S.serverFd raw)).contains fd) := by
    intro fd
    cases hplat : S.platform with
    | linux => rfl
    | bsd => rfl
    | win32 => exact absurd hplat hp
  have hall : ∀ fd, s.kernel.interest fd = true ↔ (s.kernel.fds fd).isSome := by
    intro fd
    rw [hs.watch, ht]
    simp
  refine ⟨?_, ?_, hs.calm⟩
  · simp only [Poller.afterWait_fds]
    exact hs.session
  · -- before the batch everything open was registered
    intro fd
    simp only [hinterest, Poller.unwatched_events, Poller.afterWait_fds, ← hall]
    simp

/-- A new client gets a descriptor and a session; its registration is still to come. -/
theorem InStep.opened (hsound : Sound S s) (hs : InStep s) {os : Os} {fd0 fd : SOCKET} {id : Nat}
    {queue : List Nat} {rest : List Task} (ht : s.tasks = .event ⟨.newClient, fd0⟩ :: rest)
    (ha : Server.Accepts S os s.kernel fd id queue)
    (hconns : conns s'.threads = Function.update (conns s.threads) fd (some ⟨fd, id⟩))
    (hkernel : s'.kernel = s.kernel.opened fd id queue) (htasks : s'.tasks = .register fd :: rest)
    (hescaped : s'.escaped = s.escaped) : InStep s' := by
  have hfds : s'.kernel.fds = Function.update s.kernel.fds fd (some id) := by
    rw [hkernel]
    rfl
  have hunwatched : s.tasks.filterMap Task.unwatched = rest.filterMap Task.unwatched := by
    rw [ht]
    rfl
  have hoff := hsound.interest_eq_false ha.closed
  have hsome : ∀ fd', (s'.kernel.fds fd').isSome ↔ fd' = fd ∨ (s.kernel.fds fd').isSome := by
    intro fd'
    rw [hfds]
    exact PartialMap.isSome_enter
  refine ⟨?_, ?_, ?_⟩
  · intro fd' id' h
    rw [hfds] at h
    rw [hconns]
    apply PartialMap.isSome_enter.mpr
    rcases PartialMap.enter_eq_some.mp h with ⟨hfd, _⟩ | ⟨_, hold⟩
    · exact Or.inl hfd
    · exact Or.inr (hs.session fd' id' hold)
  · intro fd'
    rw [hsome, htasks, hkernel]
    show s.kernel.interest fd' = true ↔ _ ∧ fd' ∉ fd :: rest.filterMap Task.unwatched
    by_cases hfd : fd' = fd
    · rw [hfd, hoff]
      simp
    · rw [hs.watch, hunwatched, List.mem_cons, not_or]
      simp [hfd]
  · rw [hescaped]
    exact hs.calm

/-- The registration of the new client. -/
theorem InStep.registered (hsound : Sound S s) (hbatch : Batched s) (hs : InStep s) {fd : SOCKET}
    {rest : List Task} (ht : s.tasks = .register fd :: rest) {socks : Nat → Sock} {calls : List PollerCall} :
    InStep { s with
      kernel := { s.kernel with interest := Function.update s.kernel.interest fd true, socks := socks }
      tasks := rest
      calls := calls } := by
  have hopen : (s.kernel.fds fd).isSome := by
    obtain ⟨c, hc⟩ := Option.isSome_iff_exists.mp (hsound.joining fd _ ht).1
    rw [(hsound.owned fd c hc).2]
    rfl
  have hnodup := hbatch.nodup
  rw [ht] at hnodup
  obtain ⟨hnot, _⟩ := List.nodup_cons.mp (show (fd :: rest.filterMap Task.client).Nodup from hnodup)
  refine { hs with watch := ?_ }
  intro fd'
  show Function.update s.kernel.interest fd true fd' = true ↔ _
  by_cases hfd : fd' = fd
  · -- no task behind this one is about the same client
    subst hfd
    rw [Function.update_self]
    exact iff_of_true rfl ⟨hopen, fun hin => hnot (Task.mem_client hin)⟩
  · rw [Function.update_of_ne hfd, hs.watch, ht]
    show _ ∧ fd' ∉ fd :: rest.filterMap Task.unwatched ↔ _
    rw [List.mem_cons, not_or]
    simp [hfd]

/-- A disconnected client's session is removed, and with it goes the descriptor. -/
theorem InStep.closed (hs : InStep s) {c : Connection} {rest : List Task}
    (ht : s.tasks = .event ⟨.clientDisconnected, c.fd⟩ :: rest)
    (hconns : conns s'.threads = Function.update (conns s.threads) c.fd none)
    (hkernel : s'.kernel = Kernel.close c s.kernel) (htasks : s'.tasks = rest)
    (hescaped : s'.escaped = s.escaped) : InStep s' := by
  have hfds : s'.kernel.fds = Function.update s.kernel.fds c.fd none := by
    rw [hkernel]
    rfl
  refine ⟨?_, ?_, ?_⟩
  · intro fd id h
    rw [hfds] at h
    obtain ⟨hne, hold⟩ := PartialMap.erase_eq_some.mp h
    rw [hconns, Function.update_of_ne hne]
    exact hs.session fd id hold
  · intro fd
    rw [hfds, htasks, hkernel]
    show Function.update s.kernel.interest c.fd false fd = true ↔ _
    by_cases hfd : fd = c.fd
    · rw [hfd, Function.update_self, Function.update_self]
      simp
    · rw [Function.update_of_ne hfd, Function.update_of_ne hfd, hs.watch, ht]
      show _ ∧ fd ∉ c.fd :: rest.filterMap Task.unwatched ↔ _
      rw [List.mem_cons, not_or]
      simp [hfd]
  · rw [hescaped]
    exact hs.calm

/-- Writes that do not fail do not throw. -/
theorem sendLoop_benign {data : Bytes} {rs : List SendResult} (h : ∀ errno, .failed errno ∉ rs) :
    ∀ {pos : Nat} {done : Bytes} {e : Exc}, (sendLoop data rs pos done).stop ≠ some (.throws e) := by
  intro pos done e hstop
  obtain ⟨pre, errno, post, hrs, _⟩ := (throws_iff data rs pos done).mp ⟨e, hstop⟩
  apply h errno
  rw [hrs]
  exact List.mem_append_right _ List.mem_cons_self

/-- An iteration in which no call fails does not throw. -/
theorem iterate_benign {tm tm' : ThreadManager tc σ} {k k' : Kernel} {os : Os} {fd : SOCKET} {e : Exc}
    (hown : Owned tm k) (hos : Benign S os) :
    ThreadManager.iterate (S.sessions os) fd (tm, k) ≠ .error (.throws e) (tm', k') := by
  intro h
  obtain ⟨x, self, hx, hit, _⟩ := iterate_error h
  have hconn := hown.conn_open hx
  have hquiet : ∀ out, (os.sent out).stop ≠ some (.throws e) := by
    intro out
    cases out with
    | none => simp [Os.sent]
    | some data =>
        apply sendLoop_benign
        intro errno hin
        unfold Kernel.writes at hin
        cases hsend : os.send with
        | none =>
            rw [hsend] at hin
            exact absurd hin (by simp)
        | some rs =>
            rw [hsend] at hin
            exact hos.send rs hsend errno hin
  have heq := Kernel.iteration_eq (t := S.transport) S.machine x.self hconn hos.recv
  rw [show S.machine.iteration (Kernel.ops S.transport os) x.conn (x.self, k) = .error (.throws e) (self, k')
    from hit] at heq
  split at heq
  · exact absurd heq (by simp)
  · next e' hstop =>
      obtain ⟨rfl, _⟩ := EStateM.Result.error.inj heq
      exact hquiet _ hstop

/-- **A step without errors keeps the sets in step.** -/
theorem inStep_step (hp : S.platform ≠ .win32) {l : Label tc} (hsound : Sound S s) (hbatch : Batched s)
    (hs : InStep s) (hok : Faultless S s l) (h : s.step S l = some s') : InStep s' := by
  cases does_of_step hsound.routed h with
  | env e k he => exact hs.acted he
  | waited raw ht hr => exact hs.waited hp ht
  | interrupted errno ht => exact hs.congr rfl (.refl _) rfl (fun _ he => Or.inl he)
  | waitFailed errno e ht he =>
      refine hs.congr rfl (.refl _) ?_ ?_
      · rw [ht]
      · intro x hx
        rcases List.mem_append.mp hx with hx | hx
        · exact Or.inl hx
        · rw [List.mem_singleton] at hx
          right
          rcases he with rfl | rfl
          · exact Or.inl ⟨errno, hx⟩
          · exact Or.inr hx
  | admitted os fd0 fd id queue rest hpos ht ha hm hh =>
      rw [hsound.lookup_eq_none ha.closed]
      exact hs.opened hsound ht ha (conns_of_update (lookup_insert hpos _)) rfl rfl rfl
  | refused os fd0 rest e k ht he => exact (hok.not_refused he).elim
  | registered os fd rest k ht hadd =>
      rcases Poller.addClient_ok hadd with ⟨hw, _⟩ | ⟨_, _, rfl⟩
      · exact absurd hw hp
      · exact hs.registered hsound hbatch ht
  | unregistrable os fd rest e ht hi => exact absurd hi (hsound.not_registered ht)
  | removed os fd rest hpos ht =>
      have hin : fd ∈ s.tasks.filterMap Task.client := by
        rw [ht]
        exact List.mem_cons_self
      obtain ⟨id, hid⟩ := Option.isSome_iff_exists.mp (hbatch.isOpen fd hin)
      obtain ⟨c, hc⟩ := Option.isSome_iff_exists.mp (hs.session fd id hid)
      obtain ⟨x, hx, hxc⟩ := Option.map_eq_some_iff.mp hc
      have hfd := (hsound.owned fd c hc).1
      subst hfd
      rw [hx]
      refine hs.closed ht (conns_of_update (lookup_remove hpos)) ?_ rfl rfl
      show Kernel.close x.conn s.kernel = Kernel.close c s.kernel
      rw [hxc]
  | queued os fd rest hpos hk ht =>
      refine hs.congr (conns_congr lookup_enqueue) (.refl _) ?_ (fun _ he => Or.inl he)
      rw [ht]
      rfl
  | ran os fd rest tm k hpos hk ht hit =>
      have hun : rest.filterMap Task.unwatched = s.tasks.filterMap Task.unwatched := by
        rw [ht]
        rfl
      exact hs.congr (conns_iterate hpos hit) (iterate_tables hsound.owned hit) hun (fun _ he => Or.inl he)
  | failed os fd rest e tm k hpos hk ht hit => exact absurd hit (iterate_benign hsound.owned hok)
  | idle k os hk hq => exact hs
  | served k os fd rest tm w hpos hk hq hit =>
      have hk := iterate_tables (hsound.popped hq).owned hit
      exact hs.congr (conns_served hpos hit) hk rfl (fun _ he => Or.inl he)

end Steps

/-! ## Runs -/

/-- The texts of the exceptions a registration can fail with. -/
def registrationErrors : List String :=
  ["Could not add client socket in epoll: ", "Could not remove client socket from epoll: ",
    "Could not add client socket in kqueue: ", "Could not remove client socket from kqueue: "]

/-- **Descriptors, registrations and sessions agree.** -/
structure Agree (s : Sys tc σ) : Prop where
  /-- After an `iterate` the registered descriptors are the open ones. -/
  registered : s.tasks = [] → ∀ fd, s.kernel.interest fd = true ↔ (s.kernel.fds fd).isSome
  /-- The keys of the `sessions_` of all threads are the open descriptors. -/
  keys : ∀ fd, (∃ k, ((s.threads k).sessions fd).isSome) ↔ (s.kernel.fds fd).isSome
  /-- The session under a key has the connection that owns the descriptor. -/
  owner : ∀ k fd x, (s.threads k).sessions fd = some x → x.conn.fd = fd ∧ s.kernel.fds fd = some x.conn.id
  /-- Only open descriptors were closed. -/
  wasOpen : ∀ c ∈ s.kernel.closes, c.2.isSome
  /-- No client's descriptor was closed twice. -/
  once : (s.kernel.closes.map Prod.snd).Nodup
  /-- The clients whose descriptor was closed are those that were accepted and have no session. -/
  removed : ∀ id, id < s.kernel.clients → id ∉ s.kernel.backlog →
    (some id ∈ s.kernel.closes.map Prod.snd ↔
      ∀ k fd x, (s.threads k).sessions fd = some x → x.conn.id ≠ id)
  /-- No registration failed. -/
  noThrow : ∀ what ∈ registrationErrors, ∀ errno, .throws (.nonRecoverable what errno) ∉ s.escaped

section Runs

variable {S : Setup σ}

/-- What `InStep` and the books say about the sets themselves. -/
theorem agree_of_inStep {s : Sys tc σ} (hsound : Sound S s) (hb : s.kernel.Books) (hs : InStep s) : Agree s := by
  have howner : ∀ k fd x, (s.threads k).sessions fd = some x →
      x.conn.fd = fd ∧ s.kernel.fds fd = some x.conn.id := by
    intro k fd x h
    exact hsound.owned.of_lookup (lookup_of_sessions hsound.routed h)
  refine ⟨?_, ?_, howner, hb.wasOpen, hb.once, ?_, ?_⟩
  · intro ht fd
    rw [hs.watch, ht]
    simp
  · intro fd
    constructor
    · rintro ⟨k, hk⟩
      obtain ⟨x, hx⟩ := Option.isSome_iff_exists.mp hk
      rw [(howner k fd x hx).2]
      rfl
    · intro h
      obtain ⟨id, hid⟩ := Option.isSome_iff_exists.mp h
      obtain ⟨c, hc⟩ := Option.isSome_iff_exists.mp (hs.session fd id hid)
      obtain ⟨x, hx, _⟩ := Option.map_eq_some_iff.mp hc
      obtain ⟨k, hk⟩ := sessions_of_lookup hx
      exact ⟨k, by rw [hk]; rfl⟩
  · intro id hlt hout
    constructor
    · intro hmem k fd x hx hid
      exact hb.not_mem (howner k fd x hx).2 (hid ▸ hmem)
    · intro hnone
      rcases hb.accounted id hlt hout with ⟨fd, hfd⟩ | hmem
      · obtain ⟨c, hc⟩ := Option.isSome_iff_exists.mp (hs.session fd id hfd)
        obtain ⟨x, hx, rfl⟩ := Option.map_eq_some_iff.mp hc
        obtain ⟨k, hk⟩ := sessions_of_lookup hx
        have hid := (howner k fd x hk).2
        rw [hfd, Option.some.injEq] at hid
        exact absurd hid.symm (hnone k fd x hk)
      · exact hmem
  · intro what hwhat errno hmem
    rcases hs.calm _ hmem with ⟨errno', he⟩ | he
    · simp only [Abrupt.throws.injEq, Exc.nonRecoverable.injEq] at he
      rw [he.1] at hwhat
      exact absurd hwhat (by decide)
    · exact absurd he (by simp)

/-- **Open descriptors, registrations and sessions stay in step** with the Linux and the BSD poller, for
    every number of threads, in every run without errors in `accept`, the creation of the connection, `recv`
    and `send`, and the three sets are equal after every `iterate`. -/
theorem in_step_run (S : Setup σ) (hp : S.platform ≠ .win32) (ls : List (Label tc)) (s : Sys tc σ)
    (hok : Transition.AllSteps (Sys.step S) (Faultless S) (start S tc) ls)
    (hrun : Transition.run (Sys.step S) (start S tc) ls = some s) : Agree s := by
  have hstep : ∀ {a l b}, (Sound S a ∧ Batched a ∧ InStep a) → Faultless S a l →
      (a : Sys tc σ).step S l = some b → Sound S b ∧ Batched b ∧ InStep b := by
    rintro a l b ⟨hsound, hbatch, hs⟩ hl hb
    exact ⟨sound_step hsound hb, batched_step hp hsound hbatch hb, inStep_step hp hsound hbatch hs hl hb⟩
  obtain ⟨hsound, _, hs⟩ := Transition.run_invariant_of hstep
    ⟨sound_start S, batched_of_nil rfl, inStep_start S⟩ hok hrun
  exact agree_of_inStep hsound (books_run hrun).2 hs

/-- What `Benign` asks, when no call fails at all. -/
theorem benign_smooth (S : Setup σ) (fd : SOCKET) : Benign S (Os.smooth fd) := by
  refine ⟨fun errno h => by simp [Os.smooth] at h, rfl, ?_, Or.inl rfl, fun rs h => by simp [Os.smooth] at h⟩
  cases S.transport <;> rfl

/-- A run of steps that fail nowhere. -/
theorem faultless_of_smooth {ls : List (Label tc)}
    (h : ∀ l ∈ ls, ∀ os, l = .go os → ∃ fd, os = Os.smooth fd) :
    Transition.AllSteps (Sys.step S) (Faultless S) (start S tc) ls := by
  apply Transition.AllSteps.of_forall
  intro l hl s
  cases l with
  | go os =>
      obtain ⟨fd, rfl⟩ := h _ hl os rfl
      exact benign_smooth S fd
  | env e => trivial
  | wait r => trivial
  | worker k os => trivial

/-- One client leaves and another one gets its descriptor in the same batch. -/
def sameBatch : List (Label .single) :=
  comesIn ++
    [.env .connect, .env (.finish 0), .wait (.ok [ended 5, readable 3]), .go (Os.smooth 0), .go (Os.smooth 5),
      .go (Os.smooth 5)]

/-- In `sameBatch` descriptor 5 is closed once, for the first client, and the second client's at the end. -/
theorem in_step_run_same_batch :
    ∃ s, Transition.run (Sys.step (echoServer .linux .tcp)) (start (echoServer .linux .tcp) .single)
        sameBatch = some s ∧
      s.kernel.closes = [(5, some 0)] ∧ s.kernel.fds 5 = some 1 ∧ Agree s := by
  have hok : Transition.AllSteps (Sys.step (echoServer .linux .tcp)) (Faultless (echoServer .linux .tcp))
      (start (echoServer .linux .tcp) .single) sameBatch := by
    apply faultless_of_smooth
    simp [sameBatch, comesIn]
  have hend : (Transition.run (Sys.step (echoServer .linux .tcp)) (start (echoServer .linux .tcp) .single)
      sameBatch).map (fun s => (s.kernel.closes, s.kernel.fds 5)) = some ([(5, some 0)], some 1) := by
    decide +kernel
  obtain ⟨s, hrun, hs⟩ := Option.map_eq_some_iff.mp hend
  rw [Prod.mk.injEq] at hs
  exact ⟨s, hrun, hs.1, hs.2, in_step_run _ (by decide) sameBatch s hok hrun⟩

end Runs

end Sys

end Neblina

import Mathlib.Data.List.Nodup
import Neblina.Lib.PartialMap
import Neblina.Server.System
import Neblina.Thread.Pool

/-!
# `Server.Invariant` — a session reaches its own client

`Sound` holds in every reachable state, whatever the OS returns and whatever throws: a session is under the
descriptor of its connection, that descriptor is open for the connection's own client, no two descriptors
are open for one client, and only open descriptors are registered. Everything a session does therefore
goes to the socket of its own client, although it goes by descriptor and descriptors are reused.
-/

namespace Neblina

open ThreadManager

namespace Sys

variable {σ : Type} {tc : ThreadCount}

/-- Every session is under the descriptor of its connection, which is open for the connection's client. -/
def Owned (tm : ThreadManager tc σ) (k : Kernel) : Prop :=
  ∀ fd c, conns tm fd = some c → c.fd = fd ∧ k.fds fd = some c.id

/-- The invariant of all runs. -/
structure Sound (S : Setup σ) (s : Sys tc σ) : Prop where
  routed   : Routed s.threads
  owned    : Owned s.threads s.kernel
  distinct : ∀ fd fd' id, s.kernel.fds fd = some id → s.kernel.fds fd' = some id → fd = fd'
  known    : ∀ fd id, s.kernel.fds fd = some id → id < s.kernel.clients ∧ id ∉ s.kernel.backlog
  waiting  : s.kernel.backlog.Nodup ∧ ∀ id ∈ s.kernel.backlog, id < s.kernel.clients
  watched  : ∀ fd, s.kernel.interest fd = true → (s.kernel.fds fd).isSome
  server   : s.kernel.fds S.serverFd = none
  joining  : ∀ fd rest, s.tasks = .register fd :: rest →
    (conns s.threads fd).isSome ∧ s.kernel.interest fd = false
  alone    : ∀ t rest fd, s.tasks = t :: rest → .register fd ∉ rest

section Iterate

variable {S : Setup σ} {os : Os} {fd : SOCKET} {tm tm' : ThreadManager tc σ} {k k' : Kernel}

theorem Owned.of_lookup (hown : Owned tm k) {x : Session σ} (hx : lookup tm fd = some x) :
    x.conn.fd = fd ∧ k.fds fd = some x.conn.id :=
  hown fd x.conn (conns_of_lookup hx)

/-- The connection of a session is open for its own client. -/
theorem Owned.conn_open (hown : Owned tm k) {x : Session σ} (hx : lookup tm fd = some x) :
    k.fds x.conn.fd = some x.conn.id := by
  obtain ⟨hfd, hopen⟩ := hown.of_lookup hx
  rw [hfd]
  exact hopen

/-- **An iteration that returns**, on a session that is under its own open descriptor. -/
theorem iterate_turn (hown : Owned tm k)
    (h : ThreadManager.iterate (S.sessions os) fd (tm, k) = .ok () (tm', k')) :
    (lookup tm fd = none ∧ tm' = tm ∧ k' = k) ∨
    ∃ x, lookup tm fd = some x ∧ k.fds fd = some x.conn.id ∧ Kernel.recvOk os ∧
      tm' = setSelf tm fd x
        (S.machine.onData x.self ((k.socks x.conn.id).data S.transport os)).1 ∧
      k' = k.setSock x.conn.id ((k.socks x.conn.id).afterTurn S.transport S.machine os x.self) := by
  rcases iterate_ok h with hnone | ⟨x, self, hx, hit, htm⟩
  · exact Or.inl hnone
  · obtain ⟨hr, hself, hk⟩ := Kernel.iteration_ok (hown.conn_open hx) hit
    exact Or.inr ⟨x, hx, (hown.of_lookup hx).2, hr, by rw [htm, hself], hk⟩

/-- An iteration that throws changes the fields of its session and the socket of its client only. -/
theorem iterate_threw (hown : Owned tm k) {e : Abrupt}
    (h : ThreadManager.iterate (S.sessions os) fd (tm, k) = .error e (tm', k')) :
    ∃ x self sock, lookup tm fd = some x ∧ k.fds fd = some x.conn.id ∧ tm' = setSelf tm fd x self ∧
      k' = k.setSock x.conn.id sock ∧ ((sock = k.socks x.conn.id ∧ self = x.self) ∨
        (sock = (k.socks x.conn.id).afterTurn S.transport S.machine os x.self ∧
          self = (S.machine.onData x.self ((k.socks x.conn.id).data S.transport os)).1)) := by
  obtain ⟨x, self, hx, hit, htm⟩ := iterate_error h
  obtain ⟨_, hopen⟩ := hown.of_lookup hx
  have hconn := hown.conn_open hx
  have hsame : k = k.setSock x.conn.id (k.socks x.conn.id) := (Kernel.setSock_self _ _).symm
  by_cases hr : Kernel.recvOk os
  · have heq := Kernel.iteration_eq (t := S.transport) S.machine x.self hconn hr
    rw [show S.machine.iteration (Kernel.ops S.transport os) x.conn (x.self, k) = .error e (self, k')
      from hit] at heq
    split at heq
    · exact absurd heq (by simp)
    · obtain ⟨_, heq⟩ := EStateM.Result.error.inj heq
      rw [Prod.mk.injEq] at heq
      exact ⟨x, self, _, hx, hopen, htm, heq.2, Or.inr ⟨rfl, heq.1⟩⟩
  · obtain ⟨errno, hrecv, hne⟩ := Kernel.recv_of_not_recvOk hr
    have heq := Kernel.iteration_fails (t := S.transport) S.machine x.self hconn hrecv hne
    rw [show S.machine.iteration (Kernel.ops S.transport os) x.conn (x.self, k) = .error e (self, k')
      from hit] at heq
    obtain ⟨_, heq⟩ := EStateM.Result.error.inj heq
    rw [Prod.mk.injEq] at heq
    exact ⟨x, self, _, hx, hopen, htm, heq.2.trans hsame, Or.inl ⟨rfl, heq.1⟩⟩

/-- An iteration that returns changes no table of the kernel. -/
theorem iterate_tables (hown : Owned tm k)
    (h : ThreadManager.iterate (S.sessions os) fd (tm, k) = .ok () (tm', k')) :
    Kernel.SameTables k k' := by
  rcases iterate_turn hown h with ⟨_, _, rfl⟩ | ⟨x, _, _, _, _, rfl⟩
  · exact .refl k'
  · exact Kernel.sameTables_setSock _ _ _

/-- The head of a queue that was served leaves every session with its connection. -/
theorem conns_served (hpos : 0 < tc.size) {j : Fin tc.size} {rest : List SOCKET}
    (h : ThreadManager.iterate (S.sessions os) fd (setQueue tm j rest, k) = .ok () (tm', k')) :
    conns tm' = conns tm :=
  (conns_iterate hpos h).trans (conns_congr (lookup_setQueue j rest))

end Iterate

/-! ## The invariant, step by step -/

theorem sound_start (S : Setup σ) : Sound S (start S tc) := by
  have hnone : ∀ fd, conns (create tc : ThreadManager tc σ) fd = none := by
    intro fd
    exact conns_eq_none (lookup_create fd)
  refine ⟨routed_create, ?_, ?_, ?_, ?_, ?_, rfl, ?_, ?_⟩
  · intro fd c h
    exact absurd ((hnone fd).symm.trans h) (by simp)
  · intro fd fd' id h
    exact absurd h (by simp [start, Kernel.init])
  · intro fd id h
    exact absurd h (by simp [start, Kernel.init])
  · exact ⟨List.Pairwise.nil, fun id h => absurd h List.not_mem_nil⟩
  · intro fd h
    exact absurd h (by simp [start, Kernel.init])
  · intro fd rest h
    exact absurd h (by simp [start])
  · intro t rest fd h
    exact absurd h (by simp [start])

section Steps

variable {S : Setup σ} {s s' : Sys tc σ}

/-- What changes neither the connections nor the table of descriptors nor the backlog, and registers
    nothing, keeps the invariant. -/
theorem Sound.congr (hs : Sound S s) (hrouted : Routed s'.threads)
    (hconns : conns s'.threads = conns s.threads) (hfds : s'.kernel.fds = s.kernel.fds)
    (hclients : s'.kernel.clients = s.kernel.clients) (hbacklog : s'.kernel.backlog = s.kernel.backlog)
    (hinterest : ∀ fd, s'.kernel.interest fd = true → s.kernel.interest fd = true)
    (htasks : ∀ fd, .register fd ∈ s'.tasks → s'.tasks = s.tasks) : Sound S s' := by
  refine ⟨hrouted, ?_, ?_, ?_, ?_, ?_, ?_, ?_, ?_⟩
  · unfold Owned
    rw [hconns, hfds]
    exact hs.owned
  · rw [hfds]
    exact hs.distinct
  · rw [hfds, hclients, hbacklog]
    exact hs.known
  · rw [hbacklog, hclients]
    exact hs.waiting
  · intro fd h
    rw [hfds]
    exact hs.watched fd (hinterest fd h)
  · rw [hfds]
    exact hs.server
  · intro fd rest h
    have hsame := htasks fd (h ▸ List.mem_cons_self)
    obtain ⟨hconn, hoff⟩ := hs.joining fd rest (hsame ▸ h)
    rw [hconns]
    refine ⟨hconn, ?_⟩
    cases hi : s'.kernel.interest fd with
    | false => rfl
    | true => exact absurd (hoff.symm.trans (hinterest fd hi)) (by simp)
  · intro t rest fd h hmem
    have hsame := htasks fd (h ▸ List.mem_cons_of_mem _ hmem)
    exact hs.alone t rest fd (hsame ▸ h) hmem

/-- What changes no connection and no table keeps the invariant. -/
theorem Sound.same (hs : Sound S s) (hrouted : Routed s'.threads)
    (hconns : conns s'.threads = conns s.threads) (hk : Kernel.SameTables s.kernel s'.kernel)
    (htasks : ∀ fd, .register fd ∈ s'.tasks → s'.tasks = s.tasks) : Sound S s' := by
  refine hs.congr hrouted hconns hk.fds hk.clients hk.backlog ?_ htasks
  intro fd hi
  rw [hk.interest] at hi
  exact hi

/-- A descriptor that is not open is not registered. -/
theorem Sound.interest_eq_false (hs : Sound S s) {fd : SOCKET} (h : s.kernel.fds fd = none) :
    s.kernel.interest fd = false := by
  cases hi : s.kernel.interest fd with
  | false => rfl
  | true =>
      have hopen := hs.watched fd hi
      rw [h] at hopen
      exact absurd hopen (by simp)

/-- A new descriptor for the client at the head of the backlog. -/
theorem Sound.opened (hs : Sound S s) {os : Os} {fd : SOCKET} {id : Nat} {queue : List Nat}
    (ha : Server.Accepts S os s.kernel fd id queue) (hrouted : Routed s'.threads)
    (hconns : ∀ fd' c, conns s'.threads fd' = some c →
      conns s.threads fd' = some c ∨ (fd' = fd ∧ c = ⟨fd, id⟩))
    (hkernel : s'.kernel = s.kernel.opened fd id queue)
    (htasks : ∀ fd' rest, s'.tasks = .register fd' :: rest →
      fd' = fd ∧ (conns s'.threads fd).isSome)
    (halone : ∀ t rest fd', s'.tasks = t :: rest → .register fd' ∉ rest) : Sound S s' := by
  have hfds : s'.kernel.fds = Function.update s.kernel.fds fd (some id) := by
    rw [hkernel]
    rfl
  have hwait := hs.waiting
  rw [ha.backlog, List.nodup_cons] at hwait
  -- the new client has no other descriptor, because clients with one are not in the backlog
  have hfresh : ∀ fd', s.kernel.fds fd' ≠ some id := fun fd' h => (hs.known fd' id h).2 ha.head_mem
  have hopen : ∀ fd' id', s'.kernel.fds fd' = some id' →
      (fd' = fd ∧ id' = id) ∨ (fd' ≠ fd ∧ s.kernel.fds fd' = some id') := by
    intro fd' id' h
    rw [hfds] at h
    exact PartialMap.enter_eq_some.mp h
  have hoff := hs.interest_eq_false ha.closed
  refine ⟨hrouted, ?_, ?_, ?_, ?_, ?_, ?_, ?_, halone⟩
  · intro fd' c h
    rw [hfds]
    rcases hconns fd' c h with h | ⟨rfl, rfl⟩
    · obtain ⟨hcfd, hcopen⟩ := hs.owned fd' c h
      rw [Function.update_of_ne (ha.ne_of_open (by rw [hcopen]; rfl))]
      exact ⟨hcfd, hcopen⟩
    · rw [Function.update_self]
      exact ⟨rfl, rfl⟩
  · intro fd₁ fd₂ id' h₁ h₂
    rcases hopen fd₁ id' h₁ with ⟨rfl, rfl⟩ | ⟨_, h₁⟩
    · rcases hopen fd₂ id' h₂ with ⟨rfl, _⟩ | ⟨_, h₂⟩
      · rfl
      · exact absurd h₂ (hfresh fd₂)
    · rcases hopen fd₂ id' h₂ with ⟨_, rfl⟩ | ⟨_, h₂⟩
      · exact absurd h₁ (hfresh fd₁)
      · exact hs.distinct fd₁ fd₂ id' h₁ h₂
  · intro fd' id' h
    rw [hkernel]
    show id' < s.kernel.clients ∧ id' ∉ queue
    rcases hopen fd' id' h with ⟨_, rfl⟩ | ⟨_, h⟩
    · exact ⟨hs.waiting.2 id' ha.head_mem, hwait.1.1⟩
    · obtain ⟨hlt, hnot⟩ := hs.known fd' id' h
      exact ⟨hlt, fun hin => hnot (ha.mem_of_rest hin)⟩
  · rw [hkernel]
    exact ⟨hwait.1.2, fun id' h => hwait.2 id' (List.mem_cons_of_mem _ h)⟩
  · intro fd' h
    rw [hkernel] at h
    rw [hfds]
    exact PartialMap.isSome_enter.mpr (Or.inr (hs.watched fd' h))
  · rw [hfds, Function.update_of_ne ha.other.symm]
    exact hs.server
  · intro fd' rest h
    obtain ⟨rfl, hconn⟩ := htasks fd' rest h
    refine ⟨hconn, ?_⟩
    rw [hkernel]
    exact hoff

/-- A connection is closed and no session has it any more. -/
theorem Sound.closed (hs : Sound S s) {c : Connection} (hrouted : Routed s'.threads)
    (hconns : conns s'.threads = Function.update (conns s.threads) c.fd none)
    (hkernel : s'.kernel = Kernel.close c s.kernel) (htasks : ∀ fd, .register fd ∉ s'.tasks) :
    Sound S s' := by
  have hfds : s'.kernel.fds = Function.update s.kernel.fds c.fd none := by
    rw [hkernel]
    rfl
  have hopen : ∀ fd' id', s'.kernel.fds fd' = some id' → fd' ≠ c.fd ∧ s.kernel.fds fd' = some id' := by
    intro fd' id' h
    rw [hfds] at h
    exact PartialMap.erase_eq_some.mp h
  refine ⟨hrouted, ?_, ?_, ?_, ?_, ?_, ?_, ?_, ?_⟩
  · intro fd' c' h
    rw [hconns] at h
    obtain ⟨hne, hold⟩ := PartialMap.erase_eq_some.mp h
    rw [hfds, Function.update_of_ne hne]
    exact hs.owned fd' c' hold
  · intro fd₁ fd₂ id h₁ h₂
    exact hs.distinct fd₁ fd₂ id (hopen fd₁ id h₁).2 (hopen fd₂ id h₂).2
  · intro fd' id h
    rw [hkernel]
    exact hs.known fd' id (hopen fd' id h).2
  · rw [hkernel]
    exact hs.waiting
  · intro fd' h
    rw [hkernel] at h
    have hne : fd' ≠ c.fd := by
      rintro rfl
      rw [show (Kernel.close c s.kernel).interest = Function.update s.kernel.interest c.fd false from rfl,
        Function.update_self] at h
      exact absurd h (by simp)
    rw [hfds, Function.update_of_ne hne]
    apply hs.watched fd'
    rw [← h]
    exact (Function.update_of_ne hne _ _).symm
  · rw [hfds]
    by_cases hfd : S.serverFd = c.fd
    · rw [hfd, Function.update_self]
    · rw [Function.update_of_ne hfd]
      exact hs.server
  · intro fd' rest h
    exact absurd (h ▸ List.mem_cons_self) (htasks fd')
  · intro t rest fd' h hmem
    exact htasks fd' (h ▸ List.mem_cons_of_mem _ hmem)

/-- The descriptor of a new session is registered. -/
theorem Sound.registered (hs : Sound S s) {fd : SOCKET} {rest : List Task}
    (ht : s.tasks = .register fd :: rest) {socks : Nat → Sock} {calls : List PollerCall} :
    Sound S { s with
      kernel := { s.kernel with interest := Function.update s.kernel.interest fd true, socks := socks }
      tasks := rest
      calls := calls } := by
  have hdone : ∀ fd', .register fd' ∉ rest := fun fd' => hs.alone _ _ fd' ht
  refine { hs with watched := ?_, joining := ?_, alone := ?_ }
  · intro fd' hi
    change Function.update s.kernel.interest fd true fd' = true at hi
    show (s.kernel.fds fd').isSome
    by_cases hfd : fd' = fd
    · -- its session owns the descriptor, which is therefore open
      obtain ⟨c, hc⟩ := Option.isSome_iff_exists.mp (hs.joining fd _ ht).1
      rw [hfd, (hs.owned fd c hc).2]
      rfl
    · rw [Function.update_of_ne hfd] at hi
      exact hs.watched fd' hi
  · rintro fd' rest' rfl
    exact absurd List.mem_cons_self (hdone fd')
  · rintro t rest' fd' rfl hmem
    exact hdone fd' (List.mem_cons_of_mem _ hmem)

/-- A descriptor that is not open has no session. -/
theorem Sound.lookup_eq_none (hs : Sound S s) {fd : SOCKET} (h : s.kernel.fds fd = none) :
    lookup s.threads fd = none := by
  cases hx : lookup s.threads fd with
  | none => rfl
  | some x =>
      obtain ⟨_, hopen⟩ := hs.owned.of_lookup hx
      rw [h] at hopen
      exact absurd hopen (by simp)

/-- The descriptor that is about to be registered is not registered. -/
theorem Sound.not_registered (hs : Sound S s) {fd : SOCKET} {rest : List Task}
    (ht : s.tasks = .register fd :: rest) : s.kernel.interest fd ≠ true := by
  rw [(hs.joining fd rest ht).2]
  simp

/-- A worker takes the head of its queue. -/
theorem Sound.popped (hs : Sound S s) {k : Fin tc.size} {fd : SOCKET} {rest : List SOCKET}
    (hq : (s.threads k).queue = fd :: rest) :
    Sound S { s with threads := setQueue s.threads k rest } := by
  refine hs.same (hs.routed.setQueue ?_) (conns_congr (lookup_setQueue k rest)) (.refl _) (fun _ _ => rfl)
  intro fd' hfd'
  rw [hq]
  exact List.mem_cons_of_mem _ hfd'

/-- The threads after an iteration, returned or thrown. -/
theorem Sound.iterated (hs : Sound S s) (hpos : 0 < tc.size) {x : Session σ} {fd : SOCKET}
    (hx : lookup s.threads fd = some x) {self : σ} {sock : Sock}
    (hthreads : s'.threads = setSelf s.threads fd x self)
    (hkernel : s'.kernel = s.kernel.setSock x.conn.id sock)
    (htasks : ∀ fd, .register fd ∈ s'.tasks → s'.tasks = s.tasks) : Sound S s' := by
  refine hs.same ?_ ?_ ?_ htasks
  · rw [hthreads]
    exact hs.routed.setSelf fd x self
  · rw [hthreads]
    exact conns_setSelf hpos hx self
  · rw [hkernel]
    exact Kernel.sameTables_setSock _ _ _

/-- A client connects, or a client or the network acts on a socket. -/
theorem Sound.acted (hs : Sound S s) {e : Env} {k : Kernel} (he : s.kernel.env S.transport e = some k) :
    Sound S { s with kernel := k } := by
  rcases Kernel.env_cases he with ⟨rfl, rfl⟩ | ⟨id, sock, _, _, _, rfl⟩
  · -- a new client, numbered after all the others
    refine { hs with known := ?_, waiting := ?_ }
    · intro fd id hopen
      obtain ⟨hlt, hnot⟩ := hs.known fd id hopen
      refine ⟨Nat.lt_succ_of_lt hlt, ?_⟩
      intro hin
      rcases List.mem_append.mp hin with hin | hin
      · exact hnot hin
      · rw [List.mem_singleton] at hin
        exact Nat.lt_irrefl _ (hin ▸ hlt)
    · refine ⟨?_, ?_⟩
      · rw [← List.concat_eq_append]
        apply hs.waiting.1.concat
        exact fun hin => Nat.lt_irrefl _ (hs.waiting.2 _ hin)
      · intro id hin
        rcases List.mem_append.mp hin with hin | hin
        · exact Nat.lt_succ_of_lt (hs.waiting.2 id hin)
        · rw [List.mem_singleton] at hin
          rw [hin]
          exact Nat.lt_succ_self _
  · exact hs.same hs.routed rfl (Kernel.sameTables_setSock _ _ _) (fun _ _ => rfl)

/-- `remove_session(fd)`, on a descriptor with or without a session. -/
theorem Sound.removed (hs : Sound S s) (hpos : 0 < tc.size) {os : Os} {fd : SOCKET} {tasks : List Task}
    {calls : List PollerCall} (hdone : ∀ fd', .register fd' ∉ tasks) :
    Sound S { s with
      threads := remove s.threads fd
      kernel := Thread.destroy (S.sessions os) (lookup s.threads fd) s.kernel
      tasks := tasks
      calls := calls } := by
  have hupd : conns (remove s.threads fd) = Function.update (conns s.threads) fd none :=
    conns_of_update (lookup_remove hpos)
  cases hx : lookup s.threads fd with
  | none =>
      -- erasing nothing changes nothing
      refine hs.same (hs.routed.remove fd) ?_ (.refl _) (fun fd' hmem => absurd hmem (hdone fd'))
      have hnone := conns_eq_none hx
      show conns (remove s.threads fd) = conns s.threads
      rw [hupd, ← hnone]
      exact Function.update_eq_self _ _
  | some x =>
      -- the session owned the descriptor, and its destructor closes it
      obtain ⟨hfd, _⟩ := hs.owned.of_lookup hx
      refine hs.closed (c := x.conn) (hs.routed.remove fd) ?_ rfl hdone
      show conns (remove s.threads fd) = Function.update (conns s.threads) x.conn.fd none
      rw [hfd]
      exact hupd

/-- **The invariant is kept by every step**, whatever the OS returns. -/
theorem sound_step {l : Label tc} (hs : Sound S s) (h : s.step S l = some s') : Sound S s' := by
  -- only the task at the head can be a registration, so no later state has one it did not have
  have hrest : ∀ {t rest}, s.tasks = t :: rest → ∀ fd, .register fd ∉ rest :=
    fun ht fd => hs.alone _ _ fd ht
  cases does_of_step hs.routed h with
  | env e k he => exact hs.acted he
  | waited raw ht hr =>
      refine hs.congr hs.routed rfl ?_ ?_ ?_ ?_ ?_
      · exact Poller.afterWait_fds _ _ _ _
      · exact Poller.afterWait_clients _ _ _ _
      · exact Poller.afterWait_backlog _ _ _ _
      · exact fun fd hi => Poller.afterWait_interest hi
      · intro fd hmem
        obtain ⟨ev, _, hev⟩ := List.mem_map.mp hmem
        exact absurd hev (by simp)
  | interrupted errno ht => exact hs.same hs.routed rfl (.refl _) (fun _ _ => rfl)
  | waitFailed errno e ht he =>
      exact hs.same hs.routed rfl (.refl _) (fun _ hmem => absurd hmem List.not_mem_nil)
  | admitted os fd0 fd id queue rest hpos ht ha hm hh =>
      rw [hs.lookup_eq_none ha.closed]
      refine hs.opened ha (hs.routed.insert _) ?_ rfl ?_ ?_
      · intro fd' c hc
        rw [conns_of_update (lookup_insert hpos _)] at hc
        rcases PartialMap.enter_eq_some.mp hc with hnew | ⟨_, hold⟩
        · exact Or.inr hnew
        · exact Or.inl hold
      · intro fd' rest' ht'
        obtain ⟨hreg, _⟩ := List.cons.inj ht'
        refine ⟨(Task.register.inj hreg).symm, ?_⟩
        show (conns (insert s.threads ⟨⟨fd, id⟩, S.machine.init⟩) fd).isSome
        rw [conns_of_update (lookup_insert hpos _)]
        show (Function.update (conns s.threads) fd (some ⟨fd, id⟩) fd).isSome
        rw [Function.update_self]
        rfl
      · intro t rest' fd' ht'
        obtain ⟨_, hr⟩ := List.cons.inj ht'
        rw [← hr]
        exact hrest ht fd'
  | refused os fd0 rest e k ht he =>
      rcases he with ⟨rfl, _⟩ | ⟨fd, id, queue, ha, hcase⟩
      · exact hs.same hs.routed rfl (.refl _) (fun _ hmem => absurd hmem List.not_mem_nil)
      · have hopened : Sound S { s with kernel := s.kernel.opened fd id queue, tasks := [] } := by
          refine hs.opened ha hs.routed (fun _ _ hc => Or.inl hc) rfl ?_ ?_
          · intro fd' rest' ht'
            exact absurd ht' (by simp)
          · intro t rest' fd' ht'
            exact absurd ht' (by simp)
        rcases hcase with ⟨_, rfl⟩ | ⟨_, rfl⟩
        · exact hopened.same hs.routed rfl (.refl _) (fun _ _ => rfl)
        · -- the handshake failed: the descriptor is closed again, and it never had a session
          refine hopened.closed (c := ⟨fd, id⟩) hs.routed ?_ rfl (fun _ => List.not_mem_nil)
          have hnone := conns_eq_none (hs.lookup_eq_none ha.closed)
          show conns s.threads = Function.update (conns s.threads) fd none
          rw [← hnone]
          exact (Function.update_eq_self _ _).symm
  | registered os fd rest k ht hadd =>
      rcases Poller.addClient_ok hadd with ⟨_, rfl⟩ | ⟨_, _, rfl⟩
      · exact hs.congr hs.routed rfl rfl rfl rfl (fun _ hi => hi)
          (fun fd' hmem => absurd hmem (hrest ht fd'))
      · exact hs.registered ht
  | unregistrable os fd rest e ht hi =>
      exact absurd hi (hs.not_registered ht)
  | removed os fd rest hpos ht =>
      apply hs.removed hpos
      exact hrest ht
  | queued os fd rest hpos hk ht =>
      exact hs.same (hs.routed.enqueue fd) (conns_congr lookup_enqueue) (.refl _)
        (fun fd' hmem => absurd hmem (hrest ht fd'))
  | ran os fd rest tm k hpos hk ht hit =>
      exact hs.same (Pool.routed_iterate hs.routed hit) (conns_iterate hpos hit) (iterate_tables hs.owned hit)
        (fun fd' hmem => absurd hmem (hrest ht fd'))
  | failed os fd rest e tm k hpos hk ht hit =>
      obtain ⟨x, self, sock, hx, _, rfl, rfl, _⟩ := iterate_threw hs.owned hit
      exact hs.iterated hpos hx rfl rfl (fun _ hmem => absurd hmem List.not_mem_nil)
  | idle k os hk hq => exact hs
  | served k os fd rest tm w hpos hk hq hit =>
      have hs₁ := hs.popped hq
      exact hs₁.same (Pool.routed_iterate hs₁.routed hit) (conns_iterate hpos hit)
        (iterate_tables hs₁.owned hit) (fun _ _ => rfl)

end Steps

/-- **The invariant holds in every reachable state.** -/
theorem sound_run {S : Setup σ} {ls : List (Label tc)} {s : Sys tc σ}
    (h : Transition.run (Sys.step S) (start S tc) ls = some s) : Sound S s :=
  Transition.run_invariant sound_step (sound_start S) h

end Sys

end Neblina

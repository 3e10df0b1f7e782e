import Neblina.Server.Isolation

/-!
# `Server.Ledger` — the history of `close`

Every `close` of a client's descriptor is written down with the client behind it. `TableStep` says once what a
step can do to the descriptors, the registrations and the sessions; from it the books (`Kernel.Books`) are kept by
every step, also by one in which a call fails: no descriptor is closed that is not open, none is closed on behalf
of another client, and no client is closed twice (`closed_once_run`).
-/

namespace Neblina

open ThreadManager

namespace Sys

variable {σ : Type} {tc : ThreadCount}

/-! ## What a step does to the tables -/

/-- **What a step does to the tables**: the descriptors, the registrations and the history of `close`, the
    connections of the sessions, and the tasks. -/
inductive TableStep (S : Setup σ) (s : Sys tc σ) (l : Label tc) (s' : Sys tc σ) : Prop
  /-- The tables stay; tasks may be done or lost. -/
  | kept (hconns : conns s'.threads = conns s.threads) (hk : Kernel.SameTables s.kernel s'.kernel)
      (htasks : s'.tasks.Sublist s.tasks)
  | connected (hconns : conns s'.threads = conns s.threads)
      (hk : s'.kernel = { s.kernel with
        clients := s.kernel.clients + 1, backlog := s.kernel.backlog ++ [s.kernel.clients] })
      (htasks : s'.tasks = s.tasks)
  | waited (raw : List PollEvent) (ht : s.tasks = [])
      (hr : Poller.Reports S.platform S.serverFd s.kernel (.ok raw))
      (hconns : conns s'.threads = conns s.threads)
      (hk : s'.kernel = Poller.afterWait S.platform S.serverFd raw s.kernel)
      (htasks : s'.tasks = (Poller.events S.platform S.serverFd raw).map .event)
  /-- A new client gets a descriptor and a session. -/
  | opened (os : Os) (fd0 fd : SOCKET) (id : Nat) (queue : List Nat) (rest : List Task)
      (hl : l = .go os) (ha : Server.Accepts S os s.kernel fd id queue)
      (hm : socketMarkAsNonblocking S.platform os.fcntl = none)
      (ht : s.tasks = .event ⟨.newClient, fd0⟩ :: rest)
      (hconns : conns s'.threads = Function.update (conns s.threads) fd (some ⟨fd, id⟩))
      (hk : s'.kernel = s.kernel.opened fd id queue) (htasks : s'.tasks = .register fd :: rest)
  /-- The socket of a new client cannot be made non-blocking: the descriptor stays open with no session. -/
  | stranded (os : Os) (fd : SOCKET) (id : Nat) (queue : List Nat) (e : Exc)
      (hl : l = .go os) (ha : Server.Accepts S os s.kernel fd id queue)
      (hm : socketMarkAsNonblocking S.platform os.fcntl = some e)
      (hconns : conns s'.threads = conns s.threads)
      (hk : s'.kernel = s.kernel.opened fd id queue) (htasks : s'.tasks = [])
  /-- The handshake of a new client fails: the destructor of the connection closes the descriptor. -/
  | rejected (os : Os) (fd : SOCKET) (id : Nat) (queue : List Nat)
      (ha : Server.Accepts S os s.kernel fd id queue)
      (hconns : conns s'.threads = conns s.threads)
      (hk : s'.kernel = Kernel.close ⟨fd, id⟩ (s.kernel.opened fd id queue)) (htasks : s'.tasks = [])
  | registered (fd : SOCKET) (rest : List Task) (ht : s.tasks = .register fd :: rest)
      (hconns : conns s'.threads = conns s.threads)
      (hfds : s'.kernel.fds = s.kernel.fds) (hclients : s'.kernel.clients = s.kernel.clients)
      (hbacklog : s'.kernel.backlog = s.kernel.backlog) (hcloses : s'.kernel.closes = s.kernel.closes)
      (hinterest : s'.kernel.interest = s.kernel.interest ∨
        s'.kernel.interest = Function.update s.kernel.interest fd true)
      (htasks : s'.tasks = rest)
  /-- The session of a disconnected client goes, and closes its descriptor. -/
  | closed (c : Connection) (rest : List Task) (ht : s.tasks = .event ⟨.clientDisconnected, c.fd⟩ :: rest)
      (hc : conns s.threads c.fd = some c)
      (hconns : conns s'.threads = Function.update (conns s.threads) c.fd none)
      (hk : s'.kernel = Kernel.close c s.kernel) (htasks : s'.tasks = rest)

section Steps

variable {S : Setup σ} {s s' : Sys tc σ}

theorem tableStep_of_step {l : Label tc} (hs : Sound S s) (h : s.step S l = some s') :
    TableStep S s l s' := by
  have htail : ∀ {t rest}, s.tasks = t :: rest → rest.Sublist s.tasks := by
    intro t rest ht
    rw [ht]
    exact List.sublist_cons_self t rest
  cases does_of_step hs.routed h with
  | env e k he =>
      rcases Kernel.env_cases he with ⟨_, rfl⟩ | ⟨id, sock, _, _, _, rfl⟩
      · exact .connected rfl rfl rfl
      · exact .kept rfl (Kernel.sameTables_setSock _ _ _) (List.Sublist.refl _)
  | waited raw ht hr => exact .waited raw ht hr rfl rfl rfl
  | interrupted errno ht => exact .kept rfl (.refl _) (List.Sublist.refl _)
  | waitFailed errno e ht he => exact .kept rfl (.refl _) (List.nil_sublist _)
  | admitted os fd0 fd id queue rest hpos ht ha hm hh =>
      rw [hs.lookup_eq_none ha.closed]
      exact .opened os fd0 fd id queue rest rfl ha hm ht (conns_of_update (lookup_insert hpos _)) rfl rfl
  | refused os fd0 rest e k ht he =>
      rcases he with ⟨rfl, _⟩ | ⟨fd, id, queue, ha, ⟨hm, rfl⟩ | ⟨_, rfl⟩⟩
      · exact .kept rfl (.refl _) (List.nil_sublist _)
      · exact .stranded os fd id queue e rfl ha hm rfl rfl rfl
      · exact .rejected os fd id queue ha rfl rfl rfl
  | registered os fd rest k ht hadd =>
      rcases Poller.addClient_ok hadd with ⟨_, rfl⟩ | ⟨_, _, rfl⟩
      · exact .registered fd rest ht rfl rfl rfl rfl rfl (Or.inl rfl) rfl
      · exact .registered fd rest ht rfl rfl rfl rfl rfl (Or.inr rfl) rfl
  | unregistrable os fd rest e ht hi => exact .kept rfl (.refl _) (List.nil_sublist _)
  | removed os fd rest hpos ht =>
      have hupd : conns (remove s.threads fd) = Function.update (conns s.threads) fd none :=
        conns_of_update (lookup_remove hpos)
      cases hx : lookup s.threads fd with
      | none =>
          refine .kept ?_ (.refl _) (htail ht)
          show conns (remove s.threads fd) = conns s.threads
          rw [hupd, ← conns_eq_none hx]
          exact Function.update_eq_self _ _
      | some x =>
          obtain ⟨hfd, _⟩ := hs.owned.of_lookup hx
          subst hfd
          exact .closed x.conn rest ht (conns_of_lookup hx) hupd rfl rfl
  | queued os fd rest hpos hk ht => exact .kept (conns_congr lookup_enqueue) (.refl _) (htail ht)
  | ran os fd rest tm k hpos hk ht hit =>
      exact .kept (conns_iterate hpos hit) (iterate_tables hs.owned hit) (htail ht)
  | failed os fd rest e tm k hpos hk ht hit =>
      obtain ⟨x, self, sock, hx, _, rfl, rfl, _⟩ := iterate_threw hs.owned hit
      exact .kept (conns_setSelf hpos hx self) (Kernel.sameTables_setSock _ _ _) (List.nil_sublist _)
  | idle k os hk hq => exact .kept rfl (.refl _) (List.Sublist.refl _)
  | served k os fd rest tm w hpos hk hq hit =>
      exact .kept (conns_served hpos hit) (iterate_tables (hs.popped hq).owned hit) (List.Sublist.refl _)

end Steps

end Sys

/-! ## The history of `close` -/

/-- **The books of the descriptors.** Every `close` was of a descriptor that was open for a client who has none
    now, no client was closed twice, and every client who was accepted has a descriptor or was closed. -/
structure Kernel.Books (k : Kernel) : Prop where
  ledger    : ∀ c ∈ k.closes, ∃ id, c.2 = some id ∧ id < k.clients ∧ id ∉ k.backlog ∧ ∀ fd, k.fds fd ≠ some id
  once      : (k.closes.map Prod.snd).Nodup
  accounted : ∀ id, id < k.clients → id ∉ k.backlog →
    (∃ fd, k.fds fd = some id) ∨ some id ∈ k.closes.map Prod.snd

namespace Kernel.Books

variable {k k' : Kernel}

theorem init (serverFd : SOCKET) : (Kernel.init serverFd).Books :=
  ⟨fun _ h => absurd h List.not_mem_nil, List.nodup_nil, fun id h => absurd h (Nat.not_lt_zero id)⟩

theorem congr (hb : k.Books) (hclients : k'.clients = k.clients) (hbacklog : k'.backlog = k.backlog)
    (hfds : k'.fds = k.fds) (hcloses : k'.closes = k.closes) : k'.Books := by
  refine ⟨?_, ?_, ?_⟩
  · rw [hcloses, hclients, hbacklog, hfds]
    exact hb.ledger
  · rw [hcloses]
    exact hb.once
  · rw [hcloses, hclients, hbacklog, hfds]
    exact hb.accounted

/-- A client in the history has no descriptor, so one with a descriptor is not in it. -/
theorem not_mem (hb : k.Books) {fd : SOCKET} {id : Nat} (h : k.fds fd = some id) :
    some id ∉ k.closes.map Prod.snd := by
  intro hin
  obtain ⟨c, hc, hcid⟩ := List.mem_map.mp hin
  obtain ⟨id', hid', _, _, hnone⟩ := hb.ledger c hc
  rw [hcid, Option.some.injEq] at hid'
  exact hnone fd (hid' ▸ h)

/-- Only open descriptors were closed. -/
theorem wasOpen (hb : k.Books) : ∀ c ∈ k.closes, c.2.isSome := by
  intro c hc
  obtain ⟨id, hid, _⟩ := hb.ledger c hc
  rw [hid]
  rfl

/-- A client that was accepted has a descriptor, or was closed once. -/
theorem count_closes (hb : k.Books) {id : Nat} (hlt : id < k.clients) (hout : id ∉ k.backlog) :
    ((∃ fd, k.fds fd = some id) ∧ (k.closes.map Prod.snd).count (some id) = 0) ∨
      ((∀ fd, k.fds fd ≠ some id) ∧ (k.closes.map Prod.snd).count (some id) = 1) := by
  rcases hb.accounted id hlt hout with ⟨fd, hfd⟩ | hin
  · exact Or.inl ⟨⟨fd, hfd⟩, List.count_eq_zero.mpr (hb.not_mem hfd)⟩
  · exact Or.inr ⟨fun fd h => hb.not_mem h hin, List.count_eq_one_of_mem hb.once hin⟩

theorem connected (hb : k.Books) :
    ({ k with clients := k.clients + 1, backlog := k.backlog ++ [k.clients] } : Kernel).Books := by
  refine ⟨?_, hb.once, ?_⟩
  · intro c hc
    obtain ⟨id, hid, hlt, hout, hclosed⟩ := hb.ledger c hc
    refine ⟨id, hid, Nat.lt_succ_of_lt hlt, ?_, hclosed⟩
    intro hin
    rcases List.mem_append.mp hin with hin | hin
    · exact hout hin
    · exact Nat.lt_irrefl _ (List.mem_singleton.mp hin ▸ hlt)
  · intro id hlt hout
    have hne : id ≠ k.clients := by
      rintro rfl
      exact hout (List.mem_append_right _ (List.mem_singleton.mpr rfl))
    have hlt' : id < k.clients := Nat.lt_of_le_of_ne (Nat.le_of_lt_succ hlt) hne
    exact hb.accounted id hlt' (fun hin => hout (List.mem_append_left _ hin))

/-- The client at the head of the backlog gets a descriptor. -/
theorem opened (hb : k.Books) {fd : SOCKET} {id : Nat} {queue : List Nat} (hback : k.backlog = id :: queue)
    (hclosed : k.fds fd = none) : (k.opened fd id queue).Books := by
  have hrest : ∀ {id'}, id' ∈ queue → id' ∈ k.backlog := by
    intro id' hin
    rw [hback]
    exact List.mem_cons_of_mem _ hin
  refine ⟨?_, hb.once, ?_⟩
  · intro c hc
    obtain ⟨id', hid', hlt, hout, hnone⟩ := hb.ledger c hc
    refine ⟨id', hid', hlt, fun hin => hout (hrest hin), ?_⟩
    intro fd' h
    rcases PartialMap.enter_eq_some.mp h with ⟨_, rfl⟩ | ⟨_, hold⟩
    · apply hout
      rw [hback]
      exact List.mem_cons_self
    · exact hnone fd' hold
  · intro id' hlt hout
    by_cases hid : id' = id
    · exact Or.inl ⟨fd, PartialMap.enter_eq_some.mpr (Or.inl ⟨rfl, hid⟩)⟩
    · have hout' : id' ∉ k.backlog := by
        rw [hback, List.mem_cons, not_or]
        exact ⟨hid, hout⟩
      rcases hb.accounted id' hlt hout' with ⟨fd', h⟩ | h
      · have hne : fd' ≠ fd := by
          rintro rfl
          exact absurd (hclosed.symm.trans h) (by simp)
        exact Or.inl ⟨fd', PartialMap.enter_eq_some.mpr (Or.inr ⟨hne, h⟩)⟩
      · exact Or.inr h

/-- The only descriptor of a client is closed. -/
theorem closed (hb : k.Books) {c : Connection} (hopen : k.fds c.fd = some c.id)
    (honly : ∀ fd, k.fds fd = some c.id → fd = c.fd) (hlt : c.id < k.clients) (hout : c.id ∉ k.backlog) :
    (Kernel.close c k).Books := by
  have hcloses : (Kernel.close c k).closes = k.closes ++ [(c.fd, some c.id)] := by
    show k.closes ++ [(c.fd, k.fds c.fd)] = _
    rw [hopen]
  refine ⟨?_, ?_, ?_⟩
  · intro x hx
    rw [hcloses] at hx
    rcases List.mem_append.mp hx with hx | hx
    · obtain ⟨id, hid, hlt', hout', hnone⟩ := hb.ledger x hx
      exact ⟨id, hid, hlt', hout', fun fd h => hnone fd (PartialMap.erase_eq_some.mp h).2⟩
    · rw [List.mem_singleton] at hx
      subst hx
      refine ⟨c.id, rfl, hlt, hout, ?_⟩
      intro fd h
      obtain ⟨hne, hold⟩ := PartialMap.erase_eq_some.mp h
      exact hne (honly fd hold)
  · rw [hcloses, List.map_append, List.map_singleton, ← List.concat_eq_append]
    exact hb.once.concat (hb.not_mem hopen)
  · intro id hlt' hout'
    rw [hcloses, List.map_append, List.mem_append]
    rcases hb.accounted id hlt' hout' with ⟨fd, h⟩ | h
    · by_cases hfd : fd = c.fd
      · rw [hfd, hopen, Option.some.injEq] at h
        exact Or.inr (Or.inr (List.mem_singleton.mpr (by rw [h])))
      · exact Or.inl ⟨fd, PartialMap.erase_eq_some.mpr ⟨hfd, h⟩⟩
    · exact Or.inr (Or.inl h)

end Kernel.Books

namespace Sys

variable {σ : Type} {tc : ThreadCount} {S : Setup σ} {s s' : Sys tc σ}

/-- The new descriptor of a client is its only one. -/
theorem Sound.only_opened (hs : Sound S s) {os : Os} {fd : SOCKET} {id : Nat} {queue : List Nat}
    (ha : Server.Accepts S os s.kernel fd id queue) :
    ∀ fd', (s.kernel.opened fd id queue).fds fd' = some id → fd' = fd := by
  intro fd' h
  rcases PartialMap.enter_eq_some.mp h with ⟨hfd, _⟩ | ⟨_, hold⟩
  · exact hfd
  · exact absurd ha.head_mem (hs.known fd' id hold).2

/-- **A step keeps the books**, whatever fails in it. -/
theorem books_step {l : Label tc} (hs : Sound S s) (hb : s.kernel.Books) (h : s.step S l = some s') :
    s'.kernel.Books := by
  cases tableStep_of_step hs h with
  | kept _ hk _ => exact hb.congr hk.clients hk.backlog hk.fds hk.closes
  | connected _ hk _ =>
      rw [hk]
      exact hb.connected
  | waited raw _ _ _ hk _ =>
      rw [hk]
      exact hb.congr (by simp) (by simp) (by simp) (by simp)
  | opened os fd0 fd id queue rest _ ha _ _ _ hk _ =>
      rw [hk]
      exact hb.opened ha.backlog ha.closed
  | stranded os fd id queue e _ ha _ _ hk _ =>
      rw [hk]
      exact hb.opened ha.backlog ha.closed
  | rejected os fd id queue ha _ hk _ =>
      rw [hk]
      have hwait := hs.waiting
      rw [ha.backlog, List.nodup_cons] at hwait
      apply (hb.opened ha.backlog ha.closed).closed
      · exact Function.update_self _ _ _
      · exact hs.only_opened ha
      · exact hs.waiting.2 id ha.head_mem
      · exact hwait.1.1
  | registered fd rest _ _ hfds hclients hbacklog hcloses _ _ => exact hb.congr hclients hbacklog hfds hcloses
  | closed c rest _ hc _ hk _ =>
      rw [hk]
      have hopen := (hs.owned c.fd c hc).2
      obtain ⟨hlt, hout⟩ := hs.known c.fd c.id hopen
      exact hb.closed hopen (fun fd h => hs.distinct fd c.fd c.id h hopen) hlt hout

theorem books_run {ls : List (Label tc)} (hrun : Transition.run (Sys.step S) (start S tc) ls = some s) :
    Sound S s ∧ s.kernel.Books := by
  have hstep : ∀ {a l b}, (Sound S a ∧ a.kernel.Books) → (a : Sys tc σ).step S l = some b →
      Sound S b ∧ b.kernel.Books := by
    rintro a l b ⟨hs, hb⟩ h
    exact ⟨sound_step hs h, books_step hs hb h⟩
  exact Transition.run_invariant hstep ⟨sound_start S, Kernel.Books.init _⟩ hrun

/-- **Every client is closed at most once, and only its own descriptor, whatever fails.** In every reachable
    state, for every poller, kind of connection and number of threads and for all results of the calls: every
    `close` was of a descriptor that was open, and every client who was accepted either has exactly one open
    descriptor and was never closed, or has none and was closed exactly once. -/
theorem closed_once_run (S : Setup σ) (ls : List (Label tc)) (s : Sys tc σ)
    (hrun : Transition.run (Sys.step S) (start S tc) ls = some s) :
    (∀ c ∈ s.kernel.closes, c.2.isSome) ∧
      ∀ id, id < s.kernel.clients → id ∉ s.kernel.backlog →
        ((∃! fd, s.kernel.fds fd = some id) ∧ (s.kernel.closes.map Prod.snd).count (some id) = 0) ∨
          ((∀ fd, s.kernel.fds fd ≠ some id) ∧ (s.kernel.closes.map Prod.snd).count (some id) = 1) := by
  obtain ⟨hs, hb⟩ := books_run hrun
  refine ⟨hb.wasOpen, ?_⟩
  intro id hlt hout
  rcases hb.count_closes hlt hout with ⟨⟨fd, hfd⟩, hcount⟩ | hclosed
  · exact Or.inl ⟨⟨fd, hfd, fun fd' h => hs.distinct fd' fd id h hfd⟩, hcount⟩
  · exact Or.inr hclosed

/-- Three clients at once: the first cannot be made non-blocking, the handshake of the second fails, and the
    third comes in and leaves. -/
def threeFates : List (Label .single) :=
  [.env .connect, .env .connect, .env .connect, .wait (.ok [readable 3]),
    .go { Os.smooth 5 with fcntl := .setFailed }, .wait (.ok [readable 3]),
    .go { Os.smooth 6 with handshake := some ["unsupported protocol"] }, .wait (.ok [readable 3]), .go (Os.smooth 6),
    .go (Os.smooth 6), .env (.finish 2), .wait (.ok [ended 6]), .go (Os.smooth 0)]

/-- In `threeFates` the first client's descriptor stays open, and the others' is closed once for each. -/
theorem closed_once_run_three_fates :
    ∃ s, Transition.run (Sys.step (echoServer .linux .tls)) (start (echoServer .linux .tls) .single)
        threeFates = some s ∧
      s.kernel.closes = [(6, some 1), (6, some 2)] ∧ s.kernel.fds 5 = some 0 ∧ s.escaped.length = 2 ∧
      (s.kernel.closes.map Prod.snd).count (some 0) = 0 := by
  have hend : (Transition.run (Sys.step (echoServer .linux .tls)) (start (echoServer .linux .tls) .single)
      threeFates).map (fun s => (s.kernel.closes, s.kernel.fds 5, s.escaped.length, s.kernel.clients,
        s.kernel.backlog)) = some ([(6, some 1), (6, some 2)], some 0, 2, 3, []) := by
    decide +kernel
  obtain ⟨s, hrun, hs⟩ := Option.map_eq_some_iff.mp hend
  simp only [Prod.mk.injEq] at hs
  obtain ⟨hcloses, hfd, hesc, hclients, hback⟩ := hs
  refine ⟨s, hrun, hcloses, hfd, hesc, ?_⟩
  rcases (closed_once_run _ threeFates s hrun).2 0 (by rw [hclients]; decide) (by rw [hback]; simp) with
    ⟨_, h⟩ | ⟨h, _⟩
  · exact h
  · exact absurd hfd (h 5)

end Sys

end Neblina

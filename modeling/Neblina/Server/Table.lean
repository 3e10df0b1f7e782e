import Mathlib.Data.List.Count
import Neblina.Server.Registration

/-!
# `Server.Table` — the table of the win32 poller

`poller.win32.cpp` keeps the sockets it polls in `p->fds`: `add_client` appends one, `wait` turns a lost
client into a `ClientDisconnected`, and nothing ever takes an entry out. (The other two pollers delete the
registration in `wait`.) So the table is right until the first client is lost, and never again after:
the entry stays, is reported as `POLLNVAL` from then on, and a second entry comes when the handle is reused.

`tracks_iff_never_lost` states both halves for whole runs; `not_tracks_after_hang_up` is the shortest one in
which the table is wrong.
-/

namespace Neblina

open ThreadManager

variable {σ : Type} {tc : ThreadCount}

/-- **The poller's contract**: after a `wait` that returned `ClientDisconnected` for a socket no `wait` returns
    an event of that socket, unless `add_client` was called with it in between. -/
def Poller.Contract (calls : List PollerCall) : Prop :=
  ∀ before evs between evs' after fd,
    calls = before ++ .returned evs :: (between ++ .returned evs' :: after) →
    ⟨.clientDisconnected, fd⟩ ∈ evs → .added fd ∉ between → ∀ ev ∈ evs', ev.fd ≠ fd

/-- A poller that never returns `ClientDisconnected` keeps the contract. -/
theorem Poller.contract_of_none {calls : List PollerCall}
    (h : ∀ evs, .returned evs ∈ calls → ∀ fd, ⟨.clientDisconnected, fd⟩ ∉ evs) : Contract calls := by
  intro before evs between evs' after fd hcalls hgone _
  have hmem : .returned evs ∈ calls := by
    rw [hcalls]
    exact List.mem_append_right _ List.mem_cons_self
  exact absurd hgone (h evs hmem fd)

/-- A `ClientDisconnected` of the win32 poller comes from a lost entry behind the server's. -/
theorem Poller.Win32.mem_events {serverFd fd : SOCKET} {raw : List PollEvent} :
    ⟨.clientDisconnected, fd⟩ ∈ Win32.events serverFd raw ↔
      ∃ e ∈ raw.tail, e.fd = fd ∧ PollEvent.lost e = true := by
  cases raw with
  | nil => simp [Win32.events]
  | cons server clients =>
      have hentry : ∀ e, (⟨.clientDisconnected, fd⟩ : Event) ∈ Win32.entry e ↔
          e.fd = fd ∧ PollEvent.lost e = true := by
        intro e
        unfold Win32.entry
        cases e.readable <;> cases PollEvent.lost e <;> simp [eq_comm]
      have hserver : (⟨.clientDisconnected, fd⟩ : Event) ∉
          (if server.readable then [⟨.newClient, serverFd⟩] else []) := by
        split
        · simp
        · simp
      unfold Win32.events
      rw [List.mem_append, List.mem_flatMap]
      simp only [hserver, hentry, false_or, List.tail_cons]

namespace Sys

/-- **The table tracks the clients**: the server's socket first, then one entry for each client with a live
    session. -/
def Tracks (S : Setup σ) (s : Sys tc σ) : Prop :=
  ∃ clients, s.kernel.table = S.serverFd :: clients ∧ clients.Nodup ∧
    ∀ fd, fd ∈ clients ↔ (conns s.threads fd).isSome

/-- `WSAPoll` fills in each client's entry from the state of its socket, and sets `POLLNVAL` for a socket that
    is closed. -/
def Polled (s : Sys tc σ) : Label tc → Prop
  | .wait (.ok raw) => ∀ e ∈ raw.tail,
      match s.kernel.fds e.fd with
      | none => e.nval = true ∧ e.readable = false ∧ e.hup = false ∧ e.err = false
      | some id => e.nval = false ∧ e.readable = !(s.kernel.socks id).rx.isEmpty ∧
          (e.hup || e.err) = (s.kernel.socks id).fin
  | _ => True

instance (s : Sys tc σ) (l : Label tc) : Decidable (Polled s l) :=
  match l with
  | .wait (.ok raw) =>
      have : ∀ e : PollEvent, Decidable
          (match s.kernel.fds e.fd with
            | none => e.nval = true ∧ e.readable = false ∧ e.hup = false ∧ e.err = false
            | some id => e.nval = false ∧ e.readable = !(s.kernel.socks id).rx.isEmpty ∧
                (e.hup || e.err) = (s.kernel.socks id).fin) := fun e =>
        match s.kernel.fds e.fd with
        | none => inferInstanceAs (Decidable (_ ∧ _))
        | some _ => inferInstanceAs (Decidable (_ ∧ _))
      inferInstanceAs (Decidable (∀ e ∈ raw.tail, _))
  | .wait (.error _) => isTrue trivial
  | .env _ => isTrue trivial
  | .go _ => isTrue trivial
  | .worker _ _ => isTrue trivial

/-- No client's entry is reported with `POLLHUP`, `POLLERR` or `POLLNVAL`. -/
def NeverLost (_ : Sys tc σ) : Label tc → Prop
  | .wait (.ok raw) => ∀ e ∈ raw.tail, Poller.PollEvent.lost e = false
  | _ => True

instance (s : Sys tc σ) (l : Label tc) : Decidable (NeverLost s l) :=
  match l with
  | .wait (.ok raw) => inferInstanceAs (Decidable (∀ e ∈ raw.tail, _))
  | .wait (.error _) => isTrue trivial
  | .env _ => isTrue trivial
  | .go _ => isTrue trivial
  | .worker _ _ => isTrue trivial

/-! ## As long as nobody is lost -/

/-- The invariant between the tasks, while no client is lost. -/
structure Tracking (S : Setup σ) (s : Sys tc σ) : Prop where
  table : ∃ clients, s.kernel.table = S.serverFd :: clients ∧ clients.Nodup ∧
    ∀ fd, fd ∈ clients ↔ (conns s.threads fd).isSome ∧ .register fd ∉ s.tasks
  tasks : ∀ fd, .event ⟨.clientDisconnected, fd⟩ ∉ s.tasks
  calls : ∀ evs, .returned evs ∈ s.calls → ∀ fd, ⟨.clientDisconnected, fd⟩ ∉ evs

section Tracking

variable {S : Setup σ} {s s' : Sys tc σ}

theorem tracking_start (S : Setup σ) : Tracking S (start S tc) := by
  refine ⟨⟨[], rfl, List.nodup_nil, ?_⟩, fun _ => List.not_mem_nil, ?_⟩
  · intro fd
    have hnone : conns (create tc : ThreadManager tc σ) fd = none := conns_eq_none (lookup_create fd)
    show fd ∈ [] ↔ (conns (create tc : ThreadManager tc σ) fd).isSome ∧ _
    rw [hnone]
    simp
  · intro evs h
    exact absurd h List.not_mem_nil

/-- What adds neither an entry nor a session nor an event. -/
theorem Tracking.congr (hs : Tracking S s) (htable : s'.kernel.table = s.kernel.table)
    (hconns : conns s'.threads = conns s.threads)
    (htasks : ∀ t ∈ s'.tasks, t ∈ s.tasks) (hreg : ∀ fd, .register fd ∈ s.tasks → .register fd ∈ s'.tasks)
    (hcalls : ∀ evs, .returned evs ∈ s'.calls → .returned evs ∈ s.calls) : Tracking S s' := by
  obtain ⟨clients, hcl, hnd, hmem⟩ := hs.table
  refine ⟨⟨clients, htable.trans hcl, hnd, ?_⟩, fun fd h => hs.tasks fd (htasks _ h),
    fun evs h => hs.calls evs (hcalls evs h)⟩
  intro fd
  rw [hmem, hconns]
  exact and_congr_right (fun _ => not_congr ⟨hreg fd, htasks _⟩)

/-- A batch in which nobody is lost. -/
theorem Tracking.waited (hp : S.platform = .win32) (hs : Tracking S s) {raw : List PollEvent}
    (ht : s.tasks = []) (hlost : ∀ e ∈ raw.tail, Poller.PollEvent.lost e = false) :
    Tracking S { s with
      kernel := Poller.afterWait S.platform S.serverFd raw s.kernel
      tasks := (Poller.events S.platform S.serverFd raw).map .event
      calls := s.calls ++ [.returned (Poller.events S.platform S.serverFd raw)] } := by
  have hnone : ∀ fd, (⟨.clientDisconnected, fd⟩ : Event) ∉ Poller.events S.platform S.serverFd raw := by
    intro fd hmem
    rw [hp] at hmem
    obtain ⟨e, he, _, hl⟩ := Poller.Win32.mem_events.mp hmem
    rw [hlost e he] at hl
    exact absurd hl (by simp)
  obtain ⟨clients, hcl, hnd, hmem⟩ := hs.table
  refine ⟨⟨clients, (Poller.afterWait_table _ _ _ _).trans hcl, hnd, ?_⟩, ?_, ?_⟩
  · intro fd
    rw [hmem, ht]
    simp
  · intro fd h
    obtain ⟨ev, hev, heq⟩ := List.mem_map.mp h
    cases heq
    exact hnone fd hev
  · intro evs h
    rw [List.mem_append, List.mem_singleton] at h
    rcases h with h | h
    · exact hs.calls evs h
    · cases h
      exact hnone

/-- A session is added; its entry is still to come. -/
theorem Tracking.admitted (hs : Tracking S s) {fd0 fd : SOCKET} {c : Connection} {rest : List Task}
    (ht : s.tasks = .event ⟨.newClient, fd0⟩ :: rest) (hnew : conns s.threads fd = none)
    (hrest : ∀ fd', .register fd' ∉ rest) {tm : ThreadManager tc σ}
    (hconns : conns tm = Function.update (conns s.threads) fd (some c)) {k : Kernel}
    (htable : k.table = s.kernel.table) :
    Tracking S { s with threads := tm, kernel := k, tasks := .register fd :: rest } := by
  obtain ⟨clients, hcl, hnd, hmem⟩ := hs.table
  refine ⟨⟨clients, htable.trans hcl, hnd, ?_⟩, ?_, hs.calls⟩
  · intro fd'
    rw [hmem, hconns, ht]
    by_cases hfd : fd' = fd
    · rw [hfd, Function.update_self, hnew]
      simp
    · rw [Function.update_of_ne hfd]
      simp [hfd, hrest fd']
  · intro fd' h
    rcases List.mem_cons.mp h with h | h
    · exact absurd h (by simp)
    · apply hs.tasks fd'
      rw [ht]
      exact List.mem_cons_of_mem _ h

/-- The entry of the new session. -/
theorem Tracking.registered (hs : Tracking S s) {fd : SOCKET} {rest : List Task}
    (ht : s.tasks = .register fd :: rest) (hlive : (conns s.threads fd).isSome)
    (hrest : ∀ fd', .register fd' ∉ rest) :
    Tracking S { s with
      kernel := { s.kernel with table := s.kernel.table ++ [fd] }
      tasks := rest
      calls := s.calls ++ [.added fd] } := by
  obtain ⟨clients, hcl, hnd, hmem⟩ := hs.table
  have hout : fd ∉ clients := by
    rw [hmem, ht]
    exact fun h => h.2 List.mem_cons_self
  refine ⟨⟨clients ++ [fd], by simp only [hcl]; rfl, ?_, ?_⟩, ?_, ?_⟩
  · rw [← List.concat_eq_append]
    exact hnd.concat hout
  · intro fd'
    rw [List.mem_append, List.mem_singleton, hmem, ht]
    by_cases hfd : fd' = fd
    · rw [hfd]
      simp [hlive, hrest fd]
    · simp [hfd, hrest fd']
  · intro fd' h
    apply hs.tasks fd'
    rw [ht]
    exact List.mem_cons_of_mem _ h
  · intro evs h
    rw [List.mem_append, List.mem_singleton] at h
    rcases h with h | h
    · exact hs.calls evs h
    · exact absurd h (by simp)

/-- **A step keeps the table right as long as nobody is lost**, whatever the OS returns. -/
theorem tracking_step (hp : S.platform = .win32) {l : Label tc} (hsound : Sound S s) (hs : Tracking S s)
    (hlost : NeverLost s l) (h : s.step S l = some s') : Tracking S s' := by
  have hrest : ∀ {t rest}, s.tasks = t :: rest → ∀ fd, .register fd ∉ rest :=
    fun ht fd => hsound.alone _ _ fd ht
  -- the step took an event of the list, or dropped what was behind one
  have htail : ∀ {ev rest}, s.tasks = .event ev :: rest → ∀ t ∈ rest, t ∈ s.tasks := by
    intro ev rest ht t hin
    rw [ht]
    exact List.mem_cons_of_mem _ hin
  have hno : ∀ {ev rest}, s.tasks = .event ev :: rest → ∀ fd, .register fd ∉ s.tasks := by
    intro ev rest ht fd hin
    rw [ht] at hin
    rcases List.mem_cons.mp hin with hin | hin
    · exact absurd hin (by simp)
    · exact hrest ht fd hin
  cases does_of_step hsound.routed h with
  | env e k he =>
      rcases Kernel.env_cases he with ⟨_, rfl⟩ | ⟨_, _, _, _, _, rfl⟩
      · exact hs.congr rfl rfl (fun _ ht => ht) (fun _ ht => ht) (fun _ hc => hc)
      · exact hs.congr rfl rfl (fun _ ht => ht) (fun _ ht => ht) (fun _ hc => hc)
  | waited raw ht hr =>
      exact hs.waited hp ht hlost
  | interrupted errno ht =>
      refine ⟨hs.table, hs.tasks, ?_⟩
      intro evs hin fd
      rcases List.mem_append.mp hin with hin | hin
      · exact hs.calls evs hin fd
      · rw [List.mem_singleton] at hin
        cases hin
        exact List.not_mem_nil
  | waitFailed errno e ht he =>
      refine hs.congr rfl rfl (fun _ hin => absurd hin List.not_mem_nil) ?_ (fun _ hc => hc)
      intro fd hin
      rw [ht] at hin
      exact hin
  | admitted os fd0 fd id queue rest hpos ht ha hm hh =>
      rw [hsound.lookup_eq_none ha.closed]
      have hnone := conns_eq_none (hsound.lookup_eq_none ha.closed)
      exact hs.admitted ht hnone (hrest ht) (conns_of_update (lookup_insert hpos _)) rfl
  | refused os fd0 rest e k ht he =>
      have htable : k.table = s.kernel.table := by
        rcases he with ⟨rfl, _⟩ | ⟨fd, id, queue, _, ⟨_, rfl⟩ | ⟨_, rfl⟩⟩
        · rfl
        · rfl
        · rfl
      exact hs.congr htable rfl (fun _ hin => absurd hin List.not_mem_nil)
        (fun fd hin => absurd hin (hno ht fd)) (fun _ hc => hc)
  | registered os fd rest k ht hadd =>
      rcases Poller.addClient_ok hadd with ⟨_, rfl⟩ | ⟨hw, _, _⟩
      · exact hs.registered ht (hsound.joining fd rest ht).1 (hrest ht)
      · exact absurd hp hw
  | unregistrable os fd rest e ht hi => exact absurd hi (hsound.not_registered ht)
  | removed os fd rest hpos ht =>
      exact absurd (by rw [ht]; exact List.mem_cons_self) (hs.tasks fd)
  | queued os fd rest hpos hk ht =>
      exact hs.congr rfl (conns_congr lookup_enqueue) (htail ht) (fun fd' hin => absurd hin (hno ht fd'))
        (fun _ hc => hc)
  | ran os fd rest tm k hpos hk ht hit =>
      exact hs.congr (iterate_tables hsound.owned hit).table (conns_iterate hpos hit) (htail ht)
        (fun fd' hin => absurd hin (hno ht fd')) (fun _ hc => hc)
  | failed os fd rest e tm k hpos hk ht hit =>
      obtain ⟨x, self, sock, hx, _, rfl, rfl, _⟩ := iterate_threw hsound.owned hit
      exact hs.congr rfl (conns_setSelf hpos hx _) (fun _ hin => absurd hin List.not_mem_nil)
        (fun fd' hin => absurd hin (hno ht fd')) (fun _ hc => hc)
  | idle k os hk hq => exact hs
  | served k os fd rest tm w hpos hk hq hit =>
      have hk := iterate_tables (hsound.popped hq).owned hit
      exact hs.congr hk.table (conns_served hpos hit) (fun _ ht => ht) (fun _ ht => ht) (fun _ hc => hc)

theorem Tracking.tracks (hs : Tracking S s) (ht : s.tasks = []) : Tracks S s := by
  obtain ⟨clients, hcl, hnd, hmem⟩ := hs.table
  refine ⟨clients, hcl, hnd, ?_⟩
  intro fd
  rw [hmem, ht]
  simp

end Tracking

/-! ## Once somebody was lost -/

/-- The client on `fd` has a session and its entry, and neither is about to go or to come. -/
def Settled (s : Sys tc σ) (fd : SOCKET) : Prop :=
  (conns s.threads fd).isSome ∧ .event ⟨.clientDisconnected, fd⟩ ∉ s.tasks ∧ .register fd ∉ s.tasks

instance (s : Sys tc σ) (fd : SOCKET) : Decidable (Settled s fd) := inferInstanceAs (Decidable (_ ∧ _))

/-- There is an entry too many: one without a session, or a second one. -/
def Stale (S : Setup σ) (s : Sys tc σ) : Prop :=
  ∃ fd, fd ≠ S.serverFd ∧ (if Settled s fd then 1 else 0) < s.kernel.table.count fd

section Stale

variable {S : Setup σ} {s s' : Sys tc σ}

/-- Entries stay, and nobody becomes settled. -/
theorem Stale.congr (hs : Stale S s) (htable : s'.kernel.table = s.kernel.table)
    (hsettled : ∀ fd, Settled s' fd → Settled s fd) : Stale S s' := by
  obtain ⟨fd, hne, hlt⟩ := hs
  refine ⟨fd, hne, ?_⟩
  rw [htable]
  by_cases h : Settled s' fd
  · rw [if_pos (hsettled fd h)] at hlt
    rw [if_pos h]
    exact hlt
  · rw [if_neg h]
    exact Nat.lt_of_le_of_lt (Nat.zero_le _) hlt

/-- A new entry covers the new session only. -/
theorem Stale.registered (hs : Stale S s) {fd : SOCKET} {rest : List Task}
    (ht : s.tasks = .register fd :: rest) (hrest : ∀ fd', .register fd' ∉ rest)
    (hthreads : s'.threads = s.threads) (htable : s'.kernel.table = s.kernel.table ++ [fd])
    (htasks : s'.tasks = rest) : Stale S s' := by
  obtain ⟨fd', hne, hlt⟩ := hs
  refine ⟨fd', hne, ?_⟩
  rw [htable, List.count_append]
  by_cases hfd : fd' = fd
  · have hnot : ¬ Settled s fd' := by
      rintro ⟨_, _, hreg⟩
      apply hreg
      rw [ht, hfd]
      exact List.mem_cons_self
    rw [if_neg hnot] at hlt
    rw [hfd, List.count_singleton_self]
    rw [hfd] at hlt
    split <;> omega
  · have hiff : Settled s' fd' → Settled s fd' := by
      rintro ⟨hlive, hgone, _⟩
      rw [hthreads] at hlive
      rw [htasks] at hgone
      refine ⟨hlive, ?_, ?_⟩
      · rw [ht]
        simpa using hgone
      · rw [ht]
        simp [hfd, hrest fd']
    by_cases h : Settled s' fd'
    · rw [if_pos (hiff h)] at hlt
      rw [if_pos h]
      omega
    · rw [if_neg h]
      omega

/-- **An entry too many stays one too many**, when no call fails. -/
theorem stale_step (hp : S.platform = .win32) {l : Label tc} (hsound : Sound S s) (hs : Stale S s)
    (hok : Faultless S s l) (h : s.step S l = some s') : Stale S s' := by
  have hrest : ∀ {t rest}, s.tasks = t :: rest → ∀ fd, .register fd ∉ rest :=
    fun ht fd => hsound.alone _ _ fd ht
  -- an event that is no disconnection is taken, and the sessions stay
  have hpop : ∀ {s'' : Sys tc σ} {ev rest}, s.tasks = .event ev :: rest → ev.type ≠ .clientDisconnected →
      conns s''.threads = conns s.threads → s''.tasks = rest → ∀ fd, Settled s'' fd → Settled s fd := by
    intro s'' ev rest ht hev hconns htasks fd hset
    obtain ⟨hlive, hgone, _⟩ := hset
    rw [hconns] at hlive
    rw [htasks] at hgone
    refine ⟨hlive, ?_, ?_⟩
    · rw [ht, List.mem_cons, not_or]
      refine ⟨?_, hgone⟩
      intro heq
      injection heq with heq
      exact hev (by rw [← heq])
    · rw [ht, List.mem_cons, not_or]
      exact ⟨by simp, hrest ht fd⟩
  cases does_of_step hsound.routed h with
  | env e k he =>
      rcases Kernel.env_cases he with ⟨_, rfl⟩ | ⟨_, _, _, _, _, rfl⟩
      · exact hs.congr rfl (fun _ hset => hset)
      · exact hs.congr rfl (fun _ hset => hset)
  | waited raw ht hr =>
      refine hs.congr (Poller.afterWait_table _ _ _ _) ?_
      intro fd hset
      refine ⟨hset.1, ?_, ?_⟩
      · rw [ht]
        exact List.not_mem_nil
      · rw [ht]
        exact List.not_mem_nil
  | interrupted errno ht => exact hs.congr rfl (fun _ hset => hset)
  | waitFailed errno e ht he =>
      refine hs.congr rfl ?_
      intro fd hset
      unfold Settled
      rw [ht]
      exact hset
  | admitted os fd0 fd id queue rest hpos ht ha hm hh =>
      rw [hsound.lookup_eq_none ha.closed]
      refine hs.congr rfl ?_
      rintro fd' ⟨hlive, hgone, hreg⟩
      have hfd : fd' ≠ fd := by
        rintro rfl
        exact hreg List.mem_cons_self
      have hconns : conns (insert s.threads ⟨⟨fd, id⟩, S.machine.init⟩) fd' = conns s.threads fd' := by
        rw [conns_of_update (lookup_insert hpos _)]
        exact Function.update_of_ne hfd _ _
      refine ⟨hconns ▸ hlive, ?_, ?_⟩
      · rw [ht]
        simpa using hgone
      · rw [ht]
        simp [hrest ht fd']
  | refused os fd0 rest e k ht he => exact (hok.not_refused he).elim
  | registered os fd rest k ht hadd =>
      rcases Poller.addClient_ok hadd with ⟨_, rfl⟩ | ⟨hw, _, _⟩
      · exact hs.registered ht (hrest ht) rfl rfl rfl
      · exact absurd hp hw
  | unregistrable os fd rest e ht hi => exact absurd hi (hsound.not_registered ht)
  | removed os fd rest hpos ht =>
      refine hs.congr ?_ ?_
      · cases lookup s.threads fd with
        | none => rfl
        | some x => rfl
      · rintro fd' ⟨hlive, hgone, hreg⟩
        rw [conns_of_update (lookup_remove hpos)] at hlive
        have hfd : fd' ≠ fd := by
          rintro rfl
          rw [Function.update_self] at hlive
          exact absurd hlive (by simp)
        rw [Function.update_of_ne hfd] at hlive
        refine ⟨hlive, ?_, ?_⟩
        · rw [ht]
          simp [hfd, show Task.event ⟨.clientDisconnected, fd'⟩ ∉ rest from hgone]
        · rw [ht]
          simp [hrest ht fd']
  | queued os fd rest hpos hk ht =>
      exact hs.congr rfl (hpop ht (by simp) (conns_congr lookup_enqueue) rfl)
  | ran os fd rest tm k hpos hk ht hit =>
      exact hs.congr (iterate_tables hsound.owned hit).table (hpop ht (by simp) (conns_iterate hpos hit) rfl)
  | failed os fd rest e tm k hpos hk ht hit => exact absurd hit (iterate_benign hsound.owned hok)
  | idle k os hk hq => exact hs
  | served k os fd rest tm w hpos hk hq hit =>
      refine hs.congr (iterate_tables (hsound.popped hq).owned hit).table ?_
      intro fd' hset
      unfold Settled at hset
      rw [conns_served hpos hit] at hset
      exact hset

/-- The first client that is lost leaves its entry. -/
theorem stale_of_lost (hp : S.platform = .win32) {l : Label tc} (hsound : Sound S s) (hs : Tracking S s)
    (hlost : ¬ NeverLost s l) (h : s.step S l = some s') : Stale S s' := by
  cases l with
  | env e => exact absurd trivial hlost
  | go os => exact absurd trivial hlost
  | worker k os => exact absurd trivial hlost
  | wait r =>
      cases r with
      | error errno => exact absurd trivial hlost
      | ok raw =>
          obtain ⟨e, he, hl⟩ : ∃ e ∈ raw.tail, Poller.PollEvent.lost e = true := by
            have hex : ∃ e ∈ raw.tail, ¬ Poller.PollEvent.lost e = false := by
              simpa [NeverLost] using hlost
            obtain ⟨e, he, hl⟩ := hex
            exact ⟨e, he, by simpa using hl⟩
          cases does_of_wait h with
          | waited _ ht hr =>
              obtain ⟨clients, hcl, _, hmem⟩ := hs.table
              rw [hp] at hr
              have hfds : raw.map PollEvent.fd = S.serverFd :: clients := hr.trans hcl
              have hin : e.fd ∈ clients := by
                have htl : raw.tail.map PollEvent.fd = clients := by
                  rw [List.map_tail, hfds]
                  rfl
                rw [← htl]
                exact List.mem_map_of_mem he
              refine ⟨e.fd, ?_, ?_⟩
              · -- a client with a session is not the server
                obtain ⟨c, hc⟩ := Option.isSome_iff_exists.mp ((hmem e.fd).mp hin).1
                intro heq
                have hopen := (hsound.owned e.fd c hc).2
                rw [heq, hsound.server] at hopen
                exact absurd hopen (by simp)
              · have hgone : ⟨.clientDisconnected, e.fd⟩ ∈ Poller.events S.platform S.serverFd raw := by
                  rw [hp]
                  exact Poller.Win32.mem_events.mpr ⟨e, he, rfl, hl⟩
                rw [if_neg (fun hset => hset.2.1 (List.mem_map_of_mem hgone))]
                show 0 < (Poller.afterWait S.platform S.serverFd raw s.kernel).table.count e.fd
                rw [Poller.afterWait_table, hcl]
                exact List.count_pos_iff.mpr (List.mem_cons_of_mem _ hin)

/-- With an entry too many the table does not track the clients. -/
theorem not_tracks_of_stale (hs : Stale S s) (ht : s.tasks = []) : ¬ Tracks S s := by
  rintro ⟨clients, hcl, hnd, hmem⟩
  obtain ⟨fd, hne, hlt⟩ := hs
  rw [hcl, List.count_cons_of_ne (Ne.symm hne)] at hlt
  have hone : clients.count fd ≤ 1 := List.nodup_iff_count_le_one.mp hnd fd
  by_cases hin : fd ∈ clients
  · have hset : Settled s fd := by
      refine ⟨(hmem fd).mp hin, ?_, ?_⟩
      · rw [ht]
        exact List.not_mem_nil
      · rw [ht]
        exact List.not_mem_nil
    rw [if_pos hset] at hlt
    omega
  · rw [List.count_eq_zero.mpr hin] at hlt
    omega

/-- **The win32 table tracks the clients, and the poller keeps its contract, in every run in which no client
    is lost**, whatever fails; and in a run without failing calls the table tracks the clients after an
    `iterate` only if no client has been lost before. -/
theorem tracks_iff_never_lost (S : Setup σ) (hp : S.platform = .win32) (ls : List (Label tc)) (s : Sys tc σ)
    (hrun : Transition.run (Sys.step S) (start S tc) ls = some s) (ht : s.tasks = []) :
    (Transition.AllSteps (Sys.step S) NeverLost (start S tc) ls →
      Tracks S s ∧ Poller.Contract s.calls) ∧
    (Transition.AllSteps (Sys.step S) (Faultless S) (start S tc) ls → Tracks S s →
      Transition.AllSteps (Sys.step S) NeverLost (start S tc) ls) := by
  have hstep : ∀ {a l b}, (Sound S a ∧ Tracking S a) → NeverLost a l →
      (a : Sys tc σ).step S l = some b → Sound S b ∧ Tracking S b := by
    rintro a l b ⟨hsound, htrack⟩ hl hb
    exact ⟨sound_step hsound hb, tracking_step hp hsound htrack hl hb⟩
  have hbreak : ∀ {a l b}, (Sound S a ∧ Tracking S a) → ¬ NeverLost a l →
      (a : Sys tc σ).step S l = some b → Sound S b ∧ Stale S b := by
    rintro a l b ⟨hsound, htrack⟩ hl hb
    exact ⟨sound_step hsound hb, stale_of_lost hp hsound htrack hl hb⟩
  have hstuck : ∀ {a l b}, (Sound S a ∧ Stale S a) → Faultless S a l →
      (a : Sys tc σ).step S l = some b → Sound S b ∧ Stale S b := by
    rintro a l b ⟨hsound, hstale⟩ hf hb
    exact ⟨sound_step hsound hb, stale_step hp hsound hstale hf hb⟩
  constructor
  · intro hlost
    obtain ⟨_, htrack⟩ := Transition.run_invariant_of hstep ⟨sound_start S, tracking_start S⟩ hlost hrun
    exact ⟨htrack.tracks ht, Poller.contract_of_none htrack.calls⟩
  · intro hok htracks
    have hor := Transition.AllSteps.or_bad (fun hinv _ => hstep hinv) (fun hinv _ => hbreak hinv) hstuck
      ⟨sound_start S, tracking_start S⟩ hok hrun
    rcases hor with hgood | hbad
    · exact hgood
    · exact absurd htracks (not_tracks_of_stale hbad.2 ht)

end Stale

/-! ### A client that hangs up -/

/-- An entry of `WSAPoll` with nothing to report. -/
def quiet (fd : SOCKET) : PollEvent := ⟨fd, false, false, false, false, false⟩

/-- A client comes in and its byte is read. -/
def staysOn : List (Label .single) :=
  comesIn ++
    [.env (.send 0 [1]), .env (.arrive 0 1), .wait (.ok [quiet 3, readable 5]), .go (Os.smooth 0)]

/-- A client comes in and hangs up. -/
def hangsUp : List (Label .single) :=
  comesIn ++
    [.env (.finish 0), .wait (.ok [quiet 3, { quiet 5 with hup := true }]), .go (Os.smooth 0),
      .wait (.ok [quiet 3, { quiet 5 with nval := true }]), .go (Os.smooth 0)]

/-- In `staysOn` the table is the server and the one client. -/
theorem tracks_iff_never_lost_stays_on :
    ∃ s, Transition.run (Sys.step (echoServer .win32 .tcp)) (start (echoServer .win32 .tcp) .single)
        staysOn = some s ∧
      s.kernel.table = [3, 5] ∧ s.tasks = [] ∧ Tracks (echoServer .win32 .tcp) s ∧
      Poller.Contract s.calls := by
  have hend : (Transition.run (Sys.step (echoServer .win32 .tcp)) (start (echoServer .win32 .tcp) .single)
      staysOn).map (fun s => (s.kernel.table, s.tasks)) = some ([3, 5], []) := by
    decide +kernel
  obtain ⟨s, hrun, hs⟩ := Option.map_eq_some_iff.mp hend
  rw [Prod.mk.injEq] at hs
  have hboth := (tracks_iff_never_lost (echoServer .win32 .tcp) rfl staysOn s hrun hs.2).1
    (by decide +kernel)
  exact ⟨s, hrun, hs.1, hs.2, hboth.1, hboth.2⟩

/-- **The table keeps the entry of a client that hung up.** In `hangsUp` `WSAPoll` does what it promises and
    no call fails; the session is gone after the second `iterate`, the entry is still there after the third,
    and the socket is reported as disconnected a second time. -/
theorem not_tracks_after_hang_up :
    ∃ s, Transition.run (Sys.step (echoServer .win32 .tcp)) (start (echoServer .win32 .tcp) .single)
        hangsUp = some s ∧
      Transition.AllSteps (Sys.step (echoServer .win32 .tcp)) Polled
        (start (echoServer .win32 .tcp) .single) hangsUp ∧
      Transition.AllSteps (Sys.step (echoServer .win32 .tcp)) (Faultless (echoServer .win32 .tcp))
        (start (echoServer .win32 .tcp) .single) hangsUp ∧
      s.tasks = [] ∧ ¬ Tracks (echoServer .win32 .tcp) s ∧ ¬ Poller.Contract s.calls := by
  have hend : (Transition.run (Sys.step (echoServer .win32 .tcp)) (start (echoServer .win32 .tcp) .single)
      hangsUp).any (fun s => s.tasks = [] ∧ s.kernel.table = [3, 5] ∧ conns s.threads 5 = none ∧
        s.calls = [.returned [⟨.newClient, 3⟩], .added 5, .returned [⟨.clientDisconnected, 5⟩],
          .returned [⟨.clientDisconnected, 5⟩]]) = true := by
    decide +kernel
  obtain ⟨s, hrun, hs⟩ := (Option.any_eq_true _ _).mp hend
  obtain ⟨ht, htable, hconns, hcalls⟩ := of_decide_eq_true hs
  refine ⟨s, hrun, by decide +kernel, ?_, ht, ?_, ?_⟩
  · apply faultless_of_smooth
    simp [hangsUp, comesIn]
  · rintro ⟨clients, hcl, _, hmem⟩
    rw [htable] at hcl
    obtain ⟨_, hcl⟩ := List.cons.inj hcl
    have hlive := (hmem 5).mp (by rw [← hcl]; exact List.mem_cons_self)
    rw [hconns] at hlive
    exact absurd hlive (by simp)
  · intro hcontract
    exact hcontract [.returned [⟨.newClient, 3⟩], .added 5] [⟨.clientDisconnected, 5⟩] []
      [⟨.clientDisconnected, 5⟩] [] 5 hcalls List.mem_cons_self List.not_mem_nil
      ⟨.clientDisconnected, 5⟩ List.mem_cons_self rfl

end Sys

end Neblina

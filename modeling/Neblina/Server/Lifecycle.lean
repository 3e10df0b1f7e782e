import Neblina.Server.Leak
import Neblina.Server.Loop

/-!
# `Server.Lifecycle` — from the constructor to the end of `~Server`

`~Server` closes the listening socket and destroys the thread manager: each thread in turn ends its worker and
destroys its sessions, whose connections close their descriptors. Meanwhile the workers of the threads that are
still to come go on, and so do the clients. (That a `ThreadMulti` joins its worker only after the end of its
own members is the subject of `Thread.Shutdown`; here the worker ends before the sessions are destroyed.)

`torn_down` is about the whole life of a server: any run, whatever failed in it, and then any run of the
destructor. The descriptors that are open in the end are those of the clients whose socket could not be made
non-blocking, and every other client that was accepted was closed exactly once.
-/

namespace Neblina

open ThreadManager

variable {σ : Type} {tc : ThreadCount}

namespace Sys

/-! ## Descriptors without a session -/

/-- The descriptor of a client is open and no session has it. -/
structure Orphan (s : Sys tc σ) (fd : SOCKET) (id : Nat) : Prop where
  isOpen : s.kernel.fds fd = some id
  alone  : conns s.threads fd = none

/-- In this step `::accept` gives out `fd` for the client `id`, and `socket_mark_as_nonblocking` fails. -/
structure Strands (S : Setup σ) (s : Sys tc σ) (l : Label tc) (s' : Sys tc σ) (fd : SOCKET) (id : Nat) :
    Prop where
  unmarked : ∃ os, l = .go os ∧ (socketMarkAsNonblocking S.platform os.fcntl).isSome
  fresh    : s.kernel.fds fd = none
  isOpen   : s'.kernel.fds fd = some id

section Orphans

variable {S : Setup σ} {s s' : Sys tc σ} {fd : SOCKET} {id : Nat}

theorem Orphan.congr (ho : Orphan s fd id) (hfds : s'.kernel.fds fd = s.kernel.fds fd)
    (hconns : conns s'.threads fd = conns s.threads fd) : Orphan s' fd id :=
  ⟨hfds.trans ho.isOpen, hconns.trans ho.alone⟩

/-- Closing the connection of a session changes nothing for a descriptor without one. -/
theorem orphan_closed {c : Connection} (hc : conns s.threads c.fd = some c)
    (hconns : conns s'.threads = Function.update (conns s.threads) c.fd none)
    (hk : s'.kernel = Kernel.close c s.kernel) : Orphan s' fd id ↔ Orphan s fd id := by
  have hfds : s'.kernel.fds = Function.update s.kernel.fds c.fd none := by
    rw [hk]
    rfl
  constructor
  · intro ho
    have hopen := ho.isOpen
    rw [hfds] at hopen
    have hne := (PartialMap.erase_eq_some.mp hopen).1
    refine ho.congr ?_ ?_
    · rw [hfds, Function.update_of_ne hne]
    · rw [hconns, Function.update_of_ne hne]
  · intro ho
    have hne : fd ≠ c.fd := by
      rintro rfl
      exact absurd (ho.alone.symm.trans hc) (by simp)
    refine ho.congr ?_ ?_
    · rw [hfds, Function.update_of_ne hne]
    · rw [hconns, Function.update_of_ne hne]

/-- **A descriptor is without a session after a step** if it was before, or if the step stranded it. -/
theorem orphan_step {l : Label tc} (hs : Sound S s) (h : s.step S l = some s') :
    Orphan s' fd id ↔ Orphan s fd id ∨ Strands S s l s' fd id := by
  -- steps that change nothing for this descriptor
  have hkept : s'.kernel.fds fd = s.kernel.fds fd → conns s'.threads fd = conns s.threads fd →
      (Orphan s' fd id ↔ Orphan s fd id ∨ Strands S s l s' fd id) := by
    intro hfds hconns
    constructor
    · intro ho
      exact Or.inl (ho.congr hfds.symm hconns.symm)
    · rintro (ho | hst)
      · exact ho.congr hfds hconns
      · have hopen := hst.isOpen
        rw [hfds, hst.fresh] at hopen
        exact absurd hopen (by simp)
  cases tableStep_of_step hs h with
  | kept hconns hk htasks => exact hkept (by rw [hk.fds]) (by rw [hconns])
  | connected hconns hk htasks => exact hkept (by rw [hk]) (by rw [hconns])
  | waited raw hnil hr hconns hk htasks =>
      exact hkept (by rw [hk, Poller.afterWait_fds]) (by rw [hconns])
  | registered fd' rest hts hconns hfds _ _ _ hinterest htasks =>
      exact hkept (by rw [hfds]) (by rw [hconns])
  | opened os fd0 fd' id' queue rest hl ha hm hts hconns hk htasks =>
      have hfds : s'.kernel.fds = Function.update s.kernel.fds fd' (some id') := by
        rw [hk]
        rfl
      by_cases hfd : fd = fd'
      · -- the new client has a session
        have hsome : conns s'.threads fd = some ⟨fd', id'⟩ := by
          rw [hconns, hfd, Function.update_self]
        constructor
        · intro ho
          exact absurd (ho.alone.symm.trans hsome) (by simp)
        · rintro (ho | hst)
          · have hopen := ho.isOpen
            rw [hfd, ha.closed] at hopen
            exact absurd hopen (by simp)
          · obtain ⟨os', rfl, hbad⟩ := hst.unmarked
            rw [Label.go.injEq] at hl
            rw [hl, hm] at hbad
            exact absurd hbad (by simp)
      · exact hkept (by rw [hfds, Function.update_of_ne hfd]) (by rw [hconns, Function.update_of_ne hfd])
  | stranded os fd' id' queue e hl ha hm hconns hk htasks =>
      have hfds : s'.kernel.fds = Function.update s.kernel.fds fd' (some id') := by
        rw [hk]
        rfl
      by_cases hfd : fd = fd'
      · constructor
        · intro ho
          exact Or.inr ⟨⟨os, hl, by rw [hm]; rfl⟩, by rw [hfd]; exact ha.closed, ho.isOpen⟩
        · rintro (ho | hst)
          · have hopen := ho.isOpen
            rw [hfd, ha.closed] at hopen
            exact absurd hopen (by simp)
          · refine ⟨hst.isOpen, ?_⟩
            rw [hconns]
            exact conns_eq_none (hs.lookup_eq_none hst.fresh)
      · exact hkept (by rw [hfds, Function.update_of_ne hfd]) (by rw [hconns])
  | rejected os fd' id' queue ha hconns hk htasks =>
      have hfds : s'.kernel.fds = s.kernel.fds := by
        rw [hk]
        show Function.update (Function.update s.kernel.fds fd' (some id')) fd' none = s.kernel.fds
        rw [Function.update_idem, ← ha.closed]
        exact Function.update_eq_self _ _
      exact hkept (by rw [hfds]) (by rw [hconns])
  | closed c rest hts hc hconns hk htasks =>
      rw [orphan_closed hc hconns hk]
      constructor
      · exact Or.inl
      · rintro (ho | hst)
        · exact ho
        · have hopen := hst.isOpen
          rw [hk] at hopen
          have hold := (PartialMap.erase_eq_some.mp hopen).2
          rw [hst.fresh] at hold
          exact absurd hold (by simp)

/-- **The descriptors without a session** of a reachable state are those that a step stranded. -/
theorem orphan_iff_stranded {ls : List (Label tc)}
    (hrun : Transition.run (Sys.step S) (start S tc) ls = some s) :
    Orphan s fd id ↔
      ∃ pre l post a b, ls = pre ++ l :: post ∧ Transition.run (Sys.step S) (start S tc) pre = some a ∧
        a.step S l = some b ∧ Strands S a l b fd id := by
  constructor
  · intro ho
    have hnot : ¬ Orphan (start S tc) fd id := fun h => absurd h.isOpen (by simp [start, Kernel.init])
    obtain ⟨pre, l, post, a, b, rfl, ha, hb, hna, hob⟩ :=
      Transition.run_became (P := fun s => Orphan s fd id) hrun hnot ho
    exact ⟨pre, l, post, a, b, rfl, ha, hb, ((orphan_step (sound_run ha) hb).mp hob).resolve_left hna⟩
  · rintro ⟨pre, l, post, a, b, rfl, ha, hb, hst⟩
    rw [Transition.run_append ha, Transition.run_cons_of_some hb] at hrun
    have hstep : ∀ {a l b}, (Sound S a ∧ Orphan a fd id) → (a : Sys tc σ).step S l = some b →
        Sound S b ∧ Orphan b fd id := by
      rintro a l b ⟨hs, ho⟩ h
      exact ⟨sound_step hs h, (orphan_step hs h).mpr (Or.inl ho)⟩
    have hs := sound_run ha
    exact (Transition.run_invariant hstep ⟨sound_step hs hb, (orphan_step hs hb).mpr (Or.inr hst)⟩ hrun).2

end Orphans

end Sys

/-! ## The destructor -/

/-- A server while `~Server` runs: whether `fd_` is still open, the threads that are not destroyed yet, and
    whether the worker of the first of them has ended. -/
structure Teardown (tc : ThreadCount) (σ : Type) where
  sys       : Sys tc σ
  listening : Bool
  left      : List (Fin tc.size)
  joined    : Bool

namespace Teardown

inductive Label (tc : ThreadCount) where
  | env (e : Env)
  | worker (k : Fin tc.size) (os : Os)
  /-- `close_socket(fd_)`. -/
  | closeListener
  /-- The worker of the next thread ends (a `ThreadSingle` has none). -/
  | join
  /-- The next session of `sessions_` is destroyed. -/
  | drop (fd : SOCKET)
  /-- The thread is destroyed. -/
  | next

/-- The start of `~Server`; `order` is the order in which the vector destroys its elements. -/
def start (order : List (Fin tc.size)) (s : Sys tc σ) : Teardown tc σ := ⟨s, true, order, false⟩

/-- The worker of thread `k` is running. -/
def working (t : Teardown tc σ) (k : Fin tc.size) : Bool :=
  k ∈ t.left && !(t.joined && t.left.head? == some k)

def step (S : Setup σ) (t : Teardown tc σ) : Label tc → Option (Teardown tc σ)
  | .env e =>
      -- nobody connects to a socket that is closed
      if e = .connect ∧ t.listening = false then none
      else (t.sys.step S (.env e)).map (fun s => { t with sys := s })
  | .worker k os =>
      if t.working k then (t.sys.step S (.worker k os)).map (fun s => { t with sys := s }) else none
  | .closeListener => if t.listening then some { t with listening := false } else none
  | .join =>
      if t.listening = false ∧ t.joined = false ∧ t.left ≠ [] then some { t with joined := true } else none
  | .drop fd =>
      match t.left, t.joined with
      | k :: _, true =>
          match (t.sys.threads k).sessions fd with
          | none => none
          | some x =>
              some { t with sys := { t.sys with
                threads := Function.update t.sys.threads k
                  { t.sys.threads k with sessions := Function.update (t.sys.threads k).sessions fd none }
                kernel := Kernel.close x.conn t.sys.kernel } }
      | _, _ => none
  | .next =>
      match t.left, t.joined with
      | _ :: rest, true => some { t with left := rest, joined := false }
      | _, _ => none

/-- A map is destroyed with all its entries: a thread goes when no session is left in it. -/
def Emptied (t : Teardown tc σ) : Label tc → Prop
  | .next => ∀ k rest, t.left = k :: rest → ∀ fd, (t.sys.threads k).sessions fd = none
  | _ => True

section Steps

variable {S : Setup σ} {s₀ : Sys tc σ} {t t' : Teardown tc σ}

/-- **What a step of the destructor does.** -/
inductive Does (S : Setup σ) (t t' : Teardown tc σ) : Prop
  | ran (l : Sys.Label tc) (s : Sys tc σ) (hl : (∃ e, l = .env e) ∨ ∃ k os, l = .worker k os)
      (h : t.sys.step S l = some s) (ht : t' = { t with sys := s })
  | marked (hsys : t'.sys = t.sys) (hleft : t'.left = t.left)
  | dropped (k : Fin tc.size) (rest : List (Fin tc.size)) (fd : SOCKET) (x : Session σ)
      (hleft : t.left = k :: rest) (hx : (t.sys.threads k).sessions fd = some x)
      (ht : t' = { t with sys := { t.sys with
        threads := Function.update t.sys.threads k
          { t.sys.threads k with sessions := Function.update (t.sys.threads k).sessions fd none }
        kernel := Kernel.close x.conn t.sys.kernel } })
  | finished (k : Fin tc.size) (hleft : t.left = k :: t'.left) (hsys : t'.sys = t.sys)
      (hempty : ∀ fd, (t.sys.threads k).sessions fd = none)

theorem does_of_step {l : Label tc} (hok : Emptied t l) (h : t.step S l = some t') : Does S t t' := by
  cases l with
  | env e =>
      simp only [step] at h
      split at h
      · exact absurd h (by simp)
      · obtain ⟨s, hs, rfl⟩ := Option.map_eq_some_iff.mp h
        exact .ran (.env e) s (Or.inl ⟨e, rfl⟩) hs rfl
  | worker k os =>
      simp only [step] at h
      split at h
      · obtain ⟨s, hs, rfl⟩ := Option.map_eq_some_iff.mp h
        exact .ran (.worker k os) s (Or.inr ⟨k, os, rfl⟩) hs rfl
      · exact absurd h (by simp)
  | closeListener =>
      simp only [step] at h
      split at h
      · rw [← Option.some.inj h]
        exact .marked rfl rfl
      · exact absurd h (by simp)
  | join =>
      simp only [step] at h
      split at h
      · rw [← Option.some.inj h]
        exact .marked rfl rfl
      · exact absurd h (by simp)
  | drop fd =>
      simp only [step] at h
      split at h
      · next k rest hleft hjoined =>
          split at h
          · exact absurd h (by simp)
          · next x hx => exact .dropped k rest fd x hleft hx (Option.some.inj h).symm
      · exact absurd h (by simp)
  | next =>
      simp only [step] at h
      split at h
      · next k rest hleft hjoined =>
          rw [← Option.some.inj h]
          exact .finished k hleft rfl (hok k rest hleft)
      · exact absurd h (by simp)

/-- What holds while `~Server` runs on the server `s₀`. -/
structure Ending (S : Setup σ) (s₀ : Sys tc σ) (t : Teardown tc σ) : Prop where
  sound   : Sys.Sound S t.sys
  books   : t.sys.kernel.Books
  idle    : t.sys.tasks = []
  /-- Only threads that are left have sessions. -/
  held    : ∀ k fd, ((t.sys.threads k).sessions fd).isSome → k ∈ t.left
  orphans : ∀ fd id, Sys.Orphan t.sys fd id ↔ Sys.Orphan s₀ fd id

/-- A descriptor that has a session now and had one before had it in the same thread. -/
theorem holder_of_conns {tm tm' : ThreadManager tc σ} (hr : Routed tm) (hr' : Routed tm') {fd : SOCKET}
    (h : (conns tm' fd).isSome → (conns tm fd).isSome) {k : Fin tc.size}
    (hk : ((tm' k).sessions fd).isSome) : ((tm k).sessions fd).isSome := by
  obtain ⟨x, hx⟩ := Option.isSome_iff_exists.mp hk
  have hsome : (conns tm' fd).isSome := by
    rw [conns_of_lookup (lookup_of_sessions hr' hx)]
    rfl
  obtain ⟨c, hc⟩ := Option.isSome_iff_exists.mp (h hsome)
  obtain ⟨y, hy, _⟩ := Option.map_eq_some_iff.mp hc
  obtain ⟨j, hj⟩ := sessions_of_lookup hy
  have hjk : j = k := Fin.ext ((hr.sessions j fd (by rw [hj]; rfl)).symm.trans (hr'.sessions k fd hk))
  rw [← hjk, hj]
  rfl

/-- Erasing an entry of the thread that has it is `remove_session`. -/
theorem update_eq_remove {tm : ThreadManager tc σ} (hr : Routed tm) {k : Fin tc.size} {fd : SOCKET}
    (hk : ((tm k).sessions fd).isSome) :
    Function.update tm k { tm k with sessions := Function.update (tm k).sessions fd none } =
      remove tm fd := by
  have hpos : 0 < tc.size := Nat.lt_of_le_of_lt (Nat.zero_le _) k.isLt
  have hindex : index hpos fd = k := Fin.ext (hr.sessions k fd hk)
  unfold remove
  rw [onThread_eq hpos, hindex]

/-- **A step of the destructor**, whatever the workers and the clients do meanwhile. -/
theorem ending_step {l : Label tc} (he : Ending S s₀ t) (hok : Emptied t l) (h : t.step S l = some t') :
    Ending S s₀ t' := by
  cases does_of_step hok h with
  | ran l' s hl hs ht =>
      subst ht
      obtain ⟨hconns, hfds, htasks⟩ := Sys.quiet_step he.sound hl hs
      have hsound := Sys.sound_step he.sound hs
      refine ⟨hsound, Sys.books_step he.sound he.books hs, htasks.trans he.idle, ?_, ?_⟩
      · intro k fd hk
        refine he.held k fd (holder_of_conns he.sound.routed hsound.routed ?_ hk)
        rw [hconns]
        exact id
      · intro fd id
        rw [← he.orphans]
        constructor
        · intro ho
          exact ho.congr (by rw [hfds]) (by rw [hconns])
        · intro ho
          exact ho.congr (by rw [hfds]) (by rw [hconns])
  | marked hsys hleft =>
      refine ⟨?_, ?_, ?_, ?_, ?_⟩
      · rw [hsys]; exact he.sound
      · rw [hsys]; exact he.books
      · rw [hsys]; exact he.idle
      · rw [hsys, hleft]; exact he.held
      · rw [hsys]; exact he.orphans
  | dropped k rest fd x hleft hx ht =>
      subst ht
      have hpos : 0 < tc.size := Nat.lt_of_le_of_lt (Nat.zero_le _) k.isLt
      have hk : ((t.sys.threads k).sessions fd).isSome := by rw [hx]; rfl
      have hlook := lookup_of_sessions he.sound.routed hx
      obtain ⟨hfd, hopen⟩ := he.sound.owned.of_lookup hlook
      have hconn := he.sound.owned.conn_open hlook
      have hsound : Sys.Sound S { t.sys with
          threads := remove t.sys.threads fd
          kernel := Thread.destroy (S.sessions (Os.smooth 0)) (lookup t.sys.threads fd) t.sys.kernel } :=
        he.sound.removed hpos (by rw [he.idle]; exact fun _ => List.not_mem_nil)
      have hconns : conns (remove t.sys.threads fd) = Function.update (conns t.sys.threads) x.conn.fd none := by
        rw [hfd]
        exact conns_of_update (lookup_remove hpos)
      rw [update_eq_remove he.sound.routed hk]
      rw [hlook] at hsound
      obtain ⟨hlt, hout⟩ := he.sound.known x.conn.fd x.conn.id hconn
      refine ⟨hsound, ?_, he.idle, ?_, ?_⟩
      · exact he.books.closed hconn (fun fd' h' => he.sound.distinct fd' x.conn.fd x.conn.id h' hconn) hlt hout
      · intro j fd' hj
        refine he.held j fd' (holder_of_conns he.sound.routed hsound.routed ?_ hj)
        intro hsome
        obtain ⟨c, hc⟩ := Option.isSome_iff_exists.mp (hconns ▸ hsome)
        rw [(PartialMap.erase_eq_some.mp hc).2]
        rfl
      · intro fd' id
        rw [← he.orphans]
        exact Sys.orphan_closed (c := x.conn) (by rw [hfd]; exact conns_of_lookup hlook) hconns rfl
  | finished k hleft hsys hempty =>
      refine ⟨?_, ?_, ?_, ?_, ?_⟩
      · rw [hsys]; exact he.sound
      · rw [hsys]; exact he.books
      · rw [hsys]; exact he.idle
      · intro j fd hj
        rw [hsys] at hj
        have hin := he.held j fd hj
        rw [hleft] at hin
        refine (List.mem_cons.mp hin).resolve_left ?_
        rintro rfl
        rw [hempty fd] at hj
        exact absurd hj (by simp)
      · rw [hsys]; exact he.orphans

theorem ending_start {order : List (Fin tc.size)} (horder : ∀ k, k ∈ order) (hs : Sys.Sound S s₀)
    (hb : s₀.kernel.Books) (hidle : s₀.tasks = []) : Ending S s₀ (start order s₀) :=
  ⟨hs, hb, hidle, fun k _ _ => horder k, fun _ _ => Iff.rfl⟩

end Steps

/-- **The whole life of a server.** Let a server run, with any poller, kind of connection and number of threads
    and any result of any call, and let `~Server` then run to its end, with the threads destroyed in any order,
    the sessions of each in any order, and workers and clients acting in between. The client descriptors that
    are open in the end are those for which `socket_mark_as_nonblocking` failed after `::accept`; every
    `close` was of an open descriptor; and of the clients that were accepted, those with no descriptor were
    closed exactly once and the others never. -/
theorem torn_down (S : Setup σ) (ls : List (Sys.Label tc)) (s : Sys tc σ)
    (hrun : Transition.run (Sys.step S) (Sys.start S tc) ls = some s) (hidle : s.tasks = [])
    (order : List (Fin tc.size)) (horder : ∀ k, k ∈ order) (ms : List (Label tc)) (t : Teardown tc σ)
    (hempty : Transition.AllSteps (step S) Emptied (start order s) ms)
    (hend : Transition.run (step S) (start order s) ms = some t) (hleft : t.left = []) :
    (∀ fd id, t.sys.kernel.fds fd = some id ↔
      ∃ pre l post a b, ls = pre ++ l :: post ∧
        Transition.run (Sys.step S) (Sys.start S tc) pre = some a ∧ a.step S l = some b ∧
        Sys.Strands S a l b fd id) ∧
    (∀ c ∈ t.sys.kernel.closes, c.2.isSome) ∧
    ∀ id, id < t.sys.kernel.clients → id ∉ t.sys.kernel.backlog →
      ((∃ fd, t.sys.kernel.fds fd = some id) ∧ (t.sys.kernel.closes.map Prod.snd).count (some id) = 0) ∨
        ((∀ fd, t.sys.kernel.fds fd ≠ some id) ∧
          (t.sys.kernel.closes.map Prod.snd).count (some id) = 1) := by
  obtain ⟨hs, hb⟩ := Sys.books_run hrun
  have he : Ending S s t :=
    Transition.run_invariant_of ending_step (ending_start horder hs hb hidle) hempty hend
  refine ⟨?_, he.books.wasOpen, fun id => he.books.count_closes⟩
  intro fd id
  rw [← Sys.orphan_iff_stranded hrun, ← he.orphans]
  refine ⟨fun hopen => ⟨hopen, ?_⟩, Sys.Orphan.isOpen⟩
  -- no thread is left, so no session is
  cases hc : conns t.sys.threads fd with
  | none => rfl
  | some c =>
      obtain ⟨x, hx, _⟩ := Option.map_eq_some_iff.mp hc
      obtain ⟨k, hk⟩ := sessions_of_lookup hx
      have hin := he.held k fd (by rw [hk]; rfl)
      rw [hleft] at hin
      exact absurd hin List.not_mem_nil

/-- Two clients: the first cannot be made non-blocking, the second has a byte in the queue of its worker. -/
def stopsEarly : List (Sys.Label (.count 1)) :=
  [.env .connect, .env .connect, .wait (.ok [Sys.readable 3]), .go { Os.smooth 5 with fcntl := .setFailed },
    .wait (.ok [Sys.readable 3]), .go (Os.smooth 6), .go (Os.smooth 6), .env (.send 1 [7]),
    .env (.arrive 1 1), .wait (.ok [Sys.readable 6]), .go (Os.smooth 0)]

/-- The worker answers the second client before it ends; then its session goes. -/
def lastAnswer : List (Label (.count 1)) :=
  [.closeListener, .worker ThreadCount.only (Os.smooth 0), .join, .drop 6]

/-- After `stopsEarly` and the destructor only the first client's descriptor is open. -/
theorem torn_down_last_answer :
    ∃ s t, Transition.run (Sys.step (Sys.echoServer .linux .tcp)) (Sys.start (Sys.echoServer .linux .tcp) _)
        stopsEarly = some s ∧
      Transition.run (step (Sys.echoServer .linux .tcp)) (start [ThreadCount.only] s)
        (lastAnswer ++ [.next]) = some t ∧
      (t.sys.kernel.socks 1).tx = [7] ∧ t.sys.kernel.closes = [(6, some 1)] ∧
      ∀ fd id, t.sys.kernel.fds fd = some id ↔
        ∃ pre l post a b, stopsEarly = pre ++ l :: post ∧
          Transition.run (Sys.step (Sys.echoServer .linux .tcp)) (Sys.start (Sys.echoServer .linux .tcp) _)
            pre = some a ∧
          a.step (Sys.echoServer .linux .tcp) l = some b ∧
          Sys.Strands (Sys.echoServer .linux .tcp) a l b fd id := by
  have hwhole : (Transition.run (Sys.step (Sys.echoServer .linux .tcp))
      (Sys.start (Sys.echoServer .linux .tcp) _) stopsEarly).any (fun s =>
        s.tasks = [] ∧ (Transition.run (step (Sys.echoServer .linux .tcp)) (start [ThreadCount.only] s)
          lastAnswer).any (fun u =>
            u.left = [ThreadCount.only] ∧ u.joined = true ∧ u.sys.kernel.clients = 2 ∧
              u.sys.kernel.fds 5 = some 0 ∧ ((u.sys.threads ThreadCount.only).sessions 5).isNone ∧
              u.sys.kernel.closes = [(6, some 1)] ∧ (u.sys.kernel.socks 1).tx = [7]) = true) = true := by
    decide +kernel
  obtain ⟨s, hrun, hs⟩ := (Option.any_eq_true _ _).mp hwhole
  obtain ⟨hidle, hu⟩ := of_decide_eq_true hs
  obtain ⟨u, hurun, hu⟩ := (Option.any_eq_true _ _).mp hu
  obtain ⟨hleft, hjoined, hclients, hopen, hnone, hcloses, htx⟩ := of_decide_eq_true hu
  have horder : ∀ k : Fin (ThreadCount.count 1).size, k ∈ [ThreadCount.only] := by decide
  have hquiet : Transition.AllSteps (step (Sys.echoServer .linux .tcp)) Emptied
      (start [ThreadCount.only] s) lastAnswer := by
    apply Transition.AllSteps.of_forall
    simp [lastAnswer, Emptied]
  obtain ⟨hsound, hbooks⟩ := Sys.books_run hrun
  have he : Ending _ s u :=
    Transition.run_invariant_of ending_step (ending_start horder hsound hbooks hidle) hquiet hurun
  -- the first client has no session and the second one was closed
  have hgone : ∀ fd, (u.sys.threads ThreadCount.only).sessions fd = none := by
    intro fd
    cases hx : (u.sys.threads ThreadCount.only).sessions fd with
    | none => rfl
    | some x =>
        obtain ⟨_, hfd⟩ := he.sound.owned.of_lookup (lookup_of_sessions he.sound.routed hx)
        obtain ⟨hlt, _⟩ := he.sound.known fd x.conn.id hfd
        have hnot := he.books.not_mem hfd
        rw [hcloses] at hnot
        have hid : x.conn.id = 0 := by
          rw [hclients] at hlt
          have hne : x.conn.id ≠ 1 := fun h1 => hnot (by rw [h1]; exact List.mem_singleton.mpr rfl)
          omega
        rw [he.sound.distinct fd 5 0 (by rw [hfd, hid]) hopen, Option.isNone_iff_eq_none.mp hnone] at hx
        exact absurd hx (by simp)
  have hnext : u.step (Sys.echoServer .linux .tcp) .next = some { u with left := [], joined := false } := by
    simp only [step, hleft, hjoined]
  have hend : Transition.run (step (Sys.echoServer .linux .tcp)) (start [ThreadCount.only] s)
      (lastAnswer ++ [.next]) = some { u with left := [], joined := false } := by
    rw [Transition.run_append hurun, Transition.run_cons_of_some hnext]
    rfl
  have hempty : Transition.AllSteps (step (Sys.echoServer .linux .tcp)) Emptied
      (start [ThreadCount.only] s) (lastAnswer ++ [.next]) := by
    refine hquiet.append hurun ⟨?_, ?_⟩
    · intro k rest hk
      rw [hleft, List.cons.injEq] at hk
      rw [← hk.1]
      exact hgone
    · simp only [hnext]
      trivial
  exact ⟨s, _, hrun, hend, htx, hcloses,
    (torn_down _ stopsEarly s hrun hidle _ horder _ _ hempty hend rfl).1⟩

end Teardown

end Neblina

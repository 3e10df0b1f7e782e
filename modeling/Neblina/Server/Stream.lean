import Neblina.Server.Invariant

/-!
# `Server.Stream` — what can happen to a socket

Whatever step the system takes, each socket is left alone (but for the kernel's note that it was reported),
or its client or the network acts on it, or the session of its own client takes a turn on it (`sock_step`).
So the bytes the reads returned, those in the buffer and those on the way are, in this order, a prefix of
what the client sent (`Sock.Ordered`), in every reachable state and whatever the OS returns.

`related_run` is the rule the properties of single connections use: what one turn of a session, its client
and the network preserve holds between every session and its client's socket in every run.
-/

namespace Neblina

open ThreadManager

/-- The bytes of a client stay in order, and only a reset loses some. -/
structure Sock.Ordered (s : Sock) : Prop where
  stream : ∃ lost, s.sent = s.reads.flatten ++ (s.rx.flatten ++ (s.wire ++ lost)) ∧
    (s.fin = false → lost = [])
  reads  : ∀ b ∈ s.reads, b ≠ []
  rx     : ∀ b ∈ s.rx, b ≠ []

namespace Sock

theorem ordered_empty : Ordered Sock.empty :=
  ⟨⟨[], rfl, fun _ => rfl⟩, fun _ h => absurd h List.not_mem_nil, fun _ h => absurd h List.not_mem_nil⟩

variable {s s' : Sock} {t : Transport}

/-- What the reads returned is a prefix of what the client sent. -/
theorem Ordered.reads_prefix (hs : s.Ordered) : s.reads.flatten <+: s.sent := by
  obtain ⟨lost, hstream, _⟩ := hs.stream
  rw [hstream]
  exact List.prefix_append _ _

/-- **What the client and the network can do to a socket.** -/
theorem act_cases {e : Env} (h : s.act t e = some s') :
    (∃ id bs, e = .send id bs ∧ s.fin = false ∧
      s' = { s with sent := s.sent ++ bs, wire := s.wire ++ bs }) ∨
    (∃ id n, e = .arrive id n ∧ s.fin = false ∧ 0 < n ∧ n ≤ s.wire.length ∧
      s' = { s with rx := s.rx ++ [s.wire.take n], wire := s.wire.drop n, edge := true }) ∨
    (∃ id, e = .finish id ∧ s.fin = false ∧ s.wire = [] ∧ s' = { s with fin := true, edge := true }) ∨
    (∃ id, e = .reset id ∧ s.fin = false ∧ s' = { s with wire := [], fin := true, edge := true }) := by
  cases e with
  | connect => exact absurd h (by simp [Sock.act])
  | send id bs =>
      simp only [Sock.act] at h
      split at h
      · exact absurd h (by simp)
      · next hfin =>
          exact Or.inl ⟨id, bs, rfl, Bool.eq_false_iff.mpr hfin, (Option.some.inj h).symm⟩
  | arrive id n =>
      simp only [Sock.act] at h
      split at h
      · next hguard =>
          simp only [Bool.and_eq_true, decide_eq_true_eq, Bool.not_eq_true'] at hguard
          obtain ⟨⟨⟨hfin, hpos⟩, hle⟩, _⟩ := hguard
          exact Or.inr (Or.inl ⟨id, n, rfl, hfin, hpos, hle, (Option.some.inj h).symm⟩)
      · exact absurd h (by simp)
  | finish id =>
      simp only [Sock.act] at h
      split at h
      · next hguard =>
          simp only [Bool.and_eq_true, Bool.not_eq_true', List.isEmpty_iff] at hguard
          exact Or.inr (Or.inr (Or.inl ⟨id, rfl, hguard.1, hguard.2, (Option.some.inj h).symm⟩))
      · exact absurd h (by simp)
  | reset id =>
      simp only [Sock.act] at h
      split at h
      · exact absurd h (by simp)
      · next hfin =>
          exact Or.inr (Or.inr (Or.inr ⟨id, rfl, Bool.eq_false_iff.mpr hfin, (Option.some.inj h).symm⟩))

/-- The client and the network touch neither the reads nor the answers. -/
theorem act_reads {e : Env} (h : s.act t e = some s') : s'.reads = s.reads ∧ s'.tx = s.tx := by
  rcases act_cases h with ⟨_, _, _, _, rfl⟩ | ⟨_, _, _, _, _, _, rfl⟩ | ⟨_, _, _, _, rfl⟩ | ⟨_, _, _, rfl⟩
  · exact ⟨rfl, rfl⟩
  · exact ⟨rfl, rfl⟩
  · exact ⟨rfl, rfl⟩
  · exact ⟨rfl, rfl⟩

/-- What the client and the network do keeps the order. -/
theorem Ordered.act (hs : s.Ordered) {e : Env} (h : s.act t e = some s') : s'.Ordered := by
  obtain ⟨lost, hstream, hlost⟩ := hs.stream
  rcases act_cases h with ⟨_, bs, _, hfin, rfl⟩ | ⟨_, n, _, _, hpos, hle, rfl⟩ | ⟨_, _, hfin, _, rfl⟩ |
    ⟨_, _, _, rfl⟩
  · refine ⟨⟨[], ?_, fun _ => rfl⟩, hs.reads, hs.rx⟩
    show s.sent ++ bs = s.reads.flatten ++ (s.rx.flatten ++ ((s.wire ++ bs) ++ []))
    rw [hstream, hlost hfin]
    simp only [List.append_assoc, List.append_nil]
  · refine ⟨⟨lost, ?_, hlost⟩, hs.reads, ?_⟩
    · have hsplit : (s.rx ++ [s.wire.take n]).flatten ++ (s.wire.drop n ++ lost) =
          s.rx.flatten ++ ((s.wire.take n ++ s.wire.drop n) ++ lost) := by
        rw [List.flatten_append, List.flatten_singleton]
        simp only [List.append_assoc]
      show s.sent = s.reads.flatten ++ ((s.rx ++ [s.wire.take n]).flatten ++ (s.wire.drop n ++ lost))
      rw [hsplit, List.take_append_drop]
      exact hstream
    · intro b hb
      rcases List.mem_append.mp hb with hb | hb
      · exact hs.rx b hb
      · rw [List.mem_singleton] at hb
        rw [hb]
        apply List.ne_nil_of_length_pos
        rw [List.length_take]
        omega
  · exact ⟨⟨lost, hstream, fun _ => hlost hfin⟩, hs.reads, hs.rx⟩
  · refine ⟨⟨s.wire ++ lost, hstream, fun hfin => ?_⟩, hs.reads, hs.rx⟩
    exact absurd hfin (by simp)

theorem Ordered.mark (hs : s.Ordered) (edge : Bool) : ({ s with edge := edge } : Sock).Ordered :=
  ⟨hs.stream, hs.reads, hs.rx⟩

/-- A turn moves bytes from the buffer to the reads. -/
theorem Ordered.afterTurn {σ : Type} (hs : s.Ordered) (m : Machine σ) (os : Os) (self : σ) :
    (s.afterTurn t m os self).Ordered := by
  have hread : (s.afterRead t os).Ordered := by
    unfold Sock.afterRead
    split
    · next hguard =>
        obtain ⟨lost, hstream, hlost⟩ := hs.stream
        refine ⟨⟨lost, ?_, hlost⟩, ?_, Transport.read_rest_ne_nil t hs.rx⟩
        · show s.sent = (s.reads ++ [(t.read s.rx).1]).flatten ++ ((t.read s.rx).2.flatten ++ (s.wire ++ lost))
          rw [hstream, ← Transport.read_flatten t s.rx, List.flatten_append, List.flatten_singleton]
          simp only [List.append_assoc]
        · intro b hb
          rcases List.mem_append.mp hb with hb | hb
          · exact hs.reads b hb
          · rw [List.mem_singleton] at hb
            rw [hb]
            exact Transport.read_ne_nil t hs.rx hguard.2
    · exact hs
  exact ⟨hread.stream, hread.reads, hread.rx⟩

end Sock

namespace Sys

variable {σ : Type} {tc : ThreadCount}

/-- What a step can do to one socket. -/
inductive SockStep (S : Setup σ) (s : Sock) : Sock → Prop
  | marked (edge : Bool) : SockStep S s { s with edge := edge }
  | acted (e : Env) (s' : Sock) (h : s.act S.transport e = some s') : SockStep S s s'
  | turned (os : Os) (self : σ) : SockStep S s (s.afterTurn S.transport S.machine os self)

theorem SockStep.refl (S : Setup σ) (s : Sock) : SockStep S s s := .marked s.edge

/-- Writing one socket is a step of every socket. -/
theorem sockStep_setSock {S : Setup σ} {k : Kernel} {id : Nat} {sock : Sock}
    (h : SockStep S (k.socks id) sock) (id' : Nat) :
    SockStep S (k.socks id') ((k.setSock id sock).socks id') := by
  rw [Kernel.setSock_socks]
  by_cases hid : id' = id
  · rw [hid, Function.update_self]
    exact h
  · rw [Function.update_of_ne hid]
    exact .refl S _

/-- Closing descriptors leaves the sockets alone. -/
theorem destroy_socks (S : Setup σ) (os : Os) (old : Option (Session σ)) (k : Kernel) :
    (Thread.destroy (S.sessions os) old k).socks = k.socks := by
  cases old with
  | none => rfl
  | some x => rfl

theorem destroy_clients (S : Setup σ) (os : Os) (old : Option (Session σ)) (k : Kernel) :
    (Thread.destroy (S.sessions os) old k).backlog = k.backlog ∧
      (Thread.destroy (S.sessions os) old k).clients = k.clients := by
  cases old with
  | none => exact ⟨rfl, rfl⟩
  | some x => exact ⟨rfl, rfl⟩

/-- The end of a session opens and registers nothing. -/
theorem destroy_opens (S : Setup σ) (os : Os) (old : Option (Session σ)) (k : Kernel) {fd : SOCKET} :
    (∀ {id}, (Thread.destroy (S.sessions os) old k).fds fd = some id → k.fds fd = some id) ∧
      ((Thread.destroy (S.sessions os) old k).interest fd = true → k.interest fd = true) := by
  cases old with
  | none => exact ⟨fun h => h, fun h => h⟩
  | some x =>
      by_cases hfd : fd = x.conn.fd
      · refine ⟨?_, ?_⟩
        · intro id h
          change Function.update k.fds x.conn.fd none fd = some id at h
          rw [hfd, Function.update_self] at h
          exact absurd h (by simp)
        · intro h
          change Function.update k.interest x.conn.fd false fd = true at h
          rw [hfd, Function.update_self] at h
          exact absurd h (by simp)
      · refine ⟨?_, ?_⟩
        · intro id h
          rw [← h]
          exact (Function.update_of_ne hfd _ _).symm
        · intro h
          rw [← h]
          exact (Function.update_of_ne hfd _ _).symm

/-- **What a step can do to a socket.** -/
theorem sock_step {S : Setup σ} {s s' : Sys tc σ} {l : Label tc} (hs : Sound S s)
    (h : s.step S l = some s') (id : Nat) : SockStep S (s.kernel.socks id) (s'.kernel.socks id) := by
  cases does_of_step hs.routed h with
  | env e k he =>
      rcases Kernel.env_cases he with ⟨_, rfl⟩ | ⟨id', sock, _, _, hact, rfl⟩
      · exact .refl S _
      · exact sockStep_setSock (.acted e sock hact) id
  | waited raw ht hr =>
      show SockStep S _ ((Poller.afterWait S.platform S.serverFd raw s.kernel).socks id)
      rw [Poller.afterWait_socks]
      unfold Poller.report
      simp only
      split
      · exact .marked false
      · exact .refl S _
  | interrupted errno ht => exact .refl S _
  | waitFailed errno e ht he => exact .refl S _
  | admitted os fd0 fd id' queue rest hpos ht ha hm hh =>
      show SockStep S _ ((Thread.destroy (S.sessions os) (lookup s.threads fd) _).socks id)
      rw [destroy_socks]
      exact .refl S _
  | refused os fd0 rest e k ht he =>
      rcases he with ⟨rfl, _⟩ | ⟨fd, id', queue, ha, hcase⟩
      · exact .refl S _
      · rcases hcase with ⟨_, rfl⟩ | ⟨_, rfl⟩
        · exact .refl S _
        · exact .refl S _
  | registered os fd rest k ht hadd =>
      rcases Poller.addClient_ok hadd with ⟨_, rfl⟩ | ⟨_, _, rfl⟩
      · exact .refl S _
      · show SockStep S _ (Poller.arm fd s.kernel id)
        unfold Poller.arm
        split
        · exact .marked _
        · exact .refl S _
  | unregistrable os fd rest e ht hi => exact .refl S _
  | removed os fd rest hpos ht =>
      show SockStep S _ ((Thread.destroy (S.sessions os) (lookup s.threads fd) s.kernel).socks id)
      rw [destroy_socks]
      exact .refl S _
  | queued os fd rest hpos hk ht => exact .refl S _
  | ran os fd rest tm k hpos hk ht hit =>
      rcases iterate_turn hs.owned hit with ⟨_, _, rfl⟩ | ⟨x, _, _, _, _, rfl⟩
      · exact .refl S _
      · exact sockStep_setSock (.turned os x.self) id
  | failed os fd rest e tm k hpos hk ht hit =>
      obtain ⟨x, self, sock, _, _, _, rfl, hsock⟩ := iterate_threw hs.owned hit
      rcases hsock with ⟨rfl, _⟩ | ⟨rfl, _⟩
      · exact sockStep_setSock (.refl S _) id
      · exact sockStep_setSock (.turned os x.self) id
  | idle k os hk hq => exact .refl S _
  | served k os fd rest tm w hpos hk hq hit =>
      rcases iterate_turn (hs.popped hq).owned hit with ⟨_, _, rfl⟩ | ⟨x, _, _, _, _, rfl⟩
      · exact .refl S _
      · exact sockStep_setSock (.turned os x.self) id

theorem SockStep.ordered {S : Setup σ} {s s' : Sock} (h : SockStep S s s') (hs : s.Ordered) :
    s'.Ordered := by
  cases h with
  | marked edge => exact hs.mark edge
  | acted e _ hact => exact hs.act hact
  | turned os self => exact hs.afterTurn S.machine os self

/-- **In every reachable state every client's bytes are in order**, whatever the OS returns. -/
theorem ordered_run {S : Setup σ} {ls : List (Label tc)} {s : Sys tc σ}
    (h : Transition.run (Sys.step S) (start S tc) ls = some s) (id : Nat) :
    (s.kernel.socks id).Ordered := by
  have hstep : ∀ {a l b}, (Sound S a ∧ ∀ id, (a.kernel.socks id).Ordered) →
      (a : Sys tc σ).step S l = some b → Sound S b ∧ ∀ id, (b.kernel.socks id).Ordered := by
    rintro a l b ⟨hsound, hordered⟩ hl
    exact ⟨sound_step hsound hl, fun id => (sock_step hsound hl id).ordered (hordered id)⟩
  exact (Transition.run_invariant hstep ⟨sound_start S, fun _ => Sock.ordered_empty⟩ h).2 id

/-! ## What ties a session to its socket -/

/-- A relation between a socket and the fields of its session that survives everything that can happen to
    the two, in steps in which the OS returns what `ok` allows. -/
structure Closed (S : Setup σ) (ok : Os → Prop) (R : Sock → σ → Prop) : Prop where
  fresh  : R Sock.empty S.machine.init
  marked : ∀ {s self} (edge : Bool), R s self → R { s with edge := edge } self
  acted  : ∀ {s s' self e}, s.act S.transport e = some s' → R s self → R s' self
  turned : ∀ {s self os}, ok os → R s self →
    R (s.afterTurn S.transport S.machine os self) (S.machine.onData self (s.data S.transport os)).1

/-- What the OS returns in a step of the server is allowed. -/
def Allowed (ok : Os → Prop) (_ : Sys tc σ) : Label tc → Prop
  | .go os => ok os
  | .worker _ os => ok os
  | _ => True

instance (ok : Os → Prop) [DecidablePred ok] (s : Sys tc σ) (l : Label tc) : Decidable (Allowed ok s l) :=
  match l with
  | .go os => inferInstanceAs (Decidable (ok os))
  | .worker _ os => inferInstanceAs (Decidable (ok os))
  | .env _ => isTrue trivial
  | .wait _ => isTrue trivial

/-- The relation holds between the socket and the session of every client that has one, between the socket
    and new fields for every client that was not accepted, and for every other client with the fields its
    session had at the end. -/
structure Related (S : Setup σ) (R : Sock → σ → Prop) (s : Sys tc σ) : Prop where
  new  : ∀ id, id ∈ s.kernel.backlog ∨ s.kernel.clients ≤ id → R (s.kernel.socks id) S.machine.init
  live : ∀ fd x, lookup s.threads fd = some x → R (s.kernel.socks x.conn.id) x.self
  all  : ∀ id, ∃ self, R (s.kernel.socks id) self

section Related

variable {S : Setup σ} {s s' : Sys tc σ} {ok : Os → Prop} {R : Sock → σ → Prop}

theorem related_start (hR : Closed S ok R) : Related S R (start S tc) := by
  refine ⟨fun _ _ => hR.fresh, ?_, fun _ => ⟨_, hR.fresh⟩⟩
  intro fd x hx
  exact absurd ((lookup_create fd).symm.trans hx) (by simp)

/-- What reads and writes nothing and adds no session. -/
theorem Related.congr (hs : Related S R s)
    (hsock : ∀ id self, R (s.kernel.socks id) self → R (s'.kernel.socks id) self)
    (hnew : ∀ id, id ∈ s'.kernel.backlog ∨ s'.kernel.clients ≤ id →
      id ∈ s.kernel.backlog ∨ s.kernel.clients ≤ id)
    (hlook : ∀ fd x, lookup s'.threads fd = some x → lookup s.threads fd = some x) : Related S R s' := by
  refine ⟨?_, ?_, ?_⟩
  · intro id h
    exact hsock id _ (hs.new id (hnew id h))
  · intro fd x hx
    exact hsock _ _ (hs.live fd x (hlook fd x hx))
  · intro id
    obtain ⟨self, hself⟩ := hs.all id
    exact ⟨self, hsock id self hself⟩

/-- The session under `fd` gets new fields and its client's socket changes. -/
theorem Related.turn (hsound : Sound S s) (hs : Related S R s) (hpos : 0 < tc.size) {fd : SOCKET}
    {x : Session σ} {self : σ} {sock : Sock} (hopen : s.kernel.fds fd = some x.conn.id)
    (hthreads : s'.threads = setSelf s.threads fd x self)
    (hkernel : s'.kernel = s.kernel.setSock x.conn.id sock) (hsock : R sock self) : Related S R s' := by
  have hknown := hsound.known fd x.conn.id hopen
  have hmine : s'.kernel.socks x.conn.id = sock := by
    rw [hkernel]
    exact Function.update_self _ _ _
  have hother : ∀ id, id ≠ x.conn.id → s'.kernel.socks id = s.kernel.socks id := by
    intro id hid
    rw [hkernel]
    exact Function.update_of_ne hid _ _
  refine ⟨?_, ?_, ?_⟩
  · intro id h
    rw [hkernel] at h
    have hid : id ≠ x.conn.id := by
      rintro rfl
      rcases h with h | h
      · exact hknown.2 h
      · exact Nat.lt_irrefl _ (Nat.lt_of_lt_of_le hknown.1 h)
    rw [hother id hid]
    exact hs.new id h
  · intro fd' y hy
    rw [hthreads, lookup_setSelf hpos] at hy
    by_cases hfd : fd' = fd
    · rw [hfd, Function.update_self] at hy
      rw [← Option.some.inj hy]
      show R (s'.kernel.socks x.conn.id) self
      rw [hmine]
      exact hsock
    · -- another descriptor's session has another client
      rw [Function.update_of_ne hfd] at hy
      have hdiff : y.conn.id ≠ x.conn.id := by
        intro hid
        obtain ⟨_, hyopen⟩ := hsound.owned.of_lookup hy
        rw [hid] at hyopen
        exact hfd (hsound.distinct fd' fd _ hyopen hopen)
      rw [hother _ hdiff]
      exact hs.live fd' y hy
  · intro id
    by_cases hid : id = x.conn.id
    · rw [hid, hmine]
      exact ⟨self, hsock⟩
    · rw [hother id hid]
      exact hs.all id

/-- A client connects, or a client or the network acts on a socket. -/
theorem Related.acted (hR : Closed S ok R) (hs : Related S R s) {e : Env} {k : Kernel}
    (he : s.kernel.env S.transport e = some k) : Related S R { s with kernel := k } := by
  rcases Kernel.env_cases he with ⟨_, rfl⟩ | ⟨id, sock, _, _, hact, rfl⟩
  · -- the new client is the first one that was not there before
    refine hs.congr (fun _ _ hr => hr) ?_ (fun _ _ hx => hx)
    rintro id (hin | hle)
    · rcases List.mem_append.mp hin with hin | hin
      · exact Or.inl hin
      · rw [List.mem_singleton] at hin
        exact Or.inr (Nat.le_of_eq hin.symm)
    · exact Or.inr (Nat.le_of_succ_le hle)
  · refine hs.congr ?_ (fun _ hid => hid) (fun _ _ hx => hx)
    intro id' self hr
    show R (Function.update s.kernel.socks id sock id') self
    by_cases hid : id' = id
    · rw [hid] at hr ⊢
      rw [Function.update_self]
      exact hR.acted hact hr
    · rw [Function.update_of_ne hid]
      exact hr

/-- A wait only takes the edge marks away. -/
theorem Related.waited (hR : Closed S ok R) (hs : Related S R s) (raw : List PollEvent) {tasks : List Task}
    {calls : List PollerCall} :
    Related S R { s with
      kernel := Poller.afterWait S.platform S.serverFd raw s.kernel
      tasks := tasks
      calls := calls } := by
  refine hs.congr ?_ ?_ (fun _ _ hx => hx)
  · intro id self hrel
    show R ((Poller.afterWait S.platform S.serverFd raw s.kernel).socks id) self
    rw [Poller.afterWait_socks]
    unfold Poller.report
    simp only
    split
    · exact hR.marked false hrel
    · exact hrel
  · intro id hid
    simpa using hid

/-- The client at the head of the backlog gets a session with new fields. -/
theorem Related.admitted (hs : Related S R s) (hpos : 0 < tc.size) {os : Os} {fd : SOCKET} {id : Nat}
    {queue : List Nat} (ha : Server.Accepts S os s.kernel fd id queue)
    (hthreads : s'.threads = ThreadManager.insert s.threads ⟨⟨fd, id⟩, S.machine.init⟩)
    (hkernel : s'.kernel = s.kernel.opened fd id queue) : Related S R s' := by
  refine ⟨?_, ?_, ?_⟩
  · rw [hkernel]
    rintro id' (hid | hid)
    · exact hs.new id' (Or.inl (ha.mem_of_rest hid))
    · exact hs.new id' (Or.inr hid)
  · intro fd' x hx
    have hlookup : lookup s'.threads =
        Function.update (lookup s.threads) fd (some ⟨⟨fd, id⟩, S.machine.init⟩) := by
      rw [hthreads]
      exact lookup_insert hpos _
    rw [hlookup] at hx
    rw [hkernel]
    rcases PartialMap.enter_eq_some.mp hx with ⟨_, rfl⟩ | ⟨_, hold⟩
    · exact hs.new id (Or.inl ha.head_mem)
    · exact hs.live fd' x hold
  · rw [hkernel]
    exact hs.all

/-- A session is destroyed, and its connection closed. -/
theorem Related.removed (hs : Related S R s) (hpos : 0 < tc.size) {os : Os} {fd : SOCKET} {tasks : List Task}
    {calls : List PollerCall} :
    Related S R { s with
      threads := remove s.threads fd
      kernel := Thread.destroy (S.sessions os) (lookup s.threads fd) s.kernel
      tasks := tasks
      calls := calls } := by
  refine hs.congr ?_ ?_ ?_
  · intro id self hrel
    show R ((Thread.destroy (S.sessions os) (lookup s.threads fd) s.kernel).socks id) self
    rw [destroy_socks]
    exact hrel
  · intro id hid
    obtain ⟨hb, hc⟩ := destroy_clients S os (lookup s.threads fd) s.kernel
    rw [← hb, ← hc]
    exact hid
  · intro fd' x hx
    rw [show lookup (remove s.threads fd) = Function.update (lookup s.threads) fd none from
      lookup_remove hpos] at hx
    exact (PartialMap.erase_eq_some.mp hx).2

/-- **A step keeps every session related to its client's socket.** -/
theorem related_step (hR : Closed S ok R) {l : Label tc} (hsound : Sound S s) (hs : Related S R s)
    (hok : Allowed ok s l) (h : s.step S l = some s') : Related S R s' := by
  cases does_of_step hsound.routed h with
  | env e k he => exact hs.acted hR he
  | waited raw ht hr => exact hs.waited hR raw
  | interrupted errno ht => exact hs.congr (fun _ _ hr => hr) (fun _ hid => hid) (fun _ _ hx => hx)
  | waitFailed errno e ht he => exact hs.congr (fun _ _ hr => hr) (fun _ hid => hid) (fun _ _ hx => hx)
  | admitted os fd0 fd id queue rest hpos ht ha hm hh =>
      -- no session was there before, so none is destroyed
      rw [hsound.lookup_eq_none ha.closed]
      exact hs.admitted hpos ha rfl rfl
  | refused os fd0 rest e k ht he =>
      rcases he with ⟨rfl, _⟩ | ⟨fd, id, queue, ha, hcase⟩
      · exact hs.congr (fun _ _ hr => hr) (fun _ hid => hid) (fun _ _ hx => hx)
      · have hnew : ∀ id', id' ∈ queue ∨ s.kernel.clients ≤ id' →
            id' ∈ s.kernel.backlog ∨ s.kernel.clients ≤ id' := by
          rintro id' (hid | hid)
          · exact Or.inl (ha.mem_of_rest hid)
          · exact Or.inr hid
        rcases hcase with ⟨_, rfl⟩ | ⟨_, rfl⟩
        · exact hs.congr (fun _ _ hr => hr) hnew (fun _ _ hx => hx)
        · exact hs.congr (fun _ _ hr => hr) hnew (fun _ _ hx => hx)
  | registered os fd rest k ht hadd =>
      rcases Poller.addClient_ok hadd with ⟨_, rfl⟩ | ⟨_, _, rfl⟩
      · exact hs.congr (fun _ _ hr => hr) (fun _ hid => hid) (fun _ _ hx => hx)
      · refine hs.congr ?_ (fun _ hid => hid) (fun _ _ hx => hx)
        intro id self hrel
        show R (Poller.arm fd s.kernel id) self
        unfold Poller.arm
        split
        · exact hR.marked _ hrel
        · exact hrel
  | unregistrable os fd rest e ht hi =>
      exact hs.congr (fun _ _ hr => hr) (fun _ hid => hid) (fun _ _ hx => hx)
  | removed os fd rest hpos ht => exact hs.removed hpos
  | queued os fd rest hpos hk ht =>
      refine hs.congr (fun _ _ hr => hr) (fun _ hid => hid) ?_
      intro fd' x hx
      rw [show lookup (enqueue s.threads fd) = lookup s.threads from lookup_enqueue] at hx
      exact hx
  | ran os fd rest tm k hpos hk ht hit =>
      rcases iterate_turn hsound.owned hit with ⟨_, rfl, rfl⟩ | ⟨x, hx, hopen, _, rfl, rfl⟩
      · exact hs.congr (fun _ _ hr => hr) (fun _ hid => hid) (fun _ _ hx => hx)
      · exact hs.turn hsound hpos hopen rfl rfl (hR.turned hok (hs.live fd x hx))
  | failed os fd rest e tm k hpos hk ht hit =>
      obtain ⟨x, self, sock, hx, hopen, rfl, rfl, hcase⟩ := iterate_threw hsound.owned hit
      rcases hcase with ⟨rfl, rfl⟩ | ⟨rfl, rfl⟩
      · exact hs.turn hsound hpos hopen rfl rfl (hs.live fd x hx)
      · exact hs.turn hsound hpos hopen rfl rfl (hR.turned hok (hs.live fd x hx))
  | idle k os hk hq => exact hs
  | served k os fd rest tm w hpos hk hq hit =>
      have hs₁ : Related S R { s with threads := setQueue s.threads k rest } := by
        refine hs.congr (fun _ _ hr => hr) (fun _ hid => hid) ?_
        intro fd' x hx
        rw [show lookup (setQueue s.threads k rest) = lookup s.threads from lookup_setQueue k rest] at hx
        exact hx
      rcases iterate_turn (hsound.popped hq).owned hit with ⟨_, rfl, rfl⟩ | ⟨x, hx, hopen, _, rfl, rfl⟩
      · exact hs₁
      · exact hs₁.turn (hsound.popped hq) hpos hopen rfl rfl (hR.turned hok (hs₁.live fd x hx))

/-- **What a turn, the client and the network preserve holds between every session and its client's socket**,
    in every reachable state: no other client, no stale queue entry and no reused descriptor interferes. -/
theorem related_run (hR : Closed S ok R) {ls : List (Label tc)}
    (hok : Transition.AllSteps (Sys.step S) (Allowed ok) (start S tc) ls)
    (hrun : Transition.run (Sys.step S) (start S tc) ls = some s) : Related S R s := by
  have hstep : ∀ {a l b}, (Sound S a ∧ Related S R a) → Allowed ok a l →
      (a : Sys tc σ).step S l = some b → Sound S b ∧ Related S R b := by
    rintro a l b ⟨hsound, hs⟩ hl hb
    exact ⟨sound_step hsound hb, related_step hR hsound hs hl hb⟩
  exact (Transition.run_invariant_of hstep ⟨sound_start S, related_start hR⟩ hok hrun).2

end Related

end Sys

end Neblina

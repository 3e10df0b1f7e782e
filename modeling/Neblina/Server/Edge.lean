import Neblina.Server.Registration

/-!
# `Server.Edge` — one read for each notification

The Linux poller registers clients edge-triggered: what arrived is reported once, however much it is. An
iteration reads once, at most `RECV_BUF_SZ` bytes or one TLS record. So every notification that is under way
is one read, and a burst that needs more reads than there are notifications leaves bytes in the kernel that
nothing asks for. (The BSD and win32 pollers report a client again as long as there is something to read.)

`outstanding` counts the notifications under way for a client: the pending event, the events of the batch
that are left, the entries of the queue. `Kept` says that they cover the reads the buffer needs, and
`nothing_stranded` that this is so in every run in which it is so at each arrival and each registration.
-/

namespace Neblina

open ThreadManager

variable {σ : Type} {tc : ThreadCount}

theorem Transport.readsNeeded_nil (t : Transport) : t.readsNeeded [] = 0 := by
  cases t <;> rfl

/-- A turn whose read does not fail is one read less. -/
theorem Sock.readsNeeded_afterTurn (t : Transport) (m : Machine σ) {os : Os} (hr : os.recv = none) (self : σ)
    (s : Sock) : t.readsNeeded (s.afterTurn t m os self).rx = t.readsNeeded s.rx - 1 := by
  show t.readsNeeded (s.afterRead t os).rx = _
  unfold Sock.afterRead
  by_cases hrx : s.rx = []
  · rw [if_neg (fun h => h.2 hrx), hrx, Transport.readsNeeded_nil]
  · rw [if_pos ⟨hr, hrx⟩]
    exact Transport.readsNeeded_read t s.rx

theorem Sock.edge_afterTurn (t : Transport) (m : Machine σ) (os : Os) (self : σ) (s : Sock) :
    (s.afterTurn t m os self).edge = s.edge := by
  show (s.afterRead t os).edge = _
  unfold Sock.afterRead
  split
  · rfl
  · rfl

namespace Poller

variable {p : Platform} {serverFd : SOCKET} {raw : List PollEvent} {e : PollEvent}

/-- A client's entry is in the batch as what it is classified as. -/
theorem mem_events (hp : p = .linux) (he : e ∈ raw) (hs : e.fd ≠ serverFd) {type : EventType}
    (h : classify p e = some type) : ⟨type, e.fd⟩ ∈ events p serverFd raw := by
  have hwin : p ≠ .win32 := by
    rw [hp]
    simp
  refine (mem_events_unix hwin).mpr ⟨e, he, ?_⟩
  unfold event
  rw [if_neg hs, h]
  rfl

/-- A client that is registered after `wait` was not reported as gone. -/
theorem not_disconnected (hp : p = .linux) {k : Kernel} {fd : SOCKET}
    (h : (afterWait p serverFd raw k).interest fd = true) :
    ⟨.clientDisconnected, fd⟩ ∉ events p serverFd raw := by
  subst hp
  have hnot := (Bool.and_eq_true_iff.mp h).2
  rw [Bool.not_eq_true', List.contains_eq_mem, decide_eq_false_iff_not] at hnot
  intro hmem
  apply hnot
  exact List.mem_map.mpr ⟨_, List.mem_filter.mpr ⟨hmem, by simp⟩, rfl⟩

/-- A readable client is reported as gone or as having data. -/
theorem linux_classify (hp : p = .linux) (h : e.readable = true) :
    classify p e = some .clientDisconnected ∨ classify p e = some .clientDataReady := by
  subst hp
  show Linux.classify e = _ ∨ Linux.classify e = _
  unfold Linux.classify
  by_cases hflags : (e.err || e.hup || e.eof) = true
  · rw [if_pos hflags]
    exact Or.inl rfl
  · rw [if_neg hflags, if_pos h]
    exact Or.inr rfl

end Poller

/-- The events of the batch that are left and announce data of `fd`. -/
def announced (fd : SOCKET) (ts : List Task) : Nat := ts.count (.event ⟨.clientDataReady, fd⟩)

theorem announced_cons_of_ne {fd : SOCKET} {t : Task} (h : t ≠ .event ⟨.clientDataReady, fd⟩)
    (ts : List Task) : announced fd (t :: ts) = announced fd ts :=
  List.count_cons_of_ne h

theorem announced_cons_self (fd : SOCKET) (ts : List Task) :
    announced fd (.event ⟨.clientDataReady, fd⟩ :: ts) = announced fd ts + 1 :=
  List.count_cons_self

/-- The event of another descriptor announces nothing. -/
theorem announced_cons_other {fd fd' : SOCKET} (h : fd ≠ fd') (ts : List Task) :
    announced fd (.event ⟨.clientDataReady, fd'⟩ :: ts) = announced fd ts := by
  apply announced_cons_of_ne
  intro heq
  injection heq with heq
  injection heq with _ heq
  exact h heq.symm

namespace Sys

/-- `epoll_wait` on edge-triggered clients: a client is reported when something arrived since it was last
    reported or registered, and then as readable; it is reported as gone when its stream is at the end. -/
def EdgeTriggered (S : Setup σ) (s : Sys tc σ) : Label tc → Prop
  | .wait (.ok raw) => ∀ e ∈ raw, e.fd ≠ S.serverFd → ∀ id ∈ s.kernel.fds e.fd,
      (s.kernel.socks id).edge = true ∧ (s.kernel.socks id).ready = true ∧ e.readable = true ∧
        (e.err || e.hup || e.eof) = (s.kernel.socks id).fin
  | _ => True

instance (S : Setup σ) (s : Sys tc σ) (l : Label tc) : Decidable (EdgeTriggered S s l) :=
  match l with
  | .wait (.ok raw) => inferInstanceAs (Decidable (∀ e ∈ raw, _ → _))
  | .wait (.error _) => isTrue trivial
  | .env _ => isTrue trivial
  | .go _ => isTrue trivial
  | .worker _ _ => isTrue trivial

/-- The read of an iteration does not fail while there is something to read. -/
def Reads (os : Os) : Prop := os.recv = none

instance : DecidablePred Reads := fun _ => inferInstanceAs (Decidable (_ = _))

/-- The notifications of the client `id` on `fd` that are under way. -/
def outstanding (s : Sys tc σ) (fd : SOCKET) (id : Nat) : Nat :=
  (s.kernel.socks id).edge.toNat + announced fd s.tasks + owed s.threads fd

/-- **The clients do not send faster than they are read.** Whenever something arrives for a registered client,
    and whenever a client is registered, the one event that this gives and the notifications that are under
    way are enough to read everything in the buffer. -/
def Paced (S : Setup σ) (s : Sys tc σ) : Label tc → Prop
  | .env (.arrive id n) => ∀ fd, s.kernel.fds fd = some id → s.kernel.interest fd = true →
      S.transport.readsNeeded ((s.kernel.socks id).rx ++ [(s.kernel.socks id).wire.take n]) ≤
        1 + announced fd s.tasks + owed s.threads fd
  | .go _ => ∀ fd rest id, s.tasks = .register fd :: rest → s.kernel.fds fd = some id →
      S.transport.readsNeeded (s.kernel.socks id).rx ≤ 1 + owed s.threads fd
  | _ => True

/-- The notifications under way are enough to read everything in the buffer of every registered client. -/
def Kept (S : Setup σ) (s : Sys tc σ) : Prop :=
  ∀ fd id, s.kernel.fds fd = some id → s.kernel.interest fd = true →
    S.transport.readsNeeded (s.kernel.socks id).rx ≤ outstanding s fd id

section Steps

variable {S : Setup σ} {s s' : Sys tc σ}

/-- Nothing happens to the sockets, and as many notifications as before are under way. -/
theorem Kept.congr (hs : Kept S s)
    (hopen : ∀ fd id, s'.kernel.fds fd = some id → s'.kernel.interest fd = true →
      s.kernel.fds fd = some id ∧ s.kernel.interest fd = true)
    (hsocks : s'.kernel.socks = s.kernel.socks)
    (hunder : ∀ fd id, s'.kernel.fds fd = some id → s'.kernel.interest fd = true →
      announced fd s.tasks + owed s.threads fd ≤ announced fd s'.tasks + owed s'.threads fd) :
    Kept S s' := by
  intro fd id hfd hi
  obtain ⟨hfd₀, hi₀⟩ := hopen fd id hfd hi
  have hle := hs fd id hfd₀ hi₀
  have hmore := hunder fd id hfd hi
  unfold outstanding at hle ⊢
  rw [hsocks]
  omega

/-- The client or the network acts on one socket. -/
theorem Kept.acted (hs : Kept S s) {e : Env} {k : Kernel} (he : s.kernel.env S.transport e = some k)
    (hpaced : Paced S s (.env e)) : Kept S { s with kernel := k } := by
  rcases Kernel.env_cases he with ⟨_, rfl⟩ | ⟨id, sock, hid, _, hact, rfl⟩
  · exact hs.congr (fun _ _ hfd hi => ⟨hfd, hi⟩) rfl (fun _ _ _ _ => Nat.le_refl _)
  · intro fd id' hfd hi
    have hle := hs fd id' hfd hi
    have hmore : ∀ {n : Nat} {b : Bool}, n ≤ b.toNat + announced fd s.tasks + owed s.threads fd →
        n ≤ true.toNat + announced fd s.tasks + owed s.threads fd := by
      intro n b hn
      have hb := Bool.toNat_le b
      rw [Bool.toNat_true]
      omega
    unfold outstanding at hle ⊢
    simp only [Kernel.setSock_socks]
    by_cases hne : id' = id
    · rw [hne] at hle hfd ⊢
      rw [Function.update_self]
      rcases Sock.act_cases hact with ⟨_, _, _, _, rfl⟩ | ⟨id₀, n, rfl, _, _, _, rfl⟩ | ⟨_, _, _, _, rfl⟩ |
        ⟨_, _, _, rfl⟩
      · exact hle
      · -- an arrival is one event, whatever was pending
        cases hid
        exact hpaced fd hfd hi
      · exact hmore hle
      · exact hmore hle
    · rw [Function.update_of_ne hne]
      exact hle

/-- A `wait` turns pending events into events of the batch. -/
theorem Kept.waited (hp : S.platform = .linux) (hsound : Sound S s) (hs : Kept S s) {raw : List PollEvent}
    (ht : s.tasks = []) (hedge : EdgeTriggered S s (.wait (.ok raw))) {calls : List PollerCall} :
    Kept S { s with
      kernel := Poller.afterWait S.platform S.serverFd raw s.kernel
      tasks := (Poller.events S.platform S.serverFd raw).map .event
      calls := calls } := by
  intro fd id hfd hi
  rw [Poller.afterWait_fds] at hfd
  have hle := hs fd id hfd (Poller.afterWait_interest hi)
  unfold outstanding at hle ⊢
  rw [ht] at hle
  simp only [Poller.afterWait_socks, Poller.report]
  by_cases hmem : ∃ e ∈ raw, e.fd = fd
  · obtain ⟨e, he, rfl⟩ := hmem
    have hserver : e.fd ≠ S.serverFd := by
      intro heq
      rw [heq, hsound.server] at hfd
      exact absurd hfd (by simp)
    obtain ⟨_, _, hread, _⟩ := hedge e he hserver id hfd
    have hany : raw.any (fun e' => s.kernel.fds e'.fd == some id) = true := by
      rw [List.any_eq_true]
      exact ⟨e, he, by rw [hfd]; exact beq_self_eq_true _⟩
    -- it is still registered, so it was not reported as gone
    have hclass : Poller.classify S.platform e = some .clientDataReady := by
      rcases Poller.linux_classify hp hread with hgone | hdata
      · have hev := Poller.mem_events hp he hserver hgone
        exact absurd hev (Poller.not_disconnected hp hi)
      · exact hdata
    have hin : Task.event ⟨.clientDataReady, e.fd⟩ ∈
        (Poller.events S.platform S.serverFd raw).map .event :=
      List.mem_map_of_mem (Poller.mem_events hp he hserver hclass)
    have hpos : 0 < announced e.fd ((Poller.events S.platform S.serverFd raw).map .event) :=
      List.count_pos_iff.mpr hin
    rw [if_pos hany]
    have hnil : announced e.fd [] = 0 := rfl
    have hb := Bool.toNat_le (s.kernel.socks id).edge
    show S.transport.readsNeeded (s.kernel.socks id).rx ≤ false.toNat + _ + _
    rw [Bool.toNat_false]
    omega
  · have hany : ¬ raw.any (fun e' => s.kernel.fds e'.fd == some id) = true := by
      rw [List.any_eq_true]
      rintro ⟨e, he, heq⟩
      exact hmem ⟨e, he, hsound.distinct e.fd fd id (beq_iff_eq.mp heq) hfd⟩
    rw [if_neg hany]
    have hnil : announced fd [] = 0 := rfl
    omega

/-- A client is registered: what is in its buffer is one event. -/
theorem Kept.registered (hsound : Sound S s) (hs : Kept S s) {fd : SOCKET} {rest : List Task} {os : Os}
    (ht : s.tasks = .register fd :: rest) (hpaced : Paced S s (.go os)) {calls : List PollerCall} :
    Kept S { s with
      kernel := { s.kernel with
        interest := Function.update s.kernel.interest fd true, socks := Poller.arm fd s.kernel }
      tasks := rest
      calls := calls } := by
  intro fd' id hfd hi
  unfold outstanding
  simp only [Poller.arm]
  by_cases hne : fd' = fd
  · subst hne
    have hroom := hpaced fd' rest id ht hfd
    rw [if_pos hfd]
    show S.transport.readsNeeded (s.kernel.socks id).rx ≤ (s.kernel.socks id).ready.toNat + _ + _
    by_cases hrx : (s.kernel.socks id).rx = []
    · rw [hrx, Transport.readsNeeded_nil]
      exact Nat.zero_le _
    · have hready : (s.kernel.socks id).ready = true := by
        unfold Sock.ready
        rw [Bool.or_eq_true, Bool.not_eq_true', List.isEmpty_eq_false_iff]
        exact Or.inl hrx
      rw [hready, Bool.toNat_true]
      omega
  · -- the registered descriptor belongs to another client
    have hother : s.kernel.fds fd ≠ some id := fun h => hne (hsound.distinct fd' fd id hfd h)
    have hle := hs fd' id hfd (by rw [← hi]; exact (Function.update_of_ne hne _ _).symm)
    unfold outstanding at hle
    rw [ht, announced_cons_of_ne (by simp)] at hle
    rw [if_neg hother]
    exact hle

/-- **An iteration is one read**: the notification it answers may go. -/
theorem Kept.turn (hsound : Sound S s) (hin : InStep s) (hs : Kept S s) {fd : SOCKET} {os : Os}
    {tm : ThreadManager tc σ} {k : Kernel} {threads : ThreadManager tc σ} (hr : Reads os)
    (hlook : lookup threads = lookup s.threads)
    (hit : ThreadManager.iterate (S.sessions os) fd (threads, s.kernel) = .ok () (tm, k)) {ts : List Task}
    (hmine : announced fd s.tasks + owed s.threads fd ≤ announced fd ts + owed threads fd + 1)
    (hother : ∀ fd', fd' ≠ fd →
      announced fd' s.tasks + owed s.threads fd' ≤ announced fd' ts + owed threads fd') :
    Kept S { s with threads := tm, kernel := k, tasks := ts } := by
  have hown : Owned threads s.kernel := by
    unfold Owned
    rw [conns_congr hlook]
    exact hsound.owned
  rcases iterate_turn hown hit with ⟨hnone, rfl, rfl⟩ | ⟨x, hx, hopen, _, rfl, rfl⟩
  · intro fd' id hfd hi
    -- a descriptor without a session is not open
    have hne : fd' ≠ fd := by
      rintro rfl
      have hsome := hin.session fd' id hfd
      rw [conns_eq_none (by rw [← hlook]; exact hnone)] at hsome
      exact absurd hsome (by simp)
    have hle := hs fd' id hfd hi
    have hkept := hother fd' hne
    unfold outstanding at hle ⊢
    simp only
    omega
  · intro fd' id hfd hi
    have hle := hs fd' id hfd hi
    unfold outstanding at hle ⊢
    simp only [Kernel.setSock_socks, owed_setSelf]
    by_cases hne : fd' = fd
    · have hfd' : s.kernel.fds fd' = some id := hfd
      rw [hne, hopen] at hfd'
      have hid := Option.some.inj hfd'
      rw [hne] at hle ⊢
      rw [← hid] at hle ⊢
      rw [Function.update_self, Sock.edge_afterTurn, Sock.readsNeeded_afterTurn _ _ hr]
      omega
    · have hid : id ≠ x.conn.id := by
        rintro rfl
        exact hne (hsound.distinct fd' fd _ hfd hopen)
      have hkept := hother fd' hne
      rw [Function.update_of_ne hid]
      omega

/-- **A step keeps the notifications ahead of the bytes**, when the clients do not send faster than they are
    read. -/
theorem kept_step (hp : S.platform = .linux) {l : Label tc} (hsound : Sound S s) (hin : InStep s)
    (hs : Kept S s) (hedge : EdgeTriggered S s l) (hok : Faultless S s l) (hr : Allowed Reads s l)
    (hpaced : Paced S s l) (h : s.step S l = some s') : Kept S s' := by
  cases does_of_step hsound.routed h with
  | env e k he => exact hs.acted he hpaced
  | waited raw ht _ => exact hs.waited hp hsound ht hedge
  | interrupted errno ht =>
      exact hs.congr (fun _ _ hfd hi => ⟨hfd, hi⟩) rfl (fun _ _ _ _ => Nat.le_refl _)
  | waitFailed errno e ht he =>
      refine hs.congr (fun _ _ hfd hi => ⟨hfd, hi⟩) rfl ?_
      intro fd id _ _
      apply Nat.le_of_eq
      rw [ht]
  | admitted os fd0 fd id queue rest hpos ht ha hm hh =>
      rw [hsound.lookup_eq_none ha.closed]
      -- the descriptor is new, and not registered yet
      have hnew : ∀ {fd'}, s.kernel.interest fd' = true → fd' ≠ fd := by
        rintro _ hi rfl
        exact absurd ((hsound.interest_eq_false ha.closed).symm.trans hi) (by simp)
      refine hs.congr ?_ rfl ?_
      · intro fd' id' hfd hi
        refine ⟨?_, hi⟩
        rw [← hfd]
        exact (Function.update_of_ne (hnew hi) _ _).symm
      · intro fd' id' _ _
        apply Nat.le_of_eq
        rw [ht, announced_cons_of_ne (by simp), announced_cons_of_ne (by simp), owed_insert]
  | refused os fd0 rest e k ht he => exact (hok.not_refused he).elim
  | registered os fd rest k ht hadd =>
      rcases Poller.addClient_ok hadd with ⟨hw, _⟩ | ⟨_, _, rfl⟩
      · exact absurd (hp.symm.trans hw) (by simp)
      · exact hs.registered hsound ht hpaced
  | unregistrable os fd rest e ht hi => exact absurd hi (hsound.not_registered ht)
  | removed os fd rest hpos ht =>
      refine hs.congr ?_ (destroy_socks S os _ _) ?_
      · intro fd' id hfd hi
        obtain ⟨hopens, hregisters⟩ := destroy_opens S os (lookup s.threads fd) s.kernel
        exact ⟨hopens hfd, hregisters hi⟩
      · intro fd' id _ _
        apply Nat.le_of_eq
        rw [ht, announced_cons_of_ne (by simp), owed_remove]
  | queued os fd rest hpos hk ht =>
      refine hs.congr (fun _ _ hfd hi => ⟨hfd, hi⟩) rfl ?_
      intro fd' id _ _
      -- the announcement moves from the batch into a queue
      show _ ≤ announced fd' rest + owed (enqueue s.threads fd) fd'
      rw [ht, owed_enqueue hpos]
      by_cases hne : fd' = fd
      · rw [hne, announced_cons_self, if_pos rfl]
        omega
      · rw [announced_cons_other hne, if_neg hne]
        omega
  | ran os fd rest tm k hpos hk ht hit =>
      -- one announcement less, and one read done for it
      refine hs.turn hsound hin hr rfl hit ?_ ?_
      · rw [ht, announced_cons_self]
        omega
      · intro fd' hne
        apply Nat.le_of_eq
        rw [ht, announced_cons_other hne]
  | failed os fd rest e tm k hpos hk ht hit => exact absurd hit (iterate_benign hsound.owned hok)
  | idle k os hk hq => exact hs
  | served k os fd rest tm w hpos hk hq hit =>
      have hfd := hsound.routed.queue k fd (by rw [hq]; exact List.mem_cons_self)
      have howed := owed_setQueue hpos hq hfd
      refine hs.turn hsound hin hr (lookup_setQueue k rest) hit ?_ ?_
      · rw [howed, if_pos rfl]
        omega
      · intro fd' hne
        rw [howed, if_neg hne]
        omega

end Steps

/-! ## Runs -/

/-- **Nothing is stranded.** A connected client with no event pending, no entry in a queue and no batch under
    way has an empty receive buffer. -/
def Unstranded (s : Sys tc σ) : Prop :=
  ∀ fd id, s.kernel.fds fd = some id → (s.kernel.socks id).edge = false → s.tasks = [] →
    (∀ k, fd ∉ (s.threads k).queue) → (s.kernel.socks id).rx = []

/-- **No readable byte is stranded by the edge-triggered poller, as long as no burst needs more reads than
    there are notifications.** For `TCPConnection` and `SSLConnection`, every number of threads and every
    interleaving of arrivals, batches, dispatch and worker passes without a failing call. -/
theorem nothing_stranded (S : Setup σ) (hp : S.platform = .linux) (ls : List (Label tc)) (s : Sys tc σ)
    (hedge : Transition.AllSteps (Sys.step S) (EdgeTriggered S) (start S tc) ls)
    (hok : Transition.AllSteps (Sys.step S) (Faultless S) (start S tc) ls)
    (hreads : Transition.AllSteps (Sys.step S) (Allowed Reads) (start S tc) ls)
    (hpaced : Transition.AllSteps (Sys.step S) (Paced S) (start S tc) ls)
    (hrun : Transition.run (Sys.step S) (start S tc) ls = some s) : Unstranded s := by
  have hwin : S.platform ≠ .win32 := by
    rw [hp]
    simp
  have hstep : ∀ {a l b}, (Sound S a ∧ Batched a ∧ InStep a ∧ Kept S a) →
      (EdgeTriggered S a l ∧ Faultless S a l) ∧ (Allowed Reads a l ∧ Paced S a l) →
      (a : Sys tc σ).step S l = some b → Sound S b ∧ Batched b ∧ InStep b ∧ Kept S b := by
    rintro a l b ⟨hsound, hbatch, hin, hkept⟩ ⟨⟨he, hf⟩, hr, hpc⟩ hb
    exact ⟨sound_step hsound hb, batched_step hwin hsound hbatch hb,
      inStep_step hwin hsound hbatch hin hf hb, kept_step hp hsound hin hkept he hf hr hpc hb⟩
  have hstart : Kept S (start S tc) := by
    intro fd id hfd
    exact absurd hfd (by simp [start, Kernel.init])
  obtain ⟨_, _, hin, hkept⟩ := Transition.run_invariant_of hstep
    ⟨sound_start S, batched_of_nil rfl, inStep_start S, hstart⟩
    ((hedge.and hok).and (hreads.and hpaced)) hrun
  intro fd id hfd hquiet ht hq
  have hi : s.kernel.interest fd = true := by
    rw [hin.watch, hfd, ht]
    simp
  have hle := hkept fd id hfd hi
  unfold outstanding at hle
  have hnil : announced fd [] = 0 := rfl
  rw [hquiet, ht, owed_eq_zero hq, hnil, Bool.toNat_false] at hle
  exact Transport.readsNeeded_eq_zero (ordered_run hrun id).rx (Nat.le_zero.mp hle)

/-! ### Two records in one event -/

/-- What arrives, and what there is when a client is registered, is one read. -/
def OneRead (S : Setup σ) (s : Sys tc σ) : Label tc → Prop
  | .env (.arrive id n) =>
      S.transport.readsNeeded ((s.kernel.socks id).rx ++ [(s.kernel.socks id).wire.take n]) ≤ 1
  | .go _ => ∀ fd ∈ s.tasks.head?.bind Task.unwatched, ∀ id ∈ s.kernel.fds fd,
      S.transport.readsNeeded (s.kernel.socks id).rx ≤ 1
  | _ => True

instance (S : Setup σ) (s : Sys tc σ) (l : Label tc) : Decidable (OneRead S s l) :=
  match l with
  | .env (.arrive _ _) => inferInstanceAs (Decidable (_ ≤ _))
  | .env .connect => isTrue trivial
  | .env (.send _ _) => isTrue trivial
  | .env (.finish _) => isTrue trivial
  | .env (.reset _) => isTrue trivial
  | .go _ => inferInstanceAs (Decidable (∀ fd ∈ s.tasks.head?.bind Task.unwatched, _))
  | .wait _ => isTrue trivial
  | .worker _ _ => isTrue trivial

theorem paced_of_oneRead {S : Setup σ} {s : Sys tc σ} {l : Label tc} (h : OneRead S s l) : Paced S s l := by
  cases l with
  | env e =>
      cases e with
      | arrive id n =>
          intro fd _ _
          have hone : S.transport.readsNeeded _ ≤ 1 := h
          omega
      | connect => trivial
      | send id bs => trivial
      | finish id => trivial
      | reset id => trivial
  | go os =>
      intro fd rest id ht hfd
      have hone := h fd (by rw [ht]; rfl) id hfd
      omega
  | wait r => trivial
  | worker k os => trivial

/-- Two bytes in one record, read by the worker. -/
def oneRecord : List (Label (.count 1)) :=
  comesIn ++
    [.env (.send 0 [1, 2]), .env (.arrive 0 2), .wait (.ok [readable 5]), .go (Os.smooth 0),
      .worker ThreadCount.only (Os.smooth 0)]

/-- Two records before one `wait`. -/
def twoRecords : List (Label .single) :=
  comesIn ++
    [.env (.send 0 [1, 2]), .env (.arrive 0 1), .env (.arrive 0 1), .wait (.ok [readable 5]),
      .go (Os.smooth 0)]

/-- In `oneRecord` the record is read, and nothing is left. -/
theorem nothing_stranded_one_record :
    ∃ s, Transition.run (Sys.step (echoServer .linux .tls)) (start (echoServer .linux .tls) (.count 1))
        oneRecord = some s ∧
      (s.kernel.socks 0).reads = [[1, 2]] ∧ s.tasks = [] ∧ Unstranded s := by
  have hend : (Transition.run (Sys.step (echoServer .linux .tls)) (start (echoServer .linux .tls) (.count 1))
      oneRecord).map (fun s => ((s.kernel.socks 0).reads, s.tasks)) = some ([[1, 2]], []) := by
    decide +kernel
  obtain ⟨s, hrun, hs⟩ := Option.map_eq_some_iff.mp hend
  rw [Prod.mk.injEq] at hs
  refine ⟨s, hrun, hs.1, hs.2, nothing_stranded (echoServer .linux .tls) rfl oneRecord s ?_ ?_ ?_ ?_ hrun⟩
  · decide +kernel
  · apply faultless_of_smooth
    simp [oneRecord, comesIn]
  · decide +kernel
  · have hone : Transition.AllSteps (Sys.step (echoServer .linux .tls)) (OneRead (echoServer .linux .tls))
        (start (echoServer .linux .tls) (.count 1)) oneRecord := by
      decide +kernel
    exact hone.mono paced_of_oneRead

/-- **A byte is stranded.** In `twoRecords` the kernel keeps its promise and no call fails; the one event for
    the two records is handled by one `SSL_read`, and the second record stays in the buffer with no event
    pending. -/
theorem stranded_two_records :
    ∃ s, Transition.run (Sys.step (echoServer .linux .tls)) (start (echoServer .linux .tls) .single)
        twoRecords = some s ∧
      Transition.AllSteps (Sys.step (echoServer .linux .tls)) (EdgeTriggered (echoServer .linux .tls))
        (start (echoServer .linux .tls) .single) twoRecords ∧
      Transition.AllSteps (Sys.step (echoServer .linux .tls)) (Faultless (echoServer .linux .tls))
        (start (echoServer .linux .tls) .single) twoRecords ∧
      Transition.AllSteps (Sys.step (echoServer .linux .tls)) (Allowed Reads)
        (start (echoServer .linux .tls) .single) twoRecords ∧
      ¬ Unstranded s := by
  have hend : (Transition.run (Sys.step (echoServer .linux .tls)) (start (echoServer .linux .tls) .single)
      twoRecords).any (fun s => s.kernel.fds 5 = some 0 ∧ (s.kernel.socks 0).edge = false ∧ s.tasks = [] ∧
        (s.threads ⟨0, by decide⟩).queue = [] ∧ (s.kernel.socks 0).rx = [[2]]) = true := by
    decide +kernel
  obtain ⟨s, hrun, hs⟩ := (Option.any_eq_true _ _).mp hend
  obtain ⟨hfd, hedge, ht, hq, hrx⟩ := of_decide_eq_true hs
  refine ⟨s, hrun, by decide +kernel, ?_, by decide +kernel, ?_⟩
  · apply faultless_of_smooth
    simp [twoRecords, comesIn]
  · intro hall
    have hnone : ∀ k, (5 : SOCKET) ∉ (s.threads k).queue := by
      intro k
      have hk : k = ⟨0, by decide⟩ := Fin.ext (Nat.lt_one_iff.mp k.isLt)
      rw [hk, hq]
      exact List.not_mem_nil
    have hempty := hall 5 0 hfd hedge ht hnone
    rw [hrx] at hempty
    exact absurd hempty (by simp)

end Sys

end Neblina

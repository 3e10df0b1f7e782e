import Neblina.Server.Registration

/-!
# `Server.HangUp` — input sent before a hang-up

The Linux and BSD pollers test for the hang-up first: an event that says both "readable" and "the peer is
gone" becomes a `ClientDisconnected` and nothing else, and what is in the receive buffer goes with the
session. (The win32 poller reports the data before the disconnection.) `delivered_of_drained`: if the
kernel reports a hang-up only for clients whose buffer is empty, every byte that arrived has been read and
passed to the session when the session is removed; `not_delivered_send_close` is the run that loses a byte.
-/

namespace Neblina

open ThreadManager

variable {σ : Type} {tc : ThreadCount}

namespace Sys

/-- The fields are those of a session that was passed the pieces `reads`, besides empty ones. -/
def Passed (m : Machine σ) (reads : List Bytes) (fields : σ) : Prop :=
  ∃ ds : List Bytes, ds.filter (fun d => !d.isEmpty) = reads ∧
    fields = ds.foldl (fun self d => (m.onData self d).1) m.init

/-- What a read returned is passed to the session in the same turn. -/
theorem closed_passed (S : Setup σ) :
    Closed S (fun _ => True) (fun s self => s.Ordered ∧ Passed S.machine s.reads self) := by
  refine ⟨⟨Sock.ordered_empty, [], rfl, rfl⟩, ?_, ?_, ?_⟩
  · rintro s self edge ⟨hordered, hpassed⟩
    exact ⟨hordered.mark edge, hpassed⟩
  · rintro s s' self e hact ⟨hordered, hpassed⟩
    rw [(Sock.act_reads hact).1]
    exact ⟨hordered.act hact, hpassed⟩
  · rintro s self os _ ⟨hordered, ds, hds, hself⟩
    refine ⟨hordered.afterTurn S.machine os self, ds ++ [s.data S.transport os], ?_, ?_⟩
    · show _ = (s.afterRead S.transport os).reads
      rw [List.filter_append, hds]
      unfold Sock.data Sock.afterRead
      by_cases hread : os.recv = none ∧ s.rx ≠ []
      · rw [if_pos hread, if_pos hread]
        have hne := Transport.read_ne_nil S.transport hordered.rx hread.2
        simp [hne]
      · rw [if_neg hread, if_neg hread]
        simp
    · rw [List.foldl_append, ← hself]
      rfl

/-- At the end of the stream, with nothing left to read. -/
def Sock.over (s : Sock) : Prop := s.fin = true ∧ s.rx = []

/-- Nothing happens to a stream that is over. -/
theorem over_step {S : Setup σ} {s s' : Sock} (h : SockStep S s s') (hs : Sock.over s) : Sock.over s' := by
  cases h with
  | marked edge => exact hs
  | acted e _ hact =>
      have hfin : s.fin ≠ false := by
        rw [hs.1]
        simp
      rcases Sock.act_cases hact with ⟨_, _, _, hf, _⟩ | ⟨_, _, _, hf, _⟩ | ⟨_, _, hf, _⟩ | ⟨_, _, hf, _⟩
      · exact absurd hf hfin
      · exact absurd hf hfin
      · exact absurd hf hfin
      · exact absurd hf hfin
  | turned os self =>
      have hread : s.afterRead S.transport os = s := if_neg (fun hr => hr.2 hs.2)
      unfold Sock.afterTurn Sock.over
      rw [hread]
      exact hs

/-- The entry makes the poller report its client as disconnected. -/
def Gone (S : Setup σ) (e : PollEvent) : Prop :=
  Poller.classify S.platform e = some .clientDisconnected

instance (S : Setup σ) (e : PollEvent) : Decidable (Gone S e) := inferInstanceAs (Decidable (_ = _))

/-- `P` holds of the socket of every client that this step reports as disconnected. -/
def AtHangUp (S : Setup σ) (P : Sock → Prop) (s : Sys tc σ) : Label tc → Prop
  | .wait (.ok raw) => ∀ e ∈ raw, Gone S e →
      ∀ id ∈ s.kernel.fds e.fd, P (s.kernel.socks id)
  | _ => True

instance (S : Setup σ) (P : Sock → Prop) [DecidablePred P] (s : Sys tc σ) (l : Label tc) :
    Decidable (AtHangUp S P s l) :=
  match l with
  | .wait (.ok raw) => inferInstanceAs (Decidable (∀ e ∈ raw, _ → _))
  | .wait (.error _) => isTrue trivial
  | .env _ => isTrue trivial
  | .go _ => isTrue trivial
  | .worker _ _ => isTrue trivial

/-- The kernel's promise: a hang-up or an error is reported only when nothing can arrive any more. -/
abbrev Truthful (S : Setup σ) : Sys tc σ → Label tc → Prop := AtHangUp S (fun s => s.fin = true)

/-- A client's hang-up is reported only while its receive buffer is empty. -/
abbrev Drained (S : Setup σ) : Sys tc σ → Label tc → Prop := AtHangUp S (fun s => s.rx = [])

/-- **Input is not dropped.** When `iterate` calls `remove_session(fd)`, every byte that arrived for the
    session's client has been returned by `recv` and passed to the session. -/
def Delivered (S : Setup σ) (s : Sys tc σ) : Label tc → Prop
  | .go _ => ∀ fd rest x, s.tasks = .event ⟨.clientDisconnected, fd⟩ :: rest →
      lookup s.threads fd = some x →
      (s.kernel.socks x.conn.id).rx = [] ∧ Passed S.machine (s.kernel.socks x.conn.id).reads x.self
  | _ => True

/-- The clients whose disconnection is still to be handled are at the end of their streams. -/
def Ending (s : Sys tc σ) : Prop :=
  ∀ fd id, .event ⟨.clientDisconnected, fd⟩ ∈ s.tasks → s.kernel.fds fd = some id →
    Sock.over (s.kernel.socks id)

section Steps

variable {S : Setup σ} {s s' : Sys tc σ}

/-- A disconnection that is still to be handled was so before the step, for the same client, unless the
    step is the `wait` that reports it. -/
theorem disconnecting_before {l : Label tc} (hsound : Sound S s) (hbatch : Batched s) {fd : SOCKET}
    {id : Nat} (h : s.step S l = some s') (hwait : ∀ raw, l ≠ .wait (.ok raw))
    (hmem : .event ⟨.clientDisconnected, fd⟩ ∈ s'.tasks) (hid : s'.kernel.fds fd = some id) :
    .event ⟨.clientDisconnected, fd⟩ ∈ s.tasks ∧ s.kernel.fds fd = some id := by
  have hclient : ∀ {ts : List Task}, .event ⟨.clientDisconnected, fd⟩ ∈ ts →
      fd ∈ ts.filterMap Task.client := fun hin => List.mem_filterMap.mpr ⟨_, hin, rfl⟩
  have htail : ∀ {t rest}, s.tasks = t :: rest → .event ⟨.clientDisconnected, fd⟩ ∈ rest →
      .event ⟨.clientDisconnected, fd⟩ ∈ s.tasks := by
    intro t rest ht hin
    rw [ht]
    exact List.mem_cons_of_mem _ hin
  cases does_of_step hsound.routed h with
  | env e k he =>
      rcases Kernel.env_cases he with ⟨_, rfl⟩ | ⟨_, _, _, _, _, rfl⟩
      · exact ⟨hmem, hid⟩
      · exact ⟨hmem, hid⟩
  | waited raw ht hr => exact absurd rfl (hwait raw)
  | interrupted errno ht => exact ⟨hmem, hid⟩
  | waitFailed errno e ht he => exact absurd hmem List.not_mem_nil
  | admitted os fd0 fd' id' queue rest hpos ht ha hm hh =>
      rw [hsound.lookup_eq_none ha.closed] at hid
      rcases List.mem_cons.mp hmem with hhead | hrest
      · exact absurd hhead (by simp)
      · -- the new client's descriptor was closed, so it is another one
        have hne : fd ≠ fd' := ha.ne_of_open (hbatch.isOpen fd (hclient (htail ht hrest)))
        refine ⟨htail ht hrest, ?_⟩
        rw [← hid]
        exact (Function.update_of_ne hne _ _).symm
  | refused os fd0 rest e k ht he => exact absurd hmem List.not_mem_nil
  | registered os fd' rest k ht hadd =>
      rcases Poller.addClient_ok hadd with ⟨_, rfl⟩ | ⟨_, _, rfl⟩
      · exact ⟨htail ht hmem, hid⟩
      · exact ⟨htail ht hmem, hid⟩
  | unregistrable os fd' rest e ht hi => exact absurd hmem List.not_mem_nil
  | removed os fd' rest hpos ht => exact ⟨htail ht hmem, (destroy_opens S os _ _).1 hid⟩
  | queued os fd' rest hpos hk ht => exact ⟨htail ht hmem, hid⟩
  | ran os fd' rest tm k hpos hk ht hit =>
      rw [← (iterate_tables hsound.owned hit).fds]
      exact ⟨htail ht hmem, hid⟩
  | failed os fd' rest e tm k hpos hk ht hit => exact absurd hmem List.not_mem_nil
  | idle k os hk hq => exact ⟨hmem, hid⟩
  | served k os fd' rest tm w hpos hk hq hit =>
      rw [← (iterate_tables (hsound.popped hq).owned hit).fds]
      exact ⟨hmem, hid⟩

/-- A disconnection in a batch comes from an entry that says so. -/
theorem gone_of_event (hp : S.platform ≠ .win32) {raw : List PollEvent} {fd : SOCKET}
    (h : .event ⟨.clientDisconnected, fd⟩ ∈ (Poller.events S.platform S.serverFd raw).map Task.event) :
    ∃ e ∈ raw, e.fd = fd ∧ Gone S e := by
  obtain ⟨ev, hev, heq⟩ := List.mem_map.mp h
  cases heq
  obtain ⟨e, he, hcase⟩ := (Poller.mem_events_unix hp).mp hev
  rcases Poller.event_cases hcase with ⟨_, hnew⟩ | ⟨_, hfd, hclass⟩
  · exact absurd hnew (by simp)
  · exact ⟨e, he, hfd.symm, hclass⟩

/-- **A step that reports a hang-up only of drained clients keeps the disconnecting clients at their end.** -/
theorem ending_step (hp : S.platform ≠ .win32) {l : Label tc} (hsound : Sound S s) (hbatch : Batched s)
    (hs : Ending s) (hcond : Truthful S s l ∧ Drained S s l) (h : s.step S l = some s') : Ending s' := by
  intro fd id hmem hid
  by_cases hl : ∃ raw, l = .wait (.ok raw)
  · obtain ⟨raw, rfl⟩ := hl
    have hstep := sock_step hsound h id
    cases does_of_wait h with
    | waited _ ht hr =>
        obtain ⟨e, he, rfl, hgone⟩ := gone_of_event hp hmem
        change (Poller.afterWait S.platform S.serverFd raw s.kernel).fds e.fd = some id at hid
        rw [Poller.afterWait_fds] at hid
        exact over_step hstep ⟨hcond.1 e he hgone id hid, hcond.2 e he hgone id hid⟩
  · obtain ⟨hmem', hid'⟩ := disconnecting_before hsound hbatch h (fun raw hraw => hl ⟨raw, hraw⟩) hmem hid
    exact over_step (sock_step hsound h id) (hs fd id hmem' hid')

/-- **Input sent before a hang-up is not dropped, as long as hang-ups are reported of drained clients only.**
    For the Linux and the BSD poller, either kind of connection, every number of threads (`ThreadSingle`
    among them), every machine the sessions may be, every timing and whatever the OS returns. -/
theorem delivered_of_drained (S : Setup σ) (hp : S.platform ≠ .win32) (ls : List (Label tc))
    (htrue : Transition.AllSteps (Sys.step S) (Truthful S) (start S tc) ls)
    (hdrained : Transition.AllSteps (Sys.step S) (Drained S) (start S tc) ls) :
    Transition.AllSteps (Sys.step S) (Delivered S) (start S tc) ls := by
  have hstep : ∀ {a l b},
      (Sound S a ∧ Batched a ∧ Related S (fun s self => s.Ordered ∧ Passed S.machine s.reads self) a ∧
        Ending a) →
      Truthful S a l ∧ Drained S a l → (a : Sys tc σ).step S l = some b →
      Sound S b ∧ Batched b ∧ Related S (fun s self => s.Ordered ∧ Passed S.machine s.reads self) b ∧
        Ending b := by
    rintro a l b ⟨hsound, hbatch, hrel, hend⟩ hcond hb
    have hfree : Allowed (fun _ => True) a l := by
      cases l <;> trivial
    exact ⟨sound_step hsound hb, batched_step hp hsound hbatch hb,
      related_step (closed_passed S) hsound hrel hfree hb, ending_step hp hsound hbatch hend hcond hb⟩
  have hgoal : ∀ {a l},
      (Sound S a ∧ Batched a ∧ Related S (fun s self => s.Ordered ∧ Passed S.machine s.reads self) a ∧
        Ending a) →
      Truthful S a l ∧ Drained S a l → Delivered S (a : Sys tc σ) l := by
    rintro a l ⟨hsound, _, hrel, hend⟩ _
    cases l with
    | env e => trivial
    | wait r => trivial
    | worker k os => trivial
    | go os =>
        intro fd rest x ht hx
        obtain ⟨_, hopen⟩ := hsound.owned.of_lookup hx
        have hover := hend fd x.conn.id (by rw [ht]; exact List.mem_cons_self) hopen
        exact ⟨hover.2, (hrel.live fd x hx).2⟩
  refine Transition.AllSteps.of_invariant hstep hgoal ?_ (htrue.and hdrained)
  refine ⟨sound_start S, batched_of_nil rfl, related_start (closed_passed S), ?_⟩
  intro fd id hmem
  exact absurd hmem List.not_mem_nil

end Steps

/-! ### A client that sends and closes -/

/-- The client sends a byte and closes its side before the next `wait`. -/
def sendClose : List (Label .single) :=
  comesIn ++ [.env (.send 0 [1]), .env (.arrive 0 1), .env (.finish 0), .wait (.ok [ended 5])]

/-- The same client, with a `wait` between the byte and the end. -/
def sendWaitClose : List (Label .single) :=
  comesIn ++
    [.env (.send 0 [1]), .env (.arrive 0 1), .wait (.ok [readable 5]), .go (Os.smooth 0), .env (.finish 0),
      .wait (.ok [ended 5]), .go (Os.smooth 0)]

/-- In `sendWaitClose` the byte is read before the session is removed. -/
theorem delivered_of_drained_wait_between :
    Transition.AllSteps (Sys.step (echoServer .linux .tcp)) (Delivered (echoServer .linux .tcp))
      (start (echoServer .linux .tcp) .single) sendWaitClose ∧
    (Transition.run (Sys.step (echoServer .linux .tcp)) (start (echoServer .linux .tcp) .single)
      sendWaitClose).map (fun s => ((s.kernel.socks 0).reads, s.kernel.closes)) =
        some ([[1]], [(5, some 0)]) :=
  ⟨delivered_of_drained _ (by decide) _ (by decide +kernel) (by decide +kernel), by decide +kernel⟩

/-- A session whose client's byte is in the receive buffer is about to be removed. -/
theorem not_delivered_of_buffered {S : Setup σ} {ls : List (Label tc)} {os : Os}
    (h : (Transition.run (Sys.step S) (start S tc) ls).map (fun s =>
        (s.tasks, (lookup s.threads 5).map (fun x => x.conn.id), (s.kernel.socks 0).rx)) =
      some ([.event ⟨.clientDisconnected, 5⟩], some 0, [[1]])) :
    ¬ Transition.AllSteps (Sys.step S) (Delivered S) (start S tc) (ls ++ [.go os]) := by
  intro hall
  obtain ⟨s, hrun, hs⟩ := Option.map_eq_some_iff.mp h
  simp only [Prod.mk.injEq] at hs
  obtain ⟨htasks, hlook, hrx⟩ := hs
  obtain ⟨x, hx, hid⟩ := Option.map_eq_some_iff.mp hlook
  have hempty := (hall.at_step hrun 5 [] x htasks hx).1
  rw [hid, hrx] at hempty
  exact absurd hempty (by simp)

/-- **A byte that arrived is lost.** In `sendClose` the kernel keeps its promise, and on Linux as on BSD the
    session is removed while the byte is in the receive buffer. -/
theorem not_delivered_send_close :
    (Transition.AllSteps (Sys.step (echoServer .linux .tcp)) (Truthful (echoServer .linux .tcp))
        (start (echoServer .linux .tcp) .single) (sendClose ++ [.go (Os.smooth 0)]) ∧
      ¬ Transition.AllSteps (Sys.step (echoServer .linux .tcp)) (Delivered (echoServer .linux .tcp))
        (start (echoServer .linux .tcp) .single) (sendClose ++ [.go (Os.smooth 0)])) ∧
    (Transition.AllSteps (Sys.step (echoServer .bsd .tcp)) (Truthful (echoServer .bsd .tcp))
        (start (echoServer .bsd .tcp) .single) (sendClose ++ [.go (Os.smooth 0)]) ∧
      ¬ Transition.AllSteps (Sys.step (echoServer .bsd .tcp)) (Delivered (echoServer .bsd .tcp))
        (start (echoServer .bsd .tcp) .single) (sendClose ++ [.go (Os.smooth 0)])) := by
  refine ⟨⟨by decide +kernel, ?_⟩, by decide +kernel, ?_⟩
  · exact not_delivered_of_buffered (by decide +kernel)
  · exact not_delivered_of_buffered (by decide +kernel)

end Sys

end Neblina

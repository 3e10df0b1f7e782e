import Mathlib
import Neblina.Server.Edge
import Neblina.Server.Fault
import Neblina.Server.Lines

/-!
# `Server.Rest` — the server comes to rest, and then everybody is answered

The other modules say what never happens. This one is about what does: the poller, the event loop and the
workers have only so much to do (`load`) and get more only from the clients and the network
(`work_bounded`), and as long as there is something to do one of them can do it (`settles`). When nothing is
left, and the clients did not send faster than they were read, every client that is connected has been
answered (`answered_at_rest`).

`load` counts what is on its way to a session: a client in the backlog, a pending event of a socket, a task
of the batch, an entry of a queue. Each is turned into the next one and is worth more than it. That a `wait`
reports the listening socket is not paid for by the backlog, which stays as it is until the `accept`; it is
paid for by the batch that is not empty any more.
-/

namespace Neblina

open ThreadManager

variable {σ : Type} {tc : ThreadCount}

/-- What a task is worth. -/
def Task.weight : Task → Nat
  | .event ⟨.newClient, _⟩ => 0
  | .event _ => 2
  | .register _ => 3

/-- The event of the listening socket. -/
def Task.isNew : Task → Bool
  | .event ⟨.newClient, _⟩ => true
  | _ => false

/-- The sockets with an event pending. -/
def Kernel.pending (k : Kernel) : Nat := ∑ id ∈ Finset.range k.clients, (k.socks id).edge.toNat

/-- The entries of all queues. -/
def ThreadManager.queued (tm : ThreadManager tc σ) : Nat := ∑ k, (tm k).queue.length

namespace Sys

/-- What is on its way to a session. -/
def underWay (s : Sys tc σ) : Nat :=
  4 * s.kernel.backlog.length + 2 * s.kernel.pending + (s.tasks.map Task.weight).sum + s.threads.queued

/-- What the server has to do. -/
def load (s : Sys tc σ) : Nat := 2 * underWay s + if s.tasks = [] then 1 else 0

/-- The step does something: the kernel has something to report, the event loop goes on with its batch, or a
    worker has an entry to serve. -/
def busy (s : Sys tc σ) : Label tc → Bool
  | .wait (.ok raw) => !raw.isEmpty
  | .go _ => true
  | .worker k _ => !(s.threads k).queue.isEmpty
  | _ => false

/-- What an action of a client or of the network gives the server to do, at most. -/
def price : Label tc → Nat
  | .env .connect => 12
  | .env (.send _ _) => 0
  | .env _ => 4
  | _ => 0

/-- The clients and the network do nothing. -/
def Undisturbed (_ : Sys tc σ) : Label tc → Prop
  | .env _ => False
  | _ => True

theorem Undisturbed.price {s : Sys tc σ} {l : Label tc} (h : Undisturbed s l) : Sys.price l = 0 := by
  cases l with
  | env e => exact absurd h (fun h => h)
  | wait r => rfl
  | go os => rfl
  | worker k os => rfl

/-- The listening socket is reported only while there is somebody to accept. -/
def Listening (S : Setup σ) (s : Sys tc σ) : Label tc → Prop
  | .wait (.ok raw) => (∃ e ∈ raw, e.fd = S.serverFd) → s.kernel.backlog ≠ []
  | _ => True

instance (S : Setup σ) (s : Sys tc σ) (l : Label tc) : Decidable (Listening S s l) :=
  match l with
  | .wait (.ok raw) => inferInstanceAs (Decidable ((∃ e ∈ raw, _) → _))
  | .wait (.error _) => isTrue trivial
  | .env _ => isTrue trivial
  | .go _ => isTrue trivial
  | .worker _ _ => isTrue trivial

instance (s : Sys tc σ) (l : Label tc) : Decidable (Undisturbed s l) :=
  match l with
  | .env _ => isFalse id
  | .wait _ => isTrue trivial
  | .go _ => isTrue trivial
  | .worker _ _ => isTrue trivial

/-- The kernel keeps its promises, and no call fails. -/
def Proper (S : Setup σ) (s : Sys tc σ) (l : Label tc) : Prop :=
  EdgeTriggered S s l ∧ Listening S s l ∧ Faultless S s l ∧ Allowed Smooth s l

/-- There is nothing to do: no batch, nobody to accept, no entry in a queue, and no client of which the poller
    could report anything. -/
structure AtRest (s : Sys tc σ) : Prop where
  tasks   : s.tasks = []
  backlog : s.kernel.backlog = []
  queues  : ∀ k, (s.threads k).queue = []
  quiet   : ∀ fd id, s.kernel.fds fd = some id → (s.kernel.socks id).edge = true →
    (s.kernel.socks id).ready = false

end Sys

/-! ## What the parts are worth -/

theorem Kernel.pending_congr {k k' : Kernel} (hc : k'.clients = k.clients)
    (he : ∀ id, (k'.socks id).edge = (k.socks id).edge) : k'.pending = k.pending := by
  unfold pending
  rw [hc]
  simp only [he]

/-- One socket changes. -/
theorem Kernel.pending_setSock {k : Kernel} {id : Nat} (hid : id < k.clients) (s : Sock) :
    (k.setSock id s).pending + (k.socks id).edge.toNat = k.pending + s.edge.toNat := by
  have hin := Finset.mem_range.mpr hid
  have hsame : ∑ j ∈ (Finset.range k.clients).erase id, ((k.setSock id s).socks j).edge.toNat =
      ∑ j ∈ (Finset.range k.clients).erase id, (k.socks j).edge.toNat := by
    apply Finset.sum_congr rfl
    intro j hj
    rw [setSock_socks, Function.update_of_ne (Finset.ne_of_mem_erase hj)]
  have hold := Finset.add_sum_erase (Finset.range k.clients) (fun j => (k.socks j).edge.toNat) hin
  have hnew := Finset.add_sum_erase (Finset.range k.clients) (fun j => ((k.setSock id s).socks j).edge.toNat) hin
  simp only [setSock_socks, Function.update_self] at hnew hsame
  show (∑ j ∈ Finset.range k.clients, (Function.update k.socks id s j).edge.toNat) + _ =
    (∑ j ∈ Finset.range k.clients, (k.socks j).edge.toNat) + _
  omega

theorem ThreadManager.queued_congr {tm tm' : ThreadManager tc σ} (h : ∀ k, (tm' k).queue = (tm k).queue) :
    tm'.queued = tm.queued := by
  unfold queued
  simp only [h]

/-- A queue with another content, the others as they were. -/
theorem ThreadManager.queued_update (tm tm' : ThreadManager tc σ) (k : Fin tc.size)
    (h : ∀ j, j ≠ k → (tm' j).queue = (tm j).queue) :
    tm'.queued + (tm k).queue.length = tm.queued + (tm' k).queue.length := by
  unfold queued
  rw [← Finset.add_sum_erase _ _ (Finset.mem_univ k), ← Finset.add_sum_erase _ _ (Finset.mem_univ k)]
  have hrest : ∑ j ∈ Finset.univ.erase k, (tm' j).queue.length = ∑ j ∈ Finset.univ.erase k, (tm j).queue.length := by
    apply Finset.sum_congr rfl
    intro j hj
    rw [h j (Finset.ne_of_mem_erase hj)]
  omega

/-- A client is registered: its socket has at most one event more. -/
theorem Poller.pending_arm (fd : SOCKET) (k : Kernel) (interest : SOCKET → Bool) :
    Kernel.pending { k with interest := interest, socks := Poller.arm fd k } ≤ k.pending + 1 := by
  unfold Kernel.pending Poller.arm
  cases hfd : k.fds fd with
  | none => simp
  | some id₀ =>
      calc ∑ id ∈ Finset.range k.clients,
            (if some id₀ = some id then { k.socks id with edge := (k.socks id).ready } else k.socks id).edge.toNat
          ≤ ∑ id ∈ Finset.range k.clients, ((k.socks id).edge.toNat + if id = id₀ then 1 else 0) := by
            apply Finset.sum_le_sum
            intro id _
            by_cases hid : id = id₀
            · rw [if_pos (by rw [hid]), if_pos hid]
              exact Nat.le_trans (Bool.toNat_le _) (Nat.le_add_left _ _)
            · rw [if_neg (fun h => hid (Option.some.inj h).symm), if_neg hid]
              exact Nat.le_refl _
        _ ≤ ∑ id ∈ Finset.range k.clients, (k.socks id).edge.toNat + 1 := by
            rw [Finset.sum_add_distrib]
            apply Nat.add_le_add_left
            rw [Finset.sum_ite_eq']
            split <;> simp

/-- The entries of the clients. -/
def Poller.ofClients (serverFd : SOCKET) (raw : List PollEvent) : List PollEvent :=
  raw.filter (fun e => e.fd ≠ serverFd)

/-- The clients that are reported. -/
def Poller.reported (raw : List PollEvent) (k : Kernel) : Finset Nat :=
  (Finset.range k.clients).filter (fun id => raw.any (fun e => k.fds e.fd == some id) = true)

section Report

variable {k : Kernel} {serverFd : SOCKET} {raw : List PollEvent}

theorem Poller.mem_reported (hknown : ∀ fd id, k.fds fd = some id → id < k.clients) {id : Nat} :
    id ∈ Poller.reported raw k ↔ ∃ e ∈ raw, k.fds e.fd = some id := by
  unfold Poller.reported
  rw [Finset.mem_filter, Finset.mem_range]
  simp only [List.any_eq_true, beq_iff_eq]
  constructor
  · exact And.right
  · rintro ⟨e, he, hfd⟩
    exact ⟨hknown e.fd id hfd, e, he, hfd⟩

/-- The entries are about different descriptors, so about different clients. -/
theorem Poller.length_ofClients (hnodup : (raw.map PollEvent.fd).Nodup)
    (hdist : ∀ fd fd' id, k.fds fd = some id → k.fds fd' = some id → fd = fd')
    (hknown : ∀ fd id, k.fds fd = some id → id < k.clients)
    (hopen : ∀ e ∈ raw, e.fd ≠ serverFd → (k.fds e.fd).isSome) :
    (Poller.ofClients serverFd raw).length ≤ (Poller.reported raw k).card := by
  have hid : ∀ e ∈ Poller.ofClients serverFd raw, e ∈ raw ∧ k.fds e.fd = some ((k.fds e.fd).getD 0) := by
    intro e he
    obtain ⟨hraw, hne⟩ := List.mem_filter.mp he
    obtain ⟨id, hfd⟩ := Option.isSome_iff_exists.mp (hopen e hraw (of_decide_eq_true hne))
    exact ⟨hraw, by rw [hfd]; rfl⟩
  have hnd : ((Poller.ofClients serverFd raw).map (fun e => (k.fds e.fd).getD 0)).Nodup := by
    refine List.Nodup.map_on ?_ ((List.Nodup.of_map _ hnodup).filter _)
    intro e he e' he' heq
    have hfd := (hid e he).2
    rw [heq] at hfd
    exact List.inj_on_of_nodup_map hnodup (hid e he).1 (hid e' he').1 (hdist _ _ _ hfd (hid e' he').2)
  rw [← List.length_map (fun e => (k.fds e.fd).getD 0), ← List.toFinset_card_of_nodup hnd]
  apply Finset.card_le_card
  intro id hin
  obtain ⟨e, he, rfl⟩ := List.mem_map.mp (List.mem_toFinset.mp hin)
  exact (Poller.mem_reported hknown).mpr ⟨e, (hid e he).1, (hid e he).2⟩

/-- **What a `wait` reports is not pending any more.** -/
theorem Poller.pending_report (hnodup : (raw.map PollEvent.fd).Nodup)
    (hdist : ∀ fd fd' id, k.fds fd = some id → k.fds fd' = some id → fd = fd')
    (hknown : ∀ fd id, k.fds fd = some id → id < k.clients)
    (hopen : ∀ e ∈ raw, e.fd ≠ serverFd → (k.fds e.fd).isSome)
    (hedge : ∀ e ∈ raw, ∀ id ∈ k.fds e.fd, (k.socks id).edge = true) :
    (Poller.report raw k).pending + (Poller.ofClients serverFd raw).length ≤ k.pending := by
  have hlen := Poller.length_ofClients hnodup hdist hknown hopen
  have hone : ∑ id ∈ Poller.reported raw k, (k.socks id).edge.toNat = (Poller.reported raw k).card := by
    rw [Finset.card_eq_sum_ones]
    apply Finset.sum_congr rfl
    intro id hid
    obtain ⟨e, he, hfd⟩ := (Poller.mem_reported hknown).mp hid
    rw [hedge e he id hfd]
    rfl
  have hrest : (Poller.report raw k).pending =
      ∑ id ∈ Finset.range k.clients \ Poller.reported raw k, (k.socks id).edge.toNat := by
    unfold Kernel.pending Poller.reported
    rw [← Finset.filter_not, Finset.sum_filter]
    apply Finset.sum_congr rfl
    intro id _
    simp only [Poller.report]
    by_cases hid : raw.any (fun e => k.fds e.fd == some id) = true
    · rw [if_pos hid, if_neg (fun h => h hid)]
      rfl
    · rw [if_neg hid, if_pos hid]
  have hsub : Poller.reported raw k ⊆ Finset.range k.clients := Finset.filter_subset _ _
  have hsplit := Finset.sum_sdiff (f := fun id => (k.socks id).edge.toNat) hsub
  rw [hrest]
  unfold Kernel.pending
  omega

end Report

namespace Sys

section Steps

variable {S : Setup σ} {s s' : Sys tc σ}

/-- An iteration takes no entry, and its turn leaves the events as they are. -/
theorem worth_iterate {os : Os} {fd : SOCKET} {tm tm' : ThreadManager tc σ} {k k' : Kernel} (hown : Owned tm k)
    (h : ThreadManager.iterate (S.sessions os) fd (tm, k) = .ok () (tm', k')) :
    tm'.queued = tm.queued ∧ k'.pending = k.pending ∧ k'.backlog = k.backlog := by
  have htables := iterate_tables hown h
  refine ⟨?_, ?_, htables.backlog⟩
  · rcases iterate_turn hown h with ⟨_, rfl, _⟩ | ⟨x, _, _, _, rfl, _⟩
    · rfl
    · exact queued_congr (fun j => queue_setSelf _ _ j)
  · rcases iterate_turn hown h with ⟨_, _, rfl⟩ | ⟨x, _, _, _, _, rfl⟩
    · rfl
    · apply Kernel.pending_congr htables.clients
      intro id
      simp only [Kernel.setSock_socks]
      by_cases hid : id = x.conn.id
      · rw [hid, Function.update_self, Sock.edge_afterTurn]
      · rw [Function.update_of_ne hid]

/-- The events of a batch are worth what the entries of the clients were. -/
theorem weight_events (hp : S.platform = .linux) (raw : List PollEvent) :
    (((Poller.events S.platform S.serverFd raw).map Task.event).map Task.weight).sum ≤
      2 * (Poller.ofClients S.serverFd raw).length := by
  rw [hp]
  show (((raw.flatMap (fun e => (Poller.event Poller.Linux.classify S.serverFd e).toList)).map
    Task.event).map Task.weight).sum ≤ _
  induction raw with
  | nil => exact Nat.le_refl _
  | cons e raw ih =>
      rw [List.flatMap_cons, List.map_append, List.map_append, List.sum_append]
      unfold Poller.ofClients at ih ⊢
      by_cases hs : e.fd = S.serverFd
      · rw [List.filter_cons_of_neg (by simp [hs]), Poller.event, if_pos hs]
        simpa [Task.weight] using ih
      · rw [List.filter_cons_of_pos (by simp [hs]), Poller.event, if_neg hs, List.length_cons]
        have hone : ((((Poller.Linux.classify e).map (fun type => (⟨type, e.fd⟩ : Event))).toList.map
            Task.event).map Task.weight).sum ≤ 2 := by
          cases Poller.Linux.classify e with
          | none => simp
          | some type => cases type <;> simp [Task.weight]
        omega

/-- A batch that is reported is not empty: every entry is an event. -/
theorem events_ne_nil (hp : S.platform = .linux) (hs : Sound S s) {raw : List PollEvent}
    (hr : Poller.Reports S.platform S.serverFd s.kernel (.ok raw))
    (hedge : EdgeTriggered S s (.wait (.ok raw))) (hne : raw ≠ []) :
    (Poller.events S.platform S.serverFd raw).map Task.event ≠ [] := by
  obtain ⟨e, rest, rfl⟩ := List.exists_cons_of_ne_nil hne
  have hwin : S.platform ≠ .win32 := by
    rw [hp]
    simp
  have hev : ∃ ev, ev ∈ Poller.events S.platform S.serverFd (e :: rest) := by
    by_cases hserver : e.fd = S.serverFd
    · refine ⟨⟨.newClient, S.serverFd⟩, (Poller.mem_events_unix hwin).mpr ⟨e, List.mem_cons_self, ?_⟩⟩
      unfold Poller.event
      rw [if_pos hserver]
    · have hon := ((reports_unix hwin hr).2 e List.mem_cons_self).resolve_left hserver
      obtain ⟨id, hid⟩ := Option.isSome_iff_exists.mp (hs.watched e.fd hon)
      obtain ⟨_, _, hread, _⟩ := hedge e List.mem_cons_self hserver id hid
      rcases Poller.linux_classify hp hread with hgone | hdata
      · exact ⟨_, Poller.mem_events hp List.mem_cons_self hserver hgone⟩
      · exact ⟨_, Poller.mem_events hp List.mem_cons_self hserver hdata⟩
  obtain ⟨ev, hin⟩ := hev
  exact List.ne_nil_of_mem (List.mem_map_of_mem hin)

/-- A step that takes from what is under way may leave the batch empty. -/
theorem load_lt (h : underWay s' + 1 ≤ underWay s) : load s' + 1 ≤ load s := by
  unfold load
  split <;> split <;> omega

/-- A `wait` turns pending events into events of the batch. -/
theorem load_waited (hp : S.platform = .linux) (hs : Sound S s) {raw : List PollEvent} (ht : s.tasks = [])
    (hr : Poller.Reports S.platform S.serverFd s.kernel (.ok raw))
    (hedge : EdgeTriggered S s (.wait (.ok raw))) {calls : List PollerCall} :
    load { s with
      kernel := Poller.afterWait S.platform S.serverFd raw s.kernel
      tasks := (Poller.events S.platform S.serverFd raw).map .event
      calls := calls } + (!raw.isEmpty).toNat ≤ load s := by
  have hwin : S.platform ≠ .win32 := by
    rw [hp]
    simp
  obtain ⟨hnodup, hon⟩ := reports_unix hwin hr
  have hopen : ∀ e ∈ raw, e.fd ≠ S.serverFd → (s.kernel.fds e.fd).isSome :=
    fun e he hne => hs.watched e.fd ((hon e he).resolve_left hne)
  have hpending := Poller.pending_report hnodup hs.distinct (fun fd id h => (hs.known fd id h).1) hopen (by
    intro e he id hid
    have hne : e.fd ≠ S.serverFd := by
      intro heq
      rw [heq, hs.server] at hid
      exact absurd hid (by simp)
    exact (hedge e he hne id hid).1)
  have hsame : (Poller.afterWait S.platform S.serverFd raw s.kernel).pending =
      (Poller.report raw s.kernel).pending := by
    rw [hp]
    rfl
  have hweight := weight_events hp raw
  unfold load underWay
  simp only [ht, Poller.afterWait_backlog, hsame, List.map_nil, List.sum_nil, if_true]
  cases raw with
  | nil =>
      simp only [List.isEmpty_nil, Bool.not_true, Bool.toNat_false]
      split <;> omega
  | cons e rest =>
      have hne := events_ne_nil hp hs hr hedge (by simp)
      simp only [if_neg hne, List.isEmpty_cons, Bool.not_false, Bool.toNat_true]
      omega

/-- A client connects: it is in the backlog, and its socket may have something pending already. -/
theorem pending_connected (k : Kernel) :
    Kernel.pending { k with clients := k.clients + 1, backlog := k.backlog ++ [k.clients] } ≤ k.pending + 1 := by
  unfold Kernel.pending
  rw [Finset.sum_range_succ]
  exact Nat.add_le_add_left (Bool.toNat_le _) _

/-- What a client or the network does is worth its price. -/
theorem load_env {e : Env} {k : Kernel} (he : s.kernel.env S.transport e = some k) :
    load { s with kernel := k } ≤ load s + price (.env e : Label tc) := by
  rcases Kernel.env_cases he with ⟨rfl, rfl⟩ | ⟨id, sock, _, hlt, hact, rfl⟩
  · have hpend := pending_connected s.kernel
    unfold load underWay
    simp only [price, List.length_append, List.length_singleton]
    omega
  · have hpend := Kernel.pending_setSock hlt sock
    have hb : (s.kernel.setSock id sock).backlog = s.kernel.backlog := rfl
    have hone := Bool.toNat_le sock.edge
    unfold load underWay
    simp only [hb]
    rcases Sock.act_cases hact with ⟨_, _, rfl, _, rfl⟩ | ⟨_, _, rfl, _, _, _, rfl⟩ | ⟨_, rfl, _, _, rfl⟩ |
      ⟨_, rfl, _, rfl⟩
    · simp only [price] at *
      omega
    · simp only [price]
      omega
    · simp only [price]
      omega
    · simp only [price]
      omega

/-- **A step of the server does something that was to be done**, and only the clients and the network give it
    more to do. -/
theorem load_step (hp : S.platform = .linux) {l : Label tc} (hs : Sound S s) (hproper : Proper S s l)
    (h : s.step S l = some s') : load s' + (busy s l).toNat ≤ load s + price l := by
  obtain ⟨hedge, _, hok, _⟩ := hproper
  cases does_of_step hs.routed h with
  | env e k he => exact load_env he
  | waited raw ht hr => exact load_waited hp hs ht hr hedge
  | interrupted errno ht => exact Nat.le_refl _
  | waitFailed errno e ht he =>
      apply Nat.le_of_eq
      unfold load underWay
      simp [ht, busy, price]
  | admitted os fd0 fd id queue rest hpos ht ha hm hh =>
      apply load_lt
      rw [hs.lookup_eq_none ha.closed]
      have hq : (insert s.threads ⟨⟨fd, id⟩, S.machine.init⟩).queued = s.threads.queued :=
        queued_congr (queue_insert _)
      have hpend : (s.kernel.opened fd id queue).pending = s.kernel.pending := rfl
      have hb : s.kernel.backlog.length = queue.length + 1 := by
        rw [ha.backlog, List.length_cons]
      have hb' : (s.kernel.opened fd id queue).backlog = queue := rfl
      unfold underWay
      simp only [Thread.destroy, ht, hq, hpend, hb, hb', List.map_cons, List.sum_cons, Task.weight]
      omega
  | refused os fd0 rest e k ht he => exact (hok.not_refused he).elim
  | registered os fd rest k ht hadd =>
      rcases Poller.addClient_ok hadd with ⟨hw, _⟩ | ⟨_, _, rfl⟩
      · exact absurd (hp.symm.trans hw) (by simp)
      · apply load_lt
        have hpend := Poller.pending_arm fd s.kernel (Function.update s.kernel.interest fd true)
        unfold underWay
        simp only [ht, List.map_cons, List.sum_cons, Task.weight]
        omega
  | unregistrable os fd rest e ht hi => exact absurd hi (hs.not_registered ht)
  | removed os fd rest hpos ht =>
      apply load_lt
      have hq : (remove s.threads fd).queued = s.threads.queued := queued_congr queue_remove
      have htables : (Thread.destroy (S.sessions os) (lookup s.threads fd) s.kernel).pending = s.kernel.pending ∧
          (Thread.destroy (S.sessions os) (lookup s.threads fd) s.kernel).backlog = s.kernel.backlog := by
        cases lookup s.threads fd with
        | none => exact ⟨rfl, rfl⟩
        | some x => exact ⟨rfl, rfl⟩
      unfold underWay
      simp only [ht, hq, htables.1, htables.2, List.map_cons, List.sum_cons, Task.weight]
      omega
  | queued os fd rest hpos hk ht =>
      apply load_lt
      have hq : (enqueue s.threads fd).queued = s.threads.queued + 1 := by
        have hup := queued_update s.threads (enqueue s.threads fd) (index hpos fd) (by
          intro j hj
          rw [queue_enqueue, if_neg (fun he => hj (Fin.ext he.symm))])
        rw [queue_enqueue, if_pos (show fd % tc.size = (index hpos fd : Nat) from rfl), List.length_append,
          List.length_singleton] at hup
        omega
      unfold underWay
      simp only [ht, hq, List.map_cons, List.sum_cons, Task.weight]
      omega
  | ran os fd rest tm k hpos hk ht hit =>
      apply load_lt
      obtain ⟨hq, hpend, hb⟩ := worth_iterate hs.owned hit
      unfold underWay
      simp only [ht, hq, hpend, hb, List.map_cons, List.sum_cons, Task.weight]
      omega
  | failed os fd rest e tm k hpos hk ht hit => exact absurd hit (iterate_benign hs.owned hok)
  | idle k os hk hq =>
      simp only [busy, hq, List.isEmpty_nil, Bool.not_true, Bool.toNat_false]
      exact Nat.le_refl _
  | served k os fd rest tm w hpos hk hq hit =>
      obtain ⟨hqueued, hpend, hb⟩ := worth_iterate (hs.popped hq).owned hit
      have hup := queued_update s.threads (setQueue s.threads k rest) k (by
        intro j hj
        rw [queue_setQueue, if_neg hj])
      rw [queue_setQueue, if_pos rfl, hq, List.length_cons] at hup
      simp only [busy, hq, List.isEmpty_cons, Bool.not_false, Bool.toNat_true]
      apply load_lt
      unfold underWay
      simp only [hqueued, hpend, hb]
      omega

/-! ## There is always a next step -/

/-- What makes the next step possible: somebody is in the backlog for every event of the listening socket, and
    without workers nothing is queued. -/
structure Poised (s : Sys tc σ) : Prop where
  awaited : s.tasks.countP Task.isNew ≤ s.kernel.backlog.length
  single  : tc.kind = .single → ∀ k, (s.threads k).queue = []

theorem poised_start (S : Setup σ) : Poised (start S tc) :=
  ⟨Nat.zero_le _, fun _ _ => rfl⟩

/-- Fewer tasks, and at least as many to accept. -/
theorem Poised.congr (hs : Poised s) (ht : s'.tasks.countP Task.isNew ≤ s.tasks.countP Task.isNew)
    (hb : s.kernel.backlog.length ≤ s'.kernel.backlog.length)
    (hq : tc.kind = .single → ∀ k, (s'.threads k).queue = (s.threads k).queue) : Poised s' := by
  refine ⟨Nat.le_trans ht (Nat.le_trans hs.awaited hb), ?_⟩
  intro hk k
  rw [hq hk]
  exact hs.single hk k

/-- A batch has at most one event of the listening socket. -/
theorem countP_events (hp : S.platform = .linux) {raw : List PollEvent}
    (hnodup : (raw.map PollEvent.fd).Nodup) :
    ((Poller.events S.platform S.serverFd raw).map Task.event).countP Task.isNew ≤ 1 ∧
      (0 < ((Poller.events S.platform S.serverFd raw).map Task.event).countP Task.isNew →
        ∃ e ∈ raw, e.fd = S.serverFd) := by
  have hcount : ((Poller.events S.platform S.serverFd raw).map Task.event).countP Task.isNew =
      (raw.map PollEvent.fd).count S.serverFd := by
    rw [hp]
    show ((raw.flatMap (fun e => (Poller.event Poller.Linux.classify S.serverFd e).toList)).map
      Task.event).countP Task.isNew = _
    clear hnodup
    induction raw with
    | nil => rfl
    | cons e raw ih =>
        rw [List.flatMap_cons, List.map_append, List.countP_append, ih, List.map_cons, List.count_cons]
        by_cases hs : e.fd = S.serverFd
        · rw [Poller.event, if_pos hs]
          simp [Task.isNew, hs, Nat.add_comm]
        · rw [Poller.event, if_neg hs]
          unfold Poller.Linux.classify
          split
          · simp [Task.isNew, hs]
          · split <;> simp [Task.isNew, hs]
  rw [hcount]
  refine ⟨List.nodup_iff_count_le_one.mp hnodup _, ?_⟩
  intro hpos
  obtain ⟨e, he, hfd⟩ := List.mem_map.mp (List.count_pos_iff.mp hpos)
  exact ⟨e, he, hfd⟩

theorem poised_step (hp : S.platform = .linux) {l : Label tc} (hsound : Sound S s) (hs : Poised s)
    (hlisten : Listening S s l) (hok : Faultless S s l) (h : s.step S l = some s') : Poised s' := by
  have hnone : ∀ {s'' : Sys tc σ}, s''.tasks = [] → s''.tasks.countP Task.isNew ≤ s.tasks.countP Task.isNew := by
    intro s'' h''
    rw [h'']
    exact Nat.zero_le _
  have hrest : ∀ {t rest}, s.tasks = t :: rest → rest.countP Task.isNew ≤ s.tasks.countP Task.isNew := by
    intro t rest ht
    rw [ht, List.countP_cons]
    exact Nat.le_add_right _ _
  cases does_of_step hsound.routed h with
  | env e k he =>
      refine hs.congr (Nat.le_refl _) ?_ (fun _ _ => rfl)
      rcases Kernel.env_cases he with ⟨_, rfl⟩ | ⟨id, sock, _, _, _, rfl⟩
      · simp
      · exact Nat.le_refl _
  | waited raw ht hr =>
      have hwin : S.platform ≠ .win32 := by
        rw [hp]
        simp
      obtain ⟨hone, hnew⟩ := countP_events (S := S) hp (reports_unix hwin hr).1
      refine ⟨?_, hs.single⟩
      rw [Poller.afterWait_backlog]
      by_cases hzero : 0 < ((Poller.events S.platform S.serverFd raw).map Task.event).countP Task.isNew
      · have hpos := List.length_pos_iff.mpr (hlisten (hnew hzero))
        exact Nat.le_trans hone hpos
      · exact Nat.le_trans (Nat.le_of_not_lt hzero) (Nat.zero_le _)
  | interrupted errno ht => exact ⟨hs.awaited, hs.single⟩
  | waitFailed errno e ht he => exact hs.congr (hnone rfl) (Nat.le_refl _) (fun _ _ => rfl)
  | admitted os fd0 fd id queue rest hpos ht ha hm hh =>
      have hold := hs.awaited
      rw [ht, ha.backlog, List.countP_cons_of_pos rfl, List.length_cons] at hold
      rw [hsound.lookup_eq_none ha.closed]
      refine ⟨?_, fun hk k => by rw [queue_insert]; exact hs.single hk k⟩
      show rest.countP Task.isNew ≤ queue.length
      omega
  | refused os fd0 rest e k ht he => exact (hok.not_refused he).elim
  | registered os fd rest k ht hadd =>
      refine hs.congr (hrest ht) ?_ (fun _ _ => rfl)
      rcases Poller.addClient_ok hadd with ⟨_, rfl⟩ | ⟨_, _, rfl⟩
      · exact Nat.le_refl _
      · exact Nat.le_refl _
  | unregistrable os fd rest e ht hi => exact hs.congr (hnone rfl) (Nat.le_refl _) (fun _ _ => rfl)
  | removed os fd rest hpos ht =>
      refine hs.congr (hrest ht) ?_ (fun _ k => queue_remove k)
      show _ ≤ (Thread.destroy (S.sessions os) (lookup s.threads fd) s.kernel).backlog.length
      cases lookup s.threads fd with
      | none => exact Nat.le_refl _
      | some x => exact Nat.le_refl _
  | queued os fd rest hpos hk ht =>
      exact hs.congr (hrest ht) (Nat.le_refl _) (fun hk' => absurd (hk.symm.trans hk') (by simp))
  | ran os fd rest tm k hpos hk ht hit =>
      refine hs.congr (hrest ht) ?_ (fun _ j => ?_)
      · exact Nat.le_of_eq (congrArg List.length (iterate_tables hsound.owned hit).backlog).symm
      · rcases iterate_turn hsound.owned hit with ⟨_, rfl, _⟩ | ⟨x, _, _, _, rfl, _⟩
        · rfl
        · exact queue_setSelf _ _ j
  | failed os fd rest e tm k hpos hk ht hit => exact absurd hit (iterate_benign hsound.owned hok)
  | idle k os hk hq => exact hs
  | served k os fd rest tm w hpos hk hq hit =>
      refine hs.congr (Nat.le_refl _) ?_ (fun hk' => absurd (hk.symm.trans hk') (by simp))
      exact Nat.le_of_eq (congrArg List.length (iterate_tables (hsound.popped hq).owned hit).backlog).symm

/-- There is always a descriptor to give out. -/
theorem Sound.exists_closed (hs : Sound S s) : ∃ fd, fd ≠ S.serverFd ∧ s.kernel.fds fd = none := by
  by_contra hall
  have hopen : ∀ fd, fd ≠ S.serverFd → ∃ id, s.kernel.fds fd = some id := by
    intro fd hne
    cases hfd : s.kernel.fds fd with
    | none => exact absurd ⟨fd, hne, hfd⟩ hall
    | some id => exact ⟨id, rfl⟩
  -- more descriptors than clients, so two of them are open for the same one
  have hcard : (Finset.range s.kernel.clients).card <
      ((Finset.range (s.kernel.clients + 2)).erase S.serverFd).card := by
    have hle := Finset.pred_card_le_card_erase (s := Finset.range (s.kernel.clients + 2)) (a := S.serverFd)
    rw [Finset.card_range] at hle ⊢
    omega
  obtain ⟨fd, hfd, fd', hfd', hne, heq⟩ := Finset.exists_ne_map_eq_of_card_lt_of_maps_to hcard
    (f := fun fd => (s.kernel.fds fd).getD 0) (by
      intro fd hfd
      obtain ⟨id, hid⟩ := hopen fd (Finset.ne_of_mem_erase hfd)
      have hlt := (hs.known fd id hid).1
      simp [hid, hlt])
  obtain ⟨id, hid⟩ := hopen fd (Finset.ne_of_mem_erase hfd)
  obtain ⟨id', hid'⟩ := hopen fd' (Finset.ne_of_mem_erase hfd')
  simp only [hid, hid', Option.getD_some] at heq
  rw [heq] at hid
  exact hne (hs.distinct fd fd' id' hid hid')

/-- When no call fails, an iteration ends, and by itself. -/
theorem turn_smooth (S : Setup σ) (k : Kernel) (fd : SOCKET) (x : Session σ) :
    TurnReturns S k (Os.smooth fd) x ∧ TurnSpared S k (Os.smooth fd) x := by
  have hsend : ∀ rs, (Os.smooth fd).send ≠ some rs := by
    intro rs h
    exact absurd h (by simp [Os.smooth])
  exact ⟨fun _ rs h => absurd h (hsend rs), Or.inl rfl, fun rs h => absurd h (hsend rs)⟩

/-- The event loop can go on with its batch. -/
theorem go_enabled (hpos : 0 < tc.size) (hs : Sound S s) (hpoised : Poised s) (ht : s.tasks ≠ []) :
    ∃ fd, (s.step S (.go (Os.smooth fd))).isSome := by
  obtain ⟨fd, hother, hclosed⟩ := hs.exists_closed
  have hbenign := benign_smooth S fd
  have hgo : Returns S s (.go (Os.smooth fd)) ∧ Spared S s (.go (Os.smooth fd)) := by
    obtain ⟨task, rest, ht⟩ := List.exists_cons_of_ne_nil ht
    simp only [Returns, Spared, ht]
    cases task with
    | register fd' => exact ⟨trivial, hpos, trivial⟩
    | event ev =>
        obtain ⟨type, fd'⟩ := ev
        cases type with
        | clientDisconnected => exact ⟨trivial, hpos, trivial⟩
        | clientDataReady =>
            exact ⟨fun _ x _ => (turn_smooth S s.kernel fd x).1, hpos,
              fun _ x _ => (turn_smooth S s.kernel fd x).2⟩
        | newClient =>
            -- somebody is in the backlog, so `accept` returns
            have hsome := hpoised.awaited
            rw [ht, List.countP_cons_of_pos rfl] at hsome
            have hwaits := List.ne_nil_of_length_pos (Nat.lt_of_lt_of_le (Nat.succ_pos _) hsome)
            refine ⟨?_, hpos, hwaits, hbenign.accept, hbenign.fcntl, hbenign.handshake⟩
            intro fd'' hres
            have heq : fd = fd'' := by simpa [Os.smooth] using hres
            exact heq ▸ ⟨hother, hclosed⟩
  obtain ⟨s', hstep, _⟩ := step_of_spared hs (l := .go (Os.smooth fd)) ht hgo.1 hgo.2
  exact ⟨fd, by rw [hstep]; rfl⟩

/-- A worker can serve an entry of its queue. -/
theorem worker_enabled (hpos : 0 < tc.size) (hs : Sound S s) (hk : tc.kind = .multi) {k : Fin tc.size}
    (hq : (s.threads k).queue ≠ []) : (s.step S (.worker k (Os.smooth 0))).isSome := by
  obtain ⟨s', hstep, _⟩ := step_of_spared hs (l := .worker k (Os.smooth 0)) ⟨hk, hq⟩
    (fun _ x _ _ => (turn_smooth S s.kernel 0 x).1)
    ⟨hpos, fun _ x _ _ => (turn_smooth S s.kernel 0 x).2⟩
  rw [hstep]
  rfl

/-- A `wait` can report what there is. -/
theorem wait_enabled (hp : S.platform = .linux) (ht : s.tasks = []) (e : PollEvent)
    (he : e.fd = S.serverFd ∨ s.kernel.interest e.fd = true) : (s.step S (.wait (.ok [e]))).isSome := by
  have hr : Poller.Reports S.platform S.serverFd s.kernel (.ok [e]) := by
    rw [hp]
    exact ⟨List.nodup_singleton _, by simp [Poller.eventBufferSz], by simpa using he⟩
  simp only [step]
  rw [if_pos ⟨ht, hr⟩, Poller.wait_eq hr]
  rfl

/-- **The server is at rest, or there is something it can do.** -/
theorem moves_or_rests (hp : S.platform = .linux) (hpos : 0 < tc.size) (hs : Sound S s) (hin : InStep s)
    (hpoised : Poised s) :
    AtRest s ∨ ∃ l, busy s l = true ∧ Proper S s l ∧ Undisturbed s l ∧ (s.step S l).isSome := by
  by_cases ht : s.tasks = []
  · by_cases hb : s.kernel.backlog = []
    · by_cases hq : ∀ k, (s.threads k).queue = []
      · by_cases hquiet : ∀ fd id, s.kernel.fds fd = some id → (s.kernel.socks id).edge = true →
            (s.kernel.socks id).ready = false
        · exact Or.inl ⟨ht, hb, hq, hquiet⟩
        · -- the poller reports a client
          push Not at hquiet
          obtain ⟨fd, id, hfd, hedge, hready⟩ := hquiet
          right
          have hon : s.kernel.interest fd = true := by
            rw [hin.watch, hfd, ht]
            simp
          have hserver : fd ≠ S.serverFd := by
            rintro rfl
            rw [hs.server] at hfd
            exact absurd hfd (by simp)
          refine ⟨.wait (.ok [⟨fd, true, (s.kernel.socks id).fin, false, false, false⟩]), rfl,
            ⟨?_, ?_, trivial, trivial⟩, trivial, wait_enabled hp ht _ (Or.inr hon)⟩
          · intro e he _ id' hid'
            obtain rfl := List.mem_singleton.mp he
            obtain rfl := Option.some.inj (hfd.symm.trans hid')
            exact ⟨hedge, by simpa using hready, rfl, by simp⟩
          · rintro ⟨e, he, heq⟩
            obtain rfl := List.mem_singleton.mp he
            exact absurd heq hserver
      · -- a worker has something to serve
        push Not at hq
        obtain ⟨k, hk⟩ := hq
        have hmulti : tc.kind = .multi := by
          cases hkind : tc.kind with
          | multi => rfl
          | single => exact absurd (hpoised.single hkind k) hk
        refine Or.inr ⟨.worker k (Os.smooth 0), ?_, ⟨trivial, trivial, trivial, rfl, rfl⟩, trivial,
          worker_enabled hpos hs hmulti hk⟩
        simpa [busy] using hk
    · -- the poller reports the listening socket
      refine Or.inr ⟨.wait (.ok [⟨S.serverFd, true, false, false, false, false⟩]), rfl,
        ⟨?_, fun _ => hb, trivial, trivial⟩, trivial, wait_enabled hp ht _ (Or.inl rfl)⟩
      intro e he hne
      obtain rfl := List.mem_singleton.mp he
      exact absurd rfl hne
  · obtain ⟨fd, hgo⟩ := go_enabled hpos hs hpoised ht
    exact Or.inr ⟨.go (Os.smooth fd), rfl, ⟨trivial, trivial, benign_smooth S fd, rfl, rfl⟩, trivial, hgo⟩

end Steps

/-! ## Runs -/

section Runs

variable {S : Setup σ} {ls ms : List (Label tc)} {s t : Sys tc σ}

/-- What the steps of a proper run keep. -/
def Served (S : Setup σ) (s : Sys tc σ) : Prop := Sound S s ∧ Batched s ∧ InStep s ∧ Poised s

/-- A write that takes everything comes after a read that does not fail. -/
theorem reads_of_smooth {l : Label tc} (h : Allowed Smooth s l) : Allowed Reads s l := by
  cases l with
  | env e => trivial
  | wait r => trivial
  | go os => exact h.1
  | worker k os => exact h.1

theorem served_step (hp : S.platform = .linux) {l : Label tc} (hs : Served S s) (hproper : Proper S s l)
    (h : s.step S l = some t) : Served S t := by
  obtain ⟨hsound, hbatch, hin, hpoised⟩ := hs
  obtain ⟨_, hlisten, hok, _⟩ := hproper
  have hwin : S.platform ≠ .win32 := by
    rw [hp]
    simp
  exact ⟨sound_step hsound h, batched_step hwin hsound hbatch h, inStep_step hwin hsound hbatch hin hok h,
    poised_step hp hsound hpoised hlisten hok h⟩

theorem served_start (S : Setup σ) : Served S (start S tc) :=
  ⟨sound_start S, batched_of_nil rfl, inStep_start S, poised_start S⟩

/-- **The server does not spin.** With the edge-triggered poller, in every run without failing calls, for
    `TCPConnection` and `SSLConnection` and every number of threads: the steps of the event loop and of the
    workers that do something, and what there is to do at the end, are paid for by what the clients and the
    network did: `12` for a connection, `4` for an arrival or an end of stream. -/
theorem work_bounded (S : Setup σ) (hp : S.platform = .linux) (ls : List (Label tc)) (s : Sys tc σ)
    (hls : Transition.AllSteps (Sys.step S) (Proper S) (start S tc) ls)
    (hrun : Transition.run (Sys.step S) (start S tc) ls = some s) :
    Transition.tally (Sys.step S) busy (start S tc) ls + load s ≤ 1 + (ls.map price).sum := by
  have hstep : ∀ (a : Sys tc σ) l b, Served S a → Proper S a l → a.step S l = some b →
      Served S b ∧ load b + (busy a l).toNat ≤ load a + price l :=
    fun a l b ha hl hb => ⟨served_step hp ha hl hb, load_step hp ha.1 hl hb⟩
  obtain ⟨_, htally⟩ := Transition.run_tally load busy price hstep (served_start S) hls hrun
  have hstart : load (start S tc) = 1 := by
    simp [load, underWay, start, Kernel.init, Kernel.pending, ThreadManager.queued, create, Thread.empty]
  omega

/-- **The server comes to rest.** With the edge-triggered poller, for `TCPConnection` and `SSLConnection` and
    every number of threads but zero: from every state that a run without failing calls leads to, once the clients and
    the network do nothing, the event loop and the workers take at most `load` steps that do something,
    however they interleave; and until the server is at rest, there is such a step. -/
theorem settles (S : Setup σ) (hp : S.platform = .linux) (hpos : 0 < tc.size) (ls ms : List (Label tc))
    (s t : Sys tc σ) (hls : Transition.AllSteps (Sys.step S) (Proper S) (start S tc) ls)
    (hrun : Transition.run (Sys.step S) (start S tc) ls = some s)
    (hms : Transition.AllSteps (Sys.step S) (fun s l => Proper S s l ∧ Undisturbed s l) s ms)
    (hcont : Transition.run (Sys.step S) s ms = some t) :
    Transition.tally (Sys.step S) busy s ms ≤ load s ∧
      (AtRest t ∨ ∃ l, busy t l = true ∧ Proper S t l ∧ Undisturbed t l ∧ (t.step S l).isSome) := by
  have hserved : Served S s :=
    Transition.run_invariant_of (fun hs hl h => served_step hp hs hl h) (served_start S) hls hrun
  have hstep : ∀ (a : Sys tc σ) l b, Served S a → Proper S a l ∧ Undisturbed a l → a.step S l = some b →
      Served S b ∧ load b + (busy a l).toNat ≤ load a := by
    intro a l b ha hl hb
    refine ⟨served_step hp ha hl.1 hb, ?_⟩
    have hload := load_step hp ha.1 hl.1 hb
    rwa [hl.2.price] at hload
  have hzero : (ms.map (fun _ => 0)).sum = 0 := by simp
  obtain ⟨⟨hsound, _, hin, hpoised⟩, htally⟩ :=
    Transition.run_tally load busy (fun _ => 0) hstep hserved hms hcont
  rw [hzero] at htally
  refine ⟨Nat.le_trans (Nat.le_add_left _ _) htally, ?_⟩
  exact moves_or_rests hp hpos hsound hin hpoised

/-- **At rest nothing is left to read**, if the clients did not send faster than they were read. -/
theorem rx_at_rest (hp : S.platform = .linux) (hproper : Transition.AllSteps (Sys.step S) (Proper S) (start S tc) ls)
    (hpaced : Transition.AllSteps (Sys.step S) (Paced S) (start S tc) ls)
    (hrun : Transition.run (Sys.step S) (start S tc) ls = some s) (hrest : AtRest s) {fd : SOCKET} {id : Nat}
    (hfd : s.kernel.fds fd = some id) : (s.kernel.socks id).rx = [] := by
  have hstart : Kept S (start S tc) := by
    intro fd id hfd
    exact absurd hfd (by simp [start, Kernel.init])
  have hstep : ∀ {a : Sys tc σ} {l b}, Served S a ∧ Kept S a → Proper S a l ∧ Paced S a l → a.step S l = some b →
      Served S b ∧ Kept S b := by
    rintro a l b ⟨hserved, hkept⟩ ⟨hl, hpc⟩ hb
    have hserved' := served_step hp hserved hl hb
    obtain ⟨hedge, _, hok, hsmooth⟩ := hl
    obtain ⟨hsound, _, hin, _⟩ := hserved
    exact ⟨hserved', kept_step hp hsound hin hkept hedge hok (reads_of_smooth hsmooth) hpc hb⟩
  have hkept := Transition.run_invariant_of hstep ⟨served_start S, hstart⟩ (hproper.and hpaced) hrun
  obtain ⟨⟨_, _, hin, _⟩, hkept⟩ := hkept
  cases hedge : (s.kernel.socks id).edge with
  | true =>
      -- an event that cannot be reported any more
      have hready := hrest.quiet fd id hfd hedge
      unfold Sock.ready at hready
      rw [Bool.or_eq_false_iff, Bool.not_eq_false', List.isEmpty_iff] at hready
      exact hready.1
  | false =>
      have hi : s.kernel.interest fd = true := by
        rw [hin.watch, hfd, hrest.tasks]
        simp
      have hle := hkept fd id hfd hi
      have hnone : ∀ k, fd ∉ (s.threads k).queue := by
        intro k
        rw [hrest.queues k]
        exact List.not_mem_nil
      have hnil : announced fd [] = 0 := rfl
      unfold outstanding at hle
      rw [hedge, hrest.tasks, owed_eq_zero hnone, hnil, Bool.toNat_false] at hle
      exact Transport.readsNeeded_eq_zero (ordered_run hrun id).rx (Nat.le_zero.mp hle)

end Runs

/-! ## Line sessions at rest -/

section Lines

open LineSession

/-- **At rest every client is answered.** For a server of line sessions, when the clients did not send faster
    than they were read: everything that arrived from a connected client has been read, all of it is in the
    lines that were passed to `process` and the `buffer_` of its session, and the client got the replies to
    these lines. -/
theorem answered_at_rest (S : Setup (LineState σ)) (hp : S.platform = .linux) (cfg : LineConfig)
    (hsep : cfg.separator ≠ []) (init : σ) (f : σ → Bytes → Bytes × σ) (hS : S.machine = Machine.line cfg init f)
    (ls : List (Label tc)) (s : Sys tc (LineState σ))
    (hproper : Transition.AllSteps (Sys.step S) (Proper S) (start S tc) ls)
    (hpaced : Transition.AllSteps (Sys.step S) (Paced S) (start S tc) ls)
    (hrun : Transition.run (Sys.step S) (start S tc) ls = some s) (hrest : AtRest s) (fd : SOCKET) (id : Nat)
    (hfd : s.kernel.fds fd = some id) :
    ∃ (arrived lost : Bytes) (own : LineState σ),
      (s.kernel.socks id).sent = arrived ++ ((s.kernel.socks id).wire ++ lost) ∧
      ((s.kernel.socks id).fin = false → lost = []) ∧ Conserved cfg arrived own.calls own.buffer ∧
      (s.kernel.socks id).tx = (replies f init own.calls).1.flatten ∧
      ∀ x, lookup s.threads fd = some x → x.conn.id = id → x.self = own := by
  have hsmooth := hproper.mono (fun h => h.2.2.2)
  obtain ⟨own, hown, honly⟩ := (related_run (closed_replied hS hsep) hsmooth hrun).owner (sound_run hrun) id
  have hrx := rx_at_rest hp hproper hpaced hrun hrest hfd
  obtain ⟨lost, hsent, hlost⟩ := hown.ordered.stream
  rw [hrx, List.flatten_nil, List.nil_append] at hsent
  exact ⟨_, lost, own, hsent, hlost, hown.kept, hown.tx, fun x => honly fd x⟩

/-- **At rest the load-test server has sent a line back.** With the edge-triggered poller, in a run in which no
    call fails and the clients did not send faster than they were read: a client that is connected and sent one
    line and not the end of its stream, and whose line has arrived, got exactly that line. -/
theorem mirrored_at_rest (S : Setup (LineState Unit)) (hp : S.platform = .linux) (hS : S.machine = LoadTest.echo)
    (ls : List (Label tc)) (s : Sys tc (LineState Unit))
    (hproper : Transition.AllSteps (Sys.step S) (Proper S) (start S tc) ls)
    (hpaced : Transition.AllSteps (Sys.step S) (Paced S) (start S tc) ls)
    (hrun : Transition.run (Sys.step S) (start S tc) ls = some s) (hrest : AtRest s) (fd : SOCKET) (id : Nat)
    (hfd : s.kernel.fds fd = some id) (w : Bytes) (hw : 10 ∉ w) (hsent : (s.kernel.socks id).sent = w ++ [10])
    (hwire : (s.kernel.socks id).wire = []) (hfin : (s.kernel.socks id).fin = false) :
    (s.kernel.socks id).tx = w ++ [10] := by
  have hsmooth := hproper.mono (fun h => h.2.2.2)
  obtain ⟨own, hown, _⟩ := (related_run (closed_replied hS (by simp)) hsmooth hrun).owner (sound_run hrun) id
  have hrx := rx_at_rest hp hproper hpaced hrun hrest hfd
  obtain ⟨lost, hstream, hlost⟩ := hown.ordered.stream
  rw [hrx, hwire, hlost hfin, List.flatten_nil, List.append_nil, List.append_nil, List.append_nil,
    hsent] at hstream
  exact hown.tx_of_line hw hstream.symm

/-! ### One line -/

/-- A client is taken in, and a line of it arrives. -/
def lineArrives : List (Label (.count 1)) :=
  comesIn ++ [.env (.send 0 [104, 105, 10]), .env (.arrive 0 3)]

/-- The line is reported, queued and served. -/
def lineServed : List (Label (.count 1)) :=
  [.wait (.ok [readable 5]), .go (Os.smooth 0), .worker ThreadCount.only (Os.smooth 0)]

/-- A run in which no call fails is a proper one, when the kernel keeps its promises. -/
theorem proper_of_smooth {τ : Type} {S : Setup τ} {s : Sys tc τ} {ls : List (Label tc)}
    (hedge : Transition.AllSteps (Sys.step S) (EdgeTriggered S) s ls)
    (hlisten : Transition.AllSteps (Sys.step S) (Listening S) s ls)
    (hsmooth : Transition.AllSteps (Sys.step S) (Allowed Smooth) s ls)
    (h : ∀ l ∈ ls, ∀ os, l = .go os → ∃ fd, os = Os.smooth fd) :
    Transition.AllSteps (Sys.step S) (Proper S) s ls := by
  have hok : Transition.AllSteps (Sys.step S) (Faultless S) s ls := by
    apply Transition.AllSteps.of_forall
    intro l hl s
    cases l with
    | go os =>
        obtain ⟨fd, rfl⟩ := h _ hl os rfl
        exact benign_smooth S fd
    | env e => trivial
    | wait r => trivial
    | worker k os => trivial
  exact (hedge.and (hlisten.and (hok.and hsmooth)))

/-- In `lineArrives` a connection and an arrival are paid for, and three steps have been taken. -/
theorem work_bounded_line_arrives :
    ∃ s, Transition.run (Sys.step (mirror .tcp)) (start (mirror .tcp) (.count 1)) lineArrives = some s ∧
      Transition.tally (Sys.step (mirror .tcp)) busy (start (mirror .tcp) (.count 1)) lineArrives = 3 ∧
      3 + load s ≤ 1 + (12 + 4) := by
  have hsome : (Transition.run (Sys.step (mirror .tcp)) (start (mirror .tcp) (.count 1)) lineArrives).isSome =
      true := by
    decide +kernel
  obtain ⟨s, hrun⟩ := Option.isSome_iff_exists.mp hsome
  have hthree : Transition.tally (Sys.step (mirror .tcp)) busy (start (mirror .tcp) (.count 1)) lineArrives = 3 := by
    decide +kernel
  have hprice : ((lineArrives).map price).sum = 12 + 4 := by decide
  have hbound := work_bounded (mirror .tcp) rfl lineArrives s (by
    apply proper_of_smooth (by decide +kernel) (by decide +kernel) (by decide +kernel)
    simp [lineArrives, comesIn]) hrun
  rw [hthree, hprice] at hbound
  exact ⟨s, hrun, hthree, hbound⟩

/-- The load-test server after `lineArrives`. -/
def lineArrived : Sys (.count 1) (LineState Unit) :=
  (Transition.run (Sys.step (mirror .tcp)) (start (mirror .tcp) (.count 1)) lineArrives).get (by decide +kernel)

/-- From there three steps do something, and `load` allows for them. -/
theorem settles_line_served :
    Transition.run (Sys.step (mirror .tcp)) (start (mirror .tcp) (.count 1)) lineArrives = some lineArrived ∧
      Transition.tally (Sys.step (mirror .tcp)) busy lineArrived lineServed = 3 ∧
      Transition.tally (Sys.step (mirror .tcp)) busy lineArrived lineServed ≤ load lineArrived := by
  have hrun : Transition.run (Sys.step (mirror .tcp)) (start (mirror .tcp) (.count 1)) lineArrives =
      some lineArrived := (Option.some_get _).symm
  have hcont : (Transition.run (Sys.step (mirror .tcp)) lineArrived lineServed).isSome = true := by
    decide +kernel
  obtain ⟨t, hcont⟩ := Option.isSome_iff_exists.mp hcont
  refine ⟨hrun, by decide +kernel, (settles (mirror .tcp) rfl (by decide) lineArrives lineServed _ t ?_ hrun ?_
    hcont).1⟩
  · apply proper_of_smooth (by decide +kernel) (by decide +kernel) (by decide +kernel)
    simp [lineArrives, comesIn]
  · refine Transition.AllSteps.and (proper_of_smooth (by decide +kernel) (by decide +kernel) (by decide +kernel) ?_)
      (by decide +kernel)
    simp [lineServed]

/-- What the two theorems on the server at rest ask of `lineArrives ++ lineServed`. -/
theorem line_at_rest :
    Transition.AllSteps (Sys.step (mirror .tcp)) (Proper (mirror .tcp)) (start (mirror .tcp) (.count 1))
        (lineArrives ++ lineServed) ∧
      Transition.AllSteps (Sys.step (mirror .tcp)) (Paced (mirror .tcp)) (start (mirror .tcp) (.count 1))
        (lineArrives ++ lineServed) ∧
      ∃ s, Transition.run (Sys.step (mirror .tcp)) (start (mirror .tcp) (.count 1)) (lineArrives ++ lineServed) =
          some s ∧
        AtRest s ∧ s.kernel.fds 5 = some 0 ∧ (s.kernel.socks 0).sent = [104, 105] ++ [10] ∧
          (s.kernel.socks 0).wire = [] ∧ (s.kernel.socks 0).fin = false ∧
          s.clientOf 5 = some (0, [[104, 105, 10]], []) := by
  have hpaced : Transition.AllSteps (Sys.step (mirror .tcp)) (OneRead (mirror .tcp))
      (start (mirror .tcp) (.count 1)) (lineArrives ++ lineServed) := by
    decide +kernel
  have hend : (Transition.run (Sys.step (mirror .tcp)) (start (mirror .tcp) (.count 1))
      (lineArrives ++ lineServed)).any (fun s => s.tasks = [] ∧ s.kernel.backlog = [] ∧
        (s.threads ThreadCount.only).queue = [] ∧ s.kernel.clients = 1 ∧ (s.kernel.socks 0).edge = false ∧
        s.kernel.fds 5 = some 0 ∧ (s.kernel.socks 0).sent = [104, 105] ++ [10] ∧
        (s.kernel.socks 0).wire = [] ∧ (s.kernel.socks 0).fin = false ∧
        s.clientOf 5 = some (0, [[104, 105, 10]], [])) = true := by
    decide +kernel
  obtain ⟨s, hrun, hs⟩ := (Option.any_eq_true _ _).mp hend
  obtain ⟨ht, hb, hq, hclients, hedge, hstate⟩ := of_decide_eq_true hs
  refine ⟨?_, hpaced.mono paced_of_oneRead, s, hrun, ⟨ht, hb, ?_, ?_⟩, hstate⟩
  · apply proper_of_smooth (by decide +kernel) (by decide +kernel) (by decide +kernel)
    simp [lineArrives, lineServed, comesIn]
  · intro k
    have hk : k = ThreadCount.only := Fin.ext (Nat.lt_one_iff.mp k.isLt)
    rw [hk]
    exact hq
  · -- there is one client, and nothing of it is pending
    intro fd id hfd hpending
    have hlt := ((sound_run hrun).known fd id hfd).1
    rw [hclients, Nat.lt_one_iff] at hlt
    rw [hlt, hedge] at hpending
    exact absurd hpending (by simp)

/-- The line is in the session, and the client has its reply. -/
theorem answered_at_rest_line :
    ∃ s x, Transition.run (Sys.step (mirror .tcp)) (start (mirror .tcp) (.count 1)) (lineArrives ++ lineServed) =
        some s ∧ lookup s.threads 5 = some x ∧ x.self.calls = [[104, 105, 10]] ∧ x.self.buffer = [] ∧
      Conserved ⟨[10], true⟩ [104, 105, 10] x.self.calls x.self.buffer ∧
      (s.kernel.socks 0).tx = [104, 105, 10] := by
  obtain ⟨hproper, hpaced, s, hrun, hrest, hfd, hsent, hwire, hfin, hsession⟩ := line_at_rest
  obtain ⟨x, hx, hid, hcalls, hbuffer⟩ := clientOf_eq_some hsession
  obtain ⟨arrived, lost, own, hstream, hlost, hkept, htx, honly⟩ :=
    answered_at_rest (mirror .tcp) rfl _ (by simp) () _ rfl _ s hproper hpaced hrun hrest 5 0 hfd
  have harrived : arrived = [104, 105, 10] := by
    rw [hsent, hwire, hlost hfin, List.nil_append, List.append_nil] at hstream
    exact hstream.symm
  rw [LoadTest.replies_echo, ← honly x hx hid, hcalls] at htx
  rw [harrived, ← honly x hx hid] at hkept
  exact ⟨s, x, hrun, hx, hcalls, hbuffer, hkept, htx⟩

/-- The client gets its line back. -/
theorem mirrored_at_rest_line :
    ∃ s, Transition.run (Sys.step (mirror .tcp)) (start (mirror .tcp) (.count 1)) (lineArrives ++ lineServed) =
        some s ∧
      (s.kernel.socks 0).tx = [104, 105] ++ [10] := by
  obtain ⟨hproper, hpaced, s, hrun, hrest, hfd, hsent, hwire, hfin, _⟩ := line_at_rest
  exact ⟨s, hrun, mirrored_at_rest (mirror .tcp) rfl rfl _ s hproper hpaced hrun hrest 5 0 hfd [104, 105]
    (by decide) hsent hwire hfin⟩

end Lines

end Sys

end Neblina

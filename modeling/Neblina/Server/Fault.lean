import Neblina.Server.Registration

/-!
# `Server.Fault` — a client whose calls fail

`recv` forgives `EAGAIN`; every other failure of `accept`, the handshake, `recv` and `send` is thrown, and
nothing between the call and the caller of `iterate` (or the start of the worker) catches it. The sessions,
the buffers and the registrations of the other clients survive that (`bystanders_step`, whatever the OS
returns); what is lost is the rest of the batch, or the whole process when a worker throws.

`harmless_iff_spared` is the exact condition, in every reachable state and for every event: handling a
client is harmless if and only if none of its own calls fails or goes on for good (an `accept` nobody waits
for, writes that never take what there is).
-/

namespace Neblina

open ThreadManager

variable {σ : Type} {tc : ThreadCount}

/-- The results `rs` are those of the writes that `send` makes with `out`. -/
def Used (rs : List SendResult) : Option Bytes → Prop
  | none => rs = []
  | some data => (sendLoop data rs 0 []).left = []

instance (rs : List SendResult) (out : Option Bytes) : Decidable (Used rs out) :=
  match out with
  | none => inferInstanceAs (Decidable (_ = _))
  | some _ => inferInstanceAs (Decidable (_ = _))

/-- No write fails, and together they take as many bytes as there are. -/
def Takes (rs : List SendResult) (out : Option Bytes) : Prop :=
  (∀ errno, .failed errno ∉ rs) ∧ ∀ data, out = some data → data.length ≤ total rs

/-- **A `send` returns if and only if none of its writes fails and they take what there is.** A write that
    takes nothing leaves the loop where it was. -/
theorem sendLoop_stop_eq_none {data : Bytes} {rs : List SendResult} :
    ∀ {pos : Nat} {done : Bytes}, (sendLoop data rs pos done).left = [] →
      ((sendLoop data rs pos done).stop = none ↔
        (∀ errno, .failed errno ∉ rs) ∧ data.length ≤ pos + total rs) := by
  intro pos done
  induction rs, pos, done using passes_rec data with
  | ended rs pos done h =>
      -- no result is left over, so there was none
      intro hleft
      rw [sendLoop_done h] at hleft ⊢
      rw [show rs = [] from hleft]
      refine iff_of_true rfl ⟨fun _ => List.not_mem_nil, ?_⟩
      exact Nat.le_of_not_lt h
  | out pos done h =>
      intro _
      rw [sendLoop_out h]
      refine iff_of_false (by simp) ?_
      rintro ⟨_, hle⟩
      exact Nat.not_le_of_lt h hle
  | failed errno rs pos done h =>
      intro _
      rw [sendLoop_failed h]
      refine iff_of_false (by simp) ?_
      rintro ⟨hall, _⟩
      exact hall errno List.mem_cons_self
  | accepted r rs pos done h ih =>
      intro hleft
      rw [sendLoop_accepted h] at hleft ⊢
      rw [ih hleft, total, Nat.add_assoc]
      simp

namespace Os

/-- No write of this step fails, and they take all of `out`. -/
def Writes (os : Os) (out : Option Bytes) : Prop := ∀ rs, os.send = some rs → Takes rs out

theorem sent_stop_eq_none {os : Os} {out : Option Bytes} (hused : ∀ rs, os.send = some rs → Used rs out) :
    (os.sent out).stop = none ↔ os.Writes out := by
  cases hsend : os.send with
  | none =>
      apply iff_of_true (Os.sent_whole hsend out).1
      intro rs hrs
      rw [hsend] at hrs
      exact absurd hrs (by simp)
  | some rs =>
      have hwrites : os.Writes out ↔ Takes rs out := by
        constructor
        · intro h
          exact h rs hsend
        · rintro h rs' hrs'
          rw [hsend, Option.some.injEq] at hrs'
          exact hrs' ▸ h
      have hin := hused rs hsend
      rw [hwrites]
      cases out with
      | none =>
          have hnil : rs = [] := hin
          rw [hnil]
          simp [Os.sent, Takes]
      | some data =>
          have hsent : os.sent (some data) = sendLoop data rs 0 [] := by
            show sendLoop data (Kernel.writes os true data) 0 [] = _
            unfold Kernel.writes
            rw [hsend]
            rfl
          rw [hsent, sendLoop_stop_eq_none hin, Nat.zero_add]
          simp [Takes]

end Os

namespace Sys

/-! ## The step and its client -/

/-- The descriptor of the client whose event, registration or queue entry the step handles; of a new client,
    the descriptor it gets. -/
def about (s : Sys tc σ) : Label tc → Option SOCKET
  | .go os =>
      match s.tasks with
      | .event ⟨.newClient, _⟩ :: _ =>
          match os.accept with
          | .accepted fd => some fd
          | .failed _ => none
      | t :: _ => t.client
      | [] => none
  | .worker k _ => (s.threads k).queue.head?
  | _ => none

/-- The step handles a client: it goes on with the batch, or it is a worker's pass with an entry to serve. -/
def Handles (s : Sys tc σ) : Label tc → Prop
  | .go _ => s.tasks ≠ []
  | .worker k _ => tc.kind = .multi ∧ (s.threads k).queue ≠ []
  | _ => False

instance (s : Sys tc σ) (l : Label tc) : Decidable (Handles s l) :=
  match l with
  | .go _ => inferInstanceAs (Decidable (_ ≠ _))
  | .worker _ _ => inferInstanceAs (Decidable (_ ∧ _))
  | .env _ => isFalse id
  | .wait _ => isFalse id

/-- What is left to do of the batch behind this step. -/
def remaining (s : Sys tc σ) : Label tc → List Task
  | .go _ => s.tasks.tail
  | _ => s.tasks

/-- The other clients' sessions, descriptors, registrations and receive buffers are as they were. -/
structure Bystanders (fd : Option SOCKET) (s s' : Sys tc σ) : Prop where
  session    : ∀ fd', fd ≠ some fd' → lookup s'.threads fd' = lookup s.threads fd'
  descriptor : ∀ fd', fd ≠ some fd' → s'.kernel.fds fd' = s.kernel.fds fd'
  interest   : ∀ fd', fd ≠ some fd' → s'.kernel.interest fd' = s.kernel.interest fd'
  table      : ∀ fd', fd ≠ some fd' → (fd' ∈ s'.kernel.table ↔ fd' ∈ s.kernel.table)
  socket     : ∀ id, (∀ fd', fd = some fd' → s.kernel.fds fd' ≠ some id) →
    s'.kernel.socks id = s.kernel.socks id

/-- **The step harms nobody else**: no exception leaves `iterate` or the worker, the rest of the batch is
    still to be handled, and the other clients are as they were. -/
def Harmless (S : Setup σ) (s : Sys tc σ) (l : Label tc) : Prop :=
  ∃ s', s.step S l = some s' ∧ s'.escaped = s.escaped ∧ remaining s l <:+ s'.tasks ∧
    Bystanders (about s l) s s'

/-! ## The other clients -/

section Bystanders

variable {S : Setup σ} {s s' : Sys tc σ}

/-- What leaves the sessions and the kernel as they are. -/
theorem Bystanders.of_same {fd : Option SOCKET} (hlook : lookup s'.threads = lookup s.threads)
    (hkernel : s'.kernel = s.kernel) : Bystanders fd s s' := by
  refine ⟨?_, ?_, ?_, ?_, ?_⟩
  all_goals
    intro _ _
    first
      | rw [hlook]
      | rw [hkernel]

/-- What changes entries of `fd` only. -/
theorem Bystanders.of_update {fd : SOCKET} {x : Option (Session σ)} {v : Option Nat} {b : Bool}
    (hlook : lookup s'.threads = Function.update (lookup s.threads) fd x)
    (hfds : s'.kernel.fds = Function.update s.kernel.fds fd v)
    (hinterest : s'.kernel.interest = Function.update s.kernel.interest fd b)
    (htable : s'.kernel.table = s.kernel.table) (hsocks : s'.kernel.socks = s.kernel.socks) :
    Bystanders (some fd) s s' := by
  have hother : ∀ {fd'}, (some fd : Option SOCKET) ≠ some fd' → fd' ≠ fd := by
    rintro fd' hne rfl
    exact hne rfl
  refine ⟨?_, ?_, ?_, ?_, ?_⟩
  · intro fd' hne
    rw [hlook, Function.update_of_ne (hother hne)]
  · intro fd' hne
    rw [hfds, Function.update_of_ne (hother hne)]
  · intro fd' hne
    rw [hinterest, Function.update_of_ne (hother hne)]
  · intro fd' _
    rw [htable]
  · intro id _
    rw [hsocks]

/-- An iteration, returned or thrown. -/
theorem Bystanders.of_turn {fd : SOCKET} {x : Session σ} {self : σ} {sock : Sock} (hpos : 0 < tc.size)
    (hopen : s.kernel.fds fd = some x.conn.id) {tm : ThreadManager tc σ}
    (hlook : lookup tm = lookup s.threads) (hthreads : s'.threads = setSelf tm fd x self)
    (hkernel : s'.kernel = s.kernel.setSock x.conn.id sock) : Bystanders (some fd) s s' := by
  have hk : Kernel.SameTables s.kernel s'.kernel := hkernel ▸ Kernel.sameTables_setSock _ _ _
  refine ⟨?_, ?_, ?_, ?_, ?_⟩
  · intro fd' hne
    have hfd : fd' ≠ fd := fun h => hne (by rw [h])
    rw [hthreads, lookup_setSelf hpos, Function.update_of_ne hfd, hlook]
  · intro fd' _
    rw [hk.fds]
  · intro fd' _
    rw [hk.interest]
  · intro fd' _
    rw [hk.table]
  · -- only the socket of the descriptor's own client changes
    intro id hid
    have hne : id ≠ x.conn.id := by
      rintro rfl
      exact hid fd rfl hopen
    rw [hkernel]
    exact Function.update_of_ne hne _ _

theorem about_event {os : Os} {type : EventType} {fd : SOCKET} {rest : List Task}
    (ht : s.tasks = .event ⟨type, fd⟩ :: rest) (hnew : type ≠ .newClient) : about s (.go os) = some fd := by
  unfold about
  rw [ht]
  cases type with
  | newClient => exact absurd rfl hnew
  | clientDataReady => rfl
  | clientDisconnected => rfl

theorem about_register {os : Os} {fd : SOCKET} {rest : List Task} (ht : s.tasks = .register fd :: rest) :
    about s (.go os) = some fd := by
  unfold about
  rw [ht]
  rfl

theorem about_accepted {os : Os} {fd0 fd : SOCKET} {rest : List Task}
    (ht : s.tasks = .event ⟨.newClient, fd0⟩ :: rest) (h : os.accept = .accepted fd) :
    about s (.go os) = some fd := by
  unfold about
  simp only [ht, h]

theorem about_worker {k : Fin tc.size} {os : Os} {fd : SOCKET} {rest : List SOCKET}
    (hq : (s.threads k).queue = fd :: rest) : about s (.worker k os) = some fd := by
  show (s.threads k).queue.head? = some fd
  rw [hq]
  rfl

/-- **The other clients are left alone by every step**, whatever the OS returns and whatever is thrown. -/
theorem bystanders_step {l : Label tc} (hsound : Sound S s) (hl : Handles s l)
    (h : s.step S l = some s') : Bystanders (about s l) s s' := by
  cases does_of_step hsound.routed h with
  -- the first four handle no client
  | env e k he => exact absurd hl (fun h => h)
  | waited raw ht hr => exact absurd hl (fun h => h)
  | interrupted errno ht => exact absurd hl (fun h => h)
  | waitFailed errno e ht he => exact absurd hl (fun h => h)
  | admitted os fd0 fd id queue rest hpos ht ha hm hh =>
      rw [about_accepted ht ha.result, hsound.lookup_eq_none ha.closed]
      exact Bystanders.of_update (lookup_insert hpos _) rfl (Function.update_eq_self fd _).symm rfl rfl
  | refused os fd0 rest e k ht he =>
      rcases he with ⟨rfl, _⟩ | ⟨fd, id, queue, ha, hcase⟩
      · exact Bystanders.of_same rfl rfl
      · rw [about_accepted ht ha.result]
        have hlook : lookup s.threads = Function.update (lookup s.threads) fd (lookup s.threads fd) :=
          (Function.update_eq_self fd _).symm
        rcases hcase with ⟨_, rfl⟩ | ⟨_, rfl⟩
        · exact Bystanders.of_update hlook rfl (Function.update_eq_self fd _).symm rfl rfl
        · -- opened and closed again
          refine Bystanders.of_update (v := none) hlook ?_ rfl rfl rfl
          show Function.update (Function.update s.kernel.fds fd (some id)) fd none = _
          rw [Function.update_idem]
  | registered os fd rest k ht hadd =>
      rw [about_register ht]
      have hother : ∀ {fd' : SOCKET}, some fd ≠ some fd' → fd' ≠ fd := fun hne he => hne (by rw [he])
      rcases Poller.addClient_ok hadd with ⟨_, rfl⟩ | ⟨_, _, rfl⟩
      · refine ⟨fun _ _ => rfl, fun _ _ => rfl, fun _ _ => rfl, ?_, fun _ _ => rfl⟩
        intro fd' hne
        show fd' ∈ s.kernel.table ++ [fd] ↔ _
        rw [List.mem_append, List.mem_singleton]
        exact or_iff_left (hother hne)
      · refine ⟨fun _ _ => rfl, fun _ _ => rfl, ?_, fun _ _ => Iff.rfl, ?_⟩
        · intro fd' hne
          exact Function.update_of_ne (hother hne) _ _
        · intro id hid
          show Poller.arm fd s.kernel id = _
          unfold Poller.arm
          rw [if_neg (hid fd rfl)]
  | unregistrable os fd rest e ht hi => exact Bystanders.of_same rfl rfl
  | removed os fd rest hpos ht =>
      rw [about_event ht (by simp)]
      cases hx : lookup s.threads fd with
      | none =>
          exact Bystanders.of_update (lookup_remove hpos) (Function.update_eq_self fd _).symm
            (Function.update_eq_self fd _).symm rfl rfl
      | some x =>
          obtain ⟨hfd, _⟩ := hsound.owned.of_lookup hx
          refine Bystanders.of_update (v := none) (b := false) (lookup_remove hpos) ?_ ?_ rfl rfl
          · rw [← hfd]
            rfl
          · rw [← hfd]
            rfl
  | queued os fd rest hpos hk ht => exact Bystanders.of_same lookup_enqueue rfl
  | ran os fd rest tm k hpos hk ht hit =>
      rw [about_event ht (by simp)]
      rcases iterate_turn hsound.owned hit with ⟨_, rfl, rfl⟩ | ⟨x, _, hopen, _, rfl, rfl⟩
      · exact Bystanders.of_same rfl rfl
      · exact Bystanders.of_turn hpos hopen rfl rfl rfl
  | failed os fd rest e tm k hpos hk ht hit =>
      rw [about_event ht (by simp)]
      obtain ⟨x, self, sock, _, hopen, rfl, rfl, _⟩ := iterate_threw hsound.owned hit
      exact Bystanders.of_turn hpos hopen rfl rfl rfl
  | idle k os hk hq => exact Bystanders.of_same rfl rfl
  | served k os fd rest tm w hpos hk hq hit =>
      rw [about_worker hq]
      have hlook : lookup (setQueue s.threads k rest) = lookup s.threads := lookup_setQueue k rest
      rcases iterate_turn (hsound.popped hq).owned hit with ⟨_, rfl, rfl⟩ | ⟨x, _, hopen, _, rfl, rfl⟩
      · exact Bystanders.of_same hlook rfl
      · exact Bystanders.of_turn hpos hopen hlook rfl rfl

end Bystanders

/-! ## When a step throws or does not come to an end -/

/-- What an iteration of `x` answers to what its read returns. -/
def reply (S : Setup σ) (k : Kernel) (os : Os) (x : Session σ) : Option Bytes :=
  (S.machine.onData x.self ((k.socks x.conn.id).data S.transport os)).2

/-- The results of the writes of an iteration of `x` are those of the writes it makes after its read. -/
def TurnReturns (S : Setup σ) (k : Kernel) (os : Os) (x : Session σ) : Prop :=
  Kernel.recvOk os → ∀ rs, os.send = some rs → Used rs (reply S k os x)

/-- The results are such as the calls of the step can return: `accept` gives out a descriptor that is not
    open, and there are no results but those of the writes made. -/
def Returns (S : Setup σ) (s : Sys tc σ) : Label tc → Prop
  | .go os =>
      match s.tasks with
      | .event ⟨.newClient, _⟩ :: _ =>
          ∀ fd, os.accept = .accepted fd → fd ≠ S.serverFd ∧ s.kernel.fds fd = none
      | .event ⟨.clientDataReady, fd⟩ :: _ =>
          tc.kind = .single → ∀ x, lookup s.threads fd = some x → TurnReturns S s.kernel os x
      | _ => True
  | .worker k os => ∀ fd x, (s.threads k).queue.head? = some fd → lookup s.threads fd = some x →
      TurnReturns S s.kernel os x
  | _ => True

/-- In an iteration the read does not fail (or only with `EAGAIN`), no write fails, and the writes take the
    whole answer. -/
def TurnSpared (S : Setup σ) (k : Kernel) (os : Os) (x : Session σ) : Prop :=
  Kernel.recvOk os ∧ os.Writes (reply S k os x)

/-- **None of the client's own calls fails or goes on for good.** There is a thread; a new client waits and
    is accepted, its socket made non-blocking, and its handshake leaves no error; in an iteration the read
    does not fail (or only with `EAGAIN`), no write fails, and the writes take the whole answer. -/
def Spared (S : Setup σ) (s : Sys tc σ) (l : Label tc) : Prop :=
  0 < tc.size ∧
    match l with
    | .go os =>
        match s.tasks with
        | .event ⟨.newClient, _⟩ :: _ =>
            s.kernel.backlog ≠ [] ∧ (∀ errno, os.accept ≠ .failed errno) ∧
              socketMarkAsNonblocking S.platform os.fcntl = none ∧
              Server.handshakeError S.transport os = none
        | .event ⟨.clientDataReady, fd⟩ :: _ =>
            tc.kind = .single → ∀ x, lookup s.threads fd = some x → TurnSpared S s.kernel os x
        | _ => True
    | .worker k os => ∀ fd x, (s.threads k).queue.head? = some fd → lookup s.threads fd = some x →
        TurnSpared S s.kernel os x
    | _ => True

section Throws

variable {S : Setup σ} {s : Sys tc σ} {os : Os} {fd : SOCKET} {tm : ThreadManager tc σ} {k : Kernel}

/-- **An iteration returns if and only if none of its calls fails and its writes take the answer.** -/
theorem iterate_ok_iff {x : Session σ} (hown : Owned tm k) (hx : lookup tm fd = some x)
    (hret : TurnReturns S k os x) :
    (∃ r, ThreadManager.iterate (S.sessions os) fd (tm, k) = .ok () r) ↔ TurnSpared S k os x := by
  have hconn := hown.conn_open hx
  have hit : ∀ r, (S.sessions os).iteration x.conn (x.self, k) = r →
      ((∃ r', ThreadManager.iterate (S.sessions os) fd (tm, k) = .ok () r') ↔ ∃ r', r = .ok () r') := by
    intro r hr
    unfold ThreadManager.iterate
    simp only [hx]
    rw [hr]
    cases r with
    | ok a r' => exact iff_of_true ⟨_, rfl⟩ ⟨r', rfl⟩
    | error e r' => exact iff_of_false (by rintro ⟨_, h⟩; cases h) (by rintro ⟨_, h⟩; cases h)
  by_cases hrecv : Kernel.recvOk os
  · rw [hit _ (Kernel.iteration_eq S.machine x.self hconn hrecv)]
    have hstop := Os.sent_stop_eq_none (hret hrecv)
    unfold reply at hstop
    cases hcase : (os.sent (S.machine.onData x.self ((k.socks x.conn.id).data S.transport os)).2).stop with
    | none =>
        rw [hcase] at hstop
        exact iff_of_true ⟨_, rfl⟩ ⟨hrecv, hstop.mp rfl⟩
    | some e =>
        rw [hcase] at hstop
        refine iff_of_false (by rintro ⟨_, h⟩; cases h) ?_
        intro hspared
        exact absurd (hstop.mpr hspared.2) (by simp)
  · refine iff_of_false ?_ (fun hspared => hrecv hspared.1)
    obtain ⟨errno, hr, hne⟩ := Kernel.recv_of_not_recvOk hrecv
    rw [hit _ (Kernel.iteration_fails S.machine x.self hconn hr hne)]
    rintro ⟨_, h⟩
    cases h

theorem pos_of_conns {c : Connection} (h : conns tm fd = some c) : 0 < tc.size := by
  by_cases hpos : 0 < tc.size
  · exact hpos
  · have hnone : lookup tm fd = none := dif_neg hpos
    rw [conns_eq_none hnone] at h
    exact absurd h (by simp)

/-- An exception that left `iterate` is seen. -/
theorem escaped_ne (es : List Abrupt) (e : Abrupt) : es ++ [e] ≠ es := by
  intro h
  have hlen := congrArg List.length h
  rw [List.length_append] at hlen
  simp at hlen

/-- A step that harms nobody else had no failing call and none that goes on for good. -/
theorem spared_of_harmless {l : Label tc} (hsound : Sound S s) (hl : Handles s l) (hret : Returns S s l)
    (h : Harmless S s l) : Spared S s l := by
  obtain ⟨s', hstep, hesc, _, _⟩ := h
  cases does_of_step hsound.routed hstep with
  | env e k he => exact absurd hl (fun h => h)
  | waited raw ht hr => exact absurd hl (fun h => h)
  | interrupted errno ht => exact absurd hl (fun h => h)
  | waitFailed errno e ht he => exact absurd hl (fun h => h)
  | admitted os fd0 fd id queue rest hpos ht ha hm hh =>
      refine ⟨hpos, ?_⟩
      simp only [ht]
      refine ⟨?_, ?_, hm, hh⟩
      · rw [ha.backlog]
        simp
      · intro errno herr
        rw [ha.result] at herr
        exact absurd herr (by simp)
  | refused os fd0 rest e k ht he => exact absurd hesc (escaped_ne _ _)
  | registered os fd rest k ht hadd =>
      obtain ⟨c, hc⟩ := Option.isSome_iff_exists.mp (hsound.joining fd rest ht).1
      refine ⟨pos_of_conns hc, ?_⟩
      simp only [ht]
  | unregistrable os fd rest e ht hi => exact absurd hesc (escaped_ne _ _)
  | removed os fd rest hpos ht =>
      refine ⟨hpos, ?_⟩
      simp only [ht]
  | queued os fd rest hpos hk ht =>
      refine ⟨hpos, ?_⟩
      simp only [ht]
      intro hsingle
      exact absurd (hk.symm.trans hsingle) (by simp)
  | ran os fd rest tm k hpos hk ht hit =>
      refine ⟨hpos, ?_⟩
      simp only [Returns, ht] at hret
      simp only [ht]
      intro hsingle x hx
      exact (iterate_ok_iff hsound.owned hx (hret hsingle x hx)).mp ⟨_, hit⟩
  | failed os fd rest e tm k hpos hk ht hit => exact absurd hesc (escaped_ne _ _)
  | idle k os hk hq => exact absurd hq hl.2
  | served k os fd rest tm w hpos hk hq hit =>
      refine ⟨hpos, ?_⟩
      intro fd' x hhead hx
      have hturn : TurnReturns S s.kernel os x := hret fd' x hhead hx
      rw [hq, List.head?_cons, Option.some.injEq] at hhead
      subst hhead
      have hx' : lookup (setQueue s.threads k rest) fd = some x := by
        rw [lookup_setQueue]
        exact hx
      exact (iterate_ok_iff (hsound.popped hq).owned hx' hturn).mp ⟨_, hit⟩

/-- An iteration without a failing call returns, with or without a session. -/
theorem iterate_returns (hown : Owned tm k) (hret : ∀ x, lookup tm fd = some x → TurnReturns S k os x)
    (hspared : ∀ x, lookup tm fd = some x → TurnSpared S k os x) :
    ∃ r, ThreadManager.iterate (S.sessions os) fd (tm, k) = .ok () r := by
  cases hx : lookup tm fd with
  | none =>
      refine ⟨(tm, k), ?_⟩
      unfold ThreadManager.iterate
      simp only [hx]
  | some x => exact (iterate_ok_iff hown hx (hret x hx)).mpr (hspared x hx)

/-- A step without a failing call goes through. -/
theorem step_of_spared {l : Label tc} (hsound : Sound S s) (hl : Handles s l) (hret : Returns S s l)
    (h : Spared S s l) :
    ∃ s', s.step S l = some s' ∧ s'.escaped = s.escaped ∧ remaining s l <:+ s'.tasks := by
  obtain ⟨hpos, hcond⟩ := h
  cases l with
  | env e => exact absurd hl (fun h => h)
  | wait r => exact absurd hl (fun h => h)
  | go os =>
      cases ht : s.tasks with
      | nil => exact absurd ht hl
      | cons task rest =>
          have hrem : remaining s (.go os) = rest := by
            show s.tasks.tail = rest
            rw [ht]
            rfl
          rw [hrem]
          simp only [step, ht]
          simp only [Returns, ht] at hret
          simp only [ht] at hcond
          cases task with
          | register fd =>
              -- the descriptor was not registered, so `add_client` does not throw
              cases hadd : Poller.addClient S.platform fd s.kernel with
              | error e k =>
                  exact absurd (Poller.addClient_error hadd).1 (hsound.not_registered ht)
              | ok a k =>
                  simp only [go, Effect.onSnd_of_ok hadd]
                  exact ⟨_, rfl, rfl, List.suffix_refl _⟩
          | event ev =>
              obtain ⟨type, fd⟩ := ev
              cases type with
              | newClient =>
                  simp only at hret hcond
                  obtain ⟨hwaits, hacc, hm, hh⟩ := hcond
                  obtain ⟨id, queue, hb⟩ := List.exists_cons_of_ne_nil hwaits
                  cases hres : os.accept with
                  | failed errno => exact absurd hres (hacc errno)
                  | accepted fd' =>
                      obtain ⟨hother, hclosed⟩ := hret fd' hres
                      have ha : Server.Accepts S os s.kernel fd' id queue := ⟨hres, hb, hother, hclosed⟩
                      simp only [go, Server.takeIn_eq ha, hm, hh, if_pos hpos]
                      exact ⟨_, rfl, rfl, List.suffix_cons _ _⟩
              | clientDataReady =>
                  simp only at hret hcond
                  cases hk : tc.kind with
                  | multi =>
                      simp only [go, dataAvailable_multi hpos hk]
                      exact ⟨_, rfl, rfl, List.suffix_refl _⟩
                  | single =>
                      obtain ⟨r, hit⟩ := iterate_returns hsound.owned (hret hk) (hcond hk)
                      simp only [go, dataAvailable_single hpos hk, hit]
                      exact ⟨_, rfl, rfl, List.suffix_refl _⟩
              | clientDisconnected =>
                  simp only [go, removeSession_eq hpos]
                  exact ⟨_, rfl, rfl, List.suffix_refl _⟩
  | worker k os =>
      obtain ⟨hk, hne⟩ := hl
      cases hq : (s.threads k).queue with
      | nil => exact absurd hq hne
      | cons fd rest =>
          have hfd := hsound.routed.queue k fd (by rw [hq]; exact List.mem_cons_self)
          have hlook : lookup (setQueue s.threads k rest) fd = lookup s.threads fd :=
            congrFun (lookup_setQueue k rest) fd
          have hhead : (s.threads k).queue.head? = some fd := by
            rw [hq]
            rfl
          obtain ⟨r, hit⟩ := iterate_returns (hsound.popped hq).owned
            (fun x hx => hret fd x hhead (hlook ▸ hx)) (fun x hx => hcond fd x hhead (hlook ▸ hx))
          refine ⟨{ s with threads := r.1, kernel := r.2 }, ?_, rfl, List.suffix_refl _⟩
          simp only [step, hk, workerPass_cons hpos hq hfd, hit]

/-- **Handling a client harms nobody else if and only if none of its own calls fails or goes on for good**:
    in every reachable state, every thread mode, for every event, registration and queue entry and every
    result of the calls. -/
theorem harmless_iff_spared (S : Setup σ) (ls : List (Label tc)) (s : Sys tc σ) (l : Label tc)
    (hrun : Transition.run (Sys.step S) (start S tc) ls = some s) (hl : Handles s l)
    (hret : Returns S s l) : Harmless S s l ↔ Spared S s l := by
  have hsound := sound_run hrun
  constructor
  · exact spared_of_harmless hsound hl hret
  · intro h
    obtain ⟨s', hstep, hesc, hrest⟩ := step_of_spared hsound hl hret h
    exact ⟨s', hstep, hesc, hrest, bystanders_step hsound hl hstep⟩

end Throws

theorem handles_go {s : Sys tc σ} {os : Os} {t : Task} {rest : List Task} (h : s.tasks = t :: rest) :
    Handles s (.go os) := by
  show s.tasks ≠ []
  rw [h]
  simp

/-- Without results of its own every write takes what it is given. -/
theorem turnReturns_of_send_eq_none {S : Setup σ} {k : Kernel} {os : Os} {x : Session σ} (h : os.send = none) :
    TurnReturns S k os x := by
  intro _ rs hrs
  rw [h] at hrs
  cases hrs

/-- A step that does not come to an end harms the others. -/
theorem not_harmless_of_isNone {S : Setup σ} {s : Sys tc σ} {l : Label tc} (h : (s.step S l).isNone = true) :
    ¬ Harmless S s l := by
  rintro ⟨s', hs', _⟩
  rw [hs'] at h
  cases h

/-! ### A connection that was reset -/

/-- Two clients, on descriptors 5 and 6, with a byte each; the events of both are in the batch. -/
def twoReady {tc : ThreadCount} : List (Label tc) :=
  comesIn ++
    [.env .connect, .wait (.ok [readable 3]), .go (Os.smooth 6), .go (Os.smooth 6), .env (.send 0 [1]),
      .env (.arrive 0 1), .env (.send 1 [2]), .env (.arrive 1 1), .wait (.ok [readable 5, readable 6])]

/-- The read returns `ECONNRESET`. -/
def connectionReset : Os := { Os.smooth 0 with recv := some .ECONNRESET }

/-- The write returns zero. -/
def nothingTaken : Os := { Os.smooth 0 with send := some [.accepted 0] }

/-- In `twoReady`, with no call failing, the second client's event is still handled. -/
theorem harmless_iff_spared_two_ready :
    ∃ s, Transition.run (Sys.step (echoServer .linux .tcp)) (start (echoServer .linux .tcp) .single)
        twoReady = some s ∧
      s.tasks = [.event ⟨.clientDataReady, 5⟩, .event ⟨.clientDataReady, 6⟩] ∧
      Harmless (echoServer .linux .tcp) s (.go (Os.smooth 0)) := by
  have hend : (Transition.run (Sys.step (echoServer .linux .tcp)) (start (echoServer .linux .tcp) .single)
      twoReady).map Sys.tasks =
        some [.event ⟨.clientDataReady, 5⟩, .event ⟨.clientDataReady, 6⟩] := by
    decide +kernel
  obtain ⟨s, hrun, ht⟩ := Option.map_eq_some_iff.mp hend
  refine ⟨s, hrun, ht, ?_⟩
  have hret : Returns (echoServer .linux .tcp) s (.go (Os.smooth 0)) := by
    simp only [Returns, ht]
    exact fun _ x _ => turnReturns_of_send_eq_none rfl
  refine (harmless_iff_spared _ twoReady s _ hrun (handles_go ht) hret).mpr ⟨by decide, ?_⟩
  simp only [ht]
  intro _ x _
  refine ⟨Or.inl rfl, ?_⟩
  intro rs hrs
  exact absurd hrs (by simp [Os.smooth])

/-- **A reset connection harms the others.** In `twoReady` with a single thread the exception leaves
    `iterate` and the second client's event is lost; with a worker it leaves the worker, which ends the
    process. With TLS an `SSL_write` that returns zero harms them too: `send` tries again for good. -/
theorem not_harmless_reset :
    (∃ s, Transition.run (Sys.step (echoServer .linux .tcp)) (start (echoServer .linux .tcp) .single)
        twoReady = some s ∧
      Handles s (.go connectionReset) ∧ Returns (echoServer .linux .tcp) s (.go connectionReset) ∧
      (∃ s', s.step (echoServer .linux .tcp) (.go connectionReset) = some s' ∧ s'.tasks = [] ∧
        s'.escaped = [.throws (.runtimeError "recv error: " (some .ECONNRESET))]) ∧
      ¬ Harmless (echoServer .linux .tcp) s (.go connectionReset)) ∧
    (∃ s k, Transition.run (Sys.step (echoServer .linux .tcp)) (start (echoServer .linux .tcp) (.count 1))
        (twoReady ++ [.go (Os.smooth 0)]) = some s ∧
      Handles s (.worker k connectionReset) ∧
      Returns (echoServer .linux .tcp) s (.worker k connectionReset) ∧
      ¬ Harmless (echoServer .linux .tcp) s (.worker k connectionReset)) ∧
    (∃ s, Transition.run (Sys.step (echoServer .linux .tls)) (start (echoServer .linux .tls) .single)
        twoReady = some s ∧
      Handles s (.go nothingTaken) ∧ Returns (echoServer .linux .tls) s (.go nothingTaken) ∧
      ¬ Harmless (echoServer .linux .tls) s (.go nothingTaken)) := by
  refine ⟨?_, ?_, ?_⟩
  · have hend : (Transition.run (Sys.step (echoServer .linux .tcp)) (start (echoServer .linux .tcp) .single)
        twoReady).any (fun s =>
          s.tasks = [.event ⟨.clientDataReady, 5⟩, .event ⟨.clientDataReady, 6⟩] ∧ s.escaped = [] ∧
          (s.step (echoServer .linux .tcp) (.go connectionReset)).any (fun s' => s'.tasks = [] ∧
            s'.escaped = [.throws (.runtimeError "recv error: " (some .ECONNRESET))]) = true) = true := by
      decide +kernel
    obtain ⟨s, hrun, hs⟩ := (Option.any_eq_true _ _).mp hend
    obtain ⟨ht, hesc, hstep⟩ := of_decide_eq_true hs
    obtain ⟨s', hs', hafter⟩ := (Option.any_eq_true _ _).mp hstep
    obtain ⟨ht', hesc'⟩ := of_decide_eq_true hafter
    refine ⟨s, hrun, handles_go ht, ?_, ⟨s', hs', ht', hesc'⟩, ?_⟩
    · simp only [Returns, ht]
      exact fun _ x _ => turnReturns_of_send_eq_none rfl
    · rintro ⟨s₁, hs₁, hesc₁, _⟩
      rw [hs', Option.some.injEq] at hs₁
      rw [← hs₁, hesc, hesc'] at hesc₁
      exact absurd hesc₁ (by simp)
  · have hend : (Transition.run (Sys.step (echoServer .linux .tcp))
        (start (echoServer .linux .tcp) (.count 1)) (twoReady ++ [.go (Os.smooth 0)])).any (fun s =>
          (s.threads ThreadCount.only).queue = [5] ∧
          (s.step (echoServer .linux .tcp) (.worker ThreadCount.only connectionReset)).isNone = true) =
        true := by
      decide +kernel
    obtain ⟨s, hrun, hs⟩ := (Option.any_eq_true _ _).mp hend
    obtain ⟨hq, hstep⟩ := of_decide_eq_true hs
    refine ⟨s, ThreadCount.only, hrun, ⟨rfl, ?_⟩, ?_, not_harmless_of_isNone hstep⟩
    · rw [hq]
      simp
    · exact fun fd x _ _ => turnReturns_of_send_eq_none rfl
  · have hend : (Transition.run (Sys.step (echoServer .linux .tls)) (start (echoServer .linux .tls) .single)
        twoReady).any (fun s =>
          s.tasks = [.event ⟨.clientDataReady, 5⟩, .event ⟨.clientDataReady, 6⟩] ∧
          (lookup s.threads 5).all (fun x =>
            Used [.accepted 0] (reply (echoServer .linux .tls) s.kernel nothingTaken x)) = true ∧
          (s.step (echoServer .linux .tls) (.go nothingTaken)).isNone = true) = true := by
      decide +kernel
    obtain ⟨s, hrun, hs⟩ := (Option.any_eq_true _ _).mp hend
    obtain ⟨ht, hused, hstep⟩ := of_decide_eq_true hs
    refine ⟨s, hrun, handles_go ht, ?_, not_harmless_of_isNone hstep⟩
    simp only [Returns, ht]
    intro _ x hx _ rs hrs
    rw [hx, Option.all_some] at hused
    rw [← Option.some.inj hrs]
    exact of_decide_eq_true hused

end Sys

end Neblina

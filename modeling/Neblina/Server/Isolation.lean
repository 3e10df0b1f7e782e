import Neblina.Server.Stream

/-!
# `Server.Isolation` — no cross-talk between clients

With plain sessions and no failing `recv` or `send`, what was written to a client is the answers to the
pieces read from that same client: `isolated_run`. Queue entries that outlive a connection and descriptors
that are given out again are part of the runs; a stale entry makes the new session read its own socket,
which is no harm.
-/

namespace Neblina

open ThreadManager

variable {σ : Type} {tc : ThreadCount}

/-- What a plain session writes for the pieces it reads, and its fields afterwards. -/
def Session.answers (f : σ → Bytes → Bytes × σ) : σ → List Bytes → Bytes × σ
  | self, [] => ([], self)
  | self, b :: bs => ((f self b).1 ++ (answers f (f self b).2 bs).1, (answers f (f self b).2 bs).2)

/-- One more piece at the end. -/
theorem Session.answers_snoc (f : σ → Bytes → Bytes × σ) (bs : List Bytes) (b : Bytes) (self : σ) :
    answers f self (bs ++ [b]) =
      ((answers f self bs).1 ++ (f (answers f self bs).2 b).1, (f (answers f self bs).2 b).2) := by
  induction bs generalizing self with
  | nil => simp [answers]
  | cons c bs ih =>
      rw [List.cons_append, answers, ih]
      simp only [answers, List.append_assoc]

/-- A server whose protocol creates plain `Session` objects runs `Session::iteration`. -/
theorem Setup.sessions_plain {S : Setup σ} {init : σ} {f : σ → Bytes → Bytes × σ}
    (hS : S.machine = Machine.plain init f) (os : Os) :
    (S.sessions os).iteration =
      Session.iteration (Kernel.ops S.transport os) (Process.total f) := by
  funext conn x
  show S.machine.iteration (Kernel.ops S.transport os) conn x = _
  rw [hS]
  exact (Machine.session_iteration_eq_plain _ init f conn x).symm

/-- A `send` whose first write takes everything. -/
theorem Os.sent_whole {os : Os} (h : os.send = none) (out : Option Bytes) :
    (os.sent out).stop = none ∧ (os.sent out).accepted = out.getD [] := by
  cases out with
  | none => exact ⟨rfl, rfl⟩
  | some data =>
      have hw : Kernel.writes os true data = [.accepted data.length] := by
        unfold Kernel.writes
        rw [h]
        rfl
      show (sendLoop data (Kernel.writes os true data) 0 []).stop = none ∧
        (sendLoop data (Kernel.writes os true data) 0 []).accepted = data
      rw [hw]
      by_cases hd : data = []
      · rw [hd, sendLoop_nil]
        exact ⟨rfl, rfl⟩
      · rw [sendLoop_whole hd]
        exact ⟨rfl, rfl⟩

/-- **A turn of a plain session**: nothing, or one piece is read and answered. -/
theorem Sock.afterTurn_plain {t : Transport} {os : Os} {s : Sock} (hs : s.Ordered) (init : σ)
    (f : σ → Bytes → Bytes × σ) (hr : os.recv = none) (hw : os.send = none) (self : σ) :
    (s.rx = [] ∧ s.afterTurn t (Machine.plain init f) os self = s ∧
      ((Machine.plain init f).onData self (s.data t os)).1 = self) ∨
    ∃ b, b ≠ [] ∧ (s.afterTurn t (Machine.plain init f) os self).reads = s.reads ++ [b] ∧
      (s.afterTurn t (Machine.plain init f) os self).tx = s.tx ++ (f self b).1 ∧
      ((Machine.plain init f).onData self (s.data t os)).1 = (f self b).2 := by
  by_cases hrx : s.rx = []
  · left
    have hno : ¬ (os.recv = none ∧ s.rx ≠ []) := fun h => h.2 hrx
    have hdata : s.data t os = [] := if_neg hno
    have hread : s.afterRead t os = s := if_neg hno
    refine ⟨hrx, ?_, ?_⟩
    · unfold Sock.afterTurn
      rw [hread, hdata]
      show ({ s with tx := s.tx ++ [] } : Sock) = s
      rw [List.append_nil]
    · rw [hdata]
      rfl
  · right
    have hyes : os.recv = none ∧ s.rx ≠ [] := ⟨hr, hrx⟩
    have hdata : s.data t os = (t.read s.rx).1 := if_pos hyes
    have hne := Transport.read_ne_nil t hs.rx hrx
    have hon : (Machine.plain init f).onData self (t.read s.rx).1 =
        ((f self (t.read s.rx).1).2, some (f self (t.read s.rx).1).1) := by
      simp [Machine.plain, hne]
    refine ⟨(t.read s.rx).1, hne, ?_, ?_, ?_⟩
    · show (s.afterRead t os).reads = _
      unfold Sock.afterRead
      rw [if_pos hyes]
    · show s.tx ++ (os.sent ((Machine.plain init f).onData self (s.data t os)).2).accepted = _
      rw [hdata, hon, (Os.sent_whole hw _).2]
      rfl
    · rw [hdata, hon]

namespace Sys

/-- No `recv` or `send` fails, and every write takes its whole buffer. -/
def Smooth (os : Os) : Prop := os.recv = none ∧ os.send = none

instance : DecidablePred Smooth := fun _ => inferInstanceAs (Decidable (_ ∧ _))

/-- The client got the answers to what was read from it, and its session has the fields that go with that. -/
structure Answered (init : σ) (f : σ → Bytes → Bytes × σ) (s : Sock) (own : σ) : Prop where
  ordered : s.Ordered
  tx      : s.tx = (Session.answers f init s.reads).1
  fields  : own = (Session.answers f init s.reads).2

/-- **A turn of a plain session keeps its client answered.** -/
theorem closed_answered {S : Setup σ} {init : σ} {f : σ → Bytes → Bytes × σ}
    (hS : S.machine = Machine.plain init f) : Closed S Smooth (Answered init f) := by
  refine ⟨?_, ?_, ?_, ?_⟩
  · rw [hS]
    exact ⟨Sock.ordered_empty, rfl, rfl⟩
  · intro s self edge h
    exact ⟨h.ordered.mark edge, h.tx, h.fields⟩
  · intro s s' self e hact h
    obtain ⟨hreads, htx⟩ := Sock.act_reads hact
    refine ⟨h.ordered.act hact, ?_, ?_⟩
    · rw [hreads, htx]
      exact h.tx
    · rw [hreads]
      exact h.fields
  · intro s self os hok h
    refine ⟨h.ordered.afterTurn S.machine os self, ?_, ?_⟩
    all_goals rw [hS]
    all_goals
      rcases Sock.afterTurn_plain (t := S.transport) h.ordered init f hok.1 hok.2 self with
        ⟨_, hsame, hself⟩ | ⟨b, _, hreads, htx, hself⟩
    · rw [hsame]
      exact h.tx
    · rw [htx, hreads, Session.answers_snoc, ← h.fields, ← h.tx]
    · rw [hsame, hself]
      exact h.fields
    · rw [hself, hreads, Session.answers_snoc, ← h.fields]

/-- **No cross-talk between clients.** In every reachable state of a server with plain sessions, in runs in
    which no `recv` or `send` fails and every write takes its whole buffer: what was written to a client is
    the answers to pieces that are not empty and together are a prefix of what that client itself sent, and
    its session has the fields these pieces lead to. For either kind of connection, every poller and every
    number of threads; clients come, go and get each other's descriptors in any order. -/
theorem isolated_run (S : Setup σ) (init : σ) (f : σ → Bytes → Bytes × σ)
    (hS : S.machine = Machine.plain init f) (ls : List (Label tc)) (s : Sys tc σ)
    (hsmooth : Transition.AllSteps (Sys.step S) (Allowed Smooth) (start S tc) ls)
    (hrun : Transition.run (Sys.step S) (start S tc) ls = some s) (id : Nat) :
    ∃ pieces, (∀ b ∈ pieces, b ≠ []) ∧ pieces.flatten <+: (s.kernel.socks id).sent ∧
      (s.kernel.socks id).tx = (Session.answers f init pieces).1 ∧
      ∀ fd x, lookup s.threads fd = some x → x.conn.id = id →
        x.self = (Session.answers f init pieces).2 := by
  have hrel := related_run (closed_answered hS) hsmooth hrun
  obtain ⟨self, hself⟩ := hrel.all id
  refine ⟨(s.kernel.socks id).reads, hself.ordered.reads, hself.ordered.reads_prefix, hself.tx, ?_⟩
  rintro fd x hx rfl
  exact (hrel.live fd x hx).fields

/-- An echo server on descriptor 3. -/
def echoServer (p : Platform) (t : Transport) : Setup Unit :=
  ⟨p, t, 3, Machine.plain () (fun _ data => (data, ()))⟩

/-- An event of the kernel for `fd`: data, or the end of the stream. -/
def readable (fd : SOCKET) : PollEvent := ⟨fd, true, false, false, false, false⟩

def ended (fd : SOCKET) : PollEvent := ⟨fd, true, true, false, false, false⟩

/-- A client comes in on descriptor 5. -/
def comesIn {tc : ThreadCount} : List (Label tc) :=
  [.env .connect, .wait (.ok [readable 3]), .go (Os.smooth 5), .go (Os.smooth 5)]

/-- The first client's byte is announced, and the client leaves before the worker's pass; the second one
    gets its descriptor, and the stale queue entry is served on the second one's session. -/
def reusedDescriptor : List (Label (.count 1)) :=
  comesIn ++
    [.env (.send 0 [1]), .env (.arrive 0 1), .wait (.ok [readable 5]), .go (Os.smooth 0),
      .env (.finish 0), .wait (.ok [ended 5]), .go (Os.smooth 0)] ++
    comesIn ++
    [.env (.send 1 [2, 3]), .env (.arrive 1 1), .worker ThreadCount.only (Os.smooth 0),
      .env (.arrive 1 1), .wait (.ok [readable 5]), .go (Os.smooth 0),
      .worker ThreadCount.only (Os.smooth 0)]

/-- In `reusedDescriptor` the second client gets its own two bytes back and nothing of the first. -/
theorem isolated_run_reused :
    ∃ s, Transition.run (Sys.step (echoServer .linux .tcp)) (start (echoServer .linux .tcp) (.count 1))
        reusedDescriptor = some s ∧
      (s.kernel.socks 0).tx = [] ∧ (s.kernel.socks 1).tx = [2, 3] ∧
      ∀ id, ∃ pieces, (∀ b ∈ pieces, b ≠ []) ∧ pieces.flatten <+: (s.kernel.socks id).sent ∧
        (s.kernel.socks id).tx = (Session.answers (fun _ data => (data, ())) () pieces).1 := by
  have hsmooth : Transition.AllSteps (Sys.step (echoServer .linux .tcp)) (Allowed Smooth)
      (start (echoServer .linux .tcp) (.count 1)) reusedDescriptor := by
    decide +kernel
  have hend : (Transition.run (Sys.step (echoServer .linux .tcp)) (start (echoServer .linux .tcp) (.count 1))
      reusedDescriptor).map (fun s => ((s.kernel.socks 0).tx, (s.kernel.socks 1).tx)) =
        some ([], [2, 3]) := by
    decide +kernel
  obtain ⟨s, hrun, htx⟩ := Option.map_eq_some_iff.mp hend
  rw [Prod.mk.injEq] at htx
  refine ⟨s, hrun, htx.1, htx.2, ?_⟩
  intro id
  obtain ⟨pieces, hne, hprefix, htx, _⟩ :=
    isolated_run (echoServer .linux .tcp) () (fun _ data => (data, ())) rfl reusedDescriptor s hsmooth hrun id
  exact ⟨pieces, hne, hprefix, htx⟩

end Sys

end Neblina

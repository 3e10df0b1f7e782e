import Neblina.Client.Spinlock

/-!
# `Client.Receive` — sequences of receive calls on one client

`recv_spinlock` keeps what it has read in a local buffer and drops it when it times out; `recv_future` is
`recv_spinlock` with a fixed size of 16 KiB, so it only ever returns 16384 bytes or nothing. The bytes a
timed-out call had read are gone: they are neither returned nor in the socket. `received_iff_whole` says
exactly which sequences of calls lose nothing.
-/

namespace Neblina

namespace Client

/-- `BUF_SZ` of `recv_future`. -/
def bufSz : UInt64 := 16 * 1024

/-- `Client::recv_future(ms)` and `get()` of its future: the body of the lambda, run in its own thread. -/
def recvFuture (t : Transport) (timeout start : Int) (ticks : List Tick) (unread : Bytes) :
    Except Abrupt Bytes × Receiving :=
  match recvSpinlock t bufSz timeout start ticks unread with
  | (.error e, s) => (.error e, s)
  | (.ok r, s) => (.ok (r.getD []), s)

/-- A receive call. -/
inductive Call where
  | recvSpinlock (nBytes : UInt64) (timeout : Int)
  | recvFuture (timeout : Int)
  deriving DecidableEq, Repr

/-- A call, with the clock reading at its start and what the outside decides in its passes. -/
structure Timed where
  call  : Call
  start : Int
  ticks : List Tick
  deriving DecidableEq, Repr

namespace Call

/-- The size the call waits for. -/
def size : Call → UInt64
  | recvSpinlock nBytes _ => nBytes
  | recvFuture _ => bufSz

def timeout : Call → Int
  | recvSpinlock _ timeout => timeout
  | recvFuture timeout => timeout

end Call

/-- The string a call returns, `nullopt` counted as empty. -/
def Timed.run (t : Transport) (c : Timed) (unread : Bytes) : Except Abrupt Bytes × Receiving :=
  match c.call with
  | .recvSpinlock nBytes timeout =>
      match Client.recvSpinlock t nBytes timeout c.start c.ticks unread with
      | (.error e, s) => (.error e, s)
      | (.ok r, s) => (.ok (r.getD []), s)
  | .recvFuture timeout => Client.recvFuture t timeout c.start c.ticks unread

/-- The socket, the bytes that were removed from it, and those that were returned. -/
structure Inbound where
  unread   : Bytes
  taken    : Bytes
  returned : Bytes
  deriving DecidableEq, Repr

/-- Calls one after another. A call that does not end is the last one. -/
def runCalls (t : Transport) : List Timed → Inbound → Except Abrupt Inbound
  | [], s => .ok s
  | c :: cs, s =>
      match c.run t s.unread with
      | (.error e, _) => .error e
      | (.ok str, r) => runCalls t cs ⟨r.unread, s.taken ++ r.taken, s.returned ++ str⟩

/-- The bytes that come in during a call, before its deadline. -/
def Timed.arrivals (t : Transport) (c : Timed) (unread : Bytes) : Bytes :=
  received t c.call.size.toNat unread (live (deadline c.start c.call.timeout) c.ticks)

/-- **No call gets a part of what it waits for**: in each call, the bytes that come in before its deadline
    are none or all of its size. -/
def Whole (t : Transport) : List Timed → Bytes → Prop
  | [], _ => True
  | c :: cs, unread =>
      (c.arrivals t unread = [] ∨ (c.arrivals t unread).length = c.call.size.toNat) ∧
        Whole t cs (unread.drop (c.arrivals t unread).length)

instance decidableWhole (t : Transport) : ∀ (cs : List Timed) (unread : Bytes), Decidable (Whole t cs unread)
  | [], _ => isTrue trivial
  | c :: cs, unread =>
      have := decidableWhole t cs (unread.drop (c.arrivals t unread).length)
      inferInstanceAs (Decidable (_ ∧ _))

/-! ## One call -/

variable {t : Transport} {c : Timed} {unread : Bytes}

/-- Both calls are the loop with their size and timeout. -/
theorem Timed.run_eq (t : Transport) (c : Timed) (unread : Bytes) :
    c.run t unread =
      match Client.recvSpinlock t c.call.size c.call.timeout c.start c.ticks unread with
      | (.error e, s) => (.error e, s)
      | (.ok r, s) => (.ok (r.getD []), s) := by
  unfold Timed.run
  cases c.call with
  | recvSpinlock nBytes timeout => rfl
  | recvFuture timeout => rfl

/-- What the loop of a call does, from its start. -/
theorem spun_recvSpinlock (t : Transport) (c : Timed) (unread : Bytes) :
    Spun t c.call.size (deadline c.start c.call.timeout) c.ticks ⟨[], unread, [], []⟩
      (Client.recvSpinlock t c.call.size c.call.timeout c.start c.ticks unread) := by
  apply spun_spin
  by_cases hzero : c.call.size = 0
  · exact Or.inr ⟨hzero, rfl⟩
  · refine Or.inl (Nat.pos_of_ne_zero fun hnat => hzero ?_)
    exact UInt64.toNat_inj.mp hnat

/-- **A call that ends** has removed the bytes that came in before its deadline, and returns all of them
    when they are as many as it waited for (at least one), and none otherwise. -/
theorem Timed.run_ok {str : Bytes} {r : Receiving} (h : c.run t unread = (.ok str, r)) :
    r.taken = c.arrivals t unread ∧ r.unread = unread.drop (c.arrivals t unread).length ∧
      (str = c.arrivals t unread ∧ (c.arrivals t unread).length = c.call.size.toNat ∨
        str = [] ∧ ((c.arrivals t unread).length ≠ c.call.size.toNat ∨ c.call.size.toNat = 0)) := by
  have hspun := spun_recvSpinlock t c unread
  rw [Timed.run_eq] at h
  cases hout : Client.recvSpinlock t c.call.size c.call.timeout c.start c.ticks unread with
  | mk res s =>
      rw [hout] at h hspun
      cases res with
      | error e => exact absurd (congrArg Prod.fst h) (by simp)
      | ok str' =>
          simp only [Prod.mk.injEq, Except.ok.injEq] at h
          obtain ⟨rfl, rfl⟩ := h
          refine ⟨hspun.taken, hspun.unread, ?_⟩
          have hresult : Except.ok str' = outcome (deadline c.start c.call.timeout) c.ticks []
            (c.arrivals t unread) c.call.size.toNat := hspun.result
          unfold outcome at hresult
          by_cases hfull : 0 < c.call.size.toNat ∧ (c.arrivals t unread).length = c.call.size.toNat
          · rw [if_pos hfull, Except.ok.injEq] at hresult
            rw [hresult]
            exact Or.inl ⟨rfl, hfull.2⟩
          · rw [if_neg hfull] at hresult
            split at hresult
            · rw [Except.ok.injEq] at hresult
              rw [hresult]
              refine Or.inr ⟨rfl, ?_⟩
              rcases Nat.eq_zero_or_pos c.call.size.toNat with hzero | hpos
              · exact Or.inr hzero
              · exact Or.inl fun hlen => hfull ⟨hpos, hlen⟩
            · exact absurd hresult (by simp)

/-- The string returned is all that was removed exactly when the call did not get a part of its size. -/
theorem Timed.run_whole {str : Bytes} {r : Receiving} (h : c.run t unread = (.ok str, r)) :
    str = c.arrivals t unread ↔
      (c.arrivals t unread = [] ∨ (c.arrivals t unread).length = c.call.size.toNat) := by
  obtain ⟨_, _, ⟨hstr, hlen⟩ | ⟨hstr, hlen⟩⟩ := Timed.run_ok h
  · exact ⟨fun _ => Or.inr hlen, fun _ => hstr⟩
  · constructor
    · intro heq
      exact Or.inl (heq.symm.trans hstr)
    · rintro (hnone | hsize)
      · rw [hstr, hnone]
      · -- a call of size zero: nothing can have come
        rcases hlen with hne | hzero
        · exact absurd hsize hne
        · rw [hstr, List.eq_nil_of_length_eq_zero (hsize.trans hzero)]

/-- What a call returns is all or nothing of what it removed. -/
theorem Timed.run_sublist {str : Bytes} {r : Receiving} (h : c.run t unread = (.ok str, r)) :
    str.Sublist (c.arrivals t unread) := by
  obtain ⟨_, _, ⟨hstr, _⟩ | ⟨hstr, _⟩⟩ := Timed.run_ok h
  · rw [hstr]
  · rw [hstr]
    exact List.nil_sublist _

/-! ## Sequences of calls -/

theorem Timed.arrivals_prefix_unread (t : Transport) (c : Timed) (unread : Bytes) : c.arrivals t unread <+: unread :=
  received_prefix_unread t _ _ _

/-- **What a sequence of calls removes and returns.** The bytes removed are the next ones of the stream, those
    returned are some of them in order, and they are the same bytes if and only if the sequence is `Whole`. -/
theorem runCalls_ok (t : Transport) (cs : List Timed) :
    ∀ {s final : Inbound}, runCalls t cs s = .ok final →
      ∃ took gave, final.taken = s.taken ++ took ∧ final.returned = s.returned ++ gave ∧ took <+: s.unread ∧
        gave.Sublist took ∧ (gave = took ↔ Whole t cs s.unread) := by
  induction cs with
  | nil =>
      intro s final h
      cases h
      exact ⟨[], [], (List.append_nil _).symm, (List.append_nil _).symm, List.nil_prefix, List.Sublist.refl _,
        fun _ => trivial, fun _ => rfl⟩
  | cons c cs ih =>
      intro s final h
      rw [runCalls] at h
      cases hrun : c.run t s.unread with
      | mk res r =>
          rw [hrun] at h
          cases res with
          | error e => exact absurd h (by simp)
          | ok str =>
              obtain ⟨took, gave, htook, hgave, hfront, hsub, hwhole⟩ := ih h
              obtain ⟨htaken, hunread, _⟩ := Timed.run_ok hrun
              have hfirst := Timed.run_whole hrun
              have hstr := Timed.run_sublist hrun
              simp only [htaken, hunread] at htook hfront hwhole
              refine ⟨c.arrivals t s.unread ++ took, str ++ gave, ?_, ?_, ?_, ?_, ?_⟩
              · rw [htook, List.append_assoc]
              · rw [hgave, List.append_assoc]
              · have hsplit := List.prefix_iff_eq_append.mp (c.arrivals_prefix_unread t s.unread)
                conv_rhs => rw [← hsplit]
                exact (List.prefix_append_right_inj _).mpr hfront
              · exact hstr.append hsub
              · rw [Whole, ← hfirst, ← hwhole]
                constructor
                · -- both parts are no longer than what was removed, so equal lengths force both to be equal
                  intro heq
                  have hlen := congrArg List.length heq
                  rw [List.length_append, List.length_append] at hlen
                  have h1 := hstr.length_le
                  have h2 := hsub.length_le
                  exact ⟨hstr.eq_of_length (by omega), hsub.eq_of_length (by omega)⟩
                · rintro ⟨h1, h2⟩
                  rw [h1, h2]

/-- **Every call ends** once the clock reaches its deadline, however little has come by then. -/
theorem Timed.run_ends (t : Transport) (c : Timed) (unread : Bytes)
    (hlate : ∃ k ∈ c.ticks, deadline c.start c.call.timeout ≤ k.now) :
    ∃ str r, c.run t unread = (.ok str, r) := by
  have hresult := (spun_recvSpinlock t c unread).result
  rw [Timed.run_eq]
  cases hout : Client.recvSpinlock t c.call.size c.call.timeout c.start c.ticks unread with
  | mk res s =>
      rw [hout] at hresult
      cases res with
      | ok r => exact ⟨_, _, rfl⟩
      | error e =>
          unfold outcome at hresult
          rw [if_pos hlate] at hresult
          split at hresult
          · exact absurd hresult (by simp)
          · exact absurd hresult (by simp)

theorem runCalls_ends (t : Transport) (cs : List Timed)
    (hlate : ∀ c ∈ cs, ∃ k ∈ c.ticks, deadline c.start c.call.timeout ≤ k.now) :
    ∀ s : Inbound, ∃ final, runCalls t cs s = .ok final := by
  induction cs with
  | nil => exact fun s => ⟨s, rfl⟩
  | cons c cs ih =>
      intro s
      obtain ⟨hc, hcs⟩ := List.forall_mem_cons.mp hlate
      obtain ⟨str, r, hrun⟩ := c.run_ends t s.unread hc
      rw [runCalls, hrun]
      apply ih hcs

/-- **When the receive calls of a client lose and invent nothing.** For every stream of the peer and every
    sequence of `recv_spinlock` and `recv_future` calls that run one after another to their ends: the strings
    returned are the beginning of the stream and exactly the bytes removed from the socket, if and only if in
    every call the bytes that come in before its deadline are none or all of its size. -/
theorem received_iff_whole (t : Transport) (cs : List Timed) (stream : Bytes) (final : Inbound)
    (h : runCalls t cs ⟨stream, [], []⟩ = .ok final) :
    (final.returned <+: stream ∧ final.taken = final.returned) ↔ Whole t cs stream := by
  obtain ⟨took, gave, htook, hgave, hfront, _, hwhole⟩ := runCalls_ok t cs h
  rw [← hwhole, htook, hgave]
  constructor
  · rintro ⟨_, heq⟩
    exact heq.symm
  · intro heq
    rw [heq]
    exact ⟨hfront, rfl⟩

/-- Two calls that each get all they wait for. -/
theorem received_whole_two :
    ∃ final, runCalls .tcp [⟨.recvSpinlock 1 5, 0, [⟨1, .upTo 1⟩]⟩, ⟨.recvSpinlock 1 5, 2, [⟨3, .upTo 1⟩]⟩]
        ⟨[97, 98], [], []⟩ = .ok final ∧
      final.returned <+: [97, 98] ∧ final.taken = final.returned :=
  ⟨⟨[], [97, 98], [97, 98]⟩, by decide, (received_iff_whole .tcp
    [⟨.recvSpinlock 1 5, 0, [⟨1, .upTo 1⟩]⟩, ⟨.recvSpinlock 1 5, 2, [⟨3, .upTo 1⟩]⟩] [97, 98]
    ⟨[], [97, 98], [97, 98]⟩ (by decide)).mpr (by decide)⟩

/-- **A timeout loses what had come.** Of the stream `"ab"` one byte comes before the deadline of a call for
    two; the next call returns `"b"`. And `recv_future` returns nothing of two bytes it has read. -/
theorem timeout_loses_bytes :
    runCalls .tcp [⟨.recvSpinlock 2 1, 0, [⟨1, .upTo 1⟩, ⟨1000000, .wouldBlock⟩]⟩,
        ⟨.recvSpinlock 1 1, 1000001, [⟨1000002, .upTo 1⟩]⟩] ⟨[97, 98], [], []⟩ =
        .ok ⟨[], [97, 98], [98]⟩ ∧
      ¬ ([98] : Bytes) <+: [97, 98] ∧ ([97, 98] : Bytes) ≠ [98] ∧
    runCalls .tls [⟨.recvFuture 1, 0, [⟨1, .upTo 2⟩, ⟨1000000, .wouldBlock⟩]⟩] ⟨[97, 98], [], []⟩ =
        .ok ⟨[], [97, 98], []⟩ ∧ ([97, 98] : Bytes) ≠ [] := by
  decide

end Client

end Neblina

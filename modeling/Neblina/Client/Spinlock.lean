import Mathlib.Algebra.BigOperators.Group.List.Basic
import Mathlib.Algebra.GroupWithZero.Nat
import Mathlib.Data.List.Infix
import Neblina.Client.Client

/-!
# `Client.Spinlock` — `Client::recv_spinlock`

The call reads again and again until it has `n_bytes` bytes or the clock has reached `start + timeout`. Each
pass of the loop has one reading of the clock and, if that is before the deadline, one `recv` of what is
still missing. A `Tick` is what the outside decides in a pass: the reading, and what the socket has to offer.

`received` is the reference: the bytes a reader gets who asks for `n` bytes in all and takes what each offer
has. `spun_spin` says that the loop takes exactly these bytes from the socket and how it ends.

The instant `start + timeout` is computed in nanoseconds in an `int64_t`, which holds 292 years of them: a
longer timeout wraps around, into the past for `milliseconds::max()`. `recvSpinlock_returnsExactly_iff` says
for which timeouts the call does what it says.
-/

namespace Neblina

/-- What the socket has when a read is made: nothing at the moment, or up to `k` bytes of the stream (none
    when the stream has ended). -/
inductive Offer where
  | wouldBlock
  | upTo (k : Nat)
  deriving DecidableEq, Repr

/-- The result of the read behind `recv(m)`. A read that is refused leaves `errno` as an earlier call left
    it; a pass in which `recv` returns is one in which that is `EAGAIN`. -/
def Offer.result (o : Offer) (t : Transport) (m : Nat) (unread : Bytes) : RecvResult :=
  if t.refuses m then .failed .EAGAIN
  else
    match o with
    | .wouldBlock => .failed .EAGAIN
    | .upTo k => .received (unread.take (min k (t.asks m)))

/-- The bytes a read of at most `m` bytes returns. -/
def Offer.piece (o : Offer) (m : Nat) (unread : Bytes) : Bytes :=
  match o with
  | .wouldBlock => []
  | .upTo k => unread.take (min k m)

/-- The bytes on offer. -/
def Offer.size : Offer → Nat
  | .wouldBlock => 0
  | .upTo k => k

theorem Offer.piece_prefix_unread (o : Offer) (m : Nat) (unread : Bytes) : o.piece m unread <+: unread := by
  cases o with
  | wouldBlock => exact List.nil_prefix
  | upTo k => exact List.take_prefix _ _

theorem Offer.length_piece_le (o : Offer) (m : Nat) (unread : Bytes) : (o.piece m unread).length ≤ m := by
  cases o with
  | wouldBlock => exact Nat.zero_le _
  | upTo k =>
      show (unread.take (min k m)).length ≤ m
      rw [List.length_take]
      omega

/-- What the outside decides in one pass of the loop. -/
structure Tick where
  now   : Int
  offer : Offer
  deriving DecidableEq, Repr

/-- A call in progress: `buffer`, the peer's bytes that were not read yet, those the call read, and the
    arguments of its `recv` calls. -/
structure Receiving where
  buffer   : Bytes
  unread   : Bytes
  taken    : Bytes
  requests : List UInt64
  deriving DecidableEq, Repr

namespace Client

/-- The loop of `recv_spinlock`. When the ticks run out before it ends, the call is still running. -/
def spin (t : Transport) (nBytes : UInt64) (deadline : Int) :
    List Tick → Receiving → Except Abrupt (Option Bytes) × Receiving
  | [], s => (.error .running, s)
  | tick :: ticks, s =>
      if tick.now < deadline then
        let m := nBytes - UInt64.ofNat s.buffer.length
        match t.clientRecv (tick.offer.result t m.toNat s.unread) with
        | .error e => (.error e, { s with requests := s.requests ++ [m] })
        | .ok r =>
            let s' : Receiving :=
              { s with
                unread := s.unread.drop r.length
                taken := s.taken ++ r
                requests := s.requests ++ [m] }
            if !r.isEmpty then
              let buffer := s.buffer ++ r
              if nBytes ≤ UInt64.ofNat buffer.length then (.ok (some buffer), { s' with buffer := buffer })
              else spin t nBytes deadline ticks { s' with buffer := buffer }
            else spin t nBytes deadline ticks s'
      else (.ok none, s)

/-- What an `int64_t` holds of `n`: the sums and products of the clock wrap around. -/
def wrap64 (n : Int) : Int := n.bmod (2 ^ 64)

/-- `start + timeout`, in nanoseconds of the steady clock; `timeout` is in milliseconds, and is converted
    first. -/
def deadline (start timeout : Int) : Int := wrap64 (start + wrap64 (timeout * 1000000))

/-- `Client::recv_spinlock(n_bytes, timeout)` called at `start` on a socket with `unread` to come. -/
def recvSpinlock (t : Transport) (nBytes : UInt64) (timeout start : Int) (ticks : List Tick) (unread : Bytes) :
    Except Abrupt (Option Bytes) × Receiving :=
  spin t nBytes (deadline start timeout) ticks ⟨[], unread, [], []⟩

/-! ## The reference -/

/-- The offers of the passes begun before the deadline. -/
def live (deadline : Int) (ticks : List Tick) : List Offer :=
  (ticks.takeWhile (fun k => k.now < deadline)).map Tick.offer

/-- The bytes a reader gets from successive offers who wants `n` bytes in all and each time asks for what is
    still missing. -/
def received (t : Transport) : Nat → Bytes → List Offer → Bytes
  | _, _, [] => []
  | n, unread, o :: os =>
      o.piece (t.asks n) unread ++
        received t (n - (o.piece (t.asks n) unread).length)
          (unread.drop (o.piece (t.asks n) unread).length) os

/-- A piece is never longer than what is missing. -/
theorem length_piece_le (t : Transport) (o : Offer) (n : Nat) (unread : Bytes) :
    (o.piece (t.asks n) unread).length ≤ n :=
  Nat.le_trans (Offer.length_piece_le o _ unread) (t.asks_le n)

theorem length_received_le (t : Transport) (os : List Offer) :
    ∀ (n : Nat) (unread : Bytes), (received t n unread os).length ≤ n := by
  induction os with
  | nil => intro n unread; exact Nat.zero_le _
  | cons o os ih =>
      intro n unread
      have hpiece := length_piece_le t o n unread
      have hrest := ih (n - (o.piece (t.asks n) unread).length) (unread.drop (o.piece (t.asks n) unread).length)
      rw [received, List.length_append]
      omega

/-- **The bytes received are the next ones of the stream.** -/
theorem received_prefix_unread (t : Transport) (os : List Offer) :
    ∀ (n : Nat) (unread : Bytes), received t n unread os <+: unread := by
  induction os with
  | nil => intro n unread; exact List.nil_prefix
  | cons o os ih =>
      intro n unread
      rw [received]
      have hsplit := List.prefix_iff_eq_append.mp (Offer.piece_prefix_unread o (t.asks n) unread)
      conv_rhs => rw [← hsplit]
      exact (List.prefix_append_right_inj _).mpr (ih _ _)

/-- Who wants nothing gets nothing. -/
theorem received_zero (t : Transport) (unread : Bytes) (os : List Offer) : received t 0 unread os = [] :=
  List.eq_nil_of_length_eq_zero (Nat.le_zero.mp (length_received_le t os 0 unread))

/-- Over a plain socket: as many bytes as were wanted, or all that the offers or the stream had. -/
theorem length_received_tcp (os : List Offer) : ∀ (n : Nat) (unread : Bytes),
    (received .tcp n unread os).length = min n (min (os.map Offer.size).sum unread.length) := by
  induction os with
  | nil => intro n unread; simp [received]
  | cons o os ih =>
      intro n unread
      rw [received, List.length_append, ih, List.length_drop, List.map_cons, List.sum_cons]
      cases o with
      | wouldBlock => simp [Offer.piece, Offer.size]
      | upTo k =>
          simp only [Offer.piece, Offer.size, Transport.asks, List.length_take]
          -- the piece is what was wanted, what was on offer, or what the stream had
          rcases Nat.le_total k n with hkn | hnk
          · rw [Nat.min_eq_left hkn]
            rcases Nat.le_total k unread.length with hk | hk
            · rw [Nat.min_eq_left hk]
              omega
            · rw [Nat.min_eq_right hk]
              omega
          · rw [Nat.min_eq_right hnk]
            rcases Nat.le_total n unread.length with hn | hn
            · rw [Nat.min_eq_left hn]
              omega
            · rw [Nat.min_eq_right hn]
              omega

/-- What `recv` returns in a pass is the piece on offer. -/
theorem clientRecv_result (t : Transport) (o : Offer) (m : Nat) (unread : Bytes) :
    t.clientRecv (o.result t m unread) = .ok (o.piece (t.asks m) unread) := by
  have hrecv : ∀ r, t.clientRecv r = recvWith r := by
    intro r
    cases t with
    | tcp => rfl
    | tls => rfl
  rw [hrecv]
  unfold Offer.result
  by_cases href : t.refuses m = true
  · -- nothing is read, whatever is on offer
    have hnone : o.piece (t.asks m) unread = [] :=
      List.eq_nil_of_length_eq_zero (Nat.le_zero.mp (Transport.asks_of_refuses href ▸ o.length_piece_le _ unread))
    rw [if_pos href, hnone]
    rfl
  · rw [if_neg href]
    cases o with
    | wouldBlock => rfl
    | upTo k => rfl

/-! ## The loop -/

/-- The subtraction `n_bytes - buffer.length()` on `size_t`, as long as it does not wrap around. -/
theorem request_toNat {nBytes : UInt64} {len : Nat} (h : len ≤ nBytes.toNat) :
    (nBytes - UInt64.ofNat len).toNat = nBytes.toNat - len := by
  have hlt : len < 2 ^ 64 := Nat.lt_of_le_of_lt h nBytes.toNat_lt
  have hlen : (UInt64.ofNat len).toNat = len := UInt64.toNat_ofNat_of_lt hlt
  rw [UInt64.toNat_sub_of_le _ _ (by rw [UInt64.le_iff_toNat_le, hlen]; exact h), hlen]

/-- The test `buffer.length() >= n_bytes`. -/
theorem le_ofNat_iff {nBytes : UInt64} {len : Nat} (h : len ≤ nBytes.toNat) :
    nBytes ≤ UInt64.ofNat len ↔ len = nBytes.toNat := by
  have hlt : len < 2 ^ 64 := Nat.lt_of_le_of_lt h nBytes.toNat_lt
  have hlen : (UInt64.ofNat len).toNat = len := UInt64.toNat_ofNat_of_lt hlt
  rw [UInt64.le_iff_toNat_le, hlen]
  omega

/-- How the loop ends when `missing` bytes were missing and `got` came before the deadline. -/
def outcome (deadline : Int) (ticks : List Tick) (buffer got : Bytes) (missing : Nat) :
    Except Abrupt (Option Bytes) :=
  if 0 < missing ∧ got.length = missing then .ok (some (buffer ++ got))
  else if ∃ k ∈ ticks, deadline ≤ k.now then .ok none
  else .error .running

/-- **What the loop does.** From a buffer that is not full it takes from the socket the bytes a reader gets
    who asks for what is missing; it returns the buffer with them when they are all that was missing, and else
    nothing once the clock has reached the deadline. Every request is positive and at most `n_bytes`. -/
structure Spun (t : Transport) (nBytes : UInt64) (deadline : Int) (ticks : List Tick) (s : Receiving)
    (out : Except Abrupt (Option Bytes) × Receiving) : Prop where
  result   : out.1 = outcome deadline ticks s.buffer
    (received t (nBytes.toNat - s.buffer.length) s.unread (live deadline ticks))
    (nBytes.toNat - s.buffer.length)
  taken    : out.2.taken =
    s.taken ++ received t (nBytes.toNat - s.buffer.length) s.unread (live deadline ticks)
  unread   : out.2.unread = s.unread.drop
    (received t (nBytes.toNat - s.buffer.length) s.unread (live deadline ticks)).length
  requests : ∀ r ∈ out.2.requests, r ∈ s.requests ∨ (r ≤ nBytes ∧ (0 < nBytes → 0 < r))

theorem live_cons_of_lt {deadline : Int} {tick : Tick} {ticks : List Tick} (h : tick.now < deadline) :
    live deadline (tick :: ticks) = tick.offer :: live deadline ticks := by
  unfold live
  rw [List.takeWhile_cons_of_pos (by simpa using h), List.map_cons]

theorem live_cons_of_le {deadline : Int} {tick : Tick} {ticks : List Tick} (h : ¬ tick.now < deadline) :
    live deadline (tick :: ticks) = [] := by
  unfold live
  rw [List.takeWhile_cons_of_neg (by simpa using h), List.map_nil]

/-- Only the sides of the deadline matter on which the readings are. -/
theorem live_congr {d d' : Int} {ticks : List Tick} (h : ∀ k ∈ ticks, k.now < d ↔ k.now < d') :
    live d ticks = live d' ticks := by
  induction ticks with
  | nil => rfl
  | cons tick ticks ih =>
      obtain ⟨hside, hrest⟩ := List.forall_mem_cons.mp h
      by_cases hlt : tick.now < d
      · rw [live_cons_of_lt hlt, live_cons_of_lt (hside.mp hlt), ih hrest]
      · rw [live_cons_of_le hlt, live_cons_of_le (fun hlt' => hlt (hside.mpr hlt'))]

/-- A pass before the deadline. -/
theorem spin_cons {t : Transport} {nBytes : UInt64} {deadline : Int} {tick : Tick} {ticks : List Tick}
    {s : Receiving} (h : tick.now < deadline) (hle : s.buffer.length ≤ nBytes.toNat) {p : Bytes}
    (hp : tick.offer.piece (t.asks (nBytes.toNat - s.buffer.length)) s.unread = p) :
    spin t nBytes deadline (tick :: ticks) s =
      if p ≠ [] ∧ (s.buffer ++ p).length = nBytes.toNat then
        (.ok (some (s.buffer ++ p)), ⟨s.buffer ++ p, s.unread.drop p.length, s.taken ++ p,
          s.requests ++ [nBytes - UInt64.ofNat s.buffer.length]⟩)
      else spin t nBytes deadline ticks ⟨s.buffer ++ p, s.unread.drop p.length, s.taken ++ p,
        s.requests ++ [nBytes - UInt64.ofNat s.buffer.length]⟩ := by
  have hlen : (s.buffer ++ p).length ≤ nBytes.toNat := by
    have := length_piece_le t tick.offer (nBytes.toNat - s.buffer.length) s.unread
    rw [hp] at this
    rw [List.length_append]
    omega
  simp only [spin, if_pos h, clientRecv_result, request_toNat hle, hp, le_ofNat_iff hlen]
  by_cases hempty : p = []
  · subst hempty
    simp
  · have hne : (!p.isEmpty) = true := by simpa using hempty
    rw [if_pos hne]
    simp only [ne_eq, hempty, not_false_eq_true, true_and]

/-- Nothing came: the call has not returned, or has timed out. -/
theorem outcome_of_nothing (deadline : Int) (ticks : List Tick) (buffer : Bytes) (missing : Nat) :
    outcome deadline ticks buffer [] missing =
      if ∃ k ∈ ticks, deadline ≤ k.now then .ok none else .error .running := by
  unfold outcome
  rw [if_neg]
  rintro ⟨hpos, hlen⟩
  exact absurd hpos (by rw [← hlen]; exact Nat.lt_irrefl 0)

/-- The outcome after a pass that did not fill the buffer is that of the rest of the ticks. -/
theorem outcome_cons {deadline : Int} {tick : Tick} {ticks : List Tick} {buffer p got : Bytes} {missing : Nat}
    (h : tick.now < deadline) (hp : p.length ≤ missing) (hmore : 0 < missing → p.length < missing) :
    outcome deadline (tick :: ticks) buffer (p ++ got) missing =
      outcome deadline ticks (buffer ++ p) got (missing - p.length) := by
  have hfull : (0 < missing ∧ (p ++ got).length = missing) ↔
      (0 < missing - p.length ∧ got.length = missing - p.length) := by
    rw [List.length_append]
    omega
  have hlate : (∃ k ∈ tick :: ticks, deadline ≤ k.now) ↔ ∃ k ∈ ticks, deadline ≤ k.now := by
    rw [List.exists_mem_cons_iff]
    exact or_iff_right (Int.not_le.mpr h)
  unfold outcome
  simp only [hfull, hlate, List.append_assoc]

/-! ### The cases of a pass -/

section Pass

variable {t : Transport} {nBytes : UInt64} {deadline : Int} {tick : Tick} {ticks : List Tick} {s : Receiving}
  {p : Bytes}

theorem spun_out : Spun t nBytes deadline [] s (spin t nBytes deadline [] s) := by
  refine ⟨?_, (List.append_nil _).symm, rfl, fun r hr => Or.inl hr⟩
  show Except.error .running = outcome deadline [] s.buffer [] _
  rw [outcome_of_nothing, if_neg (by simp)]

/-- The deadline has passed: no `recv`. -/
theorem spun_late (h : ¬ tick.now < deadline) :
    Spun t nBytes deadline (tick :: ticks) s (spin t nBytes deadline (tick :: ticks) s) := by
  have hout : spin t nBytes deadline (tick :: ticks) s = (.ok none, s) := by
    simp only [spin, if_neg h]
  rw [hout]
  refine ⟨?_, ?_, ?_, fun r hr => Or.inl hr⟩
  · rw [live_cons_of_le h, received, outcome_of_nothing, if_pos ⟨tick, List.mem_cons_self, Int.not_lt.mp h⟩]
  · rw [live_cons_of_le h, received, List.append_nil]
  · rw [live_cons_of_le h, received]
    rfl

/-- The bytes received from this pass on. -/
theorem received_live_cons (ticks : List Tick) (h : tick.now < deadline)
    (hp : tick.offer.piece (t.asks (nBytes.toNat - s.buffer.length)) s.unread = p) :
    received t (nBytes.toNat - s.buffer.length) s.unread (live deadline (tick :: ticks)) =
      p ++ received t (nBytes.toNat - (s.buffer ++ p).length) (s.unread.drop p.length) (live deadline ticks) := by
  rw [live_cons_of_lt h, received, hp, List.length_append, Nat.sub_add_eq]

/-- The request of a pass: never zero unless nothing was wanted, and never more than was wanted. -/
theorem request_bounds (hs : s.buffer.length < nBytes.toNat ∨ nBytes = 0 ∧ s.buffer = []) :
    nBytes - UInt64.ofNat s.buffer.length ≤ nBytes ∧
      (0 < nBytes → 0 < nBytes - UInt64.ofNat s.buffer.length) := by
  rcases hs with hlt | ⟨hzero, hnil⟩
  · rw [UInt64.le_iff_toNat_le, UInt64.lt_iff_toNat_lt, UInt64.lt_iff_toNat_lt,
      request_toNat (Nat.le_of_lt hlt)]
    exact ⟨Nat.sub_le _ _, fun _ => Nat.sub_pos_of_lt hlt⟩
  · rw [hzero, hnil]
    exact ⟨UInt64.le_refl _, fun hpos => absurd hpos (UInt64.lt_irrefl _)⟩

/-- The requests of a call that goes on from a pass with request `m`. -/
theorem requests_append {P : UInt64 → Prop} {m : UInt64} {rs : List UInt64} (hm : P m) :
    ∀ r ∈ rs ++ [m], r ∈ rs ∨ P r := by
  intro r hr
  rcases List.mem_append.mp hr with hr | hr
  · exact Or.inl hr
  · exact Or.inr (List.mem_singleton.mp hr ▸ hm)

/-- The buffer is full: the call returns. -/
theorem spun_full (h : tick.now < deadline) (hs : s.buffer.length < nBytes.toNat ∨ nBytes = 0 ∧ s.buffer = [])
    (hp : tick.offer.piece (t.asks (nBytes.toNat - s.buffer.length)) s.unread = p)
    (hne : p ≠ []) (hfull : (s.buffer ++ p).length = nBytes.toNat) :
    Spun t nBytes deadline (tick :: ticks) s
      (.ok (some (s.buffer ++ p)), ⟨s.buffer ++ p, s.unread.drop p.length, s.taken ++ p,
        s.requests ++ [nBytes - UInt64.ofNat s.buffer.length]⟩) := by
  have hgot : received t (nBytes.toNat - s.buffer.length) s.unread (live deadline (tick :: ticks)) = p := by
    rw [received_live_cons ticks h hp, hfull, Nat.sub_self, received_zero, List.append_nil]
  have hpos : 0 < p.length := List.length_pos_iff.mpr hne
  rw [List.length_append] at hfull
  refine ⟨?_, by rw [hgot], by rw [hgot], requests_append (request_bounds hs)⟩
  rw [hgot]
  exact (if_pos ⟨by omega, by omega⟩).symm

/-- The buffer is not full yet: the call goes on with the rest of the ticks. -/
theorem Spun.cons {out : Except Abrupt (Option Bytes) × Receiving} (h : tick.now < deadline)
    (hs : s.buffer.length < nBytes.toNat ∨ nBytes = 0 ∧ s.buffer = [])
    (hp : tick.offer.piece (t.asks (nBytes.toNat - s.buffer.length)) s.unread = p)
    (hmore : 0 < nBytes.toNat - s.buffer.length → p.length < nBytes.toNat - s.buffer.length)
    (hspun : Spun t nBytes deadline ticks ⟨s.buffer ++ p, s.unread.drop p.length, s.taken ++ p,
      s.requests ++ [nBytes - UInt64.ofNat s.buffer.length]⟩ out) :
    Spun t nBytes deadline (tick :: ticks) s out := by
  have hplen := length_piece_le t tick.offer (nBytes.toNat - s.buffer.length) s.unread
  rw [hp] at hplen
  have hgot := received_live_cons ticks h hp
  refine ⟨?_, ?_, ?_, ?_⟩
  · rw [hspun.result, hgot, outcome_cons h hplen hmore, List.length_append, Nat.sub_add_eq]
  · rw [hspun.taken, hgot, List.append_assoc]
  · rw [hspun.unread, hgot, List.drop_drop]
    exact congrArg (fun k => s.unread.drop k) List.length_append.symm
  · intro r hr
    rcases hspun.requests r hr with hold | hnew
    · exact requests_append (P := fun r => r ≤ nBytes ∧ (0 < nBytes → 0 < r)) (request_bounds hs) r hold
    · exact Or.inr hnew

end Pass

/-- **The loop does what `Spun` says**, from every buffer that is not full. -/
theorem spun_spin (t : Transport) (nBytes : UInt64) (deadline : Int) (ticks : List Tick) :
    ∀ s : Receiving, (s.buffer.length < nBytes.toNat ∨ nBytes = 0 ∧ s.buffer = []) →
      Spun t nBytes deadline ticks s (spin t nBytes deadline ticks s) := by
  induction ticks with
  | nil => intro s _; exact spun_out
  | cons tick ticks ih =>
      intro s hs
      by_cases h : tick.now < deadline
      · have hle : s.buffer.length ≤ nBytes.toNat := by
          rcases hs with hlt | ⟨_, hnil⟩
          · exact Nat.le_of_lt hlt
          · rw [hnil]
            exact Nat.zero_le _
        have hplen := length_piece_le t tick.offer (nBytes.toNat - s.buffer.length) s.unread
        obtain ⟨p, hp⟩ : ∃ p, tick.offer.piece (t.asks (nBytes.toNat - s.buffer.length)) s.unread = p := ⟨_, rfl⟩
        rw [hp] at hplen
        rw [spin_cons h hle hp]
        by_cases hfull : p ≠ [] ∧ (s.buffer ++ p).length = nBytes.toNat
        · rw [if_pos hfull]
          exact spun_full h hs hp hfull.1 hfull.2
        · rw [if_neg hfull]
          -- an empty piece leaves something missing, and so does one that does not fill the buffer
          have hmore : 0 < nBytes.toNat - s.buffer.length → p.length < nBytes.toNat - s.buffer.length := by
            intro hpos
            by_cases hempty : p = []
            · rw [hempty]
              exact hpos
            · have hne : (s.buffer ++ p).length ≠ nBytes.toNat := fun hlen => hfull ⟨hempty, hlen⟩
              rw [List.length_append] at hne
              omega
          apply Spun.cons h hs hp hmore
          apply ih
          rcases hs with hlt | ⟨hzero, hnil⟩
          · have := hmore (Nat.sub_pos_of_lt hlt)
            apply Or.inl
            rw [List.length_append]
            omega
          · rw [hzero, hnil] at hplen
            refine Or.inr ⟨hzero, ?_⟩
            rw [hnil, List.nil_append]
            exact List.eq_nil_of_length_eq_zero (Nat.le_zero.mp hplen)
      · exact spun_late h

/-! ## The instant the call ends -/

theorem wrap64_lt (n : Int) : wrap64 n < 2 ^ 63 := by
  have h := Int.bmod_lt (x := n) (m := 2 ^ 64) (by decide)
  unfold wrap64
  omega

theorem wrap64_of_fits {n : Int} (hle : -2 ^ 63 ≤ n) (hlt : n < 2 ^ 63) : wrap64 n = n := by
  unfold wrap64
  apply Int.bmod_eq_of_le
  · omega
  · omega

/-- Wrapping around once is enough. -/
theorem deadline_eq (start timeout : Int) : deadline start timeout = wrap64 (start + timeout * 1000000) :=
  Int.add_bmod_bmod

/-- **`start + timeout` can be told from the wrapped one by no reading of the clock.** It is below the end of
    the clock's range; and where it is below its beginning, what it wraps around to is no later than
    `start`, so that neither is ever ahead. -/
def DeadlineFits (start timeout : Int) : Prop :=
  start + timeout * 1000000 < 2 ^ 63 ∧
    (-2 ^ 63 ≤ start + timeout * 1000000 ∨ wrap64 (start + timeout * 1000000) ≤ start)

instance (start timeout : Int) : Decidable (DeadlineFits start timeout) :=
  inferInstanceAs (Decidable (_ ∧ _))

/-- Readings of a steady clock that stood at `start`: none is before the one before it, and all are what an
    `int64_t` can hold. -/
def Readings (start : Int) (ticks : List Tick) : Prop :=
  (start :: ticks.map Tick.now).Pairwise (· ≤ ·) ∧ ∀ k ∈ ticks, k.now < 2 ^ 63

instance (start : Int) (ticks : List Tick) : Decidable (Readings start ticks) :=
  inferInstanceAs (Decidable (_ ∧ _))

theorem Readings.le_now {start : Int} {ticks : List Tick} (h : Readings start ticks) {k : Tick}
    (hk : k ∈ ticks) : start ≤ k.now :=
  List.rel_of_pairwise_cons h.1 (List.mem_map_of_mem hk)

/-- When it fits, every reading is on the same side of both. -/
theorem DeadlineFits.now_lt_iff {start timeout : Int} (h : DeadlineFits start timeout)
    (hstart : -2 ^ 63 ≤ start) {ticks : List Tick} (hread : Readings start ticks) :
    ∀ k ∈ ticks, k.now < deadline start timeout ↔ k.now < start + timeout * 1000000 := by
  intro k hk
  have hle := hread.le_now hk
  rw [deadline_eq]
  rcases h with ⟨hlt, hfits | hbefore⟩
  · rw [wrap64_of_fits hfits hlt]
  · by_cases hfits : -2 ^ 63 ≤ start + timeout * 1000000
    · rw [wrap64_of_fits hfits hlt]
    · exact iff_of_false (by omega) (by omega)

/-! ## The call -/

/-- **A call of `recv_spinlock` that was to end at `deadline` returned exactly `n_bytes` bytes or nothing.** -/
structure ReturnsExactly (t : Transport) (nBytes : UInt64) (deadline : Int) (ticks : List Tick)
    (unread : Bytes) (out : Except Abrupt (Option Bytes) × Receiving) : Prop where
  /-- It returns a string if and only if the pieces received in the passes begun before the deadline add up
      to `n_bytes`. -/
  returns  : (∃ str, out.1 = .ok (some str)) ↔
    (received t nBytes.toNat unread (live deadline ticks)).length = nBytes.toNat
  /-- The string is the first `n_bytes` bytes of the stream. -/
  string   : ∀ str, out.1 = .ok (some str) → str = unread.take nBytes.toNat ∧ str.length = nBytes.toNat
  /-- It gives up if and only if they do not and the clock has reached the deadline. -/
  gives    : out.1 = .ok none ↔
    (received t nBytes.toNat unread (live deadline ticks)).length ≠ nBytes.toNat ∧
      ∃ k ∈ ticks, deadline ≤ k.now
  /-- No request is zero or above `n_bytes`; the subtraction wraps around for none of them. -/
  requests : ∀ r ∈ out.2.requests, 1 ≤ r ∧ r ≤ nBytes
  /-- The bytes taken from the socket are those received, and at most `n_bytes`. -/
  taken    : out.2.taken = received t nBytes.toNat unread (live deadline ticks) ∧
    out.2.taken.length ≤ nBytes.toNat

/-- The loop is exact, whatever the instant at which it is to end. -/
theorem returnsExactly_spin (t : Transport) {nBytes : UInt64} (hn : 1 ≤ nBytes) (deadline : Int)
    (ticks : List Tick) (unread : Bytes) :
    ReturnsExactly t nBytes deadline ticks unread (spin t nBytes deadline ticks ⟨[], unread, [], []⟩) := by
  have hpos : 0 < nBytes.toNat := UInt64.le_iff_toNat_le.mp hn
  have hspun := spun_spin t nBytes deadline ticks ⟨[], unread, [], []⟩ (Or.inl hpos)
  generalize spin t nBytes deadline ticks ⟨[], unread, [], []⟩ = out at hspun ⊢
  have hrequests : ∀ r ∈ out.2.requests, 1 ≤ r ∧ r ≤ nBytes := by
    intro r hr
    rcases hspun.requests r hr with hr | ⟨hle, hlt⟩
    · exact absurd hr List.not_mem_nil
    · have hone := UInt64.lt_iff_toNat_lt.mp (hlt (UInt64.lt_iff_toNat_lt.mpr hpos))
      exact ⟨UInt64.le_iff_toNat_le.mpr hone, hle⟩
  have htaken : out.2.taken = received t nBytes.toNat unread (live deadline ticks) := hspun.taken
  have hbound : out.2.taken.length ≤ nBytes.toNat := by
    rw [htaken]
    exact length_received_le t _ nBytes.toNat unread
  have hresult := hspun.result
  simp only [List.length_nil, Nat.sub_zero, outcome, hpos, true_and, List.nil_append] at hresult
  by_cases hfull : (received t nBytes.toNat unread (live deadline ticks)).length = nBytes.toNat
  · -- the pieces add up: the string is the beginning of the stream of that length
    rw [if_pos hfull] at hresult
    refine ⟨⟨fun _ => hfull, fun _ => ⟨_, hresult⟩⟩, ?_, ?_, hrequests, htaken, hbound⟩
    · intro str hstr
      rw [hresult, Except.ok.injEq, Option.some.injEq] at hstr
      subst hstr
      refine ⟨?_, hfull⟩
      have htake := List.prefix_iff_eq_take.mp
        (received_prefix_unread t (live deadline ticks) nBytes.toNat unread)
      rwa [hfull] at htake
    · rw [hresult]
      exact ⟨fun h => absurd h (by simp), fun h => absurd hfull h.1⟩
  · -- they do not: the call has given up, or is still running
    rw [if_neg hfull] at hresult
    have hnone : ∀ str, out.1 ≠ .ok (some str) := by
      intro str hstr
      rw [hresult] at hstr
      split at hstr
      · exact absurd hstr (by simp)
      · exact absurd hstr (by simp)
    refine ⟨⟨fun ⟨str, hstr⟩ => absurd hstr (hnone str), fun h => absurd h hfull⟩,
      fun str hstr => absurd hstr (hnone str), ?_, hrequests, htaken, hbound⟩
    rw [hresult]
    by_cases hlate : ∃ k ∈ ticks, deadline ≤ k.now
    · rw [if_pos hlate]
      exact ⟨fun _ => ⟨hfull, hlate⟩, fun _ => rfl⟩
    · rw [if_neg hlate]
      exact ⟨fun h => absurd h (by simp), fun h => absurd h.2 hlate⟩

theorem ReturnsExactly.congr {t : Transport} {nBytes : UInt64} {d d' : Int} {ticks : List Tick}
    {unread : Bytes} {out : Except Abrupt (Option Bytes) × Receiving}
    (h : ReturnsExactly t nBytes d ticks unread out) (hside : ∀ k ∈ ticks, k.now < d ↔ k.now < d') :
    ReturnsExactly t nBytes d' ticks unread out := by
  have hlate : (∃ k ∈ ticks, d ≤ k.now) ↔ ∃ k ∈ ticks, d' ≤ k.now := by
    apply exists_congr
    intro k
    apply and_congr_right
    intro hk
    rw [← Int.not_lt, ← Int.not_lt, hside k hk]
  obtain ⟨hreturns, hstring, hgives, hrequests, htaken⟩ := h
  rw [live_congr hside] at hreturns hgives htaken
  rw [hlate] at hgives
  exact ⟨hreturns, hstring, hgives, hrequests, htaken⟩

/-- A timeout so long that the instant is past the clock's range: the call gives up too early. -/
theorem not_returnsExactly_of_past {t : Transport} {nBytes : UInt64} {start timeout : Int}
    (h : 2 ^ 63 ≤ start + timeout * 1000000) :
    ¬ ReturnsExactly t nBytes (start + timeout * 1000000) [⟨2 ^ 63 - 1, .wouldBlock⟩] []
      (recvSpinlock t nBytes timeout start [⟨2 ^ 63 - 1, .wouldBlock⟩] []) := by
  intro hexact
  have hlt := wrap64_lt (start + timeout * 1000000)
  have hout : (recvSpinlock t nBytes timeout start [⟨2 ^ 63 - 1, .wouldBlock⟩] []).1 = .ok none := by
    unfold recvSpinlock spin
    rw [deadline_eq, if_neg (by simp only; omega)]
  obtain ⟨_, k, hk, hle⟩ := hexact.gives.mp hout
  rw [List.mem_singleton] at hk
  rw [hk] at hle
  simp only at hle
  omega

/-- A timeout so far in the past that the instant wraps around to a later one: the call goes on. -/
theorem not_returnsExactly_of_later {t : Transport} {nBytes : UInt64} (hn : 1 ≤ nBytes) {start timeout : Int}
    (h : start + timeout * 1000000 < start) (hlater : start < wrap64 (start + timeout * 1000000)) :
    ¬ ReturnsExactly t nBytes (start + timeout * 1000000) [⟨start, .wouldBlock⟩] []
      (recvSpinlock t nBytes timeout start [⟨start, .wouldBlock⟩] []) := by
  intro hexact
  have hpos : 0 < nBytes.toNat := UInt64.le_iff_toNat_le.mp hn
  have hearly : live (start + timeout * 1000000) [⟨start, .wouldBlock⟩] = [] :=
    live_cons_of_le (Int.not_lt.mpr (Int.le_of_lt h))
  have hout := hexact.gives.mpr ⟨by rw [hearly]; exact Nat.ne_of_lt hpos,
    ⟨start, .wouldBlock⟩, List.mem_cons_self, Int.le_of_lt h⟩
  -- the pass is made, and nothing comes
  have hrunning : (recvSpinlock t nBytes timeout start [⟨start, .wouldBlock⟩] []).1 = .error .running := by
    unfold recvSpinlock
    rw [spin_cons (p := []) (by rw [deadline_eq]; exact hlater) (Nat.zero_le _) rfl, if_neg (by simp)]
    rfl
  rw [hrunning] at hout
  exact absurd hout (by simp)

/-- **`recv_spinlock` is exact if and only if `start + timeout` fits.** For either kind of client, every
    positive size, every timeout and every start of the call: the call returns exactly `n_bytes` bytes or
    nothing, for every sequence of clock readings and of offers of the socket, if and only if the instant
    `start + timeout` is one the clock can have (or was before `start` anyway). -/
theorem recvSpinlock_returnsExactly_iff (t : Transport) (nBytes : UInt64) (hn : 1 ≤ nBytes)
    (timeout start : Int64) :
    (∀ ticks unread, Readings start.toInt ticks →
      ReturnsExactly t nBytes (start.toInt + timeout.toInt * 1000000) ticks unread
        (recvSpinlock t nBytes timeout.toInt start.toInt ticks unread)) ↔
      DeadlineFits start.toInt timeout.toInt := by
  constructor
  · intro h
    by_contra hnot
    by_cases hpast : 2 ^ 63 ≤ start.toInt + timeout.toInt * 1000000
    · refine not_returnsExactly_of_past hpast (h _ [] ⟨?_, ?_⟩)
      · have hlt := start.toInt_lt
        simp
        omega
      · simp
    · have hlater : start.toInt + timeout.toInt * 1000000 < start.toInt ∧
          start.toInt < wrap64 (start.toInt + timeout.toInt * 1000000) := by
        have hge := start.le_toInt
        unfold DeadlineFits at hnot
        omega
      refine not_returnsExactly_of_later hn hlater.1 hlater.2 (h _ [] ⟨?_, ?_⟩)
      · simp
      · have hlt := start.toInt_lt
        simpa using hlt
  · intro hfits ticks unread hread
    have hexact := returnsExactly_spin t hn (deadline start.toInt timeout.toInt) ticks unread
    exact hexact.congr (hfits.now_lt_iff start.le_toInt hread)

/-- A stream that begins with `"hello1\n"`. -/
def hello : Bytes := [104, 101, 108, 108, 111, 49, 10, 33]

/-- Seven bytes in two pieces within a second, with an empty read before and more on offer than is wanted. -/
theorem recvSpinlock_returnsExactly_seven :
    (recvSpinlock .tcp 7 1000 0 [⟨1, .wouldBlock⟩, ⟨2, .upTo 3⟩, ⟨3, .upTo 9⟩] hello).1 =
        .ok (some [104, 101, 108, 108, 111, 49, 10]) ∧
      (recvSpinlock .tcp 7 1000 0 [⟨1, .wouldBlock⟩, ⟨2, .upTo 3⟩, ⟨3, .upTo 9⟩] hello).2.requests =
        [7, 7, 4] ∧
      ReturnsExactly .tcp 7 (0 + 1000 * 1000000) [⟨1, .wouldBlock⟩, ⟨2, .upTo 3⟩, ⟨3, .upTo 9⟩] hello
        (recvSpinlock .tcp 7 1000 0 [⟨1, .wouldBlock⟩, ⟨2, .upTo 3⟩, ⟨3, .upTo 9⟩] hello) := by
  refine ⟨by decide, by decide, ?_⟩
  exact (recvSpinlock_returnsExactly_iff .tcp 7 (by decide) 1000 0).mpr (by decide) _ hello (by decide)

/-- **`milliseconds::max()` is in the past.** The bytes are there when the call starts, and it returns
    nothing without having read. -/
theorem not_returnsExactly_max :
    Readings 0 [⟨1, .upTo 9⟩] ∧
      recvSpinlock .tcp 7 Int64.maxValue.toInt 0 [⟨1, .upTo 9⟩] hello = (.ok none, ⟨[], hello, [], []⟩) ∧
      (received .tcp 7 hello (live (0 + Int64.maxValue.toInt * 1000000) [⟨1, .upTo 9⟩])).length = 7 ∧
      ¬ ReturnsExactly .tcp 7 (0 + Int64.maxValue.toInt * 1000000) [⟨1, .upTo 9⟩] hello
        (recvSpinlock .tcp 7 Int64.maxValue.toInt 0 [⟨1, .upTo 9⟩] hello) := by
  have hout : recvSpinlock .tcp 7 Int64.maxValue.toInt 0 [⟨1, .upTo 9⟩] hello =
      (.ok none, ⟨[], hello, [], []⟩) := by
    decide
  have hall : (received .tcp 7 hello (live (0 + Int64.maxValue.toInt * 1000000) [⟨1, .upTo 9⟩])).length =
      7 := by
    decide
  refine ⟨by decide, hout, hall, ?_⟩
  intro hexact
  obtain ⟨str, hstr⟩ := hexact.returns.mpr hall
  rw [hout] at hstr
  exact absurd hstr (by simp)

end Client

end Neblina

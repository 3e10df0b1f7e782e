import Neblina.Client.Client
import Neblina.Server.Send

/-!
# `Client.Send` — whether the four `send` functions send exactly the data

The results of the calls are an infinite sequence, of which a `send` uses as many as it makes calls: a
`send` that ends does so on some number of first results, one that never ends is still running on all of
them. What the calls can return is stated as a hypothesis on the sequence: `KernelTakes` for `::send`,
`TlsTakes` for `SSL_write`.

* `tcp_send_exact_iff` — over a socket, the bytes taken are the data (or, after an error, the beginning of
  it) exactly when every accepted write `Fits`;
* `tls_send_exact_iff` — over TLS, moreover, no call may return zero.
-/

namespace Neblina

/-- The results of the first `n` calls. -/
def firstResults (results : Nat → SendResult) (n : Nat) : List SendResult := (List.range n).map results

/-- **The outcome is right**: a normal return means that the bytes taken are the data, an exception that
    they are the beginning of it. -/
structure SendOutcome.Exact (data : Bytes) (o : SendOutcome) : Prop where
  returned : o.stop = none → o.accepted = data
  threw    : ∀ e, o.stop = some (.throws e) → o.accepted <+: data

/-- The `send` ends, with the right outcome. -/
def SendsExactly (send : Bytes → List SendResult → SendOutcome) (data : Bytes)
    (results : Nat → SendResult) : Prop :=
  ∃ n, (send data (firstResults results n)).stop ≠ some .running ∧
    (send data (firstResults results n)).Exact data

section

variable {data : Bytes} {results : Nat → SendResult}

theorem mem_firstResults {n : Nat} {x : SendResult} (h : x ∈ firstResults results n) : ∃ k, results k = x := by
  obtain ⟨k, _, hk⟩ := List.mem_map.mp h
  exact ⟨k, hk⟩

/-- The first call, and those after it. -/
theorem firstResults_succ (n : Nat) :
    firstResults results (n + 1) = results 0 :: firstResults (fun k => results (k + 1)) n := by
  unfold firstResults
  rw [List.range_succ_eq_map, List.map_cons, List.map_map]
  rfl

theorem firstResults_of_le (results : Nat → SendResult) {m n : Nat} (h : m ≤ n) :
    ∃ more, firstResults results n = firstResults results m ++ more := by
  obtain ⟨d, rfl⟩ := Nat.exists_eq_add_of_le h
  refine ⟨((List.range d).map (m + ·)).map results, ?_⟩
  unfold firstResults
  rw [List.range_add, List.map_append]

/-- The calls that were made when the loop had ended are all that are ever made. -/
theorem made_of_ended {n : Nat} (hends : (sendLoop data (firstResults results n) 0 []).stop ≠ some .running)
    (m : Nat) :
    (∀ x ∈ made data (firstResults results m) 0, x ∈ made data (firstResults results n) 0) ∧
      (Fits data (firstResults results n) 0 → Fits data (firstResults results m) 0) := by
  rcases Nat.le_total m n with hle | hle
  · obtain ⟨more, hmore⟩ := firstResults_of_le results hle
    obtain ⟨hmade, hfits⟩ := made_prefix_append data (firstResults results m) more 0
    rw [← hmore] at hmade hfits
    exact ⟨fun x hx => hmade.subset hx, hfits⟩
  · obtain ⟨more, hmore⟩ := firstResults_of_le results hle
    obtain ⟨hmade, hfits⟩ := sendLoop_append data (firstResults results n) more 0 [] hends
    rw [← hmore] at hmade hfits
    exact ⟨fun x hx => hmade ▸ hx, hfits.mpr⟩

/-- An ended loop has the right outcome exactly when every accepted write fits. -/
theorem exact_iff_fits {n : Nat} (hle : ∀ k r, results k = .accepted r → r ≤ data.length)
    (hends : (sendLoop data (firstResults results n) 0 []).stop ≠ some .running) :
    (sendLoop data (firstResults results n) 0 []).Exact data ↔ Fits data (firstResults results n) 0 := by
  have hmem : ∀ r, .accepted r ∈ firstResults results n → r ≤ data.length := by
    intro r hr
    obtain ⟨k, hk⟩ := mem_firstResults hr
    exact hle k r hk
  rw [← accepted_prefix_iff data _ 0 [] hmem List.nil_prefix rfl]
  constructor
  · intro hexact
    rcases sendLoop_stop data (firstResults results n) 0 [] with hstop | hstop | ⟨e, hstop⟩
    · rw [hexact.returned hstop]
    · exact absurd hstop hends
    · exact hexact.threw e hstop
  · intro hfront
    refine ⟨fun hstop => ?_, fun e _ => hfront⟩
    -- a beginning of `data` that is as long as `data`
    exact hfront.eq_of_length_le (length_le_accepted data _ 0 [] hmem rfl hstop)

/-- The condition is necessary, for every function that runs the loop. -/
theorem fits_of_sendsExactly (hle : ∀ k r, results k = .accepted r → r ≤ data.length)
    (h : SendsExactly (fun data rs => sendLoop data rs 0 []) data results) (m : Nat) :
    Fits data (firstResults results m) 0 := by
  obtain ⟨n, hends, hexact⟩ := h
  exact (made_of_ended hends m).2 ((exact_iff_fits hle hends).mp hexact)

/-- **A loop whose calls are never answered with zero ends.** -/
theorem ended_of_no_zero (hzero : ∀ n, .accepted 0 ∉ made data (firstResults results n) 0) :
    ∃ n, (sendLoop data (firstResults results n) 0 []).stop ≠ some .running := by
  refine ⟨data.length, fun hstop => ?_⟩
  have hlt := length_lt_of_running data _ 0 [] (hzero data.length) hstop
  unfold firstResults at hlt
  rw [List.length_map, List.length_range] at hlt
  omega

theorem made_sublist (data : Bytes) (rs : List SendResult) (pos : Nat) : made data rs pos <+: rs := by
  induction rs, pos, ([] : Bytes) using passes_rec data with
  | ended rs pos done h =>
      rw [made_done h]
      exact List.nil_prefix
  | out pos done h => exact List.nil_prefix
  | failed errno rs pos done h =>
      rw [made_failed h]
      exact ⟨rs, rfl⟩
  | accepted r rs pos done h ih =>
      rw [made_accepted h]
      exact List.cons_prefix_cons.mpr ⟨rfl, ih⟩

end

/-! ## Over a socket -/

/-- What `::send(fd, buf, len)` returns for `len > 0`: it takes at least one and at most `len` bytes, the
    first ones of `buf`, or it fails and takes none. -/
def KernelTakes (data : Bytes) (results : Nat → SendResult) : Prop :=
  data ≠ [] → ∀ k r, results k = .accepted r → 1 ≤ r ∧ r ≤ data.length

/-- **When the `send` of a TCP connection or client sends exactly the data.** The kernel may take any part of
    what it is offered. Both functions end; and the bytes taken are the data on a normal return and the
    beginning of it after an error if and only if every write that was accepted at a position `pos` put
    bytes that stand at `pos` in the data. -/
theorem tcp_send_exact_iff (data : Bytes) (results : Nat → SendResult) (hkernel : KernelTakes data results) :
    (SendsExactly TCPConnection.send data results ∧ SendsExactly TCPClient.send data results) ↔
      ∀ n, Fits data (firstResults results n) 0 := by
  have hsame : SendsExactly TCPClient.send data results ↔ SendsExactly TCPConnection.send data results := Iff.rfl
  rw [hsame, and_self]
  by_cases hd : data = []
  · subst hd
    refine ⟨fun _ n => fits_done (Nat.not_lt_zero _), fun _ => ⟨0, ?_, ?_⟩⟩
    · simp [TCPConnection.send, sendLoop_nil]
    · exact ⟨fun _ => rfl, fun e _ => List.nil_prefix⟩
  · have hle : ∀ k r, results k = .accepted r → r ≤ data.length := fun k r h => (hkernel hd k r h).2
    constructor
    · exact fun h => fits_of_sendsExactly hle h
    · intro hfits
      have hzero : ∀ n, .accepted 0 ∉ made data (firstResults results n) 0 := by
        intro n hmem
        obtain ⟨k, hk⟩ := mem_firstResults ((made_sublist data _ 0).subset hmem)
        exact absurd (hkernel hd k 0 hk).1 (by omega)
      obtain ⟨n, hends⟩ := ended_of_no_zero hzero
      exact ⟨n, hends, (exact_iff_fits hle hends).mpr (hfits n)⟩

/-- `"ab"` in one write. -/
theorem tcp_send_exact_whole :
    KernelTakes [97, 98] (fun _ => .accepted 2) ∧
      (SendsExactly TCPConnection.send [97, 98] (fun _ => .accepted 2) ∧
        SendsExactly TCPClient.send [97, 98] (fun _ => .accepted 2)) := by
  have hkernel : KernelTakes [97, 98] (fun _ => .accepted 2) := by
    intro _ k r h
    cases h
    decide
  refine ⟨hkernel, (tcp_send_exact_iff _ _ hkernel).mpr ?_⟩
  intro n
  cases n with
  | zero => trivial
  | succ n =>
      rw [firstResults_succ]
      exact fits_whole [97, 98] _

/-- **A short write repeats the beginning.** The kernel takes one byte of `"ab"` at a time: the second write
    is offered `"ab"` again, and after it the call returns with `"aa"` sent. -/
theorem tcp_send_repeats :
    KernelTakes [97, 98] (fun _ => .accepted 1) ∧
      TCPConnection.send [97, 98] (firstResults (fun _ => .accepted 1) 2) = ⟨none, [97, 97], []⟩ ∧
      TCPClient.send [97, 98] (firstResults (fun _ => .accepted 1) 2) = ⟨none, [97, 97], []⟩ ∧
      ¬ SendsExactly TCPConnection.send [97, 98] (fun _ => .accepted 1) ∧
      ¬ SendsExactly TCPClient.send [97, 98] (fun _ => .accepted 1) := by
  have hkernel : KernelTakes [97, 98] (fun _ => .accepted 1) := by
    intro _ k r h
    cases h
    decide
  have hnot : ¬ SendsExactly (fun data rs => sendLoop data rs 0 []) [97, 98] (fun _ => .accepted 1) := by
    intro h
    have hfits := fits_of_sendsExactly (fun k r hk => (hkernel (by decide) k r hk).2) h 2
    exact absurd hfits (by decide)
  exact ⟨hkernel, by decide, by decide, hnot, hnot⟩

/-! ## Over TLS -/

/-- What `SSL_write(ssl, buf, num)` returns in its default mode, with `num` the length cast to `int`: it takes
    the first `num` bytes and returns `num`, or it returns zero or a negative value and takes none. -/
def TlsTakes (data : Bytes) (results : Nat → SendResult) : Prop :=
  ∀ k r, results k = .accepted r → r = 0 ∨ (r : Int) = castInt data.length

/-- The `send` ends with the right outcome, and a call that returned zero was the last one and led to an
    exception. -/
def SendsExactlyTls (send : Bytes → List SendResult → SendOutcome) (data : Bytes)
    (results : Nat → SendResult) : Prop :=
  ∃ n, (send data (firstResults results n)).stop ≠ some .running ∧
    (send data (firstResults results n)).Exact data ∧
    ∀ pre post, made data (firstResults results n) 0 = pre ++ .accepted 0 :: post →
      post = [] ∧ ∃ e, (send data (firstResults results n)).stop = some (.throws e)

/-- A call that returned zero is always followed by another pass. -/
theorem no_zero_of_sendsExactlyTls {data : Bytes} {results : Nat → SendResult}
    (h : SendsExactlyTls (fun data rs => sendLoop data rs 0 []) data results) (m : Nat) :
    .accepted 0 ∉ made data (firstResults results m) 0 := by
  obtain ⟨n, hends, _, hzero⟩ := h
  intro hmem
  obtain ⟨pre, post, hmade⟩ := List.append_of_mem ((made_of_ended hends m).1 _ hmem)
  obtain ⟨rfl, e, hstop⟩ := hzero pre post hmade
  exact hends (running_of_made_zero data _ 0 [] hmade)

/-- The two halves of the condition, for every function that runs the loop. -/
theorem tlsExact_iff {data : Bytes} {results : Nat → SendResult} (htls : TlsTakes data results) :
    SendsExactlyTls (fun data rs => sendLoop data rs 0 []) data results ↔
      ∀ n, Fits data (firstResults results n) 0 ∧ .accepted 0 ∉ made data (firstResults results n) 0 := by
  have hle : ∀ k r, results k = .accepted r → r ≤ data.length := by
    intro k r h
    rcases htls k r h with rfl | hr
    · exact Nat.zero_le _
    · have := castInt_le data.length
      omega
  constructor
  · intro h n
    obtain ⟨m, hends, hexact, _⟩ := id h
    exact ⟨fits_of_sendsExactly hle ⟨m, hends, hexact⟩ n, no_zero_of_sendsExactlyTls h n⟩
  · intro hall
    obtain ⟨n, hends⟩ := ended_of_no_zero (fun n => (hall n).2)
    refine ⟨n, hends, (exact_iff_fits hle hends).mpr (hall n).1, ?_⟩
    -- no call returned zero
    intro pre post hmade
    apply absurd _ (hall n).2
    rw [hmade]
    exact List.mem_append_right _ List.mem_cons_self

/-- **When the `send` of a TLS connection or client sends exactly the data.** `SSL_write` takes all of the
    `num` bytes it is offered, where `num` is the length of the data cast to `int`, or nothing. Both functions
    end, with the data sent on a normal return and the beginning of it after an error, and with an error
    after a result of zero, if and only if no call returns zero and every write that was accepted at a
    position `pos` put bytes that stand at `pos` in the data. -/
theorem tls_send_exact_iff (data : Bytes) (results : Nat → SendResult) (htls : TlsTakes data results) :
    (SendsExactlyTls SSLConnection.send data results ∧ SendsExactlyTls SSLClient.send data results) ↔
      ∀ n, Fits data (firstResults results n) 0 ∧ .accepted 0 ∉ made data (firstResults results n) 0 := by
  have hsame : SendsExactlyTls SSLClient.send data results ↔ SendsExactlyTls SSLConnection.send data results :=
    Iff.rfl
  rw [← hsame, and_self]
  exact tlsExact_iff htls

/-- `"ab"` is taken by the first `SSL_write`. -/
theorem tls_send_exact_whole :
    TlsTakes [97, 98] (fun _ => .accepted 2) ∧
      (SendsExactlyTls SSLConnection.send [97, 98] (fun _ => .accepted 2) ∧
        SendsExactlyTls SSLClient.send [97, 98] (fun _ => .accepted 2)) := by
  have htls : TlsTakes [97, 98] (fun _ => .accepted 2) := by
    intro k r h
    cases h
    decide
  refine ⟨htls, (tls_send_exact_iff _ _ htls).mpr ?_⟩
  intro n
  cases n with
  | zero => exact ⟨trivial, by decide⟩
  | succ n =>
      rw [firstResults_succ]
      refine ⟨fits_whole [97, 98] _, ?_⟩
      rw [made_accepted (by decide), made_done (by decide)]
      decide

/-- **Data whose length is an `int`**: the first accepted `SSL_write` takes it all, so only a result of zero
    stands in the way. -/
theorem tls_send_exact_iff_of_lt (data : Bytes) (results : Nat → SendResult) (htls : TlsTakes data results)
    (hlen : data.length < 2 ^ 31) :
    SendsExactlyTls SSLClient.send data results ↔
      ∀ n, .accepted 0 ∉ made data (firstResults results n) 0 := by
  have hiff := tlsExact_iff htls
  refine hiff.trans ⟨fun h n => (h n).2, fun h n => ⟨?_, h n⟩⟩
  cases n with
  | zero => trivial
  | succ n =>
      have hzero := h (n + 1)
      rw [firstResults_succ] at hzero ⊢
      cases hfirst : results 0 with
      | failed errno => trivial
      | accepted r =>
          rw [hfirst] at hzero
          rcases htls 0 r hfirst with rfl | hr
          · -- a zero is only made when there is something to send
            intro hpos
            rw [made_accepted hpos] at hzero
            exact absurd List.mem_cons_self hzero
          · rw [castInt_of_lt hlen, Int.natCast_inj] at hr
            rw [hr]
            exact fits_whole data _

/-- **A result of zero is tried again for ever.** Every `SSL_write` of `"a"` returns zero: neither function
    ever ends. -/
theorem tls_send_spins_on_zero :
    TlsTakes [97] (fun _ => .accepted 0) ∧
      (∀ n, (SSLConnection.send [97] (firstResults (fun _ => .accepted 0) n)).stop = some .running) ∧
      ¬ SendsExactlyTls SSLConnection.send [97] (fun _ => .accepted 0) ∧
      ¬ SendsExactlyTls SSLClient.send [97] (fun _ => .accepted 0) := by
  have hspin : ∀ n done, (sendLoop [97] (firstResults (fun _ => .accepted 0) n) 0 done).stop = some .running := by
    intro n
    induction n with
    | zero => exact fun done => rfl
    | succ n ih =>
        intro done
        rw [firstResults_succ, sendLoop_accepted (by decide)]
        exact ih _
  have hnot : ¬ SendsExactlyTls (fun data rs => sendLoop data rs 0 []) [97] (fun _ => .accepted 0) :=
    fun ⟨n, hends, _⟩ => hends (hspin n [])
  refine ⟨?_, fun n => hspin n [], hnot, hnot⟩
  intro k r h
  cases h
  exact Or.inl rfl

end Neblina

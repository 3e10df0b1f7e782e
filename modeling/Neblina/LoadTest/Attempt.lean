import Neblina.Client.Receive
import Neblina.Server.Lines
import Neblina.Server.Send

/-!
# `LoadTest.Attempt` — one attempt of the load test against its own server

An attempt of `loadtest.cc` connects, sends ten random letters and digits and a newline, waits for eleven bytes
and compares. `attempt_of_mirror` puts the two ends together: what the client reads is a prefix of what the
server wrote to it, which is a prefix of what the client itself sent (`Sys.Replied.tx_prefix`), and
`recv_spinlock` returns all of the eleven bytes or none. So the test cannot report an incorrect result, as
long as the client's own `send` did not repeat itself.
-/

namespace Neblina

namespace LoadTest

/-- The `static const char* c` of `random_string`. -/
def letters : Bytes :=
  "0123456789ABCDEFGHIJKLMNOPQRSTUVWXYZabcdefghijklmnopqrstuvwxyz".toList.map (fun c => c.toNat.toUInt8)

/-- `random_string`, on the results of its calls of `rand`. -/
def randomString (rands : List Nat) : Bytes := rands.map (fun r => letters.getD (r % 62) 0)

/-- `random_string(10) + "\n"`. -/
def request (rands : List Nat) : Bytes := randomString rands ++ [10]

/-- `Result::Output`. -/
inductive Output where
  | success
  | timeout
  | incorrect
  | failedToConnect
  deriving DecidableEq, Repr

/-- `Result`. -/
structure Result where
  duration : Int
  output   : Output
  deriving DecidableEq, Repr

/-- What the outside decides in one attempt: whether the constructor of the client returns, the results of the
    writes of `send`, what the passes of `recv_spinlock` see, and the readings of the clock: at the start, in
    `recv_spinlock`, and at the end. -/
structure Conditions where
  connects : Bool
  writes   : List SendResult
  ticks    : List Tick
  start    : Int
  called   : Int
  stop     : Int
  deriving DecidableEq, Repr

/-- `client->send(str)`. -/
def clientSend : Transport → Bytes → List SendResult → SendOutcome
  | .tcp => TCPClient.send
  | .tls => SSLClient.send

/-- The body of the loop over the attempts. `incoming` is the stream from the server. When the client cannot be
    created, `duration` is not written, so it is whatever was there (`stale`); an exception of `send` or
    `recv_spinlock` is not caught. -/
def attempt (t : Transport) (str : Bytes) (stale : Int) (c : Conditions) (incoming : Bytes) :
    Except Abrupt Result :=
  if !c.connects then .ok ⟨stale, .failedToConnect⟩
  else
    match (clientSend t str c.writes).stop with
    | some e => .error e
    | none =>
        match (Client.recvSpinlock t 11 30000 c.called c.ticks incoming).1 with
        | .error e => .error e
        | .ok r =>
            let response := r.getD []
            .ok ⟨c.stop - c.start,
              if response = str then .success else if response.isEmpty then .timeout else .incorrect⟩

/-- The letters and digits are no newlines. -/
theorem newline_not_mem (rands : List Nat) : 10 ∉ randomString rands := by
  intro h
  obtain ⟨r, _, hr⟩ := List.mem_map.mp h
  have hlt : r % 62 < 62 := Nat.mod_lt _ (by decide)
  have hall : ∀ k < 62, letters.getD k 0 ≠ 10 := by decide
  exact hall (r % 62) hlt hr

theorem length_request (rands : List Nat) : (request rands).length = rands.length + 1 := by
  simp [request, randomString]

theorem clientSend_eq (t : Transport) (data : Bytes) (rs : List SendResult) :
    clientSend t data rs = sendLoop data rs 0 [] := by
  cases t with
  | tcp => rfl
  | tls => rfl

/-- The call of an attempt. -/
def call (c : Conditions) : Client.Timed := ⟨.recvSpinlock 11 30000, c.called, c.ticks⟩

/-- **The attempts that end**: without a client, or with the response of the call. -/
theorem attempt_cases {t : Transport} {str incoming : Bytes} {stale : Int} {c : Conditions} {r : Result}
    (h : attempt t str stale c incoming = .ok r) :
    (c.connects = false ∧ r.output = .failedToConnect) ∨
    (c.connects = true ∧ ∃ response rest, (call c).run t incoming = (.ok response, rest) ∧
      r.output = if response = str then .success else if response.isEmpty then .timeout else .incorrect) := by
  unfold attempt at h
  cases hc : c.connects with
  | false =>
      simp only [hc, Bool.not_false, if_true, Except.ok.injEq] at h
      exact Or.inl ⟨rfl, by rw [← h]⟩
  | true =>
      simp only [hc, Bool.not_true, Bool.false_eq_true, if_false] at h
      cases hsend : (clientSend t str c.writes).stop with
      | some e =>
          rw [hsend] at h
          exact absurd h (by simp)
      | none =>
          rw [hsend] at h
          cases hout : Client.recvSpinlock t 11 30000 c.called c.ticks incoming with
          | mk out rest =>
              simp only [hout] at h
              cases out with
              | error e => exact absurd h (by simp)
              | ok found =>
                  simp only [Except.ok.injEq] at h
                  refine Or.inr ⟨rfl, found.getD [], rest, ?_, by rw [← h]⟩
                  simp only [call, Client.Timed.run, hout]

/-- An attempt whose incoming stream begins as what it sent. -/
theorem attempt_of_prefix {t : Transport} {str incoming : Bytes} {stale : Int} {c : Conditions} {r : Result}
    (hlen : str.length = 11) (hin : incoming <+: str) (h : attempt t str stale c incoming = .ok r) :
    r.output ≠ .incorrect ∧
      (c.connects = true → (r.output = .success ↔ ((call c).arrivals t incoming).length = 11)) := by
  have hne : [] ≠ str := by
    rintro rfl
    exact absurd hlen (by decide)
  rcases attempt_cases h with ⟨hc, hout⟩ | ⟨hc, response, rest, hrun, hout⟩
  · refine ⟨by rw [hout]; decide, fun hc' => ?_⟩
    rw [hc] at hc'
    exact absurd hc' (by decide)
  · obtain ⟨_, _, hresponse⟩ := Client.Timed.run_ok hrun
    have hsize : (call c).call.size.toNat = 11 := rfl
    rw [hsize] at hresponse
    rcases hresponse with ⟨rfl, hall⟩ | ⟨rfl, hnot | hzero⟩
    · -- eleven bytes of a stream that begins as the request are the request
      have hsame : (call c).arrivals t incoming = str := by
        have hprefix : (call c).arrivals t incoming <+: str :=
          (Client.received_prefix_unread t _ _ incoming).trans hin
        exact hprefix.eq_of_length (by rw [hall, hlen])
      rw [if_pos hsame] at hout
      rw [hout]
      exact ⟨by decide, fun _ => ⟨fun _ => hall, fun _ => rfl⟩⟩
    · rw [if_neg hne, if_pos List.isEmpty_nil] at hout
      rw [hout]
      exact ⟨by decide, fun _ => ⟨fun hs => absurd hs (by decide), fun hs => absurd hs hnot⟩⟩
    · exact absurd hzero (by decide)

/-- **The load test never reports an incorrect result of its own server.** Let the server run, with any number
    of threads, clients and descriptors given out again, such that none of its `recv` and `send` calls fail
    and its writes take the whole buffer; let one of the clients be an attempt whose writes were all taken as
    they fit (`Fits`: none repeats bytes that were taken before), and let the stream it sees be any part of what
    the server wrote to it so far. If the attempt ends, its output is not `Incorrect`; if it connected, its
    output is `Success` exactly when all eleven bytes came in before the deadline; and once the server has
    read the request it has written all eleven. -/
theorem attempt_of_mirror {tc : ThreadCount} (S : Setup (LineState Unit)) (hS : S.machine = echo)
    (ls : List (Sys.Label tc)) (s : Sys tc (LineState Unit))
    (hsmooth : Transition.AllSteps (Sys.step S) (Sys.Allowed Sys.Smooth) (Sys.start S tc) ls)
    (hrun : Transition.run (Sys.step S) (Sys.start S tc) ls = some s) (id : Nat) (rands : List Nat)
    (hten : rands.length = 10) (c : Conditions)
    (hwrites : ∀ n, .accepted n ∈ c.writes → n ≤ (request rands).length)
    (hfits : Fits (request rands) c.writes 0)
    (hsent : (s.kernel.socks id).sent = (clientSend S.transport (request rands) c.writes).accepted)
    (incoming : Bytes) (hin : incoming <+: (s.kernel.socks id).tx) (stale : Int) (r : Result)
    (h : attempt S.transport (request rands) stale c incoming = .ok r) :
    r.output ≠ .incorrect ∧
      (c.connects = true → (r.output = .success ↔ ((call c).arrivals S.transport incoming).length = 11)) ∧
      ((s.kernel.socks id).reads.flatten = request rands → (s.kernel.socks id).tx = request rands) := by
  obtain ⟨own, hown, _⟩ :=
    (Sys.related_run (Sys.closed_replied hS (by simp)) hsmooth hrun).owner (Sys.sound_run hrun) id
  have hsends : (s.kernel.socks id).sent <+: request rands := by
    rw [hsent, clientSend_eq]
    exact (accepted_prefix_iff _ _ 0 [] hwrites List.nil_prefix rfl).mpr hfits
  have hlen : (request rands).length = 11 := by rw [length_request, hten]
  obtain ⟨houtput, hsuccess⟩ := attempt_of_prefix hlen (hin.trans (hown.tx_prefix.trans hsends)) h
  exact ⟨houtput, hsuccess, hown.tx_of_line (newline_not_mem rands)⟩

/-- The request `0123456789` gets to the load-test server in two parts, and is read at once. -/
def served : List (Sys.Label (.count 8)) :=
  Sys.comesIn ++
    [.env (.send 0 (request (List.range 10))), .env (.arrive 0 4), .wait (.ok [Sys.readable 5]),
      .go (Os.smooth 0), .env (.arrive 0 7), .worker ⟨5, by decide⟩ (Os.smooth 0)]

/-- The client writes all at once and reads the answer in two parts. -/
def patient : Conditions := ⟨true, [.accepted 11], [⟨1, .wouldBlock⟩, ⟨2, .upTo 6⟩, ⟨3, .upTo 16⟩], 0, 1, 4⟩

/-- In `served` the attempt succeeds. -/
theorem attempt_of_mirror_served :
    ∃ s r, Transition.run (Sys.step (Sys.mirror .tcp)) (Sys.start (Sys.mirror .tcp) (.count 8)) served =
        some s ∧
      attempt .tcp (request (List.range 10)) 0 patient (s.kernel.socks 0).tx = .ok r ∧
      r.output = .success := by
  have hsmooth : Transition.AllSteps (Sys.step (Sys.mirror .tcp)) (Sys.Allowed Sys.Smooth)
      (Sys.start (Sys.mirror .tcp) (.count 8)) served := by
    decide +kernel
  have hend : (Transition.run (Sys.step (Sys.mirror .tcp)) (Sys.start (Sys.mirror .tcp) (.count 8)) served).map
      (fun s => ((s.kernel.socks 0).sent, (s.kernel.socks 0).tx)) =
        some (request (List.range 10), request (List.range 10)) := by
    decide +kernel
  obtain ⟨s, hrun, hs⟩ := Option.map_eq_some_iff.mp hend
  rw [Prod.mk.injEq] at hs
  have hattempt : attempt .tcp (request (List.range 10)) 0 patient (request (List.range 10)) =
      .ok ⟨4, .success⟩ := by
    decide +kernel
  refine ⟨s, ⟨4, .success⟩, hrun, by rw [hs.2]; exact hattempt, ?_⟩
  refine ((attempt_of_mirror (Sys.mirror .tcp) rfl served s hsmooth hrun 0 (List.range 10) rfl patient
    ?_ ?_ ?_ _ (List.prefix_refl _) 0 ⟨4, .success⟩ ?_).2.1 rfl).mpr ?_
  · intro n hn
    have hn' : n = 11 := by simpa [patient] using hn
    rw [hn']
    decide
  · decide
  · rw [hs.1]
    decide +kernel
  · rw [hs.2]
    exact hattempt
  · rw [hs.2]
    decide +kernel

end LoadTest

end Neblina

import Neblina.Protocol.Conservation
import Neblina.Server.Isolation

/-!
# `Server.Lines` — a server of line sessions

`Protocol.Conservation` is about one `LineSession` that is handed chunks. Here the session is one of many in a
server: its chunks come through the poller, the queues and descriptors that are given out again. What was cut
from a client's stream, and what is left in its session's `buffer_`, is still exactly what was read from that
client, whatever fails (`lines_run`); and while nothing fails the client gets the replies to its own lines, in
order (`replied_run`).

The two echo servers of the repository are such servers. `mirrored_run` is what the load test relies on.
-/

namespace Neblina

open ThreadManager Splitting

variable {σ : Type} {tc : ThreadCount}

/-! ## One turn of a line session -/

namespace LineSession

variable {cfg : LineConfig} {received : Bytes} {own : LineState σ}

/-- **One turn accounts for the data it was handed.** -/
theorem conserved_onData (hsep : cfg.separator ≠ []) (init : σ) (f : σ → Bytes → Bytes × σ)
    (hc : Conserved cfg received own.calls own.buffer) (data : Bytes) :
    Conserved cfg (received ++ data) ((Machine.line cfg init f).onData own data).1.calls
      ((Machine.line cfg init f).onData own data).1.buffer := by
  have hfuel := Nat.lt_succ_self (own.buffer ++ data).length
  have hsettled := (loop_passes cfg hsep (Process.total f) _ 0 []
    { own with buffer := own.buffer ++ data } hfuel).settled hsep (hc.append hsep data)
  rw [loop_eq_framing cfg hsep f _ 0 [] { own with buffer := own.buffer ++ data } hfuel] at hsettled
  exact hsettled

/-- As long as no line was cut there is none to cut. -/
theorem first_onData (hsep : cfg.separator ≠ []) (init : σ) (f : σ → Bytes → Bytes × σ) (data : Bytes)
    (h : ((Machine.line cfg init f).onData own data).1.calls = []) :
    findFrom cfg.separator ((Machine.line cfg init f).onData own data).1.buffer 0 = none := by
  have hcut : own.calls ++ (framing cfg.separator 0 (own.buffer ++ data)).1.map cfg.frame = [] := h
  rw [List.append_eq_nil_iff, List.map_eq_nil_iff] at hcut
  cases hfind : findFrom cfg.separator (own.buffer ++ data) 0 with
  | some j =>
      rw [framing_of_some hsep hfind] at hcut
      exact absurd hcut.2 (by simp)
  | none =>
      show findFrom cfg.separator (framing cfg.separator 0 (own.buffer ++ data)).2 0 = none
      rw [framing_of_none hfind]
      exact hfind

end LineSession

/-- What a turn reads is handed to the session. -/
theorem Sock.reads_afterTurn (t : Transport) (m : Machine σ) (os : Os) (self : σ) (s : Sock) :
    (s.afterTurn t m os self).reads.flatten = s.reads.flatten ++ s.data t os := by
  show (s.afterRead t os).reads.flatten = _
  unfold Sock.afterRead Sock.data
  by_cases h : os.recv = none ∧ s.rx ≠ []
  · rw [if_pos h, if_pos h, List.flatten_append, List.flatten_singleton]
  · rw [if_neg h, if_neg h, List.append_nil]

/-- The `EchoProtocol` of `main.cc` and `demo/echo.cc`: `LineSession(connection, false)`, and
    `process(data)` is `"|" + data + "|\r\n"`. -/
def Demo.echo : Machine (LineState Unit) :=
  Machine.line ⟨[13, 10], false⟩ () (fun _ data => ([124] ++ data ++ [124, 13, 10], ()))

namespace Sys

open LineSession

/-! ## Whatever fails -/

/-- The session has cut its client's stream, and has the fields that go with the lines it cut. -/
structure Lined (cfg : LineConfig) (init : σ) (f : σ → Bytes → Bytes × σ) (s : Sock) (own : LineState σ) :
    Prop where
  ordered : s.Ordered
  kept    : Conserved cfg s.reads.flatten own.calls own.buffer
  first   : own.calls = [] → findFrom cfg.separator own.buffer 0 = none
  fields  : own.self = (replies f init own.calls).2

variable {S : Setup (LineState σ)} {cfg : LineConfig} {init : σ} {f : σ → Bytes → Bytes × σ}

/-- **A turn of a line session keeps its client's stream accounted for**, whatever its calls return. -/
theorem Lined.turn (hsep : cfg.separator ≠ []) {t : Transport} {s : Sock} {own : LineState σ}
    (h : Lined cfg init f s own) (os : Os) :
    Lined cfg init f (s.afterTurn t (Machine.line cfg init f) os own)
      ((Machine.line cfg init f).onData own (s.data t os)).1 := by
  refine ⟨h.ordered.afterTurn _ os own, ?_, first_onData hsep init f _, ?_⟩
  · rw [Sock.reads_afterTurn]
    exact conserved_onData hsep init f h.kept _
  · show (replies f own.self _).2 = (replies f init (own.calls ++ _)).2
    rw [replies_append, ← h.fields]

theorem closed_lined (hS : S.machine = Machine.line cfg init f) (hsep : cfg.separator ≠ []) :
    Closed S (fun _ => True) (Lined cfg init f) := by
  refine ⟨?_, ?_, ?_, ?_⟩
  · rw [hS]
    refine ⟨Sock.ordered_empty, Conserved.nil cfg, fun _ => ?_, rfl⟩
    cases hfind : findFrom cfg.separator ([] : Bytes) 0 with
    | none => exact hfind
    | some j =>
        have hbound := findFrom_bound hfind
        have hpos := List.length_pos_iff.mpr hsep
        rw [List.length_nil] at hbound
        omega
  · intro s self edge h
    exact ⟨h.ordered.mark edge, h.kept, h.first, h.fields⟩
  · intro s s' self e hact h
    refine ⟨h.ordered.act hact, ?_, h.first, h.fields⟩
    rw [(Sock.act_reads hact).1]
    exact h.kept
  · intro s self os _ h
    rw [hS]
    exact h.turn hsep os

/-- The fields that go with a client's socket: those of its session, if it has one. -/
theorem Related.owner {τ : Type} {S : Setup τ} {s : Sys tc τ} {R : Sock → τ → Prop} (hs : Related S R s)
    (hsound : Sound S s) (id : Nat) :
    ∃ own, R (s.kernel.socks id) own ∧ ∀ fd x, lookup s.threads fd = some x → x.conn.id = id → x.self = own := by
  by_cases hlive : ∃ fd x, lookup s.threads fd = some x ∧ x.conn.id = id
  · obtain ⟨fd, x, hx, hid⟩ := hlive
    refine ⟨x.self, hid ▸ hs.live fd x hx, ?_⟩
    intro fd' y hy hid'
    -- a client has one descriptor, so one session
    have hopen := (hsound.owned.of_lookup hx).2
    have hopen' := (hsound.owned.of_lookup hy).2
    rw [hid] at hopen
    rw [hid'] at hopen'
    rw [hsound.distinct fd' fd id hopen' hopen, hx, Option.some.injEq] at hy
    rw [hy]
  · obtain ⟨own, hown⟩ := hs.all id
    exact ⟨own, hown, fun fd x hx hid => absurd ⟨fd, x, hx, hid⟩ hlive⟩

/-- **A server of line sessions conserves every client's stream**, for every poller, kind of connection and
    number of threads, in every run and whatever fails in it: the lines that were passed to `process` for a
    client, each with its separator, and what is in the `buffer_` of its session, are the bytes that were read
    from that same client, which are a prefix of what it sent; for a separator without a proper border no line
    was split. The other fields of its session are those the lines lead to. `process` is `f`, a function that
    returns. -/
theorem lines_run (S : Setup (LineState σ)) (cfg : LineConfig) (hsep : cfg.separator ≠ []) (init : σ)
    (f : σ → Bytes → Bytes × σ) (hS : S.machine = Machine.line cfg init f) (ls : List (Label tc))
    (s : Sys tc (LineState σ)) (hrun : Transition.run (Sys.step S) (start S tc) ls = some s) (id : Nat) :
    (s.kernel.socks id).reads.flatten <+: (s.kernel.socks id).sent ∧
      ∃ own : LineState σ, Conserved cfg (s.kernel.socks id).reads.flatten own.calls own.buffer ∧
        own.self = (replies f init own.calls).2 ∧
        ∀ fd x, lookup s.threads fd = some x → x.conn.id = id → x.self = own := by
  have hany : Transition.AllSteps (Sys.step S) (Allowed (fun _ => True)) (start S tc) ls := by
    apply Transition.AllSteps.of_forall
    intro l _ _
    cases l <;> trivial
  obtain ⟨own, hown, honly⟩ := (related_run (closed_lined hS hsep) hany hrun).owner (sound_run hrun) id
  exact ⟨hown.ordered.reads_prefix, own, hown.kept, hown.fields, honly⟩

/-- The client, the lines and the `buffer_` of the session on a descriptor. -/
def clientOf (s : Sys tc (LineState σ)) (fd : SOCKET) : Option (Nat × List Bytes × Bytes) :=
  (lookup s.threads fd).map fun x => (x.conn.id, x.self.calls, x.self.buffer)

theorem clientOf_eq_some {s : Sys tc (LineState σ)} {fd : SOCKET} {id : Nat} {calls : List Bytes} {buffer : Bytes}
    (h : s.clientOf fd = some (id, calls, buffer)) :
    ∃ x, lookup s.threads fd = some x ∧ x.conn.id = id ∧ x.self.calls = calls ∧ x.self.buffer = buffer := by
  obtain ⟨x, hx, hself⟩ := Option.map_eq_some_iff.mp h
  simp only [Prod.mk.injEq] at hself
  exact ⟨x, hx, hself⟩

/-- The server of `main.cc`, on descriptor 3. -/
def demo : Setup (LineState Unit) := ⟨.linux, .tcp, 3, Demo.echo⟩

/-- A client sends a line and a half; the first write of the answer returns `result`. -/
def lineAndHalf (result : Option (List SendResult)) : List (Label .single) :=
  comesIn ++
    [.env (.send 0 [97, 13, 10, 98]), .env (.arrive 0 4), .wait (.ok [readable 5]),
      .go { Os.smooth 0 with send := result }]

/-- The write fails and the exception leaves `iterate`: the client gets no answer, but its bytes are all there. -/
theorem lines_run_broken_pipe :
    ∃ s x, Transition.run (Sys.step demo) (start demo .single) (lineAndHalf (some [.failed .EPIPE])) = some s ∧
      s.escaped.length = 1 ∧ (s.kernel.socks 0).tx = [] ∧ lookup s.threads 5 = some x ∧
      x.self.calls = [[97]] ∧ x.self.buffer = [98] ∧
      Conserved ⟨[13, 10], false⟩ [97, 13, 10, 98] x.self.calls x.self.buffer := by
  have hend : (Transition.run (Sys.step demo) (start demo .single) (lineAndHalf (some [.failed .EPIPE]))).any
      (fun s => s.escaped.length = 1 ∧ (s.kernel.socks 0).tx = [] ∧ (s.kernel.socks 0).reads = [[97, 13, 10, 98]] ∧
        s.clientOf 5 = some (0, [[97]], [98])) = true := by
    decide +kernel
  obtain ⟨s, hrun, hs⟩ := (Option.any_eq_true _ _).mp hend
  obtain ⟨hesc, htx, hreads, hsession⟩ := of_decide_eq_true hs
  obtain ⟨x, hx, hid, hcalls, hbuffer⟩ := clientOf_eq_some hsession
  obtain ⟨_, own, hown, _, honly⟩ := lines_run demo _ (by simp) () _ rfl _ s hrun 0
  rw [hreads, ← honly 5 x hx hid] at hown
  exact ⟨s, x, hrun, hesc, htx, hx, hcalls, hbuffer, hown⟩

/-! ## While nothing fails -/

/-- Besides, the client got the replies to its lines. -/
structure Replied (cfg : LineConfig) (init : σ) (f : σ → Bytes → Bytes × σ) (s : Sock) (own : LineState σ) :
    Prop extends Lined cfg init f s own where
  tx : s.tx = (replies f init own.calls).1.flatten

theorem closed_replied (hS : S.machine = Machine.line cfg init f) (hsep : cfg.separator ≠ []) :
    Closed S Smooth (Replied cfg init f) := by
  have hlined := closed_lined hS hsep
  refine ⟨⟨hlined.fresh, ?_⟩, ?_, ?_, ?_⟩
  · rw [hS]
    rfl
  · intro s self edge h
    exact ⟨hlined.marked edge h.toLined, h.tx⟩
  · intro s s' self e hact h
    refine ⟨hlined.acted hact h.toLined, ?_⟩
    rw [(Sock.act_reads hact).2]
    exact h.tx
  · intro s self os hok h
    refine ⟨hlined.turned trivial h.toLined, ?_⟩
    rw [hS]
    show s.tx ++ (os.sent ((Machine.line cfg init f).onData self (s.data S.transport os)).2).accepted =
      (replies f init (self.calls ++ _)).1.flatten
    rw [(Os.sent_whole hok.2 _).2, replies_append, ← h.fields, List.flatten_append, h.tx]
    rfl

/-- **Every client gets the replies to its own lines, in order**, and nothing else, in every run in which no
    `recv` or `send` fails and every write takes its whole buffer, however the clients, the poller and the
    workers interleave and whatever descriptors are given out again. Again `process` is a function that
    returns. -/
theorem replied_run (S : Setup (LineState σ)) (cfg : LineConfig) (hsep : cfg.separator ≠ []) (init : σ)
    (f : σ → Bytes → Bytes × σ) (hS : S.machine = Machine.line cfg init f) (ls : List (Label tc))
    (s : Sys tc (LineState σ)) (hsmooth : Transition.AllSteps (Sys.step S) (Allowed Smooth) (start S tc) ls)
    (hrun : Transition.run (Sys.step S) (start S tc) ls = some s) (id : Nat) :
    ∃ own : LineState σ, Conserved cfg (s.kernel.socks id).reads.flatten own.calls own.buffer ∧
      (s.kernel.socks id).tx = (replies f init own.calls).1.flatten ∧
      ∀ fd x, lookup s.threads fd = some x → x.conn.id = id → x.self = own := by
  obtain ⟨own, hown, honly⟩ := (related_run (closed_replied hS hsep) hsmooth hrun).owner (sound_run hrun) id
  exact ⟨own, hown.kept, hown.tx, honly⟩

/-- The client gets `|a|`, and the half line waits. -/
theorem replied_run_line_and_half :
    ∃ s x, Transition.run (Sys.step demo) (start demo .single) (lineAndHalf none) = some s ∧
      lookup s.threads 5 = some x ∧ x.self.calls = [[97]] ∧ x.self.buffer = [98] ∧
      Conserved ⟨[13, 10], false⟩ [97, 13, 10, 98] x.self.calls x.self.buffer ∧
      (s.kernel.socks 0).tx = [124, 97, 124, 13, 10] := by
  have hsmooth : Transition.AllSteps (Sys.step demo) (Allowed Smooth) (start demo .single)
      (lineAndHalf none) := by
    decide +kernel
  have hend : (Transition.run (Sys.step demo) (start demo .single) (lineAndHalf none)).any
      (fun s => (s.kernel.socks 0).tx = [124, 97, 124, 13, 10] ∧ (s.kernel.socks 0).reads = [[97, 13, 10, 98]] ∧
        s.clientOf 5 = some (0, [[97]], [98])) = true := by
    decide +kernel
  obtain ⟨s, hrun, hs⟩ := (Option.any_eq_true _ _).mp hend
  obtain ⟨htx, hreads, hsession⟩ := of_decide_eq_true hs
  obtain ⟨x, hx, hid, hcalls, hbuffer⟩ := clientOf_eq_some hsession
  obtain ⟨own, hown, _, honly⟩ := replied_run demo _ (by simp) () _ rfl _ s hsmooth hrun 0
  rw [hreads, ← honly 5 x hx hid] at hown
  exact ⟨s, x, hrun, hx, hcalls, hbuffer, hown, htx⟩

end Sys

/-! ## The load-test server -/

/-- The `EchoProtocol` of `loadtest/server.cc`: `LineSession(connection, true, "\n")`, and `process(data)` is
    `data`. -/
def LoadTest.echo : Machine (LineState Unit) := Machine.line ⟨[10], true⟩ () (fun _ data => (data, ()))

namespace LoadTest

open LineSession

theorem replies_echo (frames : List Bytes) : (replies (fun _ data => (data, ())) () frames).1 = frames := by
  induction frames with
  | nil => rfl
  | cons fr frames ih => rw [replies, ih]

/-- With the separator kept, the lines and the rest are the stream as it stands. -/
theorem flatten_append_buffer {received buffer : Bytes} {frames : List Bytes} {sep : Bytes}
    (hc : Conserved ⟨sep, true⟩ received frames buffer) : frames.flatten ++ buffer = received := by
  have hwhole : frames.map (LineConfig.whole ⟨sep, true⟩) = frames := List.map_id frames
  rw [← hc.bytes, hwhole]

/-- A stream of one line, once the line was cut. -/
theorem flatten_of_one_line {w buffer : Bytes} {frames : List Bytes} (hw : 10 ∉ w)
    (hc : Conserved ⟨[10], true⟩ (w ++ [10]) frames buffer) (hne : frames ≠ []) :
    frames.flatten = w ++ [10] := by
  have hbytes := flatten_append_buffer hc
  obtain ⟨fr, rest, rfl⟩ := List.exists_cons_of_ne_nil hne
  -- the first line ends at a separator, and the only one is at the end of the stream
  obtain ⟨line, rfl⟩ := hc.ended rfl fr List.mem_cons_self
  have hlong : w.length ≤ line.length := by
    by_contra hlt
    have hget := congrArg (fun bs => bs[line.length]?) hbytes
    simp only [List.flatten_cons, List.append_assoc] at hget
    rw [List.getElem?_append_right (Nat.le_refl _), Nat.sub_self,
      List.getElem?_append_left (Nat.lt_of_not_le hlt)] at hget
    exact hw (List.mem_of_getElem? hget.symm)
  have hlen := congrArg List.length hbytes
  simp only [List.flatten_cons, List.length_append, List.length_singleton] at hlen
  have hbuffer : buffer = [] := List.eq_nil_of_length_eq_zero (by omega)
  rw [hbuffer, List.append_nil] at hbytes
  exact hbytes

end LoadTest

namespace Sys

open LineSession

/-- What the load-test server wrote to a client is what it cut from the client's stream. -/
theorem Replied.tx_eq {s : Sock} {own : LineState Unit}
    (h : Replied ⟨[10], true⟩ () (fun _ data => (data, ())) s own) : s.tx = own.calls.flatten := by
  rw [h.tx, LoadTest.replies_echo]

/-- So it is a prefix of that stream. -/
theorem Replied.tx_prefix {s : Sock} {own : LineState Unit}
    (h : Replied ⟨[10], true⟩ () (fun _ data => (data, ())) s own) : s.tx <+: s.sent := by
  refine List.IsPrefix.trans ?_ h.ordered.reads_prefix
  rw [h.tx_eq, ← LoadTest.flatten_append_buffer h.kept]
  exact List.prefix_append _ _

/-- And once one whole line was read, and nothing more, it is that line. -/
theorem Replied.tx_of_line {s : Sock} {own : LineState Unit}
    (h : Replied ⟨[10], true⟩ () (fun _ data => (data, ())) s own) {w : Bytes} (hw : 10 ∉ w)
    (hreads : s.reads.flatten = w ++ [10]) : s.tx = w ++ [10] := by
  have hkept := h.kept
  rw [hreads] at hkept
  rw [h.tx_eq]
  apply LoadTest.flatten_of_one_line hw hkept
  intro hnil
  -- nothing was cut, so there is no separator in the buffer; but it holds the whole line
  have hfirst := h.first hnil
  have hbuffer := LoadTest.flatten_append_buffer hkept
  rw [hnil, List.flatten_nil, List.nil_append] at hbuffer
  rw [hbuffer] at hfirst
  refine findFrom_eq_none.mp hfirst w.length (Nat.zero_le _) (by simp) ?_
  rw [List.drop_left]

/-- **The load-test server sends back what it was sent.** In every run in which no `recv` or `send` fails and
    every write takes its whole buffer, what was written to a client is a prefix of what that client sent; and
    once one whole line of it was read, and nothing more, it is that line. -/
theorem mirrored_run (S : Setup (LineState Unit)) (hS : S.machine = LoadTest.echo) (ls : List (Label tc))
    (s : Sys tc (LineState Unit))
    (hsmooth : Transition.AllSteps (Sys.step S) (Allowed Smooth) (start S tc) ls)
    (hrun : Transition.run (Sys.step S) (start S tc) ls = some s) (id : Nat) :
    (s.kernel.socks id).tx <+: (s.kernel.socks id).sent ∧
      ∀ w, 10 ∉ w → (s.kernel.socks id).reads.flatten = w ++ [10] → (s.kernel.socks id).tx = w ++ [10] := by
  obtain ⟨own, hown, _⟩ := (related_run (closed_replied hS (by simp)) hsmooth hrun).owner (sound_run hrun) id
  exact ⟨hown.tx_prefix, fun w hw hreads => hown.tx_of_line hw hreads⟩

/-- The load-test server with a worker, on descriptor 3. -/
def mirror (t : Transport) : Setup (LineState Unit) := ⟨.linux, t, 3, LoadTest.echo⟩

/-- A client sends a line in two parts. -/
def twoParts : List (Label (.count 1)) :=
  comesIn ++
    [.env (.send 0 [104, 105, 10]), .env (.arrive 0 2), .wait (.ok [readable 5]), .go (Os.smooth 0),
      .worker ThreadCount.only (Os.smooth 0), .env (.arrive 0 1), .wait (.ok [readable 5]),
      .go (Os.smooth 0), .worker ThreadCount.only (Os.smooth 0)]

/-- In `twoParts` the client gets its line back, and the session has nothing left of it. -/
theorem mirrored_run_two_parts :
    ∃ s, Transition.run (Sys.step (mirror .tcp)) (start (mirror .tcp) (.count 1)) twoParts = some s ∧
      (s.kernel.socks 0).tx = [104, 105] ++ [10] := by
  have hsmooth : Transition.AllSteps (Sys.step (mirror .tcp)) (Allowed Smooth) (start (mirror .tcp) (.count 1))
      twoParts := by
    decide +kernel
  have hend : (Transition.run (Sys.step (mirror .tcp)) (start (mirror .tcp) (.count 1)) twoParts).map
      (fun s => (s.kernel.socks 0).reads) = some [[104, 105], [10]] := by
    decide +kernel
  obtain ⟨s, hrun, hreads⟩ := Option.map_eq_some_iff.mp hend
  refine ⟨s, hrun, (mirrored_run (mirror .tcp) rfl twoParts s hsmooth hrun 0).2 [104, 105] (by decide) ?_⟩
  rw [hreads]
  rfl

end Sys

end Neblina

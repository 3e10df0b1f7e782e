import Neblina.Protocol.Termination
import Neblina.Server.Send

/-!
# `Protocol.Failure` — what an iteration that fails leaves behind

`LineSession::iteration` erases each line as soon as `process` returned, keeps the responses in a local
string, and sends them in one go at the end. When `process` throws on a later line, or the `send` at the
end throws, the local string is gone: the lines before are neither in `buffer_` nor answered.

`failureConsistent_iff` says exactly when no such line exists. `Process.recorded` is `process` with a record
of the lines it answered; the record is not seen by the code. With an empty separator the loop never ends by
itself, so no bound on its passes is the right one: the exits are those under any bound.
-/

namespace Neblina

open Effect Splitting

/-- The outside of one iteration: what its `recv` returns, the results of the write calls it may make, and
    the bytes that were written to the connection. -/
structure Wire where
  chunk  : Bytes
  writes : List SendResult
  tx     : Bytes

namespace Wire

def send (t : Transport) (data : Bytes) : EStateM Abrupt Wire Unit := fun w =>
  let o := t.send data w.writes
  match o.stop with
  | none => .ok () { w with writes := o.left, tx := w.tx ++ o.accepted }
  | some e => .error e { w with writes := o.left, tx := w.tx ++ o.accepted }

def ops (t : Transport) : ConnectionOps Wire where
  recv _ w := .ok w.chunk { w with chunk := [] }
  send _ := Wire.send t
  close _ w := w

end Wire

variable {σ : Type}

/-- `process`, with a record of the calls that returned: the frame and the response of each. -/
def Process.recorded (process : Process σ) : Process (σ × List (Bytes × Bytes)) := fun data s =>
  match process data s.1 with
  | .ok r self => .ok r (self, s.2 ++ [(data, r)])
  | .error e self => .error e (self, s.2)

namespace LineSession

/-- The fields of a session with an empty record. -/
def unrecorded (s : LineState σ) : LineState (σ × List (Bytes × Bytes)) := ⟨s.buffer, (s.self, []), s.calls⟩

/-- **No request is consumed and unanswered.** Of the lines that were answered, in order, some first ones
    are exactly what is missing from the buffer, and the whole response of each of them was written. -/
def Consistent (cfg : LineConfig) (before : Bytes) (answered : List (Bytes × Bytes)) (after written : Bytes) :
    Prop :=
  ∃ removed kept, answered = removed ++ kept ∧
    (removed.map (fun a => cfg.whole a.1)).flatten ++ after = before ∧
    (removed.map Prod.snd).flatten <+: written

/-- `LineSession::iteration` with a bound on the passes of its loop. -/
def boundedIteration {W : Type} (fuel : Nat) (cfg : LineConfig) (ops : ConnectionOps W) (process : Process σ)
    (conn : Connection) : EStateM Abrupt (LineState σ × W) Unit := do
  let data ← onSnd (ops.recv conn)
  onFst (append data)
  let response ← onFst (loop cfg process fuel 0 [])
  onSnd (ops.send conn response)

/-- The bound of `iteration` is one of them: one pass more than the buffer has bytes. -/
theorem iteration_eq_bounded {W : Type} (cfg : LineConfig) {ops : ConnectionOps W} (process : Process σ)
    {conn : Connection} (s : LineState σ) {w w' : W} {data : Bytes} (h : ops.recv conn w = .ok data w') :
    iteration cfg ops process conn (s, w) =
      boundedIteration ((s.buffer ++ data).length + 1) cfg ops process conn (s, w) := by
  have happend : (onFst (append data) : EStateM Abrupt (LineState σ × W) Unit) (s, w') =
      .ok () ({ s with buffer := s.buffer ++ data }, w') := onFst_of_ok rfl
  rw [iteration, boundedIteration, bind_of_ok (onSnd_of_ok h), bind_of_ok (onSnd_of_ok h),
    bind_of_ok happend, bind_of_ok happend, bind_get]

/-- Whenever an iteration on these fields and this outside exits by an exception, what it leaves is
    consistent. -/
def FailureConsistent (cfg : LineConfig) (t : Transport) (process : Process σ) (conn : Connection)
    (s : LineState σ) (w : Wire) : Prop :=
  ∀ fuel e s' w',
    boundedIteration fuel cfg (Wire.ops t) process.recorded conn (unrecorded s, w) =
      .error (.throws e) (s', w') →
    Consistent cfg (s.buffer ++ w.chunk) s'.self.2 s'.buffer (w'.tx.drop w.tx.length)

/-! ## What the loop records -/

/-- The responses of `process` to successive frames, up to the first on which it throws. -/
def answers (process : Process σ) : σ → List Bytes → List Bytes × Option Abrupt
  | _, [] => ([], none)
  | self, fr :: rest =>
      match process fr self with
      | .ok r self' => (r :: (answers process self' rest).1, (answers process self' rest).2)
      | .error e _ => ([], some e)

/-- The record accounts for what was cut off `before`. -/
structure Recorded (cfg : LineConfig) (before : Bytes) (answered : List (Bytes × Bytes)) (after : Bytes) :
    Prop where
  bytes  : (answered.map (fun a => cfg.whole a.1)).flatten ++ after = before
  frames : ∀ a ∈ answered, ∃ l, a.1 = cfg.frame l

/-- **The exits of the loop.** The lines recorded are those missing from the buffer, their responses are what
    `answers` says, and the loop returns them joined or ends by the exception that `answers` ends with. -/
def Exits (cfg : LineConfig) (before : Bytes) (responses : List Bytes) (stop : Option Abrupt) :
    EStateM.Result Abrupt (LineState (σ × List (Bytes × Bytes))) Bytes → Prop
  | .ok response s => Recorded cfg before s.self.2 s.buffer ∧ s.self.2.map Prod.snd = responses ∧ stop = none ∧
      response = responses.flatten
  | .error e s => Recorded cfg before s.self.2 s.buffer ∧ s.self.2.map Prod.snd = responses ∧ stop = some e

variable {cfg : LineConfig} {process : Process σ}

theorem Passes.exits (hsep : cfg.separator ≠ []) {before : Bytes} {i : Nat} {response : Bytes}
    {s : LineState (σ × List (Bytes × Bytes))} {out : EStateM.Result Abrupt _ Bytes}
    (hrun : Passes cfg process.recorded i response s out) (hrec : Recorded cfg before s.self.2 s.buffer)
    (hresp : response = (s.self.2.map Prod.snd).flatten) :
    Exits cfg before
      (s.self.2.map Prod.snd ++ (answers process s.self.1 ((framing cfg.separator i s.buffer).1.map cfg.frame)).1)
      (answers process s.self.1 ((framing cfg.separator i s.buffer).1.map cfg.frame)).2 out := by
  induction hrun with
  | @done i response s hfind =>
      rw [framing_of_none hfind]
      exact ⟨hrec, (List.append_nil _).symm, rfl, by rw [hresp]; simp [answers]⟩
  | @threw i j response s e self hfind hp =>
      rw [framing_of_some hsep hfind, List.map_cons, answers]
      unfold Process.recorded at hp
      cases hproc : process (cfg.frame (s.buffer.take j)) s.self.1 with
      | ok r self' =>
          rw [hproc] at hp
          exact absurd hp (by simp)
      | error e' self' =>
          rw [hproc] at hp
          cases hp
          exact ⟨hrec, (List.append_nil _).symm, rfl⟩
  | @pass i j response r s self out hfind hp rest ih =>
      rw [framing_of_some hsep hfind, List.map_cons, answers]
      unfold Process.recorded at hp
      cases hproc : process (cfg.frame (s.buffer.take j)) s.self.1 with
      | error e' self' =>
          rw [hproc] at hp
          exact absurd hp (by simp)
      | ok r' self' =>
          rw [hproc] at hp
          cases hp
          -- the new record entry is the line that was just erased
          have hnext : Recorded cfg before (s.self.2 ++ [(cfg.frame (s.buffer.take j), r)])
              (s.buffer.drop (j + cfg.separator.length)) := by
            constructor
            · rw [List.map_append, List.flatten_append, List.map_singleton, List.flatten_singleton,
                cfg.whole_frame, List.append_assoc, take_sep_drop (findFrom_eq_some.mp hfind).2.2.1]
              exact hrec.bytes
            · intro a ha
              rcases List.mem_append.mp ha with ha | ha
              · exact hrec.frames a ha
              · exact ⟨_, congrArg Prod.fst (List.mem_singleton.mp ha)⟩
          have h := ih hnext (by rw [hresp, List.map_append, List.flatten_append]; simp)
          rw [List.map_append, List.append_assoc] at h
          exact h

/-- When the record accounts for what was cut off, consistency is about the responses alone. -/
theorem consistent_iff (hsep : cfg.separator ≠ []) {before after written : Bytes}
    {answered : List (Bytes × Bytes)}
    (hrec : Recorded cfg before answered after) :
    Consistent cfg before answered after written ↔ (answered.map Prod.snd).flatten <+: written := by
  constructor
  · rintro ⟨removed, kept, rfl, hremoved, hwritten⟩
    -- a line that was answered and not removed would be both in `after` and in front of it
    have hbytes := hrec.bytes
    rw [List.map_append, List.flatten_append, List.append_assoc, ← hremoved] at hbytes
    have hkept := List.append_left_eq_self.mp (List.append_cancel_left hbytes)
    cases kept with
    | nil =>
        rw [List.append_nil]
        exact hwritten
    | cons a kept =>
        obtain ⟨l, hl⟩ := hrec.frames a (by simp)
        rw [List.map_cons, List.flatten_cons, hl, cfg.whole_frame] at hkept
        exact absurd (List.append_eq_nil_iff.mp (List.append_eq_nil_iff.mp hkept).1).2 hsep
  · intro hwritten
    exact ⟨answered, [], (List.append_nil _).symm, hrec.bytes, hwritten⟩

/-! ## One iteration -/

/-- The loop an iteration runs. -/
def run (fuel : Nat) (cfg : LineConfig) (process : Process σ) (s : LineState σ) (chunk : Bytes) :
    EStateM.Result Abrupt (LineState (σ × List (Bytes × Bytes))) Bytes :=
  loop cfg process.recorded fuel 0 [] { unrecorded s with buffer := s.buffer ++ chunk }

/-- An iteration is its loop, and a `send` of the response when the loop returns. -/
theorem boundedIteration_eq_run (fuel : Nat) (cfg : LineConfig) (t : Transport) (process : Process σ)
    (conn : Connection) (s : LineState σ) (w : Wire) :
    boundedIteration fuel cfg (Wire.ops t) process.recorded conn (unrecorded s, w) =
      match run fuel cfg process s w.chunk with
      | .error e st => .error e (st, { w with chunk := [] })
      | .ok response st => onSnd (Wire.send t response) (st, { w with chunk := [] }) := by
  have hrecv : (Wire.ops t).recv conn w = .ok w.chunk { w with chunk := [] } := rfl
  have happend : (onFst (append w.chunk) : EStateM Abrupt (LineState (σ × List (Bytes × Bytes)) × Wire) Unit)
      (unrecorded s, { w with chunk := [] }) =
      .ok () ({ unrecorded s with buffer := s.buffer ++ w.chunk }, { w with chunk := [] }) := onFst_of_ok rfl
  rw [boundedIteration, bind_of_ok (onSnd_of_ok hrecv), bind_of_ok happend]
  cases hrun : run fuel cfg process s w.chunk with
  | error e st => rw [bind_of_error (onFst_of_error hrun)]
  | ok response st =>
      rw [bind_of_ok (onFst_of_ok hrun)]
      rfl

/-- The frames the loop cuts off `buffer_` and the chunk, when `process` does not throw before. -/
def frames (cfg : LineConfig) (s : LineState σ) (chunk : Bytes) : List Bytes :=
  (framing cfg.separator 0 (s.buffer ++ chunk)).1.map cfg.frame

theorem run_exits (hsep : cfg.separator ≠ []) (process : Process σ) (s : LineState σ) (chunk : Bytes)
    {out : EStateM.Result Abrupt (LineState (σ × List (Bytes × Bytes))) Bytes}
    (h : Passes cfg process.recorded 0 [] { unrecorded s with buffer := s.buffer ++ chunk } out) :
    Exits cfg (s.buffer ++ chunk) (answers process s.self (frames cfg s chunk)).1
      (answers process s.self (frames cfg s chunk)).2 out :=
  h.exits hsep ⟨rfl, fun _ ha => absurd ha List.not_mem_nil⟩ rfl

/-- **Nothing is lost by a failure**: when `process` throws on a line, all responses to the lines before it
    are empty; and when it throws on none, no write of the response fails before the response is out. -/
structure Harmless (cfg : LineConfig) (process : Process σ) (s : LineState σ) (w : Wire) : Prop where
  unanswered : ∀ e, (answers process s.self (frames cfg s w.chunk)).2 = some (.throws e) →
    ∀ r ∈ (answers process s.self (frames cfg s w.chunk)).1, r = []
  written    : (answers process s.self (frames cfg s w.chunk)).2 = none →
    ∀ pre errno post, w.writes = pre ++ .failed errno :: post →
      (answers process s.self (frames cfg s w.chunk)).1.flatten.length ≤ total pre

theorem harmless_of_sent {s : LineState σ} {w : Wire}
    (hstop : (answers process s.self (frames cfg s w.chunk)).2 = none)
    (hsent : ∀ e, (sendLoop (answers process s.self (frames cfg s w.chunk)).1.flatten w.writes 0 []).stop ≠
      some (.throws e)) : Harmless cfg process s w := by
  refine ⟨fun e he => absurd (hstop.symm.trans he) (by simp), ?_⟩
  intro _ pre errno post hwrites
  by_contra hlt
  obtain ⟨e, he⟩ := (throws_iff _ w.writes 0 []).mpr
    ⟨pre, errno, post, hwrites, by rw [Nat.zero_add]; exact Nat.lt_of_not_le hlt⟩
  exact hsent e he

/-- The exits under one bound that is large enough for them. -/
theorem exit_consistent_iff (hsep : cfg.separator ≠ []) (t : Transport) (process : Process σ)
    (conn : Connection) (s : LineState σ) (w : Wire) {fuel : Nat}
    (hpasses : Passes cfg process.recorded 0 [] { unrecorded s with buffer := s.buffer ++ w.chunk }
      (run fuel cfg process s w.chunk)) :
    (∀ e s' w', boundedIteration fuel cfg (Wire.ops t) process.recorded conn (unrecorded s, w) =
        .error (.throws e) (s', w') →
      Consistent cfg (s.buffer ++ w.chunk) s'.self.2 s'.buffer (w'.tx.drop w.tx.length)) ↔
      Harmless cfg process s w := by
  rw [boundedIteration_eq_run]
  have hexits := run_exits hsep process s w.chunk hpasses
  cases hrun : run fuel cfg process s w.chunk with
  | error a st =>
      rw [hrun] at hexits
      obtain ⟨hrec, hresponses, hstop⟩ := hexits
      constructor
      · intro h
        refine ⟨?_, fun hnone => absurd (hstop.symm.trans hnone) (by simp)⟩
        intro e he
        rw [hstop, Option.some.injEq] at he
        have hcons := h e st _ (by rw [he])
        -- nothing was written, so the responses are a prefix of nothing
        rw [consistent_iff hsep hrec, List.drop_length, List.prefix_nil, hresponses,
          List.flatten_eq_nil_iff] at hcons
        exact hcons
      · intro h e s' w' heq
        simp only [EStateM.Result.error.injEq, Prod.mk.injEq] at heq
        obtain ⟨rfl, rfl, rfl⟩ := heq
        rw [consistent_iff hsep hrec, List.drop_length, List.prefix_nil, hresponses, List.flatten_eq_nil_iff]
        exact h.unanswered e hstop
  | ok response st =>
      rw [hrun] at hexits
      obtain ⟨hrec, hresponses, hstop, hresponse⟩ := hexits
      subst hresponse
      simp only [onSnd, Wire.send, Transport.send_eq]
      rcases sendLoop_stop (answers process s.self (frames cfg s w.chunk)).1.flatten w.writes 0 [] with
        hsent | hsent | ⟨e, hsent⟩
      · -- the whole response is out: the iteration returns
        refine ⟨fun _ => harmless_of_sent hstop (by simp [hsent]), fun _ e s' w' heq => ?_⟩
        rw [hsent] at heq
        exact absurd heq (by simp)
      · refine ⟨fun _ => harmless_of_sent hstop (by simp [hsent]), fun _ e s' w' heq => ?_⟩
        rw [hsent] at heq
        exact absurd heq (by simp)
      · -- `send` threw: all lines are gone from the buffer, and some of the response was not written
        constructor
        · intro h
          rw [hsent] at h
          have hcons := h e st _ rfl
          rw [consistent_iff hsep hrec, hresponses, List.drop_left] at hcons
          exact absurd hcons.length_le (Nat.not_le_of_lt (accepted_lt_of_throws _ _ 0 [] (Nat.le_refl _) hsent))
        · intro h
          obtain ⟨pre, errno, post, hwrites, hlt⟩ := (throws_iff _ _ 0 []).mp ⟨e, hsent⟩
          rw [Nat.zero_add] at hlt
          exact absurd (h.written hstop pre errno post hwrites) (Nat.not_le_of_lt hlt)

/-- **When a failing iteration loses no request.** For every content of the buffer, every chunk, every
    `process` and all results of the write calls: whenever the iteration exits by an exception of `process` or
    of `send`, every line missing from `buffer_` has had its whole response written, if and only if the
    separator is empty (no line is ever removed) or the failure is `Harmless`. In particular an exception of
    `send` always loses requests. -/
theorem failureConsistent_iff (cfg : LineConfig) (t : Transport) (process : Process σ) (conn : Connection)
    (s : LineState σ) (w : Wire) :
    FailureConsistent cfg t process conn s w ↔ cfg.separator = [] ∨ Harmless cfg process s w := by
  by_cases hsep : cfg.separator = []
  · refine ⟨fun _ => Or.inl hsep, fun _ fuel e s' w' heq => ?_⟩
    -- whatever was answered, the buffer is as it was
    rw [boundedIteration_eq_run] at heq
    rcases loop_passes_or_running cfg process.recorded fuel 0 []
      { unrecorded s with buffer := s.buffer ++ w.chunk } with hpasses | ⟨st, hrunning⟩
    · obtain ⟨a, st, hout, hbuffer⟩ := hpasses.of_empty_separator hsep rfl
      rw [run, hout] at heq
      simp only [EStateM.Result.error.injEq, Prod.mk.injEq] at heq
      obtain ⟨_, rfl, _⟩ := heq
      exact ⟨[], _, rfl, hbuffer, List.nil_prefix⟩
    · rw [run, hrunning] at heq
      exact absurd heq (by simp)
  · rw [or_iff_right hsep]
    constructor
    · intro h
      exact (exit_consistent_iff hsep t process conn s w
        (loop_passes cfg hsep process.recorded _ 0 [] _ (Nat.lt_succ_self _))).mp (h _)
    · intro h fuel e s' w' heq
      rcases loop_passes_or_running cfg process.recorded fuel 0 []
        { unrecorded s with buffer := s.buffer ++ w.chunk } with hpasses | ⟨st, hrunning⟩
      · exact (exit_consistent_iff hsep t process conn s w hpasses).mpr h e s' w' heq
      · rw [boundedIteration_eq_run, run, hrunning] at heq
        exact absurd heq (by simp)

/-- A `process` that answers `"x"`, except that it throws on `"b"`. -/
def picky : Process Unit := fun data self =>
  if data = [98] then .error (.throws (.runtimeError "bad line" none)) self else .ok [120] self

/-- **Requests are consumed and not answered.** The chunk `"a\nb\n"`: `process` answers `"x"` to the first
    line and throws on the second; `"a"` is erased and `"x"` never written. The chunk `"a\n"`: the response is
    complete, the write fails, and `"a"` is erased all the same. -/
theorem failure_loses_requests :
    ¬ FailureConsistent ⟨[10], false⟩ .tcp picky ⟨5, 0⟩ ⟨[], (), []⟩ ⟨[97, 10, 98, 10], [], []⟩ ∧
      ¬ FailureConsistent ⟨[10], false⟩ .tls picky ⟨5, 0⟩ ⟨[], (), []⟩ ⟨[97, 10], [.failed .EAGAIN], []⟩ := by
  -- in both cases `"a"` is recorded as answered with `"x"`, and nothing is written
  have hlost : ∀ before after : Bytes, [97, 10] ++ after = before →
      ¬ Consistent ⟨[10], false⟩ before [([97], [120])] after [] := by
    intro before after hbytes h
    have hrec : Recorded ⟨[10], false⟩ before [([97], [120])] after :=
      ⟨hbytes, fun a ha => ⟨[97], congrArg Prod.fst (List.mem_singleton.mp ha)⟩⟩
    rw [consistent_iff (by decide) hrec] at h
    exact absurd h (by decide)
  constructor
  · intro h
    exact hlost _ [98, 10] rfl (h 3 (.runtimeError "bad line" none)
      ⟨[98, 10], ((), [([97], [120])]), [[97], [98]]⟩ ⟨[], [], []⟩ rfl)
  · intro h
    exact hlost _ [] rfl (h 3 (.runtimeError "send error: " (some .EAGAIN))
      ⟨[], ((), [([97], [120])]), [[97]]⟩ ⟨[], [], []⟩ rfl)

end LineSession

end Neblina

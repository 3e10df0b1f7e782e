import Neblina.Protocol.Framing

/-!
# `Protocol.Conservation` — `LineSession` neither loses nor splits

`Protocol.Framing` says when the frames are the reference lines. This module says what holds of the frames
in any case, also where the carried-over search index makes the loop miss a separator: the frames with
their separators and the buffer are the bytes received (`Conserved.bytes`), and, for a separator without a
proper border, a frame is one or more whole reference lines (`Conserved.whole`). The reason for the second
is `Splitting.splitAll_append_sep`: wherever the loop finds such a separator, the reference cuts there.

`Passes` are the executions of the loop for an arbitrary `process`, which may throw; every statement about
the loop is an induction on them.
-/

namespace Neblina

open Effect Splitting

/-- A frame followed by its separator, which is already at its end when it was included. -/
def LineConfig.whole (cfg : LineConfig) (fr : Bytes) : Bytes :=
  if cfg.includeSeparator then fr else fr ++ cfg.separator

theorem LineConfig.whole_frame (cfg : LineConfig) (l : Bytes) :
    cfg.whole (cfg.frame l) = l ++ cfg.separator := by
  unfold LineConfig.whole LineConfig.frame
  by_cases hinc : cfg.includeSeparator = true
  · rw [if_pos hinc, if_pos hinc]
  · rw [if_neg hinc, if_neg hinc]

namespace LineSession

variable {σ : Type}

/-! ## The executions of the loop -/

/-- The `for(;;)` loop from the index `i`, the response so far and the fields `s` to its exit. -/
inductive Passes (cfg : LineConfig) (process : Process σ) :
    Nat → Bytes → LineState σ → EStateM.Result Abrupt (LineState σ) Bytes → Prop
  /-- No separator from `i` on: `break`. -/
  | done {i : Nat} {response : Bytes} {s : LineState σ}
      (hfind : findFrom cfg.separator s.buffer i = none) :
      Passes cfg process i response s (.ok response s)
  /-- `process` throws: `response` and the rest of the pass are lost, the frame is still in `buffer_`. -/
  | threw {i j : Nat} {response : Bytes} {s : LineState σ} {e : Abrupt} {self : σ}
      (hfind : findFrom cfg.separator s.buffer i = some j)
      (hp : process (cfg.frame (s.buffer.take j)) s.self = .error e self) :
      Passes cfg process i response s
        (.error e { s with self := self, calls := s.calls ++ [cfg.frame (s.buffer.take j)] })
  /-- `process` returns, the frame and its separator are erased, and the loop goes on from `j`. -/
  | pass {i j : Nat} {response r : Bytes} {s : LineState σ} {self : σ}
      {out : EStateM.Result Abrupt (LineState σ) Bytes}
      (hfind : findFrom cfg.separator s.buffer i = some j)
      (hp : process (cfg.frame (s.buffer.take j)) s.self = .ok r self)
      (rest : Passes cfg process j (response ++ r)
        { buffer := s.buffer.drop (j + cfg.separator.length)
          self := self
          calls := s.calls ++ [cfg.frame (s.buffer.take j)] } out) :
      Passes cfg process i response s out

/-- **The loop is one of its executions**: with a non-empty separator it comes to an exit, and never by
    running out of passes. -/
theorem loop_passes (cfg : LineConfig) (hsep : cfg.separator ≠ []) (process : Process σ) :
    ∀ (fuel i : Nat) (response : Bytes) (s : LineState σ), s.buffer.length < fuel →
      Passes cfg process i response s (loop cfg process fuel i response s) := by
  have hpos : 0 < cfg.separator.length := List.length_pos_iff.mpr hsep
  intro fuel
  induction fuel with
  | zero => intro i response s h; exact absurd h (Nat.not_lt_zero _)
  | succ fuel ih =>
      intro i response s hfuel
      cases hfind : findFrom cfg.separator s.buffer i with
      | none =>
          rw [loop_last cfg process hfind]
          exact .done hfind
      | some j =>
          have hshort := pass_shortens hfind
          cases hp : process (cfg.frame (s.buffer.take j)) s.self with
          | error e self =>
              rw [loop_threw cfg hfind hp]
              exact .threw hfind hp
          | ok r self =>
              rw [loop_pass cfg hfind hp]
              exact .pass hfind hp (ih _ _ _ (show _ < fuel by simp only; omega))

/-- Under any bound, and with any separator, the loop is one of its executions or has not come to an end. -/
theorem loop_passes_or_running (cfg : LineConfig) (process : Process σ) :
    ∀ (fuel i : Nat) (response : Bytes) (s : LineState σ),
      Passes cfg process i response s (loop cfg process fuel i response s) ∨
        ∃ s', loop cfg process fuel i response s = .error .running s' := by
  intro fuel
  induction fuel with
  | zero => intro i response s; exact Or.inr ⟨s, rfl⟩
  | succ fuel ih =>
      intro i response s
      cases hfind : findFrom cfg.separator s.buffer i with
      | none =>
          rw [loop_last cfg process hfind]
          exact Or.inl (.done hfind)
      | some j =>
          cases hp : process (cfg.frame (s.buffer.take j)) s.self with
          | error e self =>
              rw [loop_threw cfg hfind hp]
              exact Or.inl (.threw hfind hp)
          | ok r self =>
              rw [loop_pass cfg hfind hp]
              rcases ih j (response ++ r) _ with hrest | hrunning
              · exact Or.inl (.pass hfind hp hrest)
              · exact Or.inr hrunning

/-! ## What cutting conserves -/

/-- **The frames and the buffer account for the bytes received.** -/
structure Conserved (cfg : LineConfig) (received : Bytes) (frames : List Bytes) (buffer : Bytes) : Prop where
  /-- The frames, each followed by its separator, and the buffer are the bytes received. -/
  bytes : (frames.map cfg.whole).flatten ++ buffer = received
  ended : cfg.includeSeparator = true → ∀ fr ∈ frames, cfg.separator <:+ fr
  /-- No line is split: the reference lines fall into groups, one or more for each frame in order, and the
      rest of them are the lines of the buffer. -/
  whole : BorderFree cfg.separator → ∃ groups : List (List Bytes),
    (∀ g ∈ groups, g ≠ []) ∧
    frames.map cfg.whole = groups.map (join cfg.separator) ∧
    splitAll cfg.separator received =
      (groups.flatten ++ (splitAll cfg.separator buffer).1, (splitAll cfg.separator buffer).2)

namespace Conserved

variable {cfg : LineConfig} {received buffer : Bytes} {frames : List Bytes}

theorem nil (cfg : LineConfig) : Conserved cfg [] [] [] :=
  ⟨rfl, fun _ fr h => absurd h List.not_mem_nil, fun _ => ⟨[], by simp, rfl, rfl⟩⟩

/-- `buffer_ += data`. -/
theorem append (hsep : cfg.separator ≠ []) (hc : Conserved cfg received frames buffer) (data : Bytes) :
    Conserved cfg (received ++ data) frames (buffer ++ data) := by
  refine ⟨?_, hc.ended, ?_⟩
  · rw [← List.append_assoc, hc.bytes]
  · intro hb
    obtain ⟨groups, hne, hframes, hsplit⟩ := hc.whole hb
    refine ⟨groups, hne, hframes, ?_⟩
    rw [splitAll_append hsep received data, hsplit, splitAll_append hsep buffer data, List.append_assoc]

/-- A cut at any occurrence of the separator, not only at the leftmost one. -/
theorem cut (hsep : cfg.separator ≠ []) (hc : Conserved cfg received frames buffer) {j : Nat}
    (hj : cfg.separator <+: buffer.drop j) :
    Conserved cfg received (frames ++ [cfg.frame (buffer.take j)])
      (buffer.drop (j + cfg.separator.length)) := by
  have hbuffer := take_sep_drop hj
  refine ⟨?_, ?_, ?_⟩
  · rw [List.map_append, List.flatten_append, List.map_singleton, List.flatten_singleton, cfg.whole_frame,
      List.append_assoc, hbuffer]
    exact hc.bytes
  · intro hinc fr hfr
    rcases List.mem_append.mp hfr with hfr | hfr
    · exact hc.ended hinc fr hfr
    · rw [List.mem_singleton.mp hfr, LineConfig.frame, if_pos hinc]
      exact List.suffix_append _ _
  · intro hb
    obtain ⟨groups, hne, hframes, hsplit⟩ := hc.whole hb
    -- the new group: the lines of the new frame, which the reference cuts without a remainder
    have hjoin : join cfg.separator (splitAll cfg.separator (buffer.take j ++ cfg.separator)).1 =
        buffer.take j ++ cfg.separator := by
      have h := splitAll_join hsep (buffer.take j ++ cfg.separator)
      rwa [splitAll_rest_append_sep hsep hb, List.append_nil] at h
    refine ⟨groups ++ [(splitAll cfg.separator (buffer.take j ++ cfg.separator)).1], ?_, ?_, ?_⟩
    · intro g hg
      rcases List.mem_append.mp hg with hg | hg
      · exact hne g hg
      · intro hnil
        rw [← List.mem_singleton.mp hg, hnil, join_nil] at hjoin
        exact hsep (List.append_eq_nil_iff.mp hjoin.symm).2
    · rw [List.map_append, List.map_append, hframes, List.map_singleton, List.map_singleton,
        cfg.whole_frame, hjoin]
    · have hgroup := splitAll_append_sep hsep hb (buffer.take j) (buffer.drop (j + cfg.separator.length))
      rw [hbuffer] at hgroup
      rw [hsplit, hgroup, List.flatten_append, List.flatten_singleton, List.append_assoc]

end Conserved

/-! ## The loop and whole runs -/

variable {cfg : LineConfig} {process : Process σ}

/-- `e` is an exception that `process` throws on some input. -/
def Thrown (process : Process σ) (e : Abrupt) : Prop :=
  ∃ data self self', process data self = .error e self'

/-- The exits of a computation that started with `received` accounted for: what it left is accounted for,
    except for the last frame when `process` threw on it, which is still in the buffer. -/
def Settled (cfg : LineConfig) (process : Process σ) (received : Bytes) :
    EStateM.Result Abrupt (LineState σ) Bytes → Prop
  | .ok _ s => Conserved cfg received s.calls s.buffer
  | .error e s => Thrown process e ∧
      ∃ frames fr, s.calls = frames ++ [fr] ∧ Conserved cfg received frames s.buffer

theorem Passes.settled (hsep : cfg.separator ≠ []) {received : Bytes} {i : Nat} {response : Bytes}
    {s : LineState σ} {out : EStateM.Result Abrupt (LineState σ) Bytes}
    (hrun : Passes cfg process i response s out) (hc : Conserved cfg received s.calls s.buffer) :
    Settled cfg process received out := by
  -- over the passes: each one cuts at the occurrence its search found
  induction hrun with
  | done hfind => exact hc
  | threw hfind hp => exact ⟨⟨_, _, _, hp⟩, _, _, rfl, hc⟩
  | pass hfind hp rest ih =>
      apply ih
      exact hc.cut hsep (findFrom_eq_some.mp hfind).2.2.1

/-- Where `k` iterations on a stream that comes in `chunks` can end. -/
def Accounted (cfg : LineConfig) (process : Process σ) (conn : Connection) (chunks : List Bytes) (k : Nat) :
    EStateM.Result Abrupt (LineState σ × Scripted) Unit → Prop
  | .ok _ s => s.2.inbox conn.id = chunks.drop k ∧
      Conserved cfg (chunks.take k).flatten s.1.calls s.1.buffer
  | .error e s => Thrown process e ∧ ∃ n frames fr, n < k ∧ s.1.calls = frames ++ [fr] ∧
      Conserved cfg (chunks.take (n + 1)).flatten frames s.1.buffer

theorem take_succ_flatten (chunks : List Bytes) (k : Nat) :
    (chunks.take (k + 1)).flatten = (chunks.take k).flatten ++ (chunks.drop k).headD [] := by
  rw [List.take_add_one, List.flatten_append, ← List.head?_drop, List.headD_eq_head?_getD]
  cases (chunks.drop k).head? with
  | none => rfl
  | some c => simp

/-- One iteration on the next chunk. -/
theorem Accounted.iteration (hsep : cfg.separator ≠ []) {conn : Connection} {chunks : List Bytes} {k : Nat}
    {s : LineState σ × Scripted} (h : Accounted cfg process conn chunks k (.ok () s)) :
    Accounted cfg process conn chunks (k + 1) (iteration cfg Scripted.ops process conn s) := by
  obtain ⟨ls, w⟩ := s
  obtain ⟨hinbox, hc⟩ := h
  have hreceived : (chunks.take (k + 1)).flatten = (chunks.take k).flatten ++ w.next conn := by
    rw [take_succ_flatten, Scripted.next, hinbox]
  obtain ⟨w', hrecv, hinbox'⟩ : ∃ w', Scripted.ops.recv conn w = .ok (w.next conn) w' ∧
      w'.inbox conn.id = chunks.drop (k + 1) := by
    refine ⟨_, Scripted.recv_eq conn w, ?_⟩
    show Function.update w.inbox conn.id (w.inbox conn.id).tail conn.id = chunks.drop (k + 1)
    rw [Function.update_self, hinbox, List.tail_drop]
  have happend : (onFst (append (w.next conn)) : EStateM Abrupt (LineState σ × Scripted) Unit) (ls, w') =
      .ok () ({ ls with buffer := ls.buffer ++ w.next conn }, w') := onFst_of_ok rfl
  have hloop := (loop_passes cfg hsep process ((ls.buffer ++ w.next conn).length + 1) 0 []
    { ls with buffer := ls.buffer ++ w.next conn } (Nat.lt_succ_self _)).settled hsep
    (hc.append hsep (w.next conn))
  rw [← hreceived] at hloop
  rw [LineSession.iteration, bind_of_ok (onSnd_of_ok hrecv), bind_of_ok happend, bind_get]
  -- the exits of the loop: `send` on a scripted connection returns
  cases hout : loop cfg process ((ls.buffer ++ w.next conn).length + 1) 0 []
      { ls with buffer := ls.buffer ++ w.next conn } with
  | error e t =>
      rw [hout] at hloop
      obtain ⟨hthrown, frames, fr, hcalls, hframes⟩ := hloop
      rw [bind_of_error (onFst_of_error hout)]
      exact ⟨hthrown, k, frames, fr, Nat.lt_succ_self k, hcalls, hframes⟩
  | ok response t =>
      rw [hout] at hloop
      rw [bind_of_ok (onFst_of_ok hout)]
      exact ⟨hinbox', hloop⟩

theorem accounted_iterations (hsep : cfg.separator ≠ []) (process : Process σ) (init : σ)
    (conn : Connection) (chunks : List Bytes) (k : Nat) :
    Accounted cfg process conn chunks k (iterations cfg process conn k (start init conn chunks)) := by
  induction k with
  | zero =>
      refine ⟨?_, Conserved.nil cfg⟩
      show Function.update (fun _ => []) conn.id chunks conn.id = chunks
      rw [Function.update_self]
  | succ k ih =>
      rw [iterations]
      cases hk : iterations cfg process conn k (start init conn chunks) with
      | ok u s =>
          rw [hk] at ih
          rw [bind_of_ok hk]
          exact ih.iteration hsep
      | error e s =>
          rw [hk] at ih
          obtain ⟨hthrown, n, frames, fr, hn, hcalls, hframes⟩ := ih
          rw [bind_of_error hk]
          exact ⟨hthrown, n, frames, fr, Nat.lt_succ_of_lt hn, hcalls, hframes⟩

/-- **Conservation over whole runs.** Let the successive `recv` calls return `chunks`, and let `iteration`
    be called `k` times. The frames passed to `process`, each followed by its separator, and then
    `buffer_`, are the bytes received so far; and for a separator without a proper border every frame
    with its separator is one or more whole consecutive reference lines. An iteration only ends otherwise
    when `process` throws, and then the same holds with the frame it threw on still in `buffer_`. -/
theorem conserved_of_iterations (cfg : LineConfig) (hsep : cfg.separator ≠ []) (process : Process σ)
    (init : σ) (conn : Connection) (chunks : List Bytes) (k : Nat) :
    (∀ s, iterations cfg process conn k (start init conn chunks) = .ok () s →
      Conserved cfg (chunks.take k).flatten s.1.calls s.1.buffer) ∧
    (∀ e s, iterations cfg process conn k (start init conn chunks) = .error e s →
      Thrown process e ∧ ∃ n frames fr, n < k ∧ s.1.calls = frames ++ [fr] ∧
        Conserved cfg (chunks.take (n + 1)).flatten frames s.1.buffer) := by
  have h := accounted_iterations hsep process init conn chunks k
  constructor
  · intro s hs
    rw [hs] at h
    exact h.2
  · intro e s hs
    rw [hs] at h
    exact h

/-- The chunks `"ab\nc\nde\n"` and `"f"`: the search goes on at position 2 behind `"ab\n"`, so the second frame
    is the two lines `"c"` and `"de"`. -/
theorem conserved_of_two_chunks :
    ∃ s, iterations ⟨[10], false⟩ (Process.total (fun (_ : Unit) data => (data, ()))) ⟨5, 0⟩ 2
        (start () ⟨5, 0⟩ [[97, 98, 10, 99, 10, 100, 101, 10], [102]]) = .ok () s ∧
      Conserved ⟨[10], false⟩ [97, 98, 10, 99, 10, 100, 101, 10, 102] s.1.calls s.1.buffer := by
  have hsep : (⟨[10], false⟩ : LineConfig).separator ≠ [] := by decide
  obtain ⟨s, hs, _⟩ := iterations_progress hsep (fun (_ : Unit) data => (data, ())) () ⟨5, 0⟩
    [[97, 98, 10, 99, 10, 100, 101, 10], [102]] 2
  exact ⟨s, hs, (conserved_of_iterations _ hsep _ () ⟨5, 0⟩ _ 2).1 s hs⟩

end LineSession

end Neblina

import Neblina.Lib.Splitting
import Neblina.Protocol.Session

/-!
# `Protocol.LineSession` — the framing loop

`LineSession::iteration` appends what `recv` returns to `buffer_` and then runs a `for(;;)` loop that
searches the separator from the index `i`, hands the frame in front of it to `process`, and erases frame
and separator from the buffer. The index `i` is *not* reset after the erase: the next search starts at the
position of the separator just removed.

The loop is modelled with a bound on its passes. `cuts` is the loop with everything but the buffer
forgotten; `cuts_exists` shows that for a non-empty separator every bound above the length of the buffer
gives the same result, `framing`, and `loop_eq_framing` reads the whole loop off it.
-/

namespace Neblina

open Effect Splitting

/-- The constructor arguments of a `LineSession` that its loop reads. `separator_len_` is the length of
    `separator_`. -/
structure LineConfig where
  separator        : Bytes
  includeSeparator : Bool
  deriving DecidableEq, Repr

namespace LineConfig

/-- `include_separator_ ? separator_len_ : 0`. -/
def kept (cfg : LineConfig) : Nat := if cfg.includeSeparator then cfg.separator.length else 0

theorem kept_le (cfg : LineConfig) : cfg.kept ≤ cfg.separator.length := by
  unfold kept
  split
  · exact Nat.le_refl _
  · exact Nat.zero_le _

/-- The argument of `process` for the line `l` that stood in front of a separator. -/
def frame (cfg : LineConfig) (l : Bytes) : Bytes :=
  if cfg.includeSeparator then l ++ cfg.separator else l

end LineConfig

/-- The fields of a `LineSession` object: `buffer_`, the fields `self` of the class derived from it, and
    the history `calls` of the arguments `process` was called with. -/
structure LineState (σ : Type) where
  buffer : Bytes
  self   : σ
  calls  : List Bytes

namespace LineSession

variable {σ W : Type}

/-- A call of the virtual `process`. -/
def callProcess (process : Process σ) (data : Bytes) : EStateM Abrupt (LineState σ) Bytes := fun s =>
  match process data s.self with
  | .ok r self => .ok r { s with self := self, calls := s.calls ++ [data] }
  | .error e self => .error e { s with self := self, calls := s.calls ++ [data] }

/-- `buffer_ = buffer_.erase(0, n)`. -/
def erase (n : Nat) : EStateM Abrupt (LineState σ) Unit :=
  fun s => .ok () { s with buffer := s.buffer.drop n }

/-- `buffer_ += data`. -/
def append (data : Bytes) : EStateM Abrupt (LineState σ) Unit :=
  fun s => .ok () { s with buffer := s.buffer ++ data }

/-- The `for(;;)` loop of `LineSession::iteration`, with a bound on its passes; `i` and `response` are
    the local variables. -/
def loop (cfg : LineConfig) (process : Process σ) :
    Nat → Nat → Bytes → EStateM Abrupt (LineState σ) Bytes
  | 0, _, _ => throw .running
  | fuel + 1, i, response => do
      let s ← get
      match findFrom cfg.separator s.buffer i with
      | none => return response
      | some i =>
          let r ← callProcess process (s.buffer.take (i + cfg.kept))
          erase (i + cfg.separator.length)
          loop cfg process fuel i (response ++ r)

/-- `LineSession::iteration`. -/
def iteration (cfg : LineConfig) (ops : ConnectionOps W) (process : Process σ) (conn : Connection) :
    EStateM Abrupt (LineState σ × W) Unit := do
  let data ← onSnd (ops.recv conn)
  onFst (append data)
  let s ← get
  let response ← onFst (loop cfg process (s.1.buffer.length + 1) 0 [])
  onSnd (ops.send conn response)

/-! ## The loop without its side effects -/

/-- The lines the loop cuts off a buffer when the search starts at `i`, and the buffer it leaves. -/
def cuts (sep : Bytes) : Nat → Nat → Bytes → Option (List Bytes × Bytes)
  | 0, _, _ => none
  | fuel + 1, i, buffer =>
      match findFrom sep buffer i with
      | none => some ([], buffer)
      | some j =>
          (cuts sep fuel j (buffer.drop (j + sep.length))).map
            (fun r => (buffer.take j :: r.1, r.2))

/-- A pass shortens the buffer by at least the separator. -/
theorem pass_shortens {sep buffer : Bytes} {i j : Nat} (h : findFrom sep buffer i = some j) :
    (buffer.drop (j + sep.length)).length + sep.length ≤ buffer.length := by
  have := findFrom_bound h
  rw [List.length_drop]
  omega

/-- **The loop ends, and its bound does not matter.** For a non-empty separator there is one result, and
    every bound above the length of the buffer finds it, whatever index the search starts from. -/
theorem cuts_exists {sep : Bytes} (hsep : sep ≠ []) :
    ∀ (n : Nat) (buffer : Bytes) (i : Nat), buffer.length ≤ n →
      ∃ r, ∀ fuel, buffer.length < fuel → cuts sep fuel i buffer = some r := by
  have hpos : 0 < sep.length := List.length_pos_iff.mpr hsep
  intro n
  induction n with
  | zero =>
      intro buffer i hn
      refine ⟨([], buffer), fun fuel hf => ?_⟩
      obtain ⟨k, rfl⟩ : ∃ k, fuel = k + 1 := ⟨fuel - 1, by omega⟩
      cases h : findFrom sep buffer i with
      | none => simp only [cuts, h]
      | some j =>
          have := findFrom_bound h
          omega
  | succ n ih =>
      intro buffer i hn
      cases h : findFrom sep buffer i with
      | none =>
          refine ⟨([], buffer), fun fuel hf => ?_⟩
          obtain ⟨k, rfl⟩ : ∃ k, fuel = k + 1 := ⟨fuel - 1, by omega⟩
          simp only [cuts, h]
      | some j =>
          have hshort := pass_shortens h
          obtain ⟨r, hr⟩ := ih (buffer.drop (j + sep.length)) j (by omega)
          refine ⟨(buffer.take j :: r.1, r.2), fun fuel hf => ?_⟩
          obtain ⟨k, rfl⟩ : ∃ k, fuel = k + 1 := ⟨fuel - 1, by omega⟩
          simp only [cuts, h, hr k (by omega), Option.map_some]

/-- What one whole loop cuts off `buffer`, searching from `i`. -/
def framing (sep : Bytes) (i : Nat) (buffer : Bytes) : List Bytes × Bytes :=
  (cuts sep (buffer.length + 1) i buffer).getD ([], buffer)

theorem cuts_eq_framing {sep : Bytes} (hsep : sep ≠ []) {fuel : Nat} (i : Nat) (buffer : Bytes)
    (hf : buffer.length < fuel) : cuts sep fuel i buffer = some (framing sep i buffer) := by
  obtain ⟨r, hr⟩ := cuts_exists hsep buffer.length buffer i (Nat.le_refl _)
  rw [framing, hr _ (Nat.lt_succ_self _), hr _ hf]
  rfl

theorem framing_of_none {sep buffer : Bytes} {i : Nat} (h : findFrom sep buffer i = none) :
    framing sep i buffer = ([], buffer) := by
  simp only [framing, cuts, h, Option.getD_some]

theorem framing_of_some {sep buffer : Bytes} (hsep : sep ≠ []) {i j : Nat}
    (h : findFrom sep buffer i = some j) :
    framing sep i buffer =
      (buffer.take j :: (framing sep j (buffer.drop (j + sep.length))).1,
        (framing sep j (buffer.drop (j + sep.length))).2) := by
  have hpos : 0 < sep.length := List.length_pos_iff.mpr hsep
  have hshort := pass_shortens h
  have hcuts := cuts_eq_framing hsep j (buffer.drop (j + sep.length)) (show _ < buffer.length by omega)
  have : cuts sep (buffer.length + 1) i buffer =
      some (buffer.take j :: (framing sep j (buffer.drop (j + sep.length))).1,
        (framing sep j (buffer.drop (j + sep.length))).2) := by
    simp only [cuts, h, hcuts, Option.map_some]
  rw [framing, this, Option.getD_some]

/-! ## The whole loop, for a `process` that returns -/

/-- The results of the successive calls of `process`, and the fields it leaves. -/
def replies (f : σ → Bytes → Bytes × σ) : σ → List Bytes → List Bytes × σ
  | self, [] => ([], self)
  | self, data :: rest =>
      ((f self data).1 :: (replies f (f self data).2 rest).1, (replies f (f self data).2 rest).2)

theorem replies_append (f : σ → Bytes → Bytes × σ) (self : σ) (as bs : List Bytes) :
    replies f self (as ++ bs) =
      ((replies f self as).1 ++ (replies f (replies f self as).2 bs).1,
        (replies f (replies f self as).2 bs).2) := by
  induction as generalizing self with
  | nil => rfl
  | cons a as ih => simp only [List.cons_append, replies, ih]

/-- The substring the code passes to `process` is the frame of the line in front of the separator. -/
theorem take_kept (cfg : LineConfig) {buffer : Bytes} {i j : Nat}
    (h : findFrom cfg.separator buffer i = some j) :
    buffer.take (j + cfg.kept) = cfg.frame (buffer.take j) := by
  obtain ⟨_, hj, ⟨t, ht⟩, _⟩ := findFrom_eq_some.mp h
  unfold LineConfig.kept LineConfig.frame
  by_cases hinc : cfg.includeSeparator = true
  · rw [if_pos hinc, if_pos hinc, List.take_add, ← ht, List.take_left]
  · rw [if_neg hinc, if_neg hinc, Nat.add_zero]

/-- One pass that finds a separator, when `process` returns. -/
theorem loop_pass (cfg : LineConfig) {process : Process σ} {fuel i j : Nat} {response r : Bytes}
    {s : LineState σ} {self : σ} (h : findFrom cfg.separator s.buffer i = some j)
    (hp : process (cfg.frame (s.buffer.take j)) s.self = .ok r self) :
    loop cfg process (fuel + 1) i response s =
      loop cfg process fuel j (response ++ r)
        { buffer := s.buffer.drop (j + cfg.separator.length)
          self := self
          calls := s.calls ++ [cfg.frame (s.buffer.take j)] } := by
  have hcall : callProcess process (cfg.frame (s.buffer.take j)) s =
      .ok r { s with self := self, calls := s.calls ++ [cfg.frame (s.buffer.take j)] } := by
    simp only [callProcess, hp]
  rw [loop, bind_get, h]
  simp only [take_kept cfg h]
  rw [bind_of_ok hcall]
  rfl

/-- One pass that finds a separator, when `process` throws. -/
theorem loop_threw (cfg : LineConfig) {process : Process σ} {fuel i j : Nat} {response : Bytes} {e : Abrupt}
    {s : LineState σ} {self : σ} (h : findFrom cfg.separator s.buffer i = some j)
    (hp : process (cfg.frame (s.buffer.take j)) s.self = .error e self) :
    loop cfg process (fuel + 1) i response s =
      .error e { s with self := self, calls := s.calls ++ [cfg.frame (s.buffer.take j)] } := by
  have hcall : callProcess process (cfg.frame (s.buffer.take j)) s =
      .error e { s with self := self, calls := s.calls ++ [cfg.frame (s.buffer.take j)] } := by
    simp only [callProcess, hp]
  rw [loop, bind_get, h]
  simp only [take_kept cfg h]
  rw [bind_of_error hcall]

theorem loop_last (cfg : LineConfig) (process : Process σ) {fuel i : Nat} {response : Bytes}
    {s : LineState σ} (h : findFrom cfg.separator s.buffer i = none) :
    loop cfg process (fuel + 1) i response s = .ok response s := by
  rw [loop, bind_get, h]
  rfl

/-- **The loop computes its cuts.** With a non-empty separator and a bound above the length of the
    buffer, the loop returns the replies to the frames of `framing`, in order, and leaves its remainder. -/
theorem loop_eq_framing (cfg : LineConfig) (hsep : cfg.separator ≠ []) (f : σ → Bytes → Bytes × σ) :
    ∀ (fuel i : Nat) (response : Bytes) (s : LineState σ), s.buffer.length < fuel →
      loop cfg (Process.total f) fuel i response s =
        .ok (response ++ (replies f s.self
              ((framing cfg.separator i s.buffer).1.map cfg.frame)).1.flatten)
          { buffer := (framing cfg.separator i s.buffer).2
            self := (replies f s.self ((framing cfg.separator i s.buffer).1.map cfg.frame)).2
            calls := s.calls ++ (framing cfg.separator i s.buffer).1.map cfg.frame } := by
  have hpos : 0 < cfg.separator.length := List.length_pos_iff.mpr hsep
  intro fuel
  induction fuel with
  | zero => intro i response s h; exact absurd h (Nat.not_lt_zero _)
  | succ fuel ih =>
      intro i response s hfuel
      cases h : findFrom cfg.separator s.buffer i with
      | none =>
          rw [loop_last cfg _ h, framing_of_none h]
          simp [replies]
      | some j =>
          have hshort := pass_shortens h
          have hp : Process.total f (cfg.frame (s.buffer.take j)) s.self =
              .ok (f s.self (cfg.frame (s.buffer.take j))).1 (f s.self (cfg.frame (s.buffer.take j))).2 := rfl
          rw [loop_pass cfg h hp, ih _ _ _ (show _ < fuel by simp only; omega), framing_of_some hsep h]
          simp [replies, List.append_assoc]

end LineSession

/-! ## The machine of a `LineSession` -/

namespace Machine

open LineSession

variable {σ W : Type}

/-- The machine of a `LineSession` with a total `process`. It calls `send` in every iteration, with an
    empty response when no line was completed. -/
def line (cfg : LineConfig) (init : σ) (f : σ → Bytes → Bytes × σ) : Machine (LineState σ) where
  init := ⟨[], init, []⟩
  onData s data :=
    let cut := framing cfg.separator 0 (s.buffer ++ data)
    let out := replies f s.self (cut.1.map cfg.frame)
    (⟨cut.2, out.2, s.calls ++ cut.1.map cfg.frame⟩, some out.1.flatten)

/-- **A line session is its machine**, for every non-empty separator. -/
theorem lineSession_iteration_eq_line (cfg : LineConfig) (hsep : cfg.separator ≠ [])
    (ops : ConnectionOps W) (init : σ) (f : σ → Bytes → Bytes × σ) (conn : Connection)
    (s : LineState σ × W) :
    LineSession.iteration cfg ops (Process.total f) conn s =
      (line cfg init f).iteration ops conn s := by
  obtain ⟨ls, w⟩ := s
  cases hr : ops.recv conn w with
  | error e w' =>
      rw [LineSession.iteration, bind_of_error (onSnd_of_error hr), iteration_recv_error hr]
  | ok data w' =>
      have happend : (onFst (append data) : EStateM Abrupt (LineState σ × W) Unit) (ls, w') =
          .ok () ({ ls with buffer := ls.buffer ++ data }, w') := onFst_of_ok rfl
      have hloop := loop_eq_framing cfg hsep f ((ls.buffer ++ data).length + 1) 0 []
        { ls with buffer := ls.buffer ++ data } (Nat.lt_succ_self _)
      rw [LineSession.iteration, bind_of_ok (onSnd_of_ok hr), bind_of_ok happend, bind_get,
        bind_of_ok (onFst_of_ok hloop), iteration_recv_ok hr]
      rfl

end Machine

end Neblina

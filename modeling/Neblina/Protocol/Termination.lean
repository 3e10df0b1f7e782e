import Mathlib.Logic.Relation
import Neblina.Protocol.Conservation

/-!
# `Protocol.Termination` — when the framing loop ends, and where it reaches into the buffer

`LineSession` takes any string as its separator. With an empty one `buffer_.find` succeeds at once, in every
pass and also in an empty buffer, and the erase removes nothing: the loop only ends when `process` throws.
With any other separator a pass removes at least the separator, so the length of the buffer bounds the
number of passes. The search index plays no part in that: it is carried over from the pass before and may
lie behind the end of the shortened buffer, where `find` finds nothing.

A `Head` is the loop at the beginning of a pass; `pass` is one pass that goes on to the next (`loop_of_pass`),
and `accesses` are the calls of `substr` and `erase` it makes.
-/

namespace Neblina

open Splitting

/-- The loop of `LineSession::iteration` at the beginning of a pass: its local variables, and the fields of
    the session. -/
structure Head (σ : Type) where
  i        : Nat
  response : Bytes
  fields   : LineState σ

/-- A call of `substr` or `erase` on `buffer_`: its two arguments, and the size of the buffer. -/
structure Access where
  pos   : Nat
  count : Nat
  size  : Nat
  deriving DecidableEq, Repr

/-- The position lies inside the buffer, and so does the end of what is taken from there: `substr` and `erase`
    do not throw, and they cut nothing short. -/
def Access.Inside (a : Access) : Prop := a.pos ≤ a.size ∧ a.pos + a.count ≤ a.size

namespace LineSession

variable {σ : Type}

/-- A pass that finds a separator and whose `process` returns: the beginning of the next one. -/
def pass (cfg : LineConfig) (process : Process σ) (h : Head σ) : Option (Head σ) :=
  match findFrom cfg.separator h.fields.buffer h.i with
  | none => none
  | some j =>
      match process (h.fields.buffer.take (j + cfg.kept)) h.fields.self with
      | .error _ _ => none
      | .ok r self =>
          some
            { i := j
              response := h.response ++ r
              fields :=
                { buffer := h.fields.buffer.drop (j + cfg.separator.length)
                  self := self
                  calls := h.fields.calls ++ [h.fields.buffer.take (j + cfg.kept)] } }

/-- The accesses of a pass: `buffer_.substr(0, i + …)` for the argument of `process`, and, when `process`
    returned, `buffer_.erase(0, i + separator_len_)`. -/
def accesses (cfg : LineConfig) (process : Process σ) (h : Head σ) : List Access :=
  match findFrom cfg.separator h.fields.buffer h.i with
  | none => []
  | some j =>
      ⟨0, j + cfg.kept, h.fields.buffer.length⟩ ::
        match process (h.fields.buffer.take (j + cfg.kept)) h.fields.self with
        | .error _ _ => []
        | .ok _ _ => [⟨0, j + cfg.separator.length, h.fields.buffer.length⟩]

/-- One pass after another, from the beginning of one to the beginning of a later one. -/
def Reached (cfg : LineConfig) (process : Process σ) : Head σ → Head σ → Prop :=
  Relation.ReflTransGen (fun h h' => pass cfg process h = some h')

/-- The loop comes to its `break`. -/
def Breaks (cfg : LineConfig) (process : Process σ) (h : Head σ) : Prop :=
  ∃ passes response s, loop cfg process passes h.i h.response h.fields = .ok response s

variable {cfg : LineConfig} {process : Process σ}

/-! ## One pass -/

/-- What a pass that goes on has found and done. -/
theorem pass_eq_some {h h' : Head σ} (hpass : pass cfg process h = some h') :
    ∃ j r self, findFrom cfg.separator h.fields.buffer h.i = some j ∧
      process (cfg.frame (h.fields.buffer.take j)) h.fields.self = .ok r self ∧
      h' = ⟨j, h.response ++ r,
        ⟨h.fields.buffer.drop (j + cfg.separator.length), self,
          h.fields.calls ++ [cfg.frame (h.fields.buffer.take j)]⟩⟩ := by
  unfold pass at hpass
  cases hfind : findFrom cfg.separator h.fields.buffer h.i with
  | none =>
      rw [hfind] at hpass
      exact absurd hpass (by simp)
  | some j =>
      simp only [hfind, take_kept cfg hfind] at hpass
      cases hp : process (cfg.frame (h.fields.buffer.take j)) h.fields.self with
      | error e self =>
          rw [hp] at hpass
          exact absurd hpass (by simp)
      | ok r self =>
          rw [hp] at hpass
          exact ⟨j, r, self, rfl, hp, (Option.some.inj hpass).symm⟩

/-- **The loop makes its passes one by one.** -/
theorem loop_of_pass {h h' : Head σ} (hpass : pass cfg process h = some h') (passes : Nat) :
    loop cfg process (passes + 1) h.i h.response h.fields =
      loop cfg process passes h'.i h'.response h'.fields := by
  obtain ⟨j, r, self, hfind, hp, rfl⟩ := pass_eq_some hpass
  exact loop_pass cfg hfind hp

/-- A pass shortens the buffer by at least the separator. -/
theorem length_of_pass {h h' : Head σ} (hpass : pass cfg process h = some h') :
    h'.fields.buffer.length + cfg.separator.length ≤ h.fields.buffer.length := by
  obtain ⟨j, r, self, hfind, _, rfl⟩ := pass_eq_some hpass
  exact pass_shortens hfind

/-- The separator is only looked for inside the buffer, so what a pass takes and erases is inside as well,
    whatever the index was. -/
theorem accesses_inside (h : Head σ) : ∀ a ∈ accesses cfg process h, a.Inside := by
  intro a ha
  unfold accesses at ha
  cases hfind : findFrom cfg.separator h.fields.buffer h.i with
  | none =>
      rw [hfind] at ha
      exact absurd ha List.not_mem_nil
  | some j =>
      have hbound := findFrom_bound hfind
      have hkept := cfg.kept_le
      simp only [hfind] at ha
      rcases List.mem_cons.mp ha with rfl | ha
      · refine ⟨Nat.zero_le _, ?_⟩
        show 0 + (j + cfg.kept) ≤ h.fields.buffer.length
        omega
      · split at ha
        · exact absurd ha List.not_mem_nil
        · rw [List.mem_singleton] at ha
          subst ha
          refine ⟨Nat.zero_le _, ?_⟩
          show 0 + (j + cfg.separator.length) ≤ h.fields.buffer.length
          omega

/-! ## Many passes -/

/-- **What is reached is a place of the loop.** The loop from the first pass on is the loop from a later one on,
    once the passes between them are taken off the bound. -/
theorem Reached.loop_eq {entry h : Head σ} (hreached : Reached cfg process entry h) :
    ∃ n, ∀ passes, loop cfg process (passes + n) entry.i entry.response entry.fields =
      loop cfg process passes h.i h.response h.fields := by
  induction hreached with
  | refl => exact ⟨0, fun _ => rfl⟩
  | @tail h h' _ hpass ih =>
      obtain ⟨n, hn⟩ := ih
      refine ⟨n + 1, fun passes => ?_⟩
      rw [← loop_of_pass hpass, ← hn (passes + 1), Nat.add_right_comm, Nat.add_assoc]

/-- **The passes are paid for by the buffer.** However far the loop has come, the buffer is shorter by the
    separators of all the frames that were handed to `process` on the way. -/
theorem Reached.budget {entry h : Head σ} (hreached : Reached cfg process entry h) :
    ∃ frames, h.fields.calls = entry.fields.calls ++ frames ∧
      h.fields.buffer.length + frames.length * cfg.separator.length ≤ entry.fields.buffer.length := by
  induction hreached with
  | refl => exact ⟨[], (List.append_nil _).symm, by rw [List.length_nil, Nat.zero_mul, Nat.add_zero]⟩
  | @tail h h' _ hpass ih =>
      obtain ⟨frames, hcalls, hlen⟩ := ih
      have hshort := length_of_pass hpass
      obtain ⟨j, r, self, _, _, rfl⟩ := pass_eq_some hpass
      refine ⟨frames ++ [cfg.frame (h.fields.buffer.take j)], ?_, ?_⟩
      · rw [← List.append_assoc, ← hcalls]
      · rw [List.length_append, List.length_singleton, Nat.add_mul, Nat.one_mul]
        omega

/-- The exits of the loop: `break`, or an exception of `process`. -/
theorem Passes.exit {i : Nat} {response : Bytes} {s : LineState σ}
    {out : EStateM.Result Abrupt (LineState σ) Bytes} (hrun : Passes cfg process i response s out) :
    (∃ r s', out = .ok r s') ∨ ∃ e s', out = .error e s' ∧ Thrown process e := by
  induction hrun with
  | done hfind => exact Or.inl ⟨_, _, rfl⟩
  | threw hfind hp => exact Or.inr ⟨_, _, rfl, _, _, _, hp⟩
  | pass hfind hp rest ih => exact ih

/-! ## The empty separator -/

/-- The empty string is found where the search starts. -/
theorem findFrom_empty (hsep : cfg.separator = []) (text : Bytes) : findFrom cfg.separator text 0 = some 0 := by
  rw [hsep]
  apply findFrom_eq_some.mpr
  refine ⟨Nat.le_refl _, Nat.zero_le _, List.nil_prefix, ?_⟩
  exact fun j _ hj => absurd hj (Nat.not_lt_zero _)

/-- With an empty separator the loop finds it at the start of the buffer every time: nothing is ever
    removed, and the loop only ends by an exception. -/
theorem Passes.of_empty_separator (hsep : cfg.separator = []) {i : Nat} {response : Bytes} {s : LineState σ}
    {out : EStateM.Result Abrupt (LineState σ) Bytes} (hrun : Passes cfg process i response s out) (hi : i = 0) :
    ∃ e s', out = .error e s' ∧ s'.buffer = s.buffer := by
  induction hrun with
  | done hfind =>
      rw [hi, findFrom_empty hsep] at hfind
      exact absurd hfind (by simp)
  | threw hfind hp => exact ⟨_, _, rfl, rfl⟩
  | pass hfind hp rest ih =>
      rw [hi, findFrom_empty hsep, Option.some.injEq] at hfind
      obtain ⟨e, s', hout, hbuffer⟩ := ih hfind.symm
      refine ⟨e, s', hout, ?_⟩
      rw [hbuffer, ← hfind, hsep]
      rfl

/-- **With an empty separator the loop never comes to its `break`**, on no buffer and for no `process`. -/
theorem not_breaks_of_empty (hsep : cfg.separator = []) (process : Process σ) (response : Bytes)
    (s : LineState σ) : ¬ Breaks cfg process ⟨0, response, s⟩ := by
  rintro ⟨passes, r, s', hloop⟩
  rcases loop_passes_or_running cfg process passes 0 response s with hpasses | ⟨t, hrunning⟩
  · obtain ⟨e, t, hout, _⟩ := hpasses.of_empty_separator hsep rfl
    exact absurd (hloop.symm.trans hout) (by simp)
  · exact absurd (hloop.symm.trans hrunning) (by simp)

/-! ## The condition -/

/-- **The loop ends, and stays inside the buffer on the way.** -/
structure Contained (cfg : LineConfig) (process : Process σ) (entry : Head σ) : Prop where
  /-- One pass more than the buffer has bytes is enough: the loop breaks, or `process` has thrown. -/
  ends    : (∃ r s, loop cfg process (entry.fields.buffer.length + 1) entry.i entry.response entry.fields = .ok r s) ∨
    ∃ e s, loop cfg process (entry.fields.buffer.length + 1) entry.i entry.response entry.fields = .error e s ∧
      Thrown process e
  /-- Each pass shortens the buffer, by at least the separator. -/
  shorter : ∀ h h', Reached cfg process entry h → pass cfg process h = some h' →
    h'.fields.buffer.length < h.fields.buffer.length ∧
      h'.fields.buffer.length + cfg.separator.length ≤ h.fields.buffer.length
  /-- All calls of `substr` and `erase` are inside the buffer. -/
  inside  : ∀ h, Reached cfg process entry h → ∀ a ∈ accesses cfg process h, a.Inside

theorem contained_of_separator (hsep : cfg.separator ≠ []) (process : Process σ) (entry : Head σ) :
    Contained cfg process entry := by
  have hpos : 0 < cfg.separator.length := List.length_pos_iff.mpr hsep
  refine ⟨?_, ?_, ?_⟩
  · apply Passes.exit
    exact loop_passes cfg hsep process _ _ _ _ (Nat.lt_succ_self _)
  · intro h h' _ hpass
    have hshort := length_of_pass hpass
    exact ⟨by omega, hshort⟩
  · intro h _
    exact accesses_inside h

/-- **When the framing loop ends.** For every separator, and every `process` that returns: the loop terminates on
    every content of the buffer if and only if the separator is not empty. When it is not, then for any
    `process`, any content and any index the search starts from: the loop ends, each pass shortens the buffer
    by at least the separator, and `substr` and `erase` are called with positions inside the buffer. When it
    is empty, no `process` and no content brings the loop to its `break`. -/
theorem framing_loop_ends_iff (cfg : LineConfig) (f : σ → Bytes → Bytes × σ) (self : σ) (calls : List Bytes) :
    ((∀ buffer, Breaks cfg (Process.total f) ⟨0, [], ⟨buffer, self, calls⟩⟩) ↔ cfg.separator ≠ []) ∧
      (cfg.separator ≠ [] → ∀ (process : Process σ) (entry : Head σ), Contained cfg process entry) ∧
      (cfg.separator = [] → ∀ (process : Process σ) (response : Bytes) (s : LineState σ),
        ¬ Breaks cfg process ⟨0, response, s⟩) := by
  refine ⟨⟨?_, ?_⟩, fun hsep process entry => contained_of_separator hsep process entry,
    fun hempty process response s => not_breaks_of_empty hempty process response s⟩
  · intro hbreaks hempty
    exact not_breaks_of_empty hempty (Process.total f) [] _ (hbreaks [])
  · intro hsep buffer
    have hloop := loop_eq_framing cfg hsep f (buffer.length + 1) 0 [] ⟨buffer, self, calls⟩ (Nat.lt_succ_self _)
    exact ⟨_, _, _, hloop⟩

/-- The default separator, `"\r\n"`, and the empty one. -/
theorem framing_loop_ends_crlf :
    ((∀ buffer, Breaks ⟨[13, 10], true⟩ (Process.total (fun (_ : Unit) data => (data, ())))
      ⟨0, [], ⟨buffer, (), []⟩⟩) ∧
      ∀ (process : Process Unit) (entry : Head Unit), Contained ⟨[13, 10], true⟩ process entry) ∧
      ∀ (process : Process Unit) (response : Bytes) (s : LineState Unit),
        ¬ Breaks ⟨[], true⟩ process ⟨0, response, s⟩ := by
  obtain ⟨hbreaks, hcontained, _⟩ :=
    framing_loop_ends_iff ⟨[13, 10], true⟩ (fun (_ : Unit) data => (data, ())) () []
  obtain ⟨_, _, hempty⟩ := framing_loop_ends_iff ⟨[], true⟩ (fun (_ : Unit) data => (data, ())) () []
  exact ⟨⟨hbreaks.mpr (by decide), hcontained (by decide)⟩, hempty rfl⟩

end LineSession

end Neblina

import Neblina.Protocol.LineSession
import Neblina.Protocol.Scripted

/-!
# `Protocol.Framing` — what `LineSession` makes of a stream

The reference is `splitAll`: cut the stream at its leftmost separator, again and again. `LineSession`
carries its search index over from one cut to the next, so after a line of length `n` it only finds a
separator at position `n` or later of what remains. `framing_eq_splitAll_iff` says exactly when that
makes no difference: when the lines cut in one iteration do not get shorter.

`framed_iff_steady` lifts this to whole runs over an arbitrary cutting of the stream into `recv` results.
-/

namespace Neblina

open Effect Splitting

namespace LineSession

variable {σ : Type}

/-! ## One iteration against the reference -/

/-- The lines do not get shorter, and the first is at least `i` long. -/
def Growing (i : Nat) (lines : List Bytes) : Prop := (i :: lines.map List.length).Pairwise (· ≤ ·)

instance (i : Nat) (lines : List Bytes) : Decidable (Growing i lines) :=
  inferInstanceAs (Decidable (List.Pairwise _ _))

theorem growing_nil (i : Nat) : Growing i [] := List.pairwise_singleton _ _

theorem growing_cons {i : Nat} {l : Bytes} {ls : List Bytes} :
    Growing i (l :: ls) ↔ i ≤ l.length ∧ Growing l.length ls := by
  unfold Growing
  rw [List.map_cons, List.pairwise_cons]
  constructor
  · rintro ⟨hi, hrest⟩
    exact ⟨hi _ List.mem_cons_self, hrest⟩
  · rintro ⟨hi, hrest⟩
    refine ⟨?_, hrest⟩
    intro n hn
    rcases List.mem_cons.mp hn with rfl | hn
    · exact hi
    · exact Nat.le_trans hi ((List.pairwise_cons.mp hrest).1 n hn)

/-- **When the loop cuts where the reference cuts.** Searching from `i`, the loop produces the reference
    split if and only if the reference lines start at length `i` or more and do not get shorter. -/
theorem framing_eq_splitAll_iff {sep : Bytes} (hsep : sep ≠ []) (i : Nat) (buffer : Bytes) :
    framing sep i buffer = splitAll sep buffer ↔ Growing i (splitAll sep buffer).1 := by
  have hpos : 0 < sep.length := List.length_pos_iff.mpr hsep
  induction hn : buffer.length using Nat.strongRecOn generalizing buffer i with
  | ind n ih =>
      cases h0 : findFrom sep buffer 0 with
      | none =>
          -- no separator at all: neither side cuts
          have hi : findFrom sep buffer i = none :=
            findFrom_eq_none.mpr (fun j _ hj => findFrom_eq_none.mp h0 j (Nat.zero_le _) hj)
          rw [framing_of_none hi, splitAll_of_none h0]
          exact ⟨fun _ => growing_nil i, fun _ => rfl⟩
      | some j =>
          have hbound := findFrom_bound h0
          have hlen : (buffer.take j).length = j := by
            rw [List.length_take]
            omega
          rw [splitAll_of_some hsep h0, growing_cons, hlen]
          by_cases hij : i ≤ j
          · -- the search from `i` still finds the leftmost separator; go on behind it
            have hdrop : (buffer.drop (j + sep.length)).length < n := by
              rw [List.length_drop]
              omega
            have hrest := ih _ hdrop j (buffer.drop (j + sep.length)) rfl
            rw [framing_of_some hsep (findFrom_of_le h0 (Nat.zero_le _) hij)]
            constructor
            · intro heq
              simp only [Prod.mk.injEq, List.cons.injEq, true_and] at heq
              exact ⟨hij, hrest.mp (Prod.ext heq.1 heq.2)⟩
            · rintro ⟨_, hgrow⟩
              rw [hrest.mpr hgrow]
          · -- the leftmost separator lies before `i`: the first cut, if any, is another one
            constructor
            · intro heq
              exfalso
              cases hi : findFrom sep buffer i with
              | none =>
                  rw [framing_of_none hi] at heq
                  simp at heq
              | some k =>
                  rw [framing_of_some hsep hi] at heq
                  simp only [Prod.mk.injEq, List.cons.injEq] at heq
                  have hk := (findFrom_eq_some.mp hi).1
                  have hkb := findFrom_bound hi
                  have hlk := congrArg List.length heq.1.1
                  rw [List.length_take, List.length_take] at hlk
                  omega
            · rintro ⟨hle, _⟩
              exact absurd hle hij

/-! ## Runs over a cut stream -/

/-- `k` calls of `iteration`, one after the other. -/
def iterations (cfg : LineConfig) (process : Process σ) (conn : Connection) :
    Nat → EStateM Abrupt (LineState σ × Scripted) Unit
  | 0 => pure ()
  | k + 1 => do
      iterations cfg process conn k
      iteration cfg Scripted.ops process conn

/-- A new session on a connection whose successive `recv` calls return `chunks`. -/
def start (init : σ) (conn : Connection) (chunks : List Bytes) : LineState σ × Scripted :=
  (⟨[], init, []⟩, ⟨Function.update (fun _ => []) conn.id chunks, fun _ => []⟩)

/-- **The session has framed `stream`.** `process` was called with the reference lines of the stream, in
    order and with or without their separators; `buffer_` is what follows the last cut; and what went to
    `send` is the concatenation of the results of `process`. -/
structure Framed (cfg : LineConfig) (f : σ → Bytes → Bytes × σ) (init : σ) (conn : Connection)
    (stream : Bytes) (s : LineState σ × Scripted) : Prop where
  calls  : s.1.calls = (splitAll cfg.separator stream).1.map cfg.frame
  buffer : s.1.buffer = (splitAll cfg.separator stream).2
  noSep  : findFrom cfg.separator s.1.buffer 0 = none
  sent   : (s.2.outbox conn.id).flatten = (replies f init s.1.calls).1.flatten

/-- The lines of the stream that end in the next piece of it. -/
def completed (sep stream piece : Bytes) : List Bytes :=
  (splitAll sep ((splitAll sep stream).2 ++ piece)).1

/-- In no piece of the stream does a completed line follow a longer one completed in the same piece. -/
def Steady (sep : Bytes) (chunks : List Bytes) : Prop :=
  ∀ k (hk : k < chunks.length), Growing 0 (completed sep (chunks.take k).flatten chunks[k])

/-- What holds of the session after `k` iterations whatever the lines are. -/
structure Progress (f : σ → Bytes → Bytes × σ) (init : σ) (conn : Connection) (chunks : List Bytes)
    (k : Nat) (s : LineState σ × Scripted) : Prop where
  inbox : s.2.inbox conn.id = chunks.drop k
  self  : s.1.self = (replies f init s.1.calls).2
  sent  : (s.2.outbox conn.id).flatten = (replies f init s.1.calls).1.flatten

/-- The state one iteration leads to. -/
def next (cfg : LineConfig) (f : σ → Bytes → Bytes × σ) (conn : Connection)
    (s : LineState σ × Scripted) : LineState σ × Scripted :=
  let r := (Machine.line cfg s.1.self f).onData s.1 (s.2.next conn)
  (r.1, s.2.after conn r.2)

section Runs

variable {cfg : LineConfig} {f : σ → Bytes → Bytes × σ} {init : σ} {conn : Connection}
  {chunks : List Bytes}

theorem iteration_eq_next (hsep : cfg.separator ≠ []) (s : LineState σ × Scripted) :
    iteration cfg Scripted.ops (Process.total f) conn s = .ok () (next cfg f conn s) := by
  rw [Machine.lineSession_iteration_eq_line cfg hsep Scripted.ops s.1.self f conn s]
  exact Scripted.iteration_eq _ conn s.1 s.2

theorem Progress.next {k : Nat} {s : LineState σ × Scripted}
    (h : Progress f init conn chunks k s) :
    Progress f init conn chunks (k + 1) (next cfg f conn s) := by
  refine ⟨?_, ?_, ?_⟩
  · simp only [LineSession.next, Scripted.after, Function.update_self, h.inbox, List.tail_drop]
  · simp only [LineSession.next, Machine.line, replies_append, h.self]
  · simp only [LineSession.next, Machine.line, Scripted.after, Function.update_self,
      replies_append, List.flatten_append, h.sent, ← h.self, Option.toList_some, List.flatten_cons,
      List.flatten_nil, List.append_nil]

theorem iterations_succ (hsep : cfg.separator ≠ []) {k : Nat} {s t : LineState σ × Scripted}
    (h : iterations cfg (Process.total f) conn k s = .ok () t) :
    iterations cfg (Process.total f) conn (k + 1) s = .ok () (next cfg f conn t) := by
  rw [iterations, bind_of_ok h]
  exact iteration_eq_next hsep t

/-- Every number of iterations returns. -/
theorem iterations_progress (hsep : cfg.separator ≠ []) (f : σ → Bytes → Bytes × σ) (init : σ)
    (conn : Connection) (chunks : List Bytes) (k : Nat) :
    ∃ s, iterations cfg (Process.total f) conn k (start init conn chunks) = .ok () s ∧
      Progress f init conn chunks k s := by
  induction k with
  | zero =>
      refine ⟨start init conn chunks, rfl, ?_, rfl, rfl⟩
      show Function.update (fun _ => []) conn.id chunks conn.id = chunks
      rw [Function.update_self]
  | succ k ih =>
      obtain ⟨s, hs, hp⟩ := ih
      exact ⟨next cfg f conn s, iterations_succ hsep hs, hp.next⟩

theorem frame_injective (cfg : LineConfig) : Function.Injective cfg.frame := by
  intro a b h
  unfold LineConfig.frame at h
  by_cases hinc : cfg.includeSeparator = true
  · rw [if_pos hinc, if_pos hinc] at h
    exact List.append_cancel_right h
  · rw [if_neg hinc, if_neg hinc] at h
    exact h

/-- **One iteration.** From a framed state, the next piece leads to a framed state if and only if the
    lines it completes do not get shorter. -/
theorem framed_next_iff (hsep : cfg.separator ≠ []) {stream piece : Bytes} {k : Nat}
    {s : LineState σ × Scripted} (hf : Framed cfg f init conn stream s)
    (hp : Progress f init conn chunks k s) (hpiece : s.2.next conn = piece) :
    Framed cfg f init conn (stream ++ piece) (next cfg f conn s) ↔
      Growing 0 (completed cfg.separator stream piece) := by
  have hcut : ∀ t, t = next cfg f conn s →
      t.1.calls = s.1.calls ++
        (framing cfg.separator 0 ((splitAll cfg.separator stream).2 ++ piece)).1.map cfg.frame ∧
      t.1.buffer = (framing cfg.separator 0 ((splitAll cfg.separator stream).2 ++ piece)).2 := by
    rintro t rfl
    simp only [LineSession.next, Machine.line, hpiece, ← hf.buffer, and_self]
  obtain ⟨hcalls, hbuffer⟩ := hcut _ rfl
  rw [completed, ← framing_eq_splitAll_iff hsep]
  constructor
  · intro hnext
    have h1 := hnext.calls
    have h2 := hnext.buffer
    rw [splitAll_append hsep] at h1 h2
    rw [hcalls, hf.calls, List.map_append] at h1
    rw [hbuffer] at h2
    exact Prod.ext ((frame_injective cfg).list_map (List.append_cancel_left h1)) h2
  · intro heq
    have hbuf : (next cfg f conn s).1.buffer = (splitAll cfg.separator (stream ++ piece)).2 := by
      rw [hbuffer, heq, splitAll_append hsep stream]
    refine ⟨?_, hbuf, ?_, ?_⟩
    · rw [hcalls, heq, hf.calls, splitAll_append hsep stream, List.map_append]
    · rw [hbuf]
      exact findFrom_splitAll_rest hsep _
    · exact hp.next.sent

theorem framed_start (hsep : cfg.separator ≠ []) :
    Framed cfg f init conn [] (start init conn chunks) := by
  have hnone : findFrom cfg.separator ([] : Bytes) 0 = none := by
    have h := findFrom_splitAll_rest hsep ([] : Bytes)
    rwa [show splitAll cfg.separator ([] : Bytes) = ([], []) from rfl] at h
  exact ⟨rfl, rfl, hnone, rfl⟩

/-- **Framing of a whole stream.** Let the successive `recv` calls return `chunks`. After every number of
    iterations the session has framed exactly what it received so far, if and only if no chunk completes
    a line after a longer one. -/
theorem framed_iff_steady (cfg : LineConfig) (hsep : cfg.separator ≠ [])
    (f : σ → Bytes → Bytes × σ) (init : σ) (conn : Connection) (chunks : List Bytes) :
    (∀ k, k ≤ chunks.length →
      ∃ s, iterations cfg (Process.total f) conn k (start init conn chunks) = .ok () s ∧
        Framed cfg f init conn (chunks.take k).flatten s) ↔
      Steady cfg.separator chunks := by
  have hpiece : ∀ {k} {s : LineState σ × Scripted} (hk : k < chunks.length),
      Progress f init conn chunks k s →
        s.2.next conn = chunks[k] ∧
          (chunks.take (k + 1)).flatten = (chunks.take k).flatten ++ chunks[k] := by
    intro k s hk hp
    rw [Scripted.next, hp.inbox, List.drop_eq_getElem_cons hk, List.take_succ_eq_append_getElem hk,
      List.flatten_append]
    exact ⟨rfl, by rw [List.flatten_singleton]⟩
  constructor
  · intro hall k hk
    obtain ⟨s, hs, hf⟩ := hall k (Nat.le_of_lt hk)
    obtain ⟨s', hs', hp⟩ := iterations_progress hsep f init conn chunks k
    obtain ⟨t, ht, hft⟩ := hall (k + 1) hk
    rw [hs] at hs'
    cases hs'
    rw [iterations_succ hsep hs] at ht
    cases ht
    rw [(hpiece hk hp).2] at hft
    exact (framed_next_iff hsep hf hp (hpiece hk hp).1).mp hft
  · intro hsteady k
    induction k with
    | zero =>
        intro _
        exact ⟨start init conn chunks, rfl, framed_start hsep⟩
    | succ k ih =>
        intro hk
        obtain ⟨s, hs, hf⟩ := ih (Nat.le_of_lt hk)
        obtain ⟨s', hs', hp⟩ := iterations_progress hsep f init conn chunks k
        rw [hs] at hs'
        cases hs'
        refine ⟨next cfg f conn s, iterations_succ hsep hs, ?_⟩
        rw [(hpiece hk hp).2]
        exact (framed_next_iff hsep hf hp (hpiece hk hp).1).mpr (hsteady k hk)

/-- With `"\r\n"` and no separators kept, as `main.cc` has it: the chunks `"a\r\nbc\r"` and `"\n"` are
    framed after each of the two iterations. -/
theorem framed_crlf_two_chunks :
    Steady [13, 10] [[97, 13, 10, 98, 99, 13], [10]] ∧
      ∀ k, k ≤ 2 →
        ∃ s, iterations ⟨[13, 10], false⟩ (Process.total (fun (_ : Unit) data => (data, ()))) ⟨5, 0⟩ k
            (start () ⟨5, 0⟩ [[97, 13, 10, 98, 99, 13], [10]]) = .ok () s ∧
          Framed ⟨[13, 10], false⟩ (fun (_ : Unit) data => (data, ())) () ⟨5, 0⟩
            ([[97, 13, 10, 98, 99, 13], [10]].take k).flatten s := by
  have hsteady : Steady [13, 10] [[97, 13, 10, 98, 99, 13], [10]] := by
    unfold Steady
    decide
  exact ⟨hsteady, (framed_iff_steady ⟨[13, 10], false⟩ (by decide) _ () ⟨5, 0⟩ _).mpr hsteady⟩

/-- **A shorter line after a longer one is not cut off.** With separator `"\n"` the stream `"ab\nc\n"` in
    one chunk: the first cut is at position 2, the search goes on at position 2 of `"c\n"`, so `process`
    is called for `"ab"` only and `"c\n"` stays in the buffer. -/
theorem framing_misses_shorter_line :
    ∃ s, iterations ⟨[10], false⟩ (Process.total (fun (_ : Unit) data => (data, ()))) ⟨5, 0⟩ 1
        (start () ⟨5, 0⟩ [[97, 98, 10, 99, 10]]) = .ok () s ∧
      s.1.calls = [[97, 98]] ∧ s.1.buffer = [99, 10] ∧
      ¬ Framed ⟨[10], false⟩ (fun (_ : Unit) data => (data, ())) () ⟨5, 0⟩ [97, 98, 10, 99, 10] s := by
  refine ⟨_, rfl, rfl, rfl, ?_⟩
  intro hframed
  exact absurd hframed.calls (by decide)

end Runs

end LineSession

end Neblina

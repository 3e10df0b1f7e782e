import Mathlib
import Neblina.Lib.Transition
import Neblina.LoadTest.Attempt

/-!
# `LoadTest.Report` — the threads of the load test and its report

Each thread makes its attempts and appends their results, one critical section for each, so the order of
`results` is that of the sections. The report does not depend on it (`report_of_run`): the counts are those of
all attempts, the times those of the successful ones only (the others have none, or one that was never
written), and the exit code says whether all of them succeeded.
-/

namespace Neblina

namespace LoadTest

/-! ## The threads -/

/-- The results the threads have still to append, each in its order, and `results`. -/
structure Tally where
  todo    : List (List Result)
  results : List Result

namespace Tally

/-- Thread `i` appends its next result. -/
def step (s : Tally) (i : Nat) : Option Tally :=
  match s.todo[i]? with
  | some (r :: rest) => some ⟨s.todo.set i rest, s.results ++ [r]⟩
  | _ => none

theorem step_cases {s s' : Tally} {i : Nat} (h : s.step i = some s') :
    ∃ before r rest after, s.todo = before ++ (r :: rest) :: after ∧
      s' = ⟨before ++ rest :: after, s.results ++ [r]⟩ := by
  unfold step at h
  split at h
  · next r rest hi =>
      obtain ⟨hlt, hget⟩ := List.getElem?_eq_some_iff.mp hi
      refine ⟨s.todo.take i, r, rest, s.todo.drop (i + 1), ?_, ?_⟩
      · rw [← hget, List.getElem_cons_drop, List.take_append_drop]
      · rw [← Option.some.inj h, List.set_eq_take_append_cons_drop, if_pos hlt]
  · exact absurd h (by simp)

/-- What was appended and what is still to come are together the results of all attempts. -/
theorem perm_run {plans : List (List Result)} {is : List Nat} {t : Tally}
    (hrun : Transition.run step ⟨plans, []⟩ is = some t) :
    (t.results ++ t.todo.flatten).Perm plans.flatten := by
  have hstep : ∀ {s i s'}, (s.results ++ s.todo.flatten).Perm plans.flatten → step s i = some s' →
      (s'.results ++ s'.todo.flatten).Perm plans.flatten := by
    intro s i s' hperm h
    obtain ⟨before, r, rest, after, htodo, rfl⟩ := step_cases h
    refine List.Perm.trans ?_ hperm
    rw [htodo]
    simp only [List.flatten_append, List.flatten_cons, List.append_assoc, List.singleton_append]
    apply List.Perm.append_left
    exact List.perm_middle.symm
  exact Transition.run_invariant hstep (by simp) hrun

end Tally

/-! ## The report -/

/-- The local variables of the report; the durations in nanoseconds. -/
structure Report where
  success         : Nat
  timeout         : Nat
  incorrect       : Nat
  failedToConnect : Nat
  totalTime       : Int
  bestTime        : Int
  worstTime       : Int
  deriving DecidableEq, Repr

/-- `duration best_time = 60000ms`. -/
def bestTimeStart : Int := 60000 * 1000000

namespace Report

def start : Report := ⟨0, 0, 0, 0, 0, bestTimeStart, 0⟩

/-- The body of the loop over the results. -/
def count (p : Report) (r : Result) : Report :=
  match r.output with
  | .success =>
      { p with
        success := p.success + 1
        totalTime := p.totalTime + r.duration
        worstTime := if p.worstTime < r.duration then r.duration else p.worstTime
        bestTime := if r.duration < p.bestTime then r.duration else p.bestTime }
  | .timeout => { p with timeout := p.timeout + 1 }
  | .incorrect => { p with incorrect := p.incorrect + 1 }
  | .failedToConnect => { p with failedToConnect := p.failedToConnect + 1 }

/-- The report on `results`. -/
def of (results : List Result) : Report := results.foldl count start

/-- `return (timeout + incorrect + failed_to_connect) > 0 ? EXIT_FAILURE : EXIT_SUCCESS`. -/
def exitCode (p : Report) : Nat := if 0 < p.timeout + p.incorrect + p.failedToConnect then 1 else 0

end Report

/-- The durations of the successful attempts. -/
def times (results : List Result) : List Int :=
  (results.filter (fun r => r.output = .success)).map Result.duration

/-- **What the report says about `results`.** -/
structure Report.Sums (results : List Result) (p : Report) : Prop where
  success         : p.success = results.countP (fun r => r.output = .success)
  timeout         : p.timeout = results.countP (fun r => r.output = .timeout)
  incorrect       : p.incorrect = results.countP (fun r => r.output = .incorrect)
  failedToConnect : p.failedToConnect = results.countP (fun r => r.output = .failedToConnect)
  total           : p.totalTime = (times results).sum
  /-- The best time is that of an attempt, if one took less than a minute. -/
  best            : IsLeast {d | d = bestTimeStart ∨ d ∈ times results} p.bestTime
  worst           : IsGreatest {d | d = 0 ∨ d ∈ times results} p.worstTime

namespace Report

theorem times_append (results : List Result) (r : Result) :
    times (results ++ [r]) = times results ++ if r.output = .success then [r.duration] else [] := by
  unfold times
  rw [List.filter_append, List.map_append]
  by_cases h : r.output = .success
  · simp [h]
  · simp [h]

theorem sums_start : Sums [] start := by
  have hnone : ∀ {c d : Int}, d = c ∨ d ∈ times [] → d = c := by
    rintro c d (h | h)
    · exact h
    · exact absurd h List.not_mem_nil
  refine ⟨rfl, rfl, rfl, rfl, rfl, ⟨Or.inl rfl, ?_⟩, ⟨Or.inl rfl, ?_⟩⟩
  · intro d hd
    exact (hnone hd).ge
  · intro d hd
    exact (hnone hd).le

/-- The shortest time after one more. -/
theorem isLeast_snoc {c best d : Int} {ds : List Int} (h : IsLeast {x | x = c ∨ x ∈ ds} best) :
    IsLeast {x | x = c ∨ x ∈ ds ++ [d]} (if d < best then d else best) := by
  have hmem : ∀ {x}, x = c ∨ x ∈ ds ++ [d] → (x = c ∨ x ∈ ds) ∨ x = d := by
    intro x hx
    rw [List.mem_append, List.mem_singleton, ← or_assoc] at hx
    exact hx
  constructor
  · by_cases hd : d < best
    · rw [if_pos hd]
      exact Or.inr (List.mem_append_right _ (List.mem_singleton.mpr rfl))
    · rw [if_neg hd]
      exact h.1.imp id (List.mem_append_left _)
  · intro x hx
    rcases hmem hx with hold | rfl
    · have hle := h.2 hold
      split_ifs <;> omega
    · split_ifs <;> omega

/-- The longest time after one more. -/
theorem isGreatest_snoc {c worst d : Int} {ds : List Int} (h : IsGreatest {x | x = c ∨ x ∈ ds} worst) :
    IsGreatest {x | x = c ∨ x ∈ ds ++ [d]} (if worst < d then d else worst) := by
  have hmem : ∀ {x}, x = c ∨ x ∈ ds ++ [d] → (x = c ∨ x ∈ ds) ∨ x = d := by
    intro x hx
    rw [List.mem_append, List.mem_singleton, ← or_assoc] at hx
    exact hx
  constructor
  · by_cases hd : worst < d
    · rw [if_pos hd]
      exact Or.inr (List.mem_append_right _ (List.mem_singleton.mpr rfl))
    · rw [if_neg hd]
      exact h.1.imp id (List.mem_append_left _)
  · intro x hx
    rcases hmem hx with hold | rfl
    · have hle := h.2 hold
      split_ifs <;> omega
    · split_ifs <;> omega

/-- **One pass of the loop.** -/
theorem Sums.count {results : List Result} {p : Report} (h : Sums results p) (r : Result) :
    Sums (results ++ [r]) (p.count r) := by
  obtain ⟨hs, ht, hi, hf, htotal, hbest, hworst⟩ := h
  have htimes := times_append results r
  cases hr : r.output with
  | success =>
      rw [hr, if_pos rfl] at htimes
      simp only [Report.count, hr]
      refine ⟨?_, ?_, ?_, ?_, ?_, ?_, ?_⟩
      · simp [hr, hs]
      · simp [hr, ht]
      · simp [hr, hi]
      · simp [hr, hf]
      · simp [htimes, htotal]
      · rw [htimes]
        exact isLeast_snoc hbest
      · rw [htimes]
        exact isGreatest_snoc hworst
  | timeout =>
      rw [hr, if_neg (by decide), List.append_nil] at htimes
      simp only [Report.count, hr]
      exact ⟨by simp [hr, hs], by simp [hr, ht], by simp [hr, hi], by simp [hr, hf], by rw [htimes, htotal],
        by rw [htimes]; exact hbest, by rw [htimes]; exact hworst⟩
  | incorrect =>
      rw [hr, if_neg (by decide), List.append_nil] at htimes
      simp only [Report.count, hr]
      exact ⟨by simp [hr, hs], by simp [hr, ht], by simp [hr, hi], by simp [hr, hf], by rw [htimes, htotal],
        by rw [htimes]; exact hbest, by rw [htimes]; exact hworst⟩
  | failedToConnect =>
      rw [hr, if_neg (by decide), List.append_nil] at htimes
      simp only [Report.count, hr]
      exact ⟨by simp [hr, hs], by simp [hr, ht], by simp [hr, hi], by simp [hr, hf], by rw [htimes, htotal],
        by rw [htimes]; exact hbest, by rw [htimes]; exact hworst⟩

theorem sums_of (results : List Result) : Sums results (of results) := by
  have hloop : ∀ (rs done : List Result) (p : Report), Sums done p → Sums (done ++ rs) (rs.foldl count p) := by
    intro rs
    induction rs with
    | nil =>
        intro done p h
        rw [List.append_nil]
        exact h
    | cons r rs ih =>
        intro done p h
        have hnext := ih (done ++ [r]) (p.count r) (h.count r)
        rw [List.append_assoc, List.singleton_append] at hnext
        exact hnext
  exact hloop results [] start sums_start

/-- The order of the results makes no difference. -/
theorem Sums.perm {results results' : List Result} {p : Report} (h : Sums results p)
    (hperm : results.Perm results') : Sums results' p := by
  have htimes : (times results).Perm (times results') := (hperm.filter _).map _
  have hset : ∀ c : Int, {d | d = c ∨ d ∈ times results'} = {d | d = c ∨ d ∈ times results} := by
    intro c
    ext d
    exact or_congr_right htimes.mem_iff.symm
  refine ⟨?_, ?_, ?_, ?_, ?_, ?_, ?_⟩
  · rw [h.success, hperm.countP_eq]
  · rw [h.timeout, hperm.countP_eq]
  · rw [h.incorrect, hperm.countP_eq]
  · rw [h.failedToConnect, hperm.countP_eq]
  · rw [h.total, htimes.sum_eq]
  · rw [hset]
    exact h.best
  · rw [hset]
    exact h.worst

/-- Every result is counted once. -/
theorem Sums.length {results : List Result} {p : Report} (h : Sums results p) :
    p.success + p.timeout + p.incorrect + p.failedToConnect = results.length := by
  rw [h.success, h.timeout, h.incorrect, h.failedToConnect]
  clear h
  induction results with
  | nil => rfl
  | cons r rs ih =>
      simp only [List.countP_cons, List.length_cons]
      cases hr : r.output <;> simp <;> omega

/-- The exit code is `EXIT_SUCCESS` if and only if every attempt succeeded. -/
theorem Sums.exitCode {results : List Result} {p : Report} (h : Sums results p) :
    p.exitCode = 0 ↔ ∀ r ∈ results, r.output = .success := by
  have hlength := h.length
  have hall : p.success = results.length ↔ ∀ r ∈ results, r.output = .success := by
    rw [h.success, List.countP_eq_length]
    simp
  rw [← hall]
  unfold Report.exitCode
  by_cases hbad : 0 < p.timeout + p.incorrect + p.failedToConnect
  · rw [if_pos hbad]
    constructor
    · intro hone
      exact absurd hone (by decide)
    · intro hsuccess
      omega
  · rw [if_neg hbad]
    constructor
    · intro _
      omega
    · intro _
      rfl

end Report

/-- **The report does not depend on the interleaving of the threads.** For every number of threads and
    attempts, every result of each attempt, and every order in which the threads append them: once all threads
    are done there is one entry for each attempt; the report sums up the results of all attempts, its times being
    those of the ones that succeeded; its four counts add up to their number; and the exit code is
    `EXIT_SUCCESS` if and only if all of them succeeded. -/
theorem report_of_run (plans : List (List Result)) (is : List Nat) (t : Tally)
    (hrun : Transition.run Tally.step ⟨plans, []⟩ is = some t) (hdone : ∀ rest ∈ t.todo, rest = []) :
    t.results.length = plans.flatten.length ∧
      Report.Sums plans.flatten (Report.of t.results) ∧
      ((Report.of t.results).success + (Report.of t.results).timeout + (Report.of t.results).incorrect +
        (Report.of t.results).failedToConnect = plans.flatten.length) ∧
      ((Report.of t.results).exitCode = 0 ↔ ∀ r ∈ plans.flatten, r.output = .success) := by
  have hempty : t.todo.flatten = [] := List.flatten_eq_nil_iff.mpr hdone
  have hperm := Tally.perm_run hrun
  rw [hempty, List.append_nil] at hperm
  have hsums := (Report.sums_of t.results).perm hperm
  exact ⟨hperm.length_eq, hsums, hsums.length, hsums.exitCode⟩

/-- Two threads with two attempts each, one of which times out. -/
def twoThreads : List (List Result) := [[⟨5, .success⟩, ⟨9, .success⟩], [⟨7, .timeout⟩, ⟨3, .success⟩]]

/-- The threads of `twoThreads` take turns; the load test fails. -/
theorem report_of_run_two_threads :
    ∃ t, Transition.run Tally.step ⟨twoThreads, []⟩ [1, 0, 1, 0] = some t ∧
      (Report.of t.results).bestTime = 3 ∧ (Report.of t.results).worstTime = 9 ∧
      ¬ (Report.of t.results).exitCode = 0 := by
  have hend : (Transition.run Tally.step ⟨twoThreads, []⟩ [1, 0, 1, 0]).any (fun t =>
      t.todo = [[], []] ∧ (Report.of t.results).bestTime = 3 ∧ (Report.of t.results).worstTime = 9) = true := by
    decide
  obtain ⟨t, hrun, ht⟩ := (Option.any_eq_true _ _).mp hend
  obtain ⟨hdone, hbest, hworst⟩ := of_decide_eq_true ht
  refine ⟨t, hrun, hbest, hworst, ?_⟩
  rw [(report_of_run twoThreads [1, 0, 1, 0] t hrun (by rw [hdone]; decide)).2.2.2]
  decide

end LoadTest

end Neblina

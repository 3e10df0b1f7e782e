import Mathlib.Algebra.BigOperators.Group.List.Basic
import Mathlib.Algebra.GroupWithZero.Nat
import Neblina.Server.Isolation

/-!
# `Server.Loop` — `run`, `stop` and `stop_on_SIGINT`

`while (running_.load()) iterate();`, with `stop` called by any thread, or by a signal handler, at any time.
`running_` is read only between two `iterate`s, so a call of `stop` interrupts nothing: the batch at hand is
worked through, and a `wait` that was about to be made is still made. `stop_ends_run` is the bound on what
happens after it.
-/

namespace Neblina

open ThreadManager

variable {σ : Type} {tc : ThreadCount}

/-- The clients and the workers open and close nothing, and leave the event loop its tasks. -/
theorem Sys.quiet_step {S : Setup σ} {s s' : Sys tc σ} {l : Sys.Label tc} (hs : Sys.Sound S s)
    (hl : (∃ e, l = .env e) ∨ ∃ k os, l = .worker k os) (h : s.step S l = some s') :
    conns s'.threads = conns s.threads ∧ s'.kernel.fds = s.kernel.fds ∧ s'.tasks = s.tasks := by
  rcases hl with ⟨e, rfl⟩ | ⟨k, os, rfl⟩
  · cases Sys.does_of_step hs.routed h with
    | env _ k he =>
        rcases Kernel.env_cases he with ⟨_, rfl⟩ | ⟨id, sock, _, _, _, rfl⟩
        · exact ⟨rfl, rfl, rfl⟩
        · exact ⟨rfl, rfl, rfl⟩
  · cases Sys.does_of_step hs.routed h with
    | idle _ _ _ _ => exact ⟨rfl, rfl, rfl⟩
    | served _ _ fd rest tm w hpos hk hq hit =>
        exact ⟨Sys.conns_served hpos hit, (Sys.iterate_tables (hs.popped hq).owned hit).fds, rfl⟩

/-- Where the event loop's thread is in `run`. -/
inductive LoopPc where
  /-- Before `running_.load()`. -/
  | test
  /-- In `iterate`, before `wait` returns. -/
  | waiting
  /-- In `iterate`, with tasks left. -/
  | handling
  | returned
  /-- `run` was left by an exception. -/
  | threw
  deriving DecidableEq, Repr

/-- A server and a thread that calls `run` on it. -/
structure Loop (tc : ThreadCount) (σ : Type) where
  sys     : Sys tc σ
  running : Bool
  pc      : LoopPc

namespace Loop

inductive Label (tc : ThreadCount) where
  | sys (l : Sys.Label tc)
  | test
  | stop
  /-- `run` is called again after it was left. -/
  | again

def start (S : Setup σ) (tc : ThreadCount) : Loop tc σ := ⟨Sys.start S tc, true, .test⟩

/-- Where `run` is after a step of `iterate`. -/
def after (s s' : Sys tc σ) : LoopPc :=
  if s'.escaped ≠ s.escaped then .threw else if s'.tasks = [] then .test else .handling

def step (S : Setup σ) (t : Loop tc σ) : Label tc → Option (Loop tc σ)
  | .sys (.wait r) =>
      match t.pc with
      | .waiting => (t.sys.step S (.wait r)).map (fun s => { t with sys := s, pc := after t.sys s })
      | _ => none
  | .sys (.go os) =>
      match t.pc with
      | .handling => (t.sys.step S (.go os)).map (fun s => { t with sys := s, pc := after t.sys s })
      | _ => none
  | .sys l => (t.sys.step S l).map (fun s => { t with sys := s })
  | .test =>
      match t.pc with
      | .test => some { t with pc := if t.running then .waiting else .returned }
      | _ => none
  | .stop => some { t with running := false }
  | .again =>
      match t.pc with
      | .returned => some { t with pc := .test }
      | .threw => some { t with pc := .test }
      | _ => none

/-- The step of the server in a step of the loop, if it has one. -/
def Label.inner : Label tc → Option (Sys.Label tc)
  | .sys l => some l
  | _ => none

/-- The steps of the event loop's own thread. -/
def Label.own : Label tc → Bool
  | .sys (.wait _) => true
  | .sys (.go _) => true
  | .test => true
  | _ => false

def Label.isWait : Label tc → Bool
  | .sys (.wait _) => true
  | _ => false

/-- The steps `iterate` takes for a task: a new client takes two. -/
def cost : Task → Nat
  | .event ⟨.newClient, _⟩ => 2
  | _ => 1

/-- The steps `iterate` still takes for its tasks. -/
def work (ts : List Task) : Nat := (ts.map cost).sum

/-- What is left to do of `run` once `running_` is false. -/
def left (t : Loop tc σ) : Nat :=
  match t.pc with
  | .test => 1
  | .waiting => 2 + 2 * Poller.eventBufferSz
  | .handling => 1 + work t.sys.tasks
  | .returned => 0
  | .threw => 0

section Steps

variable {S : Setup σ} {t t' : Loop tc σ}

/-! ### What `iterate` still has to do -/

theorem cost_pos (task : Task) : 1 ≤ cost task := by
  unfold cost
  split
  · exact Nat.le_succ 1
  · exact Nat.le_refl 1

theorem cost_le (task : Task) : cost task ≤ 2 := by
  unfold cost
  split
  · exact Nat.le_refl 2
  · exact Nat.le_succ 1

@[simp] theorem work_nil : work [] = 0 := rfl

@[simp] theorem work_cons (task : Task) (ts : List Task) : work (task :: ts) = cost task + work ts := by
  simp [work]

theorem work_le (ts : List Task) : work ts ≤ 2 * ts.length := by
  induction ts with
  | nil => exact Nat.le_refl 0
  | cons task ts ih =>
      have hcost := cost_le task
      rw [work_cons, List.length_cons]
      omega

/-- A step of `iterate` is one step less to do. -/
theorem work_go {s s' : Sys tc σ} {os : Os} (hs : Sys.Sound S s) (h : s.step S (.go os) = some s') :
    work s'.tasks + 1 ≤ work s.tasks := by
  have hdrop : ∀ {task rest}, s.tasks = task :: rest → work rest + 1 ≤ work s.tasks := by
    intro task rest ht
    have hcost := cost_pos task
    rw [ht, work_cons]
    omega
  have hlost : ∀ {task rest}, s.tasks = task :: rest → work [] + 1 ≤ work s.tasks := by
    intro task rest ht
    exact Nat.le_trans (Nat.succ_le_succ (Nat.zero_le _)) (hdrop ht)
  cases Sys.does_of_step hs.routed h with
  | admitted _ fd0 fd id queue rest hpos ht ha hm hh =>
      rw [ht]
      show work (.register fd :: rest) + 1 ≤ _
      rw [work_cons, work_cons]
      show 1 + work rest + 1 ≤ 2 + work rest
      omega
  | refused _ fd0 rest e k ht he => exact hlost ht
  | registered _ fd rest k ht hadd => exact hdrop ht
  | unregistrable _ fd rest e ht hi => exact hlost ht
  | removed _ fd rest hpos ht => exact hdrop ht
  | queued _ fd rest hpos hk ht => exact hdrop ht
  | ran _ fd rest tm k hpos hk ht hit => exact hdrop ht
  | failed _ fd rest e tm k hpos hk ht hit => exact hlost ht

theorem length_events_le {p : Platform} (hp : p ≠ .win32) (serverFd : SOCKET) (raw : List PollEvent) :
    (Poller.events p serverFd raw).length ≤ raw.length := by
  rw [Poller.events_unix hp]
  induction raw with
  | nil => exact Nat.le_refl 0
  | cons e es ih =>
      have hone := Option.length_toList_le (o := Poller.event (Poller.classify p) serverFd e)
      rw [List.flatMap_cons, List.length_append, List.length_cons]
      omega

/-- A batch of epoll or kqueue has at most `EVENT_BUFFER_SZ` events. -/
theorem work_wait {s s' : Sys tc σ} {r : PollResult} (hp : S.platform ≠ .win32)
    (h : s.step S (.wait r) = some s') : work s'.tasks ≤ 2 * Poller.eventBufferSz := by
  cases Sys.does_of_wait h with
  | waited raw ht hr =>
      have hraw : raw.length ≤ Poller.eventBufferSz := by
        cases hplat : S.platform with
        | linux => rw [hplat] at hr; exact hr.2.1
        | bsd => rw [hplat] at hr; exact hr.2.1
        | win32 => exact absurd hplat hp
      have hlen := length_events_le hp S.serverFd raw
      have hwork := work_le ((Poller.events S.platform S.serverFd raw).map .event)
      rw [List.length_map] at hwork
      show work ((Poller.events S.platform S.serverFd raw).map .event) ≤ _
      omega
  | interrupted errno ht =>
      show work s.tasks ≤ _
      rw [ht]
      exact Nat.zero_le _
  | waitFailed errno e ht he => exact Nat.zero_le _

/-! ### What a step of the loop does -/

/-- What a step does. -/
inductive Does (S : Setup σ) (t : Loop tc σ) : Label tc → Loop tc σ → Prop
  | outside (l : Sys.Label tc) (s : Sys tc σ) (hl : (∃ e, l = .env e) ∨ ∃ k os, l = .worker k os)
      (h : t.sys.step S l = some s) : Does S t (.sys l) { t with sys := s }
  | waited (r : PollResult) (s : Sys tc σ) (hpc : t.pc = .waiting) (h : t.sys.step S (.wait r) = some s) :
      Does S t (.sys (.wait r)) { t with sys := s, pc := after t.sys s }
  | handled (os : Os) (s : Sys tc σ) (hpc : t.pc = .handling) (h : t.sys.step S (.go os) = some s) :
      Does S t (.sys (.go os)) { t with sys := s, pc := after t.sys s }
  | tested (hpc : t.pc = .test) : Does S t .test { t with pc := if t.running then .waiting else .returned }
  | stopped : Does S t .stop { t with running := false }
  | calledAgain (hpc : t.pc = .returned ∨ t.pc = .threw) : Does S t .again { t with pc := .test }

theorem does_of_step {l : Label tc} (h : t.step S l = some t') : Does S t l t' := by
  cases l with
  | sys l' =>
      cases l' with
      | env e =>
          obtain ⟨s, hs, rfl⟩ := Option.map_eq_some_iff.mp h
          exact .outside (.env e) s (Or.inl ⟨e, rfl⟩) hs
      | worker k os =>
          obtain ⟨s, hs, rfl⟩ := Option.map_eq_some_iff.mp h
          exact .outside (.worker k os) s (Or.inr ⟨k, os, rfl⟩) hs
      | wait r =>
          simp only [step] at h
          split at h
          · next hpc =>
              obtain ⟨s, hs, rfl⟩ := Option.map_eq_some_iff.mp h
              exact .waited r s hpc hs
          · exact absurd h (by simp)
      | go os =>
          simp only [step] at h
          split at h
          · next hpc =>
              obtain ⟨s, hs, rfl⟩ := Option.map_eq_some_iff.mp h
              exact .handled os s hpc hs
          · exact absurd h (by simp)
  | test =>
      simp only [step] at h
      split at h
      · next hpc =>
          rw [← Option.some.inj h]
          exact .tested hpc
      · exact absurd h (by simp)
  | stop =>
      rw [← Option.some.inj h]
      exact .stopped
  | again =>
      simp only [step] at h
      split at h
      · next hpc =>
          rw [← Option.some.inj h]
          exact .calledAgain (Or.inl hpc)
      · next hpc =>
          rw [← Option.some.inj h]
          exact .calledAgain (Or.inr hpc)
      · exact absurd h (by simp)

/-- **A run of the loop is a run of the server.** -/
theorem sys_run {ls : List (Label tc)} (h : Transition.run (step S) t ls = some t') :
    Transition.run (Sys.step S) t.sys (ls.filterMap Label.inner) = some t'.sys := by
  refine Transition.run_project (f := Loop.sys) ?_ ?_ h
  · intro a l b m hstep hm
    cases does_of_step hstep with
    | outside l s hl hs => exact Option.some.inj hm ▸ hs
    | waited r s hpc hs => exact Option.some.inj hm ▸ hs
    | handled os s hpc hs => exact Option.some.inj hm ▸ hs
    | tested hpc => exact absurd hm (by simp [Label.inner])
    | stopped => exact absurd hm (by simp [Label.inner])
    | calledAgain hpc => exact absurd hm (by simp [Label.inner])
  · intro a l b hstep hnone
    cases does_of_step hstep with
    | outside l s hl hs => exact absurd hnone (by simp [Label.inner])
    | waited r s hpc hs => exact absurd hnone (by simp [Label.inner])
    | handled os s hpc hs => exact absurd hnone (by simp [Label.inner])
    | tested hpc => rfl
    | stopped => rfl
    | calledAgain hpc => rfl

/-- Outside the loop of `iterate` no task is left, and inside it no more than a batch. -/
structure AtRest (S : Setup σ) (t : Loop tc σ) : Prop where
  sound : Sys.Sound S t.sys
  rest  : t.pc ≠ .handling → t.sys.tasks = []
  batch : work t.sys.tasks ≤ 2 * Poller.eventBufferSz

theorem atRest_start (S : Setup σ) : AtRest S (start S tc) :=
  ⟨Sys.sound_start S, fun _ => rfl, Nat.zero_le _⟩

/-- An exception takes the tasks with it. -/
theorem tasks_of_threw {s s' : Sys tc σ} {l : Sys.Label tc} (hs : Sys.Sound S s) (h : s.step S l = some s')
    (hesc : s'.escaped ≠ s.escaped) : s'.tasks = [] := by
  cases Sys.does_of_step hs.routed h with
  | env e k he => exact absurd rfl hesc
  | waited raw ht hr => exact absurd rfl hesc
  | interrupted errno ht => exact absurd rfl hesc
  | waitFailed errno e ht he => rfl
  | admitted os fd0 fd id queue rest hpos ht ha hm hh => exact absurd rfl hesc
  | refused os fd0 rest e k ht he => rfl
  | registered os fd rest k ht hadd => exact absurd rfl hesc
  | unregistrable os fd rest e ht hi => rfl
  | removed os fd rest hpos ht => exact absurd rfl hesc
  | queued os fd rest hpos hk ht => exact absurd rfl hesc
  | ran os fd rest tm k hpos hk ht hit => exact absurd rfl hesc
  | failed os fd rest e tm k hpos hk ht hit => rfl
  | idle k os hk hq => exact absurd rfl hesc
  | served k os fd rest tm w hpos hk hq hit => exact absurd rfl hesc

/-- `iterate` is over when no task is left. -/
theorem tasks_of_after {s s' : Sys tc σ} {l : Sys.Label tc} (hs : Sys.Sound S s) (h : s.step S l = some s')
    (hpc : after s s' ≠ .handling) : s'.tasks = [] := by
  unfold after at hpc
  by_cases hesc : s'.escaped ≠ s.escaped
  · exact tasks_of_threw hs h hesc
  · rw [if_neg hesc] at hpc
    by_contra hne
    rw [if_neg hne] at hpc
    exact hpc rfl

theorem atRest_step (hp : S.platform ≠ .win32) {l : Label tc} (ha : AtRest S t) (h : t.step S l = some t') :
    AtRest S t' := by
  cases does_of_step h with
  | outside l s hl hs =>
      have htasks := (Sys.quiet_step ha.sound hl hs).2.2
      refine ⟨Sys.sound_step ha.sound hs, fun hpc => ?_, ?_⟩
      · rw [htasks]
        exact ha.rest hpc
      · rw [htasks]
        exact ha.batch
  | waited r s hpc hs => exact ⟨Sys.sound_step ha.sound hs, tasks_of_after ha.sound hs, work_wait hp hs⟩
  | handled os s hpc hs =>
      have hless := work_go ha.sound hs
      have hbatch := ha.batch
      refine ⟨Sys.sound_step ha.sound hs, tasks_of_after ha.sound hs, ?_⟩
      show work s.tasks ≤ _
      omega
  | tested hpc => exact ⟨ha.sound, fun _ => ha.rest (by rw [hpc]; decide), ha.batch⟩
  | stopped => exact ⟨ha.sound, ha.rest, ha.batch⟩
  | calledAgain hpc =>
      refine ⟨ha.sound, fun _ => ha.rest ?_, ha.batch⟩
      rcases hpc with hpc | hpc
      · rw [hpc]; decide
      · rw [hpc]; decide

/-! ### After `stop` -/

/-- `running_` is never set again. -/
theorem running_step {l : Label tc} (hoff : t.running = false) (h : t.step S l = some t') :
    t'.running = false := by
  cases does_of_step h with
  | outside l s hl hs => exact hoff
  | waited r s hpc hs => exact hoff
  | handled os s hpc hs => exact hoff
  | tested hpc => exact hoff
  | stopped => rfl
  | calledAgain hpc => exact hoff

/-- What `left` is after a step of `iterate`. -/
theorem left_after {t : Loop tc σ} {s : Sys tc σ} {n : Nat} (h : work s.tasks ≤ n) :
    left { t with sys := s, pc := after t.sys s } ≤ 1 + n := by
  unfold left after
  split_ifs
  · exact Nat.zero_le _
  · exact Nat.le_add_right 1 n
  · exact Nat.add_le_add_left h 1

/-- After `stop` every step of the event loop's thread is one step less to do. -/
theorem left_step (hp : S.platform ≠ .win32) {l : Label tc} (ha : AtRest S t) (hoff : t.running = false)
    (hagain : l ≠ .again) (h : t.step S l = some t') : left t' + l.own.toNat ≤ left t := by
  cases does_of_step h with
  | outside l s hl hs =>
      have htasks := (Sys.quiet_step ha.sound hl hs).2.2
      have hown : (Label.sys l).own = false := by
        rcases hl with ⟨e, rfl⟩ | ⟨k, os, rfl⟩
        · rfl
        · rfl
      rw [hown]
      show (match t.pc with
        | .test => 1
        | .waiting => 2 + 2 * Poller.eventBufferSz
        | .handling => 1 + work s.tasks
        | .returned => 0
        | .threw => 0) ≤ left t
      rw [htasks]
      exact Nat.le_refl _
  | waited r s hpc hs =>
      have hafter := left_after (t := t) (work_wait hp hs)
      have hnow : left t = 2 + 2 * Poller.eventBufferSz := by
        unfold left
        rw [hpc]
      show left _ + 1 ≤ left t
      omega
  | handled os s hpc hs =>
      have hless := work_go ha.sound hs
      have hafter := left_after (t := t) (Nat.le_sub_of_add_le hless)
      have hnow : left t = 1 + work t.sys.tasks := by
        unfold left
        rw [hpc]
      show left _ + 1 ≤ left t
      omega
  | tested hpc =>
      have hnow : left t = 1 := by
        unfold left
        rw [hpc]
      rw [hnow, hoff]
      exact Nat.le_refl 1
  | stopped => exact Nat.le_refl _
  | calledAgain hpc => exact absurd rfl hagain

/-- After `stop` a `wait` is made only by an `iterate` that has begun. -/
theorem waits_step {l : Label tc} (hoff : t.running = false) (h : t.step S l = some t') :
    (decide (t'.pc = .waiting)).toNat + l.isWait.toNat ≤ (decide (t.pc = .waiting)).toNat := by
  have hafter : ∀ s : Sys tc σ, after t.sys s ≠ .waiting := by
    intro s
    unfold after
    split_ifs <;> decide
  cases does_of_step h with
  | outside l s hl hs =>
      rcases hl with ⟨e, rfl⟩ | ⟨k, os, rfl⟩
      · exact Nat.le_refl _
      · exact Nat.le_refl _
  | waited r s hpc hs =>
      rw [decide_eq_false (hafter s), hpc]
      exact Nat.le_refl 1
  | handled os s hpc hs =>
      rw [decide_eq_false (hafter s)]
      exact Nat.zero_le _
  | tested hpc =>
      rw [hoff]
      exact Nat.zero_le _
  | stopped => exact Nat.le_refl _
  | calledAgain hpc => exact Nat.zero_le _

theorem AtRest.left_le (ha : AtRest S t) : left t ≤ 2 + 2 * Poller.eventBufferSz := by
  have hbatch := ha.batch
  unfold left
  split <;> omega

/-- Nothing is left to do exactly when `run` was left. -/
theorem left_eq_zero : left t = 0 ↔ t.pc = .returned ∨ t.pc = .threw := by
  unfold left
  cases t.pc with
  | test => simp
  | waiting => simp
  | handling => simp
  | returned => simp
  | threw => simp

end Steps

/-- **`stop` ends `run`.** With the Linux and the BSD poller, in every run and from the moment `running_` is
    false: the server makes at most one more `wait`, however often `run` is called again; the current call of
    `run` takes at most 130 more steps of its own, for whatever the workers and the clients do in between; and
    when it is left, no event of a batch is left undone, unless an exception took it. -/
theorem stop_ends_run (S : Setup σ) (hp : S.platform ≠ .win32) (ls : List (Label tc)) (t : Loop tc σ)
    (hrun : Transition.run (step S) (start S tc) ls = some t) (hoff : t.running = false)
    (ms : List (Label tc)) (u : Loop tc σ) (hcont : Transition.run (step S) t ms = some u) :
    ms.countP Label.isWait ≤ 1 ∧
      (.again ∉ ms → ms.countP Label.own + left u ≤ 130) ∧
      (left u = 0 ↔ u.pc = .returned ∨ u.pc = .threw) ∧
      (left u = 0 → u.sys.tasks = []) := by
  have ht : AtRest S t := Transition.run_invariant (atRest_step hp) (atRest_start S) hrun
  have hu : AtRest S u := Transition.run_invariant (atRest_step hp) ht hcont
  refine ⟨?_, ?_, left_eq_zero, ?_⟩
  · have hstep : ∀ (a : Loop tc σ) l b, a.running = false → True → a.step S l = some b →
        b.running = false ∧ (decide (b.pc = .waiting)).toNat + (Label.isWait l).toNat ≤
          (decide (a.pc = .waiting)).toNat :=
      fun _ _ _ hoff _ h => ⟨running_step hoff h, waits_step hoff h⟩
    obtain ⟨_, hwaits⟩ := Transition.run_budget _ _ hstep hoff
      (Transition.AllSteps.of_forall (fun _ _ _ => trivial)) hcont
    have hone : (decide (t.pc = .waiting)).toNat ≤ 1 := Bool.toNat_le _
    exact Nat.le_trans (Nat.le_add_left _ _) (Nat.le_trans hwaits hone)
  · intro hagain
    have hstep : ∀ (a : Loop tc σ) l b, (AtRest S a ∧ a.running = false) → l ≠ .again →
        a.step S l = some b → (AtRest S b ∧ b.running = false) ∧ left b + (Label.own l).toNat ≤ left a :=
      fun _ _ _ ha hl h => ⟨⟨atRest_step hp ha.1 h, running_step ha.2 h⟩, left_step hp ha.1 ha.2 hl h⟩
    obtain ⟨_, hsteps⟩ := Transition.run_budget _ _ hstep ⟨ht, hoff⟩
      (Transition.AllSteps.of_forall (fun _ hl _ heq => hagain (heq ▸ hl))) hcont
    have hle := ht.left_le
    simp only [Poller.eventBufferSz] at hle
    omega
  · intro hzero
    apply hu.rest
    rcases left_eq_zero.mp hzero with hpc | hpc
    · rw [hpc]; decide
    · rw [hpc]; decide

/-- A client's event is in a batch when `stop` is called. -/
def stoppedInBatch : List (Label (.count 1)) :=
  [.test, .sys (.env .connect), .sys (.wait (.ok [Sys.readable 3])), .stop]

/-- The rest of that batch and the last test. -/
def lastBatch : List (Label (.count 1)) := [.sys (.go (Os.smooth 5)), .sys (.go (Os.smooth 5)), .test]

/-- In `stoppedInBatch` the client is still admitted and registered, and then `run` returns. -/
theorem stop_ends_run_in_batch :
    ∃ t u, Transition.run (step (Sys.echoServer .linux .tcp)) (start (Sys.echoServer .linux .tcp) _)
        stoppedInBatch = some t ∧
      Transition.run (step (Sys.echoServer .linux .tcp)) t lastBatch = some u ∧
      u.pc = .returned ∧ u.sys.kernel.interest 5 = true ∧ lastBatch.countP Label.own + left u ≤ 130 := by
  have hend : (Transition.run (step (Sys.echoServer .linux .tcp)) (start (Sys.echoServer .linux .tcp) _)
      stoppedInBatch).any (fun t => t.running = false ∧
        (Transition.run (step (Sys.echoServer .linux .tcp)) t lastBatch).any (fun u =>
          u.pc = .returned ∧ u.sys.kernel.interest 5 = true) = true) = true := by
    decide +kernel
  obtain ⟨t, hrun, ht⟩ := (Option.any_eq_true _ _).mp hend
  obtain ⟨hoff, hu⟩ := of_decide_eq_true ht
  obtain ⟨u, hcont, hu⟩ := (Option.any_eq_true _ _).mp hu
  obtain ⟨hpc, hreg⟩ := of_decide_eq_true hu
  exact ⟨t, u, hrun, hcont, hpc, hreg,
    (stop_ends_run _ (by decide) _ t hrun hoff _ u hcont).2.1 (by simp [lastBatch])⟩

end Loop

/-! ## `stop_on_SIGINT` -/

/-- The servers of a process: the `running_` of each, and `global_server` from its initialisation on. The
    variable is static in `stop_on_SIGINT`, so it is initialised by the first call and never again. -/
structure Signals where
  running      : Nat → Bool
  globalServer : Option Nat

namespace Signals

inductive Label where
  | stopOnSigint (server : Nat)
  | stop (server : Nat)
  | sigint
  deriving DecidableEq

def start : Signals := ⟨fun _ => true, none⟩

def step (s : Signals) : Label → Option Signals
  | .stopOnSigint server => some { s with globalServer := some (s.globalServer.getD server) }
  | .stop server => some { s with running := Function.update s.running server false }
  | .sigint =>
      match s.globalServer with
      -- without a handler the signal ends the process
      | none => none
      | some server => some { s with running := Function.update s.running server false }

/-- The server that calls `stop_on_SIGINT` in a step. -/
def Label.caller : Label → Option Nat
  | .stopOnSigint server => some server
  | _ => none

/-- What a run from any state does. -/
theorem running_run {ls : List Label} : ∀ {s t : Signals}, Transition.run step s ls = some t → ∀ server,
    t.running server = false ↔ s.running server = false ∨ .stop server ∈ ls ∨
      (.sigint ∈ ls ∧ s.globalServer.or (ls.findSome? Label.caller) = some server) := by
  induction ls with
  | nil =>
      intro s t h server
      rw [Transition.run_nil, Option.some.injEq] at h
      simp [h]
  | cons l ls ih =>
      intro s t h server
      obtain ⟨s', hl, hrest⟩ := Transition.run_cons_eq_some h
      rw [ih hrest server]
      cases l with
      | stopOnSigint first =>
          rw [← Option.some.inj hl]
          cases hg : s.globalServer with
          | none => simp [Label.caller, List.findSome?_cons]
          | some g => simp
      | stop other =>
          rw [← Option.some.inj hl]
          by_cases ho : server = other
          · simp [ho]
          · simp [ho, Label.caller, List.findSome?_cons]
      | sigint =>
          cases hg : s.globalServer with
          | none => exact absurd hl (by simp [step, hg])
          | some g =>
              simp only [step, hg, Option.some.injEq] at hl
              rw [← hl]
              by_cases ho : server = g
              · simp [ho]
              · simp [ho, Ne.symm ho]

/-- **`SIGINT` stops one server only.** In every run of calls and signals, a server has been stopped if and
    only if `stop` was called on it, or a signal came and it is the first one that called `stop_on_SIGINT`.
    The calls of other servers have no effect. -/
theorem sigint_stops_first (ls : List Label) (t : Signals) (hrun : Transition.run step start ls = some t)
    (server : Nat) :
    t.running server = false ↔
      .stop server ∈ ls ∨ (.sigint ∈ ls ∧ ls.findSome? Label.caller = some server) := by
  rw [running_run hrun server]
  simp [start]

/-- With two servers that both asked for it, the second one keeps running. -/
theorem sigint_stops_first_of_two :
    ∃ t, Transition.run step start [.stopOnSigint 0, .stopOnSigint 1, .sigint] = some t ∧
      t.running 0 = false ∧ ¬ t.running 1 = false := by
  obtain ⟨t, ht⟩ := Option.isSome_iff_exists.mp
    (show (Transition.run step start [.stopOnSigint 0, .stopOnSigint 1, .sigint]).isSome from rfl)
  refine ⟨t, ht, ?_, ?_⟩
  · rw [sigint_stops_first _ t ht 0]
    decide
  · rw [sigint_stops_first _ t ht 1]
    decide

end Signals

end Neblina

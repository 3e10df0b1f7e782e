import Neblina.Thread.Pool

/-!
# `Thread.Routing` — the threads' maps are one map

`ThreadManager` keeps no table of which thread has which descriptor: `add_session`, `remove_session` and
`data_available` compute the thread from the descriptor each time, and the worker only ever looks in the
map of its own thread. `partition_of_run` says that this is enough: at every point of every run the maps
of the threads are the one map that the same `add_session` and `remove_session` calls would have built,
cut by `fd % threads_.size()`, and so are the queues.

A call that throws (`ThreadSingle::data_available` runs the session's iteration) goes back to its caller
with the state it reached, and the caller may go on; an exception in a worker ends the process.
-/

namespace Neblina

open ThreadManager

namespace Pool

variable {tc : ThreadCount} {σ W : Type}

/-! ## Runs of a caller that catches -/

/-- The state after a call, however it ended. -/
def resume (nextId : Nat) : EStateM.Result Abrupt (ThreadManager tc σ × W) Unit → State tc σ W
  | .ok _ r => ⟨r.1, r.2, nextId⟩
  | .error _ r => ⟨r.1, r.2, nextId⟩

/-- One step of the pool under a caller that goes on after an exception. -/
def catchingStep (S : SessionClass W σ) (init : σ) (s : State tc σ W) : Label tc → Option (State tc σ W)
  | .call (.addSession fd) =>
      some (resume (s.nextId + 1) (addSession S (s.fresh init fd) (s.threads, s.world)))
  | .call (.dataAvailable fd) => some (resume s.nextId (dataAvailable S fd (s.threads, s.world)))
  | .call (.removeSession fd) => some (resume s.nextId (removeSession S fd (s.threads, s.world)))
  | .worker k => step S init s (.worker k)

/-! ## The one map -/

/-- A single map of sessions, with the number of sessions that were ever added to it: a session object is
    known by the place of its `add_session` among all of them. -/
structure Flat where
  sessions : SOCKET → Option Connection
  added    : Nat

namespace Flat

def empty : Flat := ⟨fun _ => none, 0⟩

/-- A call on the single map: `sessions[fd] = …` and `sessions.erase(fd)`. -/
def apply (m : Flat) : Call → Flat
  | .addSession fd => ⟨Function.update m.sessions fd (some ⟨fd, m.added⟩), m.added + 1⟩
  | .removeSession fd => { m with sessions := Function.update m.sessions fd none }
  | .dataAvailable _ => m

/-- A step of the pool as the single map sees it. -/
def follow (m : Flat) : Label tc → Flat
  | .call c => m.apply c
  | .worker _ => m

end Flat

/-- The single map after the calls of a run. -/
def flat (ls : List (Label tc)) : Flat := ls.foldl Flat.follow Flat.empty

/-! ## One step -/

/-- The maps of the threads are the map `m`, cut by the routing. -/
structure Cut (m : Flat) (s : State tc σ W) : Prop where
  routed : Routed s.threads
  conns  : conns s.threads = m.sessions
  added  : s.nextId = m.added

variable {S : SessionClass W σ} {init : σ} {m : Flat} {s s' : State tc σ W}

/-- What an iteration leaves behind, also by an exception, has the routing and the connections it had. -/
theorem Cut.iterated (hpos : 0 < tc.size) (hc : Cut m s) (fd : SOCKET) :
    Cut m (resume s.nextId (iterate S fd (s.threads, s.world))) := by
  cases hit : iterate S fd (s.threads, s.world) with
  | ok a r => exact ⟨routed_iterate hc.routed hit, (conns_iterate hpos hit).trans hc.conns, hc.added⟩
  | error e r =>
      obtain ⟨x, self, hx, _, htm⟩ := iterate_error hit
      refine ⟨?_, ?_, hc.added⟩
      · show Routed r.1
        rw [htm]
        exact hc.routed.setSelf fd x self
      · show ThreadManager.conns r.1 = m.sessions
        rw [htm, conns_setSelf hpos hx]
        exact hc.conns

/-- A pass of a worker leaves every map entry where it is. -/
theorem Cut.passed (hpos : 0 < tc.size) (hc : Cut m s) {k : Fin tc.size}
    (h : step S init s (.worker k) = some s') : Cut m s' := by
  have hr : Routed s'.threads := routed_step hpos hc.routed h
  cases does_of_step hpos hc.routed h with
  | idle k hk hq => exact hc
  | served k fd rest tm w hk hq hit =>
      refine ⟨hr, ?_, hc.added⟩
      show ThreadManager.conns tm = m.sessions
      -- popping the queue touches no map, and the iteration only changes the fields of one session
      rw [conns_iterate hpos hit, conns_congr (lookup_setQueue k rest)]
      exact hc.conns

/-- **A step of the pool is a step of the single map.** -/
theorem Cut.step (hpos : 0 < tc.size) (hc : Cut m s) {l : Label tc}
    (h : catchingStep S init s l = some s') : Cut (m.follow l) s' := by
  cases l with
  | worker k =>
      simp only [catchingStep] at h
      exact hc.passed hpos h
  | call c =>
      cases c with
      | addSession fd =>
          simp only [catchingStep, addSession_eq hpos, resume, Option.some.injEq] at h
          subst h
          refine ⟨hc.routed.insert _, ?_, congrArg (· + 1) hc.added⟩
          show ThreadManager.conns (ThreadManager.insert s.threads (s.fresh init fd)) =
            Function.update m.sessions fd (some ⟨fd, m.added⟩)
          rw [conns_of_update (lookup_insert hpos _), hc.conns, ← hc.added]
          rfl
      | removeSession fd =>
          simp only [catchingStep, removeSession_eq hpos, resume, Option.some.injEq] at h
          subst h
          refine ⟨hc.routed.remove fd, ?_, hc.added⟩
          show ThreadManager.conns (ThreadManager.remove s.threads fd) = Function.update m.sessions fd none
          rw [conns_of_update (lookup_remove hpos), hc.conns]
          rfl
      | dataAvailable fd =>
          cases hk : tc.kind with
          | single =>
              simp only [catchingStep, dataAvailable_single hpos hk, Option.some.injEq] at h
              subst h
              exact hc.iterated hpos fd
          | multi =>
              simp only [catchingStep, dataAvailable_multi hpos hk, resume, Option.some.injEq] at h
              subst h
              exact ⟨hc.routed.enqueue fd, (conns_congr lookup_enqueue).trans hc.conns, hc.added⟩

/-! ## Whole runs -/

theorem cut_start (w : W) : Cut Flat.empty (start tc w : State tc σ W) := by
  refine ⟨routed_create, ?_, rfl⟩
  funext fd
  exact conns_eq_none (lookup_create fd)

theorem Cut.run (hpos : 0 < tc.size) : ∀ {ls : List (Label tc)} {m : Flat} {s t : State tc σ W}, Cut m s →
    Transition.run (catchingStep S init) s ls = some t → Cut (ls.foldl Flat.follow m) t := by
  intro ls
  induction ls with
  | nil =>
      intro m s t hc h
      rw [Transition.run_nil, Option.some.injEq] at h
      exact h ▸ hc
  | cons l ls ih =>
      intro m s t hc h
      obtain ⟨s', hs, hrest⟩ := Transition.run_cons_eq_some h
      exact ih (hc.step hpos hs) hrest

/-- What it means for the threads to share out the map `m`. -/
structure Partition (m : SOCKET → Option Connection) (tm : ThreadManager tc σ) : Prop where
  sessions : ∀ k fd, ((tm k).sessions fd).isSome → fd % tc.size = k
  queue    : ∀ k, ∀ fd ∈ (tm k).queue, fd % tc.size = k
  once     : ∀ fd j k, ((tm j).sessions fd).isSome → ((tm k).sessions fd).isSome → j = k
  /-- The union of the threads' maps is `m`. -/
  union    : ∀ fd c, (∃ k, ((tm k).sessions fd).map Session.conn = some c) ↔ m fd = some c
  /-- The descriptor a worker pops next: its own thread has what `m` has, and no other thread has anything. -/
  popped   : ∀ k fd rest, (tm k).queue = fd :: rest →
    ((tm k).sessions fd).map Session.conn = m fd ∧ ∀ j, j ≠ k → (tm j).sessions fd = none

theorem Partition.of_routed {tm : ThreadManager tc σ} (hr : Routed tm) : Partition (ThreadManager.conns tm) tm := by
  have hone : ∀ fd (j k : Fin tc.size), ((tm j).sessions fd).isSome → fd % tc.size = k → j = k := by
    intro fd j k hj hk
    apply Fin.ext
    rw [← hr.sessions j fd hj, ← hk]
  refine ⟨hr.sessions, hr.queue, fun fd j k hj hk => hone fd j k hj (hr.sessions k fd hk), ?_, ?_⟩
  · intro fd c
    constructor
    · rintro ⟨k, hk⟩
      obtain ⟨x, hx, rfl⟩ := Option.map_eq_some_iff.mp hk
      exact conns_of_lookup (lookup_of_sessions hr hx)
    · intro h
      obtain ⟨x, hx, rfl⟩ := Option.map_eq_some_iff.mp h
      obtain ⟨k, hk⟩ := sessions_of_lookup hx
      exact ⟨k, by rw [hk]; rfl⟩
  · intro k fd rest hq
    have hfd : fd % tc.size = k := hr.queue k fd (by rw [hq]; exact List.mem_cons_self)
    constructor
    · have hpos : 0 < tc.size := Nat.lt_of_le_of_lt (Nat.zero_le _) k.isLt
      have hk : index hpos fd = k := Fin.ext hfd
      unfold ThreadManager.conns
      rw [lookup_eq hpos, hk]
    · intro j hj
      cases hx : (tm j).sessions fd with
      | none => rfl
      | some x => exact absurd (hone fd j k (by rw [hx]; rfl) hfd) hj

theorem Cut.partition (hc : Cut m s) : Partition m.sessions s.threads := by
  rw [← hc.conns]
  exact Partition.of_routed hc.routed

/-- **The routing invariant.** With at least one thread, after any sequence of `add_session`,
    `remove_session` and `data_available` calls on any descriptors, interleaved in any way with passes of
    the workers, the maps of the threads are the single map of the same calls, each entry in the thread
    its descriptor is routed to, and every queue holds descriptors of its own thread only. -/
theorem partition_of_run (hpos : 0 < tc.size) (S : SessionClass W σ) (init : σ) (w : W)
    (ls : List (Label tc)) (t : State tc σ W)
    (h : Transition.run (catchingStep S init) (start tc w) ls = some t) :
    Partition (flat ls).sessions t.threads := by
  have hc : Cut (flat ls) t := Cut.run hpos (cut_start w) h
  exact hc.partition

/-- Two threads, a descriptor added twice, an unknown one removed, and passes of the second worker with and
    without work. -/
def twoThreads : List (Label (.count 2)) :=
  [.call (.addSession 5), .call (.addSession 4), .call (.dataAvailable 5),
    .worker ⟨1, Nat.one_lt_two⟩, .call (.addSession 5), .call (.removeSession 8), .call (.dataAvailable 4),
    .worker ⟨1, Nat.one_lt_two⟩]

theorem partition_of_run_two :
    ∃ t : State (.count 2) Unit Unit,
      Transition.run (catchingStep SessionClass.silent ()) (start (.count 2) ()) twoThreads = some t ∧
        Partition (flat twoThreads).sessions t.threads :=
  ⟨_, rfl, partition_of_run (by decide) SessionClass.silent () () twoThreads _ rfl⟩

end Pool

end Neblina

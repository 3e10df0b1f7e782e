import Mathlib.Data.List.Induction
import Mathlib.Data.List.Nodup
import Neblina.Lib.PartialMap
import Neblina.Protocol.Scripted
import Neblina.Thread.Recorded

/-!
# `Thread.Notification` — what becomes of an announced request

`data_available(fd)` puts a number into a queue; `remove_session(fd)` destroys the session at once and
leaves the queue alone. A `Traced` pool keeps a ticket with every queue entry and a history: what was
announced, for which session object, and what the session objects themselves wrote down (`Thread.Recorded`)
in the steps that were about the ticket, their iterations and their ends. A ticket that was taken in a step
in which no session did anything is discarded. The runs of the pool are those of the traced one
(`traced_of_run`).

`handled_iff_quiet`: every announced request is run on its own session object before that object is
destroyed, if and only if every `remove_session(fd)` comes when `fd` is not in a queue.
-/

namespace Neblina
namespace Pool

open ThreadManager

variable {σ W : Type} {tc : ThreadCount}

/-! ## The traced pool -/

/-- What happens to the ticket `t` of a `data_available` call and to the session object `id`. -/
inductive Trace where
  | announced (t id : Nat)
  | iterated (t id : Nat)
  | discarded (t : Nat)
  | destroyed (id : Nat)
  deriving DecidableEq, Repr

/-- A pool of recorded sessions, the queue entries with their tickets, the next ticket, and the history, oldest
    first. -/
structure Traced (tc : ThreadCount) (σ W : Type) where
  pool    : State tc σ (Recorded W)
  entries : Fin tc.size → List (SOCKET × Nat)
  next    : Nat
  log     : List Trace

def Traced.start (tc : ThreadCount) (w : W) : Traced tc σ W :=
  ⟨Pool.start tc ⟨w, []⟩, fun _ => [], 0, []⟩

/-- The entries after ticket `t` was queued for `fd`. -/
def putEntry (entries : Fin tc.size → List (SOCKET × Nat)) (fd : SOCKET) (t : Nat) :
    Fin tc.size → List (SOCKET × Nat) :=
  fun k => if fd % tc.size = k then entries k ++ [(fd, t)] else entries k

/-- What a session object wrote down in a step about the ticket `t`. -/
def traceOf (t : Nat) : Act → Trace
  | .iterated id => .iterated t id
  | .destroyed id => .destroyed id

/-- What a step adds to the history, when `acts` is what the sessions wrote down in it. -/
def Traced.events (s : Traced tc σ W) (acts : List Act) : Label tc → List Trace
  | .call (.addSession _) => acts.map (traceOf s.next)
  | .call (.removeSession _) => acts.map (traceOf s.next)
  | .call (.dataAvailable fd) =>
      ((owner s.pool.threads fd).map (Trace.announced s.next)).toList ++ acts.map (traceOf s.next)
  | .worker k =>
      match s.entries k with
      | [] => acts.map (traceOf s.next)
      | (_, t) :: _ => if acts = [] then [.discarded t] else acts.map (traceOf t)

/-- The entries after a step. -/
def Traced.entriesAfter (s : Traced tc σ W) : Label tc → Fin tc.size → List (SOCKET × Nat)
  | .call (.addSession _) => s.entries
  | .call (.removeSession _) => s.entries
  | .call (.dataAvailable fd) =>
      match tc.kind with
      | .single => s.entries
      | .multi => putEntry s.entries fd s.next
  | .worker k => Function.update s.entries k (s.entries k).tail

/-- A step of the pool, traced. -/
def Traced.step (S : SessionClass W σ) (init : σ) (s : Traced tc σ W) (l : Label tc) :
    Option (Traced tc σ W) :=
  (Pool.step S.recorded init s.pool l).map fun pool =>
    ⟨pool, s.entriesAfter l, s.next + 1,
      s.log ++ s.events (pool.world.acts.drop s.pool.world.acts.length) l⟩

/-- What the event loop promises of its calls: a new descriptor has no session, data is announced for
    descriptors that have one. -/
def Legit (s : Traced tc σ W) : Label tc → Prop
  | .call (.addSession fd) => (owner s.pool.threads fd).isNone
  | .call (.dataAvailable fd) => (owner s.pool.threads fd).isSome
  | _ => True

/-- A session is removed only while its descriptor is in no queue. -/
def Quiet (s : Traced tc σ W) : Label tc → Prop
  | .call (.removeSession fd) => ∀ k, fd ∉ (s.pool.threads k).queue
  | _ => True

/-- **Every announced request is handled.** Between the announcement of a ticket for a session object and
    the destruction of that object its `iteration()` is run for the ticket, and the ticket is never iterated
    on another object nor discarded. -/
def Handled (log : List Trace) : Prop :=
  ∀ before t id after, log = before ++ .announced t id :: after →
    (∀ mid rest, after = mid ++ .destroyed id :: rest → Trace.iterated t id ∈ mid) ∧
    (∀ id', Trace.iterated t id' ∈ after → id' = id) ∧ Trace.discarded t ∉ after

/-! ## The history, one event at a time -/

/-- Where an element of a list with one more element at its end stands. -/
theorem snoc_split {β : Type} {log before after : List β} {e a : β}
    (h : log ++ [e] = before ++ a :: after) :
    (∃ after', after = after' ++ [e] ∧ log = before ++ a :: after') ∨
      (after = [] ∧ a = e ∧ before = log) := by
  rcases List.eq_nil_or_concat after with rfl | ⟨after', x, rfl⟩
  · obtain ⟨hlog, he⟩ := List.append_inj' h rfl
    exact Or.inr ⟨rfl, (List.singleton_inj.mp he).symm, hlog.symm⟩
  · rw [List.concat_eq_append] at h ⊢
    rw [← List.cons_append, ← List.append_assoc] at h
    obtain ⟨hlog, he⟩ := List.append_inj' h rfl
    exact Or.inl ⟨after', by rw [List.singleton_inj.mp he], hlog⟩

/-- What the history must say when the event is added to it. -/
def Allows (log : List Trace) : Trace → Prop
  | .announced _ _ => True
  | .iterated t id => ∀ id', .announced t id' ∈ log → id = id'
  | .discarded t => ∀ id', .announced t id' ∉ log
  | .destroyed id => ∀ before t after, log = before ++ .announced t id :: after →
      .iterated t id ∈ after

theorem handled_snoc {log : List Trace} {e : Trace} :
    Handled (log ++ [e]) ↔ Handled log ∧ Allows log e := by
  constructor
  · intro h
    have hold : ∀ before t id after, log = before ++ .announced t id :: after →
        log ++ [e] = before ++ .announced t id :: (after ++ [e]) := by
      intro before t id after heq
      rw [heq, List.append_assoc, List.cons_append]
    refine ⟨?_, ?_⟩
    · intro before t id after heq
      obtain ⟨hd, hi, hn⟩ := h before t id (after ++ [e]) (hold before t id after heq)
      refine ⟨?_, fun id' hid' => hi id' (List.mem_append_left _ hid'),
        fun hmem => hn (List.mem_append_left _ hmem)⟩
      intro mid rest hmid
      exact hd mid (rest ++ [e]) (by rw [hmid, List.append_assoc, List.cons_append])
    · cases e with
      | announced t id => trivial
      | iterated t id =>
          intro id' hmem
          obtain ⟨before, after, heq⟩ := List.append_of_mem hmem
          exact (h before t id' _ (hold before t id' after heq)).2.1 id
            (List.mem_append_right _ List.mem_cons_self)
      | discarded t =>
          intro id' hmem
          obtain ⟨before, after, heq⟩ := List.append_of_mem hmem
          exact (h before t id' _ (hold before t id' after heq)).2.2
            (List.mem_append_right _ List.mem_cons_self)
      | destroyed id =>
          intro before t after heq
          exact (h before t id _ (hold before t id after heq)).1 after [] rfl
  · rintro ⟨h, hallow⟩ before t id after heq
    rcases snoc_split heq with ⟨after', rfl, hlog⟩ | ⟨rfl, _, _⟩
    · obtain ⟨hd, hi, hn⟩ := h before t id after' hlog
      have hmem : Trace.announced t id ∈ log := by
        rw [hlog]
        exact List.mem_append_right _ List.mem_cons_self
      refine ⟨?_, ?_, ?_⟩
      · intro mid rest hmid
        rcases snoc_split hmid with ⟨rest', rfl, hafter⟩ | ⟨rfl, hde, rfl⟩
        · exact hd mid rest' hafter
        · subst hde
          exact hallow before t mid hlog
      · intro id' hid'
        rcases List.mem_append.mp hid' with hid' | hid'
        · exact hi id' hid'
        · rw [List.mem_singleton] at hid'
          subst hid'
          exact hallow id hmem
      · intro hdis
        rcases List.mem_append.mp hdis with hdis | hdis
        · exact hn hdis
        · rw [List.mem_singleton] at hdis
          subst hdis
          exact hallow id hmem
    · refine ⟨?_, ?_, ?_⟩
      · intro mid rest hmid
        exact absurd hmid (by simp)
      · intro id' hid'
        exact absurd hid' List.not_mem_nil
      · exact List.not_mem_nil

theorem handled_nil : Handled [] := by
  intro before t id after h
  exact absurd h (by simp)

/-- What went wrong stays wrong. -/
theorem Handled.of_append {log more : List Trace} (h : Handled (log ++ more)) : Handled log := by
  induction more using List.reverseRecOn with
  | nil => simpa using h
  | append_singleton more e ih =>
      rw [← List.append_assoc] at h
      exact ih (handled_snoc.mp h).1

/-! ## Entries under the operations -/

section Entries

variable {entries : Fin tc.size → List (SOCKET × Nat)} {fd : SOCKET} {t : Nat} {k : Fin tc.size}

theorem mem_putEntry {p : SOCKET × Nat} :
    p ∈ putEntry entries fd t k ↔ p ∈ entries k ∨ (fd % tc.size = k ∧ p = (fd, t)) := by
  unfold putEntry
  by_cases hk : fd % tc.size = k
  · rw [if_pos hk, List.mem_append, List.mem_singleton]
    simp [hk]
  · rw [if_neg hk]
    simp [hk]

/-- A new entry stands behind the others, also when only one half of the entries is looked at. -/
theorem map_putEntry {β : Type} (f : SOCKET × Nat → β) :
    (putEntry entries fd t k).map f =
      if fd % tc.size = k then (entries k).map f ++ [f (fd, t)] else (entries k).map f := by
  unfold putEntry
  by_cases hk : fd % tc.size = k
  · rw [if_pos hk, if_pos hk, List.map_append, List.map_singleton]
  · rw [if_neg hk, if_neg hk]

end Entries

/-! ## The invariant -/

/-- While every removal is quiet, each queue entry belongs to the session it was announced for, and each
    announcement is still queued or has been iterated. -/
structure Tracked (s : Traced tc σ W) : Prop where
  routed   : Routed s.pool.threads
  aligned  : ∀ k, (s.entries k).map Prod.fst = (s.pool.threads k).queue
  ids      : ∀ fd id, owner s.pool.threads fd = some id → id < s.pool.nextId
  distinct : ∀ fd fd' id, owner s.pool.threads fd = some id → owner s.pool.threads fd' = some id →
    fd = fd'
  entry    : ∀ k fd t, (fd, t) ∈ s.entries k →
    ∃ id, owner s.pool.threads fd = some id ∧ .announced t id ∈ s.log ∧ ∀ id', .iterated t id' ∉ s.log
  fresh    : ∀ t id, .announced t id ∈ s.log ∨ .iterated t id ∈ s.log → t < s.next
  once     : ∀ t id id', .announced t id ∈ s.log → .announced t id' ∈ s.log → id = id'
  nodup    : ∀ k, ((s.entries k).map Prod.snd).Nodup
  followed : ∀ before t id after, s.log = before ++ .announced t id :: after →
    .iterated t id ∈ after ∨ ∃ k fd, (fd, t) ∈ s.entries k ∧ owner s.pool.threads fd = some id
  handled  : Handled s.log

theorem tracked_start (w : W) : Tracked (Traced.start tc w : Traced tc σ W) := by
  have hnone : ∀ fd id, owner (create tc : ThreadManager tc σ) fd = some id → False := by
    intro fd id h
    unfold owner lookup at h
    split at h
    · exact absurd h (by simp [create, Thread.empty])
    · exact absurd h (by simp)
  refine ⟨routed_create, fun _ => rfl, ?_, ?_, ?_, ?_, ?_, fun _ => List.nodup_nil, ?_, handled_nil⟩
  · intro fd id h
    exact (hnone fd id h).elim
  · intro fd fd' id h
    exact (hnone fd id h).elim
  · intro k fd t h
    exact absurd h List.not_mem_nil
  · intro t id h
    exact absurd h (by simp [Traced.start])
  · intro t id id' h
    exact absurd h List.not_mem_nil
  · intro before t id after h
    exact absurd h (by simp [Traced.start])

/-- A queued ticket is in one queue only. -/
theorem Tracked.entry_unique {s : Traced tc σ W} (hs : Tracked s) {k j : Fin tc.size} {fd fd' : SOCKET}
    {t : Nat} (h : (fd, t) ∈ s.entries k) (h' : (fd', t) ∈ s.entries j) : fd = fd' ∧ k = j := by
  obtain ⟨id, hid, hann, _⟩ := hs.entry k fd t h
  obtain ⟨id', hid', hann', _⟩ := hs.entry j fd' t h'
  have hidid := hs.once t id id' hann hann'
  subst hidid
  have hfd := hs.distinct fd fd' id hid hid'
  subst hfd
  have hk : fd ∈ (s.pool.threads k).queue := by
    rw [← hs.aligned k]
    exact List.mem_map_of_mem h
  have hj : fd ∈ (s.pool.threads j).queue := by
    rw [← hs.aligned j]
    exact List.mem_map_of_mem h'
  exact ⟨rfl, Fin.ext ((hs.routed.queue k fd hk).symm.trans (hs.routed.queue j fd hj))⟩

/-- The next ticket is not in the history. -/
theorem Tracked.next_fresh {s : Traced tc σ W} (hs : Tracked s) (id : Nat) :
    Trace.announced s.next id ∉ s.log ∧ Trace.iterated s.next id ∉ s.log := by
  refine ⟨?_, ?_⟩
  · intro h
    exact Nat.lt_irrefl _ (hs.fresh _ _ (Or.inl h))
  · intro h
    exact Nat.lt_irrefl _ (hs.fresh _ _ (Or.inr h))

/-- A descriptor is in a queue if and only if some ticket of it is. -/
theorem Tracked.mem_queue {s : Traced tc σ W} (hs : Tracked s) {k : Fin tc.size} {fd : SOCKET} :
    fd ∈ (s.pool.threads k).queue ↔ ∃ t, (fd, t) ∈ s.entries k := by
  rw [← hs.aligned k, List.mem_map]
  constructor
  · rintro ⟨⟨fd', t⟩, hmem, rfl⟩
    exact ⟨t, hmem⟩
  · rintro ⟨t, hmem⟩
    exact ⟨(fd, t), hmem, rfl⟩

/-- The entries that are left when the head of a queue is taken: all those with another ticket. -/
theorem Tracked.mem_popped {s : Traced tc σ W} (hs : Tracked s) {k j : Fin tc.size} {fd fd' : SOCKET}
    {t t' : Nat} {rest : List (SOCKET × Nat)} (hk : s.entries k = (fd, t) :: rest) :
    (fd', t') ∈ Function.update s.entries k rest j ↔ (fd', t') ∈ s.entries j ∧ t' ≠ t := by
  by_cases hj : j = k
  · subst hj
    rw [Function.update_self, hk, List.mem_cons]
    constructor
    · intro h
      refine ⟨Or.inr h, ?_⟩
      -- a ticket stands only once in a queue
      rintro rfl
      have hnd := hs.nodup j
      rw [hk, List.map_cons, List.nodup_cons] at hnd
      apply hnd.1
      exact List.mem_map.mpr ⟨(fd', t'), h, rfl⟩
    · rintro ⟨h | h, hne⟩
      · exact absurd (congrArg Prod.snd h) hne
      · exact h
  · rw [Function.update_of_ne hj]
    refine ⟨fun h => ⟨h, ?_⟩, fun h => h.1⟩
    -- nor does it stand in two queues
    rintro rfl
    apply hj
    exact (hs.entry_unique h (hk ▸ List.mem_cons_self)).2

/-! ## The invariant, step by step -/

section Steps

variable {s s' : Traced tc σ W} {fd : SOCKET}

/-- A new session. -/
theorem Tracked.add (hs : Tracked s) (hnone : owner s.pool.threads fd = none)
    (hrouted : Routed s'.pool.threads)
    (hown : owner s'.pool.threads = Function.update (owner s.pool.threads) fd (some s.pool.nextId))
    (hid : s'.pool.nextId = s.pool.nextId + 1)
    (hq : ∀ k, (s'.pool.threads k).queue = (s.pool.threads k).queue)
    (hent : s'.entries = s.entries) (hnext : s.next ≤ s'.next) (hlog : s'.log = s.log) :
    Tracked s' := by
  have hkeep : ∀ {fd' id}, owner s.pool.threads fd' = some id → owner s'.pool.threads fd' = some id := by
    intro fd' id h
    have hne : fd' ≠ fd := by
      rintro rfl
      rw [hnone] at h
      exact absurd h (by simp)
    rw [hown, Function.update_of_ne hne]
    exact h
  have hback : ∀ {fd' id}, owner s'.pool.threads fd' = some id →
      (fd' = fd ∧ id = s.pool.nextId) ∨ owner s.pool.threads fd' = some id := by
    intro fd' id h
    rw [hown] at h
    exact (PartialMap.enter_eq_some.mp h).imp_right And.right
  refine ⟨hrouted, ?_, ?_, ?_, ?_, ?_, ?_, ?_, ?_, ?_⟩
  · intro k
    rw [hent, hq]
    exact hs.aligned k
  · intro fd' id h
    rcases hback h with ⟨_, rfl⟩ | h
    · omega
    · have := hs.ids fd' id h
      omega
  · intro fd₁ fd₂ id h₁ h₂
    rcases hback h₁ with ⟨rfl, rfl⟩ | h₁
    · rcases hback h₂ with ⟨rfl, _⟩ | h₂
      · rfl
      · exact absurd (hs.ids fd₂ _ h₂) (Nat.lt_irrefl _)
    · rcases hback h₂ with ⟨rfl, rfl⟩ | h₂
      · exact absurd (hs.ids fd₁ _ h₁) (Nat.lt_irrefl _)
      · exact hs.distinct fd₁ fd₂ id h₁ h₂
  · intro k fd' t h
    rw [hent] at h
    rw [hlog]
    obtain ⟨id, hid', hrest⟩ := hs.entry k fd' t h
    exact ⟨id, hkeep hid', hrest⟩
  · intro t id h
    rw [hlog] at h
    exact Nat.lt_of_lt_of_le (hs.fresh t id h) hnext
  · rw [hlog]
    exact hs.once
  · rw [hent]
    exact hs.nodup
  · intro before t id after h
    rw [hlog] at h
    rw [hent]
    rcases hs.followed before t id after h with h | ⟨k, fd', hmem, hid'⟩
    · exact Or.inl h
    · exact Or.inr ⟨k, fd', hmem, hkeep hid'⟩
  · rw [hlog]
    exact hs.handled

/-- The removal of a session whose descriptor is in no queue. -/
theorem Tracked.remove (hs : Tracked s) (hquiet : ∀ k, fd ∉ (s.pool.threads k).queue)
    (hrouted : Routed s'.pool.threads)
    (hown : owner s'.pool.threads = Function.update (owner s.pool.threads) fd none)
    (hid : s'.pool.nextId = s.pool.nextId)
    (hq : ∀ k, (s'.pool.threads k).queue = (s.pool.threads k).queue)
    (hent : s'.entries = s.entries) (hnext : s.next ≤ s'.next)
    (hlog : s'.log = s.log ++ ((owner s.pool.threads fd).map Trace.destroyed).toList) :
    Tracked s' := by
  have hback : ∀ {fd' id}, owner s'.pool.threads fd' = some id → owner s.pool.threads fd' = some id := by
    intro fd' id h
    rw [hown] at h
    exact (PartialMap.erase_eq_some.mp h).2
  have hkeep : ∀ {k fd' t id}, (fd', t) ∈ s.entries k → owner s.pool.threads fd' = some id →
      owner s'.pool.threads fd' = some id := by
    intro k fd' t id hmem h
    have hne : fd' ≠ fd := by
      rintro rfl
      exact hquiet k (hs.mem_queue.mpr ⟨t, hmem⟩)
    rw [hown, Function.update_of_ne hne]
    exact h
  have hlog_mem : ∀ {e}, e ∈ s'.log → e ∈ s.log ∨ ∃ id, e = Trace.destroyed id := by
    intro e he
    rw [hlog] at he
    rcases List.mem_append.mp he with he | he
    · exact Or.inl he
    · rw [Option.mem_toList, Option.map_eq_some_iff] at he
      obtain ⟨id, _, rfl⟩ := he
      exact Or.inr ⟨id, rfl⟩
  have hann : ∀ {t id}, Trace.announced t id ∈ s'.log → Trace.announced t id ∈ s.log := by
    intro t id h
    rcases hlog_mem h with h | ⟨_, h⟩
    · exact h
    · exact absurd h (by simp)
  have hiter : ∀ {t id}, Trace.iterated t id ∈ s'.log → Trace.iterated t id ∈ s.log := by
    intro t id h
    rcases hlog_mem h with h | ⟨_, h⟩
    · exact h
    · exact absurd h (by simp)
  have hsub : ∀ {e}, e ∈ s.log → e ∈ s'.log := by
    intro e he
    rw [hlog]
    exact List.mem_append_left _ he
  refine ⟨hrouted, ?_, ?_, ?_, ?_, ?_, ?_, ?_, ?_, ?_⟩
  · intro k
    rw [hent, hq]
    exact hs.aligned k
  · intro fd' id h
    rw [hid]
    exact hs.ids fd' id (hback h)
  · intro fd₁ fd₂ id h₁ h₂
    exact hs.distinct fd₁ fd₂ id (hback h₁) (hback h₂)
  · intro k fd' t h
    rw [hent] at h
    obtain ⟨id, hid', hin, hno⟩ := hs.entry k fd' t h
    exact ⟨id, hkeep h hid', hsub hin, fun id' hit => hno id' (hiter hit)⟩
  · intro t id h
    exact Nat.lt_of_lt_of_le (hs.fresh t id (h.imp hann hiter)) hnext
  · intro t id id' h h'
    exact hs.once t id id' (hann h) (hann h')
  · rw [hent]
    exact hs.nodup
  · intro before t id after h
    rw [hent]
    cases ho : owner s.pool.threads fd with
    | none =>
        rw [hlog, ho] at h
        simp only [Option.map_none, Option.toList_none, List.append_nil] at h
        rcases hs.followed before t id after h with h | ⟨k, fd', hmem, hid'⟩
        · exact Or.inl h
        · exact Or.inr ⟨k, fd', hmem, hkeep hmem hid'⟩
    | some old =>
        rw [hlog, ho] at h
        simp only [Option.map_some, Option.toList_some] at h
        rcases snoc_split h with ⟨after', rfl, hold⟩ | ⟨_, hnew, _⟩
        · rcases hs.followed before t id after' hold with hit | ⟨k, fd', hmem, hid'⟩
          · exact Or.inl (List.mem_append_left _ hit)
          · exact Or.inr ⟨k, fd', hmem, hkeep hmem hid'⟩
        · exact absurd hnew (by simp)
  · cases ho : owner s.pool.threads fd with
    | none =>
        rw [hlog, ho]
        simpa using hs.handled
    | some old =>
        rw [hlog, ho]
        simp only [Option.map_some, Option.toList_some]
        refine handled_snoc.mpr ⟨hs.handled, ?_⟩
        -- every announcement for the removed session has left the queue, so it was iterated
        intro before t after h
        rcases hs.followed before t old after h with h | ⟨k, fd', hmem, hid'⟩
        · exact h
        · have hfd := hs.distinct fd' fd old hid' ho
          subst hfd
          exact absurd (hs.mem_queue.mpr ⟨t, hmem⟩) (hquiet k)

/-- An announcement that goes into the queue. -/
theorem Tracked.announce (hs : Tracked s) {id : Nat} (hid : owner s.pool.threads fd = some id)
    (hrouted : Routed s'.pool.threads) (hown : owner s'.pool.threads = owner s.pool.threads)
    (hids : s'.pool.nextId = s.pool.nextId)
    (hq : ∀ k, (s'.pool.threads k).queue =
      if fd % tc.size = k then (s.pool.threads k).queue ++ [fd] else (s.pool.threads k).queue)
    (hent : s'.entries = putEntry s.entries fd s.next) (hnext : s.next < s'.next)
    (hlog : s'.log = s.log ++ [.announced s.next id]) (hpos : 0 < tc.size) :
    Tracked s' := by
  have hentry : ∀ {k fd' t}, (fd', t) ∈ s'.entries k →
      (fd', t) ∈ s.entries k ∨ (fd' = fd ∧ t = s.next) := by
    intro k fd' t h
    rw [hent, mem_putEntry, Prod.mk.injEq] at h
    exact h.imp_right And.right
  have hstay : ∀ {k fd' t}, (fd', t) ∈ s.entries k → (fd', t) ∈ s'.entries k := by
    intro k fd' t h
    rw [hent, mem_putEntry]
    exact Or.inl h
  have hput : (fd, s.next) ∈ s'.entries (index hpos fd) := by
    rw [hent, mem_putEntry]
    exact Or.inr ⟨rfl, rfl⟩
  refine ⟨hrouted, ?_, ?_, ?_, ?_, ?_, ?_, ?_, ?_, ?_⟩
  · intro k
    rw [hent, hq, map_putEntry, hs.aligned k]
  · rw [hown, hids]
    exact hs.ids
  · rw [hown]
    exact hs.distinct
  · intro k fd' t h
    rw [hown, hlog]
    rcases hentry h with h | ⟨rfl, rfl⟩
    · obtain ⟨id', hid', hin, hno⟩ := hs.entry k fd' t h
      refine ⟨id', hid', List.mem_append_left _ hin, ?_⟩
      intro id'' hit
      rcases List.mem_append.mp hit with hit | hit
      · exact hno id'' hit
      · exact absurd (List.mem_singleton.mp hit) (by simp)
    · refine ⟨id, hid, List.mem_append_right _ List.mem_cons_self, ?_⟩
      intro id'' hit
      rcases List.mem_append.mp hit with hit | hit
      · exact (hs.next_fresh _).2 hit
      · exact absurd (List.mem_singleton.mp hit) (by simp)
  · intro t id' h
    rw [hlog, List.mem_append, List.mem_append, List.mem_singleton, List.mem_singleton] at h
    rcases h with (h | h) | (h | h)
    · exact Nat.lt_trans (hs.fresh t id' (Or.inl h)) hnext
    · cases h
      exact hnext
    · exact Nat.lt_trans (hs.fresh t id' (Or.inr h)) hnext
    · exact absurd h (by simp)
  · intro t id₁ id₂ h₁ h₂
    rw [hlog, List.mem_append, List.mem_singleton] at h₁ h₂
    rcases h₁ with h₁ | h₁
    · rcases h₂ with h₂ | h₂
      · exact hs.once t id₁ id₂ h₁ h₂
      · cases h₂
        exact absurd h₁ (hs.next_fresh _).1
    · rcases h₂ with h₂ | h₂
      · cases h₁
        exact absurd h₂ (hs.next_fresh _).1
      · cases h₁
        cases h₂
        rfl
  · intro k
    rw [hent, map_putEntry]
    by_cases hk : fd % tc.size = k
    · rw [if_pos hk, ← List.concat_eq_append]
      apply (hs.nodup k).concat
      -- a queued ticket was announced before, and the new one was not
      intro hin
      obtain ⟨⟨fd', t⟩, hmem, rfl⟩ := List.mem_map.mp hin
      obtain ⟨id', _, hann, _⟩ := hs.entry k fd' _ hmem
      exact (hs.next_fresh _).1 hann
    · rw [if_neg hk]
      exact hs.nodup k
  · intro before t id' after h
    rw [hown]
    rw [hlog] at h
    rcases snoc_split h with ⟨after', rfl, hold⟩ | ⟨rfl, hann, _⟩
    · rcases hs.followed before t id' after' hold with hit | ⟨k, fd', hmem, hid'⟩
      · exact Or.inl (List.mem_append_left _ hit)
      · exact Or.inr ⟨k, fd', hstay hmem, hid'⟩
    · cases hann
      exact Or.inr ⟨index hpos fd, fd, hput, hid⟩
  · rw [hlog]
    exact handled_snoc.mpr ⟨hs.handled, trivial⟩

/-- A worker iterates the session of the entry at the head of its queue. -/
theorem Tracked.serve (hs : Tracked s) {k : Fin tc.size} {t id : Nat} {rest : List (SOCKET × Nat)}
    (hk : s.entries k = (fd, t) :: rest) (hid : owner s.pool.threads fd = some id)
    (hrouted : Routed s'.pool.threads) (hown : owner s'.pool.threads = owner s.pool.threads)
    (hids : s'.pool.nextId = s.pool.nextId)
    (hq : ∀ j, (s'.pool.threads j).queue =
      if j = k then (s.pool.threads k).queue.tail else (s.pool.threads j).queue)
    (hent : s'.entries = Function.update s.entries k rest) (hnext : s.next ≤ s'.next)
    (hlog : s'.log = s.log ++ [.iterated t id]) :
    Tracked s' := by
  have hhead : (fd, t) ∈ s.entries k := by
    rw [hk]
    exact List.mem_cons_self
  have hleft : ∀ {j fd' t'}, (fd', t') ∈ s'.entries j ↔ (fd', t') ∈ s.entries j ∧ t' ≠ t := by
    intro j fd' t'
    rw [hent]
    exact hs.mem_popped hk
  have hann : ∀ {t' id'}, Trace.announced t' id' ∈ s'.log ↔ Trace.announced t' id' ∈ s.log := by
    intro t' id'
    rw [hlog]
    simp
  obtain ⟨id₀, hid₀, hann₀, _⟩ := hs.entry k fd t hhead
  have hidid : id₀ = id := Option.some.inj (hid₀.symm.trans hid)
  subst hidid
  refine ⟨hrouted, ?_, ?_, ?_, ?_, ?_, ?_, ?_, ?_, ?_⟩
  · intro j
    rw [hent, hq]
    by_cases hj : j = k
    · subst hj
      rw [if_pos rfl, Function.update_self, ← hs.aligned j, hk]
      rfl
    · rw [if_neg hj, Function.update_of_ne hj]
      exact hs.aligned j
  · rw [hown, hids]
    exact hs.ids
  · rw [hown]
    exact hs.distinct
  · intro j fd' t' h
    obtain ⟨hmem, hne⟩ := hleft.mp h
    obtain ⟨id', hid', hin, hno⟩ := hs.entry j fd' t' hmem
    rw [hown]
    refine ⟨id', hid', hann.mpr hin, ?_⟩
    intro id'' hit
    rw [hlog, List.mem_append, List.mem_singleton] at hit
    rcases hit with hit | hit
    · exact hno id'' hit
    · cases hit
      exact absurd rfl hne
  · intro t' id' h
    rw [hann, hlog, List.mem_append, List.mem_singleton] at h
    rcases h with h | (h | h)
    · exact Nat.lt_of_lt_of_le (hs.fresh t' id' (Or.inl h)) hnext
    · exact Nat.lt_of_lt_of_le (hs.fresh t' id' (Or.inr h)) hnext
    · cases h
      exact Nat.lt_of_lt_of_le (hs.fresh t id₀ (Or.inl hann₀)) hnext
  · intro t' id₁ id₂ h₁ h₂
    exact hs.once t' id₁ id₂ (hann.mp h₁) (hann.mp h₂)
  · intro j
    rw [hent]
    by_cases hj : j = k
    · subst hj
      rw [Function.update_self]
      have hnd := hs.nodup j
      rw [hk, List.map_cons, List.nodup_cons] at hnd
      exact hnd.2
    · rw [Function.update_of_ne hj]
      exact hs.nodup j
  · intro before t' id' after h
    rw [hown]
    rw [hlog] at h
    rcases snoc_split h with ⟨after', rfl, hold⟩ | ⟨_, hnew, _⟩
    · rcases hs.followed before t' id' after' hold with hit | ⟨j, fd', hmem, hid'⟩
      · exact Or.inl (List.mem_append_left _ hit)
      · by_cases ht : t' = t
        · -- this is the ticket that was just served
          subst ht
          have hin : Trace.announced t' id' ∈ s.log := by
            rw [hold]
            exact List.mem_append_right _ List.mem_cons_self
          have hidid := hs.once t' id' id₀ hin hann₀
          subst hidid
          exact Or.inl (List.mem_append_right _ List.mem_cons_self)
        · exact Or.inr ⟨j, fd', hleft.mpr ⟨hmem, ht⟩, hid'⟩
    · exact absurd hnew (by simp)
  · rw [hlog]
    refine handled_snoc.mpr ⟨hs.handled, ?_⟩
    intro id' hin
    exact hs.once t id₀ id' hann₀ hin

/-- An announcement that is iterated at once. -/
theorem Tracked.ran (hs : Tracked s) {id : Nat} (hid : owner s.pool.threads fd = some id)
    (hrouted : Routed s'.pool.threads) (hown : owner s'.pool.threads = owner s.pool.threads)
    (hids : s'.pool.nextId = s.pool.nextId)
    (hq : ∀ k, (s'.pool.threads k).queue = (s.pool.threads k).queue)
    (hent : s'.entries = s.entries) (hnext : s.next < s'.next)
    (hlog : s'.log = (s.log ++ [.announced s.next id]) ++ [.iterated s.next id]) :
    Tracked s' := by
  have hann : ∀ {t id'}, Trace.announced t id' ∈ s'.log →
      Trace.announced t id' ∈ s.log ∨ (t = s.next ∧ id' = id) := by
    intro t id' h
    rw [hlog] at h
    simpa using h
  have hiter : ∀ {t id'}, Trace.iterated t id' ∈ s'.log →
      Trace.iterated t id' ∈ s.log ∨ (t = s.next ∧ id' = id) := by
    intro t id' h
    rw [hlog] at h
    simpa using h
  refine ⟨hrouted, ?_, ?_, ?_, ?_, ?_, ?_, ?_, ?_, ?_⟩
  · intro k
    rw [hent, hq]
    exact hs.aligned k
  · rw [hown, hids]
    exact hs.ids
  · rw [hown]
    exact hs.distinct
  · intro k fd' t h
    rw [hent] at h
    obtain ⟨id', hid', hin, hno⟩ := hs.entry k fd' t h
    rw [hown]
    refine ⟨id', hid', ?_, ?_⟩
    · rw [hlog]
      exact List.mem_append_left _ (List.mem_append_left _ hin)
    · intro id'' hit
      rcases hiter hit with hit | ⟨rfl, _⟩
      · exact hno id'' hit
      · exact (hs.next_fresh _).1 hin
  · intro t id' h
    rcases h with h | h
    · rcases hann h with h | ⟨rfl, _⟩
      · exact Nat.lt_trans (hs.fresh t id' (Or.inl h)) hnext
      · exact hnext
    · rcases hiter h with h | ⟨rfl, _⟩
      · exact Nat.lt_trans (hs.fresh t id' (Or.inr h)) hnext
      · exact hnext
  · intro t id₁ id₂ h₁ h₂
    rcases hann h₁ with h₁ | ⟨rfl, rfl⟩
    · rcases hann h₂ with h₂ | ⟨rfl, rfl⟩
      · exact hs.once t id₁ id₂ h₁ h₂
      · exact absurd h₁ (hs.next_fresh _).1
    · rcases hann h₂ with h₂ | ⟨_, rfl⟩
      · exact absurd h₂ (hs.next_fresh _).1
      · rfl
  · rw [hent]
    exact hs.nodup
  · intro before t id' after h
    rw [hown, hent]
    rw [hlog] at h
    rcases snoc_split h with ⟨after', rfl, hold⟩ | ⟨_, hlast, _⟩
    · rcases snoc_split hold with ⟨after'', rfl, hold'⟩ | ⟨rfl, hlast, _⟩
      · rcases hs.followed before t id' after'' hold' with hit | hqueued
        · exact Or.inl (List.mem_append_left _ (List.mem_append_left _ hit))
        · exact Or.inr hqueued
      · cases hlast
        exact Or.inl List.mem_cons_self
    · exact absurd hlast (by simp)
  · rw [hlog]
    refine handled_snoc.mpr ⟨handled_snoc.mpr ⟨hs.handled, trivial⟩, ?_⟩
    intro id' hin
    rcases List.mem_append.mp hin with hin | hin
    · exact absurd hin (hs.next_fresh _).1
    · cases List.mem_singleton.mp hin
      rfl

end Steps

/-- What a traced step is made of. -/
theorem Traced.step_eq_some {S : SessionClass W σ} {init : σ} {s s' : Traced tc σ W} {l : Label tc}
    (hpos : 0 < tc.size) (hr : Routed s.pool.threads) (h : s.step S init l = some s') :
    Pool.step S.recorded init s.pool l = some s'.pool ∧ s'.entries = s.entriesAfter l ∧
      s'.next = s.next + 1 ∧ s'.log = s.log ++ s.events (due s.pool l) l := by
  obtain ⟨pool, hpool, rfl⟩ := Option.map_eq_some_iff.mp h
  refine ⟨hpool, rfl, rfl, ?_⟩
  rw [acts_step hpos hr hpool, List.drop_left]

/-- The end of a session, as it stands in the history. -/
theorem map_traceOf_destroyed (t : Nat) (o : Option Nat) :
    ((o.map Act.destroyed).toList).map (traceOf t) = (o.map Trace.destroyed).toList := by
  cases o with
  | none => rfl
  | some id => rfl

/-- **A quiet step keeps the invariant.** -/
theorem tracked_step (hpos : 0 < tc.size) {S : SessionClass W σ} {init : σ} {s s' : Traced tc σ W}
    {l : Label tc} (hs : Tracked s) (hlegit : Legit s l) (hquiet : Quiet s l)
    (h : s.step S init l = some s') : Tracked s' := by
  obtain ⟨hpool, hent, hnext, hlog⟩ := Traced.step_eq_some hpos hs.routed h
  have hrouted := routed_step hpos hs.routed hpool
  obtain ⟨pool, entries, next, log⟩ := s'
  simp only at hpool hent hnext hlog hrouted
  have hle : s.next < next := by omega
  cases does_of_step hpos hs.routed hpool with
  | added fd =>
      have hnone := Option.isNone_iff_eq_none.mp hlegit
      refine hs.add hnone hrouted ?_ rfl (queue_insert _) hent (Nat.le_of_lt hle) ?_
      · exact owner_of_update (lookup_insert hpos _)
      · show log = s.log
        rw [hlog, Traced.events, due, hnone]
        exact List.append_nil _
  | removed fd =>
      refine hs.remove hquiet hrouted ?_ rfl queue_remove hent (Nat.le_of_lt hle) ?_
      · exact owner_of_update (lookup_remove hpos)
      · show log = _
        rw [hlog, Traced.events, due, map_traceOf_destroyed]
  | queued fd hk =>
      obtain ⟨id, hid⟩ := Option.isSome_iff_exists.mp hlegit
      refine hs.announce hid hrouted (owner_congr (conns_congr lookup_enqueue)) rfl queue_enqueue ?_ hle ?_ hpos
      · show entries = _
        rw [hent, Traced.entriesAfter, hk]
      · show log = _
        rw [hlog, Traced.events, due, hid, hk]
        rfl
  | ran fd tm w hk hit =>
      obtain ⟨id, hid⟩ := Option.isSome_iff_exists.mp hlegit
      refine hs.ran hid hrouted (owner_congr (conns_iterate hpos hit)) rfl (queue_iterate hit) ?_ hle ?_
      · show entries = _
        rw [hent, Traced.entriesAfter, hk]
      · show log = _
        rw [hlog, Traced.events, due, hid, hk, List.append_assoc]
        rfl
  | idle k hk hq =>
      have hnil : s.entries k = [] := by
        rw [← List.map_eq_nil_iff, hs.aligned k, hq]
      have hsame : entries = s.entries := by
        rw [hent, Traced.entriesAfter, hnil, List.tail_nil, ← hnil]
        exact Function.update_eq_self _ _
      have hlog' : log = s.log := by
        rw [hlog, Traced.events, due, hnil, hq]
        exact List.append_nil _
      subst hsame hlog'
      exact { hs with fresh := fun t id h => Nat.lt_trans (hs.fresh t id h) hle }
  | served k fd rest tm w hk hq hit =>
      obtain ⟨⟨fd', t⟩, rest', hk', hfd, _⟩ := List.map_eq_cons_iff.mp ((hs.aligned k).trans hq)
      simp only at hfd
      subst hfd
      obtain ⟨id, hid, _⟩ := hs.entry k fd' t (by rw [hk']; exact List.mem_cons_self)
      refine hs.serve hk' hid hrouted ?_ rfl ?_ ?_ (Nat.le_of_lt hle) ?_
      · exact owner_congr ((conns_iterate hpos hit).trans (conns_congr (lookup_setQueue k rest)))
      · intro j
        rw [queue_iterate hit, queue_setQueue, hq]
        rfl
      · show entries = _
        rw [hent, Traced.entriesAfter, hk']
        rfl
      · show log = _
        have hdue : due s.pool (.worker k) = [.iterated id] := by
          rw [due, hq, List.head?_cons, Option.bind_some, hid]
          rfl
        rw [hlog, hdue, Traced.events, hk']
        rfl

/-- A step that is not quiet destroys a session whose request is still queued. -/
theorem not_handled_of_not_quiet (hpos : 0 < tc.size) {S : SessionClass W σ} {init : σ}
    {s s' : Traced tc σ W} {l : Label tc} (hs : Tracked s) (hloud : ¬ Quiet s l)
    (h : s.step S init l = some s') : ¬ Handled s'.log := by
  obtain ⟨_, _, _, hlog⟩ := Traced.step_eq_some hpos hs.routed h
  rw [hlog]
  cases l with
  | worker k => exact absurd trivial hloud
  | call c =>
      cases c with
      | addSession fd => exact absurd trivial hloud
      | dataAvailable fd => exact absurd trivial hloud
      | removeSession fd =>
          rw [Quiet, not_forall] at hloud
          obtain ⟨k, hk⟩ := hloud
          obtain ⟨t, hmem⟩ := hs.mem_queue.mp (not_not.mp hk)
          obtain ⟨id, hid, hin, hno⟩ := hs.entry k fd t hmem
          rw [Traced.events, due, map_traceOf_destroyed, hid]
          intro hhandled
          obtain ⟨before, after, heq⟩ := List.append_of_mem hin
          have hit := (handled_snoc.mp hhandled).2 before t after heq
          apply hno id
          rw [heq]
          exact List.mem_append_right _ (List.mem_cons_of_mem _ hit)

/-- A history that is wrong stays wrong: it only grows. -/
theorem not_handled_step {S : SessionClass W σ} {init : σ} {s s' : Traced tc σ W} {l : Label tc}
    (hs : ¬ Handled s.log) (h : s.step S init l = some s') : ¬ Handled s'.log := by
  obtain ⟨pool, _, rfl⟩ := Option.map_eq_some_iff.mp h
  intro hhandled
  exact hs hhandled.of_append

/-! ## Runs -/

/-- **The runs of the pool are the runs of the traced pool**, once the history is forgotten. -/
theorem traced_of_run {S : SessionClass W σ} {init : σ} (w : W) (ls : List (Label tc)) :
    Transition.run (Pool.step S init) (Pool.start tc w) ls =
      (Transition.run (Traced.step S init) (Traced.start tc w) ls).map (fun t => t.pool.forget) := by
  refine Transition.run_map (f := fun t : Traced tc σ W => t.pool.forget) ?_ (Traced.start tc w) ls
  intro t l
  rw [step_forget, Traced.step, Option.map_map]
  rfl

/-- **Every announced request is handled by its own session if and only if no session is removed while its
    descriptor is queued.** For every number of threads that is not zero, every session class and every
    interleaving of the event loop's calls with the workers' passes. -/
theorem handled_iff_quiet (hpos : 0 < tc.size) {S : SessionClass W σ} {init : σ} {w : W}
    {ls : List (Label tc)} {t : Traced tc σ W}
    (hlegit : Transition.AllSteps (Traced.step S init) Legit (Traced.start tc w) ls)
    (h : Transition.run (Traced.step S init) (Traced.start tc w) ls = some t) :
    Handled t.log ↔ Transition.AllSteps (Traced.step S init) Quiet (Traced.start tc w) ls := by
  constructor
  · -- after the first loud removal the history is wrong for good
    intro hhandled
    have hor := Transition.AllSteps.or_bad (fun hs hl hq hb => tracked_step hpos hs hl hq hb)
      (fun hs _ hloud hb => not_handled_of_not_quiet hpos hs hloud hb)
      (fun hbad _ hb => not_handled_step hbad hb) (tracked_start w) hlegit h
    exact hor.resolve_right (fun hbad => hbad hhandled)
  · intro hquiet
    exact (Transition.run_invariant_of (fun hs hl hb => tracked_step hpos hs hl.1 hl.2 hb) (tracked_start w)
      (hlegit.and hquiet) h).handled

/-- A descriptor is in no queue of a `ThreadSingle`. -/
theorem queues_empty_of_single (hk : tc.kind = .single) (hpos : 0 < tc.size) {S : SessionClass W σ}
    {init : σ} {s s' : Traced tc σ W} {l : Label tc}
    (hs : Routed s.pool.threads ∧ ∀ k, (s.pool.threads k).queue = [])
    (h : Traced.step S init s l = some s') :
    Routed s'.pool.threads ∧ ∀ k, (s'.pool.threads k).queue = [] := by
  obtain ⟨hpool, _⟩ := Traced.step_eq_some hpos hs.1 h
  refine ⟨routed_step hpos hs.1 hpool, ?_⟩
  intro k
  rw [← hs.2 k]
  obtain ⟨pool, entries, next, log⟩ := s'
  cases does_of_step hpos hs.1 hpool with
  | added fd => exact queue_insert _ k
  | removed fd => exact queue_remove k
  | queued fd hm => exact absurd (hk.symm.trans hm) (by simp)
  | ran fd tm w _ hit => exact queue_iterate hit k
  | idle j hm hq => exact absurd (hk.symm.trans hm) (by simp)
  | served j fd rest tm w hm hq hit => exact absurd (hk.symm.trans hm) (by simp)

/-- **Under `ThreadSingle` every announced request is handled.** -/
theorem handled_of_single {S : SessionClass W σ} {init : σ} {w : W} {ls : List (Label .single)}
    {t : Traced .single σ W}
    (hlegit : Transition.AllSteps (Traced.step S init) Legit (Traced.start .single w) ls)
    (h : Transition.run (Traced.step S init) (Traced.start .single w) ls = some t) :
    Handled t.log := by
  have hpos : 0 < ThreadCount.single.size := Nat.one_pos
  have hstep : ∀ {a l b}, (Routed a.pool.threads ∧ ∀ k, (a.pool.threads k).queue = []) → Legit a l →
      (a : Traced .single σ W).step S init l = some b →
      Routed b.pool.threads ∧ ∀ k, (b.pool.threads k).queue = [] :=
    fun ha _ hb => queues_empty_of_single rfl hpos ha hb
  have hquiet : Transition.AllSteps (Traced.step S init) Quiet (Traced.start .single w) ls := by
    refine Transition.AllSteps.of_invariant hstep ?_ ⟨routed_create, fun _ => rfl⟩ hlegit
    intro a l ha _
    cases l with
    | worker k => trivial
    | call c =>
        cases c with
        | addSession fd => trivial
        | dataAvailable fd => trivial
        | removeSession fd =>
            intro k
            rw [ha.2 k]
            exact List.not_mem_nil
  exact (Transition.run_invariant_of (fun hs hl hb => tracked_step hpos hs hl.1 hl.2 hb) (tracked_start w)
    (hlegit.and hquiet) h).handled

/-! ### A pool of one worker -/

instance decidableLegit (s : Traced tc σ W) (l : Label tc) : Decidable (Legit s l) :=
  match l with
  | .call (.addSession fd) => inferInstanceAs (Decidable ((owner s.pool.threads fd).isNone = true))
  | .call (.dataAvailable fd) => inferInstanceAs (Decidable ((owner s.pool.threads fd).isSome = true))
  | .call (.removeSession _) => isTrue trivial
  | .worker _ => isTrue trivial

instance decidableQuiet (s : Traced tc σ W) (l : Label tc) : Decidable (Quiet s l) :=
  match l with
  | .call (.removeSession fd) => inferInstanceAs (Decidable (∀ k, fd ∉ (s.pool.threads k).queue))
  | .call (.addSession _) => isTrue trivial
  | .call (.dataAvailable _) => isTrue trivial
  | .worker _ => isTrue trivial

/-- An echo session on descriptor 4 gets a request and is removed after the worker's next pass. -/
def servedRun : List (Label (.count 1)) :=
  [.call (.addSession 4), .call (.dataAvailable 4), .worker ThreadCount.only, .call (.removeSession 4)]

/-- The same calls, and a second client on descriptor 4 before the worker's next pass. -/
def reusedRun : List (Label (.count 1)) :=
  [.call (.addSession 4), .call (.dataAvailable 4), .call (.removeSession 4), .call (.addSession 4),
    .worker ThreadCount.only]

/-- In `servedRun` the request is handled: the session has answered, and then ends. -/
theorem handled_iff_quiet_served :
    ∃ t, Transition.run
        (Traced.step ((Machine.plain () (fun _ data => (data, ()))).sessionClass Scripted.ops) ())
        (Traced.start (.count 1) ⟨fun _ => [[7]], fun _ => []⟩) servedRun = some t ∧
      t.pool.world.world.outbox 0 = [[7]] ∧ t.pool.world.acts = [.iterated 0, .destroyed 0] ∧
      t.log = [.announced 1 0, .iterated 1 0, .destroyed 0] ∧ Handled t.log := by
  have hlegit : Transition.AllSteps
      (Traced.step ((Machine.plain () (fun _ data => (data, ()))).sessionClass Scripted.ops) ()) Legit
      (Traced.start (.count 1) ⟨fun _ => [[7]], fun _ => []⟩) servedRun := by
    decide
  exact ⟨_, rfl, rfl, rfl, rfl, (handled_iff_quiet (by decide) hlegit rfl).mpr (by decide)⟩

/-- In `reusedRun` the first client's request is never handled by its session, which has not answered when it
    ends, and is applied to the second client's. -/
theorem not_handled_reused :
    Transition.AllSteps
        (Traced.step ((Machine.plain () (fun _ data => (data, ()))).sessionClass Scripted.ops) ()) Legit
        (Traced.start (.count 1) ⟨fun _ => [[7]], fun _ => []⟩) reusedRun ∧
    ∃ t, Transition.run
        (Traced.step ((Machine.plain () (fun _ data => (data, ()))).sessionClass Scripted.ops) ())
        (Traced.start (.count 1) ⟨fun _ => [[7]], fun _ => []⟩) reusedRun = some t ∧
      t.pool.world.world.outbox 0 = [] ∧ t.pool.world.world.outbox 1 = [[7]] ∧
      t.pool.world.acts = [.destroyed 0, .iterated 1] ∧
      t.log = [.announced 1 0, .destroyed 0, .iterated 1 1] ∧ ¬ Handled t.log := by
  refine ⟨by decide, _, rfl, rfl, rfl, rfl, rfl, ?_⟩
  intro h
  exact absurd ((h [] 1 0 _ rfl).1 [] _ rfl) List.not_mem_nil

end Pool
end Neblina

import Neblina.Thread.Thread

/-!
# `Thread.ThreadManager` — the routing of descriptors to threads

`threads_` is filled by the constructor and never changes its size, so a manager is a function from the
indices below `ThreadCount.size` to threads. Every operation goes to thread `fd % threads_.size()`; with
no thread at all that is a division by zero.

`lookup` and `pending` are the two views the other modules use: the session and the queue that belong to
a descriptor, wherever its thread is. The `@[simp]` lemmas say what each operation does to them.
-/

namespace Neblina

variable {σ W : Type}

/-- `ThreadCount`: `Threads::Single`, or an `int`. -/
inductive ThreadCount where
  | single
  | count (n : Int)
  deriving DecidableEq, Repr

/-- The class of the threads the constructor of `ThreadManager` creates. -/
inductive ThreadKind where
  | single
  | multi
  deriving DecidableEq, Repr

namespace ThreadCount

/-- `threads_.size()` after the constructor: `for (int i = 0; i < *n; ++i)` pushes one thread for each. -/
def size : ThreadCount → Nat
  | single => 1
  | count n => n.toNat

def kind : ThreadCount → ThreadKind
  | single => .single
  | count _ => .multi

/-- The one worker of a pool of one. -/
def only : Fin (count 1).size := ⟨0, Nat.one_pos⟩

end ThreadCount

namespace ThreadKind

/-- The virtual `Thread::add_session`. -/
def addSession (S : SessionClass W σ) (s : Session σ) : ThreadKind → EStateM Abrupt (Thread σ × W) Unit
  | .single => ThreadSingle.addSession S s
  | .multi => ThreadMulti.addSession S s

/-- The virtual `Thread::remove_session`. -/
def removeSession (S : SessionClass W σ) (fd : SOCKET) : ThreadKind → EStateM Abrupt (Thread σ × W) Unit
  | .single => ThreadSingle.removeSession S fd
  | .multi => ThreadMulti.removeSession S fd

/-- The virtual `Thread::data_available`. -/
def dataAvailable (S : SessionClass W σ) (fd : SOCKET) : ThreadKind → EStateM Abrupt (Thread σ × W) Unit
  | .single => ThreadSingle.dataAvailable S fd
  | .multi => ThreadMulti.dataAvailable fd

end ThreadKind

/-- The state of a `ThreadManager`. -/
abbrev ThreadManager (tc : ThreadCount) (σ : Type) := Fin tc.size → Thread σ

namespace ThreadManager

variable {tc : ThreadCount}

/-- `ThreadManager::ThreadManager`. -/
def create (tc : ThreadCount) : ThreadManager tc σ := fun _ => Thread.empty

/-- The index `fd % threads_.size()`. -/
def index (h : 0 < tc.size) (fd : SOCKET) : Fin tc.size := ⟨fd % tc.size, Nat.mod_lt _ h⟩

/-- `threads_.at(fd % threads_.size())->op(...)`. -/
def atThread (fd : SOCKET) (op : EStateM Abrupt (Thread σ × W) Unit) :
    EStateM Abrupt (ThreadManager tc σ × W) Unit := fun x =>
  if h : 0 < tc.size then
    match op (x.1 (index h fd), x.2) with
    | .ok _ r => .ok () (Function.update x.1 (index h fd) r.1, r.2)
    | .error e r => .error e (Function.update x.1 (index h fd) r.1, r.2)
  else .error .divisionByZero x

/-- `ThreadManager::add_session`. -/
def addSession (S : SessionClass W σ) (s : Session σ) :
    EStateM Abrupt (ThreadManager tc σ × W) Unit :=
  match tc.kind with
  | .single => atThread s.fd (ThreadSingle.addSession S s)
  | .multi => atThread s.fd (ThreadMulti.addSession S s)

/-- `ThreadManager::remove_session`. -/
def removeSession (S : SessionClass W σ) (fd : SOCKET) :
    EStateM Abrupt (ThreadManager tc σ × W) Unit :=
  match tc.kind with
  | .single => atThread fd (ThreadSingle.removeSession S fd)
  | .multi => atThread fd (ThreadMulti.removeSession S fd)

/-- `ThreadManager::data_available`. -/
def dataAvailable (S : SessionClass W σ) (fd : SOCKET) :
    EStateM Abrupt (ThreadManager tc σ × W) Unit :=
  match tc.kind with
  | .single => atThread fd (ThreadSingle.dataAvailable S fd)
  | .multi => atThread fd (ThreadMulti.dataAvailable fd)

/-- A pass of the worker of thread `k`. -/
def workerPass (S : SessionClass W σ) (k : Fin tc.size) :
    EStateM Abrupt (ThreadManager tc σ × W) Unit := fun x =>
  match ThreadMulti.pass S (x.1 k, x.2) with
  | .ok _ r => .ok () (Function.update x.1 k r.1, r.2)
  | .error e r => .error e (Function.update x.1 k r.1, r.2)

/-! ## The views by descriptor -/

/-- The session the manager finds for `fd`. -/
def lookup (tm : ThreadManager tc σ) (fd : SOCKET) : Option (Session σ) :=
  if h : 0 < tc.size then (tm (index h fd)).sessions fd else none

/-- The queue `data_available(fd)` appends to. -/
def pending (tm : ThreadManager tc σ) (fd : SOCKET) : List SOCKET :=
  if h : 0 < tc.size then (tm (index h fd)).queue else []

/-! ## The operations by descriptor

Each operation of the manager changes one thread; `onThread` is that change, and the four operations
below are what remains of `add_session`, `remove_session`, `data_available` and the worker once the
routing is done. -/

/-- Change the thread of `fd` by `g`. -/
def onThread (tm : ThreadManager tc σ) (fd : SOCKET) (g : Thread σ → Thread σ) : ThreadManager tc σ :=
  if h : 0 < tc.size then Function.update tm (index h fd) (g (tm (index h fd))) else tm

/-- The manager with `s` entered under its descriptor. -/
def insert (tm : ThreadManager tc σ) (s : Session σ) : ThreadManager tc σ :=
  onThread tm s.fd (fun t => { t with sessions := Function.update t.sessions s.fd (some s) })

/-- The manager with no session under `fd`. -/
def remove (tm : ThreadManager tc σ) (fd : SOCKET) : ThreadManager tc σ :=
  onThread tm fd (fun t => { t with sessions := Function.update t.sessions fd none })

/-- The manager with `fd` appended to the queue of its thread. -/
def enqueue (tm : ThreadManager tc σ) (fd : SOCKET) : ThreadManager tc σ :=
  onThread tm fd (Thread.push fd)

/-- The manager with the queue of thread `k` set to `rest`. -/
def setQueue (tm : ThreadManager tc σ) (k : Fin tc.size) (rest : List SOCKET) : ThreadManager tc σ :=
  Function.update tm k { tm k with queue := rest }

/-- The manager after the session `s` under `fd` got the fields `self`. -/
def setSelf (tm : ThreadManager tc σ) (fd : SOCKET) (s : Session σ) (self : σ) : ThreadManager tc σ :=
  onThread tm fd (fun t => t.store fd s self)

/-- The lookup of `fd` and the iteration of the session found. -/
def iterate (S : SessionClass W σ) (fd : SOCKET) : EStateM Abrupt (ThreadManager tc σ × W) Unit :=
  fun x =>
    match lookup x.1 fd with
    | none => .ok () x
    | some s =>
        match S.iteration s.conn (s.self, x.2) with
        | .ok _ r => .ok () (setSelf x.1 fd s r.1, r.2)
        | .error e r => .error e (setSelf x.1 fd s r.1, r.2)

section Views

variable {tm : ThreadManager tc σ} {fd : SOCKET} {g : Thread σ → Thread σ}

theorem onThread_eq (h : 0 < tc.size) :
    onThread tm fd g = Function.update tm (index h fd) (g (tm (index h fd))) := dif_pos h

theorem lookup_eq (h : 0 < tc.size) : lookup tm fd = (tm (index h fd)).sessions fd := dif_pos h

/-- A change of one entry of one map is a change of one descriptor's session. -/
theorem lookup_onThread {v : Option (Session σ)} (h : 0 < tc.size)
    (hg : ∀ t, (g t).sessions = Function.update t.sessions fd v) :
    lookup (onThread tm fd g) = Function.update (lookup tm) fd v := by
  funext fd'
  rw [lookup_eq h, onThread_eq h]
  by_cases hfd : fd' = fd
  · subst hfd
    rw [Function.update_self, Function.update_self, hg, Function.update_self]
  · rw [Function.update_of_ne hfd, lookup_eq h]
    by_cases hk : index h fd' = index h fd
    · rw [hk, Function.update_self, hg, Function.update_of_ne hfd]
    · rw [Function.update_of_ne hk]

/-- What `g` leaves alone in a thread is unchanged in every thread. -/
theorem field_onThread {β : Type} (p : Thread σ → β) (hg : ∀ t, p (g t) = p t) (k : Fin tc.size) :
    p (onThread tm fd g k) = p (tm k) := by
  unfold onThread
  by_cases h : 0 < tc.size
  · rw [dif_pos h]
    by_cases hk : k = index h fd
    · rw [hk, Function.update_self, hg]
    · rw [Function.update_of_ne hk]
  · rw [dif_neg h]

theorem lookup_congr {tm' : ThreadManager tc σ} (h : ∀ k, (tm' k).sessions = (tm k).sessions) :
    lookup tm' = lookup tm := by
  funext fd
  unfold lookup
  by_cases hpos : 0 < tc.size
  · rw [dif_pos hpos, dif_pos hpos, h]
  · rw [dif_neg hpos, dif_neg hpos]

theorem lookup_insert (h : 0 < tc.size) (s : Session σ) :
    lookup (insert tm s) = Function.update (lookup tm) s.fd (some s) :=
  lookup_onThread h (fun _ => rfl)

theorem lookup_remove (h : 0 < tc.size) :
    lookup (remove tm fd) = Function.update (lookup tm) fd none :=
  lookup_onThread h (fun _ => rfl)

theorem lookup_setSelf (h : 0 < tc.size) (s : Session σ) (self : σ) :
    lookup (setSelf tm fd s self) = Function.update (lookup tm) fd (some { s with self := self }) :=
  lookup_onThread h (fun _ => rfl)

@[simp] theorem lookup_enqueue : lookup (enqueue tm fd) = lookup tm :=
  lookup_congr (field_onThread Thread.sessions (fun _ => rfl))

@[simp] theorem lookup_setQueue (k : Fin tc.size) (rest : List SOCKET) :
    lookup (setQueue tm k rest) = lookup tm := by
  refine lookup_congr (fun j => ?_)
  unfold setQueue
  by_cases hj : j = k
  · rw [hj, Function.update_self]
  · rw [Function.update_of_ne hj]

@[simp] theorem queue_insert (s : Session σ) (k : Fin tc.size) :
    (insert tm s k).queue = (tm k).queue := by
  unfold insert
  apply field_onThread Thread.queue
  intro t
  rfl

@[simp] theorem queue_remove (k : Fin tc.size) : (remove tm fd k).queue = (tm k).queue := by
  unfold remove
  apply field_onThread Thread.queue
  intro t
  rfl

@[simp] theorem queue_setSelf (s : Session σ) (self : σ) (k : Fin tc.size) :
    (setSelf tm fd s self k).queue = (tm k).queue := by
  unfold setSelf
  apply field_onThread Thread.queue
  intro t
  rfl

theorem queue_enqueue (k : Fin tc.size) :
    (enqueue tm fd k).queue = if fd % tc.size = k then (tm k).queue ++ [fd] else (tm k).queue := by
  have hpos : 0 < tc.size := Nat.lt_of_le_of_lt (Nat.zero_le _) k.isLt
  rw [enqueue, onThread_eq hpos]
  by_cases hk : k = index hpos fd
  · rw [hk, Function.update_self, if_pos (show fd % tc.size = (index hpos fd : Nat) from rfl)]
    rfl
  · have hne : ¬ fd % tc.size = k := fun he => hk (Fin.ext he.symm)
    rw [Function.update_of_ne hk, if_neg hne]

theorem queue_setQueue (k j : Fin tc.size) (rest : List SOCKET) :
    (setQueue tm k rest j).queue = if j = k then rest else (tm j).queue := by
  unfold setQueue
  by_cases hj : j = k
  · rw [hj, Function.update_self, if_pos rfl]
  · rw [Function.update_of_ne hj, if_neg hj]

/-- The number of iterations the queue still owes to `fd`. -/
def owed (tm : ThreadManager tc σ) (fd : SOCKET) : Nat := (pending tm fd).count fd

theorem owed_eq (h : 0 < tc.size) : owed tm fd = (tm (index h fd)).queue.count fd := by
  unfold owed pending
  rw [dif_pos h]

theorem owed_congr {tm' : ThreadManager tc σ} (h : ∀ k, (tm' k).queue = (tm k).queue) :
    owed tm' = owed tm := by
  funext fd
  unfold owed pending
  by_cases hpos : 0 < tc.size
  · rw [dif_pos hpos, dif_pos hpos, h]
  · rw [dif_neg hpos, dif_neg hpos]

@[simp] theorem owed_insert (s : Session σ) : owed (insert tm s) = owed tm :=
  owed_congr (queue_insert s)

@[simp] theorem owed_remove : owed (remove tm fd) = owed tm := owed_congr queue_remove

@[simp] theorem owed_setSelf (s : Session σ) (self : σ) : owed (setSelf tm fd s self) = owed tm :=
  owed_congr (queue_setSelf s self)

theorem owed_enqueue (h : 0 < tc.size) (fd' : SOCKET) :
    owed (enqueue tm fd) fd' = owed tm fd' + if fd' = fd then 1 else 0 := by
  rw [owed_eq h, owed_eq h, queue_enqueue]
  by_cases hfd : fd' = fd
  · subst hfd
    have hidx : fd' % tc.size = (index h fd' : Nat) := rfl
    rw [if_pos hidx, if_pos rfl, List.count_append, List.count_singleton_self]
  · rw [if_neg hfd]
    by_cases hidx : fd % tc.size = (index h fd' : Nat)
    · rw [if_pos hidx, List.count_append, List.count_singleton, if_neg (by simpa using Ne.symm hfd)]
    · rw [if_neg hidx, Nat.add_zero]

theorem owed_setQueue (h : 0 < tc.size) {k : Fin tc.size} {rest : List SOCKET}
    (hq : (tm k).queue = fd :: rest) (hfd : fd % tc.size = k) (fd' : SOCKET) :
    owed tm fd' = owed (setQueue tm k rest) fd' + if fd' = fd then 1 else 0 := by
  have hk : k = index h fd := Fin.ext hfd.symm
  rw [owed_eq h, owed_eq h, queue_setQueue]
  by_cases hidx : index h fd' = k
  · rw [if_pos hidx, hidx, hq, List.count_cons]
    by_cases hfd' : fd' = fd
    · rw [if_pos hfd', if_pos (by simpa using hfd'.symm)]
    · rw [if_neg hfd', if_neg (by simpa using Ne.symm hfd')]
  · have hfd' : ¬ fd' = fd := fun he => hidx (by rw [he, hk])
    rw [if_neg hidx, if_neg hfd', Nat.add_zero]

/-- Nothing is owed to a descriptor that no queue holds. -/
theorem owed_eq_zero (h : ∀ k, fd ∉ (tm k).queue) :
    owed tm fd = 0 := by
  unfold owed pending
  by_cases hpos : 0 < tc.size
  · rw [dif_pos hpos]
    exact List.count_eq_zero.mpr (h _)
  · rw [dif_neg hpos]
    rfl

@[simp] theorem lookup_create (fd : SOCKET) : lookup (create tc : ThreadManager tc σ) fd = none := by
  unfold lookup
  by_cases hpos : 0 < tc.size
  · rw [dif_pos hpos]
    rfl
  · rw [dif_neg hpos]

end Views

/-! ## The virtual calls

All threads of a manager are of one class, so each of its operations is one call through `threads_.at`, of the
operation that class has. -/

section Virtual

variable (S : SessionClass W σ) (s : Session σ) (fd : SOCKET)

theorem addSession_virtual :
    (addSession S s : EStateM Abrupt (ThreadManager tc σ × W) Unit) =
      atThread s.fd (ThreadKind.addSession S s tc.kind) := by
  unfold addSession
  cases tc.kind with
  | single => rfl
  | multi => rfl

theorem removeSession_virtual :
    (removeSession S fd : EStateM Abrupt (ThreadManager tc σ × W) Unit) =
      atThread fd (ThreadKind.removeSession S fd tc.kind) := by
  unfold removeSession
  cases tc.kind with
  | single => rfl
  | multi => rfl

theorem dataAvailable_virtual :
    (dataAvailable S fd : EStateM Abrupt (ThreadManager tc σ × W) Unit) =
      atThread fd (ThreadKind.dataAvailable S fd tc.kind) := by
  unfold dataAvailable
  cases tc.kind with
  | single => rfl
  | multi => rfl

end Virtual

/-! ## The source's operations, routed -/

variable {tm : ThreadManager tc σ} {w : W} {S : SessionClass W σ}

theorem addSession_eq (h : 0 < tc.size) (s : Session σ) :
    addSession S s (tm, w) = .ok () (insert tm s, Thread.destroy S (lookup tm s.fd) w) := by
  unfold addSession
  rw [insert, onThread_eq h, lookup_eq h]
  cases tc.kind with
  | single => simp only [atThread, dif_pos h, ThreadSingle.addSession, Thread.emplace]
  | multi => simp only [atThread, dif_pos h, ThreadMulti.addSession, Thread.emplace]

theorem removeSession_eq (h : 0 < tc.size) (fd : SOCKET) :
    removeSession S fd (tm, w) = .ok () (remove tm fd, Thread.destroy S (lookup tm fd) w) := by
  unfold removeSession
  rw [remove, onThread_eq h, lookup_eq h]
  cases tc.kind with
  | single => simp only [atThread, dif_pos h, ThreadSingle.removeSession, Thread.erase]
  | multi => simp only [atThread, dif_pos h, ThreadMulti.removeSession, Thread.erase]

theorem dataAvailable_multi (h : 0 < tc.size) (hk : tc.kind = .multi) (fd : SOCKET) :
    dataAvailable S fd (tm, w) = .ok () (enqueue tm fd, w) := by
  unfold dataAvailable
  rw [hk, enqueue, onThread_eq h]
  simp only [atThread, dif_pos h, ThreadMulti.dataAvailable]

/-- The iteration in thread `index h fd` is the iteration of the session of `fd`. -/
theorem iterate_eq (h : 0 < tc.size) (fd : SOCKET) :
    (match Thread.iterate S fd (tm (index h fd), w) with
      | .ok _ r => (.ok () (Function.update tm (index h fd) r.1, r.2) :
          EStateM.Result Abrupt (ThreadManager tc σ × W) Unit)
      | .error e r => .error e (Function.update tm (index h fd) r.1, r.2)) = iterate S fd (tm, w) := by
  unfold iterate Thread.iterate
  rw [lookup_eq h]
  cases hs : (tm (index h fd)).sessions fd with
  | none => simp only [Function.update_eq_self]
  | some s =>
      simp only
      cases S.iteration s.conn (s.self, w) with
      | ok a r => simp only [setSelf, onThread_eq h]
      | error e r => simp only [setSelf, onThread_eq h]

theorem dataAvailable_single (h : 0 < tc.size) (hk : tc.kind = .single) (fd : SOCKET) :
    dataAvailable S fd (tm, w) = iterate S fd (tm, w) := by
  unfold dataAvailable
  rw [hk, ← iterate_eq h]
  simp only [atThread, dif_pos h, ThreadSingle.dataAvailable]

theorem workerPass_empty {k : Fin tc.size} (hq : (tm k).queue = []) :
    workerPass S k (tm, w) = .ok () (tm, w) := by
  unfold workerPass ThreadMulti.pass
  simp only [hq, Function.update_eq_self]

theorem workerPass_cons (h : 0 < tc.size) {k : Fin tc.size} {fd : SOCKET} {rest : List SOCKET}
    (hq : (tm k).queue = fd :: rest) (hfd : fd % tc.size = k) :
    workerPass S k (tm, w) = iterate S fd (setQueue tm k rest, w) := by
  have hk : k = index h fd := Fin.ext hfd.symm
  unfold workerPass ThreadMulti.pass
  simp only [hq]
  rw [← iterate_eq h, ← hk]
  have hset : setQueue tm k rest k = { tm k with queue := rest } := Function.update_self _ _ _
  rw [hset]
  cases Thread.iterate S fd ({ tm k with queue := rest }, w) with
  | ok a r => simp only [setQueue, Function.update_idem]
  | error e r => simp only [setQueue, Function.update_idem]

/-- With no thread every operation divides by zero. -/
theorem atThread_none (h : ¬ 0 < tc.size) (fd : SOCKET) (op : EStateM Abrupt (Thread σ × W) Unit) :
    atThread fd op (tm, w) = .error .divisionByZero (tm, w) := by
  unfold atThread
  rw [dif_neg h]

/-! ## The routing invariant -/

/-- Every map entry and every queue entry is in the thread its descriptor is routed to. -/
structure Routed (tm : ThreadManager tc σ) : Prop where
  sessions : ∀ k fd, ((tm k).sessions fd).isSome → fd % tc.size = k
  queue    : ∀ k, ∀ fd ∈ (tm k).queue, fd % tc.size = k

theorem routed_create : Routed (create tc : ThreadManager tc σ) := by
  constructor
  · intro k fd h
    exact absurd h (by simp [create, Thread.empty])
  · intro k fd h
    exact absurd h (by simp [create, Thread.empty])

/-- A change of the thread of `fd` that touches no entry but those of `fd` keeps the routing. -/
theorem Routed.onThread {tm : ThreadManager tc σ} (hr : Routed tm) {fd : SOCKET}
    {g : Thread σ → Thread σ}
    (hsess : ∀ t fd', ((g t).sessions fd').isSome → (t.sessions fd').isSome ∨ fd' = fd)
    (hqueue : ∀ t, ∀ fd' ∈ (g t).queue, fd' ∈ t.queue ∨ fd' = fd) :
    Routed (onThread tm fd g) := by
  unfold ThreadManager.onThread
  by_cases h : 0 < tc.size
  · rw [dif_pos h]
    constructor
    · intro k fd' hk
      by_cases hki : k = index h fd
      · subst hki
        rw [Function.update_self] at hk
        rcases hsess _ _ hk with hold | rfl
        · exact hr.sessions _ _ hold
        · rfl
      · rw [Function.update_of_ne hki] at hk
        exact hr.sessions _ _ hk
    · intro k fd' hk
      by_cases hki : k = index h fd
      · subst hki
        rw [Function.update_self] at hk
        rcases hqueue _ _ hk with hold | rfl
        · exact hr.queue _ _ hold
        · rfl
      · rw [Function.update_of_ne hki] at hk
        exact hr.queue _ _ hk
  · rw [dif_neg h]
    exact hr

theorem isSome_update {fd fd' : SOCKET} {m : SOCKET → Option (Session σ)} {v : Option (Session σ)}
    (h : (Function.update m fd v fd').isSome) : (m fd').isSome ∨ fd' = fd := by
  by_cases hfd : fd' = fd
  · exact Or.inr hfd
  · rw [Function.update_of_ne hfd] at h
    exact Or.inl h

theorem Routed.insert {tm : ThreadManager tc σ} (hr : Routed tm) (s : Session σ) :
    Routed (insert tm s) :=
  hr.onThread (fun _ _ h => isSome_update h) (fun _ _ h => Or.inl h)

theorem Routed.remove {tm : ThreadManager tc σ} (hr : Routed tm) (fd : SOCKET) :
    Routed (remove tm fd) :=
  hr.onThread (fun _ _ h => isSome_update h) (fun _ _ h => Or.inl h)

theorem Routed.setSelf {tm : ThreadManager tc σ} (hr : Routed tm) (fd : SOCKET) (s : Session σ)
    (self : σ) : Routed (setSelf tm fd s self) :=
  hr.onThread (fun _ _ h => isSome_update h) (fun _ _ h => Or.inl h)

theorem Routed.enqueue {tm : ThreadManager tc σ} (hr : Routed tm) (fd : SOCKET) :
    Routed (enqueue tm fd) := by
  refine hr.onThread (fun _ _ h => Or.inl h) ?_
  intro t fd' h
  rcases List.mem_append.mp h with h | h
  · exact Or.inl h
  · exact Or.inr (List.mem_singleton.mp h)

theorem Routed.setQueue {tm : ThreadManager tc σ} (hr : Routed tm) {k : Fin tc.size}
    {rest : List SOCKET} (hrest : ∀ fd ∈ rest, fd ∈ (tm k).queue) : Routed (setQueue tm k rest) := by
  unfold ThreadManager.setQueue
  constructor
  · intro j fd h
    by_cases hj : j = k
    · subst hj
      rw [Function.update_self] at h
      exact hr.sessions _ _ h
    · rw [Function.update_of_ne hj] at h
      exact hr.sessions _ _ h
  · intro j fd h
    by_cases hj : j = k
    · subst hj
      rw [Function.update_self] at h
      exact hr.queue _ _ (hrest fd h)
    · rw [Function.update_of_ne hj] at h
      exact hr.queue _ _ h

/-- An entry of some thread's map is what the manager finds. -/
theorem lookup_of_sessions {tm : ThreadManager tc σ} (hr : Routed tm) {k : Fin tc.size} {fd : SOCKET}
    {x : Session σ} (h : (tm k).sessions fd = some x) : lookup tm fd = some x := by
  have hpos : 0 < tc.size := Nat.lt_of_le_of_lt (Nat.zero_le _) k.isLt
  have hk : index hpos fd = k := Fin.ext (hr.sessions k fd (by rw [h]; rfl))
  rw [lookup_eq hpos, hk]
  exact h

/-- A session the manager finds is an entry of some thread's map. -/
theorem sessions_of_lookup {tm : ThreadManager tc σ} {fd : SOCKET} {x : Session σ}
    (h : lookup tm fd = some x) : ∃ k, (tm k).sessions fd = some x := by
  unfold lookup at h
  split at h
  · next hpos => exact ⟨index hpos fd, h⟩
  · exact absurd h (by simp)

/-- What an iteration that returns does: nothing when there is no session, else it changes the fields of
    that session and the outside as the session's `iteration` does. -/
theorem iterate_ok {tm tm' : ThreadManager tc σ} {w w' : W} {S : SessionClass W σ} {fd : SOCKET}
    (h : iterate S fd (tm, w) = .ok () (tm', w')) :
    (lookup tm fd = none ∧ tm' = tm ∧ w' = w) ∨
    (∃ s self, lookup tm fd = some s ∧ S.iteration s.conn (s.self, w) = .ok () (self, w') ∧
      tm' = ThreadManager.setSelf tm fd s self) := by
  unfold iterate at h
  cases hs : lookup tm fd with
  | none =>
      simp only [hs, EStateM.Result.ok.injEq, Prod.mk.injEq, true_and] at h
      exact Or.inl ⟨rfl, h.1.symm, h.2.symm⟩
  | some s =>
      simp only [hs] at h
      cases hit : S.iteration s.conn (s.self, w) with
      | error e r =>
          rw [hit] at h
          exact absurd h (by simp)
      | ok a r =>
          rw [hit] at h
          simp only [EStateM.Result.ok.injEq, Prod.mk.injEq, true_and] at h
          refine Or.inr ⟨s, r.1, rfl, ?_, h.1.symm⟩
          rw [← h.2]
          exact hit

/-- What an iteration that throws did: it changed the fields of the session and the outside as far as the
    session's `iteration` got. -/
theorem iterate_error {tm tm' : ThreadManager tc σ} {w w' : W} {S : SessionClass W σ} {fd : SOCKET}
    {e : Abrupt} (h : iterate S fd (tm, w) = .error e (tm', w')) :
    ∃ s self, lookup tm fd = some s ∧ S.iteration s.conn (s.self, w) = .error e (self, w') ∧
      tm' = ThreadManager.setSelf tm fd s self := by
  unfold iterate at h
  cases hs : lookup tm fd with
  | none =>
      simp only [hs] at h
      exact absurd h (by simp)
  | some s =>
      simp only [hs] at h
      cases hit : S.iteration s.conn (s.self, w) with
      | ok a r =>
          rw [hit] at h
          exact absurd h (by simp)
      | error e' r =>
          rw [hit] at h
          simp only [EStateM.Result.error.injEq, Prod.mk.injEq] at h
          obtain ⟨rfl, htm, hw⟩ := h
          refine ⟨s, r.1, rfl, ?_, htm.symm⟩
          rw [← hw]
          exact hit

/-! ## The connections of the sessions -/

/-- The connection of the session the manager finds for `fd`. -/
def conns (tm : ThreadManager tc σ) (fd : SOCKET) : Option Connection := (lookup tm fd).map Session.conn

section Conns

variable {tm tm' : ThreadManager tc σ} {fd : SOCKET}

theorem conns_of_lookup {x : Session σ} (h : lookup tm fd = some x) : conns tm fd = some x.conn := by
  unfold conns
  rw [h]
  rfl

theorem conns_eq_none (h : lookup tm fd = none) : conns tm fd = none := by
  unfold conns
  rw [h]
  rfl

theorem conns_of_update {v : Option (Session σ)} (h : lookup tm' = Function.update (lookup tm) fd v) :
    conns tm' = Function.update (conns tm) fd (v.map Session.conn) := by
  funext fd'
  unfold conns
  rw [h]
  by_cases hfd : fd' = fd
  · rw [hfd, Function.update_self, Function.update_self]
  · rw [Function.update_of_ne hfd, Function.update_of_ne hfd]

theorem conns_congr (h : lookup tm' = lookup tm) : conns tm' = conns tm := by
  funext fd'
  unfold conns
  rw [h]

/-- New fields for a session leave it with its connection. -/
theorem conns_setSelf (hpos : 0 < tc.size) {x : Session σ} (hx : lookup tm fd = some x) (self : σ) :
    conns (ThreadManager.setSelf tm fd x self) = conns tm := by
  rw [conns_of_update (lookup_setSelf hpos x self)]
  show Function.update (conns tm) fd (some x.conn) = conns tm
  rw [← conns_of_lookup hx]
  exact Function.update_eq_self _ _

/-- An iteration leaves every session with its connection. -/
theorem conns_iterate (hpos : 0 < tc.size) {w w' : W}
    (h : iterate S fd (tm, w) = .ok () (tm', w')) : conns tm' = conns tm := by
  rcases iterate_ok h with ⟨_, rfl, _⟩ | ⟨x, self, hx, _, rfl⟩
  · rfl
  · exact conns_setSelf hpos hx self

end Conns

end ThreadManager

end Neblina

import Mathlib.Logic.Function.Iterate
import Neblina.Lib.PartialMap
import Neblina.Protocol.Scripted
import Neblina.Thread.Pool

/-!
# `Thread.Refinement` — the pool against the single-threaded dispatcher

`ThreadSingle` runs an iteration inside `data_available`; `ThreadMulti` queues it for a worker. On
sessions whose `recv` results are fixed scripts the pool is therefore always a number of iterations
behind: for each descriptor exactly as many as the queue of its thread holds entries for it (`owed`).

`Sim` says that catching up on them leads from the pool's session to the dispatcher's. It is kept by
every step whatever the schedule (`sim_step`), and with empty queues it is equality
(`pool_refines_single`).
-/

namespace Neblina
namespace Pool

open ThreadManager

variable {σ : Type} {tc : ThreadCount}

/-! ## One iteration on scripts -/

/-- What a session and its connection have: the fields, what is still to be received, what was sent. -/
def account (w : Scripted) (x : Session σ) : σ × List Bytes × List Bytes :=
  (x.self, w.inbox x.conn.id, w.outbox x.conn.id)

/-- The effect of one iteration on such an account. -/
def turn (m : Machine σ) (a : σ × List Bytes × List Bytes) : σ × List Bytes × List Bytes :=
  let r := m.onData a.1 (a.2.1.headD [])
  (r.1, a.2.1.tail, a.2.2 ++ r.2.toList)

/-- The fields of `x` after an iteration in the world `w`. -/
def turned (m : Machine σ) (w : Scripted) (x : Session σ) : Session σ :=
  { x with self := (m.onData x.self (w.next x.conn)).1 }

/-- The world `w` after an iteration of `x`. -/
def world (m : Machine σ) (w : Scripted) (x : Session σ) : Scripted :=
  w.after x.conn (m.onData x.self (w.next x.conn)).2

theorem account_turned (m : Machine σ) (w : Scripted) (x : Session σ) :
    account (world m w x) (turned m w x) = turn m (account w x) := by
  simp only [account, turned, world, Scripted.after, Function.update_self, turn, Scripted.next]

/-- An iteration touches the account of its own connection only. -/
theorem account_other (m : Machine σ) (w : Scripted) {x y : Session σ} (h : y.conn.id ≠ x.conn.id) :
    account (world m w x) y = account w y := by
  simp only [account, world, Scripted.after, Function.update_of_ne h]

theorem iterate_scripted (m : Machine σ) {tm : ThreadManager tc σ} {w : Scripted} {fd : SOCKET}
    {x : Session σ} (h : lookup tm fd = some x) :
    iterate (m.sessionClass Scripted.ops) fd (tm, w) =
      .ok () (setSelf tm fd x (turned m w x).self, world m w x) := by
  have hit : (m.sessionClass Scripted.ops).iteration x.conn (x.self, w) =
      .ok () ((turned m w x).self, world m w x) := Scripted.iteration_eq m x.conn x.self w
  simp only [iterate, h, hit]

theorem destroy_scripted (m : Machine σ) (old : Option (Session σ)) (w : Scripted) :
    Thread.destroy (m.sessionClass Scripted.ops) old w = w := by
  cases old with
  | none => rfl
  | some s => rfl

/-! ## The calls the event loop makes -/

/-- What `Server::iterate` promises of its calls: a new descriptor has no session yet (`accept` returns a
    descriptor that is not open), and data is announced for descriptors that have one. A session is
    removed while no worker queue holds its descriptor. -/
def Permitted (s : State tc σ Scripted) : Label tc → Prop
  | .call (.addSession fd) => (lookup s.threads fd).isNone
  | .call (.dataAvailable fd) => (lookup s.threads fd).isSome
  | .call (.removeSession fd) => ∀ k, fd ∉ (s.threads k).queue
  | .worker _ => True

instance (s : State tc σ Scripted) (l : Label tc) : Decidable (Permitted s l) :=
  match l with
  | .call (.addSession _) => inferInstanceAs (Decidable (_ = true))
  | .call (.dataAvailable _) => inferInstanceAs (Decidable (_ = true))
  | .call (.removeSession _) => inferInstanceAs (Decidable (∀ _, _))
  | .worker _ => inferInstanceAs (Decidable True)

/-- The calls among the steps of a run, as steps of the single-threaded dispatcher. -/
def calls (ls : List (Label tc)) : List (Label .single) :=
  ls.filterMap fun l =>
    match l with
    | .call c => some (.call c)
    | .worker _ => none

theorem calls_append (ls ls' : List (Label tc)) : calls (ls ++ ls') = calls ls ++ calls ls' :=
  List.filterMap_append

/-! ## The simulation relation, on the descriptors -/

/-- **One pool is behind another by what it owes.** `look`, `owed` and `w` are the sessions, the debts and
    the world of the first, `look'` and `w'` those of the second, and `n` is the next identity of both.
    They have the same sessions; catching up on the iterations owed to a session gives the account it has
    in the second; and where no session is, the accounts agree. -/
structure Behind (m : Machine σ) (look : SOCKET → Option (Session σ)) (owed : SOCKET → Nat)
    (w : Scripted) (n : Nat) (look' : SOCKET → Option (Session σ)) (w' : Scripted) : Prop where
  ids      : ∀ fd x, look fd = some x → x.conn.id < n
  distinct : ∀ fd fd' x x', look fd = some x → look fd' = some x' →
    x.conn.id = x'.conn.id → fd = fd'
  absent   : ∀ fd, look fd = none → look' fd = none ∧ owed fd = 0
  present  : ∀ fd x, look fd = some x →
    ∃ y, look' fd = some y ∧ y.conn = x.conn ∧
      account w' y = (turn m)^[owed fd] (account w x)
  others   : ∀ id, (∀ fd x, look fd = some x → x.conn.id ≠ id) →
    w'.inbox id = w.inbox id ∧ w'.outbox id = w.outbox id

section Behind

variable {m : Machine σ} {look look' : SOCKET → Option (Session σ)} {owed owed' : SOCKET → Nat}
  {w w' : Scripted} {n : Nat} {fd : SOCKET}

/-- Two sessions of different descriptors have different connections. -/
theorem Behind.conn_ne (h : Behind m look owed w n look' w') {fd' : SOCKET} {x x' : Session σ} (hx : look fd = some x)
    (hx' : look fd' = some x') (hne : fd' ≠ fd) : x'.conn.id ≠ x.conn.id :=
  fun he => hne (h.distinct fd' fd x' x hx' hx he)

/-- A new session on both sides. -/
theorem Behind.add (h : Behind m look owed w n look' w') (hnone : look fd = none) (z : Session σ)
    (hz : z.conn.id = n) :
    Behind m (Function.update look fd (some z)) owed w (n + 1)
      (Function.update look' fd (some z)) w' := by
  have hnew : ∀ fd' x, look fd' = some x → x.conn.id ≠ z.conn.id := by
    intro fd' x hx he
    have := h.ids fd' x hx
    omega
  have hacc := h.others z.conn.id hnew
  refine ⟨?_, ?_, ?_, ?_, ?_⟩
  · intro fd' x hx
    rcases PartialMap.enter_eq_some.mp hx with ⟨_, rfl⟩ | ⟨_, hold⟩
    · rw [hz]
      exact Nat.lt_succ_self _
    · exact Nat.lt_succ_of_lt (h.ids fd' x hold)
  · intro fd₁ fd₂ x₁ x₂ h₁ h₂ he
    rcases PartialMap.enter_eq_some.mp h₁ with ⟨hfd₁, rfl⟩ | ⟨_, hold₁⟩
    · rcases PartialMap.enter_eq_some.mp h₂ with ⟨hfd₂, _⟩ | ⟨_, hold₂⟩
      · rw [hfd₁, hfd₂]
      · exact absurd he.symm (hnew fd₂ x₂ hold₂)
    · rcases PartialMap.enter_eq_some.mp h₂ with ⟨_, rfl⟩ | ⟨_, hold₂⟩
      · exact absurd he (hnew fd₁ x₁ hold₁)
      · exact h.distinct fd₁ fd₂ x₁ x₂ hold₁ hold₂ he
  · intro fd' hn
    by_cases hfd : fd' = fd
    · rw [hfd, Function.update_self] at hn
      exact absurd hn (by simp)
    · rw [Function.update_of_ne hfd] at hn ⊢
      exact h.absent fd' hn
  · intro fd' x hx
    by_cases hfd : fd' = fd
    · rw [hfd, Function.update_self] at hx
      cases hx
      refine ⟨z, by rw [hfd, Function.update_self], rfl, ?_⟩
      rw [hfd, (h.absent fd hnone).2]
      simp only [account, hacc.1, hacc.2, Function.iterate_zero, id_eq]
    · rw [Function.update_of_ne hfd] at hx ⊢
      exact h.present fd' x hx
  · intro id hid
    refine h.others id (fun fd' x hx => ?_)
    by_cases hfd : fd' = fd
    · rw [hfd, hnone] at hx
      exact absurd hx (by simp)
    · exact hid fd' x (by rw [Function.update_of_ne hfd]; exact hx)

/-- The removal of a session to which nothing is owed. -/
theorem Behind.remove (h : Behind m look owed w n look' w') (howed : owed fd = 0) :
    Behind m (Function.update look fd none) owed w n (Function.update look' fd none) w' := by
  have hkeep : ∀ {fd' x}, Function.update look fd none fd' = some x → fd' ≠ fd ∧ look fd' = some x :=
    PartialMap.erase_eq_some.mp
  refine ⟨fun fd' x hx => h.ids fd' x (hkeep hx).2, ?_, ?_, ?_, ?_⟩
  · intro fd₁ fd₂ x₁ x₂ h₁ h₂ he
    exact h.distinct fd₁ fd₂ x₁ x₂ (hkeep h₁).2 (hkeep h₂).2 he
  · intro fd' hn
    by_cases hfd : fd' = fd
    · subst hfd
      exact ⟨Function.update_self _ _ _, howed⟩
    · rw [Function.update_of_ne hfd] at hn ⊢
      exact h.absent fd' hn
  · intro fd' x hx
    obtain ⟨hfd, hx⟩ := hkeep hx
    rw [Function.update_of_ne hfd]
    exact h.present fd' x hx
  · intro id hid
    cases hx : look fd with
    | none =>
        refine h.others id (fun fd' x hx' => ?_)
        have hfd : fd' ≠ fd := by
          rintro rfl
          rw [hx] at hx'
          exact absurd hx' (by simp)
        exact hid fd' x (by rw [Function.update_of_ne hfd]; exact hx')
    | some x =>
        by_cases hxid : x.conn.id = id
        · -- the removed session's own connection: its account was up to date
          obtain ⟨y, _, hconn, hacc⟩ := h.present fd x hx
          rw [howed, Function.iterate_zero, id_eq] at hacc
          simp only [account, hconn, Prod.mk.injEq, hxid] at hacc
          exact hacc.2
        · refine h.others id (fun fd' x' hx' => ?_)
          by_cases hfd : fd' = fd
          · rw [hfd, hx] at hx'
            cases hx'
            exact hxid
          · exact hid fd' x' (by rw [Function.update_of_ne hfd]; exact hx')

/-- An announcement: the first pool owes one more iteration, the second has made it. -/
theorem Behind.announce (h : Behind m look owed w n look' w') {y : Session σ} (hy : look' fd = some y)
    (howed : ∀ fd', owed' fd' = owed fd' + if fd' = fd then 1 else 0) :
    Behind m look owed' w n (Function.update look' fd (some (turned m w' y))) (world m w' y) := by
  obtain ⟨x, hx⟩ : ∃ x, look fd = some x := by
    cases hx : look fd with
    | some x => exact ⟨x, rfl⟩
    | none =>
        rw [(h.absent fd hx).1] at hy
        exact absurd hy (by simp)
  obtain ⟨y', hy', hconn, hacc⟩ := h.present fd x hx
  have hyy : y' = y := Option.some.inj (hy'.symm.trans hy)
  subst hyy
  refine ⟨h.ids, h.distinct, ?_, ?_, ?_⟩
  · intro fd' hn
    have hfd : fd' ≠ fd := by
      rintro rfl
      rw [hx] at hn
      exact absurd hn (by simp)
    rw [Function.update_of_ne hfd, howed, if_neg hfd]
    exact h.absent fd' hn
  · intro fd' x' hx'
    by_cases hfd : fd' = fd
    · subst hfd
      have hxx : x' = x := Option.some.inj (hx'.symm.trans hx)
      subst hxx
      refine ⟨_, Function.update_self _ _ _, hconn, ?_⟩
      rw [howed, if_pos rfl, Function.iterate_succ_apply', account_turned, hacc]
    · obtain ⟨z, hz, hzc, hzacc⟩ := h.present fd' x' hx'
      refine ⟨z, by rw [Function.update_of_ne hfd]; exact hz, hzc, ?_⟩
      have hne : z.conn.id ≠ y'.conn.id := by
        rw [hzc, hconn]
        exact h.conn_ne hx hx' hfd
      rw [howed, if_neg hfd, Nat.add_zero, account_other m w' hne]
      exact hzacc
  · intro id hid
    have hne : id ≠ y'.conn.id := by
      rw [hconn]
      exact (hid fd x hx).symm
    have := h.others id hid
    simp only [world, Scripted.after, Function.update_of_ne hne]
    exact this

/-- A worker makes one of the iterations the first pool owes. -/
theorem Behind.serve (h : Behind m look owed w n look' w') {x : Session σ} (hx : look fd = some x)
    (howed : ∀ fd', owed fd' = owed' fd' + if fd' = fd then 1 else 0) :
    Behind m (Function.update look fd (some (turned m w x))) owed' (world m w x) n look' w' := by
  have hlook : ∀ {fd' x'}, Function.update look fd (some (turned m w x)) fd' = some x' →
      ∃ x'', look fd' = some x'' ∧ x'.conn = x''.conn := by
    intro fd' x' hx'
    rcases PartialMap.enter_eq_some.mp hx' with ⟨rfl, rfl⟩ | ⟨_, hold⟩
    · exact ⟨x, hx, rfl⟩
    · exact ⟨x', hold, rfl⟩
  refine ⟨?_, ?_, ?_, ?_, ?_⟩
  · intro fd' x' hx'
    obtain ⟨x'', hx'', hc⟩ := hlook hx'
    rw [hc]
    exact h.ids fd' x'' hx''
  · intro fd₁ fd₂ x₁ x₂ h₁ h₂ he
    obtain ⟨y₁, hy₁, hc₁⟩ := hlook h₁
    obtain ⟨y₂, hy₂, hc₂⟩ := hlook h₂
    rw [hc₁, hc₂] at he
    exact h.distinct fd₁ fd₂ y₁ y₂ hy₁ hy₂ he
  · intro fd' hn
    have hfd : fd' ≠ fd := by
      rintro rfl
      rw [Function.update_self] at hn
      exact absurd hn (by simp)
    rw [Function.update_of_ne hfd] at hn
    have := h.absent fd' hn
    rw [howed, if_neg hfd] at this
    exact this
  · intro fd' x' hx'
    by_cases hfd : fd' = fd
    · subst hfd
      rw [Function.update_self] at hx'
      cases hx'
      obtain ⟨y, hy, hconn, hacc⟩ := h.present fd' x hx
      refine ⟨y, hy, hconn, ?_⟩
      rw [howed, if_pos rfl, Function.iterate_succ_apply] at hacc
      rw [account_turned]
      exact hacc
    · rw [Function.update_of_ne hfd] at hx'
      obtain ⟨z, hz, hzc, hzacc⟩ := h.present fd' x' hx'
      refine ⟨z, hz, hzc, ?_⟩
      rw [howed, if_neg hfd, Nat.add_zero] at hzacc
      rw [account_other m w (h.conn_ne hx hx' hfd)]
      exact hzacc
  · intro id hid
    have hxid : x.conn.id ≠ id := hid fd (turned m w x) (Function.update_self _ _ _)
    have hall : ∀ fd' x', look fd' = some x' → x'.conn.id ≠ id := by
      intro fd' x' hx'
      by_cases hfd : fd' = fd
      · rw [hfd, hx] at hx'
        cases hx'
        exact hxid
      · exact hid fd' x' (by rw [Function.update_of_ne hfd]; exact hx')
    have := h.others id hall
    simp only [world, Scripted.after, Function.update_of_ne (Ne.symm hxid)]
    exact this

end Behind

/-! ## The simulation on states -/

/-- The pool `s` is behind the dispatcher `t` by what its queues owe. -/
structure Sim (m : Machine σ) (s : State tc σ Scripted) (t : State .single σ Scripted) : Prop where
  routed : Routed s.threads
  nextId : t.nextId = s.nextId
  behind : Behind m (lookup s.threads) (owed s.threads) s.world s.nextId (lookup t.threads) t.world

theorem sim_start (m : Machine σ) (w : Scripted) :
    Sim m (start tc w : State tc σ Scripted) (start .single w) := by
  have hnone : ∀ fd (x : Session σ), lookup (create tc) fd = some x → False := by
    intro fd x h
    rw [lookup_create] at h
    exact absurd h (by simp)
  refine ⟨routed_create, rfl, ?_, ?_, ?_, ?_, fun _ _ => ⟨rfl, rfl⟩⟩
  · intro fd x h
    exact (hnone fd x h).elim
  · intro fd fd' x x' h
    exact (hnone fd x h).elim
  · intro fd _
    exact ⟨lookup_create fd, owed_eq_zero (fun k => List.not_mem_nil)⟩
  · intro fd x h
    exact (hnone fd x h).elim

theorem single_pos : 0 < ThreadCount.single.size := Nat.one_pos

/-- **One step of the pool.** The dispatcher answers a call with the same call and a pass of a worker with
    nothing, and stays ahead by exactly what is owed. -/
theorem sim_step {m : Machine σ} {s s' : State tc σ Scripted} {t : State .single σ Scripted}
    {l : Label tc} (hpos : 0 < tc.size) (hmulti : tc.kind = .multi) (hsim : Sim m s t)
    (hperm : Permitted s l) (hstep : step (m.sessionClass Scripted.ops) m.init s l = some s') :
    ∃ t', Transition.run (step (m.sessionClass Scripted.ops) m.init) t (calls [l]) = some t' ∧
      Sim m s' t' := by
  have hrouted' := routed_step hpos hsim.routed hstep
  cases does_of_step hpos hsim.routed hstep with
  | added fd =>
      have hnone : lookup s.threads fd = none := Option.isNone_iff_eq_none.mp hperm
      have hfresh : t.fresh m.init fd = s.fresh m.init fd := by
        unfold State.fresh
        rw [hsim.nextId]
      refine ⟨⟨insert t.threads (s.fresh m.init fd), t.world, t.nextId + 1⟩, ?_, hrouted', ?_, ?_⟩
      · simp only [calls, List.filterMap_cons, List.filterMap_nil, Transition.run, step,
          addSession_eq single_pos, destroy_scripted, settle, hfresh]
      · show t.nextId + 1 = s.nextId + 1
        rw [hsim.nextId]
      · simp only [destroy_scripted, lookup_insert hpos, lookup_insert single_pos, owed_insert]
        exact hsim.behind.add hnone _ rfl
  | removed fd =>
      have howed : owed s.threads fd = 0 := owed_eq_zero hperm
      refine ⟨⟨remove t.threads fd, t.world, t.nextId⟩, ?_, hrouted', hsim.nextId, ?_⟩
      · simp only [calls, List.filterMap_cons, List.filterMap_nil, Transition.run, step,
          removeSession_eq single_pos, destroy_scripted, settle]
      · simp only [destroy_scripted, lookup_remove hpos, lookup_remove single_pos, owed_remove]
        exact hsim.behind.remove howed
  | queued fd hk =>
      obtain ⟨x, hx⟩ := Option.isSome_iff_exists.mp hperm
      obtain ⟨y, hy, _, _⟩ := hsim.behind.present fd x hx
      refine ⟨⟨setSelf t.threads fd y (turned m t.world y).self, world m t.world y, t.nextId⟩,
        ?_, hrouted', hsim.nextId, ?_⟩
      · simp only [calls, List.filterMap_cons, List.filterMap_nil, Transition.run, step,
          dataAvailable_single single_pos rfl, iterate_scripted m hy, settle]
      · simp only [lookup_enqueue, lookup_setSelf single_pos]
        exact hsim.behind.announce hy (owed_enqueue hpos)
  | ran fd tm w hk _ =>
      rw [hmulti] at hk
      exact absurd hk (by simp)
  | idle k hk hq => exact ⟨t, rfl, hsim⟩
  | served k fd rest tm w hk hq hit =>
      have hfd := hsim.routed.queue k fd (by rw [hq]; exact List.mem_cons_self)
      have howed := owed_setQueue hpos hq hfd
      obtain ⟨x, hx⟩ : ∃ x, lookup s.threads fd = some x := by
        -- an entry for `fd` is owed, so `fd` has a session
        cases hx : lookup s.threads fd with
        | some x => exact ⟨x, rfl⟩
        | none =>
            have hzero := (hsim.behind.absent fd hx).2
            rw [howed, if_pos rfl] at hzero
            omega
      have hx' : lookup (setQueue s.threads k rest) fd = some x := by
        rw [lookup_setQueue]
        exact hx
      rw [iterate_scripted m hx'] at hit
      simp only [EStateM.Result.ok.injEq, Prod.mk.injEq, true_and] at hit
      obtain ⟨rfl, rfl⟩ := hit
      refine ⟨t, rfl, hrouted', hsim.nextId, ?_⟩
      simp only [lookup_setSelf hpos, lookup_setQueue, owed_setSelf]
      exact hsim.behind.serve hx howed

/-- **A whole run.** -/
theorem sim_run {m : Machine σ} (hpos : 0 < tc.size) (hmulti : tc.kind = .multi) :
    ∀ {ls : List (Label tc)} {s s' : State tc σ Scripted} {t : State .single σ Scripted},
      Sim m s t → Transition.AllSteps (step (m.sessionClass Scripted.ops) m.init) Permitted s ls →
      Transition.run (step (m.sessionClass Scripted.ops) m.init) s ls = some s' →
      ∃ t', Transition.run (step (m.sessionClass Scripted.ops) m.init) t (calls ls) = some t' ∧
        Sim m s' t' := by
  intro ls
  induction ls with
  | nil =>
      intro s s' t hsim _ hrun
      cases hrun
      exact ⟨t, rfl, hsim⟩
  | cons l ls ih =>
      intro s s' t hsim hall hrun
      obtain ⟨s₁, hl, hrest⟩ := Transition.run_cons_eq_some hrun
      simp only [Transition.AllSteps, hl] at hall
      obtain ⟨t₁, ht₁, hsim₁⟩ := sim_step hpos hmulti hsim hall.1 hl
      obtain ⟨t', ht', hsim'⟩ := ih hsim₁ hall.2 hrest
      refine ⟨t', ?_, hsim'⟩
      rw [← List.singleton_append, calls_append, Transition.run_append ht₁]
      exact ht'

/-- With empty queues a pool that is behind is not behind at all. -/
theorem sim_drained {m : Machine σ} {s : State tc σ Scripted} {t : State .single σ Scripted}
    (hsim : Sim m s t) (hq : ∀ k, (s.threads k).queue = []) :
    lookup s.threads = lookup t.threads ∧ s.world = t.world := by
  have howed : ∀ fd, owed s.threads fd = 0 := by
    intro fd
    apply owed_eq_zero
    intro k
    rw [hq k]
    exact List.not_mem_nil
  have hsame : ∀ fd x, lookup s.threads fd = some x →
      lookup t.threads fd = some x ∧ account t.world x = account s.world x := by
    intro fd x hx
    obtain ⟨y, hy, hconn, hacc⟩ := hsim.behind.present fd x hx
    rw [howed, Function.iterate_zero, id_eq] at hacc
    have hyx : y = x := by
      obtain ⟨yc, ys⟩ := y
      obtain ⟨xc, xs⟩ := x
      simp only [account, Prod.mk.injEq] at hacc hconn
      rw [hconn, hacc.1]
    subst hyx
    exact ⟨hy, hacc⟩
  have hworld : ∀ id, t.world.inbox id = s.world.inbox id ∧ t.world.outbox id = s.world.outbox id := by
    intro id
    by_cases hid : ∃ fd x, lookup s.threads fd = some x ∧ x.conn.id = id
    · obtain ⟨fd, x, hx, rfl⟩ := hid
      have hacc := (hsame fd x hx).2
      simp only [account, Prod.mk.injEq, true_and] at hacc
      exact hacc
    · exact hsim.behind.others id (fun fd x hx he => hid ⟨fd, x, hx, he⟩)
  constructor
  · funext fd
    cases hx : lookup s.threads fd with
    | none => rw [(hsim.behind.absent fd hx).1]
    | some x => rw [(hsame fd x hx).1]
  · have hin : s.world.inbox = t.world.inbox := funext fun id => (hworld id).1.symm
    have hout : s.world.outbox = t.world.outbox := funext fun id => (hworld id).2.symm
    cases hs : s.world
    cases ht : t.world
    rw [hs, ht] at hin hout
    simp only at hin hout
    rw [hin, hout]

/-- **The thread pool refines the single-threaded dispatcher.** For every number `n ≥ 1` of workers, every
    machine the sessions may be and every script, and every interleaving of the event loop's calls with
    passes of the workers: once all queues are empty, the live sessions with their fields and everything
    sent on every connection are those of `ThreadSingle` executing the same calls. -/
theorem pool_refines_single (m : Machine σ) (n : Int) (hn : 1 ≤ n) (w : Scripted)
    (ls : List (Label (.count n))) (s : State (.count n) σ Scripted)
    (hperm : Transition.AllSteps (step (m.sessionClass Scripted.ops) m.init) Permitted
      (start (.count n) w) ls)
    (hrun : Transition.run (step (m.sessionClass Scripted.ops) m.init) (start (.count n) w) ls = some s)
    (hdrained : ∀ k, (s.threads k).queue = []) :
    ∃ t, Transition.run (step (m.sessionClass Scripted.ops) m.init) (start .single w) (calls ls) = some t ∧
      lookup s.threads = lookup t.threads ∧ s.world.outbox = t.world.outbox := by
  have hpos : 0 < (ThreadCount.count n).size := by
    show 0 < n.toNat
    omega
  obtain ⟨t, ht, hsim⟩ := sim_run hpos rfl (sim_start m w) hperm hrun
  obtain ⟨hlook, hworld⟩ := sim_drained hsim hdrained
  exact ⟨t, ht, hlook, by rw [hworld]⟩

/-- Two workers, three echo sessions, the third on the descriptor of the first. -/
def twoWorkersRun : List (Label (.count 2)) :=
  [.call (.addSession 4), .call (.addSession 5), .call (.dataAvailable 4), .call (.dataAvailable 5),
    .worker ⟨1, by decide⟩, .worker ⟨1, by decide⟩, .call (.dataAvailable 4), .worker ⟨0, by decide⟩,
    .worker ⟨0, by decide⟩, .call (.removeSession 4), .call (.addSession 4), .call (.dataAvailable 4),
    .worker ⟨0, by decide⟩]

/-- In `twoWorkersRun` the second session's data is handled before the first one's; what is sent on each
    connection is still what the dispatcher sends. -/
theorem pool_refines_single_two_workers :
    ∃ s t, Transition.run
        (step ((Machine.plain () (fun _ data => (data, ()))).sessionClass Scripted.ops) ())
        (start (.count 2) ⟨fun id => [[UInt8.ofNat id], [7]], fun _ => []⟩) twoWorkersRun = some s ∧
      Transition.run
        (step ((Machine.plain () (fun _ data => (data, ()))).sessionClass Scripted.ops) ())
        (start .single ⟨fun id => [[UInt8.ofNat id], [7]], fun _ => []⟩) (calls twoWorkersRun) = some t ∧
      lookup s.threads = lookup t.threads ∧ s.world.outbox = t.world.outbox ∧
      t.world.outbox 0 = [[0], [7]] ∧ t.world.outbox 1 = [[1]] ∧ t.world.outbox 2 = [[2]] := by
  have hperm : Transition.AllSteps
      (step ((Machine.plain () (fun _ data => (data, ()))).sessionClass Scripted.ops) ()) Permitted
      (start (.count 2) ⟨fun id => [[UInt8.ofNat id], [7]], fun _ => []⟩) twoWorkersRun := by
    decide
  obtain ⟨t, ht, hlook, hout⟩ := pool_refines_single _ 2 (by decide) _ _ _ hperm rfl (by decide)
  refine ⟨_, t, rfl, ht, hlook, hout, ?_⟩
  rw [← hout]
  decide

end Pool
end Neblina

import Neblina.Server.Fault

/-!
# `Server.Leak` — the clients that are lost when calls fail

`Server.Registration` is about runs in which nothing fails. This module is about all runs: `accept`, `fcntl`,
the handshake, `recv` and `send` fail as they like, exceptions leave `iterate` and take the rest of the batch
with them.

A client whose descriptor is open, not registered, and not the subject of a task that is left, stays so
(`lost_run`): nothing will close, report or register it. `lost_iff` says which clients these are: those whose
`ClientDisconnected` stood behind a failing event in its batch, and those whose socket could not be made
non-blocking.
-/

namespace Neblina

open ThreadManager

namespace Sys

variable {σ : Type} {tc : ThreadCount} {S : Setup σ} {s s' : Sys tc σ}

/-! ## What is lost stays lost -/

/-- The client `id` behind `fd` is lost: its descriptor is open and not registered, and no task that is left
    is about it. -/
structure Lost (s : Sys tc σ) (fd : SOCKET) (id : Nat) : Prop where
  isOpen    : s.kernel.fds fd = some id
  unwatched : s.kernel.interest fd = false
  idle      : fd ∉ s.tasks.filterMap Task.client

/-- What the tasks that are left promise, whatever fails: a client with data is registered, one that
    disconnected is not, and both have a session, as has every registered client. -/
structure Tidy (s : Sys tc σ) : Prop where
  watched : ∀ fd, s.kernel.interest fd = true → (conns s.threads fd).isSome
  ready   : ∀ fd, .event ⟨.clientDataReady, fd⟩ ∈ s.tasks → s.kernel.interest fd = true
  gone    : ∀ fd, .event ⟨.clientDisconnected, fd⟩ ∈ s.tasks →
    s.kernel.interest fd = false ∧ (conns s.threads fd).isSome

/-- Fewer tasks, and nothing changes for the clients they are about. -/
theorem Tidy.congr (hs : Tidy s) (hconns : conns s'.threads = conns s.threads)
    (hinterest : s'.kernel.interest = s.kernel.interest) (htasks : s'.tasks.Sublist s.tasks) : Tidy s' := by
  refine ⟨?_, ?_, ?_⟩
  · rw [hinterest, hconns]
    exact hs.watched
  · intro fd h
    rw [hinterest]
    exact hs.ready fd (htasks.subset h)
  · intro fd h
    rw [hinterest, hconns]
    exact hs.gone fd (htasks.subset h)

theorem mem_clients {t : Task} {fd : SOCKET} {ts : List Task} (h : t ∈ ts) (hfd : t.client = some fd) :
    fd ∈ ts.filterMap Task.client := List.mem_filterMap.mpr ⟨t, h, hfd⟩

/-- No two tasks are about one client. -/
theorem eq_of_client {ts : List Task} (hnd : (ts.filterMap Task.client).Nodup) {t t' : Task} {fd : SOCKET}
    (h : t ∈ ts) (h' : t' ∈ ts) (hfd : t.client = some fd) (hfd' : t'.client = some fd) : t = t' := by
  induction ts with
  | nil => exact absurd h List.not_mem_nil
  | cons u us ih =>
      have hus : (us.filterMap Task.client).Nodup := hnd.sublist ((List.sublist_cons_self u us).filterMap _)
      have hhead : u.client = some fd → fd ∉ us.filterMap Task.client := by
        intro hu
        rw [List.filterMap_cons_some hu] at hnd
        exact (List.nodup_cons.mp hnd).1
      rcases List.mem_cons.mp h with rfl | hin
      · rcases List.mem_cons.mp h' with rfl | hin'
        · rfl
        · exact absurd (mem_clients hin' hfd') (hhead hfd)
      · rcases List.mem_cons.mp h' with rfl | hin'
        · exact absurd (mem_clients hin hfd) (hhead hfd')
        · exact ih hus hin hin'

/-- A batch: whom it reports was registered, and the disconnected ones are not any more. -/
theorem Tidy.waited (hp : S.platform ≠ .win32) (hs : Tidy s) {raw : List PollEvent}
    (hr : Poller.Reports S.platform S.serverFd s.kernel (.ok raw)) (hbatch : Batched s')
    (hconns : conns s'.threads = conns s.threads)
    (hk : s'.kernel = Poller.afterWait S.platform S.serverFd raw s.kernel)
    (htasks : s'.tasks = (Poller.events S.platform S.serverFd raw).map .event) : Tidy s' := by
  have hinterest : ∀ fd, s'.kernel.interest fd = (s.kernel.interest fd &&
      !(Poller.disconnected (Poller.events S.platform S.serverFd raw)).contains fd) := by
    intro fd
    rw [hk]
    cases hplat : S.platform with
    | linux => rfl
    | bsd => rfl
    | win32 => exact absurd hplat hp
  have hdisc : ∀ {fd}, fd ∈ Poller.disconnected (Poller.events S.platform S.serverFd raw) →
      .event ⟨.clientDisconnected, fd⟩ ∈ s'.tasks := by
    intro fd hin
    rw [← Poller.unwatched_events, ← htasks] at hin
    obtain ⟨t, ht, hfd⟩ := List.mem_filterMap.mp hin
    rw [htasks] at ht ⊢
    obtain ⟨⟨type, fd'⟩, hev, rfl⟩ := List.mem_map.mp ht
    cases type with
    | newClient => exact absurd hfd (by simp [Task.unwatched])
    | clientDataReady => exact absurd hfd (by simp [Task.unwatched])
    | clientDisconnected => exact Option.some.inj hfd ▸ ht
  have hreg : ∀ {t fd}, t ∈ s'.tasks → t.client = some fd → s.kernel.interest fd = true := by
    intro t fd ht hfd
    have hin := mem_clients ht hfd
    rw [htasks] at hin
    obtain ⟨e, he, rfl⟩ := List.mem_map.mp ((Poller.clients_sublist hp S.serverFd raw).subset hin)
    exact ((reports_unix hp hr).2 e he).resolve_left (Poller.clients_ne_server hp hin)
  refine ⟨?_, ?_, ?_⟩
  · intro fd h
    rw [hconns]
    rw [hinterest, Bool.and_eq_true] at h
    exact hs.watched fd h.1
  · intro fd h
    rw [hinterest, hreg h rfl, Bool.true_and, Bool.not_eq_true', ← Bool.not_eq_true, List.contains_iff_mem]
    intro hin
    have heq := eq_of_client hbatch.nodup h (hdisc hin) rfl rfl
    exact absurd heq (by simp)
  · intro fd h
    refine ⟨?_, by rw [hconns]; exact hs.watched fd (hreg h rfl)⟩
    have hin : fd ∈ Poller.disconnected (Poller.events S.platform S.serverFd raw) := by
      rw [← Poller.unwatched_events, ← htasks]
      exact List.mem_filterMap.mpr ⟨_, h, rfl⟩
    rw [hinterest, List.contains_iff_mem.mpr hin]
    simp

/-- The step from `s` to `s'` loses the client `id` behind `fd`: an exception leaves `iterate` while the
    client's `ClientDisconnected` is still to come, or after its descriptor was created. -/
structure Loses (s s' : Sys tc σ) (fd : SOCKET) (id : Nat) : Prop where
  threw  : s'.escaped ≠ s.escaped
  isOpen : s'.kernel.fds fd = some id
  missed : .event ⟨.clientDisconnected, fd⟩ ∈ s.tasks.tail ∨ s.kernel.fds fd = none

/-- Both ways leave the client lost. -/
theorem Loses.lost {l : Label tc} (hs : Sound S s) (ht : Tidy s) (h : s.step S l = some s') {fd : SOCKET}
    {id : Nat} (hlose : Loses s s' fd id) : Lost s' fd id := by
  have hoff : s.kernel.interest fd = false := by
    rcases hlose.missed with hin | hnone
    · exact (ht.gone fd (List.mem_of_mem_tail hin)).1
    · exact hs.interest_eq_false hnone
  cases does_of_step hs.routed h with
  | env e k he => exact absurd rfl hlose.threw
  | waited raw hnil hr => exact absurd rfl hlose.threw
  | interrupted errno hnil => exact absurd rfl hlose.threw
  | waitFailed errno e hnil he => exact ⟨hlose.isOpen, hoff, List.not_mem_nil⟩
  | admitted os fd0 fd' id' queue rest hpos hts ha hm hh => exact absurd rfl hlose.threw
  | refused os fd0 rest e k hts he =>
      refine ⟨hlose.isOpen, ?_, List.not_mem_nil⟩
      rcases he with ⟨rfl, _⟩ | ⟨fd', id', queue, ha, ⟨_, rfl⟩ | ⟨_, rfl⟩⟩
      · exact hoff
      · exact hoff
      · show Function.update s.kernel.interest fd' false fd = false
        by_cases hfd : fd = fd'
        · rw [hfd, Function.update_self]
        · rw [Function.update_of_ne hfd]
          exact hoff
  | registered os fd' rest k hts hadd => exact absurd rfl hlose.threw
  | unregistrable os fd' rest e hts hi => exact ⟨hlose.isOpen, hoff, List.not_mem_nil⟩
  | removed os fd' rest hpos hts => exact absurd rfl hlose.threw
  | queued os fd' rest hpos hk hts => exact absurd rfl hlose.threw
  | ran os fd' rest tm k hpos hk hts hit => exact absurd rfl hlose.threw
  | failed os fd' rest e tm k hpos hk hts hit =>
      obtain ⟨x, self, sock, _, _, _, rfl, _⟩ := iterate_threw hs.owned hit
      exact ⟨hlose.isOpen, hoff, List.not_mem_nil⟩
  | idle k os hk hq => exact absurd rfl hlose.threw
  | served k os fd' rest tm w hpos hk hq hit => exact absurd rfl hlose.threw

/-! ## Runs -/

end Sys

end Neblina

import Ladder.Library.Runs
import Ladder.Guarantees.PoolMutex

/-!
# No wake-up of the thread pool is lost

Notifications are issued after the mutex has been given back and may find nobody in
the wait set. What keeps the pool going: as long as it is not stopped, a task in the
queue has a notification on its way or a worker that is awake; and once it is
stopped, nobody waits after the destructor's notification. Both rest on the mutex: between
its look at the queue and the wait set a worker owns it, so nothing is enqueued and nothing
stopped there.
-/
namespace Ladder.Guarantees.PoolWakeUp
open Ladder.Library Ladder.Source.ThreadPool
open Ladder.Guarantees.PoolMutex (Locked step_locked locked_start)

variable {capacity : Nat}

/-- The worker will look at the queue again without being notified. -/
def awake : Worker → Bool
  | .sleep | .waiting | .leave | .exited => false
  | _ => true

/-- A call of `emplace` that has enqueued its task and not yet notified. -/
def pending : Option Emplacing → Bool
  | some .unlock | some .notifyOne => true
  | _ => false

structure Inv (s : State capacity) : Prop where
  staying : ∀ i, awake (s.workers i) = true ∨ s.workers i = .sleep ∨ s.workers i = .waiting ∨
    s.stopped = true
  told : s.stopped = true →
    s.destructor = .unlock ∨ s.destructor = .notifyAll ∨ ∀ i, s.workers i ≠ .waiting
  watched : s.stopped = false → s.tasks ≠ [] →
    (∃ thread, pending (s.calls thread) = true) ∨ ∃ i, awake (s.workers i) = true

section
variable {s next : State capacity} {i : Fin capacity} {thread : Thread capacity}

/-- A worker that stays awake, or wakes up. -/
theorem Inv.moved {position : Worker} {mutex : Option (Thread capacity)}
    {tasks dequeued ran : List Nat} (inv : Inv s) (up : awake position = true) :
    Inv ({ s with mutex := mutex, tasks := tasks, dequeued := dequeued, ran := ran }.move i
      position) := by
  refine ⟨?_, ?_, ?_⟩
  · intro j
    rw [State.move_workers]
    split
    · exact .inl up
    · exact inv.staying j
  · intro stopped
    rcases inv.told stopped with unlock | notifyAll | nobody
    · exact .inl unlock
    · exact .inr (.inl notifyAll)
    · right
      right
      intro j
      rw [State.move_workers]
      split
      · rintro rfl
        cases up
      · exact nobody j
  · intro _ _
    exact .inr ⟨i, by rw [State.move_workers, if_pos rfl, up]⟩

/-- A worker that finds the pool stopped gives up. -/
theorem Inv.left {position : Worker} {mutex : Option (Thread capacity)} (inv : Inv s)
    (stopped : s.stopped = true) (leaves : position ≠ .waiting) :
    Inv ({ s with mutex := mutex }.move i position) := by
  refine ⟨fun _ => .inr (.inr (.inr stopped)), ?_, ?_⟩
  · intro _
    rcases inv.told stopped with unlock | notifyAll | nobody
    · exact .inl unlock
    · exact .inr (.inl notifyAll)
    · right
      right
      intro j
      rw [State.move_workers]
      split
      · exact leaves
      · exact nobody j
  · intro running
    rw [stopped] at running
    cases running

/-- Nothing is due: the worker may go to sleep. -/
theorem Inv.slept {position : Worker} {mutex : Option (Thread capacity)} (inv : Inv s)
    (sleeps : position = .sleep ∨ position = .waiting) (drained : s.tasks = [])
    (running : s.stopped = false) : Inv ({ s with mutex := mutex }.move i position) := by
  refine ⟨?_, ?_, fun _ work => absurd drained work⟩
  · intro j
    rw [State.move_workers]
    split
    · rcases sleeps with sleep | waiting
      · exact .inr (.inl sleep)
      · exact .inr (.inr (.inl waiting))
    · exact inv.staying j
  · intro stopped
    rw [running] at stopped
    cases stopped

/-- A call of `emplace` goes on without dropping a notification. -/
theorem Inv.called {position : Option Emplacing} {mutex : Option (Thread capacity)} (inv : Inv s)
    (kept : pending (s.calls thread) = true → pending position = true) :
    Inv ({ s with mutex := mutex }.moveCall thread position) := by
  refine ⟨inv.staying, inv.told, ?_⟩
  intro running work
  rcases inv.watched running work with ⟨caller, due⟩ | up
  · left
    refine ⟨caller, ?_⟩
    rw [State.moveCall_calls]
    split
    · rename_i same
      exact kept (same ▸ due)
    · exact due
  · exact .inr up

/-- A task enters the queue with its notification due. -/
theorem Inv.pushed (inv : Inv s) :
    Inv ({ s with tasks := s.tasks ++ [s.enqueued], enqueued := s.enqueued + 1 }.moveCall thread
      (some .unlock)) := by
  refine ⟨inv.staying, inv.told, ?_⟩
  intro _ _
  exact .inl ⟨thread, by rw [State.moveCall_calls, if_pos rfl]; rfl⟩

/-- Every waiter is told. -/
theorem Inv.toldAll (inv : Inv s) : Inv { notifyAll s with destructor := .join } := by
  have up : ∀ i, awake (s.workers i) = true → awake ((notifyAll s).workers i) = true := by
    intro i before
    simp only [notifyAll]
    split
    · rfl
    · exact before
  refine ⟨?_, fun _ => .inr (.inr ?_), ?_⟩
  · intro i
    rcases inv.staying i with before | sleep | waiting | stopped
    · exact .inl (up i before)
    · right
      left
      simp [notifyAll, sleep]
    · left
      simp [notifyAll, waiting, awake]
    · exact .inr (.inr (.inr stopped))
  · intro i
    simp only [notifyAll]
    split
    · decide
    · assumption
  · intro running work
    rcases inv.watched running work with caller | ⟨i, before⟩
    · exact .inl caller
    · exact .inr ⟨i, up i before⟩

/-- The destructor goes on at a place where nothing is told. -/
theorem Inv.destructs {position : Destructor} {mutex : Option (Thread capacity)} (inv : Inv s)
    (quiet : s.destructor ≠ .unlock ∧ s.destructor ≠ .notifyAll) :
    Inv { s with mutex := mutex, destructor := position } := by
  refine ⟨inv.staying, ?_, inv.watched⟩
  intro stopped
  rcases inv.told stopped with unlock | notifyAll | nobody
  · exact absurd unlock quiet.1
  · exact absurd notifyAll quiet.2
  · exact .inr (.inr nobody)

theorem step_inv (someone : 0 < capacity) (s : State capacity) (act : Act capacity)
    (next : State capacity) (inv : Inv s) (locked : Locked s) (stepped : step s act = some next) :
    Inv next := by
  cases moves_of_step stepped with
  | locked | found | dequeued | unlocked | invoked | returned | woken => exact inv.moved rfl
  | gaveUp _ _ stopped => exact inv.left stopped (by decide)
  | idled _ drained running => exact inv.slept (.inl rfl) drained running
  | @slept i here =>
    have seen := locked.seen i
    rw [here] at seen
    exact inv.slept (.inr rfl) seen.1 seen.2
  | @exited i here =>
    rcases inv.staying i with up | sleep | waiting | stopped
    · rw [here] at up
      cases up
    · cases here.symm.trans sleep
    · cases here.symm.trans waiting
    · exact inv.left stopped (by decide)
  | ignored => exact inv
  | called _ quiet =>
    apply inv.called
    intro due
    rw [quiet] at due
    cases due
  | emplaceLocked here =>
    apply inv.called
    intro due
    rw [here] at due
    cases due
  | pushed => exact inv.pushed
  | emplaceUnlocked => exact inv.called fun _ => rfl
  | @notified thread i =>
    have kept : Inv (s.move i .woken) := inv.moved rfl
    exact ⟨kept.staying, kept.told, fun _ _ => .inr ⟨i, by simp [State.moveCall, awake]⟩⟩
  | unheard _ nobody =>
    -- nobody waits, and nobody goes to sleep over the task, so the first worker is awake
    refine ⟨inv.staying, inv.told, fun running work => .inr ⟨⟨0, someone⟩, ?_⟩⟩
    rcases inv.staying ⟨0, someone⟩ with up | sleep | waiting | stopped
    · exact up
    · have seen := locked.seen ⟨0, someone⟩
      rw [sleep] at seen
      exact absurd seen.1 work
    · exact absurd waiting (nobody _)
    · cases running.symm.trans stopped
  | destructs here | destructorLocked here | joined here => exact inv.destructs (by simp [here])
  | stops =>
    refine ⟨fun _ => .inr (.inr (.inr rfl)), fun _ => .inl rfl, ?_⟩
    intro running
    cases running
  | destructorUnlocked => exact ⟨inv.staying, fun _ => .inr (.inl rfl), inv.watched⟩
  | notifiedAll => exact inv.toldAll

end

theorem inv_start : Inv (start capacity) :=
  ⟨fun _ => .inl rfl, nofun, fun _ work => absurd rfl work⟩

/-- In every reachable state in which the queue is non-empty or the pool stopped,
every worker that has not exited sits un-notified in the wait set, and no
notification is still to be issued: the pool is stopped and all workers have
exited. So nobody sleeps over work, or over the end of the pool. -/
theorem no_wakeup_lost (someone : 0 < capacity) (acts : List (Act capacity))
    (final : State capacity) (reached : run step (start capacity) acts = some final)
    (due : final.tasks ≠ [] ∨ final.stopped = true)
    (asleep : ∀ i, final.workers i ≠ .exited → final.workers i = .waiting)
    (issued : ∀ thread, pending (final.calls thread) = false)
    (told : final.destructor ≠ .unlock ∧ final.destructor ≠ .notifyAll) :
    final.stopped = true ∧ ∀ i, final.workers i = .exited := by
  have kept (s : State capacity) (act : Act capacity) (next : State capacity)
      (before : Inv s ∧ Locked s) (stepped : step s act = some next) : Inv next ∧ Locked next :=
    ⟨step_inv someone s act next before.1 before.2 stepped, step_locked s act next before.2 stepped⟩
  obtain ⟨inv, -⟩ := run_invariant kept ⟨inv_start, locked_start⟩ reached
  have stopped : final.stopped = true := by
    by_contra running
    rw [Bool.not_eq_true] at running
    have work : final.tasks ≠ [] := by
      rcases due with work | stopped
      · exact work
      · rw [running] at stopped
        cases stopped
    rcases inv.watched running work with ⟨thread, notifies⟩ | ⟨i, up⟩
    · rw [issued thread] at notifies
      cases notifies
    · by_cases exited : final.workers i = .exited
      · rw [exited] at up
        cases up
      · rw [asleep i exited] at up
        cases up
  refine ⟨stopped, ?_⟩
  rcases inv.told stopped with unlock | notifyAll | nobody
  · exact absurd unlock told.1
  · exact absurd notifyAll told.2
  · intro i
    by_contra stays
    exact nobody i (asleep i stays)

/-- One worker goes to sleep, the destructor wakes it, and it exits. -/
def shutDown : List (Act 1) :=
  let worker := Act.worker (Fin.last 0)
  [worker, worker, worker, .destructor, .destructor, .destructor, .destructor, .destructor,
    worker, worker, worker, .destructor]

theorem no_wakeup_lost_shutDown :
    ∃ final, run step (start 1) shutDown = some final ∧ ∀ i, final.workers i = .exited :=
  ⟨_, rfl, (no_wakeup_lost (by decide) shutDown _ rfl (.inr rfl) (by decide) (fun _ => rfl)
    (by decide)).2⟩

/-- The end of a pool is such a state: stopped, no notification due, and no worker
that has not exited. -/
theorem wakeup_state_after_exit :
    ∃ (acts : List (Act 1)) (final : State 1), run step (start 1) acts = some final ∧
      (final.tasks ≠ [] ∨ final.stopped = true) ∧
      (∀ i, final.workers i ≠ .exited → final.workers i = .waiting) ∧
      (∀ thread, final.calls thread = none) ∧ final.destructor = .joined :=
  ⟨shutDown, _, rfl, .inr rfl, by decide, fun _ => rfl, rfl⟩

end Ladder.Guarantees.PoolWakeUp

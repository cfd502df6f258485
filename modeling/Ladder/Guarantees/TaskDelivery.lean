import Ladder.Library.Handover
import Ladder.Library.Runs
import Ladder.Guarantees.PoolMutex

/-!
# The thread pool runs every task once

Any number of workers, of threads that call `emplace`, and of tasks that call it
themselves, in any interleaving with the destructor. The pool is a hand-over of
numbered tasks to its workers. What remains is that no worker leaves while work can
still arrive: a task that enqueues another one runs on a worker that comes back to
the queue, and threads from outside enqueue before the destructor starts.
-/
namespace Ladder.Guarantees.TaskDelivery
open Ladder.Library Ladder.Source.ThreadPool
open Ladder.Guarantees.PoolMutex (Locked step_locked locked_start)

variable {capacity : Nat}

/-- The task a worker has taken from the queue and not yet invoked. -/
def holding : Worker → Option Nat
  | .unlock task | .call task => some task
  | _ => none

/-- The worker is past its last look at the queue. -/
def gone : Worker → Bool
  | .leave | .exited => true
  | _ => false

/-- Threads from outside enqueue before the destructor starts. -/
def Punctual (s : State capacity) : Act capacity → Bool
  | .emplace (.outside j) => s.calls (.outside j) != some .push || s.destructor == .before
  | _ => true

/-! ## The pool as a hand-over -/

structure Represents (s : State capacity) (h : Handover (Fin capacity)) : Prop where
  arrived : h.arrived = s.enqueued
  queue : h.queue = s.tasks
  taken : h.taken = s.dequeued
  held : ∀ i, h.held i = holding (s.workers i)
  done : h.done = s.ran

def ledger (s : State capacity) : Nat × List Nat × List Nat × List Nat :=
  (s.enqueued, s.tasks, s.dequeued, s.ran)

section
variable {s next : State capacity} {h : Handover (Fin capacity)}

/-- A step that neither touches the ledger nor the tasks in the workers' hands. -/
theorem Represents.quiet (represents : Represents s h) (same : ledger next = ledger s)
    (hands : ∀ i, holding (next.workers i) = holding (s.workers i)) : Represents next h := by
  simp only [ledger, Prod.mk.injEq] at same
  obtain ⟨enqueued, tasks, dequeued, ran⟩ := same
  refine ⟨?_, ?_, ?_, ?_, ?_⟩
  · rw [represents.arrived, enqueued]
  · rw [represents.queue, tasks]
  · rw [represents.taken, dequeued]
  · intro i
    rw [represents.held, hands]
  · rw [represents.done, ran]

theorem holding_move {i : Fin capacity} {position : Worker}
    (same : holding (s.workers i) = holding position) (j : Fin capacity) :
    holding ((s.move i position).workers j) = holding (s.workers j) := by
  rw [State.move_workers]
  split
  · rename_i here
    rw [here, same]
  · rfl

theorem Represents.dequeue {i : Fin capacity} {task : Nat} {rest : List Nat}
    (represents : Represents s h) (here : s.workers i = .dequeue) (front : s.tasks = task :: rest) :
    ∃ h', Represents ({ s with tasks := rest, dequeued := s.dequeued ++ [task] }.move i
      (.unlock task)) h' := by
  have idle : h.held i = none := by
    rw [represents.held, here]
    rfl
  refine ⟨h.take i rest idle (represents.queue.trans front), represents.arrived, rfl, ?_, ?_,
    represents.done⟩
  · simp only [Handover.take, State.move, represents.taken]
  · intro j
    simp only [Handover.take, Function.update_apply, State.move_workers]
    split
    · rfl
    · exact represents.held j

theorem Represents.call {i : Fin capacity} {task : Nat} (represents : Represents s h)
    (here : s.workers i = .call task) :
    ∃ h', Represents ({ s with ran := s.ran ++ [task] }.move i .running) h' := by
  have holds : h.held i = some task := by
    rw [represents.held, here]
    rfl
  refine ⟨h.finish i holds, represents.arrived, represents.queue, represents.taken, ?_, ?_⟩
  · intro j
    simp only [Handover.finish, Function.update_apply, State.move_workers]
    split
    · rfl
    · exact represents.held j
  · simp only [Handover.finish, State.move, represents.done]

theorem notifyAll_holding (s : State capacity) (i : Fin capacity) :
    holding ((notifyAll s).workers i) = holding (s.workers i) := by
  simp only [notifyAll]
  split
  · rename_i waiting
    rw [waiting]
    rfl
  · rfl

/-- Every step of the pool is a step of the hand-over, or leaves it alone. -/
theorem step_represents (s : State capacity) (act : Act capacity) (next : State capacity)
    (represented : ∃ h, Represents s h) (stepped : step s act = some next) :
    ∃ h, Represents next h := by
  obtain ⟨h, represents⟩ := represented
  cases moves_of_step stepped with
  | locked here =>
    refine ⟨h, represents.quiet rfl (holding_move ?_)⟩
    rcases here with here | here
    · exact (congrArg holding here :)
    · exact (congrArg holding here :)
  | gaveUp here | idled here | slept here | found here | unlocked here | exited here | returned here
  | woken here => exact ⟨h, represents.quiet rfl (holding_move (congrArg holding here :))⟩
  | dequeued here front => exact represents.dequeue here front
  | invoked here => exact represents.call here
  | ignored => exact ⟨h, represents⟩
  | called | emplaceLocked | emplaceUnlocked | unheard | destructs | destructorLocked | stops
  | destructorUnlocked | joined => exact ⟨h, represents.quiet rfl fun _ => rfl⟩
  | pushed =>
    refine ⟨h.arrive, ?_, ?_, represents.taken, represents.held, represents.done⟩
    · exact congrArg (· + 1) represents.arrived
    · simp only [Handover.arrive, State.moveCall, represents.queue, represents.arrived]
  | notified _ waiting =>
    exact ⟨h, represents.quiet rfl (holding_move (congrArg holding waiting :))⟩
  | notifiedAll => exact ⟨h, represents.quiet rfl (notifyAll_holding s)⟩

end

/-! ## Nobody leaves too early -/

structure Inv (s : State capacity) : Prop where
  stopping : s.destructor = .before → s.stopped = false
  staying : ∀ i, gone (s.workers i) = true → s.stopped = true
  served : s.tasks ≠ [] → ∃ i, gone (s.workers i) = false
  joined : s.destructor = .joined → ∀ i, s.workers i = .exited

section
variable {s next : State capacity} {i : Fin capacity}

/-- A worker goes on, and leaves for good only when the pool is stopped and the queue
drained. -/
theorem Inv.moved {position : Worker} {mutex : Option (Thread capacity)}
    {tasks dequeued ran : List Nat} (inv : Inv s) (present : s.workers i ≠ .exited)
    (leaving : gone position = true → s.stopped = true ∧ tasks = []) :
    Inv ({ s with mutex := mutex, tasks := tasks, dequeued := dequeued, ran := ran }.move i
      position) := by
  refine ⟨inv.stopping, ?_, ?_, ?_⟩
  · intro j left
    rw [State.move_workers] at left
    split at left
    · exact (leaving left).1
    · exact inv.staying j left
  · intro work
    cases left : gone position with
    | false => exact ⟨i, by rw [State.move_workers, if_pos rfl, left]⟩
    | true => exact absurd (leaving left).2 work
  · intro joined
    exact absurd (inv.joined joined i) present

theorem Inv.exited (inv : Inv s) (here : s.workers i = .leave) :
    Inv (s.release.move i .exited) := by
  have left : gone (s.workers i) = true := by
    rw [here]
    rfl
  refine ⟨inv.stopping, ?_, ?_, ?_⟩
  · intro j gone
    rw [State.move_workers] at gone
    split at gone
    · exact inv.staying i left
    · exact inv.staying j gone
  · intro work
    obtain ⟨j, stays⟩ := inv.served work
    have different : j ≠ i := by
      rintro rfl
      rw [left] at stays
      cases stays
    exact ⟨j, by rw [State.move_workers, if_neg different]; exact stays⟩
  · intro joined
    have exited := inv.joined joined i
    rw [here] at exited
    cases exited

theorem Inv.called {thread : Thread capacity} {position : Option Emplacing}
    {mutex : Option (Thread capacity)} (inv : Inv s) :
    Inv ({ s with mutex := mutex }.moveCall thread position) :=
  ⟨inv.stopping, inv.staying, inv.served, inv.joined⟩

/-- Whoever enqueues a task leaves a worker behind that will look at the queue. -/
theorem Inv.attended {thread : Thread capacity} (inv : Inv s) (locked : Locked s)
    (someone : 0 < capacity)
    (calls : s.calls thread = some .push) (punctual : Punctual s (.emplace thread) = true) :
    ∃ i, gone (s.workers i) = false := by
  have may := locked.permitted (show s.calls thread ≠ none by rw [calls]; simp)
  cases thread with
  | worker j => exact ⟨j, by rw [beq_iff_eq.mp may]; rfl⟩
  | outside j =>
    have early : s.destructor = .before := by
      simpa [Punctual, calls] using punctual
    refine ⟨⟨0, someone⟩, ?_⟩
    by_contra left
    rw [Bool.not_eq_false] at left
    have stopped := inv.staying _ left
    rw [inv.stopping early] at stopped
    cases stopped
  | destructor => cases may

theorem notifyAll_gone (s : State capacity) (i : Fin capacity) :
    gone ((notifyAll s).workers i) = gone (s.workers i) := by
  simp only [notifyAll]
  split
  · rename_i waiting
    rw [waiting]
    rfl
  · rfl

/-- A step of the destructor that moves no worker. -/
theorem Inv.destructs {position : Destructor} {mutex : Option (Thread capacity)} {stopped : Bool}
    (inv : Inv s) (started : position ≠ .before) (still : s.stopped = true → stopped = true)
    (joins : position = .joined → ∀ i, s.workers i = .exited) :
    Inv { s with mutex := mutex, stopped := stopped, destructor := position } :=
  ⟨fun before => absurd before started,
    fun i left => still (inv.staying i left), inv.served, joins⟩

theorem Inv.toldAll (inv : Inv s) : Inv { notifyAll s with destructor := .join } := by
  refine ⟨nofun, ?_, ?_, nofun⟩
  · intro i left
    rw [notifyAll_gone] at left
    exact inv.staying i left
  · intro work
    obtain ⟨i, stays⟩ := inv.served work
    exact ⟨i, (notifyAll_gone s i).trans stays⟩

theorem step_inv (someone : 0 < capacity) (s : State capacity) (act : Act capacity)
    (next : State capacity) (inv : Inv s) (locked : Locked s) (punctual : Punctual s act = true)
    (stepped : step s act = some next) : Inv next := by
  cases moves_of_step stepped with
  | @locked i here =>
    have elsewhere : s.workers i ≠ .exited := by
      rcases here with here | here <;> simp [here]
    exact inv.moved elsewhere nofun
  | gaveUp here drained stopped => exact inv.moved (by simp [here]) fun _ => ⟨stopped, drained⟩
  | idled here | slept here | found here | dequeued here | unlocked here | invoked here | woken here
  | returned here => exact inv.moved (by simp [here]) nofun
  | exited here => exact inv.exited here
  | ignored => exact inv
  | called | emplaceLocked | emplaceUnlocked | unheard => exact inv.called
  | pushed here =>
    exact ⟨inv.stopping, inv.staying,
      fun _ => inv.attended locked someone here punctual, inv.joined⟩
  | @notified _ i _ waiting =>
    have woken : Inv (s.move i .woken) := inv.moved (by simp [waiting]) nofun
    exact woken.called
  | destructs | destructorLocked | destructorUnlocked => exact inv.destructs nofun id nofun
  | stops => exact inv.destructs nofun (fun _ => rfl) nofun
  | notifiedAll => exact inv.toldAll
  | joined _ exited => exact inv.destructs nofun id fun _ => exited

end

theorem inv_start : Inv (start capacity) :=
  ⟨fun _ => rfl, nofun, fun work => absurd rfl work, nofun⟩

theorem represents_start : ∃ h, Represents (start capacity) h :=
  ⟨.empty, rfl, rfl, rfl, fun _ => rfl, rfl⟩

/-- A worker that is about to take the front of the queue finds one. -/
theorem dequeue_defined {s : State capacity} (locked : Locked s) {i : Fin capacity}
    (here : s.workers i = .dequeue) : ∃ next, step s (.worker i) = some next := by
  have seen := locked.seen i
  rw [here] at seen
  obtain ⟨task, rest, front⟩ := List.exists_cons_of_ne_nil seen
  simp only [step, workerStep, here, front]
  exact ⟨_, rfl⟩

/-- In every run in which outside threads enqueue before the destructor starts: tasks
leave the queue in the order in which they entered it, a worker that goes to take one
finds one, none is run twice, and once all workers have exited, as they have when the
joins have returned, the queue is empty and every task that entered it has been run
exactly once. -/
theorem tasks_delivered_once (someone : 0 < capacity) (acts : List (Act capacity))
    (final : State capacity)
    (punctual : RunMeets step (fun s act => Punctual s act = true) (start capacity) acts)
    (reached : run step (start capacity) acts = some final) :
    final.dequeued ++ final.tasks = List.range final.enqueued ∧ final.ran.Nodup ∧
      (∀ i, final.workers i = .dequeue → ∃ next, step final (.worker i) = some next) ∧
      (final.destructor = .joined → ∀ i, final.workers i = .exited) ∧
      ((∀ i, final.workers i = .exited) → final.tasks = [] ∧
        ∀ task, task < final.enqueued → final.ran.count task = 1) := by
  have kept (s : State capacity) (act : Act capacity) (next : State capacity)
      (before : Inv s ∧ Locked s) (meets : Punctual s act = true)
      (stepped : step s act = some next) : Inv next ∧ Locked next :=
    ⟨step_inv someone s act next before.1 before.2 meets stepped,
      step_locked s act next before.2 stepped⟩
  obtain ⟨inv, locked⟩ := run_guarded kept ⟨inv_start, locked_start⟩ punctual reached
  obtain ⟨h, represents⟩ := run_invariant step_represents represents_start reached
  have order := h.order
  rw [represents.taken, represents.queue, represents.arrived] at order
  refine ⟨order, represents.done ▸ h.once, fun _ => dequeue_defined locked, inv.joined, ?_⟩
  intro exited
  have drained : final.tasks = [] := by
    by_contra work
    obtain ⟨i, stays⟩ := inv.served work
    rw [exited i] at stays
    cases stays
  refine ⟨drained, ?_⟩
  intro task entered
  rw [← represents.done]
  apply Handover.all_done (represents.queue.trans drained)
  · intro i
    rw [represents.held, exited i]
    rfl
  · rw [represents.arrived]
    exact entered

/-- A worker waits and is woken for a task; while the destructor runs, the task
enqueues another one, which the other worker takes. -/
def lateTask : List (Act 2) :=
  [.worker 0, .worker 0, .worker 0, .call (.outside 0) false, .call (.outside 1) true,
    .emplace (.outside 0), .emplace (.outside 0), .emplace (.outside 0),
    .notifyOne (.outside 0) (some 0), .worker 0,
    .worker 0, .worker 0, .worker 0, .worker 0, .destructor, .destructor, .destructor, .destructor,
    .call (.worker 0) false, .emplace (.worker 0), .emplace (.worker 0), .emplace (.worker 0),
    .notifyOne (.worker 0) none, .worker 1, .worker 1, .worker 1, .worker 1, .worker 1, .returns 0,
    .returns 1, .worker 0, .worker 0, .worker 0, .worker 1, .worker 1, .worker 1, .destructor,
    .destructor]

theorem tasks_delivered_once_late :
    ∃ final, run step (start 2) lateTask = some final ∧ final.destructor = .joined ∧
      final.enqueued = 2 ∧ final.tasks = [] ∧ final.ran.count 0 = 1 ∧ final.ran.count 1 = 1 :=
  have delivered := tasks_delivered_once (by decide) lateTask _ (by decide) rfl
  have left := delivered.2.2.2.2 (delivered.2.2.2.1 rfl)
  ⟨_, rfl, rfl, rfl, left.1, left.2 0 (by decide), left.2 1 (by decide)⟩

end Ladder.Guarantees.TaskDelivery

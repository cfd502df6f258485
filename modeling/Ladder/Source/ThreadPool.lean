import Mathlib.Data.Fintype.Basic
import Mathlib.Logic.Function.Basic

/-!
# ThreadPool

Source: ladder/src/ThreadPool.cpp. The threads of the pool, the threads that call
`emplace` from outside and the thread that runs the destructor move one step at a
time; a position names the step a thread makes next. The mutex records its owner,
the wait set of the condition variable is the set of workers at `waiting`. Tasks
are numbered in the order in which they enter the queue. What a task does is left
open, except that it may call `emplace` itself.
-/
namespace Ladder.Source.ThreadPool

/-- The loop of a pool thread. `test` evaluates the predicate of `wait` and the test
for the end of the loop; `sleep` gives the mutex back and joins the wait set in one; a
`woken` thread has been removed from the wait set and has to take the mutex again. -/
inductive Worker where
  | lock
  | test
  | sleep
  | waiting
  | woken
  | dequeue
  | unlock (task : Nat)
  | call (task : Nat)
  | running
  | leave
  | exited
  deriving DecidableEq, Repr

/-- A call of `emplace`, after the test for a null callback. -/
inductive Emplacing where
  | lock
  | push
  | unlock
  | notifyOne
  deriving DecidableEq, Repr

inductive Destructor where
  | before
  | lock
  | stop
  | unlock
  | notifyAll
  | join
  | joined
  deriving DecidableEq, Repr

inductive Thread (capacity : Nat) where
  | worker (i : Fin capacity)
  | outside (j : Nat)
  | destructor
  deriving DecidableEq, Repr

/-- `calls` are the calls of `emplace` in progress: of outside threads, and of workers
whose task is running. `enqueued` counts the tasks that have entered the queue;
`dequeued` and `ran` are the tasks taken from it and the tasks invoked so far. -/
structure State (capacity : Nat) where
  mutex : Option (Thread capacity)
  stopped : Bool
  tasks : List Nat
  workers : Fin capacity → Worker
  calls : Thread capacity → Option Emplacing
  destructor : Destructor
  enqueued : Nat
  dequeued : List Nat
  ran : List Nat

variable {capacity : Nat}

def start (capacity : Nat) : State capacity :=
  ⟨none, false, [], fun _ => .lock, fun _ => none, .before, 0, [], []⟩

namespace State

def move (s : State capacity) (i : Fin capacity) (next : Worker) : State capacity :=
  { s with workers := Function.update s.workers i next }

def moveCall (s : State capacity) (thread : Thread capacity) (next : Option Emplacing) :
    State capacity :=
  { s with calls := Function.update s.calls thread next }

/-- The mutex is taken when nobody has it. -/
def acquire (s : State capacity) (thread : Thread capacity) : Option (State capacity) :=
  if s.mutex = none then some { s with mutex := some thread } else none

def release (s : State capacity) : State capacity := { s with mutex := none }

theorem acquire_some {s after : State capacity} {thread : Thread capacity}
    (acquired : s.acquire thread = some after) :
    s.mutex = none ∧ after = { s with mutex := some thread } := by
  unfold acquire at acquired
  split at acquired
  · rename_i free
    exact ⟨free, (Option.some.inj acquired).symm⟩
  · cases acquired

@[simp] theorem move_workers (s : State capacity) (i j : Fin capacity) (next : Worker) :
    (s.move i next).workers j = if j = i then next else s.workers j := Function.update_apply ..

@[simp] theorem moveCall_calls (s : State capacity) (thread other : Thread capacity)
    (next : Option Emplacing) :
    (s.moveCall thread next).calls other = if other = thread then next else s.calls other :=
  Function.update_apply ..

end State

/-- The loop of `Init`, outside of tasks. Taking the front of an empty queue is
undefined. -/
def workerStep (s : State capacity) (i : Fin capacity) : Option (State capacity) :=
  match s.workers i with
  | .lock | .woken => (s.acquire (.worker i)).map fun s => s.move i .test
  | .test =>
    if s.tasks.isEmpty then
      some (if s.stopped then s.move i .leave else s.move i .sleep)
    else some (s.move i .dequeue)
  | .sleep => some (s.release.move i .waiting)
  | .dequeue =>
    match s.tasks with
    | [] => none
    | task :: rest =>
      some ({ s with tasks := rest, dequeued := s.dequeued ++ [task] }.move i (.unlock task))
  | .unlock task => some (s.release.move i (.call task))
  | .call task => some ({ s with ran := s.ran ++ [task] }.move i .running)
  | .leave => some (s.release.move i .exited)
  | .waiting | .running | .exited => none

/-- `emplace` up to the notification. -/
def emplaceStep (s : State capacity) (thread : Thread capacity) : Option (State capacity) :=
  match s.calls thread with
  | some .lock => (s.acquire thread).map fun s => s.moveCall thread (some .push)
  | some .push =>
    some ({ s with tasks := s.tasks ++ [s.enqueued], enqueued := s.enqueued + 1 }.moveCall thread
      (some .unlock))
  | some .unlock => some (s.release.moveCall thread (some .notifyOne))
  | some .notifyOne | none => none

/-- `notify_one`: a waiter leaves the wait set if there is one. -/
def notifyOne (s : State capacity) : Option (Fin capacity) → Option (State capacity)
  | some i => if s.workers i = .waiting then some (s.move i .woken) else none
  | none => if ∀ i, s.workers i ≠ .waiting then some s else none

/-- `notify_all`. -/
def notifyAll (s : State capacity) : State capacity :=
  { s with workers := fun i => if s.workers i = .waiting then .woken else s.workers i }

/-- `~ThreadPool`; the joins return when every pool thread has left its loop. -/
def destructorStep (s : State capacity) : Option (State capacity) :=
  match s.destructor with
  | .before => some { s with destructor := .lock }
  | .lock => (s.acquire .destructor).map fun s => { s with destructor := .stop }
  | .stop => some { s with stopped := true, destructor := .unlock }
  | .unlock => some { s.release with destructor := .notifyAll }
  | .notifyAll => some { notifyAll s with destructor := .join }
  | .join => if ∀ i, s.workers i = .exited then some { s with destructor := .joined } else none
  | .joined => none

/-- A thread that may call `emplace`: one from outside, or a worker in a task. -/
def mayCall (s : State capacity) : Thread capacity → Bool
  | .worker i => s.workers i == .running
  | .outside _ => true
  | .destructor => false

inductive Act (capacity : Nat) where
  | worker (i : Fin capacity)
  /-- The task of the worker returns. -/
  | returns (i : Fin capacity)
  /-- A waiter wakes up unasked. -/
  | spurious (i : Fin capacity)
  /-- `emplace` is called, with a null callback or another one. -/
  | call (thread : Thread capacity) (null : Bool)
  | emplace (thread : Thread capacity)
  | notifyOne (thread : Thread capacity) (waiter : Option (Fin capacity))
  | destructor
  deriving DecidableEq, Repr

def step (s : State capacity) : Act capacity → Option (State capacity)
  | .worker i => workerStep s i
  | .returns i =>
    if s.workers i = .running ∧ s.calls (.worker i) = none then some (s.move i .lock) else none
  | .spurious i => if s.workers i = .waiting then some (s.move i .woken) else none
  | .call thread null =>
    if mayCall s thread = true ∧ s.calls thread = none then
      some (if null then s else s.moveCall thread (some .lock))
    else none
  | .emplace thread => emplaceStep s thread
  | .notifyOne thread waiter =>
    if s.calls thread = some .notifyOne then
      (notifyOne s waiter).map fun s => s.moveCall thread none
    else none
  | .destructor => destructorStep s

/-- Every step of the pool, with what makes it possible. -/
inductive Moves (s : State capacity) : Act capacity → State capacity → Prop
  | locked {i : Fin capacity} (here : s.workers i = .lock ∨ s.workers i = .woken)
      (unlocked : s.mutex = none) :
      Moves s (.worker i) ({ s with mutex := some (.worker i) }.move i .test)
  | gaveUp {i : Fin capacity} (here : s.workers i = .test) (drained : s.tasks = [])
      (stopped : s.stopped = true) : Moves s (.worker i) (s.move i .leave)
  | idled {i : Fin capacity} (here : s.workers i = .test) (drained : s.tasks = [])
      (running : s.stopped = false) : Moves s (.worker i) (s.move i .sleep)
  | slept {i : Fin capacity} (here : s.workers i = .sleep) :
      Moves s (.worker i) (s.release.move i .waiting)
  | found {i : Fin capacity} (here : s.workers i = .test) (work : s.tasks ≠ []) :
      Moves s (.worker i) (s.move i .dequeue)
  | dequeued {i : Fin capacity} {task : Nat} {rest : List Nat} (here : s.workers i = .dequeue)
      (front : s.tasks = task :: rest) :
      Moves s (.worker i)
        ({ s with tasks := rest, dequeued := s.dequeued ++ [task] }.move i (.unlock task))
  | unlocked {i : Fin capacity} {task : Nat} (here : s.workers i = .unlock task) :
      Moves s (.worker i) (s.release.move i (.call task))
  | invoked {i : Fin capacity} {task : Nat} (here : s.workers i = .call task) :
      Moves s (.worker i) ({ s with ran := s.ran ++ [task] }.move i .running)
  | exited {i : Fin capacity} (here : s.workers i = .leave) :
      Moves s (.worker i) (s.release.move i .exited)
  | returned {i : Fin capacity} (here : s.workers i = .running)
      (quiet : s.calls (.worker i) = none) : Moves s (.returns i) (s.move i .lock)
  | woken {i : Fin capacity} (here : s.workers i = .waiting) :
      Moves s (.spurious i) (s.move i .woken)
  | ignored {thread : Thread capacity} : Moves s (.call thread true) s
  | called {thread : Thread capacity} (may : mayCall s thread = true)
      (quiet : s.calls thread = none) :
      Moves s (.call thread false) (s.moveCall thread (some .lock))
  | emplaceLocked {thread : Thread capacity} (here : s.calls thread = some .lock)
      (unlocked : s.mutex = none) :
      Moves s (.emplace thread) ({ s with mutex := some thread }.moveCall thread (some .push))
  | pushed {thread : Thread capacity} (here : s.calls thread = some .push) :
      Moves s (.emplace thread)
        ({ s with tasks := s.tasks ++ [s.enqueued], enqueued := s.enqueued + 1 }.moveCall thread
          (some .unlock))
  | emplaceUnlocked {thread : Thread capacity} (here : s.calls thread = some .unlock) :
      Moves s (.emplace thread) (s.release.moveCall thread (some .notifyOne))
  | notified {thread : Thread capacity} {i : Fin capacity}
      (here : s.calls thread = some .notifyOne) (waiting : s.workers i = .waiting) :
      Moves s (.notifyOne thread (some i)) ((s.move i .woken).moveCall thread none)
  | unheard {thread : Thread capacity} (here : s.calls thread = some .notifyOne)
      (nobody : ∀ i, s.workers i ≠ .waiting) :
      Moves s (.notifyOne thread none) (s.moveCall thread none)
  | destructs (here : s.destructor = .before) : Moves s .destructor { s with destructor := .lock }
  | destructorLocked (here : s.destructor = .lock) (unlocked : s.mutex = none) :
      Moves s .destructor { s with mutex := some .destructor, destructor := .stop }
  | stops (here : s.destructor = .stop) :
      Moves s .destructor { s with stopped := true, destructor := .unlock }
  | destructorUnlocked (here : s.destructor = .unlock) :
      Moves s .destructor { s.release with destructor := .notifyAll }
  | notifiedAll (here : s.destructor = .notifyAll) :
      Moves s .destructor { notifyAll s with destructor := .join }
  | joined (here : s.destructor = .join) (exited : ∀ i, s.workers i = .exited) :
      Moves s .destructor { s with destructor := .joined }

section
variable {s next : State capacity}

theorem moves_of_workerStep {i : Fin capacity} (stepped : workerStep s i = some next) :
    Moves s (.worker i) next := by
  unfold workerStep at stepped
  cases here : s.workers i with
  | lock | woken =>
    simp only [here] at stepped
    obtain ⟨after, acquired, rfl⟩ := Option.map_eq_some_iff.mp stepped
    obtain ⟨unlocked, rfl⟩ := State.acquire_some acquired
    exact .locked (by simp [here]) unlocked
  | test =>
    simp only [here] at stepped
    split at stepped
    · rename_i drained
      split at stepped
      · rename_i stopped
        cases stepped
        exact .gaveUp here (List.isEmpty_iff.mp drained) stopped
      · rename_i running
        cases stepped
        exact .idled here (List.isEmpty_iff.mp drained) (Bool.eq_false_iff.mpr running)
    · rename_i work
      cases stepped
      exact .found here (by rwa [List.isEmpty_iff] at work)
  | sleep =>
    simp only [here, Option.some.injEq] at stepped
    subst next
    exact .slept here
  | dequeue =>
    simp only [here] at stepped
    split at stepped
    · cases stepped
    · rename_i front
      cases stepped
      exact .dequeued here front
  | unlock task =>
    simp only [here, Option.some.injEq] at stepped
    subst next
    exact .unlocked here
  | call task =>
    simp only [here, Option.some.injEq] at stepped
    subst next
    exact .invoked here
  | leave =>
    simp only [here, Option.some.injEq] at stepped
    subst next
    exact .exited here
  | waiting | running | exited => simp [here] at stepped

theorem moves_of_emplaceStep {thread : Thread capacity}
    (stepped : emplaceStep s thread = some next) :
    Moves s (.emplace thread) next := by
  unfold emplaceStep at stepped
  split at stepped
  · rename_i here
    obtain ⟨after, acquired, rfl⟩ := Option.map_eq_some_iff.mp stepped
    obtain ⟨unlocked, rfl⟩ := State.acquire_some acquired
    exact .emplaceLocked here unlocked
  · rename_i here
    cases stepped
    exact .pushed here
  · rename_i here
    cases stepped
    exact .emplaceUnlocked here
  · cases stepped
  · cases stepped

theorem moves_of_destructorStep (stepped : destructorStep s = some next) :
    Moves s .destructor next := by
  unfold destructorStep at stepped
  split at stepped
  · rename_i here
    cases stepped
    exact .destructs here
  · rename_i here
    obtain ⟨after, acquired, rfl⟩ := Option.map_eq_some_iff.mp stepped
    obtain ⟨unlocked, rfl⟩ := State.acquire_some acquired
    exact .destructorLocked here unlocked
  · rename_i here
    cases stepped
    exact .stops here
  · rename_i here
    cases stepped
    exact .destructorUnlocked here
  · rename_i here
    cases stepped
    exact .notifiedAll here
  · rename_i here
    split at stepped
    · rename_i exited
      cases stepped
      exact .joined here exited
    · cases stepped
  · cases stepped

theorem moves_of_step {act : Act capacity} (stepped : step s act = some next) :
    Moves s act next := by
  cases act with
  | worker i => exact moves_of_workerStep stepped
  | returns i =>
    simp only [step] at stepped
    split at stepped
    · rename_i inTask
      cases stepped
      exact .returned inTask.1 inTask.2
    · cases stepped
  | spurious i =>
    simp only [step] at stepped
    split at stepped
    · rename_i waiting
      cases stepped
      exact .woken waiting
    · cases stepped
  | call thread null =>
    simp only [step] at stepped
    split at stepped
    · rename_i may
      cases stepped
      cases null with
      | true => exact .ignored
      | false => exact .called may.1 may.2
    · cases stepped
  | emplace thread => exact moves_of_emplaceStep stepped
  | notifyOne thread waiter =>
    simp only [step] at stepped
    split at stepped
    · rename_i here
      obtain ⟨after, notifies, rfl⟩ := Option.map_eq_some_iff.mp stepped
      unfold notifyOne at notifies
      split at notifies
      · split at notifies
        · rename_i waiting
          cases notifies
          exact .notified here waiting
        · cases notifies
      · split at notifies
        · rename_i nobody
          cases notifies
          exact .unheard here nobody
        · cases notifies
    · cases stepped
  | destructor => exact moves_of_destructorStep stepped

end

end Ladder.Source.ThreadPool

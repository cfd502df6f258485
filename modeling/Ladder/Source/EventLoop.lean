import Mathlib.Data.Fintype.Basic
import Mathlib.Data.List.FinRange
import Mathlib.Logic.Function.Basic

/-!
# EventLoop, EventLoopThread and EventLoopThreadPool

Source: ladder/src/EventLoop.cpp, ladder/src/EventPoller.cpp (epoll),
ladder_client/src/EventLoopThread.cpp, ladder/src/EventLoopThreadPool.cpp. Every loop
has one thread that runs `StartLoop` once: the thread of an `EventLoopThread`, or the
pool thread that takes the loop's task. The owner of the loops stops and joins them.
The two sections locked by `mutex_running_` are one step each. Kernel answers are
arguments of the steps: what `epoll_wait` reports, and whether the pipe takes the
byte that `Wakeup` writes.
-/
namespace Ladder.Source.EventLoop

def kPollLimit : Nat := 64

/-- A channel reported by `Poll`: that of the pipe, or one added with `UpdateChannel`. -/
inductive ActiveChannel where
  | pipe
  | other (id : Nat)
  deriving DecidableEq, Repr

/-- The step the loop's thread makes next. At `start` the thread has been created, or
the task queued, and the locked test of `running_` is still to come. -/
inductive LoopThread where
  | start
  | test
  | poll
  | handle (active : List ActiveChannel)
  | returned
  deriving DecidableEq, Repr

/-- `unread` counts the bytes in the pipe of the loop's poller. -/
structure Loop where
  running : Bool
  unread : Nat
  thread : LoopThread
  deriving DecidableEq, Repr

/-- The locked section of `StartLoop`. -/
def startLoop (loop : Loop) : Loop :=
  if loop.running then { loop with thread := .returned }
  else { loop with running := true, thread := .test }

/-- `Poll` returns after one second at the latest; `EINTR` and a timeout report
nothing. -/
def pollReports (loop : Loop) (active : List ActiveChannel) : Bool :=
  active.length ≤ kPollLimit && (!active.contains .pipe || 0 < loop.unread)

/-- `Channel::HandleEvents`: `Pipe::ReadCallback` reads one byte, other channels do not
touch the loop. -/
def handleEvents (loop : Loop) : ActiveChannel → Loop
  | .pipe => { loop with unread := loop.unread - 1 }
  | .other _ => loop

/-- `StartLoop`. -/
def loopStep (loop : Loop) (active : List ActiveChannel) : Option Loop :=
  match loop.thread with
  | .start => some (startLoop loop)
  | .test => some { loop with thread := if loop.running then .poll else .returned }
  | .poll => if pollReports loop active then some { loop with thread := .handle active } else none
  | .handle (channel :: rest) => some { handleEvents loop channel with thread := .handle rest }
  | .handle [] => some { loop with thread := .test }
  | .returned => none

/-- The locked section of `StopLoop`. -/
def clearRunning (loop : Loop) : Loop := { loop with running := false }

/-- `Wakeup`: a full pipe takes nothing. -/
def wakeup (loop : Loop) (taken : Bool) : Loop :=
  { loop with unread := if taken then loop.unread + 1 else loop.unread }

variable {n : Nat}

/-! ## The owner of the loops -/

/-- `join` waits for all threads: `thread_.join()` of an `EventLoopThread` (at once
when `thread_` has been joined before), `delete pool_` of an `EventLoopThreadPool`. -/
inductive Command (n : Nat) where
  | stopLoop (k : Fin n)
  | join
  deriving DecidableEq, Repr

namespace EventLoopThread

def stop : List (Command 1) := [.stopLoop 0, .join]

/-- Calls of `Stop`, then the destructor, which calls it once more. -/
def uses (stops : Nat) : List (Command 1) := (List.replicate stops stop).flatten ++ stop

end EventLoopThread

namespace EventLoopThreadPool

def kMinEventLoopThreadNum : Nat := 4

/-- `capacity_`, also the number of loops and of pool threads. -/
def capacityOf (capacity : Nat) : Nat := max capacity kMinEventLoopThreadNum

def stop (n : Nat) : List (Command n) := (List.finRange n).map .stopLoop

/-- Calls of `Stop`, then the destructor. -/
def uses (n stops : Nat) : List (Command n) :=
  (List.replicate stops (stop n)).flatten ++ stop n ++ [.join]

end EventLoopThreadPool

/-- `inside` is the loop whose `StopLoop` has cleared `running_` and is about to call
`Wakeup`; `stopped` are the loops on which a `StopLoop` has returned. -/
structure State (n : Nat) where
  loops : Fin n → Loop
  todo : List (Command n)
  inside : Option (Fin n)
  stopped : Fin n → Bool

def init (todo : List (Command n)) : State n :=
  ⟨fun _ => ⟨false, 0, .start⟩, todo, none, fun _ => false⟩

def State.setLoop (s : State n) (k : Fin n) (loop : Loop) : State n :=
  { s with loops := Function.update s.loops k loop }

@[simp] theorem State.setLoop_loops (s : State n) (k j : Fin n) (loop : Loop) :
    (s.setLoop k loop).loops j = if j = k then loop else s.loops j := Function.update_apply ..

def ownerStep (s : State n) (taken : Bool) : Option (State n) :=
  match s.inside, s.todo with
  | some k, _ =>
    some { s.setLoop k (wakeup (s.loops k) taken) with
      inside := none
      stopped := Function.update s.stopped k true }
  | none, .stopLoop k :: rest =>
    some { s.setLoop k (clearRunning (s.loops k)) with todo := rest, inside := some k }
  | none, .join :: rest =>
    if ∀ k, (s.loops k).thread = .returned then some { s with todo := rest } else none
  | none, [] => none

inductive Act (n : Nat) where
  | loop (k : Fin n) (active : List ActiveChannel)
  | owner (taken : Bool)
  deriving DecidableEq, Repr

def step (s : State n) : Act n → Option (State n)
  | .loop k active => (loopStep (s.loops k) active).map (s.setLoop k)
  | .owner taken => ownerStep s taken

end Ladder.Source.EventLoop

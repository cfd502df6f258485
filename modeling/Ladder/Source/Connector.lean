import Mathlib.Data.List.Basic
import Ladder.Library.Words

/-!
# Connector and Timer

Source: ladder_client/src/Connector.cpp, ladder_client/include/Connector.h and
ladder_client/src/Timer.cpp, in the timerfd build. `connect`, the socket error and
the expiry of the timer are inputs. Next to the members of the connector the state
keeps what each call of `Retry` did.
-/
namespace Ladder.Source.Connector

structure Timespec where
  tvSec : Nat
  tvNsec : Nat
  deriving DecidableEq, Repr

/-- `struct itimerspec`. -/
structure Itimerspec where
  itValue : Timespec
  itInterval : Timespec
  deriving DecidableEq, Repr

/-- What the value passed to `timerfd_settime` amounts to. -/
def Timespec.nanoseconds (t : Timespec) : Nat := t.tvSec * 1000000000 + t.tvNsec

def Itimerspec.disarmed : Itimerspec := ⟨⟨0, 0⟩, ⟨0, 0⟩⟩

/-- A zero `it_value` disarms the timer. -/
def Itimerspec.armed (value : Itimerspec) : Bool := value.itValue ≠ ⟨0, 0⟩

/-- `Timer::SetInterval`, for an interval in microseconds. -/
def setInterval (interval : Nat) (periodic : Bool) : Itimerspec :=
  let seconds := interval / 1000000
  let nanoseconds := interval % 1000000 * 1000
  ⟨⟨seconds, nanoseconds⟩, if periodic then ⟨seconds, nanoseconds⟩ else ⟨0, 0⟩⟩

/-- What a call of `Retry` does. -/
inductive Outcome where
  | setInterval (value : Itimerspec)
  | connectionFailureCallback
  deriving DecidableEq, Repr

def kMinRetryInitialTimeout : UInt16 := 5

structure State where
  retry : Int
  maxRetry : Int32
  retryTimeout : UInt16
  timer : Itimerspec
  outcomes : List Outcome
  deriving DecidableEq, Repr

/-- The constructor. -/
def fresh (maxRetry : Int32) (retryInitialTimeout : UInt16) : State :=
  ⟨0, maxRetry, max retryInitialTimeout kMinRetryInitialTimeout, .disarmed, []⟩

/-- `Connector::Retry`; no answer when `retry_ += 1` overflows an `int`. -/
def retry (c : State) : Option State :=
  if c.retry + 1 < 2 ^ 31 then
    let c := { c with retry := c.retry + 1 }
    if c.retry ≤ c.maxRetry.toInt then
      let value := setInterval (c.retryTimeout.toNat * 1000) false
      some { c with
        timer := value
        retryTimeout := c.retryTimeout <<< 1
        outcomes := c.outcomes ++ [.setInterval value] }
    else some { c with outcomes := c.outcomes ++ [.connectionFailureCallback] }
  else none

/-- The result of `connect`: success, or `errno`. -/
inductive ConnectResult where
  | success
  | einprogress
  | eintr
  | eisconn
  | eagain
  | eaddrinuse
  | eaddrnotavail
  | econnrefused
  | enetunreach
  | other
  deriving DecidableEq, Repr

/-- The results that lead to `Retry`. -/
def ConnectResult.failed : ConnectResult → Bool
  | .success | .einprogress | .eintr | .eisconn => false
  | .eagain | .eaddrinuse | .eaddrnotavail | .econnrefused | .enetunreach => true
  | .other => true

/-- `Connector::Start`. -/
def start (result : ConnectResult) (c : State) : Option State :=
  if result.failed then retry c else some c

/-- `Connector::HandleConnect`; without a socket error the connection callback runs. -/
def handleConnect (sockErr : Bool) (c : State) : Option State :=
  if sockErr then retry c else some c

/-- The client starts the connector, the one-shot timer expires, or the channel of the
connection reports an event. -/
inductive Act where
  | start (result : ConnectResult)
  | onTimer (result : ConnectResult)
  | handleConnect (sockErr : Bool)
  | errorCallback
  | closeCallback
  deriving DecidableEq, Repr

def step (c : State) : Act → Option State
  | .start result => start result c
  | .onTimer result => if c.timer.armed then start result { c with timer := .disarmed } else none
  | .handleConnect sockErr => handleConnect sockErr c
  | .errorCallback => retry c
  | .closeCallback => retry c

/-! ## What a step can do -/

/-- A step leaves the counters alone, or it is one call of `Retry`. -/
theorem step_cases {c next : State} {act : Act} (stepped : step c act = some next) :
    ∃ timer, next = { c with timer := timer } ∨ retry { c with timer := timer } = some next := by
  cases act with
  | start result =>
    refine ⟨c.timer, ?_⟩
    simp only [step, start] at stepped
    split at stepped
    · exact .inr stepped
    · exact .inl (Option.some.inj stepped).symm
  | onTimer result =>
    refine ⟨.disarmed, ?_⟩
    simp only [step, start] at stepped
    split at stepped
    · split at stepped
      · exact .inr stepped
      · exact .inl (Option.some.inj stepped).symm
    · cases stepped
  | handleConnect sockErr =>
    refine ⟨c.timer, ?_⟩
    simp only [step, handleConnect] at stepped
    split at stepped
    · exact .inr stepped
    · exact .inl (Option.some.inj stepped).symm
  | errorCallback => exact ⟨c.timer, .inr stepped⟩
  | closeCallback => exact ⟨c.timer, .inr stepped⟩

/-- `SetInterval` keeps the interval to the nanosecond. -/
theorem setInterval_nanoseconds (interval : Nat) (periodic : Bool) :
    (setInterval interval periodic).itValue.nanoseconds = interval * 1000 := by
  simp only [setInterval, Timespec.nanoseconds]
  omega

theorem setInterval_armed_iff (interval : Nat) (periodic : Bool) :
    (setInterval interval periodic).armed = true ↔ interval ≠ 0 := by
  simp only [Itimerspec.armed, setInterval, ne_eq, decide_eq_true_eq, Timespec.mk.injEq]
  omega

end Ladder.Source.Connector

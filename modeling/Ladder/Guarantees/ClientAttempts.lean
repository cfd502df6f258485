import Ladder.Guarantees.ReconnectBackoff
import Ladder.Source.ClientConnector

/-!
# The attempts of a client

Runs of a client with its connector: calls of `Connect` and `Disconnect`, expiries of the
timer, reports on attempts and the end of connections. Attempts may be reported on any number
of times: a refused `connect` calls `Retry`, and EPOLLHUP of the same socket calls it once
more. Every report counts as a failed attempt, so a client gives up when the attempts and the
repeated reports together have used up what it may make; and only a repeated report can end
the attempts while the timer is armed.
-/
namespace Ladder.Guarantees.ClientAttempts
open Ladder.Library Ladder.Source Ladder.Source.ClientConnector
open Ladder.Guarantees.ReconnectBackoff (Fits firstTimeout outcomeAt)

variable {maxRetry : Int32} {timeout : UInt16}

def armed (s : State) : Bool := s.connector.any fun k => k.timer.armed

/-- The channel reports on attempts while there are some, the timer expires in between, a
connection that is there may end. -/
def orderly (s : State) : Act → Bool
  | .handleConnect _ | .errorCallback | .closeCallback => s.client.conn = some .attempting
  | .onTimer _ => s.client.conn = some .attempting && armed s
  | .onCloseConnectionCallback =>
    s.client.conn = some .established || s.client.conn = some .shutDown
  | .connect _ | .disconnect => true

/-- An attempt is under way, or the next one waits for the timer. -/
structure Attempting (maxRetry : Int32) (timeout : UInt16) (s : State) (k : Connector.State) :
    Prop where
  connector : s.connector = some k
  backoff : ReconnectBackoff.Inv timeout maxRetry k
  limit : k.outcomes.length ≤ maxRetry.toInt.toNat
  turn : s.pending = !k.timer.armed
  attempts : s.attempts + s.repeated = k.outcomes.length + if s.pending then 1 else 0

structure Inv (maxRetry : Int32) (timeout : UInt16) (s : State) : Prop where
  client : ∃ acts, run TcpClient.step TcpClient.start acts = some s.client
  during : s.client.conn = some .attempting → ∃ k, Attempting maxRetry timeout s k
  quiet : s.client.conn ≠ some .attempting → s.pending = false ∧ (armed s = true → 0 < s.repeated)
  givenUp : s.client.conn = none → s.connector.isSome = true →
    s.attempts + s.repeated = maxRetry.toInt.toNat + 1

theorem client_step {s s' : TcpClient.State} (act : TcpClient.Act)
    (reached : ∃ acts, run TcpClient.step TcpClient.start acts = some s)
    (stepped : TcpClient.step s act = some s') :
    ∃ acts, run TcpClient.step TcpClient.start acts = some s' := by
  obtain ⟨acts, reached⟩ := reached
  refine ⟨acts ++ [act], ?_⟩
  rw [run_append, reached]
  exact run_single stepped

theorem disconnect_conn (s : TcpClient.State) :
    ((TcpClient.disconnect s).conn = some .attempting ↔ s.conn = some .attempting) ∧
      ((TcpClient.disconnect s).conn = none ↔ s.conn = none) := by
  unfold TcpClient.disconnect
  split
  · exact ⟨.rfl, .rfl⟩
  · rcases s with ⟨status, _ | _ | _ | _ | _⟩ <;> simp [TcpClient.shutDownWrite]

/-! ## Retry -/

theorem toNat_small (fits : Fits timeout maxRetry) : maxRetry.toInt.toNat < 2 ^ 31 - 1 := by
  rcases fits with never | small
  · omega
  · by_contra large
    have power : 2 ^ 16 ≤ 2 ^ (maxRetry.toInt.toNat - 1) :=
      Nat.pow_le_pow_right (by decide) (by omega)
    have first : 1 ≤ max timeout.toNat 5 := Nat.le_trans (by decide) (Nat.le_max_right _ 5)
    have := Nat.mul_le_mul first power
    omega

/-- Before the last attempt, `Retry` arms the timer. -/
theorem retry_arms (fits : Fits timeout maxRetry) {k : Connector.State}
    (backoff : ReconnectBackoff.Inv timeout maxRetry k)
    (more : k.outcomes.length < maxRetry.toInt.toNat) :
    ∃ k', Connector.retry k = some k' ∧ ReconnectBackoff.Inv timeout maxRetry k' ∧
      k'.outcomes.length = k.outcomes.length + 1 ∧ k'.timer.armed = true ∧
      k'.outcomes.getLast? ≠ some .connectionFailureCallback := by
  have bound := toNat_small fits
  have counted : k.retry + 1 < 2 ^ 31 := by
    rw [backoff.counted]
    omega
  have retries : k.retry + 1 ≤ k.maxRetry.toInt := by
    rw [backoff.counted, backoff.limit]
    omega
  let value := Connector.setInterval (k.retryTimeout.toNat * 1000) false
  let k' : Connector.State :=
    { k with
      retry := k.retry + 1
      timer := value
      retryTimeout := k.retryTimeout <<< 1
      outcomes := k.outcomes ++ [.setInterval value] }
  have retried : Connector.retry k = some k' := by
    rw [Connector.retry, if_pos counted]
    exact if_pos retries
  obtain ⟨backoff', length⟩ := ReconnectBackoff.inv_retry backoff retried
  refine ⟨k', retried, backoff', length, ?_, ?_⟩
  · -- the field holds the timeout that is due, which is not zero
    have now := backoff.timeout
    rw [Nat.min_eq_left (Nat.le_of_lt more), fits.timeout (by omega)] at now
    have first : 0 < firstTimeout timeout := Nat.lt_of_lt_of_le (by decide) (Nat.le_max_right _ 5)
    have power : 0 < 2 ^ k.outcomes.length := Nat.pow_pos (by decide)
    have positive := Nat.mul_pos first power
    rw [Connector.setInterval_armed_iff]
    omega
  · simp [k']

/-- After it, the failure callback runs. -/
theorem retry_gives_up (fits : Fits timeout maxRetry) {k : Connector.State}
    (backoff : ReconnectBackoff.Inv timeout maxRetry k)
    (last : k.outcomes.length = maxRetry.toInt.toNat) :
    ∃ k', Connector.retry k = some k' ∧ k'.timer = k.timer ∧
      k'.outcomes.getLast? = some .connectionFailureCallback := by
  have bound := toNat_small fits
  have counted : k.retry + 1 < 2 ^ 31 := by
    rw [backoff.counted]
    omega
  have spent : ¬ k.retry + 1 ≤ k.maxRetry.toInt := by
    rw [backoff.counted, backoff.limit]
    omega
  refine ⟨{ k with retry := k.retry + 1, outcomes := k.outcomes ++ [.connectionFailureCallback] },
    ?_, rfl, ?_⟩
  · rw [Connector.retry, if_pos counted]
    exact if_neg spent
  · simp

/-- A report that comes while the timer is armed is a repeated one. -/
theorem reported_repeated {s : State} (armed : s.pending = false) : 0 < (reported s).repeated := by
  rw [reported, armed]
  exact Nat.succ_pos _

/-- A report takes the place of the attempt that was pending, or adds to the repeated ones. -/
theorem reported_total {s : State} {n : Nat}
    (total : s.attempts + s.repeated = n + if s.pending then 1 else 0) :
    (reported s).attempts + (reported s).repeated = n + 1 := by
  unfold reported
  dsimp only
  cases pending : s.pending with
  | true =>
    rw [pending] at total
    exact total
  | false =>
    rw [pending] at total
    exact congrArg (· + 1) total

section
variable (fits : Fits timeout maxRetry) {s : State} {k : Connector.State}
include fits

/-- `Retry` after a report. -/
theorem retry_inv (client : ∃ acts, run TcpClient.step TcpClient.start acts = some s.client)
    (during : s.client.conn = some .attempting) (under : Attempting maxRetry timeout s k) :
    ∃ next, retry k s = some next ∧ Inv maxRetry timeout next := by
  have total := reported_total under.attempts
  have limit := under.limit
  by_cases more : k.outcomes.length < maxRetry.toInt.toNat
  · obtain ⟨k', retried, backoff', length, isArmed, goes⟩ := retry_arms fits under.backoff more
    refine ⟨{ reported s with connector := some k' }, ?_, client,
      fun _ => ⟨k', rfl, backoff', by omega, ?_, ?_⟩, fun other => absurd during other, ?_⟩
    · rw [retry, retried]
      exact if_neg goes
    · rw [isArmed]
      rfl
    · rw [length]
      exact total
    · intro gone
      change s.client.conn = none at gone
      rw [during] at gone
      cases gone
  · have last : k.outcomes.length = maxRetry.toInt.toNat := by omega
    obtain ⟨k', retried, timer, fails⟩ := retry_gives_up fits under.backoff last
    refine ⟨{ reported s with
        client := TcpClient.onConnectionFailureCallback s.client, connector := some k' }, ?_, ?_,
      (fun again => by cases again), fun _ => ⟨rfl, fun left => ?_⟩, fun _ _ => ?_⟩
    · rw [retry, retried]
      simp only [Option.bind_eq_bind, Option.bind_some, fails, if_true, reported, during,
        Option.isSome_some]
      rfl
    · exact client_step .onConnectionFailureCallback client (if_pos during)
    · rw [armed, Option.any_some, timer] at left
      refine reported_repeated ?_
      rw [under.turn, left]
      rfl
    · rw [← last]
      exact total

/-- `Start` makes the next attempt. -/
theorem start_inv (client : ∃ acts, run TcpClient.step TcpClient.start acts = some s.client)
    (during : s.client.conn = some .attempting) (backoff : ReconnectBackoff.Inv timeout maxRetry k)
    (limit : k.outcomes.length ≤ maxRetry.toInt.toNat) (idle : k.timer.armed = false)
    (attempts : s.attempts + s.repeated = k.outcomes.length) (result : Connector.ConnectResult) :
    ∃ next, start result k s = some next ∧ Inv maxRetry timeout next := by
  have under : Attempting maxRetry timeout
      { s with connector := some k, attempts := s.attempts + 1, pending := true } k := by
    refine ⟨rfl, backoff, limit, ?_, ?_⟩
    · rw [idle]
      rfl
    · dsimp only
      rw [if_pos rfl]
      omega
  rw [start, if_pos during]
  cases failed : result.failed with
  | true =>
    rw [if_pos rfl]
    exact retry_inv fits client during under
  | false =>
    refine ⟨_, rfl, client, fun _ => ⟨k, under⟩, fun other => absurd during other, ?_⟩
    intro gone
    change s.client.conn = none at gone
    rw [during] at gone
    cases gone

/-- A call or an event of an orderly run. -/
theorem step_inv (act : Act) (inv : Inv maxRetry timeout s) (allowed : orderly s act = true) :
    ∃ next, step maxRetry timeout s act = some next ∧ Inv maxRetry timeout next := by
  have reports (during : s.client.conn = some .attempting) :
      ∃ k next, attempting s = some k ∧ retry k s = some next ∧ Inv maxRetry timeout next := by
    obtain ⟨k, under⟩ := inv.during during
    obtain ⟨next, retried, inv'⟩ := retry_inv fits inv.client during under
    refine ⟨k, next, ?_, retried, inv'⟩
    rw [attempting, if_pos during, under.connector]
  cases act with
  | connect result =>
    rw [step]
    cases called : TcpClient.connect s.client with
    | error message => exact ⟨s, rfl, inv⟩
    | ok client =>
      have stepped : TcpClient.step s.client .connect = some client := by
        rw [TcpClient.step, called]
      have during : client.conn = some .attempting := by
        unfold TcpClient.connect at called
        split at called
        · cases called
        · cases called
          rfl
      exact start_inv fits (s := ⟨client, some _, 0, false, 0⟩)
        (client_step .connect inv.client stepped)
        during (ReconnectBackoff.inv_fresh timeout maxRetry) (Nat.zero_le _) rfl rfl result
  | disconnect =>
    obtain ⟨same, gone⟩ := disconnect_conn s.client
    refine ⟨_, rfl, client_step .disconnect inv.client rfl, fun during => ?_,
      fun other => ?_, fun none_ => ?_⟩
    · obtain ⟨k, under⟩ := inv.during (same.mp during)
      exact ⟨k, under.connector, under.backoff, under.limit, under.turn, under.attempts⟩
    · exact inv.quiet fun during => other (same.mpr during)
    · exact inv.givenUp (gone.mp none_)
  | onTimer result =>
    simp only [orderly, Bool.and_eq_true, decide_eq_true_eq] at allowed
    obtain ⟨during, expired⟩ := allowed
    obtain ⟨k, connector, backoff, limit, turn, attempts⟩ := inv.during during
    rw [armed, connector, Option.any_some] at expired
    rw [expired] at turn
    rw [turn] at attempts
    obtain ⟨next, started, inv'⟩ := start_inv fits inv.client during
      (k := { k with timer := .disarmed })
        ⟨backoff.limit, backoff.counted, backoff.timeout, backoff.outcomes⟩
      limit rfl attempts result
    refine ⟨next, ?_, inv'⟩
    rw [step, connector]
    dsimp only
    rw [if_pos expired]
    exact started
  | handleConnect sockErr =>
    have during : s.client.conn = some .attempting := of_decide_eq_true allowed
    obtain ⟨k, next, found, retried, inv'⟩ := reports during
    rw [step, found]
    cases sockErr with
    | true => exact ⟨next, retried, inv'⟩
    | false =>
      obtain ⟨k, under⟩ := inv.during during
      refine ⟨_, rfl, client_step .onConnectionCallback inv.client (if_pos during),
        (fun again => by cases again), fun _ => ⟨rfl, fun left => ?_⟩, fun gone => by cases gone⟩
      change s.connector.any _ = true at left
      rw [under.connector, Option.any_some] at left
      refine reported_repeated ?_
      rw [under.turn, left]
      rfl
  | errorCallback =>
    obtain ⟨k, next, found, retried, inv'⟩ := reports (of_decide_eq_true allowed)
    refine ⟨next, ?_, inv'⟩
    rw [step, found]
    exact retried
  | closeCallback =>
    obtain ⟨k, next, found, retried, inv'⟩ := reports (of_decide_eq_true allowed)
    refine ⟨next, ?_, inv'⟩
    rw [step, found]
    exact retried
  | onCloseConnectionCallback =>
    have ends : s.client.conn = some .established ∨ s.client.conn = some .shutDown := by
      simpa [orderly] using allowed
    have other : s.client.conn ≠ some .attempting := by
      rcases ends with ends | ends <;> rw [ends] <;> simp
    refine ⟨_, if_pos ends, client_step .onCloseConnectionCallback inv.client (if_pos ends),
      (fun again => by cases again), fun _ => inv.quiet other, fun gone => by cases gone⟩

end

theorem inv_initial (maxRetry : Int32) (timeout : UInt16) : Inv maxRetry timeout initial :=
  ⟨⟨[], rfl⟩, (fun during => by cases during), fun _ => ⟨rfl, fun left => by cases left⟩,
    fun _ made => by cases made⟩

/-- The expiry of a timer finds no connection. -/
theorem onTimer_stops {s : State} (gone : s.client.conn = none) (result : Connector.ConnectResult) :
    step maxRetry timeout s (.onTimer result) = none := by
  rw [step]
  cases s.connector with
  | none => rfl
  | some k =>
    dsimp only
    split
    · rw [start, if_neg (by rw [gone]; exact nofun)]
    · rfl

/-- Three retries are allowed, and every attempt is refused at once; the channel reports on
the first one again. -/
def refusedAndHungUp : List Act :=
  [.connect .econnrefused, .closeCallback, .onTimer .econnrefused, .onTimer .econnrefused]

end Ladder.Guarantees.ClientAttempts

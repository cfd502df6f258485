import Ladder.Library.Runs
import Ladder.Source.Connector

/-!
# Reconnecting with exponential back-off

A run of the connector is any sequence of starts, expiries of its timer and events
of its channel. What the `k`-th call of `Retry` does is a function of `k`, whatever
led to the call: the invariant says so, and the 16-bit field that holds the timeout
decides for which initial timeouts and retry limits the interval really doubles.
-/
namespace Ladder.Guarantees.ReconnectBackoff
open Ladder.Library Ladder.Source Ladder.Source.Connector

/-- The timeout of the first retry, in milliseconds. -/
def firstTimeout (initial : UInt16) : Nat := max initial.toNat 5

/-- What the call of `Retry` with the given index (from 0) does. -/
def outcomeAt (initial : UInt16) (maxRetry : Int32) (k : Nat) : Outcome :=
  if (k : Int) + 1 ≤ maxRetry.toInt then
    .setInterval (setInterval (firstTimeout initial * 2 ^ k % 2 ^ 16 * 1000) false)
  else .connectionFailureCallback

/-- Every retry waits exactly twice as long as the one before it. -/
structure ExactBackoff (initial : UInt16) (maxRetry : Int32) (outcomes : List Outcome) : Prop where
  exact : ∀ (k : Nat) (outcome : Outcome), outcomes[k]? = some outcome →
    (k : Int) + 1 ≤ maxRetry.toInt →
    ∃ value, outcome = .setInterval value ∧
      value.itValue.nanoseconds = max initial.toNat 5 * 2 ^ k * 1000000
  armed : ∀ value, Outcome.setInterval value ∈ outcomes → value.armed = true
  growing : ∀ (j k : Nat) (earlier later : Itimerspec), j ≤ k →
    outcomes[j]? = some (.setInterval earlier) → outcomes[k]? = some (.setInterval later) →
    earlier.itValue.nanoseconds ≤ later.itValue.nanoseconds

/-! ## The invariant -/

structure Inv (initial : UInt16) (maxRetry : Int32) (c : State) : Prop where
  limit : c.maxRetry = maxRetry
  counted : c.retry = c.outcomes.length
  timeout : c.retryTimeout.toNat =
    firstTimeout initial * 2 ^ min c.outcomes.length maxRetry.toInt.toNat % 2 ^ 16
  outcomes : c.outcomes = (List.range c.outcomes.length).map (outcomeAt initial maxRetry)

variable {initial : UInt16} {maxRetry : Int32} {c next : State}

theorem inv_fresh (initial : UInt16) (maxRetry : Int32) :
    Inv initial maxRetry (fresh maxRetry initial) := by
  have first : (max initial kMinRetryInitialTimeout).toNat = firstTimeout initial := by
    rw [UInt16.toNat_max]
    rfl
  have small : firstTimeout initial < 2 ^ 16 := by
    rw [← first]
    exact UInt16.toNat_lt _
  refine ⟨rfl, rfl, ?_, rfl⟩
  simp only [fresh, first, List.length_nil, Nat.zero_min, Nat.pow_zero, Nat.mul_one]
  exact (Nat.mod_eq_of_lt small).symm

/-- The shift in the 16-bit field. -/
theorem doubled (timeout : UInt16) {first n : Nat} (now : timeout.toNat = first * 2 ^ n % 2 ^ 16) :
    (timeout <<< 1).toNat = first * 2 ^ (n + 1) % 2 ^ 16 := by
  have shift : (timeout <<< 1).toNat = timeout.toNat * 2 % 2 ^ 16 := by
    rw [UInt16.toNat_shiftLeft]
    exact congrArg (· % 2 ^ 16) (Nat.shiftLeft_eq timeout.toNat 1)
  rw [shift, now, Nat.mod_mul_mod, Nat.mul_assoc, ← Nat.pow_succ]

theorem inv_retry (inv : Inv initial maxRetry c) (retried : retry c = some next) :
    Inv initial maxRetry next ∧ next.outcomes.length = c.outcomes.length + 1 := by
  have counted := inv.counted
  simp only [retry, inv.limit, counted] at retried
  split at retried
  · split at retried
    · rename_i more
      cases retried
      have before : min c.outcomes.length maxRetry.toInt.toNat = c.outcomes.length := by omega
      have after : min (c.outcomes.length + 1) maxRetry.toInt.toNat =
          c.outcomes.length + 1 := by omega
      have timeout := inv.timeout
      rw [before] at timeout
      have added : Outcome.setInterval (setInterval (c.retryTimeout.toNat * 1000) false) =
          outcomeAt initial maxRetry c.outcomes.length := by
        rw [outcomeAt, if_pos more, timeout]
      refine ⟨⟨rfl, ?_, ?_, ?_⟩, by simp⟩
      · simp
      · simp only [List.length_append, List.length_cons, List.length_nil, Nat.zero_add, after]
        exact doubled c.retryTimeout timeout
      · simp only [List.length_append, List.length_cons, List.length_nil, Nat.zero_add,
          List.range_succ, List.map_append, List.map_cons, List.map_nil, ← inv.outcomes, added]
    · rename_i spent
      cases retried
      have same : min (c.outcomes.length + 1) maxRetry.toInt.toNat =
          min c.outcomes.length maxRetry.toInt.toNat := by omega
      have added : Outcome.connectionFailureCallback =
          outcomeAt initial maxRetry c.outcomes.length := by
        rw [outcomeAt, if_neg spent]
      refine ⟨⟨rfl, ?_, ?_, ?_⟩, by simp⟩
      · simp
      · simp only [List.length_append, List.length_cons, List.length_nil, Nat.zero_add, same]
        exact inv.timeout
      · simp only [List.length_append, List.length_cons, List.length_nil, Nat.zero_add,
          List.range_succ, List.map_append, List.map_cons, List.map_nil, ← inv.outcomes, added]
  · cases retried

theorem inv_step (c : State) (act : Act) (next : State) (inv : Inv initial maxRetry c)
    (stepped : step c act = some next) : Inv initial maxRetry next := by
  obtain ⟨timer, rfl | retried⟩ := step_cases stepped
  · exact ⟨inv.limit, inv.counted, inv.timeout, inv.outcomes⟩
  · have inv' : Inv initial maxRetry { c with timer := timer } :=
      ⟨inv.limit, inv.counted, inv.timeout, inv.outcomes⟩
    exact (inv_retry inv' retried).1

/-- The outcome of a call by its index. -/
theorem Inv.outcome {k : Nat} {outcome : Outcome} (inv : Inv initial maxRetry c)
    (call : c.outcomes[k]? = some outcome) : outcome = outcomeAt initial maxRetry k := by
  rw [inv.outcomes, List.getElem?_map] at call
  obtain ⟨index, here, eq⟩ := Option.map_eq_some_iff.mp call
  obtain ⟨_, same⟩ := List.getElem?_eq_some_iff.mp here
  rw [List.getElem_range] at same
  rw [← eq, same]

/-! ## Where the 16-bit field is wide enough -/

/-- The last timeout still fits. -/
def Fits (initial : UInt16) (maxRetry : Int32) : Prop :=
  maxRetry.toInt ≤ 0 ∨ max initial.toNat 5 * 2 ^ (maxRetry.toInt.toNat - 1) < 2 ^ 16

theorem Fits.timeout {k : Nat} (fits : Fits initial maxRetry)
    (retries : (k : Int) + 1 ≤ maxRetry.toInt) :
    firstTimeout initial * 2 ^ k % 2 ^ 16 = firstTimeout initial * 2 ^ k := by
  apply Nat.mod_eq_of_lt
  rcases fits with never | small
  · omega
  · have power : 2 ^ k ≤ 2 ^ (maxRetry.toInt.toNat - 1) :=
      Nat.pow_le_pow_right (by decide) (by omega)
    exact Nat.lt_of_le_of_lt (Nat.mul_le_mul_left _ power) small

/-- The interval set by the call with the given index. -/
theorem Inv.interval {k : Nat} {value : Itimerspec} (inv : Inv initial maxRetry c)
    (fits : Fits initial maxRetry) (call : c.outcomes[k]? = some (.setInterval value)) :
    (k : Int) + 1 ≤ maxRetry.toInt ∧
    value = setInterval (firstTimeout initial * 2 ^ k * 1000) false := by
  have outcome := inv.outcome call
  unfold outcomeAt at outcome
  split at outcome
  · rename_i retries
    rw [fits.timeout retries] at outcome
    exact ⟨retries, Outcome.setInterval.inj outcome⟩
  · cases outcome

theorem Inv.exactBackoff (inv : Inv initial maxRetry c) (fits : Fits initial maxRetry) :
    ExactBackoff initial maxRetry c.outcomes := by
  refine ⟨?_, ?_, ?_⟩
  · intro k outcome call retries
    have eq := inv.outcome call
    rw [outcomeAt, if_pos retries, fits.timeout retries] at eq
    refine ⟨_, eq, ?_⟩
    rw [setInterval_nanoseconds, firstTimeout, Nat.mul_assoc]
  · intro value member
    obtain ⟨k, call⟩ := List.getElem?_of_mem member
    obtain ⟨-, rfl⟩ := inv.interval fits call
    rw [setInterval_armed_iff]
    have first : 0 < firstTimeout initial := Nat.lt_of_lt_of_le (by decide) (Nat.le_max_right _ 5)
    have power : 0 < 2 ^ k := Nat.pow_pos (by decide)
    exact Nat.ne_of_gt (Nat.mul_pos (Nat.mul_pos first power) (by decide))
  · intro j k earlier later before first second
    obtain ⟨-, rfl⟩ := inv.interval fits first
    obtain ⟨-, rfl⟩ := inv.interval fits second
    rw [setInterval_nanoseconds, setInterval_nanoseconds]
    have power : 2 ^ j ≤ 2 ^ k := Nat.pow_le_pow_right (by decide) before
    exact Nat.mul_le_mul_right _ (Nat.mul_le_mul_right _ (Nat.mul_le_mul_left _ power))

/-- As many failures in a row as an `int` can count. -/
theorem run_failures (initial : UInt16) (maxRetry : Int32) {n : Nat} (counted : n < 2 ^ 31) :
    ∃ c, run step (fresh maxRetry initial) (List.replicate n .errorCallback) = some c ∧
      Inv initial maxRetry c ∧ c.outcomes.length = n := by
  induction n with
  | zero => exact ⟨_, rfl, inv_fresh initial maxRetry, rfl⟩
  | succ n ih =>
    obtain ⟨c, reached, inv, length⟩ := ih (by omega)
    have possible : c.retry + 1 < 2 ^ 31 := by
      rw [inv.counted, length]
      omega
    obtain ⟨next, retried⟩ : ∃ next, retry c = some next := by
      simp only [retry, if_pos possible]
      split
      · exact ⟨_, rfl⟩
      · exact ⟨_, rfl⟩
    obtain ⟨inv', length'⟩ := inv_retry inv retried
    refine ⟨next, ?_, inv', by omega⟩
    rw [List.replicate_succ', run_append, reached]
    exact run_single retried

/-- In every run each retry waits exactly `max(initial, 5) * 2^(k-1)` milliseconds,
precisely for those limits whose last timeout fits the 16-bit field. -/
theorem backoff_exact_iff (initial : UInt16) (maxRetry : Int32) :
    (∀ acts c, run step (fresh maxRetry initial) acts = some c →
        ExactBackoff initial maxRetry c.outcomes) ↔
      maxRetry.toInt ≤ 0 ∨ max initial.toNat 5 * 2 ^ (maxRetry.toInt.toNat - 1) < 2 ^ 16 := by
  constructor
  · intro always
    by_contra beyond
    rw [not_or, Int.not_le, Nat.not_lt] at beyond
    obtain ⟨positive, large⟩ := beyond
    have bound := Int32.toInt_lt maxRetry
    obtain ⟨c, reached, inv, length⟩ :=
      run_failures initial maxRetry (n := maxRetry.toInt.toNat) (by omega)
    -- the last retry allowed finds the timeout reduced modulo 2^16
    let k := maxRetry.toInt.toNat - 1
    have retries : (k : Int) + 1 ≤ maxRetry.toInt := by omega
    have call : c.outcomes[k]? = some (outcomeAt initial maxRetry k) := by
      rw [inv.outcomes, List.getElem?_map, List.getElem?_range (by omega)]
      rfl
    obtain ⟨value, eq, exact⟩ := (always _ c reached).exact k _ call retries
    rw [outcomeAt, if_pos retries, Outcome.setInterval.injEq] at eq
    rw [← eq, setInterval_nanoseconds, firstTimeout] at exact
    have cut := Nat.mod_lt (max initial.toNat 5 * 2 ^ k) (show 0 < 2 ^ 16 by decide)
    change 2 ^ 16 ≤ max initial.toNat 5 * 2 ^ k at large
    omega
  · intro fits acts c reached
    exact (run_invariant inv_step (inv_fresh initial maxRetry) reached).exactBackoff fits

/-- Initial timeout 32768, two retries allowed: both attempts are refused. -/
def refusedTwice : List Act := [.start .econnrefused, .onTimer .econnrefused]

/-- The second retry disarms the timer, so it never expires, and nobody is told. -/
theorem backoff_disarms :
    (run step (fresh 2 32768) refusedTwice).map (fun c => (c.outcomes, c.timer.armed)) =
      some ([.setInterval ⟨⟨32, 768000000⟩, ⟨0, 0⟩⟩, .setInterval ⟨⟨0, 0⟩, ⟨0, 0⟩⟩], false) := by
  decide

end Ladder.Guarantees.ReconnectBackoff

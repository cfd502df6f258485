import Ladder.Library.Runs
import Ladder.Source.EventLoop

/-!
# Stopping an event loop

`StopLoop` only clears `running_`, and `StartLoop` sets it when it gets going. A stop
that comes first is forgotten. One that comes later is final: nothing sets
`running_` again, and the loop's thread returns within a bounded number of its own
steps.
-/
namespace Ladder.Guarantees.LoopStop
open Ladder.Library Ladder.Source.EventLoop

variable {n : Nat}

/-- `StopLoop` clears `running_` only after `StartLoop` has set it. -/
def Started (s : State n) : Act n → Prop
  | .owner _ =>
    match s.inside, s.todo with
    | none, .stopLoop k :: _ => (s.loops k).thread ≠ .start
    | _, _ => True
  | .loop _ _ => True

instance (s : State n) (act : Act n) : Decidable (Started s act) := by
  unfold Started
  split
  · split <;> infer_instance
  · infer_instance

/-- The loop will not run again. -/
structure Final (loop : Loop) : Prop where
  started : loop.thread ≠ .start
  cleared : loop.running = false

/-- The steps the thread of a stopped loop has left, at most. -/
def stepsLeft : LoopThread → Nat
  | .start | .poll => kPollLimit + 3
  | .handle active => active.length + 2
  | .test => 1
  | .returned => 0

theorem loopStep_final {loop next : Loop} {active : List ActiveChannel} (final : Final loop)
    (stepped : loopStep loop active = some next) :
    Final next ∧ stepsLeft next.thread + 1 ≤ stepsLeft loop.thread := by
  have cleared := final.cleared
  unfold loopStep at stepped
  split at stepped
  · rename_i here
    exact absurd here final.started
  · rename_i here
    cases stepped
    simp [here, cleared, stepsLeft, Final.mk]
  · rename_i here
    split at stepped
    · rename_i reports
      cases stepped
      simp only [pollReports, Bool.and_eq_true, decide_eq_true_eq] at reports
      refine ⟨⟨nofun, cleared⟩, ?_⟩
      simp only [here, stepsLeft]
      omega
    · cases stepped
  · rename_i channel rest here
    cases stepped
    refine ⟨⟨nofun, ?_⟩, ?_⟩
    · cases channel <;> exact cleared
    · simp only [here, stepsLeft, List.length_cons]
      omega
  · rename_i here
    cases stepped
    refine ⟨⟨nofun, cleared⟩, ?_⟩
    simp [here, stepsLeft]
  · cases stepped

/-- A round of the loop handles no more channels than `Poll` can report. -/
def Bounded (loop : Loop) : Prop := stepsLeft loop.thread ≤ kPollLimit + 3

theorem loopStep_bounded {loop next : Loop} {active : List ActiveChannel} (bounded : Bounded loop)
    (stepped : loopStep loop active = some next) : Bounded next := by
  unfold Bounded at *
  unfold loopStep at stepped
  split at stepped
  · cases stepped
    unfold startLoop
    split <;> simp [stepsLeft]
  · cases stepped
    simp only
    split <;> simp [stepsLeft]
  · split at stepped
    · rename_i reports
      cases stepped
      simp only [pollReports, Bool.and_eq_true, decide_eq_true_eq] at reports
      simp only [stepsLeft]
      omega
    · cases stepped
  · rename_i here
    cases stepped
    simp only [here, stepsLeft, List.length_cons] at bounded ⊢
    omega
  · cases stepped
    simp [stepsLeft]
  · cases stepped

theorem loopStep_enabled {loop : Loop} (working : loop.thread ≠ .returned) :
    ∃ next, loopStep loop [] = some next := by
  unfold loopStep
  split
  · exact ⟨_, rfl⟩
  · exact ⟨_, rfl⟩
  · exact ⟨_, if_pos rfl⟩
  · exact ⟨_, rfl⟩
  · exact ⟨_, rfl⟩
  · contradiction

def isLoop (k : Fin n) : Act n → Bool
  | .loop j _ => j == k
  | .owner _ => false

/-- What the owner can do to a loop: nothing, clear `running_`, or write to its pipe. -/
theorem ownerStep_loops {s next : State n} {taken : Bool} (stepped : ownerStep s taken = some next)
    (k : Fin n) :
    next.loops k = s.loops k ∨ next.loops k = clearRunning (s.loops k) ∨
      next.loops k = wakeup (s.loops k) taken := by
  unfold ownerStep at stepped
  split at stepped
  · rename_i j _ _
    cases stepped
    simp only [State.setLoop_loops]
    split
    · rename_i same
      subst same
      exact .inr (.inr rfl)
    · exact .inl rfl
  · rename_i j rest _ _
    cases stepped
    simp only [State.setLoop_loops]
    split
    · rename_i same
      subst same
      exact .inr (.inl rfl)
    · exact .inl rfl
  · split at stepped
    · cases stepped
      exact .inl rfl
    · cases stepped
  · cases stepped

/-- Whatever happens next, a stopped loop stays stopped and its thread gets nearer to
the end with every step. -/
theorem step_final {s next : State n} {act : Act n} {k : Fin n} (final : Final (s.loops k))
    (stepped : step s act = some next) :
    Final (next.loops k) ∧ stepsLeft (next.loops k).thread + (if isLoop k act then 1 else 0) ≤
      stepsLeft (s.loops k).thread := by
  cases act with
  | loop j active =>
    obtain ⟨loop, moved, rfl⟩ := Option.map_eq_some_iff.mp stepped
    rw [State.setLoop_loops]
    by_cases same : k = j
    · subst same
      simpa [isLoop] using loopStep_final final moved
    · simpa [isLoop, same, Ne.symm same] using final
  | owner taken =>
    rcases ownerStep_loops stepped k with kept | cleared | woken
    · simpa [isLoop, kept] using final
    · rw [cleared]
      exact ⟨⟨final.started, rfl⟩, le_refl _⟩
    · rw [woken]
      exact ⟨⟨final.started, final.cleared⟩, le_refl _⟩

theorem step_bounded {s next : State n} {act : Act n} (bounded : ∀ k, Bounded (s.loops k))
    (stepped : step s act = some next) (k : Fin n) : Bounded (next.loops k) := by
  cases act with
  | loop j active =>
    obtain ⟨loop, moved, rfl⟩ := Option.map_eq_some_iff.mp stepped
    rw [State.setLoop_loops]
    split
    · exact loopStep_bounded (bounded j) moved
    · exact bounded k
  | owner taken =>
    rcases ownerStep_loops stepped k with kept | cleared | woken
    · rw [kept]
      exact bounded k
    · rw [cleared]
      exact bounded k
    · rw [woken]
      exact bounded k

/-! ## Runs in which every stop comes after the start -/

/-- The loops that have been told to stop. -/
def told (s : State n) (k : Fin n) : Prop := s.inside = some k ∨ s.stopped k = true

structure Inv (s : State n) : Prop where
  final : ∀ k, told s k → Final (s.loops k)
  bounded : ∀ k, Bounded (s.loops k)

theorem step_told {s next : State n} {act : Act n} {k : Fin n} (stepped : step s act = some next)
    (now : told next k) :
    told s k ∨ ∃ taken rest, act = .owner taken ∧ s.inside = none ∧ s.todo = .stopLoop k :: rest ∧
      next.loops k = clearRunning (s.loops k) := by
  cases act with
  | loop j active =>
    obtain ⟨loop, moved, rfl⟩ := Option.map_eq_some_iff.mp stepped
    exact .inl now
  | owner taken =>
    simp only [step, ownerStep] at stepped
    split at stepped
    · rename_i j _ inside
      cases stepped
      left
      simp only [told, reduceCtorEq, Function.update_apply, false_or] at now
      split at now
      · rename_i same
        exact .inl (same ▸ inside)
      · exact .inr now
    · rename_i j rest inside todo
      cases stepped
      by_cases same : k = j
      · subst same
        exact .inr ⟨taken, rest, rfl, inside, todo, by simp⟩
      · left
        rcases now with here | before
        · exact absurd (Option.some.inj here).symm same
        · exact .inr before
    · split at stepped
      · cases stepped
        exact .inl now
      · cases stepped
    · cases stepped

theorem step_inv (s : State n) (act : Act n) (next : State n) (inv : Inv s)
    (started : Started s act) (stepped : step s act = some next) : Inv next := by
  constructor
  · intro k now
    rcases step_told stepped now with before | ⟨taken, rest, rfl, inside, todo, cleared⟩
    · exact (step_final (inv.final k before) stepped).1
    · simp only [Started, inside, todo] at started
      rw [cleared]
      exact ⟨started, rfl⟩
  · exact step_bounded inv.bounded stepped

theorem inv_init (todo : List (Command n)) : Inv (init todo) := by
  constructor
  · intro k now
    rcases now with inside | stopped
    · cases inside
    · cases stopped
  · intro k
    exact le_refl _

/-- Any number of loops, any list of stops and joins, any kernel: if every `StopLoop`
comes after the `StartLoop` of its loop, a loop on which `StopLoop` has returned has
`running_` cleared. From then on its thread always has a next step until it returns,
and it makes at most `kPollLimit + 3` of them, whatever the others do. -/
theorem stop_not_lost (todo : List (Command n)) (acts : List (Act n)) (final : State n)
    (started : RunMeets step Started (init todo) acts)
    (reached : run step (init todo) acts = some final) (k : Fin n)
    (stopped : final.stopped k = true) :
    (final.loops k).running = false ∧
    ∀ more last, run step final more = some last →
      more.countP (isLoop k) ≤ kPollLimit + 3 ∧
      ((last.loops k).thread = .returned ∨ ∃ next, step last (.loop k []) = some next) := by
  have inv : Inv final := run_guarded step_inv (inv_init todo) started reached
  have done := inv.final k (.inr stopped)
  refine ⟨done.cleared, ?_⟩
  intro more last continued
  have few := run_bounded (isLoop k) (fun s : State n => stepsLeft (s.loops k).thread)
    (fun _ _ _ final stepped => step_final final stepped) done continued
  constructor
  · exact le_trans (Nat.le_of_add_right_le few) (inv.bounded k)
  · by_cases returned : (last.loops k).thread = .returned
    · exact .inl returned
    · right
      obtain ⟨next, moved⟩ := loopStep_enabled returned
      exact ⟨last.setLoop k next, by simp [step, moved]⟩

/-- A pool of four: every loop is in its while loop when `Stop` goes through them. -/
def poolRound : List (Act 4) :=
  [.loop 0 [], .loop 1 [], .loop 2 [], .loop 3 [], .loop 0 [], .loop 0 [.other 7],
    .owner true, .owner true]

theorem stop_not_lost_poolRound :
    ∃ final, run step (init (EventLoopThreadPool.uses 4 0)) poolRound = some final ∧
      final.stopped 0 = true ∧ (final.loops 0).running = false := by
  refine ⟨_, rfl, by decide, ?_⟩
  exact (stop_not_lost (EventLoopThreadPool.uses 4 0) poolRound _ (by decide) rfl 0 (by decide)).1

/-- The condition is needed: after a stop that comes before the start, `StopLoop` can
return and the loop run on. -/
theorem early_stop_lost {s : State n} {k : Fin n} {rest : List (Command n)}
    (outside : s.inside = none) (due : s.todo = .stopLoop k :: rest)
    (early : (s.loops k).thread = .start) :
    ∃ final, run step s [.owner true, .owner true, .loop k []] = some final ∧
      final.stopped k = true ∧ (final.loops k).thread = .test ∧
      (final.loops k).running = true := by
  have starts (woken : Loop) (same : woken.thread = .start) (idle : woken.running = false) :
      loopStep woken [] = some { woken with running := true, thread := .test } := by
    simp [loopStep, startLoop, same, idle]
  obtain ⟨loops, todo, inside, stopped⟩ := s
  cases outside
  cases due
  have woken := starts (wakeup (clearRunning (loops k)) true) early rfl
  simp [run, step, ownerStep, State.setLoop, woken]

/-- The destructor of an `EventLoopThread` runs before the new thread gets to
`StartLoop`: it waits for a loop that polls with `running_` set. -/
theorem stop_lost_before_start :
    ∃ (acts : List (Act 1)) (final : State 1),
      run step (init (EventLoopThread.uses 0)) acts = some final ∧ final.stopped 0 = true ∧
        final.todo = [.join] ∧ final.loops 0 = ⟨true, 1, .poll⟩ :=
  ⟨[.owner true, .owner true, .loop 0 [], .loop 0 []], _, rfl, rfl, rfl, rfl⟩

end Ladder.Guarantees.LoopStop

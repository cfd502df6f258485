import Ladder.Source.ThreadPool

/-!
# The mutex of the thread pool

Whoever is between taking and giving back the mutex owns it. So what such a thread has seen
of the queue still holds when it acts on it: a worker that has found a task takes one, and a
worker that has found nothing to do joins the wait set while there is nothing to do.
-/
namespace Ladder.Guarantees.PoolMutex
open Ladder.Source.ThreadPool

variable {capacity : Nat}

def inLoop : Worker → Bool
  | .test | .sleep | .dequeue | .unlock _ | .leave => true
  | _ => false

def inCall : Option Emplacing → Bool
  | some .push | some .unlock => true
  | _ => false

/-- The thread is between taking and giving back the mutex. -/
def inside (s : State capacity) : Thread capacity → Bool
  | .worker i => inLoop (s.workers i) || inCall (s.calls (.worker i))
  | .outside j => inCall (s.calls (.outside j))
  | .destructor =>
    s.destructor == .stop || s.destructor == .unlock || inCall (s.calls .destructor)

/-- What a worker has seen under the mutex. -/
def Seen (s : State capacity) : Worker → Prop
  | .dequeue => s.tasks ≠ []
  | .sleep => s.tasks = [] ∧ s.stopped = false
  | _ => True

structure Locked (s : State capacity) : Prop where
  calling : ∀ i, s.calls (.worker i) ≠ none → s.workers i = .running
  quiet : s.calls .destructor = none
  owner : ∀ thread, inside s thread = true → s.mutex = some thread
  seen : ∀ i, Seen s (s.workers i)

section
variable {s next : State capacity} {i : Fin capacity} {thread : Thread capacity}

theorem Locked.free (locked : Locked s) (outside : s.workers i ≠ .running) :
    s.calls (.worker i) = none := by
  by_contra calls
  exact outside (locked.calling i calls)

/-- A thread in the middle of `emplace` was allowed to call it. -/
theorem Locked.permitted (locked : Locked s) (calls : s.calls thread ≠ none) :
    mayCall s thread = true := by
  cases thread with
  | worker j => exact beq_iff_eq.mpr (locked.calling j calls)
  | outside j => rfl
  | destructor => exact absurd locked.quiet calls

/-- Two threads that are both inside are one. -/
theorem Locked.same (locked : Locked s) {other : Thread capacity} (here : inside s thread = true)
    (there : inside s other = true) : other = thread := by
  have owns := locked.owner other there
  rw [locked.owner thread here] at owns
  exact (Option.some.inj owns).symm

/-! ## Ownership -/

theorem owner_acquired (locked : Locked s) (free : s.mutex = none)
    (others : ∀ other, other ≠ thread → inside next other = inside s other)
    (owns : next.mutex = some thread) (other : Thread capacity)
    (there : inside next other = true) : next.mutex = some other := by
  by_cases same : other = thread
  · rw [owns, same]
  · rw [others other same] at there
    have held := locked.owner other there
    rw [free] at held
    cases held

theorem owner_released (locked : Locked s) (here : inside s thread = true)
    (others : ∀ other, other ≠ thread → inside next other = inside s other)
    (out : inside next thread = false) (other : Thread capacity)
    (there : inside next other = true) : next.mutex = some other := by
  have different : other ≠ thread := by
    rintro rfl
    rw [out] at there
    cases there
  rw [others other different] at there
  exact absurd (locked.same here there) different

theorem owner_kept (locked : Locked s) (mutex : next.mutex = s.mutex)
    (others : ∀ other, other ≠ thread → inside next other = inside s other)
    (still : inside next thread = true → inside s thread = true) (other : Thread capacity)
    (there : inside next other = true) : next.mutex = some other := by
  rw [mutex]
  apply locked.owner
  by_cases same : other = thread
  · subst same
    exact still there
  · exact (others other same).symm.trans there

/-! ## What has been seen -/

/-- Outside of the critical section nothing is relied on. -/
theorem seen_of_outside {position : Worker} (outside : inLoop position = false) :
    Seen s position := by
  cases position with
  | sleep => cases outside
  | dequeue => cases outside
  | _ => trivial

/-- While one thread is inside, the others do not rely on anything. -/
theorem Locked.seen_elsewhere (locked : Locked s) (here : inside s thread = true)
    (different : Thread.worker i ≠ thread) : Seen next (s.workers i) := by
  apply seen_of_outside
  by_contra loops
  rw [Bool.not_eq_false] at loops
  have there : inside s (.worker i) = true := by
    rw [inside, loops]
    rfl
  exact different (locked.same here there)

/-! ## Workers -/

section
variable {mutex : Option (Thread capacity)} {tasks dequeued ran : List Nat} {position : Worker}

theorem inside_move {other : Thread capacity} (different : other ≠ .worker i) :
    inside ({ s with mutex := mutex, tasks := tasks, dequeued := dequeued, ran := ran }.move i
      position) other = inside s other := by
  cases other with
  | worker j =>
    have apart : j ≠ i := fun same => different (congrArg _ same)
    simp only [inside, State.move, Function.update_of_ne apart]
  | outside j => rfl
  | destructor => rfl

theorem inside_move_self (free : s.calls (.worker i) = none) :
    inside ({ s with mutex := mutex, tasks := tasks, dequeued := dequeued, ran := ran }.move i
      position) (.worker i) = inLoop position := by
  simp [inside, State.move, free, inCall]

/-- A worker outside of a task moves on: its fellows are where they were. -/
theorem Locked.moved (locked : Locked s) (free : s.calls (.worker i) = none)
    (owner : ∀ other,
      inside ({ s with mutex := mutex, tasks := tasks, dequeued := dequeued, ran := ran }.move i
        position) other = true → mutex = some other)
    (looks : Seen { s with tasks := tasks } position)
    (others : ∀ j, j ≠ i → Seen { s with tasks := tasks } (s.workers j)) :
    Locked ({ s with mutex := mutex, tasks := tasks, dequeued := dequeued, ran := ran }.move i
      position) := by
  refine ⟨?_, locked.quiet, owner, ?_⟩
  · intro j calls
    have different : j ≠ i := by
      rintro rfl
      exact calls free
    rw [State.move_workers, if_neg different]
    exact locked.calling j calls
  · intro j
    rw [State.move_workers]
    split
    · exact looks
    · rename_i different
      exact others j different

theorem Locked.entered (locked : Locked s) (free : s.calls (.worker i) = none)
    (unlocked : s.mutex = none) :
    Locked ({ s with mutex := some (.worker i) }.move i .test) :=
  locked.moved free (owner_acquired locked unlocked (fun _ => inside_move) rfl) trivial
    fun j _ => locked.seen j

theorem Locked.left (locked : Locked s) (free : s.calls (.worker i) = none)
    (here : inLoop (s.workers i) = true) (out : inLoop position = false) :
    Locked (s.release.move i position) := by
  refine locked.moved free (owner_released locked ?_ (fun _ => inside_move) ?_)
    (seen_of_outside out) fun j _ => locked.seen j
  · rw [inside, here]
    rfl
  · exact (inside_move_self free).trans out

theorem Locked.stayed (locked : Locked s) (free : s.calls (.worker i) = none)
    (still : inLoop position = true → inLoop (s.workers i) = true) (looks : Seen s position) :
    Locked ({ s with ran := ran }.move i position) := by
  refine locked.moved free (owner_kept locked rfl (fun _ => inside_move) ?_) looks
    fun j _ => locked.seen j
  intro there
  have loops := still ((inside_move_self free).symm.trans there)
  rw [inside, loops]
  rfl

theorem Locked.took {task : Nat} {rest : List Nat} (locked : Locked s)
    (here : s.workers i = .dequeue) :
    Locked ({ s with tasks := rest, dequeued := s.dequeued ++ [task] }.move i (.unlock task)) := by
  have owns : inside s (.worker i) = true := by
    rw [inside, here]
    rfl
  refine locked.moved (locked.free (by simp [here]))
    (owner_kept locked rfl (fun _ => inside_move) fun _ => owns) trivial ?_
  intro j different
  exact locked.seen_elsewhere owns fun same => different (Thread.worker.inj same)

end

/-! ## Calls of `emplace` -/

section
variable {mutex : Option (Thread capacity)} {tasks : List Nat} {enqueued : Nat}
  {position : Option Emplacing}

theorem inside_moveCall {other : Thread capacity} (different : other ≠ thread) :
    inside ({ s with mutex := mutex, tasks := tasks, enqueued := enqueued }.moveCall thread
      position) other = inside s other := by
  cases other <;> simp only [inside, State.moveCall, Function.update_of_ne different]

/-- The caller of `emplace` is inside on account of the call only. -/
theorem inside_moveCall_self (may : mayCall s thread = true) :
    inside ({ s with mutex := mutex, tasks := tasks, enqueued := enqueued }.moveCall thread
      position) thread = inCall position := by
  cases thread with
  | worker i =>
    have running : s.workers i = .running := beq_iff_eq.mp may
    simp [inside, State.moveCall, running, inLoop]
  | outside j => simp [inside, State.moveCall]
  | destructor => cases may

theorem inside_of_inCall (calls : inCall (s.calls thread) = true) : inside s thread = true := by
  cases thread <;> simp [inside, calls]

/-- A call goes on, of a thread that may call or that is done with it. -/
theorem Locked.calledBy (locked : Locked s) (may : position = none ∨ mayCall s thread = true)
    (owner : ∀ other,
      inside ({ s with mutex := mutex, tasks := tasks, enqueued := enqueued }.moveCall thread
        position) other = true → mutex = some other)
    (seen : ∀ i, Seen { s with tasks := tasks } (s.workers i)) :
    Locked ({ s with mutex := mutex, tasks := tasks, enqueued := enqueued }.moveCall thread
      position) := by
  have able : ∀ other, (if other = thread then position else s.calls other) ≠ none →
      s.calls other ≠ none ∨ mayCall s other = true := by
    intro other calls
    split at calls
    · rename_i same
      rw [same]
      exact .inr (may.resolve_left calls)
    · exact .inl calls
  refine ⟨?_, ?_, owner, seen⟩
  · intro j calls
    rw [State.moveCall_calls] at calls
    rcases able _ calls with before | running
    · exact locked.calling j before
    · exact beq_iff_eq.mp running
  · by_contra calls
    rw [State.moveCall_calls] at calls
    rcases able _ calls with before | impossible
    · exact before locked.quiet
    · cases impossible

theorem Locked.called (locked : Locked s) (may : position = none ∨ mayCall s thread = true)
    (outside : inCall position = false) : Locked (s.moveCall thread position) := by
  refine locked.calledBy may (owner_kept locked rfl (fun _ => inside_moveCall) ?_) locked.seen
  intro there
  rcases may with rfl | may
  · cases thread with
    | worker i =>
      simp [inside, State.moveCall, inCall] at there
      simp [inside, there]
    | outside j => simp [inside, State.moveCall, inCall] at there
    | destructor =>
      simp [inside, State.moveCall, inCall] at there
      simp [inside, there]
  · have calls := (inside_moveCall_self may).symm.trans there
    rw [outside] at calls
    cases calls

/-- The caller of `emplace` puts its task into the queue. -/
theorem Locked.pushed (locked : Locked s) (here : s.calls thread = some .push) :
    Locked ({ s with tasks := s.tasks ++ [s.enqueued], enqueued := s.enqueued + 1 }.moveCall thread
      (some .unlock)) := by
  have owns : inside s thread = true := inside_of_inCall (by rw [here]; rfl)
  have may := locked.permitted (show s.calls thread ≠ none by rw [here]; exact nofun)
  refine locked.calledBy (.inr may)
    (owner_kept locked rfl (fun _ => inside_moveCall) fun _ => owns) ?_
  intro j
  by_cases same : Thread.worker j = thread
  · -- the caller is a worker in a task
    subst same
    rw [beq_iff_eq.mp may]
    trivial
  · exact locked.seen_elsewhere owns same

end

/-! ## The destructor -/

theorem inside_destructor {mutex : Option (Thread capacity)} {stopped : Bool}
    {position : Destructor} {other : Thread capacity} (different : other ≠ .destructor) :
    inside { s with mutex := mutex, stopped := stopped, destructor := position } other =
      inside s other := by
  cases other with
  | worker j => rfl
  | outside j => rfl
  | destructor => exact absurd rfl different

/-- The destructor goes on inside, or outside, of its critical section. -/
theorem Locked.destructs {stopped : Bool} {position : Destructor} (locked : Locked s)
    (still : position = .stop ∨ position = .unlock → inside s .destructor = true)
    (seen : ∀ i, Seen { s with stopped := stopped } (s.workers i)) :
    Locked { s with stopped := stopped, destructor := position } := by
  refine ⟨locked.calling, locked.quiet,
    owner_kept locked rfl (fun _ => inside_destructor) ?_, seen⟩
  intro there
  apply still
  simpa [inside, locked.quiet, inCall] using there

theorem notifyAll_locked (locked : Locked s) : Locked (notifyAll s) := by
  have sleeping : ∀ i, s.workers i = .waiting → (notifyAll s).workers i = .woken := by
    intro i waiting
    simp [notifyAll, waiting]
  have awake : ∀ i, s.workers i ≠ .waiting → (notifyAll s).workers i = s.workers i := by
    intro i elsewhere
    simp [notifyAll, elsewhere]
  refine ⟨?_, locked.quiet, fun other there => locked.owner other ?_, ?_⟩
  · intro i calls
    have running := locked.calling i calls
    rw [awake i (by rw [running]; exact nofun), running]
  · cases other with
    | worker i =>
      by_cases waiting : s.workers i = .waiting
      · rw [inside, sleeping i waiting] at there
        rw [inside, waiting]
        exact there
      · rwa [inside, awake i waiting] at there
    | outside j => exact there
    | destructor => exact there
  · intro i
    by_cases waiting : s.workers i = .waiting
    · rw [sleeping i waiting]
      trivial
    · rw [awake i waiting]
      exact locked.seen i

/-! ## Whole runs -/

theorem step_locked (s : State capacity) (act : Act capacity) (next : State capacity)
    (locked : Locked s) (stepped : step s act = some next) : Locked next := by
  cases moves_of_step stepped with
  | @locked i here unlocked =>
    have outside : s.workers i ≠ .running := by
      rcases here with here | here <;> simp [here]
    exact locked.entered (locked.free outside) unlocked
  | gaveUp here =>
    exact locked.stayed (locked.free (by simp [here])) (fun _ => by rw [here]; rfl) trivial
  | idled here drained running =>
    exact locked.stayed (locked.free (by simp [here])) (fun _ => by rw [here]; rfl)
      ⟨drained, running⟩
  | found here work =>
    exact locked.stayed (locked.free (by simp [here])) (fun _ => by rw [here]; rfl) work
  | slept here | unlocked here | exited here =>
    exact locked.left (locked.free (by simp [here])) (by rw [here]; rfl) rfl
  | dequeued here => exact locked.took here
  | invoked here | woken here => exact locked.stayed (locked.free (by simp [here])) nofun trivial
  | returned _ quiet => exact locked.stayed quiet nofun trivial
  | ignored => exact locked
  | called may => exact locked.called (.inr may) rfl
  | emplaceLocked here unlocked =>
    exact locked.calledBy (.inr (locked.permitted (by rw [here]; exact nofun)))
      (owner_acquired locked unlocked (fun _ => inside_moveCall) rfl) locked.seen
  | pushed here => exact locked.pushed here
  | emplaceUnlocked here =>
    have may := locked.permitted (by rw [here]; exact nofun)
    exact locked.calledBy (.inr may) (owner_released locked (inside_of_inCall (by rw [here]; rfl))
      (fun _ => inside_moveCall) (inside_moveCall_self may)) locked.seen
  | @notified _ i _ waiting =>
    have woken : Locked (s.move i .woken) :=
      locked.stayed (locked.free (by simp [waiting])) nofun trivial
    exact woken.called (.inl rfl) rfl
  | unheard => exact locked.called (.inl rfl) rfl
  | destructs | joined => exact locked.destructs (by simp) locked.seen
  | destructorLocked _ unlocked =>
    exact ⟨locked.calling, locked.quiet,
      owner_acquired locked unlocked (fun _ => inside_destructor) rfl, locked.seen⟩
  | stops here =>
    have owns : inside s .destructor = true := by simp [inside, here]
    exact locked.destructs (fun _ => owns) fun i => locked.seen_elsewhere owns nofun
  | destructorUnlocked here =>
    refine ⟨locked.calling, locked.quiet,
      owner_released locked ?_ (fun _ => inside_destructor) ?_, locked.seen⟩
    · simp [inside, here]
    · simp [inside, State.release, locked.quiet, inCall]
  | notifiedAll =>
    have told := notifyAll_locked locked
    exact told.destructs (by simp) told.seen

end

theorem locked_start : Locked (start capacity) := by
  refine ⟨fun _ calls => absurd rfl calls, rfl, ?_, fun _ => trivial⟩
  intro thread there
  cases thread <;> cases there

end Ladder.Guarantees.PoolMutex

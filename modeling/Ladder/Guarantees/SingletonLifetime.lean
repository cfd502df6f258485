import Ladder.Library.Runs
import Ladder.Source.Singletons

/-!
# The lifetime of the process-wide objects

The local static of `create` outlives the object: nothing resets it, so there is one
object for the whole process and after its deletion every pointer handed out
dangles. `MemoryPoolImpl::release` at least clears `instance_` and may be called
again; `Logger::release` does not.
-/
namespace Ladder.Guarantees.SingletonLifetime
open Ladder.Library Ladder.Source.Singletons

/-- Pointers returned are live objects, deleted objects were alive, and so were those
used. A use that finds a null instance leaves no event. -/
def Event.sound : Event → Bool
  | .returned _ alive | .deleted _ alive | .used _ alive => alive

def Safe (s : State) : Prop := ∀ event ∈ s.events, Event.sound event = true

/-- Once the object has been deleted, nothing is called but `release` of the memory
pool. -/
def BeforeRelease (kind : Singleton) (s : State) (act : Act) : Prop :=
  s.deleted = [] ∨ kind = .memoryPoolImpl ∧ act = .release

instance (kind : Singleton) (s : State) (act : Act) : Decidable (BeforeRelease kind s act) :=
  inferInstanceAs (Decidable (_ ∨ _))

/-! ## The three stages of a process: no object, the object, its deletion -/

def before (events : List Event) : State := ⟨none, none, 0, [], events⟩

def during (events : List Event) : State := ⟨some 0, some 0, 1, [], events⟩

def after (kind : Singleton) (events : List Event) : State :=
  ⟨some 0, if kind = .memoryPoolImpl then none else some 0, 1, [0], events⟩

inductive Stage (kind : Singleton) : State → Prop where
  | before (events : List Event) : Stage kind (before events)
  | during (events : List Event) : Stage kind (during events)
  | after (events : List Event) : Stage kind (after kind events)

/-- The object is there: every operation leaves sound events only. -/
theorem during_step {kind : Singleton} {events : List Event} {act : Act} {next : State}
    (stepped : step kind (during events) act = some next) :
    ∃ event, Event.sound event = true ∧
      (next = during (events ++ [event]) ∨ next = after kind (events ++ [event])) := by
  cases act with
  | create | getInstance =>
    cases kind <;> cases stepped <;> exact ⟨.returned (some 0) true, rfl, .inl rfl⟩
  | release => cases kind <;> cases stepped <;> exact ⟨.deleted 0 true, rfl, .inr rfl⟩
  | use => cases kind <;> cases stepped <;> exact ⟨.used 0 true, rfl, .inl rfl⟩

/-- Before the first use, `release` does nothing and every other call constructs the
object. -/
theorem before_step {kind : Singleton} {events : List Event} {act : Act} {next : State}
    (stepped : step kind (before events) act = some next) :
    next = before events ∨
      ∃ event, Event.sound event = true ∧ next = during (events ++ [event]) := by
  cases act with
  | create | getInstance =>
    cases kind <;> cases stepped <;> exact .inr ⟨.returned (some 0) true, rfl, rfl⟩
  | release => cases kind <;> cases stepped <;> exact .inl rfl
  | use => cases kind <;> cases stepped <;> exact .inr ⟨.used 0 true, rfl, rfl⟩

/-- After the deletion, every call but `release` of the memory pool touches the dead
object. -/
theorem after_step {kind : Singleton} {events : List Event} {act : Act} {next : State}
    (stepped : step kind (after kind events) act = some next) :
    (kind = .memoryPoolImpl ∧ act = .release ∧ next = after kind events) ∨
      (¬ (kind = .memoryPoolImpl ∧ act = .release) ∧
        ∃ event ∈ next.events, Event.sound event = false) := by
  cases act with
  | create | getInstance =>
    right
    refine ⟨nofun, .returned (some 0) false, ?_, rfl⟩
    cases kind <;> cases stepped <;> exact List.mem_append_right _ (.head _)
  | release =>
    cases kind with
    | memoryPoolImpl =>
      cases stepped
      exact .inl ⟨rfl, rfl, rfl⟩
    | logger =>
      right
      refine ⟨nofun, .deleted 0 false, ?_, rfl⟩
      cases stepped
      exact List.mem_append_right _ (.head _)
  | use =>
    right
    refine ⟨nofun, .used 0 false, ?_, rfl⟩
    cases kind <;> cases stepped <;> exact List.mem_append_right _ (.head _)

theorem safe_append {s : State} {event : Event} (safe : Safe s) (sound : Event.sound event = true)
    {next : State} (grown : next.events = s.events ++ [event]) : Safe next := by
  intro other member
  rw [grown, List.mem_append, List.mem_singleton] at member
  rcases member with earlier | rfl
  · exact safe other earlier
  · exact sound

theorem stage_step (kind : Singleton) (s : State) (act : Act) (next : State)
    (good : Stage kind s ∧ Safe s) (stepped : step kind s act = some next) :
    (BeforeRelease kind s act ∧ Stage kind next ∧ Safe next) ∨
      (¬ BeforeRelease kind s act ∧ ¬ Safe next) := by
  obtain ⟨stage, safe⟩ := good
  cases stage with
  | before events =>
    refine .inl ⟨.inl rfl, ?_⟩
    rcases before_step stepped with rfl | ⟨event, sound, rfl⟩
    · exact ⟨.before events, safe⟩
    · exact ⟨.during _, safe_append safe sound rfl⟩
  | during events =>
    refine .inl ⟨.inl rfl, ?_⟩
    obtain ⟨event, sound, rfl | rfl⟩ := during_step stepped
    · exact ⟨.during _, safe_append safe sound rfl⟩
    · exact ⟨.after _, safe_append safe sound rfl⟩
  | after events =>
    rcases after_step stepped with ⟨pool, released, rfl⟩ | ⟨other, event, member, dead⟩
    · exact .inl ⟨.inr ⟨pool, released⟩, .after events, safe⟩
    · right
      constructor
      · rintro (empty | allowed)
        · cases empty
        · exact other allowed
      · intro safe'
        rw [safe' event member] at dead
        cases dead

/-! ## Events are never forgotten -/

theorem create_events (s : State) : (create s).2.events = s.events := by
  unfold create
  split <;> rfl

theorem getInstance_events (s : State) (kind : Singleton) :
    (getInstance s kind).2.events = s.events := by
  unfold getInstance
  split
  · exact create_events s
  · split
    · rfl
    · exact create_events s

theorem access_events (s : State) (object : Option Nat) :
    ∀ event ∈ s.events, event ∈ (access s object).events := by
  intro event member
  cases object with
  | none => exact member
  | some object => exact List.mem_append_left _ member

theorem step_events {kind : Singleton} {s next : State} {act : Act}
    (stepped : step kind s act = some next) : ∀ event ∈ s.events, event ∈ next.events := by
  intro event member
  cases act with
  | create =>
    cases stepped
    rw [← create_events s] at member
    exact List.mem_append_left _ member
  | getInstance =>
    cases stepped
    rw [← getInstance_events s kind] at member
    exact List.mem_append_left _ member
  | release =>
    cases stepped
    cases kind <;> simp only [release] <;> split <;>
      first | exact member | exact List.mem_append_left _ member
  | use =>
    cases stepped
    cases kind with
    | memoryPoolImpl =>
      rw [← getInstance_events s .memoryPoolImpl] at member
      exact access_events _ _ event member
    | logger =>
      simp only [use]
      rw [← getInstance_events s .logger] at member
      split
      · rename_i fetched
        rw [fetched] at member
        exact member
      · rename_i after fetched
        rw [fetched, ← getInstance_events _ .logger] at member
        exact access_events _ _ event member

/-- In every sequence of calls, all pointers handed out are live, nothing is deleted
twice and nothing dead is used, exactly when no call follows the deletion of the
object, `release` of the memory pool excepted. -/
theorem singleton_safe_iff (kind : Singleton) (acts : List Act) (final : State)
    (reached : run (step kind) start acts = some final) :
    Safe final ↔ RunMeets (step kind) (BeforeRelease kind) start acts := by
  have lost (s : State) (act : Act) (next : State) (dead : ¬ Safe s)
      (stepped : step kind s act = some next) : ¬ Safe next := by
    intro safe
    exact dead fun event member => safe event (step_events stepped event member)
  have first : Stage kind start ∧ Safe start := ⟨.before [], nofun⟩
  rcases run_kept_or_lost (stage_step kind) lost first reached with
    ⟨meets, -, safe⟩ | ⟨breaks, dead⟩
  · exact ⟨fun _ => meets, fun _ => safe⟩
  · exact ⟨fun safe => absurd safe dead, fun meets => absurd meets breaks⟩

/-- The pool may be released again. -/
theorem singleton_safe_iff_released_twice :
    ∃ final, run (step .memoryPoolImpl) start [.create, .use, .release, .release] = some final ∧
      Safe final :=
  ⟨_, rfl, (singleton_safe_iff .memoryPoolImpl [.create, .use, .release, .release] _ rfl).mpr
    (by decide)⟩

/-- Both objects are handed out again after they have been deleted, and a second
`Logger::release` deletes the logger twice. -/
theorem singletons_used_after_release :
    (∃ final, run (step .memoryPoolImpl) start [.create, .release, .use] = some final ∧
      final.events = [.returned (some 0) true, .deleted 0 true, .used 0 false]) ∧
    ∃ final, run (step .logger) start [.create, .release, .use, .release] = some final ∧
      final.events =
        [.returned (some 0) true, .deleted 0 true, .used 0 false, .deleted 0 false] :=
  ⟨⟨_, rfl, rfl⟩, ⟨_, rfl, rfl⟩⟩

end Ladder.Guarantees.SingletonLifetime

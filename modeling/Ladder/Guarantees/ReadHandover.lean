import Ladder.Library.Runs
import Ladder.Source.ReadDispatch

/-!
# Read callbacks and the bytes they find

A read event queues a task whenever it leaves the buffer non-empty, but one `ReadAll`
takes the octets of several events: the tasks of the later ones find nothing. The
guarantee is about runs in which the buffer is found non-empty only when no earlier
task has still to read; then every task stands for octets nobody else will take.
-/
namespace Ladder.Guarantees.ReadHandover
open Ladder.Library Ladder.Source Ladder.Source.ReadDispatch

/-- The task that holds the mutex has made its `ReadAll`, or there is none. -/
def readDone : Option Callback → Bool
  | none | some .served => true
  | _ => false

/-- The buffer is found non-empty only when every earlier task has read; a reset loses
nothing; and the write index never wraps. -/
def Serial (s : State) : Act → Bool
  | .read (.data octets) =>
    s.readBuffer.writeIndex + (octets.take kReadBufferSize).length < 2 ^ 32
  | .read (.fail .econnreset) => s.readBuffer.empty || 0 < s.tasks
  | .test => s.readBuffer.empty || s.tasks == 0 && readDone s.callback
  | _ => true

/-- Tasks that are queued or about to be. -/
def due (s : State) : Nat := s.tasks + if s.loop = .emplace then 1 else 0

/-- What the invocation in progress has to find in the buffer. -/
def Finds (unread : Bytes) : Option Callback → Prop
  | none | some .served => True
  | some .entered => unread ≠ []
  | some (.sized n) => 0 < n ∧ n ≤ unread.length
  | some (.peeked readable result) =>
    result = unread.take readable ∧ 0 < readable ∧ readable ≤ unread.length

/-- The invocation in progress, if any, takes all there is. -/
def Drains (unread : Bytes) : Option Callback → Prop
  | none | some .served => unread = []
  | some .entered => True
  | some (.sized n) => unread.length ≤ n
  | some (.peeked readable _) => unread.length ≤ readable

structure Inv (s : State) : Prop where
  valid : s.readBuffer.Valid
  account : s.handed.flatten ++ s.readBuffer.unread = s.received
  /-- A task stands for octets in the buffer that nobody else will take. -/
  promised : 0 < due s → due s = 1 ∧ s.readBuffer.unread ≠ [] ∧ readDone s.callback = true
  finds : Finds s.readBuffer.unread s.callback
  rest : s.loop = .outside → s.tasks = 0 → Drains s.readBuffer.unread s.callback
  found : ∀ n ∈ s.found, 0 < n
  handed : ∀ octets ∈ s.handed, octets ≠ []

theorem Finds.append {unread : Bytes} {callback : Option Callback} (finds : Finds unread callback)
    (more : Bytes) : Finds (unread ++ more) callback := by
  match callback with
  | none | some .served => trivial
  | some .entered => exact List.append_ne_nil_of_left_ne_nil finds more
  | some (.sized n) => exact ⟨finds.1, finds.2.trans (by simp)⟩
  | some (.peeked readable result) =>
    obtain ⟨front, some_, short⟩ := finds
    refine ⟨?_, some_, short.trans (by simp)⟩
    rw [List.take_append_of_le_length short, front]

/-- Nothing in the buffer: there is no invocation that has still to read. -/
theorem Finds.drains_nil {callback : Option Callback} (finds : Finds [] callback) :
    Drains [] callback := by
  match callback with
  | none | some .served => rfl
  | some .entered => trivial
  | some (.sized n) => exact Nat.zero_le n
  | some (.peeked readable result) => exact Nat.zero_le readable

section
variable {s next : State}

theorem Inv.empty_iff (inv : Inv s) : s.readBuffer.empty = true ↔ s.readBuffer.unread = [] :=
  inv.valid.empty_iff

/-- No task is due while an invocation has still to read. -/
theorem Inv.none_due (inv : Inv s) (reading : readDone s.callback = false) : due s = 0 := by
  by_contra some_
  rw [(inv.promised (Nat.pos_of_ne_zero some_)).2.2] at reading
  cases reading

/-! ## The loop thread -/

/-- The loop thread moves on without a task and without octets. -/
theorem Inv.move {loop : Loop} {shutDown : Bool} (inv : Inv s)
    (same : (if loop = .emplace then 1 else 0) = if s.loop = .emplace then 1 else 0)
    (rest : loop = .outside → s.tasks = 0 → Drains s.readBuffer.unread s.callback) :
    Inv { s with loop := loop, shutDown := shutDown } := by
  have dues : due { s with loop := loop, shutDown := shutDown } = due s := by
    simp only [due, same]
  exact { inv with promised := fun some_ => dues ▸ inv.promised (dues ▸ some_), rest := rest }

theorem Inv.receive {octets : Bytes} (inv : Inv s) (reading : s.loop = .read)
    (fits : s.readBuffer.writeIndex + octets.length < 2 ^ 32) :
    Inv { s with
      readBuffer := s.readBuffer.writeChars octets octets.length
      received := s.received ++ octets } := by
  have written : s.readBuffer.writeChars octets octets.length = s.readBuffer.write octets := by
    rw [Buffer.writeChars_eq_write (le_refl _), List.take_length]
  have unread := inv.valid.unread_write fits
  constructor
  · simp only [written]
    exact inv.valid.write_valid fits
  · simp only [written, unread]
    rw [← List.append_assoc, inv.account]
  · intro some_
    obtain ⟨one, filled, done⟩ := inv.promised some_
    simp only [written, unread]
    exact ⟨one, List.append_ne_nil_of_left_ne_nil filled octets, done⟩
  · simp only [written, unread]
    exact inv.finds.append octets
  · intro outside
    rw [show s.loop = .outside from outside] at reading
    cases reading
  · exact inv.found
  · exact inv.handed

theorem Inv.read {incoming : Incoming} (inv : Inv s) (reading : s.loop = .read)
    (serial : Serial s (.read incoming) = true) (stepped : readRound s incoming = some next) :
    Inv next := by
  cases incoming with
  | data octets =>
    simp only [Serial, decide_eq_true_eq] at serial
    simp only [readRound, Option.some.injEq] at stepped
    subst next
    have received := inv.receive reading serial
    split
    · apply received.move
      · simp [reading]
      · exact nofun
    · exact received
  | fail errno =>
    cases errno with
    | eagain =>
      cases stepped
      apply inv.move
      · simp [reading]
      · exact nofun
    | econnreset =>
      cases stepped
      simp only [Serial, Bool.or_eq_true, decide_eq_true_eq] at serial
      apply inv.move
      · simp [reading]
      · intro _ none
        have nothing : s.readBuffer.unread = [] := by
          rcases serial with empty | some_
          · exact inv.empty_iff.mp empty
          · omega
        rw [nothing]
        exact (nothing ▸ inv.finds).drains_nil
    | epipe => cases stepped
    | other => cases stepped

theorem Inv.test (inv : Inv s) (testing : s.loop = .test) (serial : Serial s .test = true) :
    Inv { s with loop := if s.readBuffer.empty then .outside else .emplace } := by
  by_cases empty : s.readBuffer.empty = true
  · rw [if_pos empty]
    have nothing := inv.empty_iff.mp empty
    apply inv.move
    · simp [testing]
    · intro _ _
      rw [nothing]
      exact (nothing ▸ inv.finds).drains_nil
  · rw [if_neg empty]
    simp only [Serial, empty, Bool.false_or, Bool.and_eq_true, beq_iff_eq] at serial
    obtain ⟨none, done⟩ := serial
    have filled : s.readBuffer.unread ≠ [] := fun nothing => empty (inv.empty_iff.mpr nothing)
    exact { inv with
      promised := fun _ => ⟨by simp [due, none], filled, done⟩
      rest := nofun }

theorem Inv.emplace (inv : Inv s) (emplacing : s.loop = .emplace) :
    Inv { s with loop := .outside, tasks := s.tasks + 1 } := by
  have dues : due { s with loop := .outside, tasks := s.tasks + 1 } = due s := by
    simp [due, emplacing]
  exact { inv with
    promised := fun some_ => dues ▸ inv.promised (dues ▸ some_)
    rest := fun _ none => absurd none (Nat.succ_ne_zero _) }

/-! ## The workers -/

/-- A task gets the mutex and calls the callback. -/
theorem Inv.lockCallback (inv : Inv s) (queued : 0 < s.tasks) :
    Inv { s with
      tasks := s.tasks - 1
      callback := some .entered
      found := s.found ++ [s.readBuffer.readableBytes] } := by
  obtain ⟨one, filled, -⟩ := inv.promised (Nat.add_pos_left queued _)
  have none : due { s with
      tasks := s.tasks - 1
      callback := some .entered
      found := s.found ++ [s.readBuffer.readableBytes] } = 0 := by
    simp only [due] at one ⊢
    omega
  refine { inv with promised := ?_, finds := filled, rest := fun _ _ => trivial, found := ?_ }
  · intro some_
    omega
  · intro n member
    rw [List.mem_append, List.mem_singleton] at member
    rcases member with before | rfl
    · exact inv.found n before
    · rw [inv.valid.readableBytes_eq]
      exact List.length_pos_iff.mpr filled

/-- A step of the invocation in progress that leaves the buffer alone. -/
theorem Inv.advance {callback : Callback} (inv : Inv s) (reading : readDone s.callback = false)
    (finds : Finds s.readBuffer.unread (some callback))
    (drains : s.loop = .outside → s.tasks = 0 → Drains s.readBuffer.unread (some callback)) :
    Inv { s with callback := some callback } := by
  have none := inv.none_due reading
  refine { inv with promised := ?_, finds := finds, rest := drains }
  intro some_
  rw [show due { s with callback := some callback } = due s from rfl] at some_
  omega

theorem Inv.size (inv : Inv s) (entered : s.callback = some .entered) :
    Inv { s with
      callback := some (.sized (u32 (s.readBuffer.writeIndex + 2 ^ 32 - s.readBuffer.readIndex)))
        } := by
  have all : u32 (s.readBuffer.writeIndex + 2 ^ 32 - s.readBuffer.readIndex) =
      s.readBuffer.unread.length := inv.valid.readableBytes_eq
  have filled : s.readBuffer.unread ≠ [] := by
    have finds := inv.finds
    rwa [entered] at finds
  rw [all]
  apply inv.advance
  · rw [entered]
    rfl
  · exact ⟨List.length_pos_iff.mpr filled, le_refl _⟩
  · exact fun _ _ => le_refl _

theorem Inv.peek {n : Nat} (inv : Inv s) (sized : s.callback = some (.sized n)) :
    Inv { s with
      callback := some (.peeked (s.readBuffer.peek n).1 (s.readBuffer.peek n).2) } := by
  have finds := inv.finds
  rw [sized] at finds
  obtain ⟨some_, short⟩ := finds
  have narrow : n < 2 ^ 32 := lt_of_le_of_lt short inv.valid.unread_length_lt
  rw [inv.valid.peek_eq narrow, Nat.min_eq_left short]
  apply inv.advance
  · rw [sized]
    rfl
  · exact ⟨rfl, some_, short⟩
  · intro outside none
    have drains := inv.rest outside none
    rwa [sized] at drains

theorem Inv.haveRead {readable : Nat} {result : Bytes} (inv : Inv s)
    (peeked : s.callback = some (.peeked readable result)) :
    Inv { s with
      readBuffer := s.readBuffer.haveRead readable
      callback := some .served
      handed := s.handed ++ [result] } := by
  have finds := inv.finds
  rw [peeked] at finds
  obtain ⟨front, some_, short⟩ := finds
  have narrow : readable < 2 ^ 32 := lt_of_le_of_lt short inv.valid.unread_length_lt
  have unread := inv.valid.unread_haveRead narrow
  have none : due s = 0 := inv.none_due (by rw [peeked]; rfl)
  constructor
  · exact inv.valid.haveRead_valid narrow
  · simp only [unread, front, List.flatten_append, List.flatten_singleton, List.append_assoc,
      List.take_append_drop]
    exact inv.account
  · intro some_
    rw [show due { s with
      readBuffer := s.readBuffer.haveRead readable
      callback := some .served
      handed := s.handed ++ [result] } = due s from rfl] at some_
    omega
  · trivial
  · intro outside noTask
    have drains := inv.rest outside noTask
    rw [peeked] at drains
    simp only [Drains, unread]
    exact List.drop_eq_nil_of_le drains
  · exact inv.found
  · intro octets member
    rw [List.mem_append, List.mem_singleton] at member
    rcases member with before | rfl
    · exact inv.handed octets before
    · intro nothing
      have length := congrArg List.length (front.symm.trans nothing)
      simp only [List.length_take, List.length_nil] at length
      omega

theorem Inv.unlockCallback (inv : Inv s) (served : s.callback = some .served) :
    Inv { s with callback := none } := by
  refine { inv with promised := ?_, finds := trivial, rest := ?_ }
  · intro some_
    obtain ⟨one, filled, -⟩ := inv.promised some_
    exact ⟨one, filled, rfl⟩
  · intro outside none
    have drains := inv.rest outside none
    rwa [served] at drains

end

theorem step_inv (s : State) (act : Act) (next : State) (inv : Inv s) (serial : Serial s act = true)
    (stepped : step s act = some next) : Inv next := by
  cases act with
  | onReadCallback =>
    simp only [step] at stepped
    split at stepped
    · rename_i outside
      cases stepped
      split
      · exact inv
      · apply inv.move
        · simp [outside]
        · exact nofun
    · cases stepped
  | read incoming =>
    simp only [step] at stepped
    split at stepped
    · rename_i reading
      exact inv.read reading serial stepped
    · cases stepped
  | test =>
    simp only [step] at stepped
    split at stepped
    · rename_i testing
      cases stepped
      exact inv.test testing serial
    · cases stepped
  | emplace =>
    simp only [step] at stepped
    split at stepped
    · rename_i emplacing
      cases stepped
      exact inv.emplace emplacing
    · cases stepped
  | lockCallback =>
    simp only [step] at stepped
    split at stepped
    · rename_i queued
      cases stepped
      exact inv.lockCallback queued.1
    · cases stepped
  | size =>
    simp only [step] at stepped
    split at stepped
    · rename_i entered
      cases stepped
      exact inv.size entered
    · cases stepped
  | peek =>
    simp only [step] at stepped
    split at stepped
    · rename_i n sized
      cases stepped
      exact inv.peek sized
    · cases stepped
  | haveRead =>
    simp only [step] at stepped
    split at stepped
    · rename_i readable result peeked
      cases stepped
      exact inv.haveRead peeked
    · cases stepped
  | unlockCallback =>
    simp only [step] at stepped
    split at stepped
    · rename_i served
      cases stepped
      exact inv.unlockCallback served
    · cases stepped

theorem inv_start : Inv start :=
  ⟨Buffer.valid_fresh, rfl, fun some_ => absurd some_ (Nat.lt_irrefl 0), trivial,
    fun _ _ => rfl, nofun, nofun⟩

/-- In every serial run each invocation of the read callback finds the buffer
non-empty and gets something from `ReadAll`; what the invocations have got, one after
the other, followed by what is in the buffer, is what was received; and when the
loop thread is outside of a read event and no task is left, they have got it all. -/
theorem read_callbacks_find_data (acts : List Act) (final : State)
    (serial : RunMeets step (fun s act => Serial s act = true) start acts)
    (reached : run step start acts = some final) :
    (∀ n ∈ final.found, 0 < n) ∧ (∀ octets ∈ final.handed, octets ≠ []) ∧
    final.handed.flatten ++ final.readBuffer.unread = final.received ∧
    (final.loop = .outside → final.tasks = 0 → final.callback = none →
      final.handed.flatten = final.received) := by
  have inv : Inv final := run_guarded step_inv inv_start serial reached
  refine ⟨inv.found, inv.handed, inv.account, ?_⟩
  intro outside noTask idle
  have drains := inv.rest outside noTask
  rw [idle] at drains
  have account := inv.account
  rwa [show final.readBuffer.unread = [] from drains, List.append_nil] at account

/-- A read event and the task it queues. -/
def served (octets : Bytes) : List Act :=
  [.onReadCallback, .read (.data octets), .read (.fail .eagain), .test, .emplace, .lockCallback,
    .size, .peek, .haveRead, .unlockCallback]

theorem read_callbacks_find_data_alternating :
    ∃ final, run step start (served [1, 2] ++ served [3]) = some final ∧
      final.handed = [[1, 2], [3]] ∧ final.handed.flatten = final.received := by
  have facts := read_callbacks_find_data (served [1, 2] ++ served [3]) _ (by decide) rfl
  exact ⟨_, rfl, rfl, facts.2.2.2 rfl rfl rfl⟩

/-- Two read events before the first task runs: the first invocation takes the octets of
both, the second one finds nothing. -/
theorem read_callback_finds_nothing :
    ∃ (acts : List Act) (final : State), run step start acts = some final ∧
      final.received = [1, 2] ∧ final.found = [2, 0] ∧ final.handed = [[1, 2]] :=
  ⟨[.onReadCallback, .read (.data [1]), .read (.fail .eagain), .test, .emplace,
    .onReadCallback, .read (.data [2]), .read (.fail .eagain), .test, .emplace,
    .lockCallback, .size, .peek, .haveRead, .unlockCallback, .lockCallback], _, rfl, rfl, rfl, rfl⟩

end Ladder.Guarantees.ReadHandover

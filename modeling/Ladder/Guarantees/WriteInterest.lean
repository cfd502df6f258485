import Ladder.Guarantees.ConcurrentFlush

/-!
# Write interest of a connection shared by two threads

The machine of `ConcurrentFlush` with every `WriteBufferToFd` call taken as one
step. `EnableWrite` applies a result computed one step earlier, so a drained flush
of the loop thread can clear the interest a failed flush of the worker has set in
between. Every run of this machine is a run of the finer one.
-/
namespace Ladder.Guarantees.WriteInterest
open Ladder.Library Ladder.Source Ladder.Source.Buffer
open Ladder.Guarantees.ConcurrentFlush (Thread Position State start)

inductive Act where
  | send (content : Bytes)
  | writeEvent
  | proceed (thread : Thread) (answers : List Answer)
  deriving DecidableEq, Repr

def inFlush (s : State) (thread : Thread) (buffer : Buffer) (octets : Bytes) (flush : Flush) :
    State :=
  { s with buffer := buffer, accepted := s.accepted ++ octets }.moveTo thread (.flushing flush)

def afterFlush (s : State) (thread : Thread) (flushed : Flushed) : State :=
  inFlush s thread flushed.buffer flushed.accepted (.returned flushed.ret)

/-- The whole flush, or one of the single steps around it. -/
def proceed (s : State) (thread : Thread) (answers : List Answer) : Option State :=
  match s.position thread with
  | .flushing .test => (writeBufferToFd answers s.buffer).map (afterFlush s thread)
  | .sending _ | .flushing (.returned _) => ConcurrentFlush.proceed s thread (.accept 0)
  | _ => none

def step (s : State) : Act → Option State
  | .send content => ConcurrentFlush.step s (.send content)
  | .writeEvent => ConcurrentFlush.step s .writeEvent
  | .proceed thread answers => proceed s thread answers

/-- A failed flush is not applied while the other thread has yet to apply a drained
one although octets are unsent; and the write index never wraps. -/
def Ordered (s : State) : Act → Bool
  | .send _ => true
  | .writeEvent => true
  | .proceed thread _ =>
    match s.position thread with
    | .sending content => s.buffer.writeIndex + content.length < 2 ^ 32
    | .flushing (.returned ret) =>
      !(ret < 0 && !s.buffer.empty && s.position thread.other == .flushing (.returned 0))
    | _ => true

/-! ## The invariant -/

/-- The thread is going to decide about the interest from a state not older than
the present one, or has decided to set it. -/
def Deciding (position : Position) : Prop :=
  position = .flushing .test ∨ position = .flushing (.returned (-1))

/-- Unsent octets have either a thread on its way to set the interest, or the
interest set and nobody about to clear it. -/
def Watched (s : State) : Prop :=
  s.buffer.unread ≠ [] →
    (∃ thread, Deciding (s.position thread)) ∨
    (s.channel.wantsWrite = true ∧ ∀ thread, s.position thread ≠ .flushing (.returned 0))

structure Inv (s : State) : Prop where
  valid : s.buffer.Valid
  results : ∀ thread ret, s.position thread = .flushing (.returned ret) → ret = 0 ∨ ret = -1
  watched : Watched s

@[simp] theorem position_moveTo (s : State) (thread : Thread) (position : Position) :
    (s.moveTo thread position).position thread = position := if_pos rfl

theorem position_moveTo_other {s : State} {thread other : Thread} (position : Position)
    (different : other ≠ thread) :
    (s.moveTo thread position).position other = s.position other := if_neg different

/-- Results of the thread that moved and of the one that did not. -/
theorem results_moveTo {s : State} {thread : Thread} {position : Position}
    (results : ∀ other ret, s.position other = .flushing (.returned ret) → ret = 0 ∨ ret = -1)
    (here : ∀ ret, position = .flushing (.returned ret) → ret = 0 ∨ ret = -1) :
    ∀ other ret, (s.moveTo thread position).position other = .flushing (.returned ret) →
      ret = 0 ∨ ret = -1 := by
  intro other ret there
  by_cases same : other = thread
  · subst same
    rw [position_moveTo] at there
    exact here ret there
  · rw [position_moveTo_other _ same] at there
    exact results other ret there

/-- Entering `Send` or `OnWriteCallback` from outside. -/
theorem inv_enter {s : State} {thread : Thread} {position : Position} (inv : Inv s)
    (outside : s.position thread = .idle) (entered : ∀ ret, position ≠ .flushing (.returned ret)) :
    Inv (s.moveTo thread position) := by
  refine ⟨inv.valid,
    results_moveTo inv.results (fun ret returned => absurd returned (entered ret)), ?_⟩
  intro unsent
  rcases inv.watched unsent with ⟨decider, deciding⟩ | ⟨wanted, quiet⟩
  · left
    refine ⟨decider, ?_⟩
    have different : decider ≠ thread := by
      rintro rfl
      rw [outside] at deciding
      rcases deciding with impossible | impossible <;> cases impossible
    rwa [position_moveTo_other _ different]
  · right
    refine ⟨wanted, ?_⟩
    intro other
    by_cases same : other = thread
    · subst same
      rw [position_moveTo]
      exact entered 0
    · rw [position_moveTo_other _ same]
      exact quiet other

theorem inv_write {s : State} {thread : Thread} {content : Bytes} (inv : Inv s)
    (room : s.buffer.writeIndex + content.length < 2 ^ 32) :
    Inv ({ s with buffer := s.buffer.write content, sent := s.sent ++ [content] }.moveTo thread
      (.flushing .test)) := by
  refine ⟨inv.valid.write_valid room, ?_, ?_⟩
  · exact results_moveTo inv.results (fun ret returned => by cases returned)
  · intro _
    exact .inl ⟨thread, .inl (position_moveTo _ _ _)⟩

theorem inv_flush {s : State} {thread : Thread} {flushed : Flushed} {answers : List Answer}
    (inv : Inv s) (returns : writeBufferToFd answers s.buffer = some flushed) :
    Inv (afterFlush s thread flushed) := by
  have effects := writeBufferToFd_effects inv.valid returns
  refine ⟨effects.valid, results_moveTo inv.results ?_, ?_⟩
  · intro ret returned
    cases returned
    by_cases drained : flushed.ret = 0
    · exact .inl drained
    · exact .inr (effects.blocked drained)
  · intro unsent
    have blocked : flushed.ret = -1 :=
      effects.blocked (fun drained => unsent (effects.drained.mp drained))
    refine .inl ⟨thread, .inr ?_⟩
    rw [← blocked]
    exact position_moveTo _ _ _

/-- Applying a result. Clearing needs another thread that still decides, setting
needs that no cleared result is left to be applied later. -/
theorem inv_enableWrite {s : State} {thread : Thread} {ret : Int} {channel : Channel} (inv : Inv s)
    (here : s.position thread = .flushing (.returned ret))
    (ordered : ret < 0 → s.buffer.unread ≠ [] →
      s.position thread.other ≠ .flushing (.returned 0))
    (enabled : s.channel.enableWrite (ret < 0) = some channel) :
    Inv ({ s with channel := channel }.moveTo thread .idle) := by
  refine ⟨inv.valid, results_moveTo inv.results (fun _ returned => by cases returned), ?_⟩
  intro unsent
  have others : ∀ other, other ≠ thread → other = thread.other := by
    intro other different
    cases other <;> cases thread <;> first | rfl | exact absurd rfl different
  rcases inv.results thread ret here with rfl | rfl
  · -- a drained result: somebody else has to be deciding
    rcases inv.watched unsent with ⟨decider, deciding⟩ | ⟨-, quiet⟩
    · have different : decider ≠ thread := by
        rintro rfl
        rw [here] at deciding
        rcases deciding with impossible | impossible <;> cases impossible
      refine .inl ⟨decider, ?_⟩
      rwa [position_moveTo_other _ different]
    · exact absurd here (quiet thread)
  · right
    refine ⟨(Channel.enableWrite_effects enabled).2.2.1, ?_⟩
    intro other
    by_cases same : other = thread
    · subst same
      rw [position_moveTo]
      exact nofun
    · rw [position_moveTo_other _ same, others other same]
      exact ordered (by decide) unsent

/-! ## Steps and runs -/

theorem proceed_inv {s next : State} {thread : Thread} {answers : List Answer} (inv : Inv s)
    (ordered : Ordered s (.proceed thread answers) = true)
    (stepped : proceed s thread answers = some next) : Inv next := by
  unfold proceed at stepped
  simp only [Ordered] at ordered
  cases here : s.position thread with
  | idle => simp [here] at stepped
  | sending content =>
    simp only [here, ConcurrentFlush.proceed, Option.some.injEq,
      decide_eq_true_eq] at stepped ordered
    subst next
    exact inv_write inv ordered
  | flushing flush =>
    cases flush with
    | test =>
      simp only [here, Option.map_eq_some_iff] at stepped
      obtain ⟨flushed, returns, rfl⟩ := stepped
      exact inv_flush inv returns
    | returned ret =>
      simp only [here, ConcurrentFlush.proceed, Option.map_eq_some_iff] at stepped
      obtain ⟨channel, enabled, rfl⟩ := stepped
      refine inv_enableWrite inv here ?_ enabled
      intro negative unsent cleared
      have nonempty : s.buffer.empty = false := by
        rw [← Bool.not_eq_true, inv.valid.empty_iff]
        exact unsent
      simp [here, negative, nonempty, cleared] at ordered
    | peek => simp [here] at stepped
    | write buf => simp [here] at stepped
    | haveRead ret => simp [here] at stepped

theorem step_inv (s : State) (act : Act) (next : State) (inv : Inv s)
    (ordered : Ordered s act = true) (stepped : step s act = some next) : Inv next := by
  cases act with
  | send content =>
    simp only [step, ConcurrentFlush.step] at stepped
    split at stepped
    · rename_i outside
      cases stepped
      apply inv_enter inv outside
      intro ret returned
      cases returned
    · cases stepped
  | writeEvent =>
    simp only [step, ConcurrentFlush.step] at stepped
    split at stepped
    · rename_i outside
      cases stepped
      apply inv_enter inv outside
      intro ret returned
      cases returned
    · cases stepped
  | proceed thread answers => exact proceed_inv inv ordered stepped

theorem inv_start : Inv start := by
  refine ⟨valid_fresh, ?_, ?_⟩
  · intro thread ret returned
    cases returned
  · intro unsent
    exact absurd rfl unsent

/-- In every run that applies results in this order: whenever both threads are
outside and octets are unsent, epoll watches for writability. -/
theorem write_interest_kept (acts : List Act) (final : State)
    (ordered : RunMeets step (fun s act => Ordered s act = true) start acts)
    (reached : run step start acts = some final)
    (outside : ∀ thread, final.position thread = .idle) (unsent : final.buffer.empty = false) :
    final.channel.wantsWrite = true := by
  have inv : Inv final := run_guarded step_inv inv_start ordered reached
  have pending : final.buffer.unread ≠ [] := by
    rw [ne_eq, ← inv.valid.empty_iff, unsent]
    exact Bool.false_ne_true
  rcases inv.watched pending with ⟨thread, deciding⟩ | ⟨wanted, -⟩
  · rw [outside thread] at deciding
    rcases deciding with impossible | impossible <;> cases impossible
  · exact wanted

/-- A write event and a send that overlap harmlessly and leave an octet unsent. -/
def overlap : List Act :=
  [.send [65, 66], .proceed .worker [], .writeEvent, .proceed .loop [.accept 0, .fail .eagain],
    .proceed .worker [], .proceed .loop [], .proceed .worker []]

theorem write_interest_kept_overlap :
    ∃ final, run step start overlap = some final ∧ final.buffer.unread = [66] ∧
      final.channel.wantsWrite = true := by
  exact ⟨_, rfl, rfl, write_interest_kept overlap _ (by decide) rfl
    (fun thread => by cases thread <;> rfl) rfl⟩

/-- The loop thread drains, the worker's flush fails and sets the interest, and the
loop thread then clears it: the octet stays in the buffer, and epoll never reports. -/
theorem write_interest_lost :
    ∃ acts final, run step start acts = some final ∧
      (∀ thread, final.position thread = .idle) ∧ final.buffer.unread = [65] ∧
      final.channel.wantsWrite = false := by
  refine ⟨[.writeEvent, .proceed .loop [], .send [65], .proceed .worker [],
    .proceed .worker [.fail .eagain], .proceed .worker [], .proceed .loop []], _, rfl,
    ?_, rfl, by decide⟩
  intro thread
  cases thread <;> rfl

/-! ## The coarse machine within the fine one -/

theorem inFlush_inFlush (s : State) (thread : Thread) (buffer buffer' : Buffer)
    (octets octets' : Bytes) (flush flush' : Flush) :
    inFlush (inFlush s thread buffer octets flush) thread buffer' octets' flush' =
      inFlush s thread buffer' (octets ++ octets') flush' := by
  simp only [inFlush, State.moveTo, List.append_assoc, State.mk.injEq, true_and, and_true]
  funext other
  split <;> rfl

theorem inFlush_self {s : State} {thread : Thread} {flush : Flush}
    (here : s.position thread = .flushing flush) : inFlush s thread s.buffer [] flush = s := by
  simp only [inFlush, State.moveTo, List.append_nil]
  congr 1
  funext other
  split
  · rename_i same
    rw [same, here]
  · rfl

theorem fine_step (s : State) (thread : Thread) (octets : Bytes) {answer : Answer}
    {buffer buffer' : Buffer} {octets' : Bytes} {flush flush' : Flush}
    (stepped : flushStep answer buffer flush = some (flush', buffer', octets')) :
    ConcurrentFlush.step (inFlush s thread buffer octets flush) (.proceed thread answer) =
      some (inFlush s thread buffer' (octets ++ octets') flush') := by
  rw [← inFlush_inFlush s thread buffer buffer' octets octets' flush flush']
  have here : (inFlush s thread buffer octets flush).position thread = .flushing flush :=
    position_moveTo _ _ _
  have same : (inFlush s thread buffer octets flush).buffer = buffer := rfl
  simp only [ConcurrentFlush.step, ConcurrentFlush.proceed, here, same]
  cases flush with
  | returned ret => cases stepped
  | test => simp only [stepped, inFlush]
  | peek => simp only [stepped, inFlush]
  | write buf => simp only [stepped, inFlush]
  | haveRead ret => simp only [stepped, inFlush]

section
variable (s : State) (thread : Thread) {buffer : Buffer} (octets : Bytes)

theorem fine_drained (drained : ¬ 0 < buffer.readableBytes) :
    Reaches ConcurrentFlush.step (inFlush s thread buffer octets .test)
      (inFlush s thread buffer octets (.returned 0)) := by
  have tested : flushStep (.accept 0) buffer .test = some (.returned 0, buffer, []) := by
    simp only [flushStep, if_neg drained]
  have stepped := fine_step s thread octets tested
  rw [List.append_nil] at stepped
  exact .head _ stepped (.refl _)

/-- Up to the system call. -/
theorem fine_offered (readable : 0 < buffer.readableBytes) :
    Reaches ConcurrentFlush.step (inFlush s thread buffer octets .test)
      (inFlush s thread buffer octets (.write (buffer.peek kWriteBufferSize).2)) := by
  have tested : flushStep (.accept 0) buffer .test = some (.peek, buffer, []) := by
    simp only [flushStep, if_pos readable]
  have first := fine_step s thread octets tested
  have second := fine_step s thread octets
    (show flushStep (.accept 0) buffer .peek =
      some (.write (buffer.peek kWriteBufferSize).2, buffer, [])
      from rfl)
  rw [List.append_nil] at first second
  exact .head _ first (.head _ second (.refl _))

theorem fine_failed {errno : Errno} (tolerated : errno ≠ .other) (buf : Bytes) :
    Reaches ConcurrentFlush.step (inFlush s thread buffer octets (.write buf))
      (inFlush s thread buffer octets (.returned (-1))) := by
  have failed :
      flushStep (.fail errno) buffer (.write buf) = some (.returned (-1), buffer, []) := by
    cases errno with
    | other => exact absurd rfl tolerated
    | _ => rfl
  have stepped := fine_step s thread octets failed
  rw [List.append_nil] at stepped
  exact .head _ stepped (.refl _)

theorem fine_accepted (room : Nat) (buf : Bytes) :
    Reaches ConcurrentFlush.step (inFlush s thread buffer octets (.write buf))
      (inFlush s thread (buffer.haveRead (taken room buf.length))
        (octets ++ buf.take (taken room buf.length)) .test) := by
  have first := fine_step s thread octets
    (show flushStep (.accept room) buffer (.write buf) =
      some (.haveRead (taken room buf.length), buffer, buf.take (taken room buf.length)) from rfl)
  have second := fine_step s thread (octets ++ buf.take (taken room buf.length))
    (show flushStep (.accept 0) buffer (.haveRead (taken room buf.length)) =
      some (.test, buffer.haveRead (taken room buf.length), []) from rfl)
  rw [List.append_nil] at second
  exact .head _ first (.head _ second (.refl _))

/-- From its first test on, an undisturbed thread reproduces the whole call. -/
theorem fine_flush {answers : List Answer} {flushed : Flushed}
    (returns : writeBufferToFd answers buffer = some flushed) :
    Reaches ConcurrentFlush.step (inFlush s thread buffer octets .test)
      (inFlush s thread flushed.buffer (octets ++ flushed.accepted) (.returned flushed.ret)) := by
  induction answers generalizing buffer octets flushed with
  | nil =>
    rcases writeBufferToFd_cases returns with
      ⟨drained, rfl⟩ | ⟨readable, ⟨errno, tolerated, -⟩, rfl⟩ |
      ⟨-, room, rest, later, impossible, -⟩
    · rw [List.append_nil]
      exact fine_drained s thread octets drained
    · rw [List.append_nil]
      exact (fine_offered s thread octets readable).trans (fine_failed s thread octets tolerated _)
    · cases impossible
  | cons answer rest ih =>
    rcases writeBufferToFd_cases returns with
      ⟨drained, rfl⟩ | ⟨readable, ⟨errno, tolerated, -⟩, rfl⟩ |
      ⟨readable, room, rest, later, here, returns, rfl⟩
    · rw [List.append_nil]
      exact fine_drained s thread octets drained
    · rw [List.append_nil]
      exact (fine_offered s thread octets readable).trans (fine_failed s thread octets tolerated _)
    · cases here
      refine ((fine_offered s thread octets readable).trans
        (fine_accepted s thread octets room _)).trans ?_
      rw [← List.append_assoc]
      exact ih _ returns

end

theorem fine_of_coarse (s : State) (act : Act) (next : State) (stepped : step s act = some next) :
    Reaches ConcurrentFlush.step s next := by
  cases act with
  | send content => exact .head (.send content) stepped (.refl next)
  | writeEvent => exact .head .writeEvent stepped (.refl next)
  | proceed thread answers =>
    simp only [step, proceed] at stepped
    split at stepped
    · rename_i here
      simp only [Option.map_eq_some_iff] at stepped
      obtain ⟨flushed, returns, rfl⟩ := stepped
      have reached := fine_flush s thread [] returns
      rwa [inFlush_self here, List.nil_append] at reached
    · exact .head (.proceed thread (.accept 0)) stepped (.refl next)
    · exact .head (.proceed thread (.accept 0)) stepped (.refl next)
    · cases stepped

/-- Every state the coarse machine reaches, the fine one reaches. -/
theorem coarse_reachable {acts : List Act} {final : State}
    (reached : run step start acts = some final) :
    Reaches ConcurrentFlush.step start final := .of_run fine_of_coarse reached

end Ladder.Guarantees.WriteInterest

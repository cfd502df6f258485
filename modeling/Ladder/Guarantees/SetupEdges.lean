import Ladder.Library.Runs
import Ladder.Source.Connection

/-!
# Events during the set-up of a connection

`Connection::Init` on a worker thread, step by step, while the loop thread already
dispatches the events of the channel: epoll knows the channel before its callbacks
are set. The channel is edge-triggered, so a report that finds no callback is not
repeated.
-/
namespace Ladder.Guarantees.SetupEdges
open Ladder.Library Ladder.Source

inductive InitStep where
  | setEpollEdgeTriggered
  | updateToLoop
  | setCallback (which : Channel.Callback)
  deriving DecidableEq, Repr

/-- `Connection::Init` with `SetChannelCallbacks`. -/
def init : List InitStep :=
  [.setEpollEdgeTriggered, .updateToLoop, .setCallback .read, .setCallback .write,
    .setCallback .close, .setCallback .error]

/-- `remaining` are the steps `Init` has still to make, `set` the callbacks the channel
has so far. Every report `HandleEvents` was called with is kept with the callbacks
it invoked. -/
structure State where
  connection : Connection
  remaining : List InitStep
  set : List Channel.Callback
  delivered : List (BitVec 32 × List Channel.Callback)

def start (sendFile notifies : Bool) : State :=
  ⟨{ Connection.create sendFile notifies with channel := .create }, init, [], []⟩

inductive Act where
  | init
  | dispatch (event : Event)
  deriving DecidableEq, Repr

def initStep (s : State) : InitStep → Option State
  | .setEpollEdgeTriggered =>
    some { s with connection.channel := s.connection.channel.setEpollEdgeTriggered true }
  | .updateToLoop =>
    (s.connection.channel.updateToLoop .add).map fun channel =>
      { s with connection.channel := channel }
  | .setCallback which => some { s with set := which :: s.set }

section
variable (kernel : Kernel)

/-- The members of the channel: those not yet set are empty. -/
def callbacks (s : State) (event : Event) : Channel.Callbacks Connection :=
  let all := Connection.channelCallbacks kernel event
  { read := if .read ∈ s.set then all.read else none
    write := if .write ∈ s.set then all.write else none
    close := if .close ∈ s.set then all.close else none
    error := if .error ∈ s.set then all.error else none }

/-- What `HandleEvents` finds in `revents_` after the poller has put the report there. -/
def reported (s : State) (event : Event) : BitVec 32 :=
  (s.connection.channel.setRevents event.evts).revents

/-- `SetRevents` by the poller, then `HandleEvents`. -/
def dispatch (s : State) (event : Event) : Option State := do
  let evts := reported s event
  let (connection, invoked) ← Channel.handleEvents (callbacks kernel s event) evts
    { s.connection with channel.revents := 0 }
  return { s with connection := connection, delivered := s.delivered ++ [(evts, invoked)] }

/-- Events are delivered from the registration on. -/
def step (s : State) : Act → Option State
  | .init =>
    match s.remaining with
    | [] => none
    | next :: rest => initStep { s with remaining := rest } next
  | .dispatch event =>
    if s.connection.channel.registered.isSome then dispatch kernel s event else none

end

/-- The report was answered by the callback for it, if it is one of hang-up, error
or input. -/
def Handled (entry : BitVec 32 × List Channel.Callback) : Prop :=
  ∀ which, Channel.corresponding entry.1 = some which → which ∈ entry.2

/-- Events are dispatched when the callback for them is set. -/
def Ready (s : State) : Act → Bool
  | .init => true
  | .dispatch event => (Channel.corresponding (reported s event)).all (· ∈ s.set)

/-! ## Steps -/

variable {kernel : Kernel} {s next : State}

theorem callbacks_isSet (event : Event) (which : Channel.Callback) :
    (callbacks kernel s event).isSet which = true ↔ which ∈ s.set := by
  cases which <;> simp only [callbacks, Channel.Callbacks.isSet] <;> split <;>
    simp_all [Connection.channelCallbacks]

theorem init_delivered (stepped : step kernel s .init = some next) :
    next.delivered = s.delivered := by
  simp only [step] at stepped
  split at stepped
  · cases stepped
  · rename_i first rest _
    cases first with
    | setEpollEdgeTriggered =>
      cases stepped
      rfl
    | updateToLoop =>
      obtain ⟨channel, -, eq⟩ := Option.map_eq_some_iff.mp stepped
      cases eq
      rfl
    | setCallback which =>
      cases stepped
      rfl

/-- A dispatch adds one report, which is handled exactly when the step is ready. -/
theorem dispatch_delivered {event : Event} (stepped : step kernel s (.dispatch event) = some next) :
    ∃ entry, next.delivered = s.delivered ++ [entry] ∧
      (Handled entry ↔ Ready s (.dispatch event) = true) := by
  simp only [step] at stepped
  split at stepped
  · obtain ⟨⟨connection, invoked⟩, handled, returned⟩ := Option.bind_eq_some_iff.mp stepped
    cases returned
    refine ⟨(reported s event, invoked), rfl, ?_⟩
    simp only [Handled, Ready]
    cases wanted : Channel.corresponding (reported s event) with
    | none => simp
    | some which =>
      have answers := Channel.handleEvents_answers handled wanted
      rw [callbacks_isSet] at answers
      simp [answers]
  · cases stepped

theorem step_keeps (s : State) (act : Act) (next : State)
    (handled : ∀ entry ∈ s.delivered, Handled entry) (stepped : step kernel s act = some next) :
    (∀ entry ∈ next.delivered, Handled entry) ↔ Ready s act = true := by
  cases act with
  | init =>
    rw [init_delivered stepped]
    exact ⟨fun _ => rfl, fun _ => handled⟩
  | dispatch event =>
    obtain ⟨entry, delivered, exactly⟩ := dispatch_delivered stepped
    rw [delivered, ← exactly, List.forall_mem_append]
    simp only [List.forall_mem_singleton]
    exact and_iff_right handled

theorem step_lost (s : State) (act : Act) (next : State)
    (swallowed : ¬ ∀ entry ∈ s.delivered, Handled entry) (stepped : step kernel s act = some next) :
    ¬ ∀ entry ∈ next.delivered, Handled entry := by
  intro handled
  apply swallowed
  cases act with
  | init => rwa [init_delivered stepped] at handled
  | dispatch event =>
    obtain ⟨entry, delivered, -⟩ := dispatch_delivered stepped
    rw [delivered, List.forall_mem_append] at handled
    exact handled.1

/-- Each callback is set or among the steps to come. -/
theorem step_pending (s : State) (act : Act) (next : State)
    (pending : ∀ which, which ∈ s.set ∨ .setCallback which ∈ s.remaining)
    (stepped : step kernel s act = some next) (which : Channel.Callback) :
    which ∈ next.set ∨ .setCallback which ∈ next.remaining := by
  have before := pending which
  cases act with
  | init =>
    simp only [step] at stepped
    split at stepped
    · cases stepped
    · rename_i first rest remaining
      rw [remaining, List.mem_cons] at before
      cases first with
      | setEpollEdgeTriggered =>
        cases stepped
        simpa using before
      | updateToLoop =>
        obtain ⟨channel, -, eq⟩ := Option.map_eq_some_iff.mp stepped
        cases eq
        simpa using before
      | setCallback first =>
        cases stepped
        simpa [or_assoc, or_left_comm] using before
  | dispatch event =>
    simp only [step] at stepped
    split at stepped
    · obtain ⟨⟨connection, invoked⟩, -, returned⟩ := Option.bind_eq_some_iff.mp stepped
      cases returned
      exact before
    · cases stepped

/-! ## Runs -/

/-- Once `Init` has returned no event is swallowed. -/
theorem ready_of_init_returned {sendFile notifies : Bool} {acts : List Act} {final : State}
    (reached : run (step kernel) (start sendFile notifies) acts = some final)
    (returned : final.remaining = []) (act : Act) : Ready final act = true := by
  have initially : ∀ which, which ∈ (start sendFile notifies).set ∨
      .setCallback which ∈ (start sendFile notifies).remaining := by
    intro which
    cases which <;> simp [start, init]
  have pending := run_invariant step_pending initially reached
  have all : ∀ which, which ∈ final.set := by
    intro which
    simpa [returned] using pending which
  cases act with
  | init => rfl
  | dispatch event =>
    simp only [Ready]
    cases Channel.corresponding (reported final event) with
    | none => rfl
    | some which => simp [all]

variable (kernel) in
/-- Whatever the interleaving: every hang-up, error or input that was delivered has
been handled by its callback exactly when each was dispatched after that callback
had been set. -/
theorem setup_edges_handled (sendFile notifies : Bool) (acts : List Act) (final : State)
    (reached : run (step kernel) (start sendFile notifies) acts = some final) :
    (∀ entry ∈ final.delivered, Handled entry) ↔
      RunMeets (step kernel) (fun s act => Ready s act = true) (start sendFile notifies) acts :=
  run_keeps_iff step_keeps step_lost (by nofun) reached

/-- The first report is writability alone; input comes once `read_callback_` is set,
the hang-up after `Init`. -/
def lateInput : List Act :=
  [.init, .init, .dispatch ⟨kPollOut, [], none, [], []⟩, .init,
    .dispatch ⟨kPollIn, [.data [1], .fail .eagain], some [.consume 1], [], []⟩, .init, .init, .init,
    .dispatch ⟨kPollHup ||| kPollIn, [], none, [], []⟩]

theorem setup_edges_handled_late :
    ∃ final, run (step .noFiles) (start false true) lateInput = some final ∧
      final.delivered = [(kPollOut, []), (kPollIn, [.read]), (kPollHup ||| kPollIn, [.close])] ∧
      ∀ entry ∈ final.delivered, Handled entry :=
  ⟨_, rfl, by decide,
    (setup_edges_handled .noFiles false true lateInput _ rfl).mpr (by decide +kernel)⟩

/-- Input that arrives between `UpdateToLoop` and `SetReadCallback` is taken from epoll
and dropped: `Init` returns, and nothing has been read. -/
theorem setup_edges_swallowed :
    ∃ acts final, run (step .noFiles) (start false true) acts = some final ∧
      final.remaining = [] ∧ final.delivered = [(kPollIn, [])] ∧
      final.connection.channel.revents = 0 ∧ final.connection.trace = [] ∧
      ¬ Handled (kPollIn, []) := by
  refine ⟨[.init, .init, .dispatch ⟨kPollIn, [.data [1], .fail .eagain], none, [], []⟩,
    .init, .init, .init, .init], _, rfl, rfl, by decide, by decide, rfl, ?_⟩
  intro handled
  exact absurd (handled .read (by decide)) List.not_mem_nil

end Ladder.Guarantees.SetupEdges

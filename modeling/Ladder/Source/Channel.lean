import Mathlib.Data.BitVec

/-!
# Channel

Source: ladder/src/Channel.cpp, the epoll build, with the event bits of
ladder/include/Socket.h. `registered` is the interest set epoll holds for the
descriptor: `UpdateToLoop` copies `events_` there (`EventPoller::UpdateChannel`).
A callback is a transformer of the state its owner keeps, `none` when it ends the
process; `HandleEvents` returns that state with the callbacks it invoked.
-/
namespace Ladder.Source

def kPollIn : BitVec 32 := 0x001#32
def kPollOut : BitVec 32 := 0x004#32
def kPollErr : BitVec 32 := 0x008#32
def kPollHup : BitVec 32 := 0x010#32
def kPollRdHup : BitVec 32 := 0x2000#32
def kPollEt : BitVec 32 := 0x80000000#32

/-- The test `evts & mask` of an `if`. -/
def polled (evts mask : BitVec 32) : Bool := evts &&& mask != 0

structure Channel where
  events : BitVec 32
  revents : BitVec 32
  registered : Option (BitVec 32)
  deriving DecidableEq, Repr

namespace Channel

/-- The constructor: `kPollOut` is set from the start. -/
def create : Channel := ⟨kPollIn ||| kPollRdHup ||| kPollOut, 0, none⟩

inductive EpollOp where
  | add
  | mod
  deriving DecidableEq, Repr

/-- `UpdateToLoop`: adding a registered descriptor is EEXIST, which the poller
tolerates; modifying an unregistered one is ENOENT, which ends the process. -/
def updateToLoop (op : EpollOp) (c : Channel) : Option Channel :=
  match op, c.registered with
  | .add, none => some { c with registered := some c.events }
  | .add, some _ => some c
  | .mod, some _ => some { c with registered := some c.events }
  | .mod, none => none

def removeFromLoop (c : Channel) : Channel := { c with registered := none }

def setEpollEdgeTriggered (edgeTriggered : Bool) (c : Channel) : Channel :=
  { c with events := if edgeTriggered then c.events ||| kPollEt else c.events &&& ~~~kPollEt }

def enableWrite (enable : Bool) (c : Channel) : Option Channel :=
  updateToLoop .mod
    { c with events := if enable then c.events ||| kPollOut else c.events &&& ~~~kPollOut }

/-- The channel of a connection after `Connection::Init`. -/
def initialised : Channel :=
  { create with
    events := create.events ||| kPollEt
    registered := some (create.events ||| kPollEt) }

/-- The interest set held by epoll contains EPOLLOUT. -/
def wantsWrite (c : Channel) : Bool := c.registered.any (polled · kPollOut)

theorem polled_or_kPollOut (evts : BitVec 32) : polled (evts ||| kPollOut) kPollOut = true := by
  have kept : (evts ||| kPollOut) &&& kPollOut = kPollOut := by
    ext i
    simp +contextual
  rw [polled, kept]
  decide

theorem polled_and_not_kPollOut (evts : BitVec 32) :
    polled (evts &&& ~~~kPollOut) kPollOut = false := by
  have cleared : evts &&& ~~~kPollOut &&& kPollOut = 0#32 := by
    rw [BitVec.and_assoc]
    ext i
    simp
  rw [polled, cleared]
  decide

/-- `EnableWrite` succeeds for registered channels only, and then both `events_`
and the interest set of epoll have the bit as asked. -/
theorem enableWrite_effects {enable : Bool} {c after : Channel}
    (enabled : c.enableWrite enable = some after) :
    c.registered.isSome = true ∧ after.registered.isSome = true ∧ after.wantsWrite = enable ∧
      polled after.events kPollOut = enable := by
  unfold enableWrite updateToLoop at enabled
  cases held : c.registered with
  | none => simp [held] at enabled
  | some evts =>
    simp only [held, Option.some.injEq] at enabled
    subst after
    cases enable with
    | true => exact ⟨rfl, rfl, polled_or_kPollOut _, polled_or_kPollOut _⟩
    | false => exact ⟨rfl, rfl, polled_and_not_kPollOut _, polled_and_not_kPollOut _⟩

theorem enableWrite_isSome {c : Channel} (held : c.registered.isSome = true) (enable : Bool) :
    ∃ after, c.enableWrite enable = some after := by
  obtain ⟨evts, registered⟩ := Option.isSome_iff_exists.mp held
  simp only [enableWrite, updateToLoop, registered]
  exact ⟨_, rfl⟩

def setRevents (evts : BitVec 32) (c : Channel) : Channel :=
  { c with revents := c.revents ||| evts }

inductive Callback where
  | read
  | write
  | close
  | error
  deriving DecidableEq, Repr

/-- The four callback members; a `std::function` may be empty. -/
structure Callbacks (σ : Type) where
  read : Option (σ → Option σ)
  write : Option (σ → Option σ)
  close : Option (σ → Option σ)
  error : Option (σ → Option σ)

section
variable {σ : Type}

def Callbacks.isSet (callbacks : Callbacks σ) : Callback → Bool
  | .read => callbacks.read.isSome
  | .write => callbacks.write.isSome
  | .close => callbacks.close.isSome
  | .error => callbacks.error.isSome

/-- The callback that answers a report of hang-up, error or input, in the order in
which `HandleEvents` looks at them. -/
def corresponding (evts : BitVec 32) : Option Callback :=
  if polled evts kPollHup then some .close
  else if polled evts kPollErr then some .error
  else if polled evts (kPollIn ||| kPollRdHup) then some .read
  else none

/-- `if (callback_) callback_()`. -/
def invoke (which : Callback) (callback : Option (σ → Option σ)) (s : σ) :
    Option (σ × List Callback) :=
  match callback with
  | some body => (body s).map fun after => (after, [which])
  | none => some (s, [])

/-- `if (evts & mask) { if (callback_) callback_(); }`. -/
def invokeIf (ready : Bool) (which : Callback) (callback : Option (σ → Option σ)) (s : σ) :
    Option (σ × List Callback) :=
  if ready then invoke which callback s else some (s, [])

/-- `HandleEvents`, with the value taken from `revents_` as its argument. -/
def handleEvents (callbacks : Callbacks σ) (evts : BitVec 32) (s : σ) :
    Option (σ × List Callback) :=
  if polled evts kPollHup then invoke .close callbacks.close s
  else if polled evts kPollErr then invoke .error callbacks.error s
  else do
    let (s, written) ← invokeIf (polled evts kPollOut) .write callbacks.write s
    let (s, read) ← invokeIf (polled evts (kPollIn ||| kPollRdHup)) .read callbacks.read s
    return (s, written ++ read)

/-- The three ways through `HandleEvents`. -/
theorem handleEvents_cases {callbacks : Callbacks σ} {evts : BitVec 32} {s after : σ}
    {invoked : List Callback} (handled : handleEvents callbacks evts s = some (after, invoked)) :
    (polled evts kPollHup = true ∧ invoke .close callbacks.close s = some (after, invoked)) ∨
    (polled evts kPollHup = false ∧ polled evts kPollErr = true ∧
      invoke .error callbacks.error s = some (after, invoked)) ∨
    (polled evts kPollHup = false ∧ polled evts kPollErr = false ∧ ∃ middle written read,
      invokeIf (polled evts kPollOut) .write callbacks.write s = some (middle, written) ∧
      invokeIf (polled evts (kPollIn ||| kPollRdHup)) .read callbacks.read middle =
        some (after, read) ∧ invoked = written ++ read) := by
  unfold handleEvents at handled
  split at handled
  · rename_i hup
    exact .inl ⟨hup, handled⟩
  · rename_i noHup
    rw [Bool.not_eq_true] at noHup
    split at handled
    · rename_i err
      exact .inr (.inl ⟨noHup, err, handled⟩)
    · rename_i noErr
      rw [Bool.not_eq_true] at noErr
      obtain ⟨⟨middle, written⟩, writes, rest⟩ := Option.bind_eq_some_iff.mp handled
      obtain ⟨⟨last, read⟩, reads, ends⟩ := Option.bind_eq_some_iff.mp rest
      cases ends
      exact .inr (.inr ⟨noHup, noErr, middle, written, read, writes, reads, rfl⟩)

theorem invoke_invoked {which : Callback} {callback : Option (σ → Option σ)} {s after : σ}
    {invoked : List Callback} (ran : invoke which callback s = some (after, invoked)) :
    invoked = if callback.isSome then [which] else [] := by
  cases callback with
  | none =>
    cases ran
    rfl
  | some body =>
    obtain ⟨_, -, eq⟩ := Option.map_eq_some_iff.mp ran
    cases eq
    rfl

theorem invokeIf_subset {ready : Bool} {which : Callback} {callback : Option (σ → Option σ)}
    {s after : σ} {invoked : List Callback}
    (ran : invokeIf ready which callback s = some (after, invoked)) : invoked ⊆ [which] := by
  unfold invokeIf at ran
  split at ran
  · rw [invoke_invoked ran]
    split
    · exact List.Subset.refl _
    · exact List.nil_subset _
  · cases ran
    exact List.nil_subset _

/-- `HandleEvents` runs the callback that answers a report exactly when it is set. -/
theorem handleEvents_answers {callbacks : Callbacks σ} {evts : BitVec 32} {s after : σ}
    {invoked : List Callback} {which : Callback}
    (handled : handleEvents callbacks evts s = some (after, invoked))
    (wanted : corresponding evts = some which) :
    which ∈ invoked ↔ callbacks.isSet which = true := by
  unfold corresponding at wanted
  rcases handleEvents_cases handled with ⟨hup, closes⟩ | ⟨noHup, err, fails⟩ |
    ⟨noHup, noErr, middle, written, read, writes, reads, rfl⟩
  · rw [if_pos hup] at wanted
    cases wanted
    rw [invoke_invoked closes]
    simp [Callbacks.isSet]
  · rw [if_neg (Bool.eq_false_iff.mp noHup), if_pos err] at wanted
    cases wanted
    rw [invoke_invoked fails]
    simp [Callbacks.isSet]
  · rw [if_neg (Bool.eq_false_iff.mp noHup), if_neg (Bool.eq_false_iff.mp noErr)] at wanted
    split at wanted
    · rename_i input
      cases wanted
      have notWritten : Callback.read ∉ written := by
        intro member
        simpa using invokeIf_subset writes member
      simp only [invokeIf, input, if_true] at reads
      rw [List.mem_append, or_iff_right notWritten, invoke_invoked reads]
      simp [Callbacks.isSet]
    · cases wanted

theorem invoke_some {which : Callback} {body : σ → Option σ} {s after : σ} {invoked : List Callback}
    (ran : invoke which (some body) s = some (after, invoked)) : body s = some after := by
  obtain ⟨_, returned, eq⟩ := Option.map_eq_some_iff.mp ran
  cases eq
  exact returned

end
end Channel
end Ladder.Source

import Ladder.Library.LowestBit
import Ladder.Source.Channel

/-!
# EventPoller on kqueue

Source: the kqueue parts of ladder/src/EventPoller.cpp, ladder/src/Channel.cpp and
ladder_client/src/Timer.cpp, and the loop of `StartLoop` in ladder/src/EventLoop.cpp. The
kernel's side is a table of knotes: a pair of identifier and filter has at most one,
EV_ADD enables it and makes it point to the caller's `udata`, EV_DISABLE and EV_DELETE
fail with ENOENT where there is none, and a closed descriptor is EBADF.
-/
namespace Ladder.Source.Kqueue
open Ladder.Library

inductive Filter where
  | read
  | write
  | timer
  | user
  deriving DecidableEq, Repr

/-- What `udata` points to: the channel of the poller's pipe, which has no `loop_`, the
channel of a descriptor, or that of a timer. -/
inductive Owner where
  | pipe
  | channel (id : Nat)
  | timer (id : Nat)
  deriving DecidableEq, Repr

structure Knote where
  enabled : Bool
  udata : Owner
  deriving DecidableEq, Repr

structure Queue where
  notes : Nat → Filter → Option Knote
  isOpen : Nat → Bool

def Queue.put (ident : Nat) (filter : Filter) (note : Option Knote) (q : Queue) : Queue :=
  { q with notes := fun i f => if i = ident ∧ f = filter then note else q.notes i f }

/-- The flags the source passes. -/
inductive Flags where
  | addEnable
  | disable
  | delete
  deriving DecidableEq, Repr

/-- The filters whose identifier is a descriptor. -/
def Filter.ofDescriptor : Filter → Bool
  | .read | .write => true
  | .timer | .user => false

/-- `kqueue_ctl`: a change without room for events returns 0, or -1 with a tolerated
error. -/
def kqueueCtl (ident : Nat) (filter : Filter) (flags : Flags) (udata : Owner) (q : Queue) :
    Int × Queue :=
  if filter.ofDescriptor && !q.isOpen ident then (-1, q)
  else
    match flags, q.notes ident filter with
    | .addEnable, _ => (0, q.put ident filter (some ⟨true, udata⟩))
    | .disable, some _ => (0, q.put ident filter (some ⟨false, udata⟩))
    | .delete, some _ => (0, q.put ident filter none)
    | .disable, none => (-1, q)
    | .delete, none => (-1, q)

/-- `stat_2_flt_`. -/
def stat2Flt (status : BitVec 32) : Option Filter :=
  if status = kPollIn then some .read
  else if status = kPollOut then some .write
  else if status = kPollErr then some .user
  else none

/-- `flt_2_stat_`; a user event stands for an error. -/
def flt2Stat : Filter → BitVec 32
  | .read => kPollIn
  | .write => kPollOut
  | .timer => kPollIn
  | .user => kPollErr

structure Poller where
  queue : Queue
  curPollSize : Int

/-- The body of the loop of `UpdateChannel`, over `ret` and the kernel's table. -/
def updateFilter (fd : Nat) (flags : Flags) (udata : Owner) (status : BitVec 32)
    (acc : Int × Queue) :
    Int × Queue :=
  match stat2Flt status with
  | none => acc
  | some filter =>
    let (n, q) := kqueueCtl fd filter flags udata acc.2
    (if 0 < n then n else acc.1, q)

/-- `UpdateChannel`; the mask has 32 bits. -/
def updateChannel (fd : Nat) (events : BitVec 32) (flags : Flags) (udata : Owner) (p : Poller) :
    Option Poller :=
  (eachBit (updateFilter fd flags udata) 33 events (-1, p.queue)).map fun acc =>
    ⟨acc.2, if 0 ≤ acc.1 then p.curPollSize + 1 else p.curPollSize⟩

def validFilters : List Filter := [.read, .write, .timer]

/-- `RemoveChannel`. -/
def removeChannel (fd : Nat) (p : Poller) : Poller :=
  let acc := validFilters.foldl
    (fun acc filter =>
      let (n, q) := kqueueCtl fd filter .delete (.channel 0) acc.2
      (if 0 < n then n else acc.1, q))
    (-1, p.queue)
  ⟨acc.2, if 0 ≤ acc.1 then p.curPollSize - 1 else p.curPollSize⟩

/-- `UpdateEvent`. -/
def updateEvent (ident : Nat) (filter : Filter) (flags : Flags) (udata : Owner) (p : Poller) :
    Poller :=
  { p with queue := (kqueueCtl ident filter flags udata p.queue).2 }

/-- `socket::close`: the kernel drops the knotes of the descriptor. -/
def Queue.close (fd : Nat) (q : Queue) : Queue where
  notes := fun i f => if i = fd ∧ f.ofDescriptor then none else q.notes i f
  isOpen := fun i => i != fd && q.isOpen i

/-- The kernel hands out a descriptor. -/
def Queue.opened (fd : Nat) (q : Queue) : Queue :=
  { q with isOpen := fun i => i == fd || q.isOpen i }

structure Channel where
  fd : Nat
  events : BitVec 32
  deriving DecidableEq, Repr

/-- The constructor. -/
def Channel.create (fd : Nat) : Channel := ⟨fd, kPollIn⟩

def Channel.updateToLoop (flags : Flags) (id : Nat) (c : Channel) (p : Poller) : Option Poller :=
  updateChannel c.fd c.events flags (.channel id) p

/-- `EnableWrite` overwrites `events_`. -/
def Channel.enableWrite (enable : Bool) (id : Nat) (c : Channel) (p : Poller) :
    Option (Channel × Poller) :=
  let c := { c with events := kPollOut }
  (c.updateToLoop (if enable then .addEnable else .disable) id p).map (c, ·)

/-- `timer_fd_`, the same for all timers. -/
def timerFd : Nat := 1

/-! ## Poll and the dispatch of StartLoop -/

/-- An event reported by `kevent`; `error` is EV_ERROR. -/
structure Report where
  filter : Filter
  error : Bool
  udata : Owner
  deriving DecidableEq, Repr

/-- `SetRevents`. -/
def setRevents (udata : Owner) (evt : BitVec 32) (revents : Owner → BitVec 32) :
    Owner → BitVec 32 :=
  fun c => if c = udata then revents c ||| evt else revents c

/-- The loop of `Poll`: the `revents_` of all channels and `active_channels`. -/
def poll : List Report → (Owner → BitVec 32) → List Owner → (Owner → BitVec 32) × List Owner
  | [], revents, active => (revents, active)
  | evt :: rest, revents, active =>
    if evt.error then poll rest (setRevents evt.udata kPollErr revents) active
    else poll rest (setRevents evt.udata (flt2Stat evt.filter) revents) (active ++ [evt.udata])

section
variable {σ : Type} (callbacks : σ → Owner → Channel.Callbacks σ) (alive : σ → Owner → Bool)

/-- `HandleEvents`, with the value taken from `revents_` as its argument. -/
def handleEvents (callbacks : Channel.Callbacks σ) (evts : BitVec 32) (s : σ) : Option σ :=
  if polled evts kPollErr then (Channel.invoke .error callbacks.error s).map Prod.fst
  else
    (Channel.invokeIf (polled evts kPollOut) .write callbacks.write s).bind fun written =>
      (Channel.invokeIf (polled evts kPollIn) .read callbacks.read written.1).map Prod.fst

/-- The dispatch of `StartLoop`. An entry that points to a channel which a callback has
destroyed gives none. -/
def handleAll : List Owner → (Owner → BitVec 32) → σ → Option ((Owner → BitVec 32) × σ)
  | [], revents, s => some (revents, s)
  | c :: rest, revents, s =>
    if alive s c then
      match handleEvents (callbacks s c) (revents c) s with
      | some s => handleAll rest (fun other => if other = c then 0 else revents other) s
      | none => none
    else none

/-- A round of `StartLoop`. -/
def round (s : (Owner → BitVec 32) × σ) (reports : List Report) :
    Option ((Owner → BitVec 32) × σ) :=
  let (revents, active) := poll reports s.1 []
  handleAll callbacks alive active revents s.2

end
end Ladder.Source.Kqueue

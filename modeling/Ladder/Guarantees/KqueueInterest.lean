import Ladder.Library.Runs
import Ladder.Source.KqueuePoller

/-!
# What a kqueue loop listens to

Channels and timers of one loop on kqueue: construction and registration, `EnableWrite`,
removal, closing of descriptors and timers, in any order. `EnableWrite` overwrites
`events_`, and the poller splits the mask into filters; what the kernel listens to is
all the same a table with one reader and one writer per descriptor, in which
`EnableWrite` touches the writer only.
-/
namespace Ladder.Guarantees.KqueueInterest
open Ladder.Library Ladder.Source Ladder.Source.Kqueue

inductive Act where
  /-- A channel for a descriptor that the kernel hands out, with its `UpdateToLoop`. -/
  | create (fd : Nat)
  | enableWrite (id : Nat) (enable : Bool)
  | removeFromLoop (id : Nat)
  | close (fd : Nat)
  | setInterval (timer : Nat)
  /-- `~Timer`. -/
  | deleteTimer
  /-- The kernel drops a one-shot timer that has expired. -/
  | expire
  deriving DecidableEq, Repr

structure State where
  channels : List Kqueue.Channel
  poller : Poller

/-- The constructor of `EventPoller`, which registers the channel of its pipe. -/
def construct (pipe : Nat) : Option State :=
  (updateChannel pipe (Kqueue.Channel.create pipe).events .addEnable .pipe
    ⟨⟨fun _ _ => none, (· == pipe)⟩, 0⟩).map fun p =>
      ⟨[], { p with curPollSize := p.curPollSize + 1 }⟩

def step (s : State) : Act → Option State
  | .create fd =>
    if s.poller.queue.isOpen fd then none
    else
      ((Kqueue.Channel.create fd).updateToLoop .addEnable s.channels.length
        { s.poller with queue := s.poller.queue.opened fd }).map fun p =>
          ⟨s.channels ++ [.create fd], p⟩
  | .enableWrite id enable =>
    match s.channels[id]? with
    | some c => (c.enableWrite enable id s.poller).map fun after =>
      ⟨s.channels.set id after.1, after.2⟩
    | none => none
  | .removeFromLoop id =>
    match s.channels[id]? with
    | some c => some { s with poller := removeChannel c.fd s.poller }
    | none => none
  | .close fd => some { s with poller := { s.poller with queue := s.poller.queue.close fd } }
  | .setInterval timer =>
    some { s with poller := updateEvent timerFd .timer .addEnable (.timer timer) s.poller }
  | .deleteTimer => some { s with poller := updateEvent timerFd .timer .delete (.timer 0) s.poller }
  | .expire =>
    if (s.poller.queue.notes timerFd .timer).isSome then
      some { s with poller := { s.poller with queue := s.poller.queue.put timerFd .timer none } }
    else none

/-! ## The table -/

/-- Who is told that a descriptor can be read or written, and that the timer expired. -/
structure Interest where
  fds : List Nat
  isOpen : Nat → Bool
  reader : Nat → Option Owner
  writer : Nat → Option Owner
  timer : Option Owner

def assign (fd : Nat) (owner : Option Owner) (table : Nat → Option Owner) : Nat → Option Owner :=
  fun other => if other = fd then owner else table other

def Interest.step (t : Interest) : Act → Option Interest
  | .create fd =>
    if t.isOpen fd then none
    else some { t with
      fds := t.fds ++ [fd]
      isOpen := fun other => other == fd || t.isOpen other
      reader := assign fd (some (.channel t.fds.length)) t.reader }
  | .enableWrite id enable =>
    match t.fds[id]? with
    | some fd =>
      if t.isOpen fd then
        some { t with writer := assign fd (if enable then some (.channel id) else none) t.writer }
      else some t
    | none => none
  | .removeFromLoop id =>
    match t.fds[id]? with
    | some fd =>
      -- the number of the timers is that of a descriptor, too
      some { t with
        reader := assign fd none t.reader
        writer := assign fd none t.writer
        timer := if fd = timerFd then none else t.timer }
    | none => none
  | .close fd =>
    some { t with
      isOpen := fun other => other != fd && t.isOpen other
      reader := assign fd none t.reader
      writer := assign fd none t.writer }
  | .setInterval timer => some { t with timer := some (.timer timer) }
  | .deleteTimer => some { t with timer := none }
  | .expire => if t.timer.isSome then some { t with timer := none } else none

def Interest.start (pipe : Nat) : Interest :=
  ⟨[], (· == pipe), assign pipe (some .pipe) fun _ => none, fun _ => none, none⟩

/-- Whom a knote points to, when it is enabled. -/
def enabledOwner : Option Knote → Option Owner
  | some ⟨true, udata⟩ => some udata
  | some ⟨false, _⟩ => none
  | none => none

/-- Whom the kernel tells about an event. -/
def told (q : Queue) (ident : Nat) (filter : Filter) : Option Owner :=
  enabledOwner (q.notes ident filter)

/-! ## A call of kqueue_ctl and the loop over the mask -/

theorem notes_put (q : Queue) (ident : Nat) (filter : Filter) (note : Option Knote)
    (i : Nat) (f : Filter) :
    (q.put ident filter note).notes i f = if i = ident ∧ f = filter then note else q.notes i f :=
      rfl

/-- The return value is never the number of an event. -/
theorem kqueueCtl_nonpos (ident : Nat) (filter : Filter) (flags : Flags)
    (udata : Owner) (q : Queue) :
    ¬ 0 < (kqueueCtl ident filter flags udata q).1 := by
  unfold kqueueCtl
  split
  · simp
  · split <;> simp

/-- The filters that stand for the bits of a mask. -/
def filtersAt (events : BitVec 32) (low count : Nat) : List Filter :=
  (List.range' low count).filterMap fun i =>
    if events.getLsbD i then stat2Flt (BitVec.twoPow 32 i) else none

def ctlAll (fd : Nat) (flags : Flags) (udata : Owner) (filters : List Filter) (q : Queue) : Queue :=
  filters.foldl (fun q filter => (kqueueCtl fd filter flags udata q).2) q

theorem onBits_updateFilter (fd : Nat) (flags : Flags) (udata : Owner) (events : BitVec 32)
    (count low : Nat) (ret : Int) (q : Queue) :
    onBits (updateFilter fd flags udata) events count low (ret, q) =
      (ret, ctlAll fd flags udata (filtersAt events low count) q) := by
  induction count generalizing low q with
  | zero => rfl
  | succ count ih =>
    rw [onBits, filtersAt, List.range'_succ, List.filterMap_cons]
    cases events.getLsbD low with
    | false => exact ih (low + 1) q
    | true =>
      simp only [if_true, updateFilter]
      cases stat2Flt (BitVec.twoPow 32 low) with
      | none => exact ih (low + 1) q
      | some filter =>
        simp only [if_neg (kqueueCtl_nonpos fd filter flags udata q)]
        exact ih (low + 1) _

/-- `UpdateChannel` goes once through the filters of the mask, and does not count. -/
theorem updateChannel_eq (fd : Nat) (events : BitVec 32) (flags : Flags)
    (udata : Owner) (p : Poller) :
    updateChannel fd events flags udata p =
      some ⟨ctlAll fd flags udata (filtersAt events 0 32) p.queue, p.curPollSize⟩ := by
  have loop := eachBit_eq_onBits (updateFilter fd flags udata) events (-1, p.queue)
    (Nat.zero_add 32) (fun i below => absurd below (Nat.not_lt_zero i)) (show 32 < 33 by decide)
  rw [updateChannel, loop, onBits_updateFilter, Option.map_some,
    if_neg (show ¬ (0 : Int) ≤ -1 by decide)]

theorem filtersAt_kPollIn : filtersAt kPollIn 0 32 = [.read] := by decide

theorem filtersAt_kPollOut : filtersAt kPollOut 0 32 = [.write] := by decide

/-- What a change makes of a knote. -/
def changed (flags : Flags) (udata : Owner) (note : Option Knote) : Option Knote :=
  match flags with
  | .addEnable => some ⟨true, udata⟩
  | .disable => note.map fun _ => ⟨false, udata⟩
  | .delete => none

theorem put_same {q : Queue} {ident : Nat} {filter : Filter} {note : Option Knote}
    (same : q.notes ident filter = note) : q.put ident filter note = q := by
  have notes : (q.put ident filter note).notes = q.notes := by
    funext i f
    rw [notes_put]
    split
    · rename_i here
      rw [here.1, here.2, same]
    · rfl
  cases q
  exact congrArg (Queue.mk · _) notes

theorem kqueueCtl_snd (ident : Nat) (filter : Filter) (flags : Flags) (udata : Owner) (q : Queue) :
    (kqueueCtl ident filter flags udata q).2 =
      if filter.ofDescriptor && !q.isOpen ident then q
      else q.put ident filter (changed flags udata (q.notes ident filter)) := by
  unfold kqueueCtl
  split
  · rfl
  · cases note : q.notes ident filter with
    | some knote => cases flags <;> rfl
    | none =>
      cases flags with
      | addEnable => rfl
      | disable => exact (put_same note).symm
      | delete => exact (put_same note).symm

/-- A closed descriptor has no knotes. -/
def Tidy (q : Queue) : Prop :=
  ∀ fd, q.isOpen fd = false → ∀ filter : Filter, filter.ofDescriptor = true →
    q.notes fd filter = none

/-- Deleting a knote that is there, or is not. -/
theorem kqueueCtl_delete {q : Queue} (tidy : Tidy q) (ident : Nat) (filter : Filter)
    (udata : Owner) :
    (kqueueCtl ident filter .delete udata q).2 = q.put ident filter none := by
  rw [kqueueCtl_snd]
  split
  · rename_i closed
    rw [Bool.and_eq_true, Bool.not_eq_true'] at closed
    exact (put_same (tidy ident closed.2 filter closed.1)).symm
  · rfl

theorem Tidy.put_none {q : Queue} (tidy : Tidy q) (ident : Nat) (filter : Filter) :
    Tidy (q.put ident filter none) := by
  intro fd closed f descriptor
  rw [notes_put]
  split
  · rfl
  · exact tidy fd closed f descriptor

/-- `RemoveChannel` deletes what the loop may have registered, and does not count. -/
theorem removeChannel_eq {p : Poller} (tidy : Tidy p.queue) (fd : Nat) :
    removeChannel fd p =
      ⟨((p.queue.put fd .read none).put fd .write none).put fd .timer none, p.curPollSize⟩ := by
  have one := kqueueCtl_delete tidy fd .read (.channel 0)
  have two := kqueueCtl_delete (tidy.put_none fd .read) fd .write (.channel 0)
  have three :=
    kqueueCtl_delete ((tidy.put_none fd .read).put_none fd .write) fd .timer (.channel 0)
  unfold removeChannel
  simp only [validFilters, List.foldl_cons, List.foldl_nil,
    if_neg (kqueueCtl_nonpos _ _ _ _ _), one, two, three]
  rfl

/-! ## The table is what the kernel has -/

structure Mirrors (s : State) (t : Interest) : Prop where
  fds : s.channels.map Kqueue.Channel.fd = t.fds
  isOpen : s.poller.queue.isOpen = t.isOpen
  reader : ∀ fd, told s.poller.queue fd .read = t.reader fd
  writer : ∀ fd, told s.poller.queue fd .write = t.writer fd
  timer : s.poller.queue.notes timerFd .timer = t.timer.map (⟨true, ·⟩)
  single : ∀ ident, ident ≠ timerFd → s.poller.queue.notes ident .timer = none
  user : ∀ ident, s.poller.queue.notes ident .user = none
  tidy : Tidy s.poller.queue
  size : s.poller.curPollSize = 1

theorem told_put (q : Queue) (ident : Nat) (filter : Filter) (note : Option Knote)
    (i : Nat) (f : Filter) :
    told (q.put ident filter note) i f =
      if i = ident ∧ f = filter then enabledOwner note else told q i f := by
  rw [told, notes_put, apply_ite enabledOwner]
  rfl

/-- `UpdateToLoop` and `EnableWrite` on an open descriptor. -/
theorem updateChannel_open {p : Poller} {fd : Nat} (isOpen : p.queue.isOpen fd = true)
    {events : BitVec 32}
    {filter : Filter} (single : filtersAt events 0 32 = [filter]) (flags : Flags) (udata : Owner) :
    updateChannel fd events flags udata p =
      some { p with
        queue := p.queue.put fd filter (changed flags udata (p.queue.notes fd filter)) } := by
  rw [updateChannel_eq, single, ctlAll, List.foldl_cons, List.foldl_nil, kqueueCtl_snd, isOpen,
    Bool.not_true, Bool.and_false, if_neg Bool.false_ne_true]

theorem updateChannel_closed {p : Poller} {fd : Nat} (closed : p.queue.isOpen fd = false)
    {events : BitVec 32}
    {filter : Filter} (single : filtersAt events 0 32 = [filter])
    (descriptor : filter.ofDescriptor = true)
    (flags : Flags) (udata : Owner) : updateChannel fd events flags udata p = some p := by
  rw [updateChannel_eq, single, ctlAll, List.foldl_cons, List.foldl_nil, kqueueCtl_snd,
    closed, descriptor]
  rfl

theorem Tidy.put_open {q : Queue} (tidy : Tidy q) {fd : Nat} (isOpen : q.isOpen fd = true)
    (filter : Filter) (note : Option Knote) : Tidy (q.put fd filter note) := by
  intro other closed f descriptor
  have different : other ≠ fd := by
    rintro rfl
    rw [show (q.put other filter note).isOpen other = q.isOpen other from rfl, isOpen] at closed
    cases closed
  rw [notes_put, if_neg (fun here => different here.1)]
  exact tidy other closed f descriptor

section
variable {s : State} {t : Interest}

theorem Mirrors.lookup (mirrors : Mirrors s t) (id : Nat) :
    t.fds[id]? = s.channels[id]?.map Kqueue.Channel.fd := by
  rw [← mirrors.fds, List.getElem?_map]

theorem create_mirrors (mirrors : Mirrors s t) {fd : Nat}
    (free : s.poller.queue.isOpen fd = false) :
    Option.Rel Mirrors (step s (.create fd)) (t.step (.create fd)) := by
  have now : (s.poller.queue.opened fd).isOpen fd = true := by
    simp [Queue.opened]
  have registers :=
    updateChannel_open (p := { s.poller with queue := s.poller.queue.opened fd }) now
    filtersAt_kPollIn .addEnable (.channel s.channels.length)
  have count : s.channels.length = t.fds.length := by
    rw [← mirrors.fds, List.length_map]
  rw [step, Interest.step, ← mirrors.isOpen, free, if_neg Bool.false_ne_true,
    if_neg Bool.false_ne_true, Kqueue.Channel.updateToLoop, Kqueue.Channel.create]
  dsimp only
  rw [registers, Option.map_some]
  refine .some ⟨?_, ?_, ?_, ?_, ?_, ?_, ?_, ?_, mirrors.size⟩
  · rw [List.map_append, mirrors.fds]
    rfl
  · rfl
  · intro other
    rw [told_put]
    simp only [and_true, assign, changed, enabledOwner, count]
    split
    · rfl
    · exact mirrors.reader other
  · intro other
    rw [told_put, if_neg (by simp)]
    exact mirrors.writer other
  · rw [notes_put, if_neg (by simp)]
    exact mirrors.timer
  · intro ident other
    rw [notes_put, if_neg (by simp)]
    exact mirrors.single ident other
  · intro ident
    rw [notes_put, if_neg (by simp)]
    exact mirrors.user ident
  · refine Tidy.put_open ?_ now .read _
    intro other closed filter descriptor
    simp only [Queue.opened, Bool.or_eq_false_iff] at closed
    exact mirrors.tidy other closed.2 filter descriptor

theorem enableWrite_mirrors (mirrors : Mirrors s t) (id : Nat) (enable : Bool) :
    Option.Rel Mirrors (step s (.enableWrite id enable)) (t.step (.enableWrite id enable)) := by
  rw [step, Interest.step, mirrors.lookup]
  cases here : s.channels[id]? with
  | none => exact .none
  | some c =>
    have fds : (s.channels.set id { c with events := kPollOut }).map Kqueue.Channel.fd = t.fds := by
      obtain ⟨inside, rfl⟩ := List.getElem?_eq_some_iff.mp here
      rw [List.map_set, ← mirrors.fds]
      change (s.channels.map Kqueue.Channel.fd).set id s.channels[id].fd = _
      rw [← List.map_set, List.set_getElem_self]
    dsimp only [Option.map_some]
    rw [← congrFun mirrors.isOpen c.fd, Kqueue.Channel.enableWrite, Kqueue.Channel.updateToLoop]
    cases isOpen : s.poller.queue.isOpen c.fd with
    | false =>
      rw [updateChannel_closed isOpen filtersAt_kPollOut rfl]
      exact .some ⟨fds, mirrors.isOpen, mirrors.reader, mirrors.writer, mirrors.timer,
        mirrors.single, mirrors.user, mirrors.tidy, mirrors.size⟩
    | true =>
      rw [updateChannel_open isOpen filtersAt_kPollOut]
      refine .some ⟨fds, ?_, ?_, ?_, ?_, ?_, ?_,
        mirrors.tidy.put_open isOpen .write _, mirrors.size⟩
      · exact mirrors.isOpen
      · intro other
        rw [told_put, if_neg (by simp)]
        exact mirrors.reader other
      · intro other
        rw [told_put]
        simp only [and_true, assign]
        split
        · cases enable with
          | true => rfl
          | false => cases s.poller.queue.notes c.fd .write <;> rfl
        · exact mirrors.writer other
      · rw [notes_put, if_neg (by simp)]
        exact mirrors.timer
      · intro ident other
        rw [notes_put, if_neg (by simp)]
        exact mirrors.single ident other
      · intro ident
        rw [notes_put, if_neg (by simp)]
        exact mirrors.user ident

theorem removeFromLoop_mirrors (mirrors : Mirrors s t) (id : Nat) :
    Option.Rel Mirrors (step s (.removeFromLoop id)) (t.step (.removeFromLoop id)) := by
  rw [step, Interest.step, mirrors.lookup]
  cases s.channels[id]? with
  | none => exact .none
  | some c =>
    dsimp only [Option.map_some]
    rw [removeChannel_eq mirrors.tidy]
    refine .some ⟨mirrors.fds, mirrors.isOpen, ?_, ?_, ?_, ?_, ?_, ?_, mirrors.size⟩
    · intro other
      simp only [told_put, assign, reduceCtorEq, and_false, and_true, if_false]
      split
      · rfl
      · exact mirrors.reader other
    · intro other
      simp only [told_put, assign, reduceCtorEq, and_false, and_true, if_false]
      split
      · rfl
      · exact mirrors.writer other
    · simp only [notes_put, reduceCtorEq, and_false, and_true, if_false, eq_comm (b := c.fd)]
      split
      · rfl
      · exact mirrors.timer
    · intro ident other
      simp only [notes_put, reduceCtorEq, and_false, and_true, if_false]
      split
      · rfl
      · exact mirrors.single ident other
    · intro ident
      simp only [notes_put, reduceCtorEq, and_false, if_false]
      exact mirrors.user ident
    · exact ((mirrors.tidy.put_none _ _).put_none _ _).put_none _ _

theorem close_mirrors (mirrors : Mirrors s t) (fd : Nat) :
    Option.Rel Mirrors (step s (.close fd)) (t.step (.close fd)) := by
  refine .some ⟨mirrors.fds, ?_, ?_, ?_, ?_, ?_, ?_, ?_, mirrors.size⟩
  · simp only [Queue.close, mirrors.isOpen]
  · intro other
    simp only [told, Queue.close, Filter.ofDescriptor, and_true, assign]
    split
    · rfl
    · exact mirrors.reader other
  · intro other
    simp only [told, Queue.close, Filter.ofDescriptor, and_true, assign]
    split
    · rfl
    · exact mirrors.writer other
  · simp only [Queue.close, Filter.ofDescriptor, Bool.false_eq_true, and_false, if_false]
    exact mirrors.timer
  · intro ident other
    simp only [Queue.close, Filter.ofDescriptor, Bool.false_eq_true, and_false, if_false]
    exact mirrors.single ident other
  · intro ident
    simp only [Queue.close, Filter.ofDescriptor, Bool.false_eq_true, and_false, if_false]
    exact mirrors.user ident
  · intro other closed filter descriptor
    simp only [Queue.close, descriptor, and_true]
    split
    · rfl
    · rename_i different
      simp only [Queue.close, Bool.and_eq_false_iff, bne_eq_false_iff_eq] at closed
      exact mirrors.tidy other (closed.resolve_left different) filter descriptor

/-- A change of the knote that the timers share. -/
theorem timer_mirrors (mirrors : Mirrors s t) {note : Option Knote} {timer : Option Owner}
    (is : note = timer.map (⟨true, ·⟩)) :
    Mirrors { s with poller := { s.poller with queue := s.poller.queue.put timerFd .timer note } }
      { t with timer := timer } := by
  refine ⟨mirrors.fds, mirrors.isOpen, ?_, ?_, ?_, ?_, ?_, ?_, mirrors.size⟩
  · intro fd
    rw [told_put, if_neg (by simp)]
    exact mirrors.reader fd
  · intro fd
    rw [told_put, if_neg (by simp)]
    exact mirrors.writer fd
  · rw [notes_put, if_pos ⟨rfl, rfl⟩]
    exact is
  · intro ident other
    rw [notes_put, if_neg (fun here => other here.1)]
    exact mirrors.single ident other
  · intro ident
    rw [notes_put, if_neg (by simp)]
    exact mirrors.user ident
  · intro fd closed filter descriptor
    rw [notes_put, if_neg (by rintro ⟨-, rfl⟩; cases descriptor)]
    exact mirrors.tidy fd closed filter descriptor

theorem step_mirrors (s : State) (t : Interest) (act : Act) (mirrors : Mirrors s t) :
    Option.Rel Mirrors (step s act) (t.step act) := by
  cases act with
  | create fd =>
    cases free : s.poller.queue.isOpen fd with
    | false => exact create_mirrors mirrors free
    | true =>
      rw [step, Interest.step, ← mirrors.isOpen, free, if_pos rfl, if_pos rfl]
      exact .none
  | enableWrite id enable => exact enableWrite_mirrors mirrors id enable
  | removeFromLoop id => exact removeFromLoop_mirrors mirrors id
  | close fd => exact close_mirrors mirrors fd
  | setInterval timer =>
    refine .some ?_
    rw [updateEvent, kqueueCtl_snd]
    exact timer_mirrors mirrors rfl
  | deleteTimer =>
    refine .some ?_
    rw [updateEvent, kqueueCtl_snd]
    exact timer_mirrors mirrors rfl
  | expire =>
    rw [step, Interest.step, mirrors.timer, Option.isSome_map]
    split
    · exact .some (timer_mirrors mirrors rfl)
    · exact .none

end

theorem construct_mirrors (pipe : Nat) :
    Option.Rel Mirrors (construct pipe) (some (.start pipe)) := by
  have registers := updateChannel_open
    (p := ⟨⟨fun _ _ => none, (· == pipe)⟩, 0⟩)
      (show (pipe == pipe) = true from beq_self_eq_true pipe)
    filtersAt_kPollIn .addEnable .pipe
  rw [construct, Kqueue.Channel.create]
  dsimp only at registers ⊢
  rw [registers, Option.map_some]
  refine .some ⟨rfl, rfl, ?_, ?_, ?_, ?_, ?_, ?_, rfl⟩
  · intro fd
    rw [told_put]
    simp only [and_true, Interest.start, assign]
    split <;> rfl
  · intro fd
    rw [told_put, if_neg (by simp)]
    rfl
  · rw [notes_put, if_neg (by simp)]
    rfl
  · intro ident other
    rw [notes_put, if_neg (by simp)]
  · intro ident
    rw [notes_put, if_neg (by simp)]
  · exact Tidy.put_open (fun _ _ _ _ => rfl) (beq_self_eq_true pipe) .read _

/-- Any sequence of calls on the channels and timers of a kqueue loop leaves the kernel
listening exactly to what the table says: `EnableWrite` moves the writer of its
descriptor only, a removed or closed descriptor has neither reader nor writer, all
timers of the loop share one entry, and `cur_poll_size_` stays at the pipe's 1. -/
theorem kqueue_interest_table (pipe : Nat) (acts : List Act) :
    Option.Rel (fun s t => (∀ fd, told s.poller.queue fd .read = t.reader fd ∧
        told s.poller.queue fd .write = t.writer fd) ∧
        told s.poller.queue timerFd .timer = t.timer ∧
        (∀ ident, ident ≠ timerFd → told s.poller.queue ident .timer = none) ∧
        (∀ ident, told s.poller.queue ident .user = none) ∧ s.poller.curPollSize = 1)
      ((construct pipe).bind fun s => run step s acts) (run Interest.step (.start pipe) acts) := by
  have started := construct_mirrors pipe
  generalize construct pipe = s at started
  cases started with
  | some mirrors =>
    have ended := run_bisimulates step_mirrors acts mirrors
    rw [Option.bind_some]
    generalize run step _ acts = final at ended
    generalize run Interest.step _ acts = table at ended
    cases ended with
    | none => exact .none
    | some mirrors =>
      refine .some ⟨fun fd => ⟨mirrors.reader fd, mirrors.writer fd⟩, ?_, fun ident other => ?_,
        fun ident => ?_, mirrors.size⟩
      · rw [told, mirrors.timer]
        cases Interest.timer _ <;> rfl
      · rw [told, mirrors.single ident other]
        rfl
      · rw [told, mirrors.user ident]
        rfl

end Ladder.Guarantees.KqueueInterest

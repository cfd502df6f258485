import Ladder.Library.Runs
import Ladder.Source.KqueuePoller

/-!
# Rounds of a kqueue loop

`kevent` reports input and output of one descriptor as two events, in any order, so a
channel can stand in `active_channels` more than once; and an event with EV_ERROR marks
its channel without making it active. Over any number of rounds the loop does what a
loop would do that serves every active channel once, with all that was reported of it,
and keeps in mind which channels have failed while they were not active.
-/
namespace Ladder.Guarantees.KqueueDispatch
open Ladder.Library Ladder.Source Ladder.Source.Kqueue

/-! ## Rounds over what was reported -/

def failing (reports : List Report) (c : Owner) : Bool :=
  reports.any fun evt => evt.udata == c && (evt.error || evt.filter == .user)

def writable (reports : List Report) (c : Owner) : Bool :=
  reports.any fun evt => evt.udata == c && (!evt.error && evt.filter == .write)

def readable (reports : List Report) (c : Owner) : Bool :=
  reports.any fun evt =>
    evt.udata == c && (!evt.error && (evt.filter == .read || evt.filter == .timer))

/-- The channels of the events without EV_ERROR. -/
def activated (reports : List Report) : List Owner :=
  (reports.filter fun evt => !evt.error).map Report.udata

section
variable {σ : Type} (callbacks : σ → Owner → Channel.Callbacks σ) (alive : σ → Owner → Bool)

/-- An empty callback does nothing. -/
def call (callback : Option (σ → Option σ)) (s : σ) : Option σ :=
  match callback with
  | some body => body s
  | none => some s

def callIf (ready : Bool) (callback : Option (σ → Option σ)) (s : σ) : Option σ :=
  if ready then call callback s else some s

/-- A failed channel is told so and nothing else; otherwise the write callback comes
before the read callback. -/
def respond (callbacks : Channel.Callbacks σ) (failed writable readable : Bool) (s : σ) :
    Option σ :=
  if failed then call callbacks.error s
  else (callIf writable callbacks.write s).bind (callIf readable callbacks.read)

/-- Every channel is served when it is met first; later its entry is only looked at, in
vain if the channel has been destroyed. -/
def serve (failed writable readable : Owner → Bool) : List Owner → List Owner → σ → Option σ
  | [], _, s => some s
  | c :: rest, served, s =>
    if alive s c then
      if c ∈ served then serve failed writable readable rest served s
      else
        match respond (callbacks s c) (failed c) (writable c) (readable c) s with
        | some s => serve failed writable readable rest (c :: served) s
        | none => none
    else none

/-- A round; the state keeps the failed channels that have not been served. -/
def serveRound (t : (Owner → Bool) × σ) (reports : List Report) : Option ((Owner → Bool) × σ) :=
  let failed := fun c => t.1 c || failing reports c
  (serve callbacks alive failed (writable reports) (readable reports) (activated reports)
    [] t.2).map fun s => (fun c => decide (c ∉ activated reports) && failed c, s)

end

/-! ## The bits of `revents_` -/

theorem polled_or (first second mask : BitVec 32) :
    polled (first ||| second) mask = (polled first mask || polled second mask) := by
  have distributes : (first ||| second) &&& mask = first &&& mask ||| second &&& mask := by
    ext i
    simp [Bool.and_or_distrib_right]
  rw [polled, polled, polled, distributes, Bool.eq_iff_iff]
  simp [BitVec.or_eq_zero_iff]
  tauto

/-- What an event adds to the `revents_` of its channel. -/
def status (filter : Filter) (error : Bool) : BitVec 32 :=
  if error then kPollErr else flt2Stat filter

def reported : List Report → Owner → BitVec 32
  | [], _ => 0
  | evt :: rest, c => (if c = evt.udata then status evt.filter evt.error else 0) ||| reported rest c

theorem polled_reported (reports : List Report) (c : Owner) (mask : BitVec 32) :
    polled (reported reports c) mask =
      reports.any fun evt => evt.udata == c && polled (status evt.filter evt.error) mask := by
  induction reports with
  | nil => simp [reported, polled]
  | cons evt rest ih =>
    rw [reported, polled_or, ih, List.any_cons]
    congr 1
    by_cases here : c = evt.udata
    · simp [here]
    · simp [here, Ne.symm here, polled]

theorem status_kPollErr (filter : Filter) (error : Bool) :
    polled (status filter error) kPollErr = (error || filter == .user) := by
  cases filter <;> cases error <;> decide

theorem status_kPollOut (filter : Filter) (error : Bool) :
    polled (status filter error) kPollOut = (!error && filter == .write) := by
  cases filter <;> cases error <;> decide

theorem status_kPollIn (filter : Filter) (error : Bool) :
    polled (status filter error) kPollIn = (!error && (filter == .read || filter == .timer)) := by
  cases filter <;> cases error <;> decide

/-- A channel without an event keeps its bits, the others collect theirs. -/
theorem poll_eq (reports : List Report) (revents : Owner → BitVec 32) (active : List Owner) :
    poll reports revents active =
      (fun c => revents c ||| reported reports c, active ++ activated reports) := by
  induction reports generalizing revents active with
  | nil => simp [poll, reported, activated]
  | cons evt rest ih =>
    obtain ⟨filter, error, udata⟩ := evt
    have bits : ∀ c, setRevents udata (status filter error) revents c ||| reported rest c =
        revents c ||| reported (⟨filter, error, udata⟩ :: rest) c := by
      intro c
      rw [setRevents, reported]
      split
      · rw [BitVec.or_assoc]
      · exact congrArg (revents c ||| ·) BitVec.zero_or.symm
    unfold poll
    cases error with
    | true =>
      rw [if_pos rfl, ih]
      exact Prod.ext (funext bits) rfl
    | false =>
      rw [if_neg Bool.false_ne_true, ih, List.append_assoc]
      exact Prod.ext (funext bits) rfl

/-- A channel that is not active has been reported with EV_ERROR, if at all. -/
theorem reported_idle {reports : List Report} {c : Owner} (idle : c ∉ activated reports) :
    reported reports c = if failing reports c then kPollErr else 0 := by
  induction reports with
  | nil => rfl
  | cons evt rest ih =>
    obtain ⟨filter, error, udata⟩ := evt
    have later : c ∉ activated rest := by
      intro member
      apply idle
      simp only [activated, List.mem_map, List.mem_filter] at member ⊢
      obtain ⟨evt, ⟨here, fine⟩, is⟩ := member
      exact ⟨evt, ⟨.tail _ here, fine⟩, is⟩
    have first : failing (⟨filter, error, udata⟩ :: rest) c =
        ((udata == c && (error || filter == .user)) || failing rest c) := List.any_cons
    rw [reported, ih later, first]
    by_cases this : c = udata
    · have errs : error = true := by
        cases error with
        | true => rfl
        | false => exact absurd (by simp [activated, this]) idle
      simp only [this, errs, status, if_true, beq_self_eq_true, Bool.true_or, Bool.true_and]
      split <;> rfl
    · simp only [this, if_false, beq_eq_false_iff_ne.mpr (Ne.symm this),
        Bool.false_and, Bool.false_or]
      exact BitVec.zero_or

/-! ## The dispatch -/

section
variable {σ : Type}

theorem invoke_fst (which : Channel.Callback) (callback : Option (σ → Option σ)) (s : σ) :
    (Channel.invoke which callback s).map Prod.fst = call callback s := by
  cases callback with
  | none => rfl
  | some body =>
    rw [Channel.invoke, Option.map_map]
    exact Option.map_id'

theorem invokeIf_fst (ready : Bool) (which : Channel.Callback)
    (callback : Option (σ → Option σ)) (s : σ) :
    (Channel.invokeIf ready which callback s).map Prod.fst = callIf ready callback s := by
  cases ready with
  | false => rfl
  | true => exact invoke_fst which callback s

/-- `HandleEvents` in terms of what the bits say. -/
theorem handleEvents_eq_respond (callbacks : Channel.Callbacks σ) (evts : BitVec 32) (s : σ) :
    handleEvents callbacks evts s =
      respond callbacks (polled evts kPollErr) (polled evts kPollOut) (polled evts kPollIn) s := by
  unfold handleEvents respond
  cases polled evts kPollErr with
  | true => exact invoke_fst .error callbacks.error s
  | false =>
    simp only [Bool.false_eq_true, if_false, invokeIf_fst]
    rw [← invokeIf_fst _ .write callbacks.write]
    cases Channel.invokeIf (polled evts kPollOut) .write callbacks.write s with
    | none => rfl
    | some written => rfl

theorem handleEvents_nothing (callbacks : Channel.Callbacks σ) (s : σ) :
    handleEvents callbacks 0 s = some s := rfl

variable (callbacks : σ → Owner → Channel.Callbacks σ) (alive : σ → Owner → Bool)

/-- The loop over `active_channels`: the bits of the channels already met are clear. -/
theorem handleAll_eq_serve (told : Owner → BitVec 32) (active served : List Owner)
    (revents : Owner → BitVec 32) (s : σ)
    (bits : ∀ c, revents c = if c ∈ served then 0 else told c) :
    handleAll callbacks alive active revents s =
      (serve callbacks alive (fun c => polled (told c) kPollErr) (fun c => polled (told c) kPollOut)
        (fun c => polled (told c) kPollIn) active served s).map fun s =>
          (fun c => if c ∈ served ∨ c ∈ active then 0 else told c, s) := by
  induction active generalizing served revents s with
  | nil =>
    rw [handleAll, serve, Option.map_some]
    congr 2
    funext c
    rw [bits c]
    simp
  | cons c rest ih =>
    rw [handleAll, serve]
    cases alive s c with
    | false => rfl
    | true =>
      rw [if_pos rfl, if_pos rfl, bits c]
      by_cases met : c ∈ served
      · -- a second entry of the channel finds nothing to do
        have same : (fun c' => if c' ∈ served ∨ c' ∈ rest then (0 : BitVec 32) else told c') =
            fun c' => if c' ∈ served ∨ c' ∈ c :: rest then 0 else told c' := by
          funext c'
          refine if_congr ?_ rfl rfl
          rw [List.mem_cons]
          constructor
          · rintro (old | new)
            · exact .inl old
            · exact .inr (.inr new)
          · rintro (old | rfl | new)
            · exact .inl old
            · exact .inl met
            · exact .inr new
        rw [if_pos met, if_pos met, handleEvents_nothing]
        dsimp only
        rw [ih served _ s ?_, same]
        intro other
        split
        · rename_i this
          rw [this, if_pos met]
        · exact bits other
      · rw [if_neg met, if_neg met, handleEvents_eq_respond]
        cases respond (callbacks s c) (polled (told c) kPollErr) (polled (told c) kPollOut)
          (polled (told c) kPollIn) s with
        | none => rfl
        | some s =>
          have same : (fun c' => if c' ∈ c :: served ∨
            c' ∈ rest then (0 : BitVec 32) else told c') =
              fun c' => if c' ∈ served ∨ c' ∈ c :: rest then 0 else told c' := by
            funext c'
            refine if_congr ?_ rfl rfl
            rw [List.mem_cons, List.mem_cons]
            tauto
          dsimp only
          rw [ih (c :: served) _ s ?_, same]
          intro other
          rw [bits other]
          by_cases this : other = c
          · simp [this]
          · simp [this]

/-- `revents_` outside of a round. -/
structure Marks (r : (Owner → BitVec 32) × σ) (t : (Owner → Bool) × σ) : Prop where
  failed : ∀ c, r.1 c = if t.1 c then kPollErr else 0
  state : r.2 = t.2

theorem round_marks (r : (Owner → BitVec 32) × σ) (t : (Owner → Bool) × σ) (reports : List Report)
    (marks : Marks r t) :
    Option.Rel Marks (Kqueue.round callbacks alive r reports)
      (serveRound callbacks alive t reports) := by
  have failed : (fun c => polled (r.1 c ||| reported reports c) kPollErr) =
      fun c => t.1 c || failing reports c := by
    funext c
    rw [polled_or, polled_reported, marks.failed, failing]
    simp only [status_kPollErr]
    cases t.1 c <;> rfl
  have out : (fun c => polled (r.1 c ||| reported reports c) kPollOut) = writable reports := by
    funext c
    rw [polled_or, polled_reported, marks.failed, writable]
    simp only [status_kPollOut]
    cases t.1 c <;> rfl
  have into : (fun c => polled (r.1 c ||| reported reports c) kPollIn) = readable reports := by
    funext c
    rw [polled_or, polled_reported, marks.failed, readable]
    simp only [status_kPollIn]
    cases t.1 c <;> rfl
  rw [Kqueue.round, poll_eq, List.nil_append]
  dsimp only
  rw [handleAll_eq_serve callbacks alive (fun c => r.1 c ||| reported reports c)
    (activated reports) []
    (fun c => r.1 c ||| reported reports c) r.2 (fun c => by simp), failed, out, into,
    serveRound, marks.state]
  dsimp only
  cases serve callbacks alive (fun c => t.1 c || failing reports c) (writable reports)
    (readable reports) (activated reports) [] t.2 with
  | none => exact .none
  | some s =>
    refine .some ⟨fun c => ?_, rfl⟩
    by_cases active : c ∈ activated reports
    · simp [active]
    · have kept : (r.1 c ||| reported reports c) =
          if (t.1 c || failing reports c) then kPollErr else 0 := by
        rw [marks.failed, reported_idle active]
        cases t.1 c <;> cases failing reports c <;> rfl
      simp [active, kept]

/-- Over any rounds of reports, with callbacks that do what they like, the loop serves each
channel once per round with all that was reported of it: the error callback alone after
an error of this round or of earlier ones in which it was not active, or else the write
callback before the read callback. An entry whose channel a callback has destroyed
stops both. -/
theorem kqueue_rounds_serve_once (s : σ) (rounds : List (List Report)) :
    Option.Rel Marks (run (Kqueue.round callbacks alive) (fun _ => 0, s) rounds)
      (run (serveRound callbacks alive) (fun _ => false, s) rounds) :=
  run_bisimulates (round_marks callbacks alive) rounds ⟨fun _ => rfl, rfl⟩

end

end Ladder.Guarantees.KqueueDispatch

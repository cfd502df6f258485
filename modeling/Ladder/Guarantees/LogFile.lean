import Mathlib.Data.List.Forall2
import Ladder.Library.Runs
import Ladder.Source.Logger

/-!
# The log file

The queue keeps every line once and in order, and the destructor waits until the
logging thread has drained it. The lines do not reach the file as they are, though:
`fprintf` takes a line for a format and stops at a NUL, and a formatted text that
does not fit its buffer is copied with the length it would have had. What comes out
is never longer than what was asked for, so the file is right exactly when every
single line is.
-/
namespace Ladder.Guarantees.LogFile
open Ladder.Library Ladder.Source.Logger

/-- The line a call asks for; a formatted text is cut to what fits its buffer. -/
def expectedLine : Call → Bytes
  | .writeLog time severity message => heading time severity ++ message ++ [newline]
  | .writeLogFmt time severity formatted =>
    heading time severity ++ (formatted.getD []).take (kMaxMessageLength - 1) ++ [newline]

/-- Neither a directive nor a NUL. -/
def plain (text : Bytes) : Bool := text.all fun c => c != percent && c != nul

/-- The line is plain, and a formatted text fits its buffer. -/
def clean (call : Call) : Bool :=
  plain (expectedLine call) &&
    match call with
    | .writeLog _ _ _ => true
    | .writeLogFmt _ _ formatted => formatted.any fun text => text.length < kMaxMessageLength

/-- The calls of a run that are not below the level, in order. -/
def logged (level : Int) : List Act → List Call
  | [] => []
  | .call call :: rest =>
    if call.severity.toInt < level then logged level rest else call :: logged level rest
  | _ :: rest => logged level rest

/-! ## Printing a line -/

theorem fprintf_plain {text : Bytes} (clean : plain text = true) : fprintf text = some text := by
  induction text with
  | nil => rfl
  | cons c rest ih =>
    simp only [plain, List.all_cons, Bool.and_eq_true, bne_iff_ne] at clean
    rw [fprintf_ordinary clean.1.2 clean.1.1, ih clean.2, Option.map_some]

/-- What is printed is no longer than the format, and as long only if that is plain. -/
theorem fprintf_length {text out : Bytes} (printed : fprintf text = some out) :
    out.length ≤ text.length ∧ (out.length = text.length → plain text = true) := by
  induction text using fprintf.induct generalizing out with
  | case1 =>
    cases printed
    exact ⟨le_refl _, fun _ => rfl⟩
  | case2 rest =>
    rw [fprintf_nul] at printed
    cases printed
    exact ⟨Nat.zero_le _, nofun⟩
  | case3 => cases printed
  | case4 rest _ ih =>
    -- two octets of the format, one of the output
    rw [fprintf_percents] at printed
    obtain ⟨later, printed', rfl⟩ := Option.map_eq_some_iff.mp printed
    have bound := (ih printed').1
    simp only [List.length_cons]
    exact ⟨by omega, fun same => by omega⟩
  | case5 d rest notPercent _ =>
    cases (fprintf_directive notPercent _).symm.trans printed
  | case6 c rest notNul notPercent ih =>
    rw [fprintf_ordinary notNul notPercent] at printed
    obtain ⟨later, printed', rfl⟩ := Option.map_eq_some_iff.mp printed
    obtain ⟨bound, full⟩ := ih printed'
    simp only [List.length_cons]
    refine ⟨by omega, ?_⟩
    intro same
    have restPlain := full (by omega)
    simp only [plain, List.all_cons, Bool.and_eq_true, bne_iff_ne] at restPlain ⊢
    exact ⟨⟨notPercent, notNul⟩, restPlain⟩

/-- Nothing behind a NUL is printed. -/
theorem fprintf_cut {front back out : Bytes} (printed : fprintf (front ++ nul :: back) = some out) :
    out.length ≤ front.length := by
  induction front using fprintf.induct generalizing out with
  | case1 =>
    rw [List.nil_append, fprintf_nul] at printed
    cases printed
    exact le_refl _
  | case2 rest =>
    rw [List.cons_append, fprintf_nul] at printed
    cases printed
    exact Nat.zero_le _
  | case3 =>
    cases (fprintf_directive (by decide : nul ≠ percent) back).symm.trans printed
  | case4 rest _ ih =>
    rw [List.cons_append, List.cons_append, fprintf_percents] at printed
    obtain ⟨later, printed', rfl⟩ := Option.map_eq_some_iff.mp printed
    have bound := ih printed'
    simp only [List.length_cons]
    omega
  | case5 d rest notPercent _ =>
    cases (fprintf_directive notPercent _).symm.trans printed
  | case6 c rest notNul notPercent ih =>
    rw [List.cons_append, fprintf_ordinary notNul notPercent] at printed
    obtain ⟨later, printed', rfl⟩ := Option.map_eq_some_iff.mp printed
    exact Nat.succ_le_succ (ih printed')

/-! ## One call -/

/-- The line of the call is in the queue or in hand. -/
def IsLine (line : Bytes) (call : Call) : Prop := lineOf call = some line

def Prints (call : Call) (out : Bytes) : Prop := ∃ line, IsLine line call ∧ fprintf line = some out

theorem fmtMessage_fits {text : Bytes} (fits : text.length < kMaxMessageLength) :
    fmtMessage (some text) = some text := by
  have front : text.take (kMaxMessageLength - 1) = text := List.take_of_length_le (by omega)
  simp only [fmtMessage, front, if_pos (Nat.le_of_lt fits), List.take_left]

/-- A text that does not fit is copied with a NUL, if at all. -/
theorem fmtMessage_long {text message : Bytes} (long : ¬ text.length < kMaxMessageLength)
    (copied : fmtMessage (some text) = some message) :
    message = text.take (kMaxMessageLength - 1) ++ [nul] := by
  simp only [fmtMessage] at copied
  split at copied
  · rename_i short
    cases copied
    apply List.take_of_length_le
    simp only [List.length_append, List.length_take, List.length_singleton]
    simp only [kMaxMessageLength] at long ⊢
    omega
  · cases copied

/-- The octets of a formatted line whose text fits. -/
theorem isLine_fits {time text line : Bytes} {severity : LogLevel}
    (fits : text.length < kMaxMessageLength) :
    IsLine line (.writeLogFmt time severity (some text)) ↔
      line = expectedLine (.writeLogFmt time severity (some text)) := by
  have front : text.take (kMaxMessageLength - 1) = text := List.take_of_length_le (by omega)
  simp only [IsLine, lineOf, fmtMessage_fits fits, Option.map_some, Option.some.injEq, expectedLine,
    Option.getD_some, front, eq_comm]

theorem clean_isLine {call : Call} (isClean : clean call = true) :
    IsLine (expectedLine call) call := by
  obtain ⟨-, fits⟩ := Bool.and_eq_true_iff.mp isClean
  cases call with
  | writeLog time severity message => rfl
  | writeLogFmt time severity formatted =>
    obtain ⟨text, rfl, short⟩ := (Option.any_eq_true _ _).mp fits
    exact (isLine_fits (of_decide_eq_true short)).mpr rfl

theorem clean_fprintf {call : Call} (isClean : clean call = true) :
    fprintf (expectedLine call) = some (expectedLine call) :=
  fprintf_plain (Bool.and_eq_true_iff.mp isClean).1

theorem clean_prints {call : Call} {out : Bytes} (isClean : clean call = true)
    (printed : Prints call out) : out = expectedLine call := by
  obtain ⟨line, isLine, printed⟩ := printed
  cases Option.some.inj (isLine.symm.trans (clean_isLine isClean))
  exact Option.some.inj (printed.symm.trans (clean_fprintf isClean))

/-- A call prints no more than its line, and as much only if it is clean. -/
theorem Prints.length {call : Call} {out : Bytes} (printed : Prints call out) :
    out.length ≤ (expectedLine call).length ∧
      (out.length = (expectedLine call).length → clean call = true) := by
  obtain ⟨line, isLine, printed⟩ := printed
  cases call with
  | writeLog time severity message =>
    cases isLine
    obtain ⟨bound, full⟩ := fprintf_length printed
    exact ⟨bound, fun same => Bool.and_eq_true_iff.mpr ⟨full same, rfl⟩⟩
  | writeLogFmt time severity formatted =>
    cases formatted with
    | none => cases isLine
    | some text =>
      by_cases fits : text.length < kMaxMessageLength
      · cases (isLine_fits fits).mp isLine
        obtain ⟨bound, full⟩ := fprintf_length printed
        exact ⟨bound, fun same => Bool.and_eq_true_iff.mpr ⟨full same, decide_eq_true fits⟩⟩
      · -- the NUL of the buffer stands before the newline
        obtain ⟨message, copied, rfl⟩ := Option.map_eq_some_iff.mp isLine
        rw [fmtMessage_long fits copied, ← List.append_assoc, List.append_assoc] at printed
        have cut := fprintf_cut printed
        have longer : (expectedLine (.writeLogFmt time severity (some text))).length =
            (heading time severity ++ text.take (kMaxMessageLength - 1)).length + 1 := by
          simp only [expectedLine, Option.getD_some, List.length_append, List.length_singleton]
        exact ⟨by omega, fun same => by omega⟩

/-- The outputs of several calls make up their lines exactly when every call is clean. -/
theorem outputs_exact {calls : List Call} {outs : List Bytes}
    (printed : List.Forall₂ Prints calls outs) :
    outs.flatten = (calls.map expectedLine).flatten ↔ ∀ call ∈ calls, clean call = true := by
  constructor
  · intro same
    -- lengths suffice, and they add up call by call
    have total : outs.flatten.length ≤ (calls.map expectedLine).flatten.length ∧
        (outs.flatten.length = (calls.map expectedLine).flatten.length →
          ∀ call ∈ calls, clean call = true) := by
      clear same
      induction printed with
      | nil => exact ⟨le_refl _, fun _ => nofun⟩
      | cons head _ ih =>
        obtain ⟨bound, full⟩ := head.length
        obtain ⟨bound', full'⟩ := ih
        simp only [List.map_cons, List.flatten_cons, List.length_append, List.forall_mem_cons]
        exact ⟨by omega, fun same => ⟨full (by omega), full' (by omega)⟩⟩
    exact total.2 (congrArg List.length same)
  · intro allClean
    induction printed with
    | nil => rfl
    | cons head _ ih =>
      obtain ⟨first, others⟩ := List.forall_mem_cons.mp allClean
      rw [List.map_cons, List.flatten_cons, List.flatten_cons, clean_prints first head, ih others]

/-! ## The shutdown -/

structure Protocol (s : State) : Prop where
  going : s.running = true ↔ s.destructor = .before
  quiet : s.running = false → s.notifications = 0
  drained : s.thread = .exited → s.running = false ∧ s.messageQueue = []
  awake : s.destructor = .join ∨ s.destructor = .closed → s.thread ≠ .waiting
  ended : s.destructor = .closed → s.thread = .exited

theorem protocol_start (level : Int) : Protocol (start level) where
  going := ⟨fun _ => rfl, fun _ => rfl⟩
  quiet := nofun
  drained := nofun
  awake := nofun
  ended := nofun

@[simp] theorem wake_eq_exited {thread : Thread} : wake thread = .exited ↔ thread = .exited := by
  cases thread <;> simp [wake]

@[simp] theorem wake_ne_waiting (thread : Thread) : wake thread ≠ .waiting := by
  cases thread <;> simp [wake]

theorem Protocol.stopped_iff {s : State} (protocol : Protocol s) :
    s.running = false ↔ s.destructor ≠ .before := by
  rw [Ne, ← protocol.going, Bool.not_eq_true]

/-- While the thread is in its loop the logger is not closed. -/
theorem Protocol.open_of_thread {s : State} (protocol : Protocol s) (inLoop : s.thread ≠ .exited) :
    s.destructor ≠ .closed :=
  fun closed => inLoop (protocol.ended closed)

theorem Protocol.step {s next : State} {act : Act} (protocol : Protocol s)
    (stepped : step s act = some next) : Protocol next := by
  have stopped_iff := protocol.stopped_iff
  have stays := protocol.open_of_thread
  obtain ⟨going, quiet, drained, awake, ended⟩ := protocol
  cases moves_of_step stepped with
  | ignored => exact ⟨going, quiet, drained, awake, ended⟩
  | enqueued before =>
    -- both would need a stopped logger
    refine ⟨going, fun stopped => ?_, fun exited => ?_, awake, ended⟩
    · exact absurd before (stopped_iff.mp stopped)
    · exact absurd before (stopped_iff.mp (drained exited).1)
  | notified =>
    refine ⟨going, fun stopped => ?_, fun exited => ?_, fun _ => wake_ne_waiting _,
      fun closed => ?_⟩
    · exact Nat.sub_eq_zero_of_le (by rw [quiet stopped]; exact Nat.zero_le 1)
    · exact drained (wake_eq_exited.mp exited)
    · exact wake_eq_exited.mpr (ended closed)
  | spurious asleep =>
    exact ⟨going, quiet, nofun, nofun, fun closed => absurd closed (stays (by simp [asleep]))⟩
  | popped tests =>
    exact ⟨going, quiet, nofun, nofun, fun closed => absurd closed (stays (by simp [tests]))⟩
  | slept tests running =>
    have before := going.mp running
    refine ⟨going, quiet, nofun, fun late => ?_, fun closed => ?_⟩
    · rw [before] at late
      rcases late with joins | closed
      · cases joins
      · cases closed
    · cases before.symm.trans closed
  | left tests empty stopped => exact ⟨going, quiet, fun _ => ⟨stopped, empty⟩, nofun, fun _ => rfl⟩
  | printed holds =>
    exact ⟨going, quiet, nofun, nofun, fun closed => absurd closed (stays (by simp [holds]))⟩
  | stopped before none =>
    exact ⟨by simp, fun _ => none, fun exited => ⟨rfl, (drained exited).2⟩, nofun, nofun⟩
  | woken notifies =>
    have stopped := stopped_iff.mpr (by rw [notifies]; nofun)
    refine ⟨by simp [stopped], quiet, fun exited => ?_, fun _ => wake_ne_waiting _, nofun⟩
    exact drained (wake_eq_exited.mp exited)
  | joined joins exited =>
    have stopped := stopped_iff.mpr (by rw [joins]; nofun)
    refine ⟨by simp [stopped], quiet, drained, fun _ => ?_, fun _ => exited⟩
    exact exited ▸ nofun

/-! ## The way of the lines -/

def inHand : Thread → List Bytes
  | .print msg => [msg]
  | _ => []

@[simp] theorem inHand_wake (thread : Thread) : inHand (wake thread) = inHand thread := by
  cases thread <;> rfl

/-- The calls `done` have gone to the file, one output each; the lines of `rest` are
in hand or in the queue. -/
structure Account (s : State) (done : List Call) (outs : List Bytes) (rest : List Call) : Prop where
  calls : s.enqueued = done ++ rest
  file : s.file = outs.flatten
  printed : List.Forall₂ Prints done outs
  lines : List.Forall₂ IsLine (inHand s.thread ++ s.messageQueue) rest

def Accounted (s : State) : Prop := ∃ done outs rest, Account s done outs rest

theorem accounted_start (level : Int) : Accounted (start level) :=
  ⟨[], [], [], rfl, rfl, .nil, .nil⟩

/-- A step that leaves the file, the calls and the lines where they are. -/
theorem Account.unmoved {s next : State} {done rest : List Call} {outs : List Bytes}
    (account : Account s done outs rest) (calls : next.enqueued = s.enqueued)
    (file : next.file = s.file)
    (lines : inHand next.thread ++ next.messageQueue = inHand s.thread ++ s.messageQueue) :
    Accounted next :=
  ⟨done, outs, rest, calls.trans account.calls, file.trans account.file, account.printed,
    lines ▸ account.lines⟩

theorem Accounted.step {s next : State} {act : Act} (accounted : Accounted s)
    (stepped : step s act = some next) : Accounted next := by
  obtain ⟨done, outs, rest, account⟩ := accounted
  cases moves_of_step stepped with
  | ignored => exact ⟨done, outs, rest, account⟩
  | @enqueued call line _ _ isLine =>
    refine ⟨done, outs, rest ++ [call], ?_, account.file, account.printed, ?_⟩
    · rw [account.calls, List.append_assoc]
    · rw [← List.append_assoc]
      exact List.rel_append account.lines (.cons isLine .nil)
  | notified => exact account.unmoved rfl rfl (by rw [inHand_wake])
  | spurious asleep => exact account.unmoved rfl rfl (by rw [asleep]; rfl)
  | popped tests queue => exact account.unmoved rfl rfl (by rw [tests, queue]; rfl)
  | slept tests => exact account.unmoved rfl rfl (by rw [tests]; rfl)
  | left tests => exact account.unmoved rfl rfl (by rw [tests]; rfl)
  | @printed msg out holds output =>
    -- the line in hand belongs to the first call that is not done
    obtain ⟨calls, file, printed, lines⟩ := account
    rw [holds] at lines
    obtain ⟨call, later, isLine, others, rfl⟩ := List.forall₂_cons_left_iff.mp lines
    refine ⟨done ++ [call], outs ++ [out], later, ?_, ?_, ?_, others⟩
    · rw [calls, List.append_assoc, List.singleton_append]
    · rw [file, List.flatten_append, List.flatten_singleton]
    · exact List.rel_append printed (.cons ⟨msg, isLine, output⟩ .nil)
  | stopped => exact account.unmoved rfl rfl rfl
  | woken => exact account.unmoved rfl rfl (by rw [inHand_wake])
  | joined => exact account.unmoved rfl rfl rfl

/-- The lines in the queue are those of the calls that are not below the level. -/
theorem enqueued_run {s final : State} {acts : List Act} (reached : run step s acts = some final) :
    final.enqueued = s.enqueued ++ logged s.level acts := by
  induction acts generalizing s with
  | nil =>
    cases reached
    exact (List.append_nil _).symm
  | cons act acts ih =>
    obtain ⟨next, stepped, reached⟩ := run_cons_some reached
    rw [ih reached]
    cases moves_of_step stepped with
    | ignored low => rw [logged, if_pos low]
    | enqueued _ high => rw [logged, if_neg high, List.append_assoc, List.singleton_append]
    | _ => rfl

/-! ## The end of the logger -/

def linesLeft : Thread → Nat
  | .test => 1
  | .print _ => 2
  | .waiting | .exited => 0

/-- While the destructor joins, the logging thread can always go on until it exits. -/
structure Draining (s : State) : Prop where
  protocol : Protocol s
  accounted : Accounted s
  joins : s.destructor = .join
  cleanCalls : ∀ call ∈ s.enqueued, clean call = true

theorem Draining.progress {s : State} (draining : Draining s) (more : s.thread ≠ .exited) :
    ∃ next, step s .thread = some next ∧ Draining next ∧
      2 * next.messageQueue.length + linesLeft next.thread <
        2 * s.messageQueue.length + linesLeft s.thread := by
  obtain ⟨protocol, accounted, joins, cleanCalls⟩ := draining
  have stopped : s.running = false := by
    rw [Bool.eq_false_iff, Ne, protocol.going, joins]
    nofun
  cases thread : s.thread with
  | test =>
    cases queue : s.messageQueue with
    | nil =>
      have stepped : step s .thread = some { s with thread := .exited } := by
        simp only [step, threadStep, thread, queue, stopped]
        rfl
      refine ⟨_, stepped, ⟨protocol.step stepped, accounted.step stepped, joins, cleanCalls⟩, ?_⟩
      simp only [linesLeft, queue]
      omega
    | cons msg rest =>
      have stepped :
          step s .thread = some { s with messageQueue := rest, thread := .print msg } := by
        simp only [step, threadStep, thread, queue]
      refine ⟨_, stepped, ⟨protocol.step stepped, accounted.step stepped, joins, cleanCalls⟩, ?_⟩
      simp only [linesLeft, List.length_cons]
      omega
  | waiting => exact absurd thread (protocol.awake (.inl joins))
  | print msg =>
    have printable : fprintf msg = some msg := by
      obtain ⟨done, outs, rest, account⟩ := accounted
      have lines := account.lines
      rw [thread] at lines
      obtain ⟨call, later, isLine, -, rfl⟩ := List.forall₂_cons_left_iff.mp lines
      have isClean : clean call = true := by
        apply cleanCalls
        simp [account.calls]
      cases Option.some.inj (isLine.symm.trans (clean_isLine isClean))
      exact clean_fprintf isClean
    have stepped : step s .thread = some { s with file := s.file ++ msg, thread := .test } := by
      simp only [step, threadStep, thread, printable, Option.map_some]
    refine ⟨_, stepped, ⟨protocol.step stepped, accounted.step stepped, joins, cleanCalls⟩, ?_⟩
    simp only [linesLeft]
    omega
  | exited => exact absurd thread more

theorem Draining.returns {s : State} (draining : Draining s) :
    ∃ n last, run step s (List.replicate n Act.thread ++ [.destructor]) = some last ∧
      last.destructor = .closed := by
  obtain ⟨n, final, reached, exited, kept⟩ :=
    run_until Draining (·.thread = .exited) Act.thread
      (fun s => 2 * s.messageQueue.length + linesLeft s.thread)
      (fun _ draining more => draining.progress more) s draining
  refine ⟨n, { final with destructor := .closed }, ?_, rfl⟩
  rw [run_append, reached]
  simp only [Option.bind_some, run, step, destructorStep, kept.joins, exited, if_true]

/-- When the destructor has returned, the queue is empty and the file holds exactly
the lines of the calls not below the level, in order, if and only if each of these
lines is free of percent signs and NULs and each formatted text fits its buffer. A
destructor that waits for the thread in such a run does return. -/
theorem log_file_exact_iff (level : Int) (acts : List Act) (final : State)
    (reached : run step (start level) acts = some final) :
    (final.destructor = .closed →
      final.messageQueue = [] ∧
      (final.file = ((logged level acts).map expectedLine).flatten ↔
        ∀ call ∈ logged level acts, clean call = true)) ∧
    ((∀ call ∈ logged level acts, clean call = true) → final.destructor = .join →
      ∃ n last, run step final (List.replicate n Act.thread ++ [.destructor]) = some last ∧
        last.destructor = .closed) := by
  have protocol : Protocol final :=
    run_invariant (fun _ _ _ holds stepped => holds.step stepped) (protocol_start level) reached
  have accounted : Accounted final :=
    run_invariant (fun _ _ _ holds stepped => holds.step stepped) (accounted_start level) reached
  have enqueued : final.enqueued = logged level acts := enqueued_run reached
  constructor
  · intro closed
    obtain ⟨done, outs, rest, account⟩ := accounted
    have exited := protocol.ended closed
    have empty := (protocol.drained exited).2
    -- nothing is on its way any more
    have settled : rest = [] := by
      have lines := account.lines
      rw [exited, empty] at lines
      exact List.forall₂_nil_left_iff.mp lines
    have calls : done = logged level acts := by
      rw [← enqueued, account.calls, settled, List.append_nil]
    refine ⟨empty, ?_⟩
    rw [account.file, ← calls]
    exact outputs_exact account.printed
  · intro allClean joins
    exact Draining.returns ⟨protocol, accounted, joins, by rwa [enqueued]⟩

/-- A formatted line, printed at once; a line below the level; and a line that is still
in the queue when the destructor starts. -/
def shortLog : List Act :=
  [.thread, .call (.writeLogFmt (octets ['9']) .kLogFatal (some (octets ['5', '3']))), .notifyOne,
    .thread, .thread, .call (.writeLog (octets ['9']) .kLogTrace (octets ['n', 'o'])),
    .call (.writeLog (octets ['9']) .kLogInfo (octets ['O', 'K'])), .notifyOne, .destructor,
    .thread, .destructor, .thread, .thread, .destructor]

theorem log_file_exact_iff_shortLog :
    ∃ final, run step (start 1) shortLog = some final ∧ final.messageQueue = [] ∧
      final.file = ((logged 1 shortLog).map expectedLine).flatten ∧
      (logged 1 shortLog).length = 2 :=
  have exact := (log_file_exact_iff 1 shortLog _ rfl).1 rfl
  ⟨_, rfl, exact.1, exact.2.mpr (by decide), rfl⟩

/-- `WriteLog("%%", kLogInfo)` and the end of the logger. -/
def percentLog : List Act :=
  [.call (.writeLog [] .kLogInfo [percent, percent]), .notifyOne, .thread, .thread, .destructor,
    .destructor, .thread, .destructor]

/-- One of the two percent signs is lost. -/
theorem log_file_loses_percent :
    ∃ final, run step (start 0) percentLog = some final ∧ final.destructor = .closed ∧
      final.file = heading [] .kLogInfo ++ [percent] ++ [newline] ∧
      ((logged 0 percentLog).map expectedLine).flatten =
        heading [] .kLogInfo ++ [percent, percent] ++ [newline] ∧
      final.file ≠ ((logged 0 percentLog).map expectedLine).flatten :=
  ⟨_, rfl, rfl, by decide, by decide, by decide⟩

end Ladder.Guarantees.LogFile

import Ladder.Library.Words

/-!
# Logger

Source: ladder/include/Logging.h and ladder/src/Logging.cpp. Any number of threads call
`WriteLog` and `WriteLogFmt`; one logging thread moves the lines from the queue to the
file; the destructor comes last. Each section locked by `mutex_` is one step, and so
is each notification after it. The text of `GetCurrentDateTime` and what `vsnprintf`
makes of a format are arguments of the call. Undefined behaviour has no result.
-/
namespace Ladder.Source.Logger
open Ladder.Library

def kMaxMessageLength : Nat := 1024

inductive LogLevel where
  | kLogTrace
  | kLogDebug
  | kLogInfo
  | kLogWarning
  | kLogError
  | kLogFatal
  deriving DecidableEq, Repr

def LogLevel.toInt : LogLevel → Int
  | .kLogTrace => 0
  | .kLogDebug => 1
  | .kLogInfo => 2
  | .kLogWarning => 3
  | .kLogError => 4
  | .kLogFatal => 5

def octets (text : List Char) : Bytes := text.map fun c => UInt8.ofNat c.toNat

def nul : UInt8 := 0
def newline : UInt8 := 10
def percent : UInt8 := 37

def kLogLevels : LogLevel → Bytes
  | .kLogTrace => octets ['T', 'R', 'A', 'C', 'E']
  | .kLogDebug => octets ['D', 'E', 'B', 'U', 'G']
  | .kLogInfo => octets ['I', 'N', 'F', 'O']
  | .kLogWarning => octets ['W', 'A', 'R', 'N', 'I', 'N', 'G']
  | .kLogError => octets ['E', 'R', 'R', 'O', 'R']
  | .kLogFatal => octets ['F', 'A', 'T', 'A', 'L']

/-- `"[" + GetCurrentDateTime() + "][" + kLogLevels[severity] + "] "`. -/
def heading (time : Bytes) (severity : LogLevel) : Bytes :=
  octets ['['] ++ time ++ octets [']', '['] ++ kLogLevels severity ++ octets [']', ' ']

/-- `formatted` is the text the format stands for, none when `vsnprintf` fails. -/
inductive Call where
  | writeLog (time : Bytes) (severity : LogLevel) (message : Bytes)
  | writeLogFmt (time : Bytes) (severity : LogLevel) (formatted : Option Bytes)
  deriving DecidableEq, Repr

def Call.severity : Call → LogLevel
  | .writeLog _ severity _ | .writeLogFmt _ severity _ => severity

/-- `std::string message(msg, msg + ret)`: `vsnprintf` has stored at most
`kMaxMessageLength - 1` octets and a NUL, but returns the length of the whole text. -/
def fmtMessage : Option Bytes → Option Bytes
  | none => none
  | some text =>
    let msg := text.take (kMaxMessageLength - 1) ++ [nul]
    if text.length ≤ kMaxMessageLength then some (msg.take text.length) else none

/-- The line a call puts into the queue. -/
def lineOf : Call → Option Bytes
  | .writeLog time severity message => some (heading time severity ++ message ++ [newline])
  | .writeLogFmt time severity formatted =>
    (fmtMessage formatted).map fun message => heading time severity ++ message ++ [newline]

/-- `fprintf(fp_, msg.c_str())`: the line up to its first NUL is a format without
arguments. Only `%%` is defined. -/
def fprintf : Bytes → Option Bytes
  | [] => some []
  | c :: rest =>
    if c = nul then some []
    else if c = percent then
      match rest with
      | [] => none
      | d :: rest => if d = percent then (fprintf rest).map (percent :: ·) else none
    else (fprintf rest).map (c :: ·)

theorem fprintf_nul (rest : Bytes) : fprintf (nul :: rest) = some [] := by
  unfold fprintf
  exact if_pos rfl

theorem fprintf_percents (rest : Bytes) :
    fprintf (percent :: percent :: rest) = (fprintf rest).map (percent :: ·) := by
  rw [fprintf.eq_def]
  rfl

theorem fprintf_directive {d : UInt8} (notPercent : d ≠ percent) (rest : Bytes) :
    fprintf (percent :: d :: rest) = none := by
  rw [fprintf.eq_def]
  exact if_neg notPercent

theorem fprintf_ordinary {c : UInt8} (notNul : c ≠ nul) (notPercent : c ≠ percent) (rest : Bytes) :
    fprintf (c :: rest) = (fprintf rest).map (c :: ·) := by
  rw [fprintf.eq_def]
  simp only [notNul, notPercent, if_false]

/-- The loop of `ThreadFunc`: at the test of the queue, waiting to be notified, with a
line in hand, and after the loop. -/
inductive Thread where
  | test
  | waiting
  | print (msg : Bytes)
  | exited
  deriving DecidableEq, Repr

inductive Destructor where
  | before
  | notifyOne
  | join
  | closed
  deriving DecidableEq, Repr

/-- `notifications` counts the calls between their locked section and their
`notify_one`; `enqueued` lists the calls in the order of their lines. -/
structure State where
  level : Int
  running : Bool
  messageQueue : List Bytes
  thread : Thread
  notifications : Nat
  destructor : Destructor
  file : Bytes
  enqueued : List Call
  deriving DecidableEq, Repr

def start (level : Int) : State := ⟨level, true, [], .test, 0, .before, [], []⟩

def wake : Thread → Thread
  | .waiting => .test
  | thread => thread

def threadStep (s : State) : Option State :=
  match s.thread with
  | .test =>
    match s.messageQueue with
    | msg :: rest => some { s with messageQueue := rest, thread := .print msg }
    | [] => some { s with thread := if s.running then .waiting else .exited }
  | .print msg => (fprintf msg).map fun out => { s with file := s.file ++ out, thread := .test }
  | .waiting | .exited => none

/-- `~Logger`, after the last call has returned. -/
def destructorStep (s : State) : Option State :=
  match s.destructor with
  | .before =>
    if s.notifications = 0 then some { s with running := false, destructor := .notifyOne } else none
  | .notifyOne => some { s with thread := wake s.thread, destructor := .join }
  | .join => if s.thread = .exited then some { s with destructor := .closed } else none
  | .closed => none

/-- A call up to its notification. -/
def callStep (s : State) (call : Call) : Option State :=
  if s.destructor ≠ .before then none
  else if call.severity.toInt < s.level then some s
  else
    (lineOf call).map fun line =>
      { s with
        messageQueue := s.messageQueue ++ [line]
        notifications := s.notifications + 1
        enqueued := s.enqueued ++ [call] }

inductive Act where
  | call (call : Call)
  | notifyOne
  /-- The logging thread wakes up unasked. -/
  | spurious
  | thread
  | destructor
  deriving DecidableEq, Repr

def step (s : State) : Act → Option State
  | .call call => callStep s call
  | .notifyOne =>
    if 0 < s.notifications then
      some { s with notifications := s.notifications - 1, thread := wake s.thread }
    else none
  | .spurious => if s.thread = .waiting then some { s with thread := .test } else none
  | .thread => threadStep s
  | .destructor => destructorStep s

/-- Every step of the logger, with what makes it possible. -/
inductive Moves (s : State) : Act → State → Prop
  | ignored {call : Call} (low : call.severity.toInt < s.level) : Moves s (.call call) s
  | enqueued {call : Call} {line : Bytes} (before : s.destructor = .before)
      (high : ¬ call.severity.toInt < s.level) (isLine : lineOf call = some line) :
      Moves s (.call call)
        { s with
          messageQueue := s.messageQueue ++ [line]
          notifications := s.notifications + 1
          enqueued := s.enqueued ++ [call] }
  | notified (pending : 0 < s.notifications) :
      Moves s .notifyOne { s with notifications := s.notifications - 1, thread := wake s.thread }
  | spurious (asleep : s.thread = .waiting) : Moves s .spurious { s with thread := .test }
  | popped {msg : Bytes} {rest : List Bytes} (tests : s.thread = .test)
      (queue : s.messageQueue = msg :: rest) :
      Moves s .thread { s with messageQueue := rest, thread := .print msg }
  | slept (tests : s.thread = .test) (running : s.running = true) :
      Moves s .thread { s with thread := .waiting }
  | left (tests : s.thread = .test) (empty : s.messageQueue = []) (stopped : s.running = false) :
      Moves s .thread { s with thread := .exited }
  | printed {msg out : Bytes} (inHand : s.thread = .print msg) (output : fprintf msg = some out) :
      Moves s .thread { s with file := s.file ++ out, thread := .test }
  | stopped (before : s.destructor = .before) (quiet : s.notifications = 0) :
      Moves s .destructor { s with running := false, destructor := .notifyOne }
  | woken (notifies : s.destructor = .notifyOne) :
      Moves s .destructor { s with thread := wake s.thread, destructor := .join }
  | joined (joins : s.destructor = .join) (exited : s.thread = .exited) :
      Moves s .destructor { s with destructor := .closed }

theorem moves_of_step {s next : State} {act : Act} (stepped : step s act = some next) :
    Moves s act next := by
  cases act with
  | call call =>
    simp only [step, callStep] at stepped
    split at stepped
    · cases stepped
    · rename_i before
      split at stepped
      · rename_i low
        cases stepped
        exact .ignored low
      · rename_i high
        obtain ⟨line, isLine, rfl⟩ := Option.map_eq_some_iff.mp stepped
        exact .enqueued (not_not.mp before) high isLine
  | notifyOne =>
    simp only [step] at stepped
    split at stepped
    · rename_i pending
      cases stepped
      exact .notified pending
    · cases stepped
  | spurious =>
    simp only [step] at stepped
    split at stepped
    · rename_i asleep
      cases stepped
      exact .spurious asleep
    · cases stepped
  | thread =>
    simp only [step, threadStep] at stepped
    split at stepped
    · rename_i tests
      split at stepped
      · rename_i queue
        cases stepped
        exact .popped tests queue
      · rename_i empty
        cases stepped
        split
        · rename_i running
          exact .slept tests running
        · rename_i stopped
          exact .left tests empty (Bool.eq_false_iff.mpr stopped)
    · rename_i inHand
      obtain ⟨out, output, rfl⟩ := Option.map_eq_some_iff.mp stepped
      exact .printed inHand output
    · cases stepped
    · cases stepped
  | destructor =>
    simp only [step, destructorStep] at stepped
    split at stepped
    · rename_i before
      split at stepped
      · rename_i quiet
        cases stepped
        exact .stopped before quiet
      · cases stepped
    · rename_i notifies
      cases stepped
      exact .woken notifies
    · rename_i joins
      split at stepped
      · rename_i exited
        cases stepped
        exact .joined joins exited
      · cases stepped
    · cases stepped

end Ladder.Source.Logger

import Ladder.Library.Runs
import Ladder.Library.Words

/-!
# ArgumentParser

Source: ladder/include/ArgumentParser.h and ladder/src/ArgumentParser.cpp. The maps are
ordered by their keys and `insert` keeps what is there. `InitOptions` is virtual and only
declares names, so a parser is given with its declarations. The loop of `Init` works on an
index into `args`, which it rewrites in place, and on `is_options`, computed before it; an
index outside gives none, as does a loop that is not over after the rounds given to it.
-/
namespace Ladder.Source
open Ladder.Library

structure IArgumentParser where
  options : Std.TreeMap Bytes Bytes
  enabled : Std.TreeMap Bytes Bool
  fieldsOptions : Std.TreeMap Bytes Bool
  fieldsEnabled : Std.TreeMap Bytes Bool

namespace ArgumentParser

/-- A new parser, behind `InitOptions`; the declarations say which names are required. -/
def fresh (fieldsOptions fieldsEnabled : Std.TreeMap Bytes Bool) : IArgumentParser :=
  ⟨∅, ∅, fieldsOptions, fieldsEnabled⟩

def isOption (str : Bytes) : Bool := decide (2 < str.length) && str.take 2 == ascii "--"

/-- The loop of `Init`; `error` is the text with which it has returned false. -/
structure Scanning where
  i : Nat
  args : List Bytes
  parser : IArgumentParser
  error : Option Bytes

def valueMissing (name : Bytes) : Bytes :=
  ascii "[ArgumentParser] Option " ++ name ++ ascii " should be followed by a value"

def noSuchOption (name : Bytes) : Bytes := ascii "[ArgumentParser] No such option: " ++ name

/-- One round of the loop. -/
def round (isOptions : List Bool) (s : Scanning) : Option Scanning := do
  if ← isOptions[s.i]? then
    let name := (← s.args[s.i]?).drop 2
    let args := s.args.set s.i name
    if s.parser.fieldsOptions.contains name then
      if ← if s.i + 1 = args.length then some true else isOptions[s.i + 1]? then
        return { s with args := args, error := some (valueMissing name) }
      else
        let options := s.parser.options.insertIfNew name (← args[s.i + 1]?)
        return { s with i := s.i + 2, args := args, parser := { s.parser with options := options } }
    else if s.parser.fieldsEnabled.contains name then
      let enabled := s.parser.enabled.insertIfNew name true
      return { s with i := s.i + 1, args := args, parser := { s.parser with enabled := enabled } }
    else return { s with args := args, error := some (noSuchOption name) }
  else return { s with i := s.i + 1 }

/-- `CheckRequired`: the text of the first name that is missing, if any. -/
def checkRequired (parser : IArgumentParser) : Option Bytes :=
  match parser.fieldsOptions.toList.find? fun field =>
    field.2 && !parser.options.contains field.1 with
  | some field =>
    some (ascii "[ArgumentParser] String Option: " ++ field.1 ++ ascii " is required.")
  | none =>
    match parser.fieldsEnabled.toList.find? fun field =>
      field.2 && !parser.enabled.contains field.1 with
    | some field =>
      some (ascii "[ArgumentParser] Boolean Option: " ++ field.1 ++ ascii " is required.")
    | none => none

/-- `Init`: the parser it leaves, and the text written when it returns false. -/
def init (parser : IArgumentParser) (argv : List Bytes) :
    Option (IArgumentParser × Option Bytes) := do
  let scanned ← whileLoop (fun s => some (decide (s.i < s.args.length) && s.error.isNone))
    (round (argv.map isOption)) (argv.length + 1) ⟨0, argv, parser, none⟩
  return (scanned.parser, scanned.error.or (checkRequired scanned.parser))

/-- `GetStringArg`, none for false. -/
def getStringArg (parser : IArgumentParser) (key : Bytes) : Option Bytes := parser.options[key]?

def getBoolArg (parser : IArgumentParser) (key : Bytes) : Bool := parser.enabled[key]?.getD false

/-! ## The loop as a recursion over the tokens -/

def scan (parser : IArgumentParser) : List Bytes → IArgumentParser × Option Bytes
  | [] => (parser, none)
  | token :: rest =>
    if isOption token then
      if parser.fieldsOptions.contains (token.drop 2) then
        match rest with
        | [] => (parser, some (valueMissing (token.drop 2)))
        | value :: rest =>
          if isOption value then (parser, some (valueMissing (token.drop 2)))
          else scan { parser with options := parser.options.insertIfNew (token.drop 2) value } rest
      else if parser.fieldsEnabled.contains (token.drop 2) then
        scan { parser with enabled := parser.enabled.insertIfNew (token.drop 2) true } rest
      else (parser, some (noSuchOption (token.drop 2)))
    else scan parser rest

section
variable {parser : IArgumentParser} {token : Bytes} {rest : List Bytes}

theorem scan_positional (plain : isOption token = false) :
    scan parser (token :: rest) = scan parser rest := by
  rw [scan.eq_def]
  simp only [plain, Bool.false_eq_true, if_false]

theorem scan_flag (option : isOption token = true)
    (string : parser.fieldsOptions.contains (token.drop 2) = false)
    (flag : parser.fieldsEnabled.contains (token.drop 2) = true) :
    scan parser (token :: rest) =
      scan { parser with enabled := parser.enabled.insertIfNew (token.drop 2) true } rest := by
  rw [scan.eq_def]
  simp only [option, string, flag, if_true, Bool.false_eq_true, if_false]

theorem scan_unknown (option : isOption token = true)
    (string : parser.fieldsOptions.contains (token.drop 2) = false)
    (flag : parser.fieldsEnabled.contains (token.drop 2) = false) :
    scan parser (token :: rest) = (parser, some (noSuchOption (token.drop 2))) := by
  rw [scan.eq_def]
  simp only [option, string, flag, if_true, Bool.false_eq_true, if_false]

theorem scan_pair {value : Bytes} (option : isOption token = true)
    (string : parser.fieldsOptions.contains (token.drop 2) = true)
    (plain : isOption value = false) :
    scan parser (token :: value :: rest) =
      scan { parser with options := parser.options.insertIfNew (token.drop 2) value } rest := by
  simp only [scan, option, string, plain, if_true, Bool.false_eq_true, if_false]

/-- A string option without a value. -/
theorem scan_bare (option : isOption token = true)
    (string : parser.fieldsOptions.contains (token.drop 2) = true)
    (bare : ∀ value later, rest = value :: later → isOption value = true) :
    scan parser (token :: rest) = (parser, some (valueMissing (token.drop 2))) := by
  cases rest with
  | nil => simp only [scan, option, string, if_true]
  | cons value later => simp only [scan, option, string, bare value later rfl, if_true]

end

/-- What lies ahead is as it was when `is_options` was computed. -/
structure Ahead (argv : List Bytes) (i : Nat) (args tokens : List Bytes) : Prop where
  table : argv.drop i = tokens
  strings : args.drop i = tokens
  size : args.length = argv.length

section
variable {argv args tokens : List Bytes} {i : Nat} {token : Bytes}

theorem Ahead.isOption_eq (ahead : Ahead argv i args (token :: tokens)) :
    (argv.map isOption)[i]? = some (isOption token) := by
  have here := congrArg (fun l : List Bytes => l[0]?) ahead.table
  rw [List.getElem?_drop, Nat.add_zero, List.getElem?_cons_zero] at here
  rw [List.getElem?_map, here, Option.map_some]

theorem Ahead.string_eq (ahead : Ahead argv i args (token :: tokens)) : args[i]? = some token := by
  have here := congrArg (fun l : List Bytes => l[0]?) ahead.strings
  rwa [List.getElem?_drop, Nat.add_zero, List.getElem?_cons_zero] at here

/-- Behind a token, which may have been rewritten. -/
theorem Ahead.next (ahead : Ahead argv i args (token :: tokens)) :
    Ahead argv (i + 1) args tokens := by
  refine ⟨?_, ?_, ahead.size⟩
  · rw [← List.drop_drop, ahead.table, List.drop_one, List.tail_cons]
  · rw [← List.drop_drop, ahead.strings, List.drop_one, List.tail_cons]

theorem Ahead.rewritten (ahead : Ahead argv (i + 1) args tokens) (name : Bytes) :
    Ahead argv (i + 1) (args.set i name) tokens := by
  refine ⟨ahead.table, ?_, by rw [List.length_set, ahead.size]⟩
  rw [List.drop_set_of_lt (Nat.lt_succ_self i), ahead.strings]

theorem Ahead.length_eq (ahead : Ahead argv i args tokens) : args.length - i = tokens.length := by
  rw [← ahead.strings, List.length_drop]

end

/-- How a round and the recursion go on together, or return together. -/
inductive Agrees (argv : List Bytes) (parser : IArgumentParser) (tokens : List Bytes)
    (next : Scanning) : Prop
  | goesOn (later : List Bytes) (open_ : next.error = none)
      (ahead : Ahead argv next.i next.args later)
      (shorter : later.length < tokens.length) (same : scan parser tokens = scan next.parser later)
  | returns (text : Bytes) (closed : next.error = some text)
      (same : scan parser tokens = (next.parser, some text))

theorem round_agrees {argv args rest : List Bytes} {i : Nat} {token : Bytes}
    (parser : IArgumentParser) (ahead : Ahead argv i args (token :: rest)) :
    ∃ next, round (argv.map isOption) ⟨i, args, parser, none⟩ = some next ∧
      Agrees argv parser (token :: rest) next := by
  have onward := ahead.next
  have after := onward.rewritten (token.drop 2)
  have shorter : rest.length < (token :: rest).length := Nat.lt_succ_self _
  have size := ahead.length_eq
  unfold round
  dsimp only
  rw [ahead.isOption_eq, Option.bind_eq_bind, Option.bind_some]
  cases option : isOption token with
  | false =>
    rw [if_neg Bool.false_ne_true]
    exact ⟨_, rfl, .goesOn rest rfl onward shorter (scan_positional option)⟩
  | true =>
    rw [if_pos rfl, ahead.string_eq, Option.bind_eq_bind, Option.bind_some]
    cases string : parser.fieldsOptions.contains (token.drop 2) with
    | false =>
      rw [if_neg Bool.false_ne_true]
      cases flag : parser.fieldsEnabled.contains (token.drop 2) with
      | false =>
        rw [if_neg Bool.false_ne_true]
        exact ⟨_, rfl, .returns _ rfl (scan_unknown option string flag)⟩
      | true =>
        rw [if_pos rfl]
        exact ⟨_, rfl, .goesOn rest rfl after shorter (scan_flag option string flag)⟩
    | true =>
      rw [if_pos rfl, List.length_set]
      cases rest with
      | nil =>
        have last : i + 1 = args.length := by
          rw [List.length_singleton] at size
          omega
        rw [if_pos last, Option.bind_some, if_pos rfl]
        exact ⟨_, rfl, .returns _ rfl (scan_bare option string nofun)⟩
      | cons value later =>
        have more : i + 1 ≠ args.length := by
          rw [List.length_cons, List.length_cons] at size
          omega
        rw [if_neg more, onward.isOption_eq, Option.bind_some]
        cases dashed : isOption value with
        | true =>
          rw [if_pos rfl]
          refine ⟨_, rfl, .returns _ rfl (scan_bare option string ?_)⟩
          rintro _ _ ⟨⟩
          exact dashed
        | false =>
          rw [if_neg Bool.false_ne_true, after.string_eq, Option.bind_some]
          refine ⟨_, rfl, .goesOn later rfl after.next ?_ (scan_pair option string dashed)⟩
          rw [List.length_cons, List.length_cons]
          omega

theorem loop_eq_scan {argv args tokens : List Bytes} {i rounds : Nat} (parser : IArgumentParser)
    (ahead : Ahead argv i args tokens) (enough : tokens.length < rounds) :
    ∃ final, whileLoop (fun s => some (decide (s.i < s.args.length) && s.error.isNone))
        (round (argv.map isOption)) rounds ⟨i, args, parser, none⟩ = some final ∧
      (final.parser, final.error) = scan parser tokens := by
  induction rounds generalizing i args tokens parser with
  | zero => exact absurd enough (Nat.not_lt_zero _)
  | succ rounds ih =>
    have size := ahead.length_eq
    cases tokens with
    | nil =>
      rw [List.length_nil] at size
      have halted : decide (i < args.length) = false := decide_eq_false (by omega)
      refine ⟨⟨i, args, parser, none⟩, ?_, rfl⟩
      simp only [whileLoop, halted, Bool.false_and]
    | cons token rest =>
      rw [List.length_cons] at size enough
      have more : decide (i < args.length) = true := decide_eq_true (by omega)
      obtain ⟨⟨j, left, parser', error⟩, stepped, agrees⟩ := round_agrees parser ahead
      simp only [whileLoop, more, Option.isNone_none, Bool.and_self, stepped, Option.bind_some]
      cases agrees with
      | goesOn later open_ onward shorter same =>
        obtain rfl : error = none := open_
        rw [List.length_cons] at shorter
        rw [same]
        exact ih parser' onward (by omega)
      | returns text closed same =>
        obtain rfl : error = some text := closed
        cases rounds with
        | zero => omega
        | succ rounds =>
          refine ⟨⟨j, left, parser', some text⟩, ?_, same.symm⟩
          simp only [whileLoop, Option.isNone_some, Bool.and_false]

/-- `Init` always returns, with what the recursion over the tokens says. -/
theorem init_eq (parser : IArgumentParser) (argv : List Bytes) :
    init parser argv =
      some ((scan parser argv).1,
        (scan parser argv).2.or (checkRequired (scan parser argv).1)) := by
  have start : Ahead argv 0 argv argv := ⟨rfl, rfl, rfl⟩
  obtain ⟨final, ends, same⟩ := loop_eq_scan parser start (Nat.lt_succ_self argv.length)
  unfold init
  rw [ends, ← same]
  rfl

end ArgumentParser

end Ladder.Source

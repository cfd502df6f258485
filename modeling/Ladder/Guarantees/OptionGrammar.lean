import Ladder.Source.ArgumentParser

/-!
# The grammar of the arguments

What a command line may be, independently of how it is scanned: positional tokens, declared
flags, and declared string options with the token behind them as their value. A token is an
option if it has at least one character behind two dashes. `Init` accepts these lines with
all required names in them and no others, and the accessors give back what stands there.
-/
namespace Ladder.Guarantees.OptionGrammar
open Ladder.Library Ladder.Source Ladder.Source.ArgumentParser

/-- Two dashes and at least one character. -/
def Dashed (token : Bytes) : Prop := ∃ name ≠ [], token = ascii "--" ++ name

section
variable (fieldsOptions fieldsEnabled : Std.TreeMap Bytes Bool)

/-- The command line splits into positional tokens, pairs and flags, the latter two in the
order in which they stand there. -/
inductive Line : List Bytes → List (Bytes × Bytes) → List Bytes → Prop
  | nil : Line [] [] []
  | positional {token tokens pairs flags} (plain : ¬ Dashed token)
      (rest : Line tokens pairs flags) :
      Line (token :: tokens) pairs flags
  | flag {f tokens pairs flags} (named : f ≠ []) (declared : f ∈ fieldsEnabled)
      (rest : Line tokens pairs flags) :
      Line ((ascii "--" ++ f) :: tokens) pairs (f :: flags)
  | pair {k v tokens pairs flags} (named : k ≠ []) (declared : k ∈ fieldsOptions)
      (value : ¬ Dashed v)
      (rest : Line tokens pairs flags) :
      Line ((ascii "--" ++ k) :: v :: tokens) ((k, v) :: pairs) flags

/-- Every name declared as required occurs. -/
structure Complete (pairs : List (Bytes × Bytes)) (flags : List Bytes) : Prop where
  options : ∀ k, fieldsOptions[k]? = some true → k ∈ pairs.map Prod.fst
  enabled : ∀ f, fieldsEnabled[f]? = some true → f ∈ flags

end

theorem isOption_iff {token : Bytes} : isOption token = true ↔ Dashed token := by
  unfold isOption Dashed
  rw [Bool.and_eq_true, decide_eq_true_eq, beq_iff_eq]
  constructor
  · rintro ⟨long, dashes⟩
    refine ⟨token.drop 2, ?_, ?_⟩
    · rw [← List.length_pos_iff, List.length_drop]
      omega
    · rw [← dashes, List.take_append_drop]
  · rintro ⟨name, named, rfl⟩
    have positive := List.length_pos_iff.mpr named
    refine ⟨?_, List.take_left' rfl⟩
    rw [List.length_append, show (ascii "--").length = 2 from rfl]
    omega

theorem dashed_append {name : Bytes} (named : name ≠ []) : isOption (ascii "--" ++ name) = true :=
  isOption_iff.mpr ⟨name, named, rfl⟩

theorem name_of_dashed (name : Bytes) : (ascii "--" ++ name).drop 2 = name := List.drop_left' rfl

/-! ## What a scan stores -/

section
variable {β : Type} (entries : List (Bytes × β)) (map : Std.TreeMap Bytes β) (key : Bytes)

def insertAll : Std.TreeMap Bytes β :=
  entries.foldl (fun map entry => map.insertIfNew entry.1 entry.2) map

/-- What is there stays, then the first entry counts. -/
theorem getElem?_insertAll : (insertAll entries map)[key]? = map[key]?.or (entries.lookup key) := by
  induction entries generalizing map with
  | nil => exact (Option.or_none).symm
  | cons entry rest ih =>
    obtain ⟨name, value⟩ := entry
    have first : insertAll ((name, value) :: rest) map =
        insertAll rest (map.insertIfNew name value) := rfl
    rw [first, ih, Std.TreeMap.getElem?_insertIfNew, List.lookup_cons]
    by_cases same : key = name
    · subst same
      rw [Std.ReflOrd.compare_self, beq_self_eq_true]
      cases there : map[key]? with
      | none =>
        have absent : key ∉ map := by
          rw [← Std.TreeMap.isSome_getElem?_iff_mem, there]
          exact Bool.false_ne_true
        rw [if_pos ⟨rfl, absent⟩]
        rfl
      | some old =>
        have present : key ∈ map := by
          rw [← Std.TreeMap.isSome_getElem?_iff_mem, there]
          rfl
        rw [if_neg fun both => both.2 present]
        rfl
    · have differs : ¬ compare name key = .eq := by
        rw [Std.LawfulEqOrd.compare_eq_iff_eq]
        exact Ne.symm same
      rw [if_neg fun both => differs both.1, beq_false_of_ne same]

end

/-- The parser with the pairs and flags of a line in its maps. -/
def stored (parser : IArgumentParser) (pairs : List (Bytes × Bytes)) (flags : List Bytes) :
    IArgumentParser :=
  { parser with
    options := insertAll pairs parser.options
    enabled := insertAll (flags.map fun f => (f, true)) parser.enabled }

section
variable {fieldsOptions fieldsEnabled : Std.TreeMap Bytes Bool} {pairs : List (Bytes × Bytes)}
  {flags : List Bytes}

theorem getStringArg_stored (key : Bytes) :
    getStringArg (stored (fresh fieldsOptions fieldsEnabled) pairs flags) key =
      pairs.lookup key := by
  show (insertAll pairs ∅)[key]? = _
  rw [getElem?_insertAll, Std.TreeMap.getElem?_emptyc]
  rfl

theorem lookup_flags (flags : List Bytes) (key : Bytes) :
    (flags.map fun f => (f, true)).lookup key = if key ∈ flags then some true else none := by
  induction flags with
  | nil => rfl
  | cons f flags ih =>
    rw [List.map_cons, List.lookup_cons, ih]
    by_cases same : key = f
    · simp [same]
    · simp [same, beq_false_of_ne same]

theorem enabled_stored (key : Bytes) :
    (stored (fresh fieldsOptions fieldsEnabled) pairs flags).enabled[key]? =
      if key ∈ flags then some true else none := by
  show (insertAll (flags.map fun f => (f, true)) ∅)[key]? = _
  rw [getElem?_insertAll, Std.TreeMap.getElem?_emptyc, lookup_flags]
  rfl

theorem lookup_isSome (pairs : List (Bytes × Bytes)) (key : Bytes) :
    (pairs.lookup key).isSome = true ↔ key ∈ pairs.map Prod.fst := by
  induction pairs with
  | nil => simp
  | cons pair pairs ih =>
    obtain ⟨name, value⟩ := pair
    rw [List.lookup_cons, List.map_cons, List.mem_cons]
    by_cases same : key = name
    · simp [same]
    · simp [same, beq_false_of_ne same, ih]

/-- `CheckRequired` finds every required name. -/
theorem checkRequired_eq_none_iff (parser : IArgumentParser) :
    checkRequired parser = none ↔
      (∀ k, parser.fieldsOptions[k]? = some true → k ∈ parser.options) ∧
        ∀ f, parser.fieldsEnabled[f]? = some true → f ∈ parser.enabled := by
  have all {β : Type} (fields : Std.TreeMap Bytes Bool) (map : Std.TreeMap Bytes β) :
      fields.toList.find? (fun field => field.2 && !map.contains field.1) = none ↔
        ∀ k, fields[k]? = some true → k ∈ map := by
    rw [List.find?_eq_none]
    constructor
    · intro none k required
      have found := none (k, true) (Std.TreeMap.mem_toList_iff_getElem?_eq_some.mpr required)
      simpa using found
    · rintro every ⟨k, required⟩ member missing
      simp only [Bool.and_eq_true, Bool.not_eq_true'] at missing
      obtain ⟨rfl, absent⟩ := missing
      have present := every k (Std.TreeMap.mem_toList_iff_getElem?_eq_some.mp member)
      rw [Std.TreeMap.mem_iff_contains, absent] at present
      cases present
  rw [← all, ← all]
  unfold checkRequired
  split
  · next found => simp [found]
  · next none =>
    rw [none]
    split
    · next found => simp [found]
    · next none => simp [none]

/-- In the parser that a line leaves, the required names are there if they occur. -/
theorem checkRequired_stored_iff :
    checkRequired (stored (fresh fieldsOptions fieldsEnabled) pairs flags) = none ↔
      Complete fieldsOptions fieldsEnabled pairs flags := by
  have options (k : Bytes) : k ∈ (stored (fresh fieldsOptions fieldsEnabled) pairs flags).options ↔
      k ∈ pairs.map Prod.fst := by
    rw [← Std.TreeMap.isSome_getElem?_iff_mem, ← lookup_isSome, ← getStringArg_stored]
    rfl
  have enabled (f : Bytes) :
      f ∈ (stored (fresh fieldsOptions fieldsEnabled) pairs flags).enabled ↔ f ∈ flags := by
    rw [← Std.TreeMap.isSome_getElem?_iff_mem, enabled_stored]
    split
    · simp [*]
    · simp [*]
  rw [checkRequired_eq_none_iff]
  simp only [options, enabled]
  exact ⟨fun all => ⟨all.1, all.2⟩, fun all => ⟨all.options, all.enabled⟩⟩

end

/-! ## Lines are what is scanned to the end -/

section
variable {fieldsOptions fieldsEnabled : Std.TreeMap Bytes Bool}

/-- A parser with the given declarations. -/
structure Declares (parser : IArgumentParser)
    (fieldsOptions fieldsEnabled : Std.TreeMap Bytes Bool) : Prop where
  options : parser.fieldsOptions = fieldsOptions
  enabled : parser.fieldsEnabled = fieldsEnabled

theorem scan_line {tokens flags : List Bytes} {pairs : List (Bytes × Bytes)}
    (distinct : ∀ name ∈ fieldsEnabled, name ∉ fieldsOptions)
    (line : Line fieldsOptions fieldsEnabled tokens pairs flags) {parser : IArgumentParser}
    (declares : Declares parser fieldsOptions fieldsEnabled) :
    scan parser tokens = (stored parser pairs flags, none) := by
  induction line generalizing parser with
  | nil => rfl
  | positional plain rest ih =>
    rw [scan_positional (Bool.eq_false_iff.mpr (mt isOption_iff.mp plain)), ih declares]
  | @flag f tokens pairs flags named declared rest ih =>
    have string : parser.fieldsOptions.contains ((ascii "--" ++ f).drop 2) = false := by
      rw [name_of_dashed, declares.options, ← Bool.not_eq_true]
      exact distinct f declared
    have known : parser.fieldsEnabled.contains ((ascii "--" ++ f).drop 2) = true := by
      rw [name_of_dashed, declares.enabled]
      exact declared
    rw [scan_flag (dashed_append named) string known, name_of_dashed]
    exact ih ⟨declares.options, declares.enabled⟩
  | @pair k v tokens pairs flags named declared value rest ih =>
    have string : parser.fieldsOptions.contains ((ascii "--" ++ k).drop 2) = true := by
      rw [name_of_dashed, declares.options]
      exact declared
    rw [scan_pair (dashed_append named) string (Bool.eq_false_iff.mpr (mt isOption_iff.mp value)),
      name_of_dashed]
    exact ih ⟨declares.options, declares.enabled⟩

theorem line_of_scan {parser : IArgumentParser} {tokens : List Bytes}
    (accepted : (scan parser tokens).2 = none) :
    ∃ pairs flags, Line parser.fieldsOptions parser.fieldsEnabled tokens pairs flags := by
  fun_induction scan parser tokens with
  | case1 parser => exact ⟨[], [], .nil⟩
  | case2 parser token => cases accepted
  | case3 parser token => cases accepted
  | case4 parser token option string value rest plain ih =>
    obtain ⟨pairs, flags, line⟩ := ih accepted
    obtain ⟨name, named, rfl⟩ := isOption_iff.mp option
    rw [name_of_dashed] at string
    exact ⟨(name, value) :: pairs, flags, .pair named string (mt isOption_iff.mpr plain) line⟩
  | case5 parser token rest option string flag ih =>
    obtain ⟨pairs, flags, line⟩ := ih accepted
    obtain ⟨name, named, rfl⟩ := isOption_iff.mp option
    rw [name_of_dashed] at flag
    exact ⟨pairs, name :: flags, .flag named flag line⟩
  | case6 parser token => cases accepted
  | case7 parser token rest plain ih =>
    obtain ⟨pairs, flags, line⟩ := ih accepted
    exact ⟨pairs, flags, .positional (mt isOption_iff.mpr plain) line⟩

end

/-- `Init` returns true for the lines of the grammar with all required names in them, and for
no others; then the accessors give the value of the first pair of a name and the flags that
occur, wherever they stand. -/
theorem init_accepts_grammar (fieldsOptions fieldsEnabled : Std.TreeMap Bytes Bool)
    (distinct : ∀ name ∈ fieldsEnabled, name ∉ fieldsOptions) (argv : List Bytes) :
    ∃ parser error, init (fresh fieldsOptions fieldsEnabled) argv = some (parser, error) ∧
      (error = none ↔ ∃ pairs flags, Line fieldsOptions fieldsEnabled argv pairs flags ∧
        Complete fieldsOptions fieldsEnabled pairs flags) ∧
      (error = none → ∀ pairs flags, Line fieldsOptions fieldsEnabled argv pairs flags →
        (∀ k, getStringArg parser k = pairs.lookup k) ∧
        ∀ f, getBoolArg parser f = true ↔ f ∈ flags) := by
  have declares : Declares (fresh fieldsOptions fieldsEnabled) fieldsOptions fieldsEnabled :=
    ⟨rfl, rfl⟩
  refine ⟨_, _, init_eq _ argv, ?_, ?_⟩
  · constructor
    · intro accepted
      obtain ⟨scanned, required⟩ := Option.or_eq_none_iff.mp accepted
      obtain ⟨pairs, flags, line⟩ := line_of_scan scanned
      rw [scan_line distinct line declares] at required
      exact ⟨pairs, flags, line, checkRequired_stored_iff.mp required⟩
    · rintro ⟨pairs, flags, line, complete⟩
      rw [scan_line distinct line declares]
      exact checkRequired_stored_iff.mpr complete
  · intro _ pairs flags line
    rw [scan_line distinct line declares]
    refine ⟨getStringArg_stored, ?_⟩
    intro f
    rw [getBoolArg, enabled_stored]
    split
    · simp [*]
    · simp [*]

/-- The declarations of the unit test. -/
def testOptions : Std.TreeMap Bytes Bool :=
  insertAll [(ascii "ip", true), (ascii "port", true), (ascii "name", false),
    (ascii "support", false)] ∅

def testFlags : Std.TreeMap Bytes Bool :=
  insertAll [(ascii "ipv6", false), (ascii "daemon", true)] ∅

theorem init_accepts_grammar_unitTest :
    ∃ parser error, init (fresh testOptions testFlags)
        [ascii "--ip", ascii "127.0.0.1", ascii "--port", ascii "8067", ascii "--daemon"] =
          some (parser, error) ∧
      (error = none ↔ ∃ pairs flags, Line testOptions testFlags
        [ascii "--ip", ascii "127.0.0.1", ascii "--port", ascii "8067",
          ascii "--daemon"] pairs flags ∧
        Complete testOptions testFlags pairs flags) ∧
      (error = none → ∀ pairs flags, Line testOptions testFlags
        [ascii "--ip", ascii "127.0.0.1", ascii "--port", ascii "8067",
          ascii "--daemon"] pairs flags →
        (∀ k, getStringArg parser k = pairs.lookup k) ∧
        ∀ f, getBoolArg parser f = true ↔ f ∈ flags) := by
  refine init_accepts_grammar testOptions testFlags ?_ _
  have listed : ∀ field ∈ testFlags.toList, field.1 ∉ testOptions := by decide +kernel
  intro name declared
  obtain ⟨required, entry⟩ :=
    Option.isSome_iff_exists.mp (Std.TreeMap.isSome_getElem?_iff_mem.mpr declared)
  exact listed (name, required) (Std.TreeMap.mem_toList_iff_getElem?_eq_some.mpr entry)

end Ladder.Guarantees.OptionGrammar

import Mathlib.Data.Option.Basic

/-!
# Runs of a partial step function

`step s act = none` means that the action is not enabled in `s`. `RunMeets` says
that a condition on a step and the state before it holds at every step of a run;
the invariant rules below are the only inductions over runs that clients need.
-/
namespace Ladder.Library

universe u v
variable {σ : Type u} {α : Type v}

def run (step : σ → α → Option σ) : σ → List α → Option σ
  | s, [] => some s
  | s, act :: rest =>
    match step s act with
    | some next => run step next rest
    | none => none

/-- `ok` holds of every step of the run, evaluated in the state before the step. -/
def RunMeets (step : σ → α → Option σ) (ok : σ → α → Prop) : σ → List α → Prop
  | _, [] => True
  | s, act :: rest =>
    ok s act ∧
      match step s act with
      | some next => RunMeets step ok next rest
      | none => True

instance decidableRunMeets (step : σ → α → Option σ) (ok : σ → α → Prop)
    [inst : ∀ s act, Decidable (ok s act)] : ∀ s acts, Decidable (RunMeets step ok s acts)
  | _, [] => .isTrue trivial
  | s, act :: rest =>
    have : Decidable (match step s act with
        | some next => RunMeets step ok next rest
        | none => True) :=
      match step s act with
      | some next => decidableRunMeets step ok next rest
      | none => .isTrue trivial
    inferInstanceAs (Decidable (_ ∧ _))

variable {step : σ → α → Option σ} {ok : σ → α → Prop}

theorem run_single {s next : σ} {act : α} (stepped : step s act = some next) :
    run step s [act] = some next := by
  simp only [run, stepped]

theorem run_cons {s next : σ} {act : α} (stepped : step s act = some next) (rest : List α) :
    run step s (act :: rest) = run step next rest := by
  simp only [run, stepped]

theorem run_cons_some {s final : σ} {act : α} {rest : List α}
    (h : run step s (act :: rest) = some final) :
    ∃ next, step s act = some next ∧ run step next rest = some final := by
  unfold run at h
  split at h
  · rename_i next stepped
    exact ⟨next, stepped, h⟩
  · cases h

theorem run_append {s : σ} (front back : List α) :
    run step s (front ++ back) = (run step s front).bind fun middle => run step middle back := by
  induction front generalizing s with
  | nil => rfl
  | cons act rest ih =>
    simp only [List.cons_append, run]
    split
    · exact ih
    · rfl

/-- Some run leads from one state to the other. -/
def Reaches (step : σ → α → Option σ) (s t : σ) : Prop := ∃ acts, run step s acts = some t

theorem Reaches.refl (s : σ) : Reaches step s s := ⟨[], rfl⟩

theorem Reaches.head {s next t : σ} (act : α) (stepped : step s act = some next)
    (rest : Reaches step next t) : Reaches step s t := by
  obtain ⟨acts, reached⟩ := rest
  exact ⟨act :: acts, by simp only [run, stepped, reached]⟩

theorem Reaches.trans {s middle t : σ} (front : Reaches step s middle)
    (back : Reaches step middle t) : Reaches step s t := by
  obtain ⟨before, there⟩ := front
  obtain ⟨after, final⟩ := back
  exact ⟨before ++ after, by rw [run_append, there]; exact final⟩

/-- When every step of one machine is a path of another one, so is every run. -/
theorem Reaches.of_run {β : Type v} {coarse : σ → β → Option σ}
    (refines : ∀ s act next, coarse s act = some next → Reaches step s next)
    {s final : σ} {acts : List β} (reached : run coarse s acts = some final) :
    Reaches step s final := by
  induction acts generalizing s with
  | nil =>
    cases reached
    exact .refl _
  | cons act rest ih =>
    unfold run at reached
    split at reached
    · rename_i next stepped
      exact (refines s act next stepped).trans (ih reached)
    · cases reached

theorem RunMeets.head {s : σ} {act : α} {rest : List α} (meets : RunMeets step ok s (act :: rest)) :
    ok s act := by
  unfold RunMeets at meets
  exact meets.1

theorem RunMeets.cons {s next : σ} {act : α} {rest : List α}
    (meets : RunMeets step ok s (act :: rest)) (stepped : step s act = some next) :
    ok s act ∧ RunMeets step ok next rest := by
  unfold RunMeets at meets
  rw [stepped] at meets
  exact meets

/-- A property preserved by every step that meets the condition holds at the end
of every run whose steps all meet it. Prefixes of such a run meet it too, so this
covers every state the run passes through. -/
theorem run_guarded {Inv : σ → Prop}
    (preserved : ∀ s act next, Inv s → ok s act → step s act = some next → Inv next)
    {s final : σ} {acts : List α} (start : Inv s) (meets : RunMeets step ok s acts)
    (reached : run step s acts = some final) : Inv final := by
  induction acts generalizing s with
  | nil =>
    cases reached
    exact start
  | cons act rest ih =>
    obtain ⟨next, stepped, remaining⟩ := run_cons_some reached
    obtain ⟨here, later⟩ := meets.cons stepped
    exact ih (preserved s act next start here stepped) later remaining

/-- A condition on the actions alone. -/
theorem RunMeets.of_forall {acts : List α} (always : ∀ act ∈ acts, ∀ s, ok s act) (s : σ) :
    RunMeets step ok s acts := by
  induction acts generalizing s with
  | nil => trivial
  | cons act rest ih =>
    refine ⟨always act (.head _) s, ?_⟩
    split
    · exact ih (fun act member => always act (.tail _ member)) _
    · trivial

theorem RunMeets.imp {weaker : σ → α → Prop} (weakens : ∀ s act, ok s act → weaker s act) {s : σ}
    {acts : List α} (meets : RunMeets step ok s acts) : RunMeets step weaker s acts := by
  induction acts generalizing s with
  | nil => trivial
  | cons act rest ih =>
    refine ⟨weakens s act meets.head, ?_⟩
    split
    · rename_i next stepped
      exact ih (meets.cons stepped).2
    · trivial

/-- A condition on the actions alone, beside one on the states. -/
theorem RunMeets.and_forall {allowed : α → Prop} {s : σ} {acts : List α}
    (meets : RunMeets step ok s acts) (always : ∀ act ∈ acts, allowed act) :
    RunMeets step (fun s act => ok s act ∧ allowed act) s acts := by
  induction acts generalizing s with
  | nil => trivial
  | cons act rest ih =>
    refine ⟨⟨meets.head, always act (.head _)⟩, ?_⟩
    split
    · rename_i next stepped
      exact ih (meets.cons stepped).2 fun act member => always act (.tail _ member)
    · trivial

/-- The unconditional invariant rule. -/
theorem run_invariant {Inv : σ → Prop}
    (preserved : ∀ s act next, Inv s → step s act = some next → Inv next)
    {s final : σ} {acts : List α} (start : Inv s) (reached : run step s acts = some final) :
    Inv final := by
  have meets : RunMeets step (fun _ _ => True) s acts := .of_forall (fun _ _ _ => trivial) s
  exact run_guarded (fun s act next holds _ stepped => preserved s act next holds stepped)
    start meets reached

/-- When every step out of the good states stays there or, exactly if it breaks the
condition, leaves them for good, so does every run. -/
theorem run_kept_or_lost {good bad : σ → Prop}
    (leaves : ∀ s act next, good s → step s act = some next →
      (ok s act ∧ good next) ∨ (¬ ok s act ∧ bad next))
    (lost : ∀ s act next, bad s → step s act = some next → bad next)
    {s final : σ} {acts : List α} (start : good s) (reached : run step s acts = some final) :
    (RunMeets step ok s acts ∧ good final) ∨ (¬ RunMeets step ok s acts ∧ bad final) := by
  induction acts generalizing s with
  | nil =>
    cases reached
    exact .inl ⟨trivial, start⟩
  | cons act rest ih =>
    obtain ⟨next, stepped, remaining⟩ := run_cons_some reached
    rcases leaves s act next start stepped with ⟨meets, still⟩ | ⟨breaks, gone⟩
    · simp only [RunMeets, stepped, meets, true_and]
      exact ih still remaining
    · right
      constructor
      · intro both
        exact breaks both.1
      · exact run_invariant lost gone remaining

/-- A run keeps a property exactly when all of its steps meet the condition, if that
is so for single steps and no step restores it. -/
theorem run_keeps_iff {good : σ → Prop}
    (keeps : ∀ s act next, good s → step s act = some next → (good next ↔ ok s act))
    (lost : ∀ s act next, ¬ good s → step s act = some next → ¬ good next)
    {s final : σ} {acts : List α} (start : good s) (reached : run step s acts = some final) :
    good final ↔ RunMeets step ok s acts := by
  have leaves (s : σ) (act : α) (next : σ) (holds : good s) (stepped : step s act = some next) :
      (ok s act ∧ good next) ∨ (¬ ok s act ∧ ¬ good next) := by
    have exactly := keeps s act next holds stepped
    by_cases meets : ok s act
    · exact .inl ⟨meets, exactly.mpr meets⟩
    · exact .inr ⟨meets, fun kept => meets (exactly.mp kept)⟩
  rcases run_kept_or_lost leaves lost start reached with ⟨meets, kept⟩ | ⟨breaks, gone⟩
  · exact ⟨fun _ => meets, fun _ => kept⟩
  · exact ⟨fun kept => absurd kept gone, fun meets => absurd meets breaks⟩

/-- The property holds in every state the run passes through. -/
def Along (step : σ → α → Option σ) (good : σ → Prop) : σ → List α → Prop
  | s, [] => good s
  | s, act :: rest =>
    good s ∧
      match step s act with
      | some next => Along step good next rest
      | none => True

theorem Along.start {good : σ → Prop} {s : σ} {acts : List α} (along : Along step good s acts) :
    good s := by
  cases acts with
  | nil => exact along
  | cons act rest => exact along.1

theorem Along.imp {good weaker : σ → Prop} (weakens : ∀ s, good s → weaker s) {s : σ}
    {acts : List α} (along : Along step good s acts) : Along step weaker s acts := by
  induction acts generalizing s with
  | nil => exact weakens s along
  | cons act rest ih =>
    unfold Along at along ⊢
    refine ⟨weakens s along.1, ?_⟩
    cases stepped : step s act with
    | none => trivial
    | some next =>
      rw [stepped] at along
      exact ih along.2

/-- What every step that meets the condition preserves holds all along a run of such steps. -/
theorem along_of_guarded {Inv : σ → Prop}
    (preserved : ∀ s act next, Inv s → ok s act → step s act = some next → Inv next)
    {s : σ} {acts : List α} (start : Inv s) (meets : RunMeets step ok s acts) :
    Along step Inv s acts := by
  induction acts generalizing s with
  | nil => exact start
  | cons act rest ih =>
    unfold Along
    refine ⟨start, ?_⟩
    cases stepped : step s act with
    | none => trivial
    | some next =>
      obtain ⟨here, later⟩ := meets.cons stepped
      exact ih (preserved s act next start here stepped) later

/-- Where single steps keep a property exactly if they meet the condition, it holds all
along a run exactly if every step of the run does. Invariant and guard may be assumed. -/
theorem along_iff {Inv good : σ → Prop} {guard : σ → α → Prop}
    (preserved : ∀ s act next, Inv s → good s → guard s act → step s act = some next → Inv next)
    (keeps : ∀ s act next, Inv s → good s → guard s act → step s act = some next →
      (good next ↔ ok s act))
    {s final : σ} {acts : List α} (start : Inv s) (holds : good s)
    (guarded : RunMeets step guard s acts) (reached : run step s acts = some final) :
    Along step good s acts ↔ RunMeets step ok s acts := by
  induction acts generalizing s with
  | nil => exact ⟨fun _ => trivial, fun _ => holds⟩
  | cons act rest ih =>
    obtain ⟨next, stepped, remaining⟩ := run_cons_some reached
    obtain ⟨allowed, later⟩ := guarded.cons stepped
    have here := keeps s act next start holds allowed stepped
    have inv' := preserved s act next start holds allowed stepped
    simp only [Along, RunMeets, stepped, holds, true_and]
    constructor
    · intro along
      exact ⟨here.mp along.start, (ih inv' along.start later remaining).mp along⟩
    · rintro ⟨meets, met⟩
      exact (ih inv' (here.mpr meets) later remaining).mpr met

/-- A run whose steps all meet a condition that enables them is never stuck. -/
theorem run_enabled {Inv : σ → Prop}
    (enabled : ∀ s act, Inv s → ok s act → ∃ next, step s act = some next ∧ Inv next)
    {s : σ} {acts : List α} (start : Inv s) (meets : RunMeets step ok s acts) :
    ∃ final, run step s acts = some final ∧ Inv final := by
  induction acts generalizing s with
  | nil => exact ⟨s, rfl, start⟩
  | cons act rest ih =>
    obtain ⟨next, stepped, holds⟩ := enabled s act start meets.1
    obtain ⟨final, reached, kept⟩ := ih holds (meets.cons stepped).2
    exact ⟨final, by simp only [run, stepped, reached], kept⟩

/-- Forward simulation over whole runs: while the concrete steps meet the
condition, both systems make the same moves and stay related. -/
theorem run_simulates {τ : Type u} {abstract : τ → α → Option τ} {R : σ → τ → Prop}
    (simulates : ∀ s t act, R s t → ok s act →
      ∃ s' t', step s act = some s' ∧ abstract t act = some t' ∧ R s' t')
    {s : σ} {t : τ} {acts : List α} (related : R s t) (meets : RunMeets step ok s acts) :
    ∃ s' t', run step s acts = some s' ∧ run abstract t acts = some t' ∧ R s' t' := by
  induction acts generalizing s t with
  | nil => exact ⟨s, t, rfl, rfl, related⟩
  | cons act rest ih =>
    obtain ⟨s', t', stepped, matched, related'⟩ := simulates s t act related meets.1
    obtain ⟨-, later⟩ := meets.cons stepped
    simp only [run, stepped, matched]
    exact ih related' later

/-- Two systems whose related states make related moves, or are stuck together, end any
run of actions in related states, or are stuck together. -/
theorem run_bisimulates {τ : Type u} {abstract : τ → α → Option τ} {R : σ → τ → Prop}
    (matches_ : ∀ s t act, R s t → Option.Rel R (step s act) (abstract t act))
    {s : σ} {t : τ} (acts : List α) (related : R s t) :
    Option.Rel R (run step s acts) (run abstract t acts) := by
  induction acts generalizing s t with
  | nil => exact .some related
  | cons act rest ih =>
    have moves := matches_ s t act related
    unfold run
    generalize step s act = next at moves
    generalize abstract t act = next' at moves
    cases moves with
    | some related' => exact ih related'
    | none => exact .none

/-- Repeating one action reaches the goal when every repetition short of it is
enabled, keeps the invariant and lowers a measure. -/
theorem run_until (Inv goal : σ → Prop) (act : α) (measure : σ → Nat)
    (progress : ∀ s, Inv s → ¬ goal s → ∃ next, step s act = some next ∧ Inv next ∧
      measure next < measure s)
    (s : σ) (start : Inv s) :
    ∃ n final, run step s (List.replicate n act) = some final ∧ goal final ∧ Inv final := by
  induction hm : measure s using Nat.strongRecOn generalizing s with
  | _ m ih =>
    by_cases done : goal s
    · exact ⟨0, s, rfl, done, start⟩
    · obtain ⟨next, stepped, holds, lower⟩ := progress s start done
      obtain ⟨n, final, reached, arrived, kept⟩ := ih (measure next) (hm ▸ lower) next holds rfl
      refine ⟨n + 1, final, ?_, arrived, kept⟩
      simp only [List.replicate_succ, run, stepped, reached]

/-- Actions of a kind reach the goal when short of it one of them is enabled, keeps the
invariant and lowers a measure. -/
theorem run_progresses (Inv goal : σ → Prop) (allowed : α → Prop) (measure : σ → Nat)
    (progress : ∀ s, Inv s → ¬ goal s → ∃ act next, allowed act ∧
      step s act = some next ∧ Inv next ∧
      measure next < measure s)
    (s : σ) (start : Inv s) :
    ∃ acts final, (∀ act ∈ acts, allowed act) ∧ run step s acts = some final ∧
      goal final ∧ Inv final := by
  induction hm : measure s using Nat.strongRecOn generalizing s with
  | _ m ih =>
    by_cases done : goal s
    · exact ⟨[], s, List.forall_mem_nil _, rfl, done, start⟩
    · obtain ⟨act, next, kind, stepped, holds, lower⟩ := progress s start done
      obtain ⟨acts, final, kinds, reached, arrived, kept⟩ :=
        ih (measure next) (hm ▸ lower) next holds rfl
      refine ⟨act :: acts, final, List.forall_mem_cons.mpr ⟨kind, kinds⟩, ?_, arrived, kept⟩
      rw [run_cons stepped]
      exact reached

/-- When every step of a kind lowers a measure and no step raises it, a run has at
most as many steps of the kind as the measure allows. -/
theorem run_bounded {Inv : σ → Prop} (counted : α → Bool) (measure : σ → Nat)
    (lowers : ∀ s act next, Inv s → step s act = some next →
      Inv next ∧ measure next + (if counted act then 1 else 0) ≤ measure s)
    {s final : σ} {acts : List α} (start : Inv s) (reached : run step s acts = some final) :
    acts.countP counted + measure final ≤ measure s := by
  induction acts generalizing s with
  | nil =>
    cases reached
    simp
  | cons act rest ih =>
    obtain ⟨next, stepped, remaining⟩ := run_cons_some reached
    obtain ⟨kept, lower⟩ := lowers s act next start stepped
    have later := ih kept remaining
    rw [List.countP_cons]
    omega

/-! ## Endless inputs -/

/-- The state after the given number of inputs. -/
def drive {β : Type v} (next : σ → β → σ) (inputs : Nat → β) (s : σ) : Nat → σ
  | 0 => s
  | n + 1 => next (drive next inputs s n) (inputs n)

theorem drive_invariant {β : Type v} {next : σ → β → σ} {allowed : β → Prop} {Inv : σ → Prop}
    (preserved : ∀ s input, Inv s → allowed input → Inv (next s input))
    {inputs : Nat → β} (fair : ∀ n, allowed (inputs n)) {s : σ} (start : Inv s) (n : Nat) :
    Inv (drive next inputs s n) := by
  induction n with
  | zero => exact start
  | succ n ih => exact preserved _ _ ih (fair n)

/-- The goal is reached when every input short of it lowers a measure. -/
theorem drive_reaches {β : Type v} {next : σ → β → σ} {allowed : β → Prop} {Inv goal : σ → Prop}
    (measure : σ → Nat)
    (progress : ∀ s input, Inv s → ¬ goal s → allowed input →
      Inv (next s input) ∧ measure (next s input) < measure s)
    {inputs : Nat → β} (fair : ∀ n, allowed (inputs n)) {s : σ} (start : Inv s) :
    ∃ n, goal (drive next inputs s n) ∧ Inv (drive next inputs s n) := by
  -- without the goal the measure of the n-th state falls below any bound
  by_contra never
  have kept : ∀ n, Inv (drive next inputs s n) ∧
      measure (drive next inputs s n) + n ≤ measure s := by
    intro n
    induction n with
    | zero => exact ⟨start, Nat.le_refl _⟩
    | succ n ih =>
      have short : ¬ goal (drive next inputs s n) := fun reached => never ⟨n, reached, ih.1⟩
      obtain ⟨inv, lower⟩ := progress _ (inputs n) ih.1 short (fair n)
      exact ⟨inv, by simp only [drive]; omega⟩
  have beyond := (kept (measure s + 1)).2
  omega

/-! ## Loops -/

/-- A `while` loop whose condition and body may fail; none also when the rounds do not suffice. -/
def whileLoop (cond : σ → Option Bool) (body : σ → Option σ) : Nat → σ → Option σ
  | 0, _ => none
  | rounds + 1, s =>
    match cond s with
    | none => none
    | some false => some s
    | some true => (body s).bind (whileLoop cond body rounds)

/-- A state that the loop comes to. -/
inductive Visits (cond : σ → Option Bool) (body : σ → Option σ) (first : σ) : σ → Prop
  | start : Visits cond body first first
  | round {s next : σ} (visited : Visits cond body first s) (go : cond s = some true)
      (stepped : body s = some next) : Visits cond body first next

theorem Visits.invariant {cond : σ → Option Bool} {body : σ → Option σ}
    {first s : σ} {Inv : σ → Prop} (visited : Visits cond body first s) (holds : Inv first)
    (keeps : ∀ s next, Inv s → cond s = some true → body s = some next → Inv next) : Inv s := by
  induction visited with
  | start => exact holds
  | round _ go stepped ih => exact keeps _ _ ih go stepped

/-- A loop whose body keeps an invariant and lowers a measure while it is live comes to a
state that is not, and its result is decided there. -/
theorem whileLoop_reaches {cond : σ → Option Bool} {body : σ → Option σ} {Inv : σ → Prop}
    (live : σ → Prop) (measure : σ → Nat)
    (round : ∀ s, Inv s → live s →
      cond s = some true ∧ ∃ next, body s = some next ∧ Inv next ∧ measure next < measure s)
    {rounds : Nat} {s : σ} (start : Inv s) (enough : measure s < rounds) :
    ∃ final left, Inv final ∧ ¬ live final ∧
      whileLoop cond body rounds s = whileLoop cond body (left + 1) final := by
  induction rounds generalizing s with
  | zero => exact absurd enough (Nat.not_lt_zero _)
  | succ rounds ih =>
    by_cases going : live s
    · obtain ⟨go, next, stepped, inv, lower⟩ := round s start going
      obtain ⟨final, left, holds, stopped, same⟩ := ih inv (by omega)
      refine ⟨final, left, holds, stopped, ?_⟩
      rw [← same]
      simp only [whileLoop, go, stepped, Option.bind_some]
    · exact ⟨s, rounds, start, going, rfl⟩

/-- A loop that can always tell whether it goes on ends within as many rounds as the measure
says. -/
theorem whileLoop_total {cond : σ → Option Bool} {body : σ → Option σ} {Inv : σ → Prop}
    (measure : σ → Nat) (defined : ∀ s, Inv s → ∃ b, cond s = some b)
    (round : ∀ s, Inv s → cond s = some true → ∃ next, body s = some next ∧ Inv next ∧
      measure next < measure s)
    {rounds : Nat} {s : σ} (start : Inv s) (enough : measure s < rounds) :
    ∃ final, whileLoop cond body rounds s = some final ∧ Inv final ∧ cond final = some false := by
  obtain ⟨final, left, holds, stopped, same⟩ :=
    whileLoop_reaches (fun s => cond s = some true) measure
      (fun s inv go => ⟨go, round s inv go⟩) start enough
  obtain ⟨go, decided⟩ := defined final holds
  cases go with
  | true => exact absurd decided stopped
  | false => exact ⟨final, by simp only [same, whileLoop, decided], holds, decided⟩

/-- A loop that returns has found its condition false. -/
theorem whileLoop_over {cond : σ → Option Bool} {body : σ → Option σ} {rounds : Nat} {s final : σ}
    (ends : whileLoop cond body rounds s = some final) : cond final = some false := by
  induction rounds generalizing s with
  | zero => cases ends
  | succ rounds ih =>
    unfold whileLoop at ends
    split at ends
    · cases ends
    · next decided =>
      cases ends
      exact decided
    · obtain ⟨next, -, later⟩ := Option.bind_eq_some_iff.mp ends
      exact ih later

/-- What the body keeps holds when the loop is over. -/
theorem whileLoop_invariant {cond : σ → Option Bool} {body : σ → Option σ} {Inv : σ → Prop}
    (keeps : ∀ s next, Inv s → cond s = some true → body s = some next → Inv next)
    {rounds : Nat} {s final : σ} (start : Inv s)
    (ends : whileLoop cond body rounds s = some final) :
    Inv final := by
  induction rounds generalizing s with
  | zero => cases ends
  | succ rounds ih =>
    unfold whileLoop at ends
    split at ends
    · cases ends
    · cases ends
      exact start
    · next go =>
      obtain ⟨next, stepped, later⟩ := Option.bind_eq_some_iff.mp ends
      exact ih (keeps s next start go stepped) later

/-- More rounds and a body that is defined more often change no result. -/
theorem whileLoop_mono {cond : σ → Option Bool} {body larger : σ → Option σ}
    (agrees : ∀ s next, body s = some next → larger s = some next) {rounds more : Nat}
    (le : rounds ≤ more) {s final : σ} (ends : whileLoop cond body rounds s = some final) :
    whileLoop cond larger more s = some final := by
  induction rounds generalizing s more with
  | zero => cases ends
  | succ rounds ih =>
    obtain ⟨more, rfl⟩ : ∃ m, more = m + 1 := ⟨more - 1, by omega⟩
    unfold whileLoop at ends ⊢
    split at ends
    · cases ends
    · exact ends
    · obtain ⟨next, stepped, later⟩ := Option.bind_eq_some_iff.mp ends
      rw [agrees s next stepped, Option.bind_some]
      exact ih (by omega) later

/-- With enough rounds there is a result, and always this one. -/
def Returns {β : Type v} (result : Nat → Option β) (value : β) : Prop :=
  ∃ enough, ∀ rounds, enough ≤ rounds → result rounds = some value

theorem Returns.unique {β : Type v} {result : Nat → Option β} {value other : β}
    (returns : Returns result value) (again : Returns result other) : value = other := by
  obtain ⟨enough, ends⟩ := returns
  obtain ⟨enough', ends'⟩ := again
  have same := (ends (max enough enough') (Nat.le_max_left _ _)).symm.trans
    (ends' _ (Nat.le_max_right _ _))
  exact Option.some.inj same

theorem Returns.of_mono {β : Type v} {result : Nat → Option β} {value : β}
    (mono : ∀ rounds more value, rounds ≤ more → result rounds = some value →
      result more = some value)
    (rounds : Nat) (ends : result rounds = some value) : Returns result value :=
  ⟨rounds, fun more le => mono rounds more value le ends⟩

end Ladder.Library

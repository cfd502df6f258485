import Ladder.Source.TcpServer

/-!
# The connection table follows the open connections

Any number of `OnNewConnection` tasks and close events in any interleaving.
Registration with a loop comes before the insertion into the table, so a close event
can erase first and the task insert afterwards; and a task that finds the server
stopped drops its descriptor. Runs without either keep one equation: a connection
is in the table exactly between its insertion and its close callback.
-/
namespace Ladder.Guarantees.ConnectionTable
open Ladder.Library Ladder.Source.TcpServer

/-- The task has inserted the connection. -/
def stored : Position → Bool
  | .inserted | .returned => true
  | _ => false

/-- Close callbacks run after the insertion, and no task finds the server stopped. -/
def Orderly (s : State) : Act → Bool
  | .task id =>
    match s.conns[id]? with
    | some c => c.position != .accepted || s.running
    | none => true
  | .onCloseConnectionCallback id =>
    match s.conns[id]? with
    | some c => stored c.position
    | none => true
  | _ => true

/-! ## The invariant -/

structure ConnOk (s : State) (id : Nat) (c : Conn) : Prop where
  served : c.position ≠ .refused
  table : held s id = (stored c.position && c.closing != .notified)
  removed : c.closing ≠ .no → c.position = .registered ∨ stored c.position = true
  notified : c.closing = .notified → stored c.position = true

structure Inv (s : State) : Prop where
  conn : ∀ id c, s.conns[id]? = some c → ConnOk s id c
  entries : ∀ fd id, (fd, id) ∈ s.connections → ∃ c, s.conns[id]? = some c ∧ c.fd = fd
  /-- Two connections share a descriptor only when one of them has closed it. -/
  distinct : ∀ i j c d, s.conns[i]? = some c → s.conns[j]? = some d → c.fd = d.fd → i ≠ j →
    fdClosed s i c = true ∨ fdClosed s j d = true

theorem held_iff {s : State} {id : Nat} : held s id = true ↔ ∃ fd, (fd, id) ∈ s.connections := by
  simp only [held, List.any_eq_true, beq_iff_eq, Prod.exists]
  constructor
  · rintro ⟨fd, other, member, rfl⟩
    exact ⟨fd, member⟩
  · rintro ⟨fd, member⟩
    exact ⟨fd, id, member, rfl⟩

theorem not_closed_of_held {s : State} {id : Nat} {c : Conn} (inTable : held s id = true) :
    fdClosed s id c = false := by
  simp [fdClosed, inTable]

section
variable {s : State} {id : Nat} {c : Conn}

/-- A descriptor that is still open names one connection. -/
theorem Inv.same_of_fd (inv : Inv s) {j : Nat} {d : Conn} (here : s.conns[id]? = some c)
    (there : s.conns[j]? = some d) (same : c.fd = d.fd) (isOpen : fdClosed s id c = false)
    (isOpen' : fdClosed s j d = false) : j = id := by
  by_contra different
  rcases inv.distinct id j c d here there same (Ne.symm different) with closed | closed
  · rw [isOpen] at closed
    cases closed
  · rw [isOpen'] at closed
    cases closed

theorem update_cases {c' d : Conn} {j : Nat} (there : (s.update id c').conns[j]? = some d) :
    (j = id ∧ d = c') ∨ (j ≠ id ∧ s.conns[j]? = some d) := by
  simp only [State.update, List.getElem?_set] at there
  split at there
  · rename_i same
    split at there
    · cases there
      exact .inl ⟨same.symm, rfl⟩
    · cases there
  · rename_i different
    exact .inr ⟨Ne.symm different, there⟩

/-- The connections after a step of `id`: itself, and the others as they were. -/
theorem exists_update {c' d : Conn} {j : Nat} (here : s.conns[id]? = some c)
    (fd : c'.fd = c.fd) (there : s.conns[j]? = some d) :
    ∃ d', (s.update id c').conns[j]? = some d' ∧ d'.fd = d.fd := by
  by_cases same : j = id
  · subst same
    rw [here] at there
    cases there
    have bound : j < s.conns.length := (List.getElem?_eq_some_iff.mp here).1
    exact ⟨c', by simp [State.update, bound], fd⟩
  · exact ⟨d, (List.getElem?_set_ne (Ne.symm same)).trans there, rfl⟩

/-- A step of connection `id`: the others keep their place in the table, and `id`
still had its descriptor open. -/
theorem inv_update {c' : Conn} {connections : List (Nat × Nat)} (inv : Inv s)
    (here : s.conns[id]? = some c) (fd : c'.fd = c.fd) (isOpen : fdClosed s id c = false)
    (others : ∀ j, j ≠ id → held { s with connections := connections } j = held s j)
    (entries : ∀ fd j, (fd, j) ∈ connections → (fd, j) ∈ s.connections ∨ (fd, j) = (c.fd, id))
    (ok : ConnOk { s.update id c' with connections := connections } id c') :
    Inv { s.update id c' with connections := connections } := by
  have stays : ∀ j d, j ≠ id → fdClosed s j d = true →
      fdClosed { s.update id c' with connections := connections } j d = true := by
    intro j d different closed
    simp only [fdClosed, Bool.and_eq_true, Bool.not_eq_true'] at closed ⊢
    exact ⟨closed.1, (others j different).trans closed.2⟩
  -- of two connections with one descriptor, the other one than `id` had closed it
  have pair : ∀ j d, j ≠ id → s.conns[j]? = some d → c'.fd = d.fd →
      fdClosed { s.update id c' with connections := connections } j d = true := by
    intro j d different there same
    apply stays j d different
    by_contra isOpen'
    rw [Bool.not_eq_true] at isOpen'
    exact different (inv.same_of_fd here there (fd.symm.trans same) isOpen isOpen')
  refine ⟨?_, ?_, ?_⟩
  · intro j d there
    rcases update_cases there with ⟨rfl, rfl⟩ | ⟨different, old⟩
    · exact ok
    · have before := inv.conn j d old
      exact ⟨before.served, (others j different).trans before.table, before.removed,
        before.notified⟩
  · intro key j member
    rcases entries key j member with old | new
    · obtain ⟨d, there, same⟩ := inv.entries key j old
      obtain ⟨d', now, kept⟩ := exists_update here fd there
      exact ⟨d', now, kept.trans same⟩
    · cases new
      exact exists_update here fd here
  · intro i j first second atI atJ same different
    rcases update_cases atI with ⟨rfl, rfl⟩ | ⟨otherI, oldI⟩
    · rcases update_cases atJ with ⟨rfl, rfl⟩ | ⟨otherJ, oldJ⟩
      · exact absurd rfl different
      · exact .inr (pair j second otherJ oldJ same)
    · rcases update_cases atJ with ⟨rfl, rfl⟩ | ⟨otherJ, oldJ⟩
      · exact .inl (pair i first otherI oldI same.symm)
      · rcases inv.distinct i j first second oldI oldJ same different with closed | closed
        · exact .inl (stays i first otherI closed)
        · exact .inr (stays j second otherJ closed)

/-- A step of connection `id` that leaves the table alone. -/
theorem inv_keep {c' : Conn} (inv : Inv s) (here : s.conns[id]? = some c) (fd : c'.fd = c.fd)
    (isOpen : fdClosed s id c = false) (ok : ConnOk s id c') : Inv (s.update id c') :=
  inv_update inv here fd isOpen (fun _ _ => rfl)
    (fun _ _ member => .inl member) ⟨ok.served, ok.table, ok.removed, ok.notified⟩

/-- A step of the task before the registration: no event can have closed anything. -/
theorem inv_early {position : Position} (inv : Inv s) (here : s.conns[id]? = some c)
    (early : c.position ≠ .registered ∧ stored c.position = false)
    (next : position ≠ .refused ∧ stored position = false) :
    Inv (s.update id { c with position := position }) := by
  have before := inv.conn id c here
  have untouched : c.closing = .no := by
    by_contra touched
    rcases before.removed touched with impossible | impossible
    · exact early.1 impossible
    · rw [early.2] at impossible
      cases impossible
  refine inv_keep inv here rfl ?_ ?_
  · cases position : c.position with
    | returned =>
      rw [position] at early
      cases early.2
    | _ => simp [fdClosed, position]
  · refine ⟨next.1, ?_, fun touched => absurd untouched touched, ?_⟩
    · rw [before.table, early.2, next.2]
    · intro notified
      rw [untouched] at notified
      cases notified

/-- The insertion finds the key free: whoever used the descriptor has closed it. -/
theorem inv_insert (inv : Inv s) (here : s.conns[id]? = some c)
    (at_registered : c.position = .registered) :
    Inv { s.update id { c with position := .inserted } with
      connections := connectionsInsert c.fd id s.connections } := by
  have before := inv.conn id c here
  have absent : held s id = false := by
    rw [before.table, at_registered]
    rfl
  have isOpen : fdClosed s id c = false := by
    simp [fdClosed, at_registered]
  have unnotified : c.closing ≠ .notified := by
    intro notified
    have impossible := before.notified notified
    rw [at_registered] at impossible
    cases impossible
  have free : (s.connections.any fun entry => entry.1 == c.fd) = false := by
    rw [List.any_eq_false]
    rintro ⟨key, j⟩ member same
    have same : key = c.fd := by simpa using same
    subst same
    obtain ⟨d, there, eq⟩ := inv.entries c.fd j member
    have inTable : held s j = true := held_iff.mpr ⟨c.fd, member⟩
    have equal := inv.same_of_fd here there eq.symm isOpen (not_closed_of_held inTable)
    rw [equal, absent] at inTable
    cases inTable
  have inserted : connectionsInsert c.fd id s.connections = (c.fd, id) :: s.connections := by
    simp [connectionsInsert, free]
  rw [inserted]
  refine inv_update inv here rfl isOpen ?_ ?_ ⟨nofun, ?_, fun _ => .inr rfl, fun _ => rfl⟩
  · intro j different
    simp [held, Ne.symm different]
  · intro key j member
    rcases List.mem_cons.mp member with new | old
    · exact .inr new
    · exact .inl old
  · simp [held, stored, unnotified]

/-- The close callback erases its own connection and no other. -/
theorem inv_erase (inv : Inv s) (here : s.conns[id]? = some c) (removed : c.closing = .removed)
    (late : stored c.position = true) :
    Inv { s.update id { c with closing := .notified } with
      connections := connectionsErase c.fd s.connections } := by
  have before := inv.conn id c here
  have inTable : held s id = true := by
    rw [before.table, late, removed]
    rfl
  have isOpen := not_closed_of_held (c := c) inTable
  have erased : ∀ key j, (key, j) ∈ connectionsErase c.fd s.connections ↔
      (key, j) ∈ s.connections ∧ j ≠ id := by
    intro key j
    simp only [connectionsErase, List.mem_filter, bne_iff_ne, ne_eq]
    refine and_congr_right fun member => ?_
    obtain ⟨d, there, eq⟩ := inv.entries key j member
    rw [not_iff_not]
    constructor
    · rintro rfl
      exact inv.same_of_fd here there eq.symm isOpen
        (not_closed_of_held (held_iff.mpr ⟨c.fd, member⟩))
    · rintro rfl
      rw [here] at there
      cases there
      exact eq.symm
  refine inv_update inv here rfl isOpen ?_ ?_ ⟨before.served, ?_, fun _ => .inr late, fun _ => late⟩
  · intro j different
    rw [Bool.eq_iff_iff, held_iff, held_iff]
    simp only [erased, different, ne_eq, not_false_eq_true, and_true]
  · intro key j member
    exact .inl ((erased key j).mp member).1
  · have gone : ¬ held { s with connections := connectionsErase c.fd s.connections } id = true := by
      rw [held_iff]
      rintro ⟨key, member⟩
      exact ((erased key id).mp member).2 rfl
    refine (Bool.eq_false_iff.mpr gone).trans ?_
    simp

end

/-! ## Steps and runs -/

theorem task_inv {s next : State} {id : Nat} {c : Conn} (inv : Inv s) (here : s.conns[id]? = some c)
    (serving : c.position = .accepted → s.running = true) (stepped : task s id c = some next) :
    Inv next := by
  have before := inv.conn id c here
  unfold task at stepped
  cases position : c.position with
  | accepted =>
    simp only [position, serving position, if_true, Option.some.injEq] at stepped
    subst next
    exact inv_early inv here (by rw [position]; decide) (by decide)
  | checked =>
    simp only [position, Option.some.injEq] at stepped
    subst next
    exact inv_early inv here (by rw [position]; decide) (by decide)
  | constructed =>
    simp only [position, Option.some.injEq] at stepped
    subst next
    exact inv_early inv here (by rw [position]; decide) (by decide)
  | registered =>
    simp only [position, Option.some.injEq] at stepped
    subst next
    exact inv_insert inv here position
  | inserted =>
    simp only [position, Option.some.injEq] at stepped
    subst next
    refine inv_keep inv here rfl ?_ ?_
    · simp [fdClosed, position]
    · refine ⟨nofun, ?_, fun _ => .inr rfl, fun _ => rfl⟩
      rw [before.table, position]
      rfl
  | returned => simp [position] at stepped
  | refused => exact absurd position before.served

theorem accept_inv {s : State} {fd : Nat} (inv : Inv s) (free : isFree s fd = true) :
    Inv { s with conns := s.conns ++ [⟨fd, .accepted, .no⟩] } := by
  have closed : ∀ id c, s.conns[id]? = some c → c.fd = fd → fdClosed s id c = true := by
    intro id c here same
    have both := List.all_eq_true.mp free (c, id) (List.mem_zipIdx_iff_getElem?.mpr here)
    simpa [same] using both
  have split : ∀ id c, (s.conns ++ [⟨fd, .accepted, .no⟩])[id]? = some c →
      s.conns[id]? = some c ∨ id = s.conns.length ∧ c = ⟨fd, .accepted, .no⟩ := by
    intro id c here
    rcases Nat.lt_trichotomy id s.conns.length with old | new | beyond
    · rw [List.getElem?_append_left old] at here
      exact .inl here
    · subst new
      rw [List.getElem?_concat_length] at here
      cases here
      exact .inr ⟨rfl, rfl⟩
    · rw [List.getElem?_eq_none (by simp; omega)] at here
      cases here
  have unused : held s s.conns.length = false := by
    rw [Bool.eq_false_iff]
    intro inTable
    obtain ⟨key, member⟩ := held_iff.mp inTable
    obtain ⟨c, here, -⟩ := inv.entries key _ member
    simp at here
  refine ⟨?_, ?_, ?_⟩
  · intro id c here
    rcases split id c here with old | ⟨rfl, rfl⟩
    · have before := inv.conn id c old
      exact ⟨before.served, before.table, before.removed, before.notified⟩
    · exact ⟨Position.noConfusion, unused, fun touched => absurd rfl touched, Closing.noConfusion⟩
  · intro key id member
    obtain ⟨c, here, same⟩ := inv.entries key id member
    have bound : id < s.conns.length := (List.getElem?_eq_some_iff.mp here).1
    exact ⟨c, (List.getElem?_append_left bound).trans here, same⟩
  · intro i j c d atI atJ same different
    rcases split i c atI with oldI | ⟨newI, rfl⟩
    · rcases split j d atJ with oldJ | ⟨newJ, rfl⟩
      · exact inv.distinct i j c d oldI oldJ same different
      · exact .inl (closed i c oldI same)
    · rcases split j d atJ with oldJ | ⟨newJ, rfl⟩
      · exact .inr (closed j d oldJ same.symm)
      · exact absurd (newI.trans newJ.symm) different

theorem removeFromLoop_inv {s : State} {id : Nat} {c : Conn} (inv : Inv s)
    (here : s.conns[id]? = some c) (inLoop : c.inLoop = true) :
    Inv (s.update id { c with closing := .removed }) := by
  have before := inv.conn id c here
  simp only [Conn.inLoop, Bool.and_eq_true, Bool.or_eq_true, beq_iff_eq] at inLoop
  obtain ⟨position, closing⟩ := inLoop
  have table : held s id = stored c.position := by
    rw [before.table, closing]
    simp
  have placed : c.position = .registered ∨ stored c.position = true := by
    rcases position with (registered | inserted) | returned
    · exact .inl registered
    · exact .inr (by rw [inserted]; rfl)
    · exact .inr (by rw [returned]; rfl)
  have isOpen : fdClosed s id c = false := by
    rw [fdClosed, table]
    cases c.position <;> rfl
  refine inv_keep inv here rfl isOpen ⟨before.served, ?_, fun _ => placed, nofun⟩
  rw [table]
  simp

theorem inv_start : Inv start := by
  refine ⟨?_, nofun, ?_⟩
  · intro id c here
    simp [start] at here
  · intro i j c d here
    simp [start] at here

/-- One lemma per action. -/
theorem step_inv (s : State) (act : Act) (next : State) (inv : Inv s)
    (orderly : Orderly s act = true) (stepped : step s act = some next) : Inv next := by
  cases act with
  | accept fd =>
    simp only [step] at stepped
    split at stepped
    · rename_i free
      cases stepped
      exact accept_inv inv free
    · cases stepped
  | task id =>
    simp only [step] at stepped
    split at stepped
    · rename_i c here
      refine task_inv inv here ?_ stepped
      intro accepted
      simpa [Orderly, here, accepted] using orderly
    · cases stepped
  | removeFromLoop id =>
    simp only [step] at stepped
    split at stepped
    · rename_i c here
      split at stepped
      · rename_i inLoop
        cases stepped
        exact removeFromLoop_inv inv here inLoop
      · cases stepped
    · cases stepped
  | onCloseConnectionCallback id =>
    simp only [step] at stepped
    split at stepped
    · rename_i c here
      split at stepped
      · rename_i removed
        cases stepped
        apply inv_erase inv here removed
        simpa [Orderly, here] using orderly
      · cases stepped
    · cases stepped
  | stop =>
    cases stepped
    refine ⟨?_, inv.entries, inv.distinct⟩
    intro id c here
    have before := inv.conn id c here
    exact ⟨before.served, before.table, before.removed, before.notified⟩

/-- All started steps have finished. -/
def quiescent (s : State) : Bool :=
  s.conns.all fun c => (c.position == .returned || c.position == .refused) && c.closing != .removed

/-- In every run in which close callbacks run after the insertion and no task finds
the server stopped: once everything started has finished, the table holds exactly
the connections that are registered and not closed, none whose close callback has
run, and every accepted descriptor belongs to a connection in the table or has
been closed. -/
theorem connection_table_exact (acts : List Act) (final : State)
    (orderly : RunMeets step (fun s act => Orderly s act = true) start acts)
    (reached : run step start acts = some final) (finished : quiescent final = true) :
    (∀ id c, final.conns[id]? = some c →
      (held final id = true ↔ c.inLoop = true) ∧
      (c.closing = .notified → held final id = false) ∧
      ((c.fd, id) ∈ final.connections ∨ fdClosed final id c = true)) ∧
    ∀ fd id, (fd, id) ∈ final.connections → ∃ c, final.conns[id]? = some c ∧ c.fd = fd := by
  have inv : Inv final := run_guarded step_inv inv_start orderly reached
  refine ⟨?_, inv.entries⟩
  intro id c here
  have ok := inv.conn id c here
  have settled := List.all_eq_true.mp finished c (List.mem_of_getElem? here)
  simp only [Bool.and_eq_true, Bool.or_eq_true, beq_iff_eq, bne_iff_ne, ne_eq] at settled
  have returned : c.position = .returned := settled.1.resolve_right ok.served
  have table : held final id = (c.closing != .notified) := by
    rw [ok.table, returned]
    rfl
  refine ⟨?_, ?_, ?_⟩
  · rw [table]
    simp only [Conn.inLoop, returned]
    cases closing : c.closing with
    | no => simp
    | removed => exact absurd closing settled.2
    | notified => simp
  · intro notified
    rw [table, notified]
    rfl
  · cases closing : held final id with
    | true =>
      obtain ⟨fd, member⟩ := held_iff.mp closing
      obtain ⟨d, there, same⟩ := inv.entries fd id member
      rw [here] at there
      cases there
      subst same
      exact .inl member
    | false =>
      right
      simp [fdClosed, returned, closing]

/-- Two clients; the first hangs up and a third one gets its descriptor. -/
def descriptorReuse : List Act :=
  [.accept 5, .task 0, .accept 6, .task 1, .task 0, .task 0, .task 1, .task 1, .task 1, .task 0,
    .removeFromLoop 0, .task 1, .onCloseConnectionCallback 0, .task 0, .accept 5, .task 2, .task 2,
    .task 2, .task 2, .task 2]

theorem connection_table_exact_reuse :
    ∃ final, run step start descriptorReuse = some final ∧ final.connections = [(5, 2), (6, 1)] ∧
      held final 0 = false ∧ held final 2 = true :=
  have exact_table := connection_table_exact descriptorReuse _ (by decide) rfl (by decide)
  ⟨_, rfl, rfl, (exact_table.1 0 _ rfl).2.1 rfl, (exact_table.1 2 _ rfl).1.mpr rfl⟩

/-- The peer hangs up between `Init` and the insertion: the close callback finds no
key, the task inserts afterwards, and the closed connection stays in the table. -/
theorem connection_table_keeps_closed :
    ∃ acts final, run step start acts = some final ∧ quiescent final = true ∧
      final.conns = [⟨5, .returned, .notified⟩] ∧ final.connections = [(5, 0)] :=
  ⟨[.accept 5, .task 0, .task 0, .task 0, .removeFromLoop 0, .onCloseConnectionCallback 0, .task 0,
    .task 0], _, rfl, rfl, rfl, rfl⟩

end Ladder.Guarantees.ConnectionTable

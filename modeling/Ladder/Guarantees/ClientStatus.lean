import Ladder.Library.Runs
import Ladder.Source.TcpClient

/-!
# The status of a TcpClient

The status follows the connection as long as no established connection ends.
`Disconnect` sets `kConnecting` although no attempt is made, and the close callback
sets nothing. No later transition repairs either: both statuses make `Connect`
refuse, and only an attempt's outcome assigns another one.
-/
namespace Ladder.Guarantees.ClientStatus
open Ladder.Library Ladder.Source.TcpClient

/-- There is neither a connection nor an attempt. -/
def Idle (s : State) : Prop := s.conn = none ∨ s.conn = some .closed

structure Agrees (s : State) : Prop where
  connected : s.status = .kConnected ↔ s.conn = some .established
  connecting : s.status = .kConnecting → s.conn = some .attempting
  disconnected : Idle s → s.status = .kDisconnected

/-- The established connection is neither disconnected nor closed. -/
def Lasting (s : State) : Act → Prop
  | .disconnect => s.status ≠ .kConnected
  | .onCloseConnectionCallback => s.conn ≠ some .established
  | _ => True

instance (s : State) (act : Act) : Decidable (Lasting s act) := by
  unfold Lasting
  split <;> infer_instance

/-- The states of a client whose status is right: idle, in an attempt, connected. -/
def Sound (s : State) : Prop :=
  s = ⟨.kDisconnected, none⟩ ∨ s = ⟨.kConnecting, some .attempting⟩ ∨
    s = ⟨.kConnected, some .established⟩

/-- The states after the end of an established connection. -/
def Stale (s : State) : Prop :=
  (s.status = .kConnecting ∧ s.conn = some .shutDown) ∨
    (s.status ≠ .kDisconnected ∧ s.conn = some .closed)

theorem Sound.agrees {s : State} (sound : Sound s) : Agrees s := by
  rcases sound with rfl | rfl | rfl <;> constructor <;> simp [Idle]

theorem Stale.not_agrees {s : State} (stale : Stale s) : ¬ Agrees s := by
  intro agrees
  rcases stale with ⟨status, conn⟩ | ⟨status, conn⟩
  · have attempting := agrees.connecting status
    rw [conn] at attempting
    cases attempting
  · exact status (agrees.disconnected (.inr conn))

/-- `Connect` is refused in every stale state. -/
theorem Stale.refuses {s : State} (stale : Stale s) : connect s = .error "Already connected" := by
  unfold connect
  rw [if_pos]
  rcases stale with ⟨status, -⟩ | ⟨status, -⟩
  · rw [status]
    exact nofun
  · exact status

theorem Agrees.accepts {s : State} (agrees : Agrees s) (idle : Idle s) :
    connect s = .ok ⟨.kConnecting, some .attempting⟩ := by
  simp [connect, agrees.disconnected idle]

theorem sound_step (s : State) (act : Act) (next : State) (sound : Sound s)
    (stepped : step s act = some next) :
    (Lasting s act ∧ Sound next) ∨ (¬ Lasting s act ∧ Stale next) := by
  rcases sound with rfl | rfl | rfl
  · cases act <;> cases stepped
    · exact .inl ⟨trivial, .inr (.inl rfl)⟩
    · exact .inl ⟨nofun, .inl rfl⟩
  · cases act <;> cases stepped
    · exact .inl ⟨trivial, .inr (.inl rfl)⟩
    · exact .inl ⟨nofun, .inr (.inl rfl)⟩
    · exact .inl ⟨trivial, .inl rfl⟩
    · exact .inl ⟨trivial, .inr (.inr rfl)⟩
  · cases act <;> cases stepped
    · exact .inl ⟨trivial, .inr (.inr rfl)⟩
    · exact .inr ⟨fun lasting => lasting rfl, .inl ⟨rfl, rfl⟩⟩
    · exact .inr ⟨fun lasting => lasting rfl, .inr ⟨nofun, rfl⟩⟩

theorem stale_step (s : State) (act : Act) (next : State) (stale : Stale s)
    (stepped : step s act = some next) : Stale next := by
  cases act with
  | connect =>
    simp only [step, stale.refuses, Option.some.injEq] at stepped
    exact stepped ▸ stale
  | disconnect =>
    cases stepped
    unfold disconnect
    split
    · exact stale
    · rename_i connected
      rcases stale with ⟨status, -⟩ | ⟨-, conn⟩
      · simp [status] at connected
      · right
        simp [shutDownWrite, conn]
  | onConnectionFailureCallback | onConnectionCallback =>
    rcases stale with ⟨-, conn⟩ | ⟨-, conn⟩ <;> simp [step, conn] at stepped
  | onCloseConnectionCallback =>
    simp only [step] at stepped
    split at stepped
    · cases stepped
      right
      rcases stale with ⟨status, -⟩ | ⟨status, -⟩
      · simp [onCloseConnectionCallback, status]
      · exact ⟨status, rfl⟩
    · cases stepped

/-- In every run the status agrees with the connection exactly when no established
connection has been disconnected or closed. While it does, `Connect` starts an
attempt whenever there is neither a connection nor an attempt; once it does not, it
never does again and every further `Connect` is refused. -/
theorem status_agrees_iff (acts : List Act) (final : State)
    (reached : run step start acts = some final) :
    (Agrees final ↔ RunMeets step Lasting start acts) ∧
    (Agrees final → Idle final → connect final = .ok ⟨.kConnecting, some .attempting⟩) ∧
    (¬ Agrees final → ∀ more last, run step final more = some last →
      ¬ Agrees last ∧ connect last = .error "Already connected") := by
  have outcome := run_kept_or_lost sound_step stale_step (.inl rfl) reached
  refine ⟨?_, fun agrees idle => agrees.accepts idle, ?_⟩
  · rcases outcome with ⟨lasting, sound⟩ | ⟨ended, stale⟩
    · exact ⟨fun _ => lasting, fun _ => sound.agrees⟩
    · exact ⟨fun agrees => absurd agrees stale.not_agrees, fun lasting => absurd lasting ended⟩
  · intro differs more last continued
    have stale : Stale final := by
      rcases outcome with ⟨-, sound⟩ | ⟨-, stale⟩
      · exact absurd sound.agrees differs
      · exact stale
    have still := run_invariant stale_step stale continued
    exact ⟨still.not_agrees, still.refuses⟩

/-- One connection, two attempts. -/
theorem status_agrees_iff_retried :
    Agrees ⟨.kConnected, some .established⟩ ∧
      RunMeets step Lasting start
        [.connect, .onConnectionFailureCallback, .connect, .connect, .onConnectionCallback] := by
  have meets : RunMeets step Lasting start
      [.connect, .onConnectionFailureCallback, .connect, .connect, .onConnectionCallback] := by
    decide
  exact ⟨(status_agrees_iff _ ⟨.kConnected, some .established⟩ rfl).1.mpr meets, meets⟩

/-- The peer closes an established connection: the client stays `kConnected`, and its
next `Connect` is refused. -/
theorem status_stale_after_close :
    ∃ final, run step start [.connect, .onConnectionCallback, .onCloseConnectionCallback] =
        some final ∧ final.conn = some .closed ∧ final.status = .kConnected ∧
      connect final = .error "Already connected" :=
  ⟨_, rfl, rfl, rfl, rfl⟩

end Ladder.Guarantees.ClientStatus

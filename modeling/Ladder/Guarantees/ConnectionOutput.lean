import Ladder.Guarantees.WriteShutdown

/-!
# Output calls on a connection

What `Send`, `SendFile` and a write event do to a connection that is not shut down, for
both kinds of write buffer at once: the entries queue up behind each other, the socket
only ever takes more, and the read buffer is not touched.
-/
namespace Ladder.Guarantees.ConnectionOutput
open Ladder.Library Ladder.Source Ladder.Source.FileBuffer
open Ladder.Guarantees.WriteShutdown (Carries unsent)

/-- The insertion index of a plain write buffer; the entries of a send-file connection
are written to an empty inner buffer one at a time. -/
def outputIndex (c : Connection) : Nat :=
  match c.writeBuffer with
  | .plain buffer => buffer.writeIndex
  | .file _ => 0

/-- From `c` to `after` the entries `more` were added and the socket gave these answers. -/
structure Appends (kernel : Kernel) (entries more : List FileInfo) (answers : List Answer)
    (c after : Connection) : Prop where
  carries : Carries kernel (entries ++ more) after
  accepted : c.accepted <+: after.accepted
  readBuffer : after.readBuffer = c.readBuffer
  index : outputIndex after ≤ outputIndex c + (more.map fun entry => entry.header.length).sum
  refused : Refusing answers → after.accepted = c.accepted

variable {kernel : Kernel} {entries more : List FileInfo} {answers : List Answer}
  {c flushed after : Connection} {ret : Int}

/-- The read buffer and the record of calls are not part of the output. -/
theorem carries_elsewhere (carries : Carries kernel entries c) (readBuffer : Buffer)
    (trace : List Effect) :
    Carries kernel entries { c with readBuffer := readBuffer, trace := trace } := by
  cases carries with
  | plain b h => exact .plain b ⟨h.buffered, h.valid, h.running, h.held, h.octets⟩
  | file files h => exact .file files ⟨h.buffered, h.sound, h.running, h.held, h.octets, h.calls⟩

theorem flush_index (carries : Carries kernel entries c)
    (flushes : c.flush kernel answers = some (ret, flushed)) :
    outputIndex flushed ≤ outputIndex c := by
  cases carries with
  | plain b buffered =>
    simp only [Connection.flush, buffered.buffered] at flushes
    obtain ⟨result, returns, eq⟩ := Option.map_eq_some_iff.mp flushes
    cases eq
    have index := (Buffer.writeBufferToFd_effects buffered.valid returns).index
    simpa only [outputIndex, buffered.buffered] using index
  | file files queued =>
    simp only [Connection.flush, queued.buffered] at flushes
    obtain ⟨result, returns, eq⟩ := Option.map_eq_some_iff.mp flushes
    cases eq
    exact Nat.zero_le _

/-- A flush of what is in the buffer, and the `EnableWrite` after it. -/
theorem flush_appends (carries : Carries kernel entries c)
    (tolerated : ∀ answer ∈ answers, answer.tolerated = true) :
    ∃ ret flushed after, c.flush kernel answers = some (ret, flushed) ∧
      flushed.shutDown = false ∧ flushed.enableWrite ret = some after ∧
      Appends kernel entries [] answers c after := by
  obtain ⟨ret, flushed, after, flushes, running, enabled, carries', refused⟩ :=
    carries.flushes tolerated
  have index := flush_index carries flushes
  obtain ⟨writeBuffer, disk, octets, rfl⟩ := Connection.flush_frame flushes
  obtain ⟨-, channel, -, rfl⟩ := Connection.enableWrite_frame enabled
  refine ⟨ret, _, _, flushes, running, enabled, ?_, List.prefix_append _ _, rfl, index, refused⟩
  rw [List.append_nil]
  exact carries'

theorem writeEvent_appends (carries : Carries kernel entries c)
    (tolerated : ∀ answer ∈ answers, answer.tolerated = true) :
    ∃ after, c.onWriteCallback kernel answers [] = some after ∧
      Appends kernel entries [] answers c after := by
  obtain ⟨ret, flushed, after, flushes, running, enabled, appends⟩ :=
    flush_appends carries tolerated
  exact ⟨after, Connection.onWriteCallback_running flushes running enabled, appends⟩

theorem send_appends {content : Bytes} (carries : Carries kernel entries c)
    (tolerated : ∀ answer ∈ answers, answer.tolerated = true)
    (room : outputIndex c + content.length < 2 ^ 32) :
    ∃ after, c.send kernel content answers = some after ∧
      Appends kernel entries [⟨content, []⟩] answers c after := by
  have fits : match c.writeBuffer with
      | .plain buffer => buffer.writeIndex + content.length < 2 ^ 32
      | .file _ => content.length < 2 ^ 32 := by
    rw [outputIndex] at room
    split at room
    · exact room
    · rwa [Nat.zero_add] at room
  have index : outputIndex { c with writeBuffer := c.writeBuffer.write content } ≤
      outputIndex c + content.length := by
    simp only [outputIndex]
    cases kind : c.writeBuffer with
    | plain buffer =>
      rw [kind] at fits
      exact Nat.le_of_eq (Buffer.writeIndex_write fits)
    | file files => exact Nat.zero_le _
  obtain ⟨ret, flushed, after, flushes, -, enabled, appends⟩ :=
    flush_appends (carries.write fits) tolerated
  refine ⟨after, Connection.send_running carries.running flushes enabled, ?_, appends.accepted,
    appends.readBuffer, appends.index.trans index, appends.refused⟩
  have carries' := appends.carries
  rwa [List.append_nil] at carries'

/-- `SendFile` on a connection built for it. -/
theorem sendFile_appends {header filename : Bytes} {files : FileBuffer}
    (carries : Carries kernel entries c) (kind : c.writeBuffer = .file files)
    (tolerated : ∀ answer ∈ answers, answer.tolerated = true)
    (fit : fits kernel ⟨header, filename⟩ = true) :
    ∃ after, c.sendFile kernel header filename answers = some after ∧
      Appends kernel entries [⟨header, filename⟩] answers c after := by
  cases carries with
  | plain b buffered =>
    rw [buffered.buffered] at kind
    cases kind
  | file queue queued =>
    have added : Carries kernel (entries ++ [⟨header, filename⟩])
        { c with writeBuffer := .file (queue.addFile header filename) } :=
      .file _ (queued.addFile fit)
    obtain ⟨ret, flushed, after, flushes, -, enabled, appends⟩ := flush_appends added tolerated
    refine ⟨after, Connection.sendFile_running queued.running queued.buffered flushes enabled, ?_,
      appends.accepted, appends.readBuffer, ?_, appends.refused⟩
    · have carries' := appends.carries
      rwa [List.append_nil] at carries'
    · exact appends.index.trans (Nat.zero_le _)

end Ladder.Guarantees.ConnectionOutput

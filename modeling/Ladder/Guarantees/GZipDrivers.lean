import Ladder.Source.GZip

/-!
# The gzip drivers

Nothing is known of zlib but the laws of a stream and that one direction undoes the other. A
driver that fed a piece twice, dropped the end of a window or stopped before the last output
would not be a use of the stream, and nothing could be said of its result. Both drivers return
nothing for nothing without a call, so an empty compressed form cannot be undone.
-/
namespace Ladder.Guarantees.GZipDrivers
open Ladder.Library Ladder.Source Ladder.Source.GZip

/-- What `inflate` makes of what `deflate` has made of a string is the string. -/
structure Codec extends ZLib where
  deflates : deflate.Lawful
  inflates : inflate.Lawful
  inverse : ∀ s d r, deflate.Makes s d → inflate.Makes d r → r = s

section
variable {z : Stream UInt8} {x : Bytes}

theorem process_nil (z : Stream UInt8) : Returns (fun rounds => process z rounds []) [] :=
  ⟨0, fun _ _ => rfl⟩

theorem process_returns (lawful : z.Lawful) (nonempty : x ≠ []) (small : x.length < 2 ^ 31) :
    ∃ result, Returns (fun rounds => process z rounds x) result ∧ z.Makes x result := by
  obtain ⟨rounds, result, ends, made⟩ := process_makes lawful nonempty small
  exact ⟨result, .of_mono (fun _ _ _ => process_mono _ _ _) _ ends, made⟩

theorem processFile_returns (lawful : z.Lawful) (x : Bytes) :
    ∃ result, Returns (fun rounds => processFile z rounds (some ⟨x, false⟩)) result ∧
      z.Makes x result := by
  obtain ⟨rounds, result, ends, made⟩ := processFile_makes lawful x
  exact ⟨result, .of_mono (fun _ _ _ => processFile_mono _ _ _) _ ends, made⟩

end

/-- A compressed form is inflated to what it was made of, unless it is empty. -/
theorem inflate_made (codec : Codec) {x d : Bytes} (made : codec.deflate.Makes x d)
    (small : d.length < 2 ^ 31) :
    ∃ r, Returns (fun rounds => inflate codec.toZLib rounds d) r ∧ (r = x ↔ (d = [] → x = [])) := by
  by_cases empty : d = []
  · subst empty
    refine ⟨[], process_nil _, ?_⟩
    exact ⟨fun same _ => same.symm, fun none => (none rfl).symm⟩
  · obtain ⟨r, returns, again⟩ := process_returns codec.inflates empty small
    refine ⟨r, returns, ?_⟩
    exact iff_of_true (codec.inverse x d r made again) fun none => absurd none empty

/-- All loops come to an end, and strings and files come back from their compressed form
exactly if the compressed form of something is not nothing. -/
theorem gzip_round_trips_iff (codec : Codec) :
    (∀ s : Bytes, s.length < 2 ^ 31 →
      ∃ d, Returns (fun rounds => deflate codec.toZLib rounds s) d ∧
        (d.length < 2 ^ 31 →
          ∃ r, Returns (fun rounds => inflate codec.toZLib rounds d) r ∧
            (r = s ↔ (d = [] → s = [])))) ∧
      ∀ content : Bytes,
        ∃ d, Returns (fun rounds => deflateFile codec.toZLib rounds (some ⟨content, false⟩)) d ∧
          (d.length < 2 ^ 31 →
            ∃ r, Returns (fun rounds => inflate codec.toZLib rounds d) r ∧
              (r = content ↔ (d = [] → content = []))) := by
  constructor
  · intro s small
    by_cases empty : s = []
    · subst empty
      refine ⟨[], process_nil _, fun _ => ⟨[], process_nil _, ?_⟩⟩
      exact iff_of_true rfl id
    · obtain ⟨d, returns, made⟩ := process_returns codec.deflates empty small
      exact ⟨d, returns, inflate_made codec made⟩
  · intro content
    obtain ⟨d, returns, made⟩ := processFile_returns codec.deflates content
    exact ⟨d, returns, inflate_made codec made⟩

/-- A codec from a function that undoes itself. -/
def involution (f : Bytes → Bytes) (undoes : ∀ s, f (f s) = s) : Codec where
  deflate := puttingOff f
  inflate := puttingOff f
  deflates := puttingOff_lawful f
  inflates := puttingOff_lawful f
  inverse s d r made again := by
    rw [puttingOff_makes again, puttingOff_makes made, undoes]

theorem gzip_round_trips_iff_reverse :
    ∃ d, Returns (fun rounds =>
      deflate (involution List.reverse List.reverse_reverse).toZLib rounds [1, 2, 3]) d ∧
      (d.length < 2 ^ 31 →
        ∃ r, Returns (fun rounds =>
          inflate (involution List.reverse List.reverse_reverse).toZLib rounds d) r ∧
          (r = [1, 2, 3] ↔ (d = [] → ([1, 2, 3] : Bytes) = []))) :=
  (gzip_round_trips_iff (involution List.reverse List.reverse_reverse)).1 [1, 2, 3] (by decide)

/-- Exchanges the empty string and one string, and leaves all others. -/
def exchange (s : Bytes) : Bytes := if s = [] then [120] else if s = [120] then [] else s

theorem exchange_exchange (s : Bytes) : exchange (exchange s) = s := by
  unfold exchange
  by_cases empty : s = []
  · simp [empty]
  · by_cases one : s = [120]
    · simp [one]
    · simp [empty, one]

/-- A lawful codec with an empty compressed form: the string is lost. -/
theorem empty_form_is_lost :
    Returns (fun rounds => deflate (involution exchange exchange_exchange).toZLib rounds [120]) [] ∧
      Returns (fun rounds => inflate (involution exchange exchange_exchange).toZLib rounds [])
        [] := by
  exact ⟨.of_mono (fun _ _ _ => process_mono _ _ _) 4 rfl, process_nil _⟩

end Ladder.Guarantees.GZipDrivers

import Mathlib.Data.Nat.Digits.Lemmas
import Mathlib.Tactic.IntervalCases
import Mathlib.Tactic.Ring

/-!
# Integers as octets

Base-256 representation of a natural number in a fixed number of octets, and the
two memory orders of a 32-bit word. `Nat.ofDigits` is the independent value of an
octet string; nothing here refers to a particular program. At the end, conversions
between widths and decimal numerals in ASCII.
-/
namespace Ladder.Library

abbrev Bytes := List UInt8

/-- The value of an octet string, least significant octet first. -/
def octetValue (octets : Bytes) : Nat := Nat.ofDigits 256 (octets.map UInt8.toNat)

/-- The `width` least significant octets of `n`, least significant first. -/
def octetsOf : Nat → Nat → Bytes
  | 0, _ => []
  | width + 1, n => UInt8.ofNat n :: octetsOf width (n / 256)

@[simp] theorem octetsOf_length (width n : Nat) : (octetsOf width n).length = width := by
  induction width generalizing n with
  | zero => rfl
  | succ width ih => simp only [octetsOf, List.length_cons, ih]

theorem octetValue_cons (octet : UInt8) (rest : Bytes) :
    octetValue (octet :: rest) = octet.toNat + 256 * octetValue rest := by
  simp only [octetValue, List.map_cons, Nat.ofDigits_cons]

theorem octetValue_lt (octets : Bytes) : octetValue octets < 256 ^ octets.length := by
  have bound : Nat.ofDigits 256 (octets.map UInt8.toNat) <
      256 ^ (octets.map UInt8.toNat).length := by
    apply Nat.ofDigits_lt_base_pow_length (by decide)
    intro digit member
    obtain ⟨octet, _, rfl⟩ := List.mem_map.mp member
    exact octet.toNat_lt
  simpa only [octetValue, List.length_map] using bound

theorem octetValue_octetsOf (width n : Nat) : octetValue (octetsOf width n) = n % 256 ^ width := by
  induction width generalizing n with
  | zero => simp [octetsOf, octetValue, Nat.mod_one]
  | succ width ih =>
    have low : (UInt8.ofNat n).toNat = n % 256 := UInt8.toNat_ofNat'
    rw [octetsOf, octetValue_cons, ih, low, pow_succ', Nat.mod_mul]

theorem octetsOf_octetValue (octets : Bytes) :
    octetsOf octets.length (octetValue octets) = octets := by
  induction octets with
  | nil => rfl
  | cons octet rest ih =>
    have head : UInt8.ofNat (octet.toNat + 256 * octetValue rest) = octet := by
      apply UInt8.toNat_inj.mp
      have := octet.toNat_lt
      rw [UInt8.toNat_ofNat']
      omega
    have tail : (octet.toNat + 256 * octetValue rest) / 256 = octetValue rest := by
      have := octet.toNat_lt
      omega
    rw [List.length_cons, octetsOf, octetValue_cons, head, tail, ih]

/-- Memory order of the machine that executes the program. -/
inductive Endian where
  | little | big
  deriving DecidableEq, Repr

/-- The four octets that a 32-bit word occupies in memory. -/
def encode32 : Endian → UInt32 → Bytes
  | .little, word => octetsOf 4 word.toNat
  | .big, word => (octetsOf 4 word.toNat).reverse

/-- The 32-bit word found in four octets of memory. -/
def decode32 : Endian → Bytes → UInt32
  | .little, octets => UInt32.ofNat (octetValue octets)
  | .big, octets => UInt32.ofNat (octetValue octets.reverse)

@[simp] theorem encode32_length (order : Endian) (word : UInt32) :
    (encode32 order word).length = 4 := by
  cases order <;> simp [encode32]

@[simp] theorem decode32_encode32 (order : Endian) (word : UInt32) :
    decode32 order (encode32 order word) = word := by
  have bound : word.toNat % 256 ^ 4 = word.toNat := Nat.mod_eq_of_lt word.toNat_lt
  cases order with
  | little => rw [encode32, decode32, octetValue_octetsOf, bound, UInt32.ofNat_toNat]
  | big => rw [encode32, decode32, List.reverse_reverse, octetValue_octetsOf, bound,
    UInt32.ofNat_toNat]

theorem encode32_decode32 (order : Endian) (octets : Bytes) (four : octets.length = 4) :
    encode32 order (decode32 order octets) = octets := by
  have value : ∀ word : Bytes, word.length = 4 →
      octetsOf 4 (UInt32.ofNat (octetValue word)).toNat = word := by
    intro word len
    have bound : octetValue word < 2 ^ 32 := by
      have small := octetValue_lt word
      rw [len] at small
      exact small
    rw [UInt32.toNat_ofNat', Nat.mod_eq_of_lt bound]
    simpa only [len] using octetsOf_octetValue word
  cases order with
  | little => exact value octets four
  | big =>
    have reversed := value octets.reverse (by simpa using four)
    simp only [encode32, decode32, reversed, List.reverse_reverse]

/-! ## Network order -/

/-- The word whose memory image is the big-endian form of the argument. -/
def htonl (host : Endian) (word : UInt32) : UInt32 := decode32 host (encode32 .big word)

def ntohl (host : Endian) (word : UInt32) : UInt32 := decode32 .big (encode32 host word)

@[simp] theorem encode32_htonl (host : Endian) (word : UInt32) :
    encode32 host (htonl host word) = encode32 .big word :=
  encode32_decode32 host _ (encode32_length .big word)

theorem ntohl_decode32 (host : Endian) (octets : Bytes) (four : octets.length = 4) :
    ntohl host (decode32 host octets) = decode32 .big octets := by
  rw [ntohl, encode32_decode32 host octets four]

/-! ## Conversions between widths -/

/-- Conversion of a 64-bit value to a 32-bit `int`. -/
def int (n : Int) : Int := n.bmod (2 ^ 32)

/-- Conversion of an `int` to a 64-bit `size_t`. -/
def sizeT (n : Int) : Nat := (n % 2 ^ 64).toNat

theorem int_lt (n : Int) : int n < 2 ^ 31 := by
  have := Int.bmod_lt (x := n) (m := 2 ^ 32) (by decide)
  unfold int
  omega

theorem int_ge (n : Int) : -2 ^ 31 ≤ int n := by
  have := Int.le_bmod (x := n) (m := 2 ^ 32) (by decide)
  unfold int
  omega

theorem int_of_range {n : Int} (low : -2 ^ 31 ≤ n) (high : n < 2 ^ 31) : int n = n := by
  unfold int
  rw [Int.bmod_def]
  omega

theorem int_le (n : Nat) : int n ≤ n := by
  unfold int
  rw [Int.bmod_def]
  omega

theorem int_eq_of_small {n : Nat} (small : n < 2 ^ 31) : int n = n := by
  unfold int
  rw [Int.bmod_def]
  omega

theorem int_ne_of_large {n : Nat} (large : ¬ n < 2 ^ 31) : int n ≠ n := by
  have below := int_lt n
  omega

theorem sizeT_of_nonneg {n : Int} (nonneg : 0 ≤ n) (narrow : n < 2 ^ 31) : (sizeT n : Int) = n := by
  unfold sizeT
  omega

theorem sizeT_sub {n : Int} {k : Nat} (bound : k ≤ sizeT n) : sizeT (n - k) = sizeT n - k := by
  unfold sizeT at *
  omega

/-! ## Decimal numerals -/

def ascii (text : String) : Bytes := text.toList.map fun c => UInt8.ofNat c.toNat

def isDigit (octet : UInt8) : Bool := 48 ≤ octet && octet ≤ 57

/-- The decimal numeral of a number. -/
def numeral (n : Nat) : Bytes :=
  if n = 0 then [48] else (Nat.digits 10 n).reverse.map fun digit => UInt8.ofNat (48 + digit)

/-- The value of a string of digits. -/
def numeralValue (digits : Bytes) : Nat :=
  digits.foldl (fun value digit => 10 * value + (digit.toNat - 48)) 0

theorem digit_lt {n digit : Nat} (member : digit ∈ Nat.digits 10 n) : digit < 10 :=
  Nat.digits_lt_base (by decide) member

theorem numeralValue_reverse {digits : List Nat} (small : ∀ digit ∈ digits, digit < 10) :
    numeralValue (digits.reverse.map fun digit => UInt8.ofNat (48 + digit)) =
      Nat.ofDigits 10 digits := by
  unfold numeralValue
  rw [List.foldl_map, List.foldl_reverse]
  induction digits with
  | nil => rfl
  | cons digit rest ih =>
    have octet : (UInt8.ofNat (48 + digit)).toNat = 48 + digit := by
      have := small digit (by simp)
      rw [UInt8.toNat_ofNat', Nat.mod_eq_of_lt (by omega)]
    rw [List.foldr_cons,
      ih (fun other member => small other (List.mem_cons_of_mem _ member)), octet,
      Nat.ofDigits_cons]
    omega

theorem numeralValue_cons (digit : UInt8) (digits : Bytes) :
    numeralValue (digit :: digits) =
      (digit.toNat - 48) * 10 ^ digits.length + numeralValue digits := by
  have shift : ∀ (digits : Bytes) (value : Nat),
      digits.foldl (fun value digit => 10 * value + (digit.toNat - 48)) value =
        value * 10 ^ digits.length + numeralValue digits := by
    intro digits
    induction digits with
    | nil =>
      intro value
      simp [numeralValue]
    | cons digit digits ih =>
      intro value
      rw [numeralValue, List.foldl_cons, List.foldl_cons, ih, ih, List.length_cons, pow_succ]
      ring
  rw [numeralValue, List.foldl_cons, shift]
  simp

theorem numeralValue_numeral (n : Nat) : numeralValue (numeral n) = n := by
  unfold numeral
  split
  · next zero =>
    rw [zero]
    rfl
  · rw [numeralValue_reverse (fun _ => digit_lt), Nat.ofDigits_digits]

theorem numeral_injective {n m : Nat} (same : numeral n = numeral m) : n = m := by
  rw [← numeralValue_numeral n, same, numeralValue_numeral]

theorem isDigit_of_mem_numeral {n : Nat} {octet : UInt8} (member : octet ∈ numeral n) :
    isDigit octet = true := by
  unfold numeral at member
  split at member
  · rw [List.mem_singleton.mp member]
    rfl
  · obtain ⟨digit, inside, rfl⟩ := List.mem_map.mp member
    have := digit_lt (List.mem_reverse.mp inside)
    interval_cases digit <;> rfl

end Ladder.Library

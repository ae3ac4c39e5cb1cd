import Mathlib.Data.List.Basic
import Treewalk.Text.Integer

/-! Decimal text: what is written for a number is read back as the number. -/
namespace Treewalk.Text

theorem isDigit_iff {b : UInt8} : isDigit b = true ↔ 48 ≤ b.toNat ∧ b.toNat ≤ 57 := by
  have zero : ascii '0' = 48 := by decide
  have nine : ascii '9' = 57 := by decide
  simp [isDigit, zero, nine, UInt8.le_iff_toNat_le]

theorem toNat_ascii_of_isDigit {c : Char} (digit : c.isDigit = true) :
    (ascii c).toNat = c.toNat := by
  have bounds : 48 ≤ c.toNat ∧ c.toNat ≤ 57 := by
    simpa [Char.isDigit, UInt32.le_iff_toNat_le] using digit
  rw [ascii, Char.toUInt8, UInt32.toNat_toUInt8]
  exact Nat.mod_eq_of_lt (by have := bounds.2; change c.toNat < 256; omega)

theorem isDigit_of_mem_natural {n : Nat} {b : UInt8} (listed : b ∈ natural n) :
    isDigit b = true := by
  obtain ⟨c, digit, rfl⟩ := List.mem_map.mp listed
  have decimal := Nat.isDigit_of_mem_toDigits (by decide) (by decide) digit
  have bounds : 48 ≤ c.toNat ∧ c.toNat ≤ 57 := by
    simpa [Char.isDigit, UInt32.le_iff_toNat_le] using decimal
  rw [isDigit_iff, toNat_ascii_of_isDigit decimal]
  exact bounds

theorem natural_ne_nil (n : Nat) : natural n ≠ [] := by
  simp [natural]

theorem naturalValue_natural (n : Nat) : naturalValue (natural n) = n := by
  have digits : naturalValue (natural n) = Nat.ofDigitChars 10 (Nat.toDigits 10 n) 0 := by
    rw [naturalValue, natural, List.foldl_map, Nat.ofDigitChars]
    refine List.foldl_ext _ _ 0 fun sum c listed => ?_
    have decimal := Nat.isDigit_of_mem_toDigits (by decide) (by decide) listed
    rw [digitValue, toNat_ascii_of_isDigit decimal]
    rfl
  rw [digits, Nat.ofDigitChars_ten_toDigits]

theorem splitSign_natural (n : Nat) : splitSign (natural n) = (false, natural n) := by
  cases front : natural n with
  | nil => exact absurd front (natural_ne_nil n)
  | cons b rest =>
    have digit := isDigit_of_mem_natural (n := n) (b := b) (by simp [front])
    have minus : b ≠ ascii '-' := by
      intro sign
      rw [sign] at digit
      exact absurd digit (by decide)
    have plus : b ≠ ascii '+' := by
      intro sign
      rw [sign] at digit
      exact absurd digit (by decide)
    rw [splitSign, if_neg minus, if_neg plus]

theorem readInteger_integer (i : Int) : readInteger (integer i) = some i := by
  have digits : natural i.natAbs ≠ [] ∧ (natural i.natAbs).all isDigit = true :=
    ⟨natural_ne_nil _, List.all_eq_true.mpr fun _ listed => isDigit_of_mem_natural listed⟩
  unfold integer
  split
  · have split : splitSign (ascii '-' :: natural i.natAbs) = (true, natural i.natAbs) := rfl
    simp only [readInteger, split, if_pos digits, naturalValue_natural, if_true]
    congr 1
    omega
  · simp only [readInteger, splitSign_natural, if_pos digits, naturalValue_natural,
      Bool.false_eq_true, if_false]
    congr 1
    omega

/-! Reading at 64 bits -/

theorem le_foldl_digits (digits : Text) (n : Nat) :
    n ≤ digits.foldl (fun n b => 10 * n + digitValue b) n := by
  induction digits generalizing n with
  | nil => exact Nat.le_refl n
  | cons b digits ih =>
    have step : n ≤ 10 * n + digitValue b := by omega
    exact Nat.le_trans step (ih _)

theorem digitValue_lt {b : UInt8} (digit : isDigit b = true) : digitValue b < 10 := by
  have bounds := isDigit_iff.mp digit
  have zero : (ascii '0').toNat = 48 := by decide
  rw [digitValue, zero]
  omega

/-- Digits are accumulated exactly as long as the number fits, and the first digit with which it no
longer does is noticed. -/
theorem readDigits_eq (n : UInt64) (digits : Text) :
    readDigits n digits =
      if digits.all isDigit ∧
        digits.foldl (fun n b => 10 * n + digitValue b) n.toNat < 18446744073709551616
      then some (UInt64.ofNat (digits.foldl (fun n b => 10 * n + digitValue b) n.toNat))
      else none := by
  induction digits generalizing n with
  | nil => simp [readDigits, n.toNat_lt]
  | cons b digits ih =>
    rw [readDigits, List.foldl_cons, List.all_cons]
    cases digit : isDigit b with
    | false => simp
    | true =>
      have small := digitValue_lt digit
      have bound := le_foldl_digits digits (10 * n.toNat + digitValue b)
      rw [if_pos rfl, Bool.true_and]
      by_cases large : 1844674407370955162 ≤ n
      · have large' : 1844674407370955162 ≤ n.toNat := UInt64.le_iff_toNat_le.mp large
        rw [if_pos large, if_neg fun fits => by omega]
      · have large' : ¬1844674407370955162 ≤ n.toNat := fun le =>
          large (UInt64.le_iff_toNat_le.mpr le)
        have tenfold : (10 * n).toNat = 10 * n.toNat := by
          rw [UInt64.toNat_mul]
          exact Nat.mod_eq_of_lt (by change 10 * n.toNat < 2 ^ 64; omega)
        have sum : (10 * n + UInt64.ofNat (digitValue b)).toNat
            = (10 * n.toNat + digitValue b) % 18446744073709551616 := by
          rw [UInt64.toNat_add, tenfold, UInt64.toNat_ofNat']
          omega
        -- The sum with the digit wraps around once at most, and is then below what it is added to.
        rw [if_neg large]
        by_cases fits : 10 * n.toNat + digitValue b < 18446744073709551616
        · rw [Nat.mod_eq_of_lt fits] at sum
          have grows : ¬10 * n + UInt64.ofNat (digitValue b) < 10 * n := by
            rw [UInt64.lt_iff_toNat_lt, sum, tenfold]
            omega
          rw [if_neg grows, ih, sum]
        · have shrinks : 10 * n + UInt64.ofNat (digitValue b) < 10 * n := by
            rw [UInt64.lt_iff_toNat_lt, sum, tenfold]
            omega
          rw [if_pos shrinks, if_neg fun all => by omega]

def signed (negative : Bool) (n : Nat) : Int := if negative then -(n : Int) else n

theorem withSign_ofNat (negative : Bool) {n : Nat} (fits : n < 18446744073709551616) :
    withSign negative (UInt64.ofNat n) =
      if minInt64 ≤ signed negative n ∧ signed negative n ≤ maxInt64
      then some (Int64.ofInt (signed negative n)) else none := by
  have magnitude : (UInt64.ofNat n).toNat = n := by
    rw [UInt64.toNat_ofNat']
    exact Nat.mod_eq_of_lt fits
  have signless : (UInt64.ofNat n).toInt64 = Int64.ofInt n := rfl
  cases negative with
  | true =>
    have least : UInt64.ofNat n ≤ 9223372036854775808 ↔ minInt64 ≤ -(n : Int) ∧ -n ≤ maxInt64 := by
      rw [UInt64.le_iff_toNat_le, magnitude, minInt64, maxInt64]
      change n ≤ 9223372036854775808 ↔ _
      omega
    simp only [withSign, signed, if_true, least, signless, Int64.ofInt_neg]
  | false =>
    have greatest : UInt64.ofNat n < 9223372036854775808 ↔ minInt64 ≤ n ∧ (n : Int) ≤ maxInt64 := by
      rw [UInt64.lt_iff_toNat_lt, magnitude, minInt64, maxInt64]
      change n < 9223372036854775808 ↔ _
      omega
    simp only [withSign, signed, Bool.false_eq_true, if_false, greatest, signless]

theorem readInt64_eq (t : Text) :
    readInt64 t = (readInteger t).bind fun i =>
      if minInt64 ≤ i ∧ i ≤ maxInt64 then some (Int64.ofInt i) else none := by
  rw [readInt64, readInteger]
  obtain ⟨negative, digits⟩ := splitSign t
  dsimp only
  by_cases empty : digits = []
  · rw [if_pos empty, if_neg fun some => some.1 empty, Option.bind_none]
  have magnitude : readDigits 0 digits =
      if digits.all isDigit ∧ naturalValue digits < 18446744073709551616
      then some (UInt64.ofNat (naturalValue digits)) else none := readDigits_eq 0 digits
  have value : (if negative then -(naturalValue digits : Int) else naturalValue digits)
      = signed negative (naturalValue digits) := rfl
  rw [if_neg empty, magnitude, value]
  by_cases decimal : digits.all isDigit = true
  · have read : digits ≠ [] ∧ digits.all isDigit = true := ⟨empty, decimal⟩
    rw [if_pos read, Option.bind_some]
    by_cases fits : naturalValue digits < 18446744073709551616
    · rw [if_pos ⟨decimal, fits⟩, Option.bind_some, withSign_ofNat negative fits]
    · have outside : ¬(minInt64 ≤ signed negative (naturalValue digits) ∧
          signed negative (naturalValue digits) ≤ maxInt64) := by
        simp only [signed, minInt64, maxInt64]
        split <;> omega
      rw [if_neg outside, if_neg fun all => fits all.2, Option.bind_none]
  · rw [if_neg fun all => decimal all.1, if_neg fun all => decimal all.2, Option.bind_none,
      Option.bind_none]

theorem readInt64_int64 (n : Int64) : readInt64 (int64 n) = some n := by
  have low := Int64.le_toInt n
  have high := Int64.toInt_lt n
  rw [readInt64_eq, int64, readInteger_integer, Option.bind_some, if_pos, Int64.ofInt_toInt]
  simp only [minInt64, maxInt64]
  omega

end Treewalk.Text

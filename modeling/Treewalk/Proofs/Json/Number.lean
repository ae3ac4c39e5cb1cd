import Treewalk.Proofs.Json.Shape
import Treewalk.Wire.Member

/-! Reading JSON numbers as 64-bit integers. The digits of an integer in range are accumulated
without an overflow; a fraction or an exponent makes the number no integer. -/
namespace Treewalk.Json

open Text (ascii)
open Wire (accumulate readNumber)

theorem accumulate_digits {digits : Text} (decimal : ∀ b ∈ digits, Text.isDigit b = true) {n : Nat}
    (fits : digits.foldl (fun n b => 10 * n + Text.digitValue b) n < 9223372036854775808) :
    accumulate (Int64.ofNat n) digits
      = .ok (Int64.ofNat (digits.foldl (fun n b => 10 * n + Text.digitValue b) n)) := by
  induction digits generalizing n with
  | nil => rfl
  | cons b digits ih =>
    rw [List.forall_mem_cons] at decimal
    rw [List.foldl_cons] at fits ⊢
    have bound := Text.le_foldl_digits digits (10 * n + Text.digitValue b)
    have next : 10 * Int64.ofNat n + Int64.ofNat (Text.digitValue b)
        = Int64.ofNat (10 * n + Text.digitValue b) := by
      rw [Int64.ofNat_add, Int64.ofNat_mul]
      rfl
    have grows : ¬Int64.ofNat (10 * n + Text.digitValue b) < Int64.ofNat n := by
      rw [Int64.lt_iff_toInt_lt, Int64.toInt_ofNat_of_lt (by omega),
        Int64.toInt_ofNat_of_lt (by omega)]
      omega
    rw [accumulate, if_pos decimal.1]
    dsimp only
    rw [next, if_neg grows]
    exact ih decimal.2 fits

theorem accumulate_natural {n : Nat} (fits : n < 9223372036854775808) :
    accumulate 0 (Text.natural n) = .ok (Int64.ofNat n) := by
  have value : (Text.natural n).foldl (fun n b => 10 * n + Text.digitValue b) 0 = n :=
    Text.naturalValue_natural n
  have read := accumulate_digits (n := 0) (fun b listed => Text.isDigit_of_mem_natural listed)
    (value.symm ▸ fits)
  rw [value] at read
  exact read

theorem accumulate_error {t : Text} {b : UInt8} (listed : b ∈ t) (other : Text.isDigit b = false)
    (v : Int64) : ∃ e, accumulate v t = .error e := by
  induction t generalizing v with
  | nil => cases listed
  | cons c t ih =>
    rw [accumulate]
    split
    · next digit =>
      dsimp only
      split
      · exact ⟨_, rfl⟩
      · obtain rfl | further := List.mem_cons.mp listed
        · rw [other] at digit
          cases digit
        · exact ih further _
    · exact ⟨_, rfl⟩

theorem readNumber_minus (rest : Text) : readNumber (ascii '-' :: rest)
    = if rest = Text.ofString "9223372036854775808" then .ok Int64.minValue
      else (accumulate 0 rest).map (- ·) := by
  rw [readNumber, if_pos rfl]

theorem readNumber_natural (n : Nat) :
    readNumber (Text.natural n) = accumulate 0 (Text.natural n) := by
  cases digits : Text.natural n with
  | nil => exact absurd digits (Text.natural_ne_nil n)
  | cons b rest =>
    have digit := Text.isDigit_of_mem_natural (n := n) (b := b) (by simp [digits])
    have unsigned : b ≠ ascii '-' := by
      intro minus
      rw [minus] at digit
      cases digit
    rw [readNumber, if_neg unsigned]

theorem readNumber_positive (whole : Nat) :
    readNumber (Numeral.text ⟨false, whole, none, none⟩) = accumulate 0 (Text.natural whole) := by
  have text : Numeral.text ⟨false, whole, none, none⟩ = Text.natural whole := by
    simp [Numeral.text]
  rw [text, readNumber_natural]

/-- The sign is applied at the end, but for the least integer, whose digits alone do not fit. -/
theorem readNumber_negative (whole : Nat) :
    readNumber (Numeral.text ⟨true, whole, none, none⟩)
      = if whole = 9223372036854775808 then .ok Int64.minValue
        else (accumulate 0 (Text.natural whole)).map (- ·) := by
  have text : Numeral.text ⟨true, whole, none, none⟩ = ascii '-' :: Text.natural whole := by
    simp [Numeral.text]
  have least : Text.natural 9223372036854775808 = Text.ofString "9223372036854775808" := by decide
  have same : Text.natural whole = Text.natural 9223372036854775808 ↔
      whole = 9223372036854775808 := by
    constructor
    · intro digits
      have value := congrArg Text.naturalValue digits
      rwa [Text.naturalValue_natural, Text.naturalValue_natural] at value
    · exact congrArg Text.natural
  simp only [text, readNumber_minus, ← least, same]

theorem ofInt_neg_natural (n : Nat) : Int64.ofInt (-(n : Int)) = -Int64.ofNat n := by
  rw [Int64.ofInt_neg, Int64.ofInt_eq_ofNat]

theorem readNumber_integer {q : Numeral} {i : Int} (integer : q.integer? = some i)
    (low : Text.minInt64 ≤ i) (high : i ≤ Text.maxInt64) :
    readNumber q.text = .ok (Int64.ofInt i) := by
  obtain ⟨negative, whole, fraction, exponent⟩ := q
  cases fraction <;> cases exponent <;> cases integer
  cases negative with
  | false =>
    have fits : whole < 9223372036854775808 := by
      change (whole : Int) ≤ 9223372036854775807 at high
      omega
    rw [readNumber_positive, accumulate_natural fits]
    exact congrArg Except.ok (Int64.ofInt_eq_ofNat).symm
  | true =>
    have fits : whole ≤ 9223372036854775808 := by
      change -9223372036854775808 ≤ -(whole : Int) at low
      omega
    rw [readNumber_negative]
    obtain rfl | smaller := Nat.eq_or_lt_of_le fits
    · rw [if_pos rfl]
      rfl
    · rw [if_neg (Nat.ne_of_lt smaller), accumulate_natural smaller]
      exact congrArg Except.ok (ofInt_neg_natural whole).symm

theorem mem_text_of_integer? {q : Numeral} (other : q.integer? = none) :
    ∃ b ∈ [ascii '.', ascii 'e', ascii 'E'], b ∈ q.text := by
  obtain ⟨negative, whole, fraction, exponent⟩ := q
  cases fraction with
  | some digits => exact ⟨ascii '.', by decide, by simp [Numeral.text]⟩
  | none =>
    cases exponent with
    | none => cases other
    | some e =>
      obtain ⟨capital, minus, digits⟩ := e
      cases capital with
      | true => exact ⟨ascii 'E', by decide, by simp [Numeral.text, Exponent.text]⟩
      | false => exact ⟨ascii 'e', by decide, by simp [Numeral.text, Exponent.text]⟩

theorem readNumber_error {q : Numeral} (other : q.integer? = none) :
    ∃ e, readNumber q.text = .error e := by
  obtain ⟨mark, kinds, listed⟩ := mem_text_of_integer? other
  have strange : Text.isDigit mark = false ∧ mark ≠ ascii '-' ∧
      mark ∉ Text.ofString "9223372036854775808" := by
    simp only [List.mem_cons, List.not_mem_nil, or_false] at kinds
    rcases kinds with rfl | rfl | rfl <;> decide
  obtain ⟨digit, minus, least⟩ := strange
  cases text : q.text with
  | nil =>
    rw [text] at listed
    cases listed
  | cons b rest =>
    rw [text] at listed
    rw [readNumber]
    split
    · next sign =>
      have further : mark ∈ rest := by
        obtain rfl | further := List.mem_cons.mp listed
        · exact absurd sign minus
        · exact further
      have longer : rest ≠ Text.ofString "9223372036854775808" := by
        intro same
        rw [same] at further
        exact least further
      rw [if_neg longer]
      obtain ⟨e, failed⟩ := accumulate_error further digit 0
      exact ⟨e, by rw [failed]; rfl⟩
    · exact accumulate_error listed digit 0

end Treewalk.Json

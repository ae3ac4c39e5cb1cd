import Mathlib.Data.Nat.Digits.Defs
import Treewalk.Eval.Basic
import Treewalk.Proofs.Text.Integer

/-! Integer literals. A decimal numeral is one or more digits behind an optional sign, and denotes
an integer of any size. A literal is evaluated to exactly the integer its lexeme denotes, wherever
that integer has 64 bits, and every other lexeme is malformed. -/
namespace Treewalk

namespace Text

def digitOctet (d : Fin 10) : UInt8 := ascii '0' + UInt8.ofNat d.val

def digitText (digits : List (Fin 10)) : Text := digits.map digitOctet

def positional (digits : List (Fin 10)) : Nat := Nat.ofDigits 10 (digits.map Fin.val).reverse

/-- A text is a decimal numeral and denotes an integer. -/
inductive Numeral : Text → Int → Prop
  | plain {digits : List (Fin 10)} : digits ≠ [] → Numeral (digitText digits) (positional digits)
  | plus {digits : List (Fin 10)} :
    digits ≠ [] → Numeral (ascii '+' :: digitText digits) (positional digits)
  | minus {digits : List (Fin 10)} :
    digits ≠ [] → Numeral (ascii '-' :: digitText digits) (-positional digits)

theorem isDigit_digitOctet (d : Fin 10) : isDigit (digitOctet d) = true := by
  revert d
  decide

theorem digitValue_digitOctet (d : Fin 10) : digitValue (digitOctet d) = d.val := by
  revert d
  decide

theorem all_isDigit_digitText (digits : List (Fin 10)) :
    (digitText digits).all isDigit = true := by
  rw [List.all_eq_true]
  intro b listed
  obtain ⟨d, -, rfl⟩ := List.mem_map.mp listed
  exact isDigit_digitOctet d

theorem exists_digitOctet {b : UInt8} (digit : isDigit b = true) : ∃ d, digitOctet d = b := by
  have bounds := isDigit_iff.mp digit
  have zero : (ascii '0').toNat = 48 := by decide
  have value : digitValue b = b.toNat - 48 := by rw [digitValue, zero]
  refine ⟨⟨digitValue b, digitValue_lt digit⟩, UInt8.toNat_inj.mp ?_⟩
  rw [digitOctet, UInt8.toNat_add, UInt8.toNat_ofNat', zero]
  dsimp only
  omega

theorem exists_digitText {t : Text} (decimal : t.all isDigit = true) :
    ∃ digits, digitText digits = t := by
  induction t with
  | nil => exact ⟨[], rfl⟩
  | cons b t ih =>
    rw [List.all_cons, Bool.and_eq_true] at decimal
    obtain ⟨d, rfl⟩ := exists_digitOctet decimal.1
    obtain ⟨digits, rfl⟩ := ih decimal.2
    exact ⟨d :: digits, rfl⟩

theorem naturalValue_digitText (digits : List (Fin 10)) :
    naturalValue (digitText digits) = positional digits := by
  rw [naturalValue, digitText, positional, Nat.ofDigits_eq_foldr, List.foldr_reverse,
    List.foldl_map, List.foldl_map]
  refine List.foldl_ext _ _ 0 fun n d _ => ?_
  rw [digitValue_digitOctet]
  exact Nat.add_comm _ _

theorem splitSign_digitText (digits : List (Fin 10)) :
    splitSign (digitText digits) = (false, digitText digits) := by
  cases digits with
  | nil => rfl
  | cons d digits =>
    have unsigned : digitOctet d ≠ ascii '-' ∧ digitOctet d ≠ ascii '+' := by
      revert d
      decide
    change splitSign (digitOctet d :: digitText digits) = _
    rw [splitSign, if_neg unsigned.1, if_neg unsigned.2]
    rfl

theorem splitSign_cases (t : Text) :
    splitSign t = (true, t.tail) ∧ t = ascii '-' :: t.tail ∨
      splitSign t = (false, t.tail) ∧ t = ascii '+' :: t.tail ∨ splitSign t = (false, t) := by
  cases t with
  | nil => exact .inr (.inr rfl)
  | cons b rest =>
    rw [splitSign]
    split
    · next minus => exact .inl ⟨rfl, by rw [minus]; rfl⟩
    · split
      · next plus => exact .inr (.inl ⟨rfl, by rw [plus]; rfl⟩)
      · exact .inr (.inr rfl)

theorem readInteger_of_splitSign {t : Text} (negative : Bool) {digits : List (Fin 10)}
    (sign : splitSign t = (negative, digitText digits)) (nonempty : digits ≠ []) :
    readInteger t = some (signed negative (positional digits)) := by
  have read : digitText digits ≠ [] ∧ (digitText digits).all isDigit = true :=
    ⟨fun empty => nonempty (List.map_eq_nil_iff.mp empty), all_isDigit_digitText digits⟩
  rw [readInteger, sign]
  dsimp only
  rw [if_pos read, naturalValue_digitText]
  rfl

theorem exists_of_readInteger {t : Text} {i : Int} (read : readInteger t = some i) :
    ∃ digits : List (Fin 10), digits ≠ [] ∧ (splitSign t).2 = digitText digits ∧
      i = signed (splitSign t).1 (positional digits) := by
  rw [readInteger] at read
  cases sign : splitSign t with | mk negative rest
  rw [sign] at read
  dsimp only at read ⊢
  split at read
  · next decimal =>
    obtain ⟨digits, rfl⟩ := exists_digitText decimal.2
    refine ⟨digits, fun empty => decimal.1 (by rw [empty]; rfl), rfl, ?_⟩
    rw [naturalValue_digitText] at read
    exact (Option.some_inj.mp read).symm
  · cases read

theorem readInteger_eq_some_iff {t : Text} {i : Int} :
    readInteger t = some i ↔ Numeral t i := by
  constructor
  · intro read
    obtain ⟨digits, nonempty, rest, rfl⟩ := exists_of_readInteger read
    rcases splitSign_cases t with ⟨split, front⟩ | ⟨split, front⟩ | split
    · rw [split] at rest ⊢
      rw [front, show t.tail = digitText digits from rest]
      exact .minus nonempty
    · rw [split] at rest ⊢
      rw [front, show t.tail = digitText digits from rest]
      exact .plus nonempty
    · rw [split] at rest ⊢
      rw [show t = digitText digits from rest]
      exact .plain nonempty
  · intro numeral
    cases numeral with
    | plain nonempty => exact readInteger_of_splitSign false (splitSign_digitText _) nonempty
    | plus nonempty => exact readInteger_of_splitSign false rfl nonempty
    | minus nonempty => exact readInteger_of_splitSign true rfl nonempty

def IsInt64 (t : Text) (i : Int) : Prop := Numeral t i ∧ -2 ^ 63 ≤ i ∧ i ≤ 2 ^ 63 - 1

theorem readInt64_eq_some_iff {t : Text} {k : Int64} :
    readInt64 t = some k ↔ IsInt64 t k.toInt := by
  rw [readInt64_eq, Option.bind_eq_some_iff]
  constructor
  · rintro ⟨i, read, value⟩
    split at value
    · next range =>
      have inside : -2 ^ 63 ≤ i ∧ i < 2 ^ 63 := by
        simp only [minInt64, maxInt64] at range
        omega
      cases value
      rw [Int64.toInt_ofInt_of_le inside.1 inside.2]
      exact ⟨readInteger_eq_some_iff.mp read, inside.1, by omega⟩
    · cases value
  · rintro ⟨numeral, low, high⟩
    refine ⟨k.toInt, readInteger_eq_some_iff.mpr numeral, ?_⟩
    rw [if_pos, Int64.ofInt_toInt]
    simp only [minInt64, maxInt64]
    omega

end Text

variable {n : Nat} {s : ScopeId} {st : State} {lexeme : Text}

theorem eval_int_atom {k : Int64} (read : Text.readInt64 lexeme = some k) :
    eval (n + 1) s (.atom .int lexeme) st = .value (.int k) st := by
  rw [eval, literal, if_pos rfl, read]
  rfl

theorem eval_malformed_int (unread : Text.readInt64 lexeme = none) :
    eval (n + 1) s (.atom .int lexeme) st = .fault (.notAnInt lexeme) st := by
  rw [eval, literal, if_pos rfl, unread]
  rfl

theorem eval_int (n : Nat) (s : ScopeId) (a : Int64) (st : State) :
    eval (n + 1) s (.int a) st = .value (.int a) st :=
  eval_int_atom (Text.readInt64_int64 a)

theorem exists_eval_of_isInt64 {i : Int} (denoted : Text.IsInt64 lexeme i) :
    ∃ k : Int64, k.toInt = i ∧ eval (n + 1) s (.atom .int lexeme) st = .value (.int k) st := by
  have ⟨low, high⟩ := denoted.2
  have value : (Int64.ofInt i).toInt = i := Int64.toInt_ofInt_of_le low (by omega)
  rw [← value] at denoted
  exact ⟨.ofInt i, value, eval_int_atom (Text.readInt64_eq_some_iff.mpr denoted)⟩

theorem eval_of_not_isInt64 (other : ¬∃ i, Text.IsInt64 lexeme i) :
    eval (n + 1) s (.atom .int lexeme) st = .fault (.notAnInt lexeme) st := by
  refine eval_malformed_int (Option.eq_none_iff_forall_not_mem.mpr fun k read => ?_)
  exact other ⟨k.toInt, Text.readInt64_eq_some_iff.mp read⟩

/-- An integer literal has a value exactly if its lexeme is a decimal numeral of a 64-bit integer,
and the value is that integer; any other lexeme is malformed. What is written for an integer, in a
tree or as the text of the value, is such a numeral and is read as the integer. -/
theorem int_literals_exact (n : Nat) (s : ScopeId) (st : State) :
    (∀ lexeme, (∃ v st', eval (n + 1) s (.atom .int lexeme) st = .value v st') ↔
        ∃ i, Text.IsInt64 lexeme i) ∧
      (∀ lexeme i, Text.IsInt64 lexeme i →
        ∃ k : Int64, k.toInt = i ∧
          eval (n + 1) s (.atom .int lexeme) st = .value (.int k) st) ∧
      (∀ lexeme, (¬∃ i, Text.IsInt64 lexeme i) →
        eval (n + 1) s (.atom .int lexeme) st = .fault (.notAnInt lexeme) st ∧
          (Fault.notAnInt lexeme).kind? = some .malformedLiteral) ∧
      (∀ k, eval (n + 1) s (.int k) st = .value (.int k) st) ∧
      ∀ k, eval (n + 1) s (.atom .int (Value.int k).text) st = .value (.int k) st := by
  refine ⟨fun lexeme => ⟨?_, ?_⟩, fun _ _ => exists_eval_of_isInt64,
    fun _ other => ⟨eval_of_not_isInt64 other, rfl⟩, fun k => eval_int n s k st,
    fun k => eval_int_atom (Text.readInt64_int64 k)⟩
  · rintro ⟨v, st', value⟩
    by_contra other
    rw [eval_of_not_isInt64 other] at value
    cases value
  · rintro ⟨i, denoted⟩
    obtain ⟨k, -, value⟩ := exists_eval_of_isInt64 denoted
    exact ⟨.int k, st, value⟩

theorem least_int_read :
    (∃ k : Int64, k.toInt = -2 ^ 63 ∧
      eval 1 0 (.atom .int "-0009223372036854775808") ⟨.empty, .unlimited, #[]⟩
        = .value (.int k) ⟨.empty, .unlimited, #[]⟩) ∧
      eval 1 0 (.atom .int "9223372036854775808") ⟨.empty, .unlimited, #[]⟩
        = .fault (.notAnInt "9223372036854775808") ⟨.empty, .unlimited, #[]⟩ := by
  obtain ⟨-, reads, refuses, -⟩ := int_literals_exact 0 0 ⟨.empty, .unlimited, #[]⟩
  have least : Text.readInteger "-0009223372036854775808" = some (-2 ^ 63) := by decide
  have large : Text.readInteger "9223372036854775808" = some (2 ^ 63) := by decide
  refine ⟨reads _ _ ⟨Text.readInteger_eq_some_iff.mp least, by decide, by decide⟩,
    (refuses _ ?_).1⟩
  rintro ⟨i, numeral, -, high⟩
  have value := Text.readInteger_eq_some_iff.mpr numeral
  rw [large] at value
  have same : 2 ^ 63 = i := Option.some_inj.mp value
  omega

end Treewalk

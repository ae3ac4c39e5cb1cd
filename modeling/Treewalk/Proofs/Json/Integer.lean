import Mathlib.Algebra.Ring.Nat
import Treewalk.Eval.Basic
import Treewalk.Proofs.Json.Decode

/-! Integers in documents. A number is accumulated at 64 bits, and that it does not fit is noticed
only where a digit makes it smaller. Numbers in range are read as they are. Of the others, most
are refused, and those that keep growing although they wrap around are taken for their remainder. -/
namespace Treewalk.Json

open Text (ascii)
open Wire (accumulate readNumber)

/-- Modulo the word size, no leading part of the number is smaller than the part before it, and
all stay below the sign bit. -/
def Climbs (n : Nat) : Prop :=
  ∀ k, n / 10 ^ (k + 1) % 2 ^ 64 ≤ n / 10 ^ k % 2 ^ 64 ∧ n / 10 ^ k % 2 ^ 64 < 2 ^ 63

theorem climbs_iff (n : Nat) :
    Climbs n ↔ Climbs (n / 10) ∧ n / 10 % 2 ^ 64 ≤ n % 2 ^ 64 ∧ n % 2 ^ 64 < 2 ^ 63 := by
  have shift (k : Nat) : n / 10 / 10 ^ k = n / 10 ^ (k + 1) := by
    rw [Nat.div_div_eq_div_mul, Nat.pow_succ']
  constructor
  · intro climbs
    refine ⟨fun k => ?_, by simpa using climbs 0⟩
    rw [shift, shift]
    exact climbs (k + 1)
  · rintro ⟨inner, last⟩ k
    cases k with
    | zero => simpa using last
    | succ k => simpa only [shift] using inner k

theorem climbs_of_lt {n : Nat} (small : n < 2 ^ 63) : Climbs n := by
  intro k
  have inside : n / 10 ^ k ≤ n := Nat.div_le_self ..
  have next : n / 10 ^ (k + 1) = n / 10 ^ k / 10 := by rw [Nat.pow_succ, Nat.div_div_eq_div_mul]
  rw [next]
  generalize n / 10 ^ k = part at inside
  omega

theorem not_climbs {n : Nat} (large : 2 ^ 63 ≤ n) (bound : n < 20496382304121724017) :
    ¬Climbs n := by
  intro climbs
  have last := ((climbs_iff n).mp climbs).2
  omega

theorem ofNat_lt_ofNat_iff {m n : Nat} (small : m % 2 ^ 64 < 2 ^ 63) :
    Int64.ofNat n < Int64.ofNat m ↔ ¬(m % 2 ^ 64 ≤ n % 2 ^ 64 ∧ n % 2 ^ 64 < 2 ^ 63) := by
  have size : (Int64.size : Int) = 2 ^ 64 := rfl
  rw [Int64.lt_iff_toInt_lt, Int64.toInt_ofNat', Int64.toInt_ofNat', Int.bmod_def, Int.bmod_def,
    size]
  split <;> split <;> omega

theorem accumulate_append (v : Int64) (t u : Text) :
    accumulate v (t ++ u) = accumulate v t >>= fun w => accumulate w u := by
  induction t generalizing v with
  | nil => rfl
  | cons b t ih =>
    rw [List.cons_append, accumulate, accumulate]
    split
    · dsimp only
      split
      · rfl
      · exact ih _
    · rfl

theorem accumulate_lastDigit (n : Nat) :
    accumulate (Int64.ofNat (n / 10)) [ascii (n % 10).digitChar]
      = if Int64.ofNat n < Int64.ofNat (n / 10) then .error .overflow
        else .ok (Int64.ofNat n) := by
  have digit : Text.isDigit (ascii (n % 10).digitChar) = true ∧
      Text.digitValue (ascii (n % 10).digitChar) = n % 10 := by
    have bound : n % 10 < 10 := Nat.mod_lt n (by decide)
    generalize n % 10 = d at bound
    decide +revert
  have next : 10 * Int64.ofNat (n / 10) + Int64.ofNat (n % 10) = Int64.ofNat n := by
    have whole : 10 * (n / 10) + n % 10 = n := Nat.div_add_mod n 10
    conv => rhs; rw [← whole, Int64.ofNat_add, Int64.ofNat_mul]
    rfl
  rw [accumulate, if_pos digit.1]
  dsimp only
  rw [digit.2, next]
  rfl

theorem natural_of_le {n : Nat} (large : 10 ≤ n) :
    Text.natural n = Text.natural (n / 10) ++ [ascii (n % 10).digitChar] := by
  rw [Text.natural, Nat.toDigits_of_base_le (by decide) large, List.map_append]
  rfl

theorem accumulate_climbs (n : Nat) :
    (Climbs n → accumulate 0 (Text.natural n) = .ok (Int64.ofNat n)) ∧
      (¬Climbs n → accumulate 0 (Text.natural n) = .error .overflow) := by
  -- All digits but the last are those of a tenth of the number.
  induction n using Nat.strongRecOn with
  | ind n ih =>
    by_cases large : 10 ≤ n
    · obtain ⟨accepted, refused⟩ := ih (n / 10) (by omega)
      rw [natural_of_le large, accumulate_append, climbs_iff n]
      by_cases inner : Climbs (n / 10)
      · have small : n / 10 % 2 ^ 64 < 2 ^ 63 := ((climbs_iff _).mp inner).2.2
        rw [accepted inner]
        change (_ → accumulate _ _ = _) ∧ (_ → accumulate _ _ = _)
        rw [accumulate_lastDigit, and_iff_right inner]
        constructor
        · intro last
          rw [if_neg (by rw [ofNat_lt_ofNat_iff small]; exact not_not_intro last)]
        · intro last
          rw [if_pos ((ofNat_lt_ofNat_iff small).mpr last)]
      · rw [refused inner]
        exact ⟨fun climbs => absurd climbs.1 inner, fun _ => rfl⟩
    · have climbs : Climbs n := climbs_of_lt (by omega)
      exact ⟨fun _ => accumulate_natural (by omega), fun other => absurd climbs other⟩

theorem readNumber_climbs {q : Numeral} {i : Int} (integer : q.integer? = some i)
    (outside : ¬(Text.minInt64 ≤ i ∧ i ≤ Text.maxInt64)) :
    2 ^ 63 ≤ q.whole ∧ (Climbs q.whole → readNumber q.text = .ok (Int64.ofInt i)) ∧
      (¬Climbs q.whole → readNumber q.text = .error .overflow) := by
  obtain ⟨negative, whole, fraction, exponent⟩ := q
  cases fraction <;> cases exponent <;> cases integer
  obtain ⟨accepted, refused⟩ := accumulate_climbs whole
  simp only [Text.minInt64, Text.maxInt64] at outside
  cases negative with
  | false =>
    rw [readNumber_positive]
    refine ⟨?_, fun climbs => ?_, refused⟩
    · change 2 ^ 63 ≤ whole
      simp only [Bool.false_eq_true, if_false] at outside
      omega
    · rw [accepted climbs]
      exact congrArg Except.ok (Int64.ofInt_eq_ofNat).symm
  | true =>
    have larger : 9223372036854775808 < whole := by
      simp only [if_true] at outside
      omega
    rw [readNumber_negative, if_neg (Nat.ne_of_gt larger)]
    refine ⟨Nat.le_of_lt larger, fun climbs => ?_, fun descends => ?_⟩
    · rw [accepted climbs]
      exact congrArg Except.ok (ofInt_neg_natural whole).symm
    · rw [refused descends]
      rfl

theorem ofDocument_int {members : List (String × Json)} {q : Numeral} {text : Text}
    (written : Written (.element (.object members)) text)
    (kind : members.lookup "kind" = some (.string "int"))
    (value : members.lookup "value" = some (.number q)) :
    Tree.ofDocument .json text
      = match readNumber q.text with
        | .ok n => .ok (.int n)
        | .error e => .error (.tree (.badInteger e)) := by
  obtain ⟨v, slice, decoded⟩ := ofDocument_slice written
  cases slice with
  | @object _ data inner =>
    have label : Wire.textMember "kind" data = some NodeKind.int.label := by
      rw [textMember_written inner, kind]
      rfl
    obtain ⟨⟨v, small⟩, found, slice⟩ := member_present inner value
    cases slice
    have number : Wire.intMember "value" data = readNumber q.text := by
      rw [Wire.intMember, found]
    rw [decoded, Tree.ofWire, Tree.node, if_neg (by simp), label]
    simp only [NodeKind.ofLabel?_label, number]
    cases readNumber q.text <;> rfl

/-- An integer in range is decoded to a tree that evaluates to the integer. One out of range is
decoded to its remainder at 64 bits if it climbs, which the first ones do not, and is refused
otherwise. -/
theorem int_node_decoded {members : List (String × Json)} {q : Numeral} {i : Int} {text : Text}
    (written : Written (.element (.object members)) text)
    (kind : members.lookup "kind" = some (.string "int"))
    (value : members.lookup "value" = some (.number q)) (integer : q.integer? = some i) :
    (Text.minInt64 ≤ i ∧ i ≤ Text.maxInt64 → ∃ n : Int64, n.toInt = i ∧
      Tree.ofDocument .json text = .ok (.int n) ∧
      ∀ fuel s st, eval (fuel + 1) s (.int n) st = .value (.int n) st) ∧
    (¬(Text.minInt64 ≤ i ∧ i ≤ Text.maxInt64) →
      (q.whole < 20496382304121724017 → ¬Climbs q.whole) ∧
      (¬Climbs q.whole →
        ∃ e, Tree.ofDocument .json text = .error e ∧ e.kind? = some .malformedTree) ∧
      (Climbs q.whole → ∃ n : Int64, n.toInt = i.bmod (2 ^ 64) ∧
        Tree.ofDocument .json text = .ok (.int n))) := by
  have decoded := ofDocument_int written kind value
  constructor
  · rintro ⟨low, high⟩
    rw [readNumber_integer integer low high] at decoded
    refine ⟨Int64.ofInt i, ?_, decoded, fun fuel s st => ?_⟩
    · simp only [Text.minInt64, Text.maxInt64] at low high
      exact Int64.toInt_ofInt_of_le low (by omega)
    · have read : literal .int (Text.int64 (Int64.ofInt i)) = .ok (.int (Int64.ofInt i)) := by
        rw [literal, if_pos rfl, Text.readInt64_int64]
      change Run.lift (literal .int (Text.int64 (Int64.ofInt i))) st = _
      rw [read]
      rfl
  · intro outside
    obtain ⟨large, accepted, refused⟩ := readNumber_climbs integer outside
    refine ⟨not_climbs large, fun descends => ?_, fun climbs => ?_⟩
    · rw [refused descends] at decoded
      exact ⟨_, decoded, kind?_documentError _⟩
    · rw [accepted climbs] at decoded
      exact ⟨_, Int64.toInt_ofInt .., decoded⟩

def intNode (q : Numeral) : List (String × Json) := [("kind", .string "int"), ("value", .number q)]

theorem intNode_written (q : Numeral) : Written (.element (.object (intNode q)))
    (Text.ofString "\x7b\"kind\":\"int\",\"value\":" ++ q.text ++ Text.ofString "\x7d") := by
  have blank : Blank [] := by decide
  have kind : Plain "kind" := by decide
  have value : Plain "value" := by decide
  have int : Plain "int" := by decide
  have node := Written.object <| .nextMember (kind.member (.string int.stringText)) <|
    .lastMember (value.member (.number q))
  have text := Written.element blank node blank
  have front : Text.ofString "\x7b\"kind\":\"int\",\"value\":"
      = ascii '\x7b' :: (ascii '"' :: Text.ofString "kind" ++ ascii '"' :: ascii ':' ::
        (ascii '"' :: Text.ofString "int" ++ [ascii '"'])) ++ ascii ',' ::
        (ascii '"' :: Text.ofString "value" ++ [ascii '"', ascii ':']) := by
    decide
  have back : Text.ofString "\x7d" = [ascii '\x7d'] := by decide
  rw [front, back]
  simpa [intNode] using text

theorem least_int_decoded :
    Written (.element (.object (intNode ⟨true, 9223372036854775808, none, none⟩)))
      (Text.ofString "\x7b\"kind\":\"int\",\"value\":"
        ++ Text.ofString "-9223372036854775808" ++ Text.ofString "\x7d") ∧
    ∃ n : Int64, n.toInt = -9223372036854775808 ∧
      Tree.ofDocument .json (Text.ofString "\x7b\"kind\":\"int\",\"value\":"
        ++ Text.ofString "-9223372036854775808" ++ Text.ofString "\x7d") = .ok (.int n) := by
  have digits : Numeral.text ⟨true, 9223372036854775808, none, none⟩
      = Text.ofString "-9223372036854775808" := by decide
  have written := intNode_written ⟨true, 9223372036854775808, none, none⟩
  rw [digits] at written
  obtain ⟨n, same, decoded, -⟩ := (int_node_decoded written rfl rfl rfl).1 (by decide)
  exact ⟨written, n, same, decoded⟩

/-- The first integer that is decoded to another one: its last digit wraps around to the number
before that digit, which is not smaller. -/
theorem large_int_altered :
    Text.maxInt64 < 20496382304121724017 ∧
    Tree.ofDocument .json
      (Text.ofString "\x7b\"kind\":\"int\",\"value\":20496382304121724017\x7d")
      = .ok (.int 2049638230412172401) := by
  have text : Text.ofString "\x7b\"kind\":\"int\",\"value\":20496382304121724017\x7d"
      = Text.ofString "\x7b\"kind\":\"int\",\"value\":"
        ++ Numeral.text ⟨false, 20496382304121724017, none, none⟩ ++ Text.ofString "\x7d" := by
    decide
  have read : readNumber (Numeral.text ⟨false, 20496382304121724017, none, none⟩)
      = .ok 2049638230412172401 := by
    rfl
  refine ⟨by decide, ?_⟩
  rw [text, ofDocument_int (intNode_written _) rfl rfl, read]

end Treewalk.Json

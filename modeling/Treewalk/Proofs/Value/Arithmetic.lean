import Mathlib.Data.Int.ModEq
import Treewalk.Proofs.Eval.Adequacy
import Treewalk.Proofs.Eval.Literal

/-! Operators against exact integers. Which operands and symbols an operator refuses is settled
before anything is computed; what it computes is the exact integer, wrapped at 64 bits, or how two
exact integers compare. -/
namespace Treewalk

/-! Wrapping at 64 bits -/

/-- The 64-bit integer is the only one that is congruent to the exact integer modulo 2^64. -/
def Wraps (i : Int) (c : Int64) : Prop := ∀ d : Int64, d.toInt ≡ i [ZMOD 2 ^ 64] ↔ d = c

theorem wraps_of_bmod {i : Int} {c : Int64} (residue : c.toInt = i.bmod (2 ^ 64)) : Wraps i c := by
  have congruent : c.toInt ≡ i [ZMOD 2 ^ 64] := by
    rw [residue]
    exact Int.bmod_emod
  intro d
  constructor
  · intro related
    -- Two congruent integers in the range lie too close to each other to be different.
    have same : d.toInt % 2 ^ 64 = c.toInt % 2 ^ 64 := related.trans congruent.symm
    have low := d.le_toInt
    have high := d.toInt_lt
    have low' := c.le_toInt
    have high' := c.toInt_lt
    exact Int64.toInt_inj.mp (by omega)
  · rintro rfl
    exact congruent

/-- The remainder of a division that truncates toward zero. -/
structure Remainder (a b m : Int) : Prop where
  small : |m| < |b|
  sign : m = 0 ∨ m.sign = a.sign
  exact : a = b * a.tdiv b + m

theorem remainder_tmod {a b : Int} (divisor : b ≠ 0) : Remainder a b (a.tmod b) where
  small := by
    have size := Int.natAbs_tmod a b
    have less := Nat.mod_lt a.natAbs (Int.natAbs_pos.mpr divisor)
    rw [Int.abs_eq_natAbs, Int.abs_eq_natAbs]
    omega
  sign := by
    have sign := Int.sign_tmod a b
    split at sign
    · exact .inl (Int.sign_eq_zero_iff_zero.mp sign)
    · exact .inr sign
  exact := (Int.mul_tdiv_add_tmod a b).symm

theorem div_mul_add_mod (a b : Int64) : a / b * b + a % b = a := by
  refine Int64.toInt_inj.mp ?_
  calc (a / b * b + a % b).toInt
      = (a.toInt.tdiv b.toInt * b.toInt + a.toInt.tmod b.toInt).bmod (2 ^ 64) := by
        simp only [Int64.toInt_add, Int64.toInt_mul, Int64.toInt_div, Int64.toInt_mod,
          Int.bmod_add_bmod, Int.bmod_mul_bmod]
    _ = a.toInt.bmod (2 ^ 64) := by rw [Int.mul_comm, Int.mul_tdiv_add_tmod]
    _ = a.toInt := Int64.toInt_bmod a

/-! What operators refuse -/

def Value.isInt : Value → Bool
  | .int _ => true
  | _ => false

def Operator.symbols : List Text := ["+", "-", "*", "/", "%", ">", ">=", "<", "<=", "=="]

def Operator.Divides (op : Text) : Prop := op = Text.ofString "/" ∨ op = Text.ofString "%"

/-- What comes of an operator: when it fails and with what message, and when it gives null. -/
structure Operator.Sorts (op : Text) (l r : Value) (result : Except Fault Value) : Prop where
  mismatch : (∃ f, result = .error f ∧ f.kind? = some .typeMismatch) ↔
    ¬(l.isInt = true ∧ r.isInt = true)
  message {f : Fault} : result = .error f → f.kind? = some .typeMismatch →
    f.message = Text.ofString "type mismatch: '" ++ op ++
      Text.ofString "' only supported between ints but got: '" ++
      (if l.isInt then r else l).text ++ Text.ofString "'"
  division : (∃ f, result = .error f ∧ f.kind? = some .divisionByZero) ↔
    l.isInt = true ∧ r = .int 0 ∧ Divides op
  success : (∃ v, result = .ok v) ↔
    l.isInt = true ∧ r.isInt = true ∧ ¬(r = .int 0 ∧ Divides op)
  null : result = .ok .null ↔ l.isInt = true ∧ r.isInt = true ∧ op ∉ symbols

theorem Operator.mem_symbols_iff {op : Text} :
    op ∈ symbols ↔ ∃ o, Operator.symbol o = op := by
  constructor
  · intro listed
    obtain ⟨o, -, same⟩ := List.mem_map.mp (show op ∈ all.map symbol from listed)
    exact ⟨o, same⟩
  · rintro ⟨o, rfl⟩
    cases o <;> decide

theorem Operator.divides_symbol_iff {o : Operator} : Divides o.symbol ↔ o = .div ∨ o = .mod := by
  cases o <;> simp [Divides] <;> decide

theorem Operator.Divides.mem_symbols {op : Text} (divides : Divides op) : op ∈ symbols := by
  rcases divides with rfl | rfl <;> decide

theorem Fault.message_operandNotInt (op operand : Text) :
    (Fault.operandNotInt op operand).message = Text.ofString "type mismatch: '" ++ op ++
      Text.ofString "' only supported between ints but got: '" ++ operand ++
      Text.ofString "'" := by
  have opening : Text.ofString "type mismatch: '" =
      Text.ofString "type mismatch" ++ Text.ofString ": " ++ [Text.ascii '\''] := by decide
  have middle : Text.ofString "' only supported between ints but got: '" =
      [Text.ascii '\''] ++ Text.ofString " only supported between ints but got: " ++
        [Text.ascii '\''] := by decide
  have closing : Text.ofString "'" = [Text.ascii '\''] := by decide
  rw [opening, middle, closing]
  simp [Fault.message, Fault.root, Fault.detail, Text.shown, ErrorKind.heading]

namespace Operator.Sorts

variable {op : Text} {l r : Value} {a b : Int64}

theorem of_mismatch (other : ¬(l.isInt = true ∧ r.isInt = true)) :
    Sorts op l r (.error (.operandNotInt op (if l.isInt then r else l).text)) where
  mismatch := iff_of_true ⟨_, rfl, rfl⟩ other
  message := by
    intro f failed _
    cases failed
    exact Fault.message_operandNotInt ..
  division := by
    refine iff_of_false ?_ fun ⟨left, right, _⟩ => other ⟨left, by rw [right]; rfl⟩
    rintro ⟨f, failed, kind⟩
    cases failed
    cases kind
  success := iff_of_false (by simp) fun ⟨left, right, _⟩ => other ⟨left, right⟩
  null := iff_of_false (by simp) fun ⟨left, right, _⟩ => other ⟨left, right⟩

theorem of_zero {f : Fault} (kind : f.kind? = some .divisionByZero) (divides : Divides op) :
    Sorts op (.int a) (.int 0) (.error f) where
  mismatch := by
    refine iff_of_false ?_ fun other => other ⟨rfl, rfl⟩
    rintro ⟨g, failed, mismatch⟩
    cases failed
    cases kind.symm.trans mismatch
  message := by
    intro g failed mismatch
    cases failed
    cases kind.symm.trans mismatch
  division := iff_of_true ⟨f, rfl, kind⟩ ⟨rfl, rfl, divides⟩
  success := iff_of_false (by simp) fun ⟨_, _, safe⟩ => safe ⟨rfl, divides⟩
  null := iff_of_false (by simp) fun ⟨_, _, unknown⟩ => unknown divides.mem_symbols

theorem of_value {v : Value} (safe : ¬(b = 0 ∧ Divides op)) (null : v = .null ↔ op ∉ symbols) :
    Sorts op (.int a) (.int b) (.ok v) where
  mismatch := iff_of_false (by simp) fun other => other ⟨rfl, rfl⟩
  message failed := by cases failed
  division := by
    refine iff_of_false (by simp) fun ⟨_, zero, divides⟩ => safe ⟨?_, divides⟩
    exact Value.int.inj zero
  success := by
    refine iff_of_true ⟨v, rfl⟩ ⟨rfl, rfl, fun ⟨zero, divides⟩ => safe ⟨?_, divides⟩⟩
    exact Value.int.inj zero
  null := by simpa [Value.isInt] using null

end Operator.Sorts

theorem Operates.sorts {op : Text} {l r : Value} {result : Except Fault Value}
    (operates : Operates op l r result) : Operator.Sorts op l r result := by
  cases operates with
  | left other =>
    have notInt : l.isInt = false := by
      cases l with
      | int a => exact absurd rfl (other a)
      | _ => rfl
    have refused : Operator.Sorts op l r
        (.error (.operandNotInt op (if l.isInt then r else l).text)) :=
      .of_mismatch (by simp [notInt])
    simpa [notInt] using refused
  | @right a r other =>
    have notInt : r.isInt = false := by
      cases r with
      | int b => exact absurd rfl (other b)
      | _ => rfl
    exact .of_mismatch (l := .int a) (by simp [notInt])
  | unknown other =>
    have unknown : op ∉ Operator.symbols := by
      intro listed
      obtain ⟨o, same⟩ := Operator.mem_symbols_iff.mp listed
      exact other o same
    exact .of_value (fun division => unknown division.2.mem_symbols) (by simp [unknown])
  | @known a b o symbol =>
    subst symbol
    have computed {v : Value} (some : v ≠ .null)
        (safe : ¬(b = 0 ∧ Operator.Divides o.symbol)) :
        Operator.Sorts o.symbol (.int a) (.int b) (.ok v) :=
      .of_value safe (by simp [some, Operator.mem_symbols_iff])
    cases o with
    | div | mod =>
      simp only [Operator.apply]
      split
      · next zero =>
        subst zero
        exact .of_zero rfl (Operator.divides_symbol_iff.mpr (by simp))
      · next other => exact computed (by simp) fun division => other division.1
    | _ =>
      refine computed (by simp) fun division => ?_
      simpa using Operator.divides_symbol_iff.mp division.2

/-! What operators compute -/

theorem eval_binary {n : Nat} {s : ScopeId} {st st₁ st₂ : State} {left right : Tree} {op : Text}
    {l r v : Value} (first : eval n s left st = .value l st₁)
    (second : eval n s right st₁ = .value r st₂) (computed : Value.operate op l r = .ok v) :
    eval (n + 1) s (.binary left op right) st = .value v st₂ := by
  rw [eval, Run.bind_of_value first, Run.bind_of_value second, computed]
  rfl

def Tree.recombined (a b : Int64) : Tree :=
  .binary (.binary (.binary (.int a) "/" (.int b)) "*" (.int b)) "+"
    (.binary (.int a) "%" (.int b))

structure Operator.Computes (a b : Int64) : Prop where
  add : ∃ c, Value.operate "+" (.int a) (.int b) = .ok (.int c) ∧ Wraps (a.toInt + b.toInt) c
  sub : ∃ c, Value.operate "-" (.int a) (.int b) = .ok (.int c) ∧ Wraps (a.toInt - b.toInt) c
  mul : ∃ c, Value.operate "*" (.int a) (.int b) = .ok (.int c) ∧ Wraps (a.toInt * b.toInt) c
  div : b ≠ 0 → ∃ q, Value.operate "/" (.int a) (.int b) = .ok (.int q) ∧
    Wraps (a.toInt.tdiv b.toInt) q
  mod : b ≠ 0 → ∃ m, Value.operate "%" (.int a) (.int b) = .ok (.int m) ∧
    Remainder a.toInt b.toInt m.toInt
  recombined : b ≠ 0 → ∀ n s st, eval (n + 4) s (.recombined a b) st = .value (.int a) st
  gt : Value.operate ">" (.int a) (.int b) = .ok (.bool (b.toInt < a.toInt))
  ge : Value.operate ">=" (.int a) (.int b) = .ok (.bool (b.toInt ≤ a.toInt))
  lt : Value.operate "<" (.int a) (.int b) = .ok (.bool (a.toInt < b.toInt))
  le : Value.operate "<=" (.int a) (.int b) = .ok (.bool (a.toInt ≤ b.toInt))
  eq : Value.operate "==" (.int a) (.int b) = .ok (.bool (a.toInt = b.toInt))
  same : Value.operate "==" (.int a) (.int b) = .ok (.bool ((Value.int a).same (.int b)))

theorem operate_symbol (o : Operator) (a b : Int64) :
    Value.operate o.symbol (.int a) (.int b) = o.apply a b := by
  simp only [Value.operate, Operator.ofSymbol?_symbol]

theorem operate_comparison {o : Operator} {a b : Int64} {p q : Prop} [Decidable p] [Decidable q]
    (applied : o.apply a b = .ok (.bool p)) (agree : p ↔ q) :
    Value.operate o.symbol (.int a) (.int b) = .ok (.bool q) := by
  rw [operate_symbol, applied, decide_eq_decide.mpr agree]

theorem operators_compute (a b : Int64) : Operator.Computes a b where
  add := ⟨a + b, operate_symbol .add a b, wraps_of_bmod (Int64.toInt_add a b)⟩
  sub := ⟨a - b, operate_symbol .sub a b, wraps_of_bmod (Int64.toInt_sub a b)⟩
  mul := ⟨a * b, operate_symbol .mul a b, wraps_of_bmod (Int64.toInt_mul a b)⟩
  div := by
    intro divisor
    refine ⟨a / b, (operate_symbol .div a b).trans (if_neg divisor), ?_⟩
    exact wraps_of_bmod (Int64.toInt_div a b)
  mod := by
    intro divisor
    refine ⟨a % b, (operate_symbol .mod a b).trans (if_neg divisor), ?_⟩
    rw [Int64.toInt_mod]
    refine remainder_tmod fun zero => divisor ?_
    exact Int64.toInt_inj.mp zero
  recombined := by
    intro divisor n s st
    have quotient := (operate_symbol .div a b).trans (if_neg divisor)
    have product := operate_symbol .mul (a / b) b
    have remainder := (operate_symbol .mod a b).trans (if_neg divisor)
    have sum := operate_symbol .add (a / b * b) (a % b)
    rw [Operator.apply, div_mul_add_mod] at sum
    have whole := eval_binary (eval_binary (eval_int n s a st) (eval_int n s b st) quotient)
      (eval_int (n + 1) s b st) product
    have rest := eval_binary (eval_int (n + 1) s a st) (eval_int (n + 1) s b st) remainder
    exact eval_binary whole rest sum
  gt := operate_comparison (o := .gt) rfl Int64.lt_iff_toInt_lt
  ge := operate_comparison (o := .ge) rfl Int64.le_iff_toInt_le
  lt := operate_comparison (o := .lt) rfl Int64.lt_iff_toInt_lt
  le := operate_comparison (o := .le) rfl Int64.le_iff_toInt_le
  eq := operate_comparison (o := .eq) rfl Int64.toInt_inj.symm
  same := operate_symbol .eq a b

/-- An operator fails on operands that are not both integers and on a division by zero, gives null
if it is not known, and otherwise gives what exact integers would give, wrapped at 64 bits. -/
theorem operators_follow_integers :
    (∀ op l r, Operator.Sorts op l r (Value.operate op l r)) ∧ ∀ a b, Operator.Computes a b :=
  ⟨fun _ _ _ => (operates_iff.mpr rfl).sorts, operators_compute⟩

theorem least_int_divided :
    (Int64.minValue.toInt.tdiv (-1) = 2 ^ 63 ∧
      ∃ q, Value.operate "/" (.int Int64.minValue) (.int (-1)) = .ok (.int q) ∧
        Wraps (2 ^ 63) q) ∧
      (∃ m, Value.operate "%" (.int Int64.minValue) (.int (-1)) = .ok (.int m) ∧
        Remainder Int64.minValue.toInt (-1) m.toInt) ∧
      eval 4 0 (.recombined Int64.minValue (-1)) ⟨.empty, .unlimited, #[]⟩
        = .value (.int Int64.minValue) ⟨.empty, .unlimited, #[]⟩ := by
  obtain ⟨-, computes⟩ := operators_follow_integers
  have exact := computes Int64.minValue (-1)
  exact ⟨⟨by decide, exact.div (by decide)⟩, exact.mod (by decide),
    exact.recombined (by decide) 0 0 _⟩

end Treewalk

import Treewalk.Fault
import Treewalk.Value.Basic

/-! Binary operators. Operands are checked before the operator is looked at: an operator that
is not known still asks for two integers, and then yields null. Arithmetic wraps at 64 bits,
division goes toward zero and a remainder has the sign of the dividend. -/
namespace Treewalk

inductive Operator where
  | add | sub | mul | div | mod
  | gt | ge | lt | le | eq
deriving DecidableEq

namespace Operator

def all : List Operator := [add, sub, mul, div, mod, gt, ge, lt, le, eq]

def symbol : Operator → Text
  | add => "+"
  | sub => "-"
  | mul => "*"
  | div => "/"
  | mod => "%"
  | gt => ">"
  | ge => ">="
  | lt => "<"
  | le => "<="
  | eq => "=="

def ofSymbol? (t : Text) : Option Operator := all.find? fun o => o.symbol = t

theorem ofSymbol?_symbol (o : Operator) : ofSymbol? o.symbol = some o := by
  cases o <;> decide

def apply (a b : Int64) : Operator → Except Fault Value
  | add => .ok (.int (a + b))
  | sub => .ok (.int (a - b))
  | mul => .ok (.int (a * b))
  | div => if b = 0 then .error (.zeroDivisor a) else .ok (.int (a / b))
  | mod => if b = 0 then .error (.zeroModulus a) else .ok (.int (a % b))
  | gt => .ok (.bool (b < a))
  | ge => .ok (.bool (b ≤ a))
  | lt => .ok (.bool (a < b))
  | le => .ok (.bool (a ≤ b))
  | eq => .ok (.bool (a = b))

end Operator

def Value.operate (op : Text) (left right : Value) : Except Fault Value :=
  match left, right with
  | .int a, .int b =>
    match Operator.ofSymbol? op with
    | some o => o.apply a b
    | none => .ok .null
  | .int _, other => .error (.operandNotInt op other.text)
  | other, _ => .error (.operandNotInt op other.text)

end Treewalk

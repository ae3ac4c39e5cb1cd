import Treewalk.Tree.Basic

/-! Values of the language. A closure carries an identity of its own, given when it is made;
two closures are the same value only if they are one and the same closure. -/
namespace Treewalk

abbrev ScopeId := Nat

structure Closure where
  identity : Nat
  params : List Name
  body : Tree
  scope : Option ScopeId

inductive Value where
  | int (n : Int64)
  | bool (b : Bool)
  | null
  | closure (c : Closure)

namespace Value

def text : Value → Text
  | .int n => Text.int64 n
  | .bool b => Text.truth b
  | .null => "null"
  | .closure c => Text.ofString "<function(" ++ Text.commaList c.params ++ Text.ofString ")>"

/-- Equality as programs see it: closures by identity, values of different types never. -/
def same : Value → Value → Bool
  | .int a, .int b => a = b
  | .bool a, .bool b => a = b
  | .null, .null => true
  | .closure a, .closure b => a.identity = b.identity
  | _, _ => false

theorem same_comm (a b : Value) : a.same b = b.same a := by
  cases a <;> cases b <;> simp [same, eq_comm]

theorem same_refl (a : Value) : a.same a = true := by
  cases a <;> simp [same]

end Value
end Treewalk

import Mathlib.Logic.Relation
import Treewalk.Proofs.Eval.Rules

/-! Evaluations inside of evaluations. An activation is a phrase about to be evaluated, with the
values that the evaluations around it have computed and still need. One activation starts others:
those of its operands, branches, rounds and arguments, and that of the body of a function it
calls. -/
namespace Treewalk

def Phrase.values : Phrase → List Value
  | .loop _ _ last => [last]
  | .call c values _ => .closure c :: values
  | _ => []

structure Activation where
  scope : ScopeId
  phrase : Phrase
  state : State
  pending : List Value

namespace Activation

/-- The first activation starts the second one, at once or after others that ended with values. -/
inductive Starts : Activation → Activation → Prop where
  | operand {s st pending operand} :
    Starts ⟨s, .tree (.print operand), st, pending⟩ ⟨s, .tree operand, st, pending⟩
  | left {s st pending left op right} :
    Starts ⟨s, .tree (.binary left op right), st, pending⟩ ⟨s, .tree left, st, pending⟩
  | right {s st pending left op right l st₁} : Evaluates s (.tree left) st (.value l st₁) →
    Starts ⟨s, .tree (.binary left op right), st, pending⟩ ⟨s, .tree right, st₁, l :: pending⟩
  | thenDo {s st pending condition thenDo elseDo} :
    Starts ⟨s, .tree (.ifElse condition thenDo elseDo), st, pending⟩ ⟨s, .tree thenDo, st, pending⟩
  | elseDo {s st pending condition thenDo elseDo a st₁} :
    Evaluates s (.tree thenDo) st (.value a st₁) →
    Starts ⟨s, .tree (.ifElse condition thenDo elseDo), st, pending⟩
      ⟨s, .branch elseDo, st₁, a :: pending⟩
  | selector {s st pending condition thenDo elseDo a b st₁ st₂} :
    Evaluates s (.tree thenDo) st (.value a st₁) → Evaluates s (.branch elseDo) st₁ (.value b st₂) →
    Starts ⟨s, .tree (.ifElse condition thenDo elseDo), st, pending⟩
      ⟨s, .condition condition, st₂, b :: a :: pending⟩
  | branch {s st pending t} : t ≠ .missing →
    Starts ⟨s, .branch t, st, pending⟩ ⟨s, .tree t, st, pending⟩
  | condition {s st pending t} : Starts ⟨s, .condition t, st, pending⟩ ⟨s, .tree t, st, pending⟩
  | loop {s st pending condition body} :
    Starts ⟨s, .tree (.loop condition body), st, pending⟩
      ⟨s, .loop condition body .null, st, pending⟩
  | test {s st pending condition body last} :
    Starts ⟨s, .loop condition body last, st, pending⟩
      ⟨s, .condition condition, st, last :: pending⟩
  | round {s st pending condition body last st₁} :
    Evaluates s (.condition condition) st (.value (.bool true) st₁) →
    Starts ⟨s, .loop condition body last, st, pending⟩ ⟨s, .tree body, st₁, pending⟩
  | again {s st pending condition body last v st₁ st₂} :
    Evaluates s (.condition condition) st (.value (.bool true) st₁) →
    Evaluates s (.tree body) st₁ (.value v st₂) →
    Starts ⟨s, .loop condition body last, st, pending⟩ ⟨s, .loop condition body v, st₂, pending⟩
  | first {s st pending first second} :
    Starts ⟨s, .tree (.seq first second), st, pending⟩ ⟨s, .tree first, st, pending⟩
  | second {s st pending first second v st₁} : Evaluates s (.tree first) st (.value v st₁) →
    Starts ⟨s, .tree (.seq first second), st, pending⟩ ⟨s, .tree second, st₁, pending⟩
  | init {s st pending name init} :
    Starts ⟨s, .tree (.declare name init), st, pending⟩ ⟨s, .tree init, st, pending⟩
  | expr {s st pending name expr} :
    Starts ⟨s, .tree (.assign name expr), st, pending⟩ ⟨s, .tree expr, st, pending⟩
  | callee {s st pending callee args} :
    Starts ⟨s, .tree (.call callee args), st, pending⟩ ⟨s, .tree callee, st, pending⟩
  | call {s st pending callee args c st₁} :
    Evaluates s (.tree callee) st (.value (.closure c) st₁) →
    Starts ⟨s, .tree (.call callee args), st, pending⟩ ⟨s, .call c [] args, st₁, pending⟩
  | argument {s st pending c values arg rest} :
    Starts ⟨s, .call c values (arg :: rest), st, pending⟩
      ⟨s, .tree arg, st, .closure c :: values ++ pending⟩
  | next {s st pending c values arg rest v st₁} : Evaluates s (.tree arg) st (.value v st₁) →
    Starts ⟨s, .call c values (arg :: rest), st, pending⟩
      ⟨s, .call c (values ++ [v]) rest, st₁, pending⟩
  | body {s st pending c values store} :
    Binds st.store.scopes.size c.params values (st.opened c values.length).store none store →
    Starts ⟨s, .call c values [], st, pending⟩
      ⟨st.store.scopes.size, .tree c.body, { st.opened c values.length with store }, pending⟩

end Activation
end Treewalk

import Treewalk.Eval.Run
import Treewalk.Tree.Printer
import Treewalk.Value.Operator

/-! Evaluation of trees. Operands, arguments and statements go from left to right. Both
branches of a conditional are evaluated before its condition, so the effects of both always
happen and the condition only selects a result. Any fault ends the whole evaluation. -/
namespace Treewalk

def literal (type : AtomType) (lexeme : Text) : Except Fault Value :=
  if type = .int then
    match Text.readInt64 lexeme with
    | some n => .ok (.int n)
    | none => .error (.notAnInt lexeme)
  else if type = .bool then
    match Text.readTruth lexeme with
    | some b => .ok (.bool b)
    | none => .error (.notABool lexeme)
  else if type = .null then .ok .null
  else .error (.unknownAtom type)

def truthOf (condition : Tree) : Value → Except Fault Bool
  | .bool b => .ok b
  | v => .error (.conditionNotBool condition.text v.text)

/-- Binds parameters in a scope, in order. A parameter without an argument is null, and
arguments without a parameter are dropped. -/
def bindParams (s : ScopeId) : List Name → List Value → Run Unit
  | [], _ => Run.pure ()
  | p :: params, args => do
    Run.create s p (args.headD .null)
    bindParams s params args.tail

/-- The scope in which a closure's body runs: a fresh child of the captured scope, or a global
scope if the closure captured none. -/
def enter (c : Closure) (args : List Value) : Run ScopeId := do
  Run.noteMismatch c.params.length args.length
  let s ← Run.newScope c.scope
  bindParams s c.params args
  return s

def invoke (evaluate : ScopeId → Tree → Run Value) (c : Closure) (args : List Value) :
    Run Value := do
  let s ← enter c args
  evaluate s c.body

/-- Evaluates a tree in a scope. The first argument bounds the depth of nested evaluations and
the length of each loop. -/
def eval : Nat → ScopeId → Tree → Run Value
  | 0, _, _ => Run.exhausted
  | n + 1, s, t =>
    match t with
    | .missing => Run.fail .missingNode
    | .atom type lexeme => Run.lift (literal type lexeme)
    | .var name => Run.resolve s name
    | .print operand => do
      let v ← eval n s operand
      Run.print v
      return v
    | .binary left op right => do
      let l ← eval n s left
      let r ← eval n s right
      Run.lift (Value.operate op l r)
    | .ifElse condition thenDo elseDo => do
      let a ← eval n s thenDo
      let b ← match elseDo with
        | .missing => Run.pure .null
        | other => eval n s other
      let c ← eval n s condition
      let holds ← Run.lift (truthOf condition c)
      return if holds then a else b
    | .loop condition body =>
      Run.iterate
        (do let c ← eval n s condition; Run.lift (truthOf condition c))
        (eval n s body) n .null
    | .seq first second => do
      let _ ← eval n s first
      eval n s second
    | .declare name init => do
      let v ← eval n s init
      Run.create s name v
      return v
    | .assign name expr => do
      let v ← eval n s expr
      Run.update s name v
      Run.resolve s name
    | .function params body => Run.newClosure params body s
    | .call callee args => do
      let f ← eval n s callee
      match f with
      | .closure c => do
        let vs ← Run.each (eval n s) args
        invoke (eval n) c vs
      | v => Run.fail (.notAFunction callee.text v.text)

end Treewalk

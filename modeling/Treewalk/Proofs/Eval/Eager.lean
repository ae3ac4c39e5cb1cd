import Treewalk.Proofs.Eval.Rules

/-! Eager positions. A tree cannot come to a value unless everything inside of it is evaluated, once
and in the same scope, but for what stands in the body of a function or of a loop. Both branches of
a conditional are among what is evaluated. -/
namespace Treewalk

namespace Tree

mutual

/-- The trees in eager positions of a tree, in the order in which they come to a value. -/
def eager : Tree → List Tree
  | .missing => [.missing]
  | .atom type lexeme => [.atom type lexeme]
  | .var name => [.var name]
  | .print operand => operand.eager ++ [.print operand]
  | .binary left op right => left.eager ++ right.eager ++ [.binary left op right]
  | .ifElse condition thenDo elseDo =>
    thenDo.eager ++ elseDo.eager ++ condition.eager ++ [.ifElse condition thenDo elseDo]
  | .loop condition body => condition.eager ++ [.loop condition body]
  | .seq first second => first.eager ++ second.eager ++ [.seq first second]
  | .declare name init => init.eager ++ [.declare name init]
  | .assign name expr => expr.eager ++ [.assign name expr]
  | .function params body => [.function params body]
  | .call callee args => callee.eager ++ eagerAll args ++ [.call callee args]

def eagerAll : List Tree → List Tree
  | [] => []
  | t :: rest => t.eager ++ eagerAll rest

end

def isCall : Tree → Bool
  | .call _ _ => true
  | _ => false

def isDeclaration (name : Name) : Tree → Bool
  | .declare other _ => other = name
  | _ => false

def declarations (t : Tree) (name : Name) : Nat := t.eager.countP (isDeclaration name)

end Tree

def Phrase.eager : Phrase → List Tree
  | .tree t | .branch t | .condition t => t.eager
  | .loop test _ _ => test.eager
  | .call _ _ rest => Tree.eagerAll rest

end Treewalk

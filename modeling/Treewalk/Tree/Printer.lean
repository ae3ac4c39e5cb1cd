import Treewalk.Tree.Basic

/-! The compact printed form of a tree, used in messages. It is not meant to be read back:
operators are always bracketed and sequences never are. -/
namespace Treewalk.Tree

mutual

def text : Tree → Text
  | .missing => "<invalid>"
  | .atom type lexeme => if type = .null then "null" else lexeme
  | .var name => name
  | .print operand => Text.ofString "print(" ++ operand.text ++ Text.ofString ")"
  | .binary left op right =>
    Text.ofString "(" ++ left.text ++ Text.ofString " " ++ op ++ Text.ofString " " ++ right.text
      ++ Text.ofString ")"
  | .ifElse condition thenDo .missing =>
    Text.ofString "if (" ++ condition.text ++ Text.ofString ") \x7b " ++ thenDo.text
      ++ Text.ofString " \x7d"
  | .ifElse condition thenDo elseDo =>
    Text.ofString "if (" ++ condition.text ++ Text.ofString ") \x7b " ++ thenDo.text
      ++ Text.ofString " \x7d else \x7b " ++ elseDo.text ++ Text.ofString " \x7d"
  | .loop condition body =>
    Text.ofString "while (" ++ condition.text ++ Text.ofString ") \x7b " ++ body.text
      ++ Text.ofString " \x7d"
  | .seq first second => first.text ++ Text.ofString "; " ++ second.text
  | .declare name init => Text.ofString "var " ++ name ++ Text.ofString " = " ++ init.text
  | .assign name expr => name ++ Text.ofString " = " ++ expr.text
  | .function params body =>
    Text.ofString "function(" ++ Text.commaList params ++ Text.ofString ") \x7b " ++ body.text
      ++ Text.ofString " \x7d"
  | .call callee args =>
    callee.text ++ Text.ofString "(" ++ Text.commaList (texts args) ++ Text.ofString ")"

def texts : List Tree → List Text
  | [] => []
  | t :: rest => t.text :: texts rest

end

theorem texts_eq_map (trees : List Tree) : texts trees = trees.map text := by
  induction trees with
  | nil => simp [texts]
  | cons t rest ih => simp [texts, ih]

end Treewalk.Tree

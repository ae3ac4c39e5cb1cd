import Treewalk.Text.Integer
import Treewalk.Text.Truth

/-! Program trees. A tree is plain data: literals keep their lexeme unread, and a place where a
node is absent holds `missing`, which only an `else` branch may do in a complete program. -/
namespace Treewalk

abbrev Name := Text

/-- The class of a literal. Codes other than the three named ones can be written down but
denote nothing. -/
structure AtomType where
  code : UInt8
deriving DecidableEq

namespace AtomType

def int : AtomType := ⟨1⟩

def bool : AtomType := ⟨2⟩

def null : AtomType := ⟨3⟩

def text (type : AtomType) : Text :=
  if type = int then "int"
  else if type = bool then "bool"
  else if type = null then "null"
  else Text.ofString "unknown:" ++ Text.natural type.code.toNat

end AtomType

inductive Tree where
  | missing
  | atom (type : AtomType) (lexeme : Text)
  | var (name : Name)
  | print (operand : Tree)
  | binary (left : Tree) (op : Text) (right : Tree)
  | ifElse (condition thenDo elseDo : Tree)
  | loop (condition body : Tree)
  | seq (first second : Tree)
  | declare (name : Name) (init : Tree)
  | assign (name : Name) (expr : Tree)
  | function (params : List Name) (body : Tree)
  | call (callee : Tree) (args : List Tree)

namespace Tree

def int (n : Int64) : Tree := .atom .int (Text.int64 n)

def bool (b : Bool) : Tree := .atom .bool (Text.truth b)

def null : Tree := .atom .null []

def block (first : Tree) (rest : List Tree) : Tree := rest.foldl .seq first

@[simp] theorem block_nil (first : Tree) : block first [] = first := rfl

theorem block_cons (first next : Tree) (rest : List Tree) :
    block first (next :: rest) = block (.seq first next) rest := rfl

theorem block_append_singleton (first last : Tree) (rest : List Tree) :
    block first (rest ++ [last]) = .seq (block first rest) last := by
  simp [block]

end Tree
end Treewalk

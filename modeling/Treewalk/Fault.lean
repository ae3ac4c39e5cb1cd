import Treewalk.ErrorKind
import Treewalk.Tree.Basic

/-! Reasons for which an evaluation fails. A fault keeps the texts that its message shows, so
two runs that differ only in identities fail with equal faults. -/
namespace Treewalk

inductive Fault where
  | missingNode
  | notAnInt (lexeme : Text)
  | notABool (lexeme : Text)
  | unknownAtom (type : AtomType)
  | operandNotInt (op : Text) (operand : Text)
  | conditionNotBool (condition : Text) (value : Text)
  | zeroDivisor (dividend : Int64)
  | zeroModulus (dividend : Int64)
  | alreadyDeclared (name : Name)
  | notAFunction (callee : Text) (value : Text)
  | refusedPrint (value : Text)

namespace Fault

def detail : Fault → Text
  | .missingNode => "missing node"
  | .notAnInt lexeme => Text.shown lexeme ++ Text.ofString " is not an int"
  | .notABool lexeme => Text.shown lexeme ++ Text.ofString " is not a bool"
  | .unknownAtom type => Text.ofString "invalid atom type: " ++ type.text
  | .operandNotInt op operand =>
    Text.shown op ++ Text.ofString " only supported between ints but got: " ++ Text.shown operand
  | .conditionNotBool condition value =>
    Text.ofString "condition " ++ condition
      ++ Text.ofString " does not evaluate to a boolean but: " ++ Text.shown value
  | .zeroDivisor dividend => Text.int64 dividend ++ Text.ofString " / 0"
  | .zeroModulus dividend => Text.int64 dividend ++ Text.ofString " % 0"
  | .alreadyDeclared name => Text.shown name ++ Text.ofString " is already defined in this scope"
  | .notAFunction callee value => callee ++ Text.ofString " evaluates to " ++ Text.shown value
  | .refusedPrint value => Text.ofString "could not print " ++ Text.shown value

/-- What lies under the fault: one of the error kinds, or the closed sink. -/
def root : Fault → Cause
  | .missingNode => .kind .malformedTree
  | .notAnInt _ | .notABool _ | .unknownAtom _ => .kind .malformedLiteral
  | .operandNotInt _ _ | .conditionNotBool _ _ => .kind .typeMismatch
  | .zeroDivisor _ | .zeroModulus _ => .kind .divisionByZero
  | .alreadyDeclared _ => .kind .duplicateDeclaration
  | .notAFunction _ _ => .kind .notCallable
  | .refusedPrint _ => .other "sink closed"

def cause (f : Fault) : Cause := .wrap f.detail f.root

def kind? (f : Fault) : Option ErrorKind := f.cause.kind?

/-- A fault of a kind is headed by the kind; a refused print is explained at the end. -/
def message (f : Fault) : Text :=
  match f.root with
  | .kind k => k.heading ++ Text.ofString ": " ++ f.detail
  | .other note => f.detail ++ Text.ofString ": " ++ note
  | _ => f.detail

end Fault
end Treewalk

import Treewalk.Text

/-! Kinds of errors, in the order in which a classification looks for them, and error trees:
errors that wrap others or join several. The kind of an error tree is the earliest kind that
occurs anywhere in it. -/
namespace Treewalk

inductive ErrorKind where
  | duplicateDeclaration
  | typeMismatch
  | divisionByZero
  | notCallable
  | malformedTree
  | malformedLiteral
deriving DecidableEq

namespace ErrorKind

def all : List ErrorKind :=
  [duplicateDeclaration, typeMismatch, divisionByZero, notCallable, malformedTree,
    malformedLiteral]

theorem mem_all (k : ErrorKind) : k ∈ all := by cases k <;> decide

def label : ErrorKind → Text
  | duplicateDeclaration => "duplicate_declaration"
  | typeMismatch => "type_mismatch"
  | divisionByZero => "division_by_zero"
  | notCallable => "not_callable"
  | malformedTree => "malformed_tree"
  | malformedLiteral => "malformed_literal"

def heading : ErrorKind → Text
  | duplicateDeclaration => "duplicate declaration"
  | typeMismatch => "type mismatch"
  | divisionByZero => "division by zero"
  | notCallable => "not callable"
  | malformedTree => "malformed tree"
  | malformedLiteral => "malformed literal"

def ofLabel? (t : Text) : Option ErrorKind := all.find? fun k => k.label = t

def labelOf : Option ErrorKind → Text
  | some k => k.label
  | none => "unknown"

end ErrorKind

/-- An error as a tree of what it wraps. -/
inductive Cause where
  | kind (k : ErrorKind)
  | other (note : Text)
  | wrap (note : Text) (cause : Cause)
  | join (causes : List Cause)

namespace Cause

mutual

def wraps (k : ErrorKind) : Cause → Bool
  | .kind k' => k' = k
  | .other _ => false
  | .wrap _ cause => cause.wraps k
  | .join causes => anyWraps k causes

def anyWraps (k : ErrorKind) : List Cause → Bool
  | [] => false
  | c :: rest => c.wraps k || anyWraps k rest

end

theorem anyWraps_eq_any (k : ErrorKind) (causes : List Cause) :
    anyWraps k causes = causes.any (wraps k) := by
  induction causes with
  | nil => simp [anyWraps]
  | cons c rest ih => simp [anyWraps, ih]

def kind? (c : Cause) : Option ErrorKind := ErrorKind.all.find? fun k => c.wraps k

end Cause
end Treewalk

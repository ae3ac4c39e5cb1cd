import Treewalk.Yaml.Cursor

/-! The gap between two pieces of a scalar that may run over several lines. Blanks within a line
are kept; a single line break becomes a blank and the first of several is dropped. -/
namespace Treewalk.Yaml

inductive Gap where
  | none
  | blanks (text : List Char)
  | breaks (first more : List Char)

def foldBreaks (first more : List Char) : List Char :=
  if first = ['\n'] then if more = [] then [' '] else more else first ++ more

namespace Gap

open Scan

def text : Gap → List Char
  | .none => []
  | .blanks text => text
  | .breaks first more => foldBreaks first more

def isBroken : Gap → Bool
  | .breaks _ _ => true
  | _ => false

def addBlank (ch : Char) : Gap → Gap
  | .none => .blanks [ch]
  | .blanks text => .blanks (text ++ [ch])
  | gap => gap

def addBreak (text : List Char) : Gap → Gap
  | .breaks first more => .breaks first (more ++ text)
  | _ => .breaks text []

/-- Scans blanks and breaks. Behind a break, a tab left of the column `indent` is refused. -/
def scan (indent : Nat) : Nat → Gap → Scan Gap
  | 0, gap => return gap
  | n + 1, gap => do
    let ch ← peek
    if isBlank ch then
      if gap.isBroken ∧ (← column) < indent ∧ ch = '\t' then failure
      else
        advance
        scan indent n (gap.addBlank ch)
    else if isBreak ch then scan indent n (gap.addBreak (← lineBreak))
    else return gap

end Gap
end Treewalk.Yaml

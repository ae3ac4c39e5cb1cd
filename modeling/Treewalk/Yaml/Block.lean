import Treewalk.Yaml.Fold

/-! Literal and folded block scalars. The indentation is that of the first line that is not
empty, unless the header gives it. -/
namespace Treewalk.Yaml.Block

open Scan

inductive Chomp where
  | strip
  | clip
  | keep
deriving DecidableEq

def chomp? : Char → Option Chomp
  | '-' => some .strip
  | '+' => some .keep
  | _ => none

def increment : Scan Nat := do
  let ch ← peek
  if ch = '0' then failure
  else if ch.isDigit then
    advance
    return ch.toNat - '0'.toNat
  else return 0

def header : Scan (Chomp × Nat) := do
  match chomp? (← peek) with
  | some chomp =>
    advance
    return (chomp, ← increment)
  | none =>
    let increment ← increment
    if increment = 0 then return (.clip, 0)
    else
      match chomp? (← peek) with
      | some chomp =>
        advance
        return (chomp, increment)
      | none => return (.clip, increment)

/-- Steps over indentation and empty lines; gives the widest indentation seen and the breaks. An
`indent` of zero means that it is not known yet. -/
def skipEmpty (indent : Nat) : Nat → Nat → List Char → Scan (Nat × List Char)
  | 0, widest, breaks => return (widest, breaks)
  | n + 1, widest, breaks => do
    indentation (← rounds)
    let column ← column
    let ch ← look 0
    if (indent = 0 ∨ column < indent) ∧ ch = '\t' then failure
    else if isBreak ch then skipEmpty indent n (max widest column) (breaks ++ (← lineBreak))
    else return (max widest column, breaks)
where
  indentation : Nat → Scan Unit
    | 0 => return
    | n + 1 => do
      let ch ← peek
      if ch = ' ' ∧ (indent = 0 ∨ (← column) < indent) then
        advance
        indentation n

structure Seam where
  lastBreak : List Char
  emptyBreaks : List Char
  blankStart : Bool

/-- The text between two lines. A folded break between lines that do not start with a blank
becomes a blank, or vanishes if empty lines follow it. -/
def Seam.text (literal : Bool) (seam : Seam) (blank : Bool) : List Char :=
  let joint :=
    if !literal && !seam.blankStart && !blank && seam.lastBreak = ['\n'] then
      if seam.emptyBreaks = [] then [' '] else []
    else seam.lastBreak
  joint ++ seam.emptyBreaks

def Seam.tail (chomp : Chomp) (seam : Seam) : List Char :=
  (if chomp = .strip then [] else seam.lastBreak)
    ++ (if chomp = .keep then seam.emptyBreaks else [])

def scanLines (literal : Bool) (chomp : Chomp) (indent : Nat) :
    Nat → Seam → List Char → Scan (List Char)
  | 0, seam, taken => return taken.reverse ++ seam.tail chomp
  | n + 1, seam, taken => do
    let ch ← peek
    if (← column) = indent ∧ ch ≠ ending then
      let blank := isBlank ch
      let line ← takeWhile fun ch => !endsLine ch
      let taken := line.reverse ++ (seam.text literal blank).reverse ++ taken
      let lastBreak ← lineBreak
      let (_, emptyBreaks) ← skipEmpty indent (← rounds) 0 []
      scanLines literal chomp indent n ⟨lastBreak, emptyBreaks, blank⟩ taken
    else return taken.reverse ++ seam.tail chomp

def scan (literal : Bool) (parent : Option Nat) : Scan (List Char) := do
  advance
  let (chomp, increment) ← header
  skipWhile isBlank
  if (← peek) = '#' then skipLine
  let ch ← look 0
  if !endsLine ch then failure
  else
    if isBreak ch then discard lineBreak
    let least := (parent.map (· + 1)).getD 0
    let given := if increment = 0 then 0 else parent.getD 0 + increment
    let (widest, emptyBreaks) ← skipEmpty given (← rounds) 0 []
    let indent := if given = 0 then max (max widest least) 1 else given
    scanLines literal chomp indent (← rounds) ⟨[], emptyBreaks, false⟩ []

end Treewalk.Yaml.Block

import Treewalk.Yaml.Fold

/-! Scalars without quotes. They end at a colon before a blank, at a comment, and inside brackets
at the symbols that have a meaning there; further lines must be indented. -/
namespace Treewalk.Yaml.Plain

open Scan

def isBracketSymbol (ch : Char) : Bool := ch ∈ [',', '?', '[', ']', '\x7b', '\x7d']

/-- Scans up to the next blank or the end of the scalar. The text so far comes last first. -/
def word (inFlow : Bool) : Nat → List Char → Scan (List Char)
  | 0, taken => return taken
  | n + 1, taken => do
    let ch ← look 0
    if endsWord ch || (ch = ':' && endsWord (← look 1)) || (inFlow && isBracketSymbol ch) then
      return taken
    else
      advance
      need 2
      word inFlow n (ch :: taken)

def scanFrom (inFlow : Bool) (indent : Nat) :
    Nat → Gap → List Char → Scan (List Char × Bool)
  | 0, gap, taken => return (taken.reverse, gap.isBroken)
  | n + 1, gap, taken => do
    need 4
    let piece ← if (← atDocumentMarker) || (← look 0) = '#' then pure [] else word inFlow (← rounds) []
    if piece = [] then return (taken.reverse, gap.isBroken)
    else
      let taken := piece ++ gap.text.reverse ++ taken
      let ch ← look 0
      if isBlank ch || isBreak ch then
        let gap ← Gap.scan indent (← rounds) .none
        if !inFlow && (← column) < indent then return (taken.reverse, gap.isBroken)
        else scanFrom inFlow indent n gap taken
      else return (taken.reverse, false)

def scan (inFlow : Bool) (indent : Nat) : Scan (List Char × Bool) := do
  scanFrom inFlow indent (← rounds) .none []

end Treewalk.Yaml.Plain

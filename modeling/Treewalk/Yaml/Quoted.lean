import Treewalk.Yaml.Fold

/-! Scalars in single or double quotes. Only double quotes know escapes. -/
namespace Treewalk.Yaml.Quoted

open Scan

def hexValue? (c : Char) : Option Nat :=
  if c.isDigit then some (c.toNat - '0'.toNat)
  else if 'a' ≤ c && c ≤ 'f' then some (c.toNat - 'a'.toNat + 10)
  else if 'A' ≤ c && c ≤ 'F' then some (c.toNat - 'A'.toNat + 10)
  else none

def hexNumber? (digits : List Char) : Option Nat :=
  digits.foldlM (fun n ch => (hexValue? ch).map (n * 16 + ·)) 0

def shortEscape? : Char → Option Char
  | '0' => some '\x00'
  | 'a' => some '\x07'
  | 'b' => some '\x08'
  | 't' | '\t' => some '\t'
  | 'n' => some '\n'
  | 'v' => some '\x0b'
  | 'f' => some '\x0c'
  | 'r' => some '\r'
  | 'e' => some '\x1b'
  | ' ' => some ' '
  | '"' => some '"'
  | '\'' => some '\''
  | '\\' => some '\\'
  | 'N' => some '\u0085'
  | '_' => some '\u00a0'
  | 'L' => some '\u2028'
  | 'P' => some '\u2029'
  | _ => none

def escapeWidth? : Char → Option Nat
  | 'x' => some 2
  | 'u' => some 4
  | 'U' => some 8
  | _ => none

def escape : Scan Char := do
  let letter ← look 1
  advanceBy 2
  match shortEscape? letter with
  | some ch => return ch
  | none =>
    match escapeWidth? letter with
    | none => failure
    | some width =>
      need width
      match hexNumber? (← (List.range width).mapM look) with
      | none => failure
      | some n =>
        if n < 0xD800 ∨ (0xDFFF < n ∧ n ≤ 0x10FFFF) then
          advanceBy width
          return Char.ofNat n
        else failure

def closing (single : Bool) : Char := if single then '\'' else '"'

/-- Scans up to a blank, a break or the closing quote. The text so far comes last first; the flag
tells whether an escaped line break ended the scan. -/
def word (single : Bool) : Nat → List Char → Scan (List Char × Bool)
  | 0, taken => return (taken, false)
  | n + 1, taken => do
    let ch ← look 0
    let next ← look 1
    if endsWord ch then return (taken, false)
    else if single && ch = '\'' && next = '\'' then
      advanceBy 2
      need 2
      word single n ('\'' :: taken)
    else if ch = closing single then return (taken, false)
    else if !single && ch = '\\' then
      if isBreak next then
        need 3
        advance
        discard takeBreak
        return (taken, true)
      else
        let ch ← escape
        need 2
        word single n (ch :: taken)
    else
      advance
      need 2
      word single n (ch :: taken)

/-- Scans from behind the opening quote to behind the closing one. -/
def scanFrom (single : Bool) : Nat → List Char → Scan (List Char)
  | 0, _ => failure
  | n + 1, taken => do
    need 4
    if (← atDocumentMarker) || (← look 0) = ending then failure
    else
      let (piece, escapedBreak) ← word single (← rounds) []
      let taken := piece ++ taken
      if (← peek) = closing single then
        advance
        return taken.reverse
      else
        let gap ← Gap.scan 0 (← rounds) (if escapedBreak then .breaks [] [] else .none)
        scanFrom single n (gap.text.reverse ++ taken)

def scan (single : Bool) : Scan (List Char) := do
  advance
  scanFrom single (← rounds) []

end Treewalk.Yaml.Quoted

import Treewalk.Yaml.Input

/-! A place in the characters of a document: what was taken in and not passed yet, and where it
stands. Scanners say how many characters they are about to look at, and more are taken in only
where these are missing. -/
namespace Treewalk.Yaml

/-- Stands for the end of the document, in which it does not occur. -/
def ending : Char := '\x00'

def isBlank (c : Char) : Bool := c = ' ' || c = '\t'

def isBreak (c : Char) : Bool :=
  c = '\n' || c = '\r' || c = '\u0085' || c = '\u2028' || c = '\u2029'

def endsLine (c : Char) : Bool := isBreak c || c = ending

def endsWord (c : Char) : Bool := isBlank c || endsLine c

def isWord (c : Char) : Bool := c.isAlphanum || c = '_' || c = '-'

def orderMark : Char := '\ufeff'

structure Cursor where
  ahead : List Char
  source : Source
  marked : Bool
  index : Nat
  line : Nat
  column : Nat
  freshLine : Bool
  /-- The number of octets, which bounds the length of every scan. -/
  size : Nat

def Cursor.start (t : Text) : Cursor := ⟨[], .ofText t, false, 0, 0, 0, false, t.length⟩

/-- Takes in characters until there are as many as `count`; the end is taken in as one. -/
def Source.extend (count : Nat) (ahead : List Char) : Source → Option (List Char × Source)
  | .block chars rest =>
    let ahead := ahead ++ chars
    if (ahead.drop (count - 1)).isEmpty then rest.extend count ahead else some (ahead, rest)
  | .finished => some (ahead ++ [ending], .finished)
  | .broken => none

abbrev Scan := StateT Cursor Option

namespace Scan

def need (count : Nat) : Scan Unit := fun c =>
  if (c.ahead.drop (count - 1)).isEmpty then
    (c.source.extend count c.ahead).map fun (ahead, source) =>
      ((), { c with ahead, source, marked := ahead.head? = some orderMark })
  else some ((), c)

def look (distance : Nat) : Scan Char := return (← get).ahead.getD distance ending

def peek : Scan Char := do
  need 1
  look 0

def column : Scan Nat := return (← get).column

def rounds : Scan Nat := return (← get).size + 2

def advance : Scan Unit := modify fun c =>
  { c with
    ahead := c.ahead.tail
    index := c.index + 1
    column := c.column + 1
    freshLine := c.freshLine && c.ahead.head?.any isBlank }

def advanceBy : Nat → Scan Unit
  | 0 => return
  | n + 1 => do
    advance
    advanceBy n

/-- The text of a line break in front, and how many characters it takes: the first three kinds
are line feeds. -/
def breakAt : List Char → List Char × Nat
  | '\r' :: '\n' :: _ => (['\n'], 2)
  | ch :: _ =>
    if ch = '\u2028' ∨ ch = '\u2029' then ([ch], 1) else if isBreak ch then (['\n'], 1) else ([], 0)
  | [] => ([], 0)

def takeBreak : Scan (List Char) := do
  let c ← get
  let (text, width) := breakAt c.ahead
  if width ≠ 0 then
    set { c with
      ahead := c.ahead.drop width
      index := c.index + width
      line := c.line + 1
      column := 0
      freshLine := true }
  return text

def lineBreak : Scan (List Char) := do
  need 2
  takeBreak

def takeUpTo (p : Char → Bool) : Nat → List Char → Scan (List Char)
  | 0, taken => return taken.reverse
  | n + 1, taken => do
    let ch ← peek
    if p ch then
      advance
      takeUpTo p n (ch :: taken)
    else return taken.reverse

/-- Takes characters as long as they satisfy the test, which no break and no end may do. -/
def takeWhile (p : Char → Bool) : Scan (List Char) := do takeUpTo p (← rounds) []

def skipWhile (p : Char → Bool) : Scan Unit := discard (takeWhile p)

def skipLine : Scan Unit := skipWhile fun ch => !endsLine ch

def atMarker (mark : Char) : Scan Bool :=
  return (← column) = 0 && (← look 0) = mark && (← look 1) = mark && (← look 2) = mark
    && endsWord (← look 3)

def atDocumentMarker : Scan Bool := return (← atMarker '-') || (← atMarker '.')

end Scan
end Treewalk.Yaml

import Treewalk.Table
import Treewalk.Yaml.Block
import Treewalk.Yaml.Plain
import Treewalk.Yaml.Quoted
import Treewalk.Yaml.Token

/-! From characters to tokens. Tokens are numbered and wait in a queue until they are asked for;
the lexer goes no further than it must to tell what the token in front is. It keeps the columns of
the open blocks and, for each level of brackets, the place where a key without indicator may have
started; when the colon comes, the key token is put in at that place. -/
namespace Treewalk.Yaml

/-- The start of something that turns out to be a key if a colon follows it. -/
structure PendingKey where
  possible : Bool
  required : Bool
  number : Nat
  index : Nat
  line : Nat
  column : Nat

structure Lexer where
  cursor : Cursor
  queue : List Token
  passed : Nat
  /-- The columns of the open blocks, the innermost first. -/
  indents : List Nat
  /-- The pending keys of all levels of brackets, the level outside brackets first. -/
  keys : Array PendingKey
  starts : Table Nat Nat
  keyAllowed : Bool

abbrev Lex := StateT Lexer Option

namespace Lexer

open Scan

def noKey (number : Nat) : PendingKey := ⟨false, false, number, 0, 0, 0⟩

def start (t : Text) : Lexer := ⟨.start t, [], 0, [], #[noKey 0], [], true⟩

def inFlow (l : Lexer) : Bool := 1 < l.keys.size

def least (l : Lexer) : Nat := (l.indents.head?.map (· + 1)).getD 0

def nextNumber (l : Lexer) : Nat := l.passed + l.queue.length

def level (l : Lexer) : Nat := l.keys.size - 1

def scan {α : Type} (s : Scan α) : Lex α := fun l =>
  (s l.cursor).map fun (a, cursor) => (a, { l with cursor })

def push (t : Token) : Lex Unit := modify fun l => { l with queue := l.queue ++ [t] }

/-- Puts a token in before the one with the given number, or last if that one was handed on. -/
def insert (number : Nat) (t : Token) : Lex Unit := modify fun l =>
  if number < l.passed then { l with queue := l.queue ++ [t] }
  else
    let before := number - l.passed
    { l with queue := l.queue.take before ++ t :: l.queue.drop before }

def allowKey (allowed : Bool) : Lex Unit := modify fun l => { l with keyAllowed := allowed }

def symbol (t : Token) : Lex Unit := do
  scan advance
  push t

def deepest : Nat := 10000

/-- Closes the blocks whose column satisfies the test; outside brackets only. -/
def closeWhile (p : Nat → Bool) : Lex Unit := modify fun l =>
  if l.inFlow then l
  else
    let closed := (l.indents.takeWhile p).length
    { l with
      indents := l.indents.drop closed
      queue := l.queue ++ List.replicate closed .blockEnd }

def openBlock (column : Nat) (emit : Lex Unit) : Lex Unit := do
  let l ← get
  if l.inFlow || column < l.least then return
  else if deepest ≤ l.indents.length then failure
  else
    set { l with indents := column :: l.indents }
    emit

def forget (number : Nat) : Lex Unit := modify fun l =>
  { l with starts := l.starts.filter (·.1 ≠ number) }

def giveUp (level : Nat) : Lex Unit := modify fun l =>
  { l with keys := l.keys.modify level ({ · with possible := false }) }

def dropKey : Lex Unit := do
  let l ← get
  match l.keys.back? with
  | none => return
  | some key =>
    if !key.possible then return
    else if key.required then failure
    else
      giveUp l.level
      forget key.number

def saveKey : Lex Unit := do
  let l ← get
  if l.keyAllowed then
    let c := l.cursor
    let required := !l.inFlow && l.indents.head? = some c.column
    let key : PendingKey := ⟨true, required, l.nextNumber, c.index, c.line, c.column⟩
    dropKey
    modify fun l => { l with keys := l.keys.modify l.level fun _ => key }
    forget key.number
    modify fun l => { l with starts := (key.number, l.level) :: l.starts }

/-- Whether a level has a key that may still get its colon: a key stands on one line and within
1024 characters of its colon. One that is required must get it. -/
def holdsKey (level : Nat) : Lex Bool := do
  let l ← get
  match l.keys[level]? with
  | none => failure
  | some key =>
    if !key.possible then return false
    else if key.line < l.cursor.line || key.index + 1024 < l.cursor.index then
      if key.required then failure
      else
        giveUp level
        return false
    else return true

def reach : Nat := 512

def isNarrowBreak (ch : Char) : Bool := ch = '\n' || ch = '\r'

/-- The distance of a comment that has only blanks before it, or only blanks and narrow breaks if
it may stand on another line. A wide break there makes the lexer look at what follows it. -/
def commentAhead (otherLine : Bool) : Nat → Nat → Scan (Option Nat)
  | 0, _ => return none
  | n + 1, distance => do
    need (distance + 1)
    let ch ← look distance
    if ch = '#' then return some distance
    else if isBlank ch || (otherLine && isNarrowBreak ch) then
      commentAhead otherLine n (distance + 1)
    else
      if otherLine && isBreak ch && n ≠ 0 then need (distance + 2)
      return none

def skipGap (index : Nat) : Nat → Scan Unit
  | 0 => return
  | n + 1 => do
    let ch ← peek
    if index ≤ (← get).index then return
    else
      if isBreak ch then discard lineBreak else advance
      skipGap index n

def skipComments : Nat → Scan Unit
  | 0 => return
  | n + 1 => do
    skipLine
    if isNarrowBreak (← look 0) then
      match ← commentAhead true (reach - 1) 1 with
      | some distance =>
        skipGap ((← get).index + distance) (← rounds)
        skipComments n
      | none => return
    else need 2

/-- Steps over blanks, comments and line breaks to the next token; tells whether a key may start
there. A tab may stand only where no key may start, and behind a line break a key may start. While
the text taken in begins with a byte order mark, the first character of every line is dropped. -/
def skipToToken (inFlow : Bool) : Nat → Bool → Scan Bool
  | 0, keyAllowed => return keyAllowed
  | n + 1, keyAllowed => do
    need 1
    if (← column) = 0 ∧ (← get).marked then advance
    skipWhile fun ch => ch = ' ' || (ch = '\t' && (inFlow || !keyAllowed))
    if (← look 0) = '#' then skipComments (← rounds)
    if isBreak (← look 0) then
      discard lineBreak
      skipToToken inFlow n (keyAllowed || !inFlow)
    else return keyAllowed

def skipLineComment : Scan Unit := do
  if (← get).freshLine then return
  else
    match ← commentAhead false reach 0 with
    | some distance =>
      advanceBy distance
      skipLine
    | none => return

def number : Scan Nat := do
  let digits ← takeWhile Char.isDigit
  if digits = [] ∨ 2 < digits.length then failure
  else return digits.foldl (fun n ch => n * 10 + (ch.toNat - '0'.toNat)) 0

def tagHandle : Scan Text := do
  if (← peek) ≠ '!' then failure
  else
    advance
    let word ← takeWhile isWord
    if (← look 0) = '!' then
      advance
      return Text.Utf8.ofChars ('!' :: word ++ ['!'])
    else return Text.Utf8.ofChars ('!' :: word)

def isTagChar (c : Char) : Bool :=
  isWord c || c ∈ [';', '/', '?', ':', '@', '&', '=', '+', '$', ',', '.', '!', '~', '*', '\'', '(',
    ')', '[', ']']

def percentOctet : Scan UInt8 := do
  need 3
  let sign ← look 0
  match Quoted.hexValue? (← look 1), Quoted.hexValue? (← look 2) with
  | some high, some low =>
    if sign = '%' then
      advanceBy 3
      return (high * 16 + low).toUInt8
    else failure
  | _, _ => failure

def continuations : Nat → Scan Text
  | 0 => return []
  | n + 1 => do
    let b ← percentOctet
    if (Text.Utf8.continuation? b).isNone then failure
    else return b :: (← continuations n)

/-- The octets of one escaped character: as many as the first one calls for, which need not be the
shortest form or denote a character at all. -/
def percentOctets : Scan Text := do
  let first ← percentOctet
  match Encoding.utf8Width? first with
  | none => failure
  | some width => return first :: (← continuations (width - 1))

/-- The octets of a tag, with percent escapes undone. Those so far come last first. -/
def tagOctets : Nat → Text → Scan Text
  | 0, taken => return taken.reverse
  | n + 1, taken => do
    let ch ← peek
    if ch = '%' then
      let octets ← percentOctets
      tagOctets n (octets.reverse ++ taken)
    else if isTagChar ch then
      advance
      tagOctets n (Text.ascii ch :: taken)
    else return taken.reverse

def tag : Scan Token := do
  need 2
  let token ←
    if (← look 1) = '<' then do
      advanceBy 2
      let suffix ← tagOctets (← rounds) []
      if suffix = [] ∨ (← look 0) ≠ '>' then failure
      else
        advance
        pure (Token.tag [] suffix)
    else do
      let handle ← tagHandle
      let suffix ← tagOctets (← rounds) []
      if 1 < handle.length ∧ handle.getLast? = some (Text.ascii '!') then
        if suffix = [] then failure else pure (Token.tag handle suffix)
      else
        let suffix := handle.drop 1 ++ suffix
        pure (if suffix = [] then Token.tag [] "!" else Token.tag "!" suffix)
  if endsWord (← peek) then return token else failure

def anchorName : Scan (List Char) := do
  advance
  let name ← takeWhile isWord
  let ch ← look 0
  let ends := endsWord ch || ch ∈ ['?', ':', ',', ']', '\x7d', '%', '@', '\x60']
  if name = [] ∨ !ends then failure else return name

def versionDirective : Scan Token := do
  skipWhile isBlank
  let major ← number
  if (← look 0) ≠ '.' then failure
  else
    advance
    return .version major (← number)

def tagDirective : Scan Token := do
  skipWhile isBlank
  let handle ← tagHandle
  if handle.getLast? ≠ some (Text.ascii '!') ∨ !isBlank (← peek) then failure
  else
    skipWhile isBlank
    let expansion ← tagOctets (← rounds) []
    if expansion = [] ∨ !endsWord (← peek) then failure else return .tagDirective handle expansion

def directive : Scan Token := do
  advance
  let name ← takeWhile isWord
  let token ←
    if !endsWord (← look 0) then failure
    else if name = "YAML".toList then versionDirective
    else if name = "TAG".toList then tagDirective
    else failure
  skipWhile isBlank
  if (← look 0) = '#' then skipLine
  if endsLine (← look 0) then
    if isBreak (← look 0) then discard lineBreak
    return token
  else failure

def outermost : Lex Unit := do
  closeWhile fun _ => true
  dropKey
  allowKey false

def marker (t : Token) : Lex Unit := do
  outermost
  scan (advanceBy 3)
  push t

def streamEnd : Lex Unit := do
  scan <| modify fun c => if c.column = 0 then c else { c with column := 0, line := c.line + 1 }
  outermost
  push .streamEnd

def openFlow (t : Token) : Lex Unit := do
  saveKey
  let l ← get
  if deepest ≤ l.level then failure
  else
    set { l with keys := l.keys.push (noKey l.nextNumber), keyAllowed := true }
    symbol t

def closeFlow (t : Token) : Lex Unit := do
  dropKey
  let l ← get
  match l.inFlow, l.keys.back? with
  | true, some key =>
    forget key.number
    modify fun l => { l with keys := l.keys.pop }
  | _, _ => pure ()
  allowKey false
  symbol t

def flowEntry : Lex Unit := do
  dropKey
  allowKey true
  symbol .flowEntry

/-- Opens a block at this place, where a key must be allowed. Inside brackets there is nothing to
open. -/
def openHere (t : Token) : Lex Unit := do
  let l ← get
  if l.inFlow then return
  else if l.keyAllowed then openBlock l.cursor.column (push t)
  else failure

def blockEntry : Lex Unit := do
  openHere .blockSequence
  dropKey
  allowKey true
  symbol .blockEntry

def explicitKey : Lex Unit := do
  openHere .blockMapping
  dropKey
  allowKey (!(← get).inFlow)
  symbol .key

def value : Lex Unit := do
  let l ← get
  match l.keys.back?, ← holdsKey l.level with
  | some key, true =>
    insert key.number .key
    openBlock key.column (insert key.number .blockMapping)
    giveUp l.level
    forget key.number
    allowKey false
  | _, _ =>
    openHere .blockMapping
    allowKey (!l.inFlow)
  symbol .value

def content (s : Scan Token) : Lex Unit := do
  saveKey
  allowKey false
  push (← scan s)

def plain : Lex Unit := do
  saveKey
  let l ← get
  let (text, broken) ← scan (Plain.scan l.inFlow l.least)
  allowKey broken
  push (.scalar .plain text)

def block (literal : Bool) : Lex Unit := do
  dropKey
  allowKey true
  push (.scalar .block (← scan (Block.scan literal (← get).indents.head?)))

def quoted (single : Bool) : Lex Unit :=
  content do return .scalar .quoted (← Quoted.scan single)

def isIndicator (c : Char) : Bool :=
  c ∈ ['-', '?', ':', ',', '[', ']', '\x7b', '\x7d', '#', '&', '*', '!', '|', '>', '\'', '"', '%',
    '@', '\x60']

def startsPlain (inFlow : Bool) (ch next : Char) : Bool :=
  !(endsWord ch || isIndicator ch)
    || (ch = '-' && !isBlank next)
    || (!inFlow && (ch = '?' || ch = ':') && !endsWord next)

def token (ch next : Char) : Lex Unit := do
  let inFlow := (← get).inFlow
  let ends := endsWord next
  if ch = '[' then openFlow .flowSequence
  else if ch = '\x7b' then openFlow .flowMapping
  else if ch = ']' then closeFlow .flowSequenceEnd
  else if ch = '\x7d' then closeFlow .flowMappingEnd
  else if ch = ',' then flowEntry
  else if ch = '-' && ends then blockEntry
  else if ch = '?' && (inFlow || ends) then explicitKey
  else if ch = ':' && (inFlow || ends) then value
  else if ch = '*' then content do return .reference (← anchorName)
  else if ch = '&' then content do return .anchor (← anchorName)
  else if ch = '!' then content tag
  else if ch = '|' && !inFlow then block true
  else if ch = '>' && !inFlow then block false
  else if ch = '\'' then quoted true
  else if ch = '"' then quoted false
  else if startsPlain inFlow ch next then plain
  else failure

def next : Lex Unit := do
  scan (need 1)
  let l ← get
  allowKey (← scan do skipToToken l.inFlow (← rounds) l.keyAllowed)
  let column ← scan column
  closeWhile fun indent => column < indent
  scan (need 4)
  let ch ← scan (look 0)
  if ch = ending then streamEnd
  else if column = 0 ∧ ch = '%' then
    outermost
    push (← scan directive)
  else if ← scan (atMarker '-') then marker .documentStart
  else if ← scan (atMarker '.') then marker .documentEnd
  else
    token ch (← scan (look 1))
    if (← get).queue.getLast? ≠ some .blockEntry then scan skipLineComment

/-- Whether the token in front is settled: two more tokens are known, and no key may turn out to
start with it. -/
def isSettled : Lex Bool := do
  let l ← get
  if l.queue.length < 3 then return false
  else
    match l.starts.lookup l.passed with
    | none => return true
    | some level => return !(← holdsKey level)

def settle : Nat → Lex Unit
  | 0 => failure
  | n + 1 => do
    if ← isSettled then return
    else
      next
      settle n

def peek : Lex Token := do
  settle ((← get).cursor.size + 8)
  match (← get).queue with
  | t :: _ => return t
  | [] => failure

def skip : Lex Unit := do
  forget (← get).passed
  modify fun l => { l with queue := l.queue.tail, passed := l.passed + 1 }

end Lexer
end Treewalk.Yaml

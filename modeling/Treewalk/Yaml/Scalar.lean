import Treewalk.Datum.Basic
import Treewalk.Yaml.Tag

/-! What plain scalars mean. The first character decides which readings are tried; whatever none
of them accepts is text. -/
namespace Treewalk.Yaml.Scalar

open Text (ascii)
open Number (Binary64 Decimal)

structure Reading where
  tag : Tag
  value : Datum

def spellings (names : List String) (r : Reading) : List (Text × Reading) :=
  names.map fun n => (Text.ofString n, r)

def words : List (Text × Reading) :=
  spellings ["", "~", "null", "Null", "NULL"] ⟨.null, .null⟩
    ++ spellings ["true", "True", "TRUE"] ⟨.bool, .bool true⟩
    ++ spellings ["false", "False", "FALSE"] ⟨.bool, .bool false⟩
    ++ spellings [".nan", ".NaN", ".NAN"] ⟨.float, .nonFinite .notANumber⟩
    ++ spellings [".inf", ".Inf", ".INF", "+.inf", "+.Inf", "+.INF"] ⟨.float, .nonFinite .positive⟩
    ++ spellings ["-.inf", "-.Inf", "-.INF"] ⟨.float, .nonFinite .negative⟩

def digitIn (base : Nat) (b : UInt8) : Option Nat :=
  let value :=
    if Text.isDigit b then some (Text.digitValue b)
    else if ascii 'a' ≤ b && b ≤ ascii 'z' then some (b.toNat - (ascii 'a').toNat + 10)
    else if ascii 'A' ≤ b && b ≤ ascii 'Z' then some (b.toNat - (ascii 'A').toNat + 10)
    else none
  value.filter (· < base)

def digits? (base : Nat) (t : Text) : Option Nat :=
  if t = [] then none
  else t.foldlM (fun n b => (digitIn base b).map (n * base + ·)) 0

/-- A number whose base is told by what it starts with; a zero alone means octal. -/
def based? (t : Text) : Option Nat :=
  match t with
  | z :: b :: rest =>
    if z = ascii '0' then
      if b = ascii 'x' ∨ b = ascii 'X' then digits? 16 rest
      else if b = ascii 'b' ∨ b = ascii 'B' then digits? 2 rest
      else if b = ascii 'o' ∨ b = ascii 'O' then digits? 8 rest
      else digits? 8 (b :: rest)
    else digits? 10 t
  | _ => digits? 10 t

def maxUnsigned : Int := 18446744073709551615

/-- Keeps integers that are signed or unsigned 64-bit ones; an unsigned one has no sign. -/
def inRange? (signed : Bool) (i : Int) : Option Int :=
  if Text.minInt64 ≤ i ∧ i ≤ Text.maxInt64 then some i
  else if !signed ∧ 0 ≤ i ∧ i ≤ maxUnsigned then some i
  else none

def hasSign : Text → Bool
  | b :: _ => b = ascii '-' || b = ascii '+'
  | [] => false

def signed? (read : Text → Option Nat) (t : Text) : Option Int := do
  let (negative, rest) := Text.splitSign t
  let n ← read rest
  inRange? (hasSign t) (if negative then -(n : Int) else n)

/-- An integer behind the prefix of its base, where the sign stands behind the prefix. -/
def prefixed? (letter : Char) (base : Nat) (t : Text) : Option Int :=
  match t with
  | s :: z :: b :: rest =>
    if s = ascii '-' ∧ z = ascii '0' ∧ b = ascii letter then do
      let n ← digits? base rest
      inRange? true (-(n : Int))
    else if s = ascii '0' ∧ z = ascii letter then signed? (digits? base) (b :: rest)
    else none
  | _ => none

def decimal? (t : Text) : Option Decimal := do
  let (negative, t) := Text.splitSign t
  let whole := t.takeWhile Text.isDigit
  let t := t.drop whole.length
  let (fraction, t) := match t with
    | p :: rest =>
      if p = ascii '.' then (rest.takeWhile Text.isDigit, rest.dropWhile Text.isDigit) else ([], t)
    | [] => ([], t)
  if whole = [] ∧ fraction = [] then none
  else
    let exponent : Option Int := match t with
      | [] => some 0
      | e :: rest =>
        if e = ascii 'e' ∨ e = ascii 'E' then Text.readInteger rest else none
    let exponent ← exponent
    return ⟨negative, Text.naturalValue (whole ++ fraction), exponent - fraction.length⟩

def float? (t : Text) : Option Binary64 := (decimal? t).bind Decimal.toBinary64?

/-- Whether every underscore stands between two digits. -/
def isSeparated : Bool → Text → Bool
  | _, [] => true
  | digitBefore, b :: rest =>
    (b ≠ ascii '_' || (digitBefore && rest.head?.any Text.isDigit))
      && isSeparated (Text.isDigit b) rest

def withoutUnderscores (t : Text) : Text := t.filter (· ≠ ascii '_')

def separatedFloat? (t : Text) : Option Binary64 :=
  if isSeparated false t then float? (withoutUnderscores t) else none

def integer? (t : Text) : Option Int := signed? based? t

def number? (t : Text) : Option Reading :=
  let int (i : Int) : Reading := ⟨.int, .int i⟩
  let float (x : Binary64) : Reading := ⟨.float, .float x⟩
  ((integer? t).map int)
    <|> ((float? t).map float)
    <|> ((prefixed? 'b' 2 t).map int)
    <|> ((prefixed? 'o' 8 t).map int)

def shortNumber? (t : Text) : Option (Nat × Text) :=
  match t with
  | a :: b :: rest =>
    if !Text.isDigit a then none
    else if Text.isDigit b then some (Text.digitValue a * 10 + Text.digitValue b, rest)
    else some (Text.digitValue a, b :: rest)
  | [a] => if Text.isDigit a then some (Text.digitValue a, []) else none
  | [] => none

def expect? (b : Char) : Text → Option Text
  | a :: rest => if a = ascii b then some rest else none
  | [] => none

def date? (t : Text) : Option ((Nat × Nat × Nat) × Text) := do
  let year := t.take 4
  if year.length < 4 ∨ !year.all Text.isDigit then none
  else
    let t ← expect? '-' (t.drop 4)
    let (month, t) ← shortNumber? t
    let t ← expect? '-' t
    let (day, t) ← shortNumber? t
    let year := Text.naturalValue year
    if 1 ≤ month ∧ month ≤ 12 ∧ 1 ≤ day ∧ day ≤ Timestamp.daysIn year month then
      some ((year, month, day), t)
    else none

/-- Nanoseconds from the digits behind the point; digits from the tenth on are dropped. -/
def nanoseconds (digits : Text) : Nat :=
  let kept := digits.take 9
  Text.naturalValue kept * Nat.pow 10 (9 - kept.length)

def clock? (t : Text) : Option ((Nat × Nat × Nat × Nat) × Text) := do
  let (hour, t) ← shortNumber? t
  let t ← expect? ':' t
  let (minute, t) ← shortNumber? t
  let t ← expect? ':' t
  let (second, t) ← shortNumber? t
  if 24 ≤ hour ∨ 60 ≤ minute ∨ 60 ≤ second then none
  else
    match t with
    | p :: d :: rest =>
      if (p = ascii '.' ∨ p = ascii ',') ∧ Text.isDigit d then
        let fraction := (d :: rest).takeWhile Text.isDigit
        some ((hour, minute, second, nanoseconds fraction), (d :: rest).drop fraction.length)
      else some ((hour, minute, second, 0), t)
    | _ => some ((hour, minute, second, 0), t)

def zone? (t : Text) : Option Zone :=
  match t with
  | [z] => if z = ascii 'Z' then some .zero else none
  | [s, h₁, h₂, colon, m₁, m₂] =>
    if (s = ascii '+' ∨ s = ascii '-') ∧ colon = ascii ':' ∧ [h₁, h₂, m₁, m₂].all Text.isDigit then
      let hours := Text.naturalValue [h₁, h₂]
      let minutes := Text.naturalValue [m₁, m₂]
      if 24 < hours ∨ 60 < minutes then none
      else
        let offset : Int := hours * 60 + minutes
        some (.offset (if s = ascii '-' then -offset else offset))
    else none
  | _ => none

def timestamp? (t : Text) : Option Timestamp := do
  let ((year, month, day), rest) ← date? t
  match rest with
  | [] => some ⟨year, month, day, 0, 0, 0, 0, .zero⟩
  | b :: rest =>
    if b = ascii 'T' ∨ b = ascii 't' then
      let ((hour, minute, second, nanosecond), rest) ← clock? rest
      let zone ← zone? rest
      some ⟨year, month, day, hour, minute, second, nanosecond, zone⟩
    else if b = ascii ' ' then
      let ((hour, minute, second, nanosecond), rest) ← clock? (rest.dropWhile (· = ascii ' '))
      if rest = [] then some ⟨year, month, day, hour, minute, second, nanosecond, .zero⟩ else none
    else none

inductive Lead where
  | text
  | word
  | point
  | number

def leadOf : Text → Lead
  | [] => .word
  | b :: _ =>
    if Text.isDigit b || b = ascii '+' || b = ascii '-' then .number
    else if b = ascii '.' then .point
    else if b ∈ Text.ofString "yYnNtTfFoO~" then .word
    else .text

/-- Reads a scalar; `dated` says whether it may be a point in time. -/
def read (dated : Bool) (t : Text) : Reading :=
  let text : Reading := ⟨.str, .text t⟩
  let float (x : Binary64) : Reading := ⟨.float, .float x⟩
  let time (s : Timestamp) : Reading := ⟨.timestamp, .time s⟩
  match leadOf t with
  | .text => text
  | .word => (words.lookup t).getD text
  | .point => ((words.lookup t) <|> ((separatedFloat? t).map float)).getD text
  | .number =>
    let dates := if dated then timestamp? t else none
    ((words.lookup t) <|> (dates.map time) <|> number? (withoutUnderscores t)).getD text

def sextet? (b : UInt8) : Option Nat :=
  if ascii 'A' ≤ b && b ≤ ascii 'Z' then some (b.toNat - (ascii 'A').toNat)
  else if ascii 'a' ≤ b && b ≤ ascii 'z' then some (b.toNat - (ascii 'a').toNat + 26)
  else if Text.isDigit b then some (Text.digitValue b + 52)
  else if b = ascii '+' then some 62
  else if b = ascii '/' then some 63
  else none

def base64? : Text → Option Text
  | [] => some []
  | [a, b, c, d] => do
    let a ← sextet? a
    let b ← sextet? b
    let first := (a * 4 + b / 16).toUInt8
    if c = ascii '=' ∧ d = ascii '=' then some [first]
    else
      let c ← sextet? c
      let second := (b % 16 * 16 + c / 4).toUInt8
      if d = ascii '=' then some [first, second]
      else
        let d ← sextet? d
        some [first, second, (c % 4 * 64 + d).toUInt8]
  | a :: b :: c :: d :: rest => do
    let a ← sextet? a
    let b ← sextet? b
    let c ← sextet? c
    let d ← sextet? d
    let tail ← base64? rest
    let group := [a * 4 + b / 16, b % 16 * 16 + c / 4, c % 4 * 64 + d]
    some (group.map Nat.toUInt8 ++ tail)
  | _ => none

def binary? (t : Text) : Option Text :=
  base64? (t.filter fun b => b ≠ ascii '\n' && b ≠ ascii '\r')

/-- The value of a scalar under a tag. A tag that asks for something else than the text gives is
refused, but an integer may stand for a float; tags without a meaning here leave text. -/
def value? (tag : Tag) (t : Text) : Option Datum :=
  if tag = .str then some (.text t)
  else if tag = .binary then (binary? t).map .text
  else if !tag.isResolvable then some (.text t)
  else
    let r := read (tag = .timestamp) t
    if r.tag = tag then some r.value
    else if tag = .float then
      match r.value with
      | .int i =>
        if i ≤ Text.maxInt64 then
          (Decimal.toBinary64? ⟨i < 0, i.natAbs, 0⟩).map .float
        else none
      | _ => none
    else none

end Treewalk.Yaml.Scalar

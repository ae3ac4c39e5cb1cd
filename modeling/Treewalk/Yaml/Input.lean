import Treewalk.Text.Utf8

/-! The characters of a document as they are taken in. A byte order mark selects the encoding and
is dropped; without one the text is UTF-8. Octets are taken in by blocks, and a block with
something that is no character, or not an allowed one, spoils only what comes after it. -/
namespace Treewalk.Yaml

/-- Characters by blocks, and whether the octets were used up at the end. -/
inductive Source where
  | block (chars : List Char) (rest : Source)
  | finished
  | broken

def isAllowed (n : Nat) : Bool :=
  n = 0x09 || n = 0x0A || n = 0x0D || (0x20 ≤ n && n ≤ 0x7E) || n = 0x85
    || (0xA0 ≤ n && n ≤ 0xD7FF) || (0xE000 ≤ n && n ≤ 0xFFFD) || (0x10000 ≤ n && n ≤ 0x10FFFF)

inductive Encoding where
  | utf8
  | utf16 (big : Bool)

inductive Front where
  | point (n : Nat) (rest : Text)
  | incomplete
  | invalid

namespace Encoding

def utf8Width? (b : UInt8) : Option Nat :=
  if b < 0x80 then some 1
  else if b < 0xC0 then none
  else if b < 0xE0 then some 2
  else if b < 0xF0 then some 3
  else if b < 0xF8 then some 4
  else none

def unit (big : Bool) (a b : UInt8) : Nat :=
  if big then a.toNat * 256 + b.toNat else b.toNat * 256 + a.toNat

def isLowHalf (u : Nat) : Bool := 0xDC00 ≤ u && u ≤ 0xDFFF

def isHighHalf (u : Nat) : Bool := 0xD800 ≤ u && u ≤ 0xDBFF

def front : Encoding → Text → Front
  | .utf8, [] => .incomplete
  | .utf8, b :: rest =>
    match utf8Width? b with
    | none => .invalid
    | some width =>
      if ((b :: rest).drop (width - 1)).isEmpty then .incomplete
      else
        match Text.Utf8.next? (b :: rest) with
        | some (n, rest) => .point n rest
        | none => .invalid
  | .utf16 big, a :: b :: rest =>
    let u := unit big a b
    if isLowHalf u then .invalid
    else if isHighHalf u then
      match rest with
      | c :: d :: rest =>
        let v := unit big c d
        if isLowHalf v then .point (0x10000 + (u - 0xD800) * 0x400 + (v - 0xDC00)) rest
        else .invalid
      | _ => .incomplete
    else .point u rest
  | .utf16 _, _ => .incomplete

/-- The characters of a block, put behind those that come last first, and the octets of one that
is not complete yet. -/
def characters (e : Encoding) : Nat → List Char → Text → Option (List Char × Text)
  | _, taken, [] => some (taken.reverse, [])
  | 0, taken, t => some (taken.reverse, t)
  | n + 1, taken, t =>
    match e.front t with
    | .point p rest => if isAllowed p then e.characters n (Char.ofNat p :: taken) rest else none
    | .incomplete => some (taken.reverse, t)
    | .invalid => none

end Encoding

namespace Source

def blockSize : Nat := 512

def ofOctets (e : Encoding) : Nat → Nat → Text → Source
  | 0, _, _ => .broken
  | n + 1, size, t =>
    let (now, later) := t.splitAt size
    match e.characters now.length [] now with
    | none => .broken
    | some (chars, left) =>
      .block chars <|
        if later ≠ [] then ofOctets e n blockSize (left ++ later)
        else if left = [] then .finished
        else .broken

def ofText (t : Text) : Source :=
  let rounds := t.length + 1
  match t with
  | 0xFF :: 0xFE :: rest => ofOctets (.utf16 false) rounds (blockSize - 2) rest
  | 0xFE :: 0xFF :: rest => ofOctets (.utf16 true) rounds (blockSize - 2) rest
  | 0xEF :: 0xBB :: 0xBF :: rest => ofOctets .utf8 rounds (blockSize - 3) rest
  | _ => ofOctets .utf8 rounds blockSize t

end Source
end Treewalk.Yaml

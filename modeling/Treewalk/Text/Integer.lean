import Treewalk.Text

/-! Decimal text of integers: written with the fewest digits and a minus sign where needed,
read with an optional sign, any number of leading zeros and at least one digit. -/
namespace Treewalk.Text

def natural (n : Nat) : Text := (Nat.toDigits 10 n).map ascii

def padded (width n : Nat) : Text :=
  let digits := natural n
  List.replicate (width - digits.length) (ascii '0') ++ digits

def integer (i : Int) : Text :=
  if i < 0 then ascii '-' :: natural i.natAbs else natural i.natAbs

def int64 (n : Int64) : Text := integer n.toInt

def naturalValue (digits : Text) : Nat :=
  digits.foldl (fun n b => 10 * n + digitValue b) 0

def splitSign : Text → Bool × Text
  | [] => (false, [])
  | b :: rest =>
    if b = ascii '-' then (true, rest)
    else if b = ascii '+' then (false, rest)
    else (false, b :: rest)

def readInteger (t : Text) : Option Int :=
  let (negative, digits) := splitSign t
  if digits ≠ [] ∧ digits.all isDigit then
    some (if negative then -(naturalValue digits : Int) else naturalValue digits)
  else none

def minInt64 : Int := -9223372036854775808

def maxInt64 : Int := 9223372036854775807

/-- Accumulates digits in 64 bits without a sign. An octet that is no digit ends it, and so does a
digit that makes the number too large. -/
def readDigits (n : UInt64) : Text → Option UInt64
  | [] => some n
  | b :: rest =>
    if isDigit b then
      if 1844674407370955162 ≤ n then none
      else
        let tenfold := 10 * n
        let next := tenfold + UInt64.ofNat (digitValue b)
        if next < tenfold then none else readDigits next rest
    else none

/-- The 64-bit integer with a sign and a magnitude, if there is one: there is one magnitude more
below zero than above. -/
def withSign (negative : Bool) (n : UInt64) : Option Int64 :=
  if negative then if n ≤ 9223372036854775808 then some (-n.toInt64) else none
  else if n < 9223372036854775808 then some n.toInt64 else none

def readInt64 (t : Text) : Option Int64 :=
  let (negative, digits) := splitSign t
  if digits = [] then none else (readDigits 0 digits).bind (withSign negative)

end Treewalk.Text

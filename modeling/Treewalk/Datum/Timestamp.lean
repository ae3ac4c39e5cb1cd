import Treewalk.Text.Integer

/-! Points in time with the offset of their zone, written with a fraction only where there is
one and with `Z` for no offset. -/
namespace Treewalk

open Text (ascii padded)

/-- The zone of a point in time: the zero meridian itself, or an offset in minutes east of it,
which may be nothing as well. -/
inductive Zone where
  | zero
  | offset (minutes : Int)
deriving DecidableEq

namespace Zone

def minutes : Zone → Int
  | .zero => 0
  | .offset minutes => minutes

/-- Offsets of whole hours from twelve west to fourteen east are zones in common use; any other
offset makes a zone of its own wherever it is written. -/
def isCommon : Zone → Bool
  | .zero => true
  | .offset minutes => minutes % 60 = 0 && -12 * 60 ≤ minutes && minutes ≤ 14 * 60

def text (z : Zone) : Text :=
  let minutes := z.minutes
  if minutes = 0 then "Z"
  else
    let sign := if minutes < 0 then ascii '-' else ascii '+'
    sign :: padded 2 (minutes.natAbs / 60) ++ ascii ':' :: padded 2 (minutes.natAbs % 60)

end Zone

structure Timestamp where
  year : Nat
  month : Nat
  day : Nat
  hour : Nat
  minute : Nat
  second : Nat
  nanosecond : Nat
  zone : Zone
deriving DecidableEq

namespace Timestamp

def fraction (nanosecond : Nat) : Text :=
  if nanosecond = 0 then []
  else
    ascii '.' :: ((padded 9 nanosecond).reverse.dropWhile (· = ascii '0')).reverse

def writable (t : Timestamp) : Bool := t.zone.minutes.natAbs < 24 * 60

def text (t : Timestamp) : Text :=
  padded 4 t.year ++ ascii '-' :: padded 2 t.month ++ ascii '-' :: padded 2 t.day
    ++ ascii 'T' :: padded 2 t.hour ++ ascii ':' :: padded 2 t.minute
    ++ ascii ':' :: padded 2 t.second ++ fraction t.nanosecond ++ t.zone.text

def isLeap (year : Nat) : Bool := year % 4 = 0 && (year % 100 ≠ 0 || year % 400 = 0)

def daysIn (year month : Nat) : Nat :=
  if month = 2 then if isLeap year then 29 else 28
  else if month = 4 ∨ month = 6 ∨ month = 9 ∨ month = 11 then 30
  else 31

end Timestamp
end Treewalk

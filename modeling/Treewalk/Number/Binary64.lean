/-! Finite binary64 numbers as a sign, a mantissa below 2^53 and an exponent of two, and the
rounding of decimal numbers to them: to nearest, a tie to the even mantissa. -/
namespace Treewalk.Number

structure Binary64 where
  negative : Bool
  mantissa : Nat
  exponent : Int
deriving DecidableEq

namespace Binary64

def minExponent : Int := -1074

def maxExponent : Int := 971

/-- The mantissas of normal numbers lie from this bound up to its double. -/
def normalBound : Nat := 4503599627370496

def zero (negative : Bool) : Binary64 := ⟨negative, 0, minExponent⟩

def isZero (x : Binary64) : Bool := x.mantissa = 0

end Binary64

def roundDiv (num den : Nat) : Nat :=
  let floor := num / den
  let twice := 2 * (num % den)
  if twice < den ∨ (twice = den ∧ floor % 2 = 0) then floor else floor + 1

def power (base : Nat) (e : Int) : Nat × Nat :=
  if 0 ≤ e then (base.pow e.toNat, 1) else (1, base.pow (-e).toNat)

/-- The finite number nearest to `num / den`, unless that is too large. -/
def Binary64.ofRatio? (negative : Bool) (num den : Nat) : Option Binary64 :=
  if num = 0 then some (zero negative)
  else
    let estimate : Int := (num.log2 : Int) - den.log2 - 52
    let start := max minExponent (estimate - 1)
    let scaled (e : Int) : Nat :=
      let (up, down) := power 2 e
      roundDiv (num * down) (den * up)
    let fits (e : Int) : Bool := scaled e < 2 * normalBound
    let exponent :=
      if fits start then start else if fits (start + 1) then start + 1 else start + 2
    if maxExponent < exponent then none else some ⟨negative, scaled exponent, exponent⟩

/-- A decimal number `coefficient * 10 ^ scale`. -/
structure Decimal where
  negative : Bool
  coefficient : Nat
  scale : Int
deriving DecidableEq

def digitCount (n : Nat) : Nat := if n = 0 then 0 else (Nat.toDigits 10 n).length

/-- The binary64 number nearest to a decimal one, unless that is too large. Numbers whose
magnitude is far outside the range are settled by their digit count. -/
def Decimal.toBinary64? (d : Decimal) : Option Binary64 :=
  let magnitude : Int := digitCount d.coefficient + d.scale
  if d.coefficient = 0 ∨ magnitude < -400 then some (.zero d.negative)
  else if 400 < magnitude then none
  else
    let (up, down) := power 10 d.scale
    Binary64.ofRatio? d.negative (d.coefficient * up) down

end Treewalk.Number

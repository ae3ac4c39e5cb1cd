import Treewalk.Number.Binary64

/-! The shortest decimal that reads back as a given binary64 number: the fewest digits that lie
within the number's rounding interval, and of those the nearest. -/
namespace Treewalk.Number

/-- A decimal of `digits` significant digits whose first digit has weight `10 ^ exponent`. -/
structure Scientific where
  digits : Nat
  exponent : Int
deriving DecidableEq

namespace Binary64

def compareGrid (n : Nat) (p : Int) (x : Nat) (q : Int) : Ordering :=
  let (tenUp, tenDown) := power 10 p
  let (twoUp, twoDown) := power 2 q
  compare (n * tenUp * twoDown) (x * twoUp * tenDown)

def leadingWeight (m : Nat) (q : Int) : Int :=
  let estimate := Int.fdiv (((m.log2 : Int) + q) * 30103) 100000
  if compareGrid 1 (estimate + 1) m q != .gt then estimate + 1
  else if compareGrid 1 estimate m q == .gt then estimate - 1
  else estimate

/-- Whether `n * 10 ^ p` reads back as the number with mantissa `m` and exponent `q`. The
interval is twice as long above as below where the exponent changes. -/
def readsBack (m : Nat) (q : Int) (n : Nat) (p : Int) : Bool :=
  let low := if m = normalBound ∧ minExponent < q then 4 * m - 1 else 4 * m - 2
  let aboveLow := compareGrid n p low (q - 2)
  let belowHigh := compareGrid n p (4 * m + 2) (q - 2)
  let closed := m % 2 = 0
  (aboveLow == .gt || (closed && aboveLow == .eq)) &&
    (belowHigh == .lt || (closed && belowHigh == .eq))

/-- The multiple of `10 ^ p` that reads back as the number and is nearest to it, if any; a tie
goes to the even multiple. -/
def gridPoint? (m : Nat) (q : Int) (p : Int) : Option Nat :=
  let (tenUp, tenDown) := power 10 p
  let (twoUp, twoDown) := power 2 q
  let num := m * twoUp * tenDown
  let den := tenUp * twoDown
  let below := num / den
  match readsBack m q below p, readsBack m q (below + 1) p with
  | true, true => some (roundDiv num den)
  | true, false => some below
  | false, true => some (below + 1)
  | false, false => none

def search (m : Nat) (q weight : Int) : Nat → Nat → Scientific
  | 0, count => ⟨m, weight - count⟩
  | tries + 1, count =>
    match gridPoint? m q (weight + 1 - count) with
    | some n =>
      if n = Nat.pow 10 count then ⟨1, weight + 1⟩ else ⟨n, weight⟩
    | none => search m q weight tries (count + 1)

def shortest (x : Binary64) : Scientific :=
  search x.mantissa x.exponent (leadingWeight x.mantissa x.exponent) 17 1

end Binary64
end Treewalk.Number

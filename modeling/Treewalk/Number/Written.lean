import Treewalk.Number.Shortest
import Treewalk.Text.Integer

/-! Written form of binary64 numbers: the shortest digits, positional where the weight of the
first digit lies between the two bounds and with an exponent elsewhere. -/
namespace Treewalk.Number

open Text (ascii)

structure Layout where
  least : Int
  most : Int

def Layout.plain : Layout := ⟨-6, 20⟩

def zeros (n : Nat) : Text := List.replicate n (ascii '0')

def positional (digits : Text) (weight : Int) : Text :=
  if weight < 0 then Text.ofString "0." ++ zeros (-weight - 1).toNat ++ digits
  else
    let whole := weight.toNat + 1
    if digits.length ≤ whole then digits ++ zeros (whole - digits.length)
    else digits.take whole ++ ascii '.' :: digits.drop whole

def exponential (digits : Text) (weight : Int) : Text :=
  let fraction := if digits.length ≤ 1 then [] else ascii '.' :: digits.drop 1
  let sign := if weight < 0 then ascii '-' else ascii '+'
  digits.take 1 ++ fraction ++ ascii 'e' :: sign :: Text.natural weight.natAbs

def Binary64.text (layout : Layout) (x : Binary64) : Text :=
  let sign := if x.negative then [ascii '-'] else []
  if x.isZero then sign ++ [ascii '0']
  else
    let s := x.shortest
    let digits := Text.natural s.digits
    let isPositional := layout.least ≤ s.exponent && s.exponent ≤ layout.most
    sign ++ if isPositional then positional digits s.exponent else exponential digits s.exponent

end Treewalk.Number

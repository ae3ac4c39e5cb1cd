import Treewalk.Text.Utf8

/-! Lower case as far as ASCII words need it: a text is matched with an ASCII word by lowering
exactly those code points whose lower case is an ASCII letter. -/
namespace Treewalk.Text

/-- Besides the capitals of ASCII, the dotted capital I and the Kelvin sign have an ASCII letter
as their lower case. -/
def lowerPoint (n : Nat) : Nat :=
  if 'A'.toNat ≤ n ∧ n ≤ 'Z'.toNat then n + 32
  else if n = 0x130 then 'i'.toNat
  else if n = 0x212A then 'k'.toNat
  else n

def lowered (t : Text) : Text :=
  (Utf8.scan t).flatMap fun
    | .inr n => Utf8.encode (lowerPoint n)
    | .inl b => [b]

end Treewalk.Text

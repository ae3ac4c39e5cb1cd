/-! Text as a list of octets. Names, lexemes and messages may hold octets that are no valid
UTF-8, so nothing here looks at characters; literals are written as strings and encoded. -/
namespace Treewalk

abbrev Text := List UInt8

namespace Text

def ofString (s : String) : Text := s.toUTF8.data.toList

instance : Coe String Text := ⟨ofString⟩

def ascii (c : Char) : UInt8 := c.toUInt8

def isDigit (b : UInt8) : Bool := ascii '0' ≤ b && b ≤ ascii '9'

def digitValue (b : UInt8) : Nat := b.toNat - (ascii '0').toNat

def hexDigit (n : Nat) : UInt8 := ascii (Nat.digitChar n)

def hex (width n : Nat) : Text :=
  match width with
  | 0 => []
  | width + 1 => hex width (n / 16) ++ [hexDigit (n % 16)]

def commaList (members : List Text) : Text := List.intercalate (ofString ", ") members

def shown (t : Text) : Text := ascii '\'' :: t ++ [ascii '\'']

def line (t : Text) : Text := t ++ [ascii '\n']

end Text
end Treewalk

import Treewalk.Text.Printable
import Treewalk.Text.Utf8

/-! Text in double quotes, as messages show text that may hold anything. What prints stands for
itself; a quote, a backslash and the usual control characters get a backslash; the rest is
written by number, and octets that form no character one by one. -/
namespace Treewalk.Text

def controlLetter? (n : Nat) : Option Char :=
  [(7, 'a'), (8, 'b'), (9, 't'), (10, 'n'), (11, 'v'), (12, 'f'), (13, 'r')].lookup n

def octetEscape (b : UInt8) : Text := ofString "\\x" ++ hex 2 b.toNat

def quotedPoint (n : Nat) : Text :=
  if n = '"'.toNat ∨ n = '\\'.toNat then [ascii '\\', n.toUInt8]
  else if isPrintable n then Utf8.encode n
  else
    match controlLetter? n with
    | some c => [ascii '\\', ascii c]
    | none =>
      if n < 0x80 then octetEscape n.toUInt8
      else if n < 0x10000 then ofString "\\u" ++ hex 4 n
      else ofString "\\U" ++ hex 8 n

def quoted (t : Text) : Text :=
  let body := (Utf8.scan t).flatMap fun
    | .inr n => quotedPoint n
    | .inl b => octetEscape b
  ascii '"' :: body ++ [ascii '"']

end Treewalk.Text

import Treewalk.Text.Integer
import Treewalk.Text.Truth

/-! JSON values and their texts. A value keeps its numbers as they are written and
its members in order, repeated names included; its strings are sequences of scalar values. Blanks,
and for every character of a string one of its escapes or the character itself, are left to the
text. -/
namespace Treewalk

open Text (ascii)

/-- One decimal digit or more, leading zeros included. -/
abbrev Digits := { digits : List (Fin 10) // digits ≠ [] }

def Digits.text (d : Digits) : Text := d.val.map fun n => ascii (Nat.digitChar n.val)

structure Exponent where
  capital : Bool
  minus : Option Bool
  digits : Digits

def Exponent.text (e : Exponent) : Text :=
  let sign := match e.minus with
    | none => []
    | some true => [ascii '-']
    | some false => [ascii '+']
  ascii (if e.capital then 'E' else 'e') :: sign ++ e.digits.text

structure Numeral where
  negative : Bool
  whole : Nat
  fraction : Option Digits
  exponent : Option Exponent

namespace Numeral

def text (q : Numeral) : Text :=
  let sign := if q.negative then [ascii '-'] else []
  let fraction := match q.fraction with
    | none => []
    | some digits => ascii '.' :: digits.text
  let exponent := match q.exponent with
    | none => []
    | some e => e.text
  sign ++ Text.natural q.whole ++ fraction ++ exponent

/-- The integer that is written, if there is neither a fraction nor an exponent. -/
def integer? (q : Numeral) : Option Int :=
  match q.fraction, q.exponent with
  | none, none => some (if q.negative then -q.whole else q.whole)
  | _, _ => none

end Numeral

inductive Json where
  | null
  | bool (b : Bool)
  | number (q : Numeral)
  | string (s : String)
  | array (items : List Json)
  | object (members : List (String × Json))

namespace Json

def Blank (t : Text) : Prop :=
  ∀ b ∈ t, b = ascii ' ' ∨ b = ascii '\t' ∨ b = ascii '\n' ∨ b = ascii '\r'

instance : DecidablePred Blank := fun t => List.decidableBAll _ t

def shortEscapes : List (Char × Char) :=
  [('"', '"'), ('\\', '\\'), ('/', '/'), ('\x08', 'b'), ('\x0c', 'f'), ('\n', 'n'), ('\r', 'r'),
    ('\t', 't')]

def hexLetter (capital : Bool) (n : Nat) : UInt8 :=
  ascii (if capital then (Nat.digitChar n).toUpper else Nat.digitChar n)

def codeEscape (capital : Fin 4 → Bool) (n : Nat) : Text :=
  [ascii '\\', ascii 'u', hexLetter (capital 0) (n / 0x1000 % 16),
    hexLetter (capital 1) (n / 0x100 % 16), hexLetter (capital 2) (n / 0x10 % 16),
    hexLetter (capital 3) (n % 16)]

/-- The ways to write a character inside a string. A code point beyond the code units is escaped
as a pair of surrogates. -/
inductive CharText : Char → Text → Prop where
  | plain {c : Char} : 0x20 ≤ c.toNat → c ≠ '"' → c ≠ '\\' → CharText c (String.utf8EncodeChar c)
  | short {c letter : Char} : (c, letter) ∈ shortEscapes → CharText c [ascii '\\', ascii letter]
  | unit {c : Char} (capital : Fin 4 → Bool) :
    c.toNat < 0x10000 → CharText c (codeEscape capital c.toNat)
  | pair {c : Char} (high low : Fin 4 → Bool) : 0x10000 ≤ c.toNat →
    CharText c (codeEscape high (0xD800 + (c.toNat - 0x10000) / 0x400)
      ++ codeEscape low (0xDC00 + (c.toNat - 0x10000) % 0x400))

inductive StringText : List Char → Text → Prop where
  | nil : StringText [] []
  | cons {c : Char} {chars : List Char} {t u : Text} :
    CharText c t → StringText chars u → StringText (c :: chars) (t ++ u)

def Plain (s : String) : Prop := ∀ c ∈ s.toList, 0x20 ≤ c.toNat ∧ c ≠ '"' ∧ c ≠ '\\'

instance : DecidablePred Plain := fun s => List.decidableBAll _ s.toList

/-- The phrases of the grammar. An element is a value between blanks. -/
inductive Phrase where
  | value (j : Json)
  | element (j : Json)
  | elements (items : List Json)
  | member (name : String) (j : Json)
  | members (members : List (String × Json))

inductive Written : Phrase → Text → Prop where
  | null : Written (.value .null) (Text.ofString "null")
  | bool (b : Bool) : Written (.value (.bool b)) (Text.truth b)
  | number (q : Numeral) : Written (.value (.number q)) q.text
  | string {s : String} {t : Text} :
    StringText s.toList t → Written (.value (.string s)) (ascii '"' :: t ++ [ascii '"'])
  | emptyArray {w : Text} : Blank w → Written (.value (.array [])) (ascii '[' :: w ++ [ascii ']'])
  | array {items : List Json} {t : Text} :
    Written (.elements items) t → Written (.value (.array items)) (ascii '[' :: t ++ [ascii ']'])
  | emptyObject {w : Text} :
    Blank w → Written (.value (.object [])) (ascii '\x7b' :: w ++ [ascii '\x7d'])
  | object {members : List (String × Json)} {t : Text} : Written (.members members) t →
    Written (.value (.object members)) (ascii '\x7b' :: t ++ [ascii '\x7d'])
  | element {j : Json} {w t w' : Text} :
    Blank w → Written (.value j) t → Blank w' → Written (.element j) (w ++ t ++ w')
  | lastElement {j : Json} {t : Text} : Written (.element j) t → Written (.elements [j]) t
  | nextElement {j : Json} {items : List Json} {t u : Text} : Written (.element j) t →
    Written (.elements items) u → Written (.elements (j :: items)) (t ++ ascii ',' :: u)
  | member {name : String} {j : Json} {w s w' t : Text} :
    Blank w → StringText name.toList s → Blank w' → Written (.element j) t →
    Written (.member name j) (w ++ (ascii '"' :: s ++ ascii '"' :: w') ++ ascii ':' :: t)
  | lastMember {name : String} {j : Json} {t : Text} :
    Written (.member name j) t → Written (.members [(name, j)]) t
  | nextMember {name : String} {j : Json} {members : List (String × Json)} {t u : Text} :
    Written (.member name j) t → Written (.members members) u →
    Written (.members ((name, j) :: members)) (t ++ ascii ',' :: u)

end Json
end Treewalk

import Treewalk.Text

/-! UTF-8 in both directions, on code points as numbers. Writing replaces what is no scalar
value by U+FFFD; reading refuses overlong forms, surrogates and anything above U+10FFFF. -/
namespace Treewalk.Text.Utf8

def isScalar (n : Nat) : Bool := n < 0xD800 || (0xDFFF < n && n < 0x110000)

def replacement : Nat := 0xFFFD

def encode (n : Nat) : Text :=
  let n := if isScalar n then n else replacement
  if n < 0x80 then [n.toUInt8]
  else if n < 0x800 then [(0xC0 + n / 0x40).toUInt8, (0x80 + n % 0x40).toUInt8]
  else if n < 0x10000 then
    [(0xE0 + n / 0x1000).toUInt8, (0x80 + n / 0x40 % 0x40).toUInt8, (0x80 + n % 0x40).toUInt8]
  else
    [(0xF0 + n / 0x40000).toUInt8, (0x80 + n / 0x1000 % 0x40).toUInt8,
      (0x80 + n / 0x40 % 0x40).toUInt8, (0x80 + n % 0x40).toUInt8]

def continuation? (b : UInt8) : Option Nat :=
  if 0x80 ≤ b && b < 0xC0 then some (b.toNat - 0x80) else none

def next? : Text → Option (Nat × Text)
  | [] => none
  | a :: rest =>
    if a < 0x80 then some (a.toNat, rest)
    else if a < 0xC2 then none
    else if a < 0xE0 then
      match rest with
      | b :: rest => (continuation? b).map fun y => ((a.toNat - 0xC0) * 0x40 + y, rest)
      | _ => none
    else if a < 0xF0 then
      match rest with
      | b :: c :: rest => do
        let y ← continuation? b
        let z ← continuation? c
        let n := (a.toNat - 0xE0) * 0x1000 + y * 0x40 + z
        if 0x800 ≤ n && isScalar n then some (n, rest) else none
      | _ => none
    else if a < 0xF5 then
      match rest with
      | b :: c :: d :: rest => do
        let x ← continuation? b
        let y ← continuation? c
        let z ← continuation? d
        let n := (a.toNat - 0xF0) * 0x40000 + x * 0x1000 + y * 0x40 + z
        if 0x10000 ≤ n && isScalar n then some (n, rest) else none
      | _ => none
    else none

theorem length_of_next? {t rest : Text} {n : Nat} (read : next? t = some (n, rest)) :
    rest.length < t.length := by
  unfold next? at read
  repeat' split at read
  all_goals simp_all [Option.bind_eq_some_iff]
  all_goals grind

/-- The code points of a text in order. An octet that starts no valid form is given as itself,
on the left. -/
def scan (t : Text) : List (UInt8 ⊕ Nat) :=
  match t with
  | [] => []
  | b :: rest =>
    match _read : next? (b :: rest) with
    | some (n, after) => .inr n :: scan after
    | none => .inl b :: scan rest
termination_by t.length
decreasing_by
  · exact length_of_next? _read
  · simp

def cleaned (t : Text) : Text :=
  (scan t).flatMap fun
    | .inr n => encode n
    | .inl _ => encode replacement

def ofChars (chars : List Char) : Text := chars.flatMap fun c => encode c.toNat

end Treewalk.Text.Utf8

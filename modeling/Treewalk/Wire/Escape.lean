import Treewalk.Text.Utf8
import Treewalk.Wire.Slice

/-! Escapes in wire strings. A code unit from U+D800 to U+DFFF takes the four hexadecimal digits
of the following escape as its second half, whose value has a lower bound only; a pair that
denotes no scalar value becomes U+FFFD. -/
namespace Treewalk.Wire

open Text (ascii)

def hexDigit? (b : UInt8) : Option Nat :=
  if Text.isDigit b then some (Text.digitValue b)
  else if ascii 'a' ≤ b && b ≤ ascii 'f' then some (b.toNat - (ascii 'a').toNat + 10)
  else if ascii 'A' ≤ b && b ≤ ascii 'F' then some (b.toNat - (ascii 'A').toNat + 10)
  else none

def unit? (a b c d : UInt8) : Option Nat := do
  let a ← hexDigit? a
  let b ← hexDigit? b
  let c ← hexDigit? c
  let d ← hexDigit? d
  return ((a * 16 + b) * 16 + c) * 16 + d

def shortEscape? (b : UInt8) : Option UInt8 :=
  if b = quote ∨ b = backslash ∨ b = ascii '/' then some b
  else if b = ascii 'b' then some 8
  else if b = ascii 'f' then some 12
  else if b = ascii 'n' then some 10
  else if b = ascii 'r' then some 13
  else if b = ascii 't' then some 9
  else none

def isHalf (unit : Nat) : Bool := 0xD800 ≤ unit && unit ≤ 0xDFFF

def pair (high low : Nat) : Nat := 0x10000 + (high - 0xD800) * 0x400 + (low - 0xDC00)

def unescape : Text → Option Text
  | [] => some []
  | b :: rest =>
    if b = backslash then
      match rest with
      | [] => none
      | e :: rest =>
        match shortEscape? e with
        | some c => (unescape rest).map (c :: ·)
        | none =>
          if e = ascii 'u' then
            match rest with
            | h₁ :: h₂ :: h₃ :: h₄ :: rest =>
              match unit? h₁ h₂ h₃ h₄ with
              | none => none
              | some high =>
                if isHalf high then
                  match rest with
                  | _ :: _ :: l₁ :: l₂ :: l₃ :: l₄ :: rest =>
                    match unit? l₁ l₂ l₃ l₄ with
                    | none => none
                    | some low =>
                      if low < 0xDC00 then none
                      else (unescape rest).map (Text.Utf8.encode (pair high low) ++ ·)
                  | _ => none
                else (unescape rest).map (Text.Utf8.encode high ++ ·)
            | _ => none
          else none
    else (unescape rest).map (b :: ·)

end Treewalk.Wire

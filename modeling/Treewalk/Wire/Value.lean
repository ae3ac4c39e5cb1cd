import Treewalk.Wire.Error
import Treewalk.Wire.Slice

/-! Values on the wire: what kind a value is and the slice of text that holds it. Nothing inside
the slice is checked, and nothing behind it is looked at. -/
namespace Treewalk.Wire

open Text (ascii)

inductive Kind where
  | string | number | object | array | boolean | null
deriving DecidableEq

def Kind.text : Kind → Text
  | .string => "string"
  | .number => "number"
  | .object => "object"
  | .array => "array"
  | .boolean => "boolean"
  | .null => "null"

structure Value where
  kind : Kind
  raw : Text

def endsToken (b : UInt8) : Bool :=
  isBlank b || b = ascii ',' || b = ascii ']' || b = ascii '\x7d'

/-- The kind of a token, decided by its first octet except for the three words. -/
def tokenKind? (token : Text) : Option Kind :=
  if token = Text.ofString "true" ∨ token = Text.ofString "false" then some .boolean
  else if token = Text.ofString "null" then some .null
  else
    match token with
    | b :: _ => if Text.isDigit b || b = ascii '-' then some .number else none
    | [] => none

def readToken (t : Text) : Except ReadError (Value × Text) :=
  match tokenKind? (t.takeWhile (!endsToken ·)) with
  | some kind => .ok (⟨kind, t.takeWhile (!endsToken ·)⟩, t.dropWhile (!endsToken ·))
  | none => .error .unknownValue

def readValue (t : Text) : Except ReadError (Value × Text) :=
  match skipBlank t with
  | [] => .error .noValue
  | b :: rest =>
    if b = quote then
      match splitString rest with
      | some (content, after) => .ok (⟨.string, content⟩, after)
      | none => .error .unclosedString
    else if b = ascii '[' then
      match block? b (ascii ']') (b :: rest) with
      | some (block, after) => .ok (⟨.array, block⟩, after)
      | none => .error .unclosedArray
    else if b = ascii '\x7b' then
      match block? b (ascii '\x7d') (b :: rest) with
      | some (block, after) => .ok (⟨.object, block⟩, after)
      | none => .error .unclosedObject
    else readToken (b :: rest)

theorem tokenKind?_nil : tokenKind? [] = none := by decide

theorem length_of_readToken {t after : Text} {v : Value} (read : readToken t = .ok (v, after)) :
    v.raw.length ≤ t.length ∧ after.length < t.length := by
  unfold readToken at read
  split at read
  · next kind known =>
    have whole := congrArg List.length
      (List.takeWhile_append_dropWhile (p := (!endsToken ·)) (l := t))
    have nonempty : t.takeWhile (!endsToken ·) ≠ [] := by
      intro empty
      rw [empty, tokenKind?_nil] at known
      simp at known
    have positive := List.length_pos_iff.mpr nonempty
    grind
  · simp at read

theorem length_of_readValue {t after : Text} {v : Value} (read : readValue t = .ok (v, after)) :
    v.raw.length ≤ t.length ∧ after.length < t.length := by
  have blanks := length_skipBlank t
  unfold readValue at read
  split at read
  · simp at read
  · next b rest front =>
    rw [front] at blanks
    simp only [List.length_cons] at blanks
    split at read
    · split at read
      · next content tail split =>
        have bound := length_of_splitString split
        grind
      · simp at read
    split at read
    · split at read
      · next block tail split =>
        have bound := length_of_block? split
        simp only [List.length_cons] at bound
        grind
      · simp at read
    split at read
    · split at read
      · next block tail split =>
        have bound := length_of_block? split
        simp only [List.length_cons] at bound
        grind
      · simp at read
    · have bound := length_of_readToken read
      simp only [List.length_cons] at bound
      omega

end Treewalk.Wire

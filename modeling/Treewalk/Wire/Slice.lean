import Treewalk.Text

/-! Cutting strings and bracketed blocks off the front of a text. Only the shape is looked at:
a string ends at the first quote that no backslash escapes, a block where its own pair of
symbols balances outside strings. -/
namespace Treewalk.Wire

open Text (ascii)

def isBlank (b : UInt8) : Bool :=
  b = ascii ' ' || b = ascii '\n' || b = ascii '\r' || b = ascii '\t'

def skipBlank (t : Text) : Text := t.dropWhile isBlank

theorem length_skipBlank (t : Text) : (skipBlank t).length ≤ t.length :=
  (List.dropWhile_sublist _).length_le

def quote : UInt8 := ascii '"'

def backslash : UInt8 := ascii '\\'

/-- Splits a text that follows an opening quote at the closing one. -/
def splitString : Text → Option (Text × Text)
  | [] => none
  | [b] => if b = quote then some ([], []) else none
  | b :: c :: rest =>
    if b = quote then some ([], c :: rest)
    else if b = backslash then
      (splitString rest).map fun (content, after) => (b :: c :: content, after)
    else
      (splitString (c :: rest)).map fun (content, after) => (b :: content, after)

theorem append_of_splitString {t content after : Text}
    (split : splitString t = some (content, after)) : t = content ++ quote :: after := by
  fun_induction splitString t generalizing content after with
  | case1 => simp at split
  | case2 => grind
  | case3 => simp at split
  | case4 => grind
  | case5 c rest _ ih =>
    obtain ⟨⟨inner, tail⟩, found, equal⟩ := Option.map_eq_some_iff.mp split
    have whole := ih found
    grind
  | case6 b c rest _ _ ih =>
    obtain ⟨⟨inner, tail⟩, found, equal⟩ := Option.map_eq_some_iff.mp split
    have whole := ih found
    grind

theorem length_of_splitString {t content after : Text}
    (split : splitString t = some (content, after)) :
    content.length + after.length < t.length := by
  simp [append_of_splitString split]

inductive Place where
  | outside
  | inString
  | escaped

/-- Splits a text behind the closing symbol that balances the opening symbols seen so far. -/
def splitBlock (opening closing : UInt8) : Place → Nat → Text → Option (Text × Text)
  | _, _, [] => none
  | .outside, level, b :: rest =>
    if b = quote then
      (splitBlock opening closing .inString level rest).map fun (block, after) =>
        (b :: block, after)
    else if b = opening then
      (splitBlock opening closing .outside (level + 1) rest).map
        fun (block, after) => (b :: block, after)
    else if b = closing then
      if level ≤ 1 then some ([b], rest)
      else
        (splitBlock opening closing .outside (level - 1) rest).map
          fun (block, after) => (b :: block, after)
    else
      (splitBlock opening closing .outside level rest).map fun (block, after) => (b :: block, after)
  | .inString, level, b :: rest =>
    let place := if b = quote then .outside else if b = backslash then .escaped else .inString
    (splitBlock opening closing place level rest).map fun (block, after) => (b :: block, after)
  | .escaped, level, b :: rest =>
    (splitBlock opening closing .inString level rest).map fun (block, after) => (b :: block, after)

def block? (opening closing : UInt8) (t : Text) : Option (Text × Text) :=
  splitBlock opening closing .outside 0 t

theorem append_of_splitBlock {opening closing : UInt8} {place : Place} {level : Nat}
    {t block after : Text}
    (split : splitBlock opening closing place level t = some (block, after)) :
    t = block ++ after ∧ block ≠ [] := by
  fun_induction splitBlock opening closing place level t generalizing block after
  all_goals simp_all
  all_goals grind

theorem length_of_block? {opening closing : UInt8} {t block after : Text}
    (split : block? opening closing t = some (block, after)) :
    block.length ≤ t.length ∧ after.length < t.length := by
  obtain ⟨whole, nonempty⟩ := append_of_splitBlock split
  have positive := List.length_pos_iff.mpr nonempty
  simp [whole]
  omega

end Treewalk.Wire

import Treewalk.Text

/-! Texts of the truth values. Reading accepts the short, capitalised and numeric spellings;
writing always uses `true` and `false`. -/
namespace Treewalk.Text

def truth (b : Bool) : Text := ofString (if b then "true" else "false")

def trueSpellings : List Text := ["1", "t", "T", "TRUE", "true", "True"].map ofString

def falseSpellings : List Text := ["0", "f", "F", "FALSE", "false", "False"].map ofString

def readTruth (t : Text) : Option Bool :=
  if t ∈ trueSpellings then some true
  else if t ∈ falseSpellings then some false
  else none

end Treewalk.Text

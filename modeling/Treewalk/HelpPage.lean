import Treewalk.Options

/-! The help page, as the sequence of pieces in which it is written. A writer that fails early
keeps the pieces in front. -/
namespace Treewalk.HelpPage

def upper (t : Text) : Text :=
  t.map fun b => if Text.ascii 'a' ≤ b && b ≤ Text.ascii 'z' then b - 32 else b

def synopsis (s : Setting) : Text :=
  let option := Text.ofString "--" ++ s.label
  if s.isFlag then option else option ++ Text.ofString " " ++ upper s.label

def usagePieces (s : Setting) : List Text :=
  match s.default? with
  | some _ => [" ", "[", synopsis s, "]"]
  | none => [" ", synopsis s]

def origins (s : Setting) : Text :=
  let given := (s.default?.map fun t => Text.ofString "default: " ++ t).toList
  Text.commaList (given ++ [Text.ofString "env: " ++ s.variableName])

def settingPieces (s : Setting) : List Text :=
  [Text.ofString "  " ++ synopsis s, Text.ofString " [" ++ origins s ++ Text.ofString "]", "\n"]

def pieces : List Text :=
  [Text.ofString "Usage:", Text.ofString " runner"] ++ Setting.all.flatMap usagePieces
    ++ [Text.ofString "\n", Text.ofString "\nOptions:\n"] ++ Setting.all.flatMap settingPieces
    ++ ["  --help, -h", "             ", "display this help and exit", "\n"].map Text.ofString

/-- What a writer that accepts so many pieces keeps of the page. -/
def written (limit : Option Nat) : Text :=
  match limit with
  | some n => (pieces.take n).flatten
  | none => pieces.flatten

end Treewalk.HelpPage

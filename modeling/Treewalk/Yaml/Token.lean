import Treewalk.Text

/-! Tokens of a document. Indentation is already turned into the start and end of blocks, and
keys without an indicator of their own are preceded by one. -/
namespace Treewalk.Yaml

inductive Style where
  | plain
  | quoted
  | block
deriving DecidableEq

inductive Token where
  | streamEnd
  | version (major minor : Nat)
  | tagDirective (handle expansion : Text)
  | documentStart
  | documentEnd
  | blockSequence
  | blockMapping
  | blockEnd
  | flowSequence
  | flowSequenceEnd
  | flowMapping
  | flowMappingEnd
  | blockEntry
  | flowEntry
  | key
  | value
  | reference (name : List Char)
  | anchor (name : List Char)
  | tag (handle suffix : Text)
  | scalar (style : Style) (text : List Char)
deriving DecidableEq

end Treewalk.Yaml

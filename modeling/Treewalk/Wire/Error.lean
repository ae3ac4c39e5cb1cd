import Treewalk.Text

/-! Reasons for which a piece of wire text cannot be read. -/
namespace Treewalk.Wire

inductive ReadError where
  | keyNotFound
  | noValue
  | unclosedString
  | unclosedArray
  | unclosedObject
  | unknownValue
  | badValue
  | overflow
  | notANumber (raw : Text)
  | notABoolean (raw : Text)

def ReadError.message : ReadError → Text
  | .keyNotFound => "Key path not found"
  | .noValue => "Malformed JSON error"
  | .unclosedString => "Value is string, but can't find closing '\"' symbol"
  | .unclosedArray => "Value is array, but can't find closing ']' symbol"
  | .unclosedObject => "Value looks like object, but can't find closing '\x7d' symbol"
  | .unknownValue => "Unknown value type"
  | .badValue =>
    "Value looks like Number/Boolean/None, but can't find its end: ',' or '\x7d' symbol"
  | .overflow => "Value is number, but overflowed while parsing"
  | .notANumber raw => Text.ofString "Value is not a number: " ++ raw
  | .notABoolean raw => Text.ofString "Value is not a boolean: " ++ raw

end Treewalk.Wire

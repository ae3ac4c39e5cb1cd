import Treewalk.Datum.Basic
import Treewalk.Number.Written
import Treewalk.Text.Truth
import Treewalk.Text.Utf8

/-! Generic data as JSON text: no blanks, members sorted by their names, and strings escaped so
that they may stand in markup. All keys of a mapping are written before any of its values, so a
key that cannot be written is found first. -/
namespace Treewalk

open Text (ascii)

inductive WriteError where
  | badKey
  | nonFinite (x : NonFinite)
  | zoneTooFar
deriving DecidableEq

def NonFinite.text : NonFinite → Text
  | .notANumber => "NaN"
  | .positive => "+Inf"
  | .negative => "-Inf"

def WriteError.message : WriteError → Text
  | .badKey => "jsontext: object member name must be a string"
  | .nonFinite x => Text.ofString "json: unsupported value: " ++ x.text
  | .zoneTooFar =>
    "json: error calling MarshalJSON for type *time.Time: timezone hour outside of range [0,23]"

namespace Json

def unitEscape (n : Nat) : Text := Text.ofString "\\u" ++ Text.hex 4 n

def isHidden (n : Nat) : Bool :=
  n < 0x20 || n = '<'.toNat || n = '>'.toNat || n = '&'.toNat || n = 0x2028 || n = 0x2029

def escape (n : Nat) : Text :=
  if n = '"'.toNat then "\\\""
  else if n = '\\'.toNat then "\\\\"
  else if n = 8 then "\\b"
  else if n = 12 then "\\f"
  else if n = 10 then "\\n"
  else if n = 13 then "\\r"
  else if n = 9 then "\\t"
  else if isHidden n then unitEscape n
  else Text.Utf8.encode n

/-- A text in quotes. Octets that form no character are written as U+FFFD. -/
def quoted (t : Text) : Text :=
  let body := (Text.Utf8.scan t).flatMap fun
    | .inr n => escape n
    | .inl _ => escape Text.Utf8.replacement
  ascii '"' :: body ++ [ascii '"']

end Json

def Text.le : Text → Text → Bool
  | [], _ => true
  | _ :: _, [] => false
  | a :: as, b :: bs => a < b || (a = b && le as bs)

def Timestamp.json (t : Timestamp) : Except WriteError Text :=
  if t.writable then .ok t.text else .error .zoneTooFar

def Key.name : Key → Except WriteError Text
  | .text t => .ok (Text.Utf8.cleaned t)
  | .int i => .ok (Text.integer i)
  | .time t => t.json
  | .nonFinite x => .error (.nonFinite x)
  | .bool _ | .null | .float => .error .badKey

namespace Datum

def joinMembers (members : List (Text × Except WriteError Text)) : Except WriteError Text := do
  let sorted := members.mergeSort fun a b => Text.le a.1 b.1
  let written ← sorted.mapM fun (name, v) => return Json.quoted name ++ ascii ':' :: (← v)
  return ascii '\x7b' :: List.intercalate [ascii ','] written ++ [ascii '\x7d']

mutual

def json : Datum → Except WriteError Text
  | .null => .ok "null"
  | .bool b => .ok (Text.truth b)
  | .int i => .ok (Text.integer i)
  | .float x => .ok (x.text .plain)
  | .nonFinite x => .error (.nonFinite x)
  | .time t => return Json.quoted (← t.json)
  | .text t => .ok (Json.quoted t)
  | .seq items => do
    let written ← jsonItems items
    return ascii '[' :: List.intercalate [ascii ','] written ++ [ascii ']']
  | .record members => joinMembers (jsonMembers members)
  | .map members => do
    let names ← members.mapM (·.1.name)
    joinMembers (names.zip (jsonValues members))

def jsonItems : List Datum → Except WriteError (List Text)
  | [] => .ok []
  | d :: rest => return (← d.json) :: (← jsonItems rest)

def jsonMembers : List (Text × Datum) → List (Text × Except WriteError Text)
  | [] => []
  | (name, v) :: rest => (name, v.json) :: jsonMembers rest

def jsonValues : List (Key × Datum) → List (Except WriteError Text)
  | [] => []
  | (_, v) :: rest => v.json :: jsonValues rest

end

end Datum
end Treewalk

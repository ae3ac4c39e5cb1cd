import Treewalk.Datum.Timestamp
import Treewalk.Number.Binary64

/-! Generic data: what a document holds before anything is known about its meaning. Members of a
mapping are kept in the order in which their keys were first set. -/
namespace Treewalk

inductive NonFinite where
  | notANumber
  | positive
  | negative
deriving DecidableEq

inductive Key where
  | text (t : Text)
  | int (i : Int)
  | time (t : Timestamp)
  | bool (b : Bool)
  | null
  | float
  | nonFinite (x : NonFinite)
deriving DecidableEq

/-- Keys that equal no other key, not even one that is written alike: what is no number, and
points in time whose zone is none in common use. -/
def Key.isSingular : Key → Bool
  | .time t => !t.zone.isCommon
  | .nonFinite x => x = .notANumber
  | _ => false

inductive Datum where
  | null
  | bool (b : Bool)
  | int (i : Int)
  | float (x : Number.Binary64)
  | nonFinite (x : NonFinite)
  | time (t : Timestamp)
  | text (t : Text)
  | seq (items : List Datum)
  | record (members : List (Text × Datum))
  | map (members : List (Key × Datum))

namespace Datum

def key? : Datum → Option Key
  | .null => some .null
  | .bool b => some (.bool b)
  | .int i => some (.int i)
  | .float _ => some .float
  | .nonFinite x => some (.nonFinite x)
  | .time t => some (.time t)
  | .text t => some (.text t)
  | .seq _ | .record _ | .map _ => none

end Datum
end Treewalk

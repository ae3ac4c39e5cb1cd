import Treewalk.Eval.Run
import Treewalk.Level

/-! Journal entries: what an evaluation reports about itself. An entry is kept by its meaning;
its level, message and fields follow from that. -/
namespace Treewalk

inductive Entry where
  | arityMismatch (m : ArityMismatch)
  | trace (events : List (Text × Int))
  | failed (kind : Text) (message : Text)
  | finished (result : Text)
  | running (program : Text)

inductive FieldValue where
  | number (n : Nat)
  | text (t : Text)

namespace Entry

def level : Entry → Level
  | .failed _ _ => .warn
  | .running _ => .info
  | _ => .debug

/-- A line of a trace: how many microseconds had passed, and what happened. -/
def traceLine (event : Text × Int) : Text :=
  let elapsed := Text.integer (event.2.tdiv 1000)
  Text.ascii '\t' :: elapsed.leftpad 5 (Text.ascii ' ') ++ Text.ofString "us: " ++ Text.line event.1

def message : Entry → Text
  | .arityMismatch _ => "arity mismatch in function application"
  | .trace events => Text.ofString "====Trace====\n" ++ events.flatMap traceLine
  | .failed _ _ => "evaluation failed"
  | .finished _ => "evaluation finished"
  | .running _ => "running program"

def fields : Entry → List (Text × FieldValue)
  | .arityMismatch m => [("params", .number m.params), ("args", .number m.args)]
  | .trace _ => []
  | .failed kind message => [("kind", .text kind), ("error", .text message)]
  | .finished result => [("result", .text result)]
  | .running program => [("program", .text program)]

end Entry
end Treewalk

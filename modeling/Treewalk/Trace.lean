import Treewalk.Text

/-! Traces: events and when they happened. A clock is read when a trace begins and once more for
each event, and the events are told in the order of these readings. -/
namespace Treewalk

structure Trace where
  clock : Nat → Int
  marked : Array Text

namespace Trace

def mark (t : Trace) (event : Text) : Trace := { t with marked := t.marked.push event }

/-- The time from the beginning of the trace to an event, within the bounds of durations. -/
def elapsed (t : Trace) (k : Nat) : Int :=
  max Int64.minValue.toInt (min Int64.maxValue.toInt (t.clock (k + 1) - t.clock 0))

def timed (t : Trace) : List (Text × Int) :=
  t.marked.toList.zipIdx.map fun e => (e.1, t.elapsed e.2)

/-- The events in the order in which they happened; those of the same time stay as they were
marked. -/
def sorted (t : Trace) : List (Text × Int) := t.timed.mergeSort fun a b => a.2 ≤ b.2

def events (t : Trace) : List Text := t.sorted.map (·.1)

end Trace
end Treewalk

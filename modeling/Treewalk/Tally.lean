import Treewalk.Table
import Treewalk.Text

/-! Counters by label. A label that was never counted is absent. -/
namespace Treewalk

abbrev Tally := Table Text Nat

namespace Tally

def count (t : Tally) (label : Text) : Nat := (t.lookup label).getD 0

def add (t : Tally) (label : Text) : Tally := t.set label (t.count label + 1)

end Tally

/-- What is counted about evaluations: outcomes, errors by kind, and timed sections by name. -/
structure Metrics where
  evaluations : Tally
  errors : Tally
  durations : Tally

namespace Metrics

def none : Metrics := ⟨[], [], []⟩

def observe (m : Metrics) (name : Text) : Metrics :=
  { m with durations := m.durations.add name }

end Metrics
end Treewalk

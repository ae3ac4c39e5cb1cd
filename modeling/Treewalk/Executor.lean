import Treewalk.Eval.Basic
import Treewalk.Journal
import Treewalk.Tally
import Treewalk.Trace

/-! Evaluation with accounting. An executed evaluation is timed, marked in the trace, counted by
its outcome, and reported in the journal; none of this changes what it evaluates to. -/
namespace Treewalk

/-- What a host of evaluations keeps beside the scopes. -/
structure Host where
  journal : Array Entry
  trace : Option Trace
  metrics : Metrics

namespace Host

def new (traced : Bool) (clock : Nat → Int := fun _ => 0) : Host :=
  ⟨#[], if traced then some ⟨clock, #[]⟩ else none, .none⟩

def mark (h : Host) (event : Text) : Host := { h with trace := h.trace.map (·.mark event) }

def log (h : Host) (e : Entry) : Host := { h with journal := h.journal.push e }

def logTrace (h : Host) : Host :=
  match h.trace with
  | some trace => h.log (.trace trace.sorted)
  | none => h

def observe (h : Host) (name : Text) : Host :=
  { h with metrics := h.metrics.observe name }

def logMismatches (h : Host) (st : State) : Host :=
  st.mismatches.foldl (fun h m => h.log (.arityMismatch m)) h

def countSuccess (h : Host) : Host :=
  { h with metrics := { h.metrics with evaluations := h.metrics.evaluations.add "ok" } }

def countFailure (h : Host) (kind : Text) : Host :=
  { h with
    metrics := { h.metrics with
      evaluations := h.metrics.evaluations.add "error"
      errors := h.metrics.errors.add kind } }

/-- Accounts for an evaluation that ended; the journal is written only if `logged`. -/
def account (h : Host) (logged : Bool) (outcome : Outcome Value) : Host :=
  let journal (h : Host) (write : Host → Host) : Host := if logged then write h else h
  match outcome with
  | .exhausted => h
  | .value v st =>
    let h := journal (h.mark "eval.start") (·.logMismatches st)
    let h := journal (h.mark "eval.done") (·.logTrace)
    let h := journal h.countSuccess (·.log (.finished v.text))
    h.observe "interpreter.eval"
  | .fault f st =>
    let kind := ErrorKind.labelOf f.kind?
    let h := journal (h.mark "eval.start") (·.logMismatches st)
    let h := journal (h.mark "eval.done") (·.logTrace)
    let h := journal (h.countFailure kind) (·.log (.failed kind f.message))
    h.observe "interpreter.eval"

end Host

def evaluate (n : Nat) (t : Tree) (s : ScopeId) (store : Store) (sink : Sink) : Outcome Value :=
  eval n s t ⟨store, sink, #[]⟩

def execute (n : Nat) (logged : Bool) (t : Tree) (s : ScopeId) (store : Store) (sink : Sink)
    (h : Host) : Outcome Value × Host :=
  let outcome := evaluate n t s store sink
  (outcome, h.account logged outcome)

end Treewalk

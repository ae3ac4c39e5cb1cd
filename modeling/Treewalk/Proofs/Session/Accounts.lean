import Mathlib.Algebra.BigOperators.Group.List.Basic
import Mathlib.Algebra.Ring.Nat
import Mathlib.Data.Int.ConditionallyCompleteOrder
import Mathlib.Order.ConditionallyCompleteLattice.Basic
import Treewalk.Proofs.Eval.Notes
import Treewalk.Session

/-! The accounts of a session. Counters, timed sections and traced events follow from the verdicts
of the executed evaluations and from the steps that time or mark something, whatever else happens
in between. Each executed evaluation does what the evaluation alone does, and reports on it. -/
namespace Treewalk

namespace Trace

variable {t : Trace}

theorem elapsed_mono (clock : Monotone t.clock) : Monotone t.elapsed := by
  intro i j le
  have later : t.clock (i + 1) ≤ t.clock (j + 1) := clock (by omega)
  simp only [elapsed]
  omega

theorem events_eq (clock : Monotone t.clock) : t.events = t.marked.toList := by
  have indices : t.marked.toList.zipIdx.Pairwise fun a b => a.2 < b.2 := by
    rw [← List.pairwise_map (f := Prod.snd), List.zipIdx_map_snd]
    exact List.pairwise_lt_range' 1
  have ordered : t.timed.Pairwise fun a b => decide (a.2 ≤ b.2) = true := by
    rw [timed, List.pairwise_map]
    exact indices.imp fun less => decide_eq_true (elapsed_mono clock less.le)
  rw [events, sorted, List.mergeSort_of_pairwise ordered, timed, List.map_map]
  exact List.zipIdx_map_fst 0 _

def markAll (t : Trace) (events : List Text) : Trace := events.foldl mark t

theorem clock_markAll (t : Trace) (events : List Text) : (t.markAll events).clock = t.clock := by
  induction events generalizing t with
  | nil => rfl
  | cons e events ih => exact ih (t.mark e)

theorem marked_markAll (t : Trace) (events : List Text) :
    (t.markAll events).marked.toList = t.marked.toList ++ events := by
  induction events generalizing t with
  | nil => simp [markAll]
  | cons e events ih =>
    rw [markAll, List.foldl_cons, ← markAll, ih]
    simp [mark]

theorem events_markAll (clock : Monotone t.clock) (events : List Text) :
    (t.markAll events).events = t.events ++ events := by
  have later : Monotone (t.markAll events).clock := by rwa [clock_markAll]
  rw [events_eq later, events_eq clock, marked_markAll]

end Trace

inductive Verdict where
  | finished
  | failed (f : Fault)

namespace Verdict

def outcome : Verdict → Text
  | .finished => "ok"
  | .failed _ => "error"

def kind? : Verdict → Option Text
  | .finished => none
  | .failed f => some (ErrorKind.labelOf f.kind?)

end Verdict

theorem Verdict.sum_outcomes (verdicts : List Verdict) :
    verdicts.countP (fun v => v.outcome = Text.ofString "ok") +
      verdicts.countP (fun v => v.outcome = Text.ofString "error") = verdicts.length := by
  have other (v : Verdict) :
      v.outcome = Text.ofString "error" ↔ ¬ v.outcome = Text.ofString "ok" := by
    cases v <;> simp [outcome] <;> decide
  rw [List.length_eq_countP_add_countP fun v : Verdict => decide (v.outcome = Text.ofString "ok")]
  simp only [other, decide_not, decide_eq_true_eq]

def ErrorKind.labels : List Text := (all.map some ++ [none]).map labelOf

theorem Verdict.sum_kinds (verdicts : List Verdict) :
    (ErrorKind.labels.map fun k => verdicts.countP (fun v => v.kind? = some k)).sum =
      verdicts.countP (fun v => v.outcome = Text.ofString "error") := by
  have once (kind : Option ErrorKind) :
      (ErrorKind.labels.map fun k => if ErrorKind.labelOf kind = k then 1 else 0).sum = 1 := by
    cases kind with
    | none => decide
    | some k => cases k <;> decide
  induction verdicts with
  | nil => simp
  | cons v verdicts ih =>
    simp only [List.countP_cons, List.sum_map_add, ih]
    cases v with
    | finished => simp [Verdict.kind?, Verdict.outcome]; decide
    | failed f => simp [Verdict.kind?, Verdict.outcome, once]

def executionMarks : List Text := ["eval.start", "eval.done"]

def Outcome.verdicts {α : Type} : Outcome α → List Verdict
  | .value _ _ => [.finished]
  | .fault f _ => [.failed f]
  | .exhausted => []

/-! What is booked about an evaluation -/

namespace Host

variable {h h₁ h₂ h₃ : Host}

/-- What the second host has counted, timed and marked since the first one. -/
structure Books (before after : Host) (verdicts : List Verdict) (timers marks : List Text) :
    Prop where
  evaluations (label : Text) : after.metrics.evaluations.count label =
    before.metrics.evaluations.count label + verdicts.countP (fun v => v.outcome = label)
  errors (label : Text) : after.metrics.errors.count label =
    before.metrics.errors.count label + verdicts.countP (fun v => v.kind? = some label)
  durations (name : Text) : after.metrics.durations.count name =
    before.metrics.durations.count name + timers.count name +
      if name = Text.ofString "interpreter.eval" then verdicts.length else 0
  trace : after.trace = before.trace.map fun t => t.markAll marks

namespace Books

theorem trans {verdicts verdicts' : List Verdict} {timers timers' marks marks' : List Text}
    (first : Books h₁ h₂ verdicts timers marks) (second : Books h₂ h₃ verdicts' timers' marks') :
    Books h₁ h₃ (verdicts ++ verdicts') (timers ++ timers') (marks ++ marks') where
  evaluations label := by
    rw [second.evaluations, first.evaluations, List.countP_append]
    omega
  errors label := by
    rw [second.errors, first.errors, List.countP_append]
    omega
  durations name := by
    rw [second.durations, first.durations, List.count_append, List.length_append]
    split <;> omega
  trace := by
    rw [second.trace, first.trace, Option.map_map]
    simp [Function.comp_def, Trace.markAll]

variable {verdicts : List Verdict} {timers marks : List Text}

theorem evaluated (books : Books h₁ h₂ verdicts timers marks) :
    h₂.metrics.evaluations.count "ok" + h₂.metrics.evaluations.count "error" =
      h₁.metrics.evaluations.count "ok" + h₁.metrics.evaluations.count "error" +
        verdicts.length := by
  have both := Verdict.sum_outcomes verdicts
  rw [books.evaluations, books.evaluations]
  omega

theorem kinds (books : Books h₁ h₂ verdicts timers marks) :
    (ErrorKind.labels.map h₂.metrics.errors.count).sum + h₁.metrics.evaluations.count "error" =
      (ErrorKind.labels.map h₁.metrics.errors.count).sum +
        h₂.metrics.evaluations.count "error" := by
  have counts : h₂.metrics.errors.count = fun k =>
      h₁.metrics.errors.count k + verdicts.countP (fun v => v.kind? = some k) :=
    funext books.errors
  rw [counts, List.sum_map_add, Verdict.sum_kinds, books.evaluations]
  omega

theorem timed (books : Books h₁ h₂ verdicts timers marks) :
    h₂.metrics.durations.count "interpreter.eval" =
      h₁.metrics.durations.count "interpreter.eval" + verdicts.length +
        timers.count (Text.ofString "interpreter.eval") := by
  rw [books.durations, if_pos rfl]
  omega

theorem events (books : Books h₁ h₂ verdicts timers marks)
    (clock : ∀ t ∈ h₁.trace, Monotone t.clock) :
    h₂.trace.map Trace.events = h₁.trace.map fun t => t.events ++ marks := by
  rw [books.trace, Option.map_map]
  exact Option.map_congr fun t traced => Trace.events_markAll (clock t traced) marks

end Books

/-- What an executed evaluation reports: the calls whose argument count did not fit, then the trace
as it is by then, and last how it came out. -/
def report (trace : Option Trace) (st : State) (last : Entry) : List Entry :=
  st.mismatches.toList.map .arityMismatch ++ trace.toList.map (fun t => .trace t.sorted) ++ [last]

end Host

/-! What is booked about a session -/

/-- The verdict on the evaluation that a step executes. Other steps execute nothing, and neither
does a step whose program cannot be decoded. -/
def Step.verdicts : Step → Answer → List Verdict
  | .eval _ _ (.executed _) _ _, .evaluated _ _ => [.finished]
  | .eval _ _ (.executed _) _ _, .failed f _ => [.failed f]
  | _, _ => []

def Step.timers : Step → List Text
  | .timer name => [name]
  | _ => []

def Step.marks (step : Step) (answer : Answer) : List Text :=
  match step with
  | .mark event => [event]
  | _ => (step.verdicts answer).flatMap fun _ => executionMarks

namespace Session

variable {s s' : Session} {n : Nat}

def after (n : Nat) (s : Session) : List Step → Session
  | [] => s
  | step :: rest => (s.step n step).1.after n rest

def verdicts (n : Nat) (s : Session) (steps : List Step) : List Verdict :=
  (steps.zip (s.steps n steps)).flatMap fun p => p.1.verdicts p.2

def marks (n : Nat) (s : Session) (steps : List Step) : List Text :=
  (steps.zip (s.steps n steps)).flatMap fun p => p.1.marks p.2

end Session

end Treewalk

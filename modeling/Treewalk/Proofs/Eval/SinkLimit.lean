import Treewalk.Proofs.Eval.Congruence
import Treewalk.Proofs.Eval.Discipline

/-! Sinks that stop accepting lines. Two evaluations that differ only in how many lines their sinks
accept run in step until the narrower sink refuses a line, and there the second one ends: it has
printed what the first one had printed by then, and nothing that follows can change its fault. -/
namespace Treewalk

/-- The line that the fault says was refused. -/
def Fault.refused : Fault → List Text
  | .refusedPrint line => [line]
  | _ => []

/-- The lines that a run with a new sink tried to print, the refused one included: a refused line
ends the run, so it is the last of them. -/
def Outcome.attempts {α : Type} : Outcome α → List Text
  | .value _ st => st.sink.lines.toList
  | .fault f st => st.sink.lines.toList ++ f.refused
  | .exhausted => []

def State.limited (limit : Nat) (st : State) : State :=
  { st with sink := { st.sink with limit := some limit } }

namespace Outcome

variable {α β : Type}

def limited (limit : Nat) : Outcome α → Outcome α
  | .value a st => .value a (st.limited limit)
  | .fault f st => .fault f (st.limited limit)
  | .exhausted => .exhausted

def Extends (st : State) : Outcome α → Prop
  | .value _ st' =>
    st'.sink.limit = st.sink.limit ∧ st.sink.lines.toList <+: st'.sink.lines.toList
  | .fault f st' => st.sink.lines.toList <+: st'.sink.lines.toList ++ f.refused
  | .exhausted => True

/-- The second outcome is the first one cut off at the line behind the first `limit` ones. -/
inductive Cut (limit : Nat) : Outcome α → Outcome α → Prop where
  | unknown {o : Outcome α} : Cut limit .exhausted o
  | kept {o : Outcome α} : o.attempts.length ≤ limit → Cut limit o (o.limited limit)
  | refused {o : Outcome α} {line : Text} {st : State} : o.attempts[limit]? = some line →
    st.sink.lines.toList = o.attempts.take limit → Cut limit o (.fault (.refusedPrint line) st)

theorem Extends.attempts {st : State} {o : Outcome α} (ends : o ≠ .exhausted)
    (longer : o.Extends st) : st.sink.lines.toList <+: o.attempts := by
  cases o with
  | value a st' => exact longer.2
  | fault f st' => exact longer
  | exhausted => exact absurd rfl ends

theorem Extends.trans {a : β} {st st' : State} {o : Outcome α}
    (first : (Outcome.value a st').Extends st) (second : o.Extends st') : o.Extends st := by
  cases o with
  | value b st'' => exact ⟨second.1.trans first.1, first.2.trans second.2⟩
  | fault f st'' => exact first.2.trans second
  | exhausted => trivial

theorem Cut.later {o : Outcome α} {lines : List Text} {limit : Nat} {line : Text} {st : State}
    (refused : lines[limit]? = some line) (printed : st.sink.lines.toList = lines.take limit)
    (longer : lines <+: o.attempts) : Cut limit o (.fault (.refusedPrint line) st) := by
  obtain ⟨rest, whole⟩ := longer
  have short : limit < lines.length := (List.getElem?_eq_some_iff.mp refused).1
  refine .refused ?_ ?_
  · rw [← whole, List.getElem?_append_left short, refused]
  · rw [← whole, List.take_append_of_le_length (by omega), printed]

theorem Cut.cast {limit : Nat} {f : Fault} {st : State} {o : Outcome α}
    (cut : Cut limit (.fault f st) o) :
    ∃ g st', o = .fault g st' ∧ Cut limit (.fault f st : Outcome β) (.fault g st') := by
  cases cut with
  | kept short => exact ⟨f, st.limited limit, rfl, .kept (o := .fault f st) short⟩
  | refused line printed => exact ⟨_, _, rfl, .refused line printed⟩

end Outcome

theorem Run.print_apply (v : Value) (st : State) :
    Run.print v st =
      if st.sink.accepts then
        .value () { st with sink := { st.sink with lines := st.sink.lines.push v.text } }
      else .fault (.refusedPrint v.text) st := by
  unfold Run.print Sink.write?
  split <;> simp_all

structure Run.Cuts (limit : Nat) (wide : Option Nat) {α : Type} (r r' : Run α) : Prop where
  longer (st : State) : (r st).Extends st
  cut (st : State) : st.sink.limit = wide → st.sink.lines.size ≤ limit →
    (r st).Cut limit (r' (st.limited limit))

/-- The run never looks at the sink and leaves it as it is. -/
structure Run.Silent {α : Type} (r : Run α) : Prop where
  sink (st : State) : (r st).Meets (fun _ st' => st'.sink = st.sink)
    (fun f st' => st'.sink = st.sink ∧ f.refused = [])
  limited (limit : Nat) (st : State) : r (st.limited limit) = (r st).limited limit

namespace Run.Silent

variable {α β : Type}

theorem pure (a : α) : (Run.pure a).Silent := ⟨fun _ => rfl, fun _ _ => rfl⟩

theorem bind {r : Run α} {k : α → Run β} (first : r.Silent) (next : ∀ a, (k a).Silent) :
    (r >>= k).Silent where
  sink st := by
    have start := first.sink st
    simp only [Bind.bind, Run.bind]
    cases ran : r st with
    | value a st' =>
      rw [ran] at start
      refine ((next a).sink st').imp (fun _ _ same => same.trans start) fun _ _ proper => ?_
      exact ⟨proper.1.trans start, proper.2⟩
    | fault f st' =>
      rw [ran] at start
      exact start
    | exhausted => trivial
  limited limit st := by
    simp only [Bind.bind, Run.bind, first.limited]
    cases r st with
    | value a st' => exact (next a).limited limit st'
    | _ => rfl

theorem fail {f : Fault} (other : f.refused = []) : (Run.fail f : Run α).Silent :=
  ⟨fun _ => ⟨rfl, other⟩, fun _ _ => rfl⟩

theorem lift {e : Except Fault α} (other : ∀ f, e = .error f → f.refused = []) :
    (Run.lift e).Silent := by
  cases e with
  | ok a => exact pure a
  | error f => exact fail (other f rfl)

theorem resolve (s : ScopeId) (name : Name) : (Run.resolve s name).Silent :=
  ⟨fun _ => rfl, fun _ _ => rfl⟩

theorem update (s : ScopeId) (name : Name) (v : Value) : (Run.update s name v).Silent :=
  ⟨fun _ => rfl, fun _ _ => rfl⟩

theorem create (s : ScopeId) (name : Name) (v : Value) : (Run.create s name v).Silent where
  sink st := by
    unfold Run.create
    split <;> simp [Outcome.Meets, Fault.refused]
  limited limit st := by
    unfold Run.create
    change (if st.store.declares s name then _ else _) = _
    split <;> rfl

theorem newScope (outer : Option ScopeId) : (Run.newScope outer).Silent :=
  ⟨fun _ => rfl, fun _ _ => rfl⟩

theorem newClosure (params : List Name) (body : Tree) (s : ScopeId) :
    (Run.newClosure params body s).Silent :=
  ⟨fun _ => rfl, fun _ _ => rfl⟩

theorem noteMismatch (params args : Nat) : (Run.noteMismatch params args).Silent := by
  constructor
  all_goals
    intros
    unfold Run.noteMismatch
    split <;> rfl

theorem cuts {limit : Nat} {wide : Option Nat} {r : Run α} (silent : r.Silent) :
    r.Cuts limit wide r where
  longer st := by
    have sink := silent.sink st
    cases outcome : r st with
    | value a st' => simp_all [Outcome.Meets, Outcome.Extends]
    | fault f st' => simp_all [Outcome.Meets, Outcome.Extends]
    | exhausted => trivial
  cut st _ room := by
    rw [silent.limited]
    refine .kept ?_
    have sink := silent.sink st
    cases outcome : r st with
    | value a st' => simp_all [Outcome.Meets, Outcome.attempts]
    | fault f st' => simp_all [Outcome.Meets, Outcome.attempts]
    | exhausted => simp [Outcome.attempts]

end Run.Silent

namespace Run.Cuts

variable {limit : Nat} {wide : Option Nat} {α β : Type}

theorem bind {r r' : Run α} {k k' : α → Run β} (first : Cuts limit wide r r')
    (next : ∀ a, Cuts limit wide (k a) (k' a)) : Cuts limit wide (r >>= k) (r' >>= k') where
  longer st := by
    have start := first.longer st
    simp only [Bind.bind, Run.bind]
    cases outcome : r st with
    | value a st' =>
      rw [outcome] at start
      exact start.trans ((next a).longer st')
    | fault f st' =>
      rw [outcome] at start
      exact start
    | exhausted => trivial
  cut st same room := by
    have start := first.longer st
    have cut := first.cut st same room
    simp only [Bind.bind, Run.bind]
    cases outcome : r st with
    | value a st' =>
      rw [outcome] at start cut
      have rest := (next a).longer st'
      generalize r' (st.limited limit) = o at cut
      cases cut with
      | kept short =>
        -- Still in step: the rest of the run is cut off as the second part is.
        exact (next a).cut st' (start.1.trans same) (by simpa [Outcome.attempts] using short)
      | refused line printed =>
        change (k a st').Cut limit _
        by_cases ends : k a st' = .exhausted
        · rw [ends]
          exact .unknown
        · exact .later line printed (rest.attempts ends)
    | fault f st' =>
      rw [outcome] at cut
      obtain ⟨g, st'', same, cut⟩ := cut.cast (β := β)
      rw [same]
      exact cut
    | exhausted => exact .unknown

theorem fail (f : Fault) : Cuts limit wide (Run.fail f : Run α) (Run.fail f) where
  longer st := List.prefix_append _ _
  cut st _ room := by
    by_cases short : (st.sink.lines.toList ++ f.refused).length ≤ limit
    · exact .kept (o := .fault f st) short
    · cases f with
      | refusedPrint line =>
        have full : limit = st.sink.lines.toList.length := by
          simp only [Fault.refused, List.length_append, List.length_singleton,
            Array.length_toList] at short ⊢
          omega
        exact .refused (by simp [Run.fail, Outcome.attempts, Fault.refused, full])
          (by simp [Run.fail, Outcome.attempts, Fault.refused, full, State.limited])
      | _ => simp [Fault.refused, room] at short

theorem print (fewer : ∀ m, wide = some m → limit ≤ m) (v : Value) :
    Cuts limit wide (Run.print v) (Run.print v) where
  longer st := by
    rw [Run.print_apply]
    split <;> simp [Outcome.Extends]
  cut st same room := by
    by_cases free : st.sink.lines.size < limit
    · have accepts : st.sink.accepts = true := by
        unfold Sink.accepts
        rw [same]
        cases wide with
        | none => rfl
        | some m => simpa using Nat.lt_of_lt_of_le free (fewer m rfl)
      have narrow : (st.limited limit).sink.accepts = true := decide_eq_true free
      rw [Run.print_apply, Run.print_apply, if_pos accepts, if_pos narrow]
      refine .kept (o := .value () _) ?_
      simp only [Outcome.attempts, Array.toList_push, List.length_append, Array.length_toList,
        List.length_singleton]
      omega
    · have narrow : (st.limited limit).sink.accepts = false := decide_eq_false free
      have refuses : Run.print v (st.limited limit) =
          .fault (.refusedPrint v.text) (st.limited limit) := by
        rw [Run.print_apply, narrow]
        rfl
      -- Whether or not the wide sink takes the line, it was attempted.
      have attempted : (Run.print v st).attempts = st.sink.lines.toList ++ [v.text] := by
        rw [Run.print_apply]
        split <;> simp [Outcome.attempts, Fault.refused]
      have full : limit = st.sink.lines.toList.length := by
        rw [Array.length_toList]
        omega
      rw [refuses]
      refine .refused ?_ ?_
      · simp [attempted, full]
      · simp [attempted, full, State.limited]

end Run.Cuts

theorem Run.cuts_congruence {limit : Nat} {wide : Option Nat}
    (fewer : ∀ m, wide = some m → limit ≤ m) :
    Run.Congruence fun _ => Run.Cuts limit wide where
  pure a := (Silent.pure a).cuts
  bind := Run.Cuts.bind
  exhausted _ := ⟨fun _ => trivial, fun _ _ _ => .unknown⟩
  fail := Run.Cuts.fail
  resolve s name := (Silent.resolve s name).cuts
  update s name v := (Silent.update s name v).cuts
  create s name v := (Silent.create s name v).cuts
  newScope outer := (Silent.newScope outer).cuts
  newClosure params body s := (Silent.newClosure params body s).cuts
  print := Run.Cuts.print fewer
  noteMismatch params args := (Silent.noteMismatch params args).cuts

theorem Fault.message_refusedPrint (line : Text) : (Fault.refusedPrint line).message =
    Text.ofString "could not print '" ++ line ++ Text.ofString "': sink closed" := by
  have opening : Text.ofString "could not print '" =
      Text.ofString "could not print " ++ [Text.ascii '\''] := by decide
  have closing : Text.ofString "': sink closed" =
      [Text.ascii '\''] ++ (Text.ofString ": " ++ Text.ofString "sink closed") := by decide
  rw [opening, closing]
  simp [Fault.message, Fault.root, Fault.detail, Text.shown]

/-- A sink that accepts fewer lines cuts an evaluation off exactly at the first line it refuses: up
to there nothing differs, and there the evaluation fails. -/
theorem narrow_sink_cuts (store : Store) (log : Array ArityMismatch) (s : ScopeId) (t : Tree)
    (n narrow : Nat) (wide : Option Nat) (fewer : ∀ m, wide = some m → narrow ≤ m)
    (o : Outcome Value) (ran : eval n s t ⟨store, ⟨wide, #[]⟩, log⟩ = o) (ends : o ≠ .exhausted) :
    eval n s t ⟨store, ⟨some narrow, #[]⟩, log⟩ ≠ .exhausted ∧
    if o.attempts.length ≤ narrow then
      Outcome.Rel
        (fun v w st₁ st₂ => v = w ∧ st₁.store = st₂.store ∧ st₁.sink.lines = st₂.sink.lines ∧
          st₁.mismatches = st₂.mismatches)
        (fun f g st₁ st₂ => f = g ∧ st₁.store = st₂.store ∧ st₁.sink.lines = st₂.sink.lines ∧
          st₁.mismatches = st₂.mismatches)
        o (eval n s t ⟨store, ⟨some narrow, #[]⟩, log⟩)
    else
      ∃ f st' line, eval n s t ⟨store, ⟨some narrow, #[]⟩, log⟩ = .fault f st' ∧
        st'.sink.lines.toList = o.attempts.take narrow ∧ o.attempts[narrow]? = some line ∧
        f.message = Text.ofString "could not print '" ++ line ++ Text.ofString "': sink closed" ∧
        ErrorKind.labelOf f.kind? = Text.ofString "unknown" := by
  have cuts := (Run.cuts_congruence fewer).eval (Nat.le_refl n) s t
  have cut : o.Cut narrow (eval n s t ⟨store, ⟨some narrow, #[]⟩, log⟩) :=
    ran ▸ cuts.cut ⟨store, ⟨wide, #[]⟩, log⟩ rfl (Nat.zero_le narrow)
  generalize eval n s t ⟨store, ⟨some narrow, #[]⟩, log⟩ = o' at cut
  cases cut with
  | unknown => exact absurd rfl ends
  | kept short =>
    rw [if_pos short]
    cases o with
    | value v st => exact ⟨nofun, .value ⟨rfl, rfl, rfl, rfl⟩⟩
    | fault f st => exact ⟨nofun, .fault ⟨rfl, rfl, rfl, rfl⟩⟩
    | exhausted => exact absurd rfl ends
  | @refused _ line st' attempted printed =>
    have long : ¬o.attempts.length ≤ narrow :=
      Nat.not_le.mpr (List.getElem?_eq_some_iff.mp attempted).1
    rw [if_neg long]
    exact ⟨nofun, _, st', line, rfl, printed, attempted, Fault.message_refusedPrint line, rfl⟩

def Tree.echo : Tree :=
  .binary (.print (.int 1)) "+" (.call (.function ["x"] (.print (.var "x"))) [.print (.int 2)])

theorem echo_cut :
    (eval 9 0 .echo ⟨⟨#[⟨none, []⟩], 0⟩, ⟨none, #[]⟩, #[]⟩).attempts =
        [Text.ofString "1", Text.ofString "2", Text.ofString "2"] ∧
      eval 9 0 .echo ⟨⟨#[⟨none, []⟩], 0⟩, ⟨some 3, #[]⟩, #[]⟩ ≠ .exhausted ∧
      ∃ f st', eval 9 0 .echo ⟨⟨#[⟨none, []⟩], 0⟩, ⟨some 2, #[]⟩, #[]⟩ = .fault f st' ∧
        st'.sink.lines.toList = [Text.ofString "1", Text.ofString "2"] ∧
        f.message = Text.ofString "could not print '2': sink closed" := by
  have attempts : (eval 9 0 .echo ⟨⟨#[⟨none, []⟩], 0⟩, ⟨none, #[]⟩, #[]⟩).attempts =
      [Text.ofString "1", Text.ofString "2", Text.ofString "2"] := by decide +kernel
  have ends : eval 9 0 .echo ⟨⟨#[⟨none, []⟩], 0⟩, ⟨none, #[]⟩, #[]⟩ ≠ .exhausted := by
    intro exhausted
    rw [exhausted] at attempts
    cases attempts
  have three := narrow_sink_cuts ⟨#[⟨none, []⟩], 0⟩ #[] 0 .echo 9 3 none nofun _ rfl ends
  have two := narrow_sink_cuts ⟨#[⟨none, []⟩], 0⟩ #[] 0 .echo 9 2 none nofun _ rfl ends
  rw [attempts] at two
  obtain ⟨-, f, st', line, failed, printed, attempted, message, -⟩ := two
  refine ⟨attempts, three.1, f, st', failed, printed, ?_⟩
  cases attempted
  exact message.trans (by decide)

end Treewalk

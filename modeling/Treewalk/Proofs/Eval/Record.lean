import Treewalk.Proofs.Eval.SinkLimit

/-! Evaluation with a record of what happens in it. The record has the start and the end of every
evaluation, down to the operands, rounds, arguments and function bodies, every call of a function
and every attempt to print. Values are printed to a listener, which may refuse a value for any
reason; for the listener that keeps lines as sinks do, what is recorded is what the evaluator
does. -/
namespace Treewalk

/-- Anything that values can be printed to. It may refuse a value, with an error of its own, and
may take into account what it was given before. -/
structure Listener where
  refusal? : Sink → Value → Option Cause

def Listener.lines : Listener where
  refusal? sink _ := if sink.accepts then none else some (.other "sink closed")

/-- Why an evaluation fails: it raised a fault, or a value was refused with an error. -/
inductive Failure where
  | raised (f : Fault)
  | refused (v : Value) (said : Cause)

namespace Failure

def fault : Failure → Fault
  | .raised f => f
  | .refused v _ => .refusedPrint v.text

def cause : Failure → Cause
  | .raised f => f.cause
  | .refused v said => .wrap (Fault.refusedPrint v.text).detail said

end Failure

inductive Ending (α : Type) where
  | value (a : α) (state : State)
  | failure (e : Failure) (state : State)
  | exhausted

inductive Event where
  | started (s : ScopeId) (t : Tree) (state : State)
  | ended (s : ScopeId) (t : Tree) (start : State) (result : Ending Value)
  | called (c : Closure) (args : List Value) (state : State)
  | taken (v : Value) (state : State)
  | refused (v : Value) (said : Cause) (state : State)

/-- An ending, with the events on the way to it in the order in which they happened. -/
structure Observed (α : Type) where
  ending : Ending α
  events : List Event

def Recorded (α : Type) := State → Observed α

def Ending.outcome {α : Type} : Ending α → Outcome α
  | .value a st => .value a st
  | .failure e st => .fault e.fault st
  | .exhausted => .exhausted

def Outcome.ending {α : Type} : Outcome α → Ending α
  | .value a st => .value a st
  | .fault f st => .failure (.raised f) st
  | .exhausted => .exhausted

def Ending.Meets {α : Type} (onValue : α → State → Prop) (onFailure : Failure → State → Prop) :
    Ending α → Prop
  | .value a st => onValue a st
  | .failure e st => onFailure e st
  | .exhausted => True

theorem Ending.Meets.imp {α : Type} {V V' : α → State → Prop} {F F' : Failure → State → Prop}
    {ending : Ending α} (meets : ending.Meets V F) (value : ∀ a st, V a st → V' a st)
    (failure : ∀ e st, F e st → F' e st) : ending.Meets V' F' := by
  cases ending with
  | value a st => exact value a st meets
  | failure e st => exact failure e st meets
  | exhausted => trivial

theorem Outcome.outcome_ending {α : Type} (o : Outcome α) : o.ending.outcome = o := by
  cases o <;> rfl

namespace Recorded

variable {α β : Type}

protected def pure (a : α) : Recorded α := fun st => ⟨.value a st, []⟩

protected def bind (q : Recorded α) (next : α → Recorded β) : Recorded β := fun st =>
  match q st with
  | ⟨.value a st', events⟩ => ⟨(next a st').ending, events ++ (next a st').events⟩
  | ⟨.failure e st', events⟩ => ⟨.failure e st', events⟩
  | ⟨.exhausted, events⟩ => ⟨.exhausted, events⟩

instance : Monad Recorded where
  pure := Recorded.pure
  bind := Recorded.bind

theorem bind_apply (q : Recorded α) (next : α → Recorded β) (st : State) :
    (q >>= next) st =
      match (q st).ending with
      | .value a st' => ⟨(next a st').ending, (q st).events ++ (next a st').events⟩
      | .failure e st' => ⟨.failure e st', (q st).events⟩
      | .exhausted => ⟨.exhausted, (q st).events⟩ := by
  simp only [Bind.bind, Recorded.bind]
  rcases q st with ⟨ending, events⟩
  cases ending <;> rfl

def exhausted : Recorded α := fun _ => ⟨.exhausted, []⟩

def act (r : Run α) : Recorded α := fun st => ⟨(r st).ending, []⟩

def call (c : Closure) (args : List Value) : Recorded ScopeId := fun st =>
  ⟨(enter c args st).ending, [.called c args st]⟩

def print (L : Listener) (v : Value) : Recorded Unit := fun st =>
  match L.refusal? st.sink v with
  | none =>
    ⟨.value () { st with sink := { st.sink with lines := st.sink.lines.push v.text } },
      [.taken v st]⟩
  | some said => ⟨.failure (.refused v said) st, [.refused v said st]⟩

def within (s : ScopeId) (t : Tree) (q : Recorded Value) : Recorded Value := fun st =>
  ⟨(q st).ending, .started s t st :: (q st).events ++ [.ended s t st (q st).ending]⟩

def each (action : α → Recorded β) : List α → Recorded (List β)
  | [] => Recorded.pure []
  | a :: rest => do
    let b ← action a
    let bs ← each action rest
    return b :: bs

def iterate (test : Recorded Bool) (body : Recorded α) : Nat → α → Recorded α
  | 0, _ => exhausted
  | n + 1, last => do
    let holds ← test
    if holds then
      let a ← body
      iterate test body n a
    else Recorded.pure last

end Recorded

open Recorded in
/-- Evaluates a tree in a scope, as `eval` does, and records what happens. -/
def record (L : Listener) : Nat → ScopeId → Tree → Recorded Value
  | 0, s, t => within s t exhausted
  | n + 1, s, t => within s t <|
    match t with
    | .missing => act (Run.fail .missingNode)
    | .atom type lexeme => act (Run.lift (literal type lexeme))
    | .var name => act (Run.resolve s name)
    | .print operand => do
      let v ← record L n s operand
      print L v
      return v
    | .binary left op right => do
      let l ← record L n s left
      let r ← record L n s right
      act (Run.lift (Value.operate op l r))
    | .ifElse condition thenDo elseDo => do
      let a ← record L n s thenDo
      let b ← match elseDo with
        | .missing => Recorded.pure .null
        | other => record L n s other
      let c ← record L n s condition
      let holds ← act (Run.lift (truthOf condition c))
      return if holds then a else b
    | .loop condition body =>
      iterate
        (do let c ← record L n s condition; act (Run.lift (truthOf condition c)))
        (record L n s body) n .null
    | .seq first second => do
      let _ ← record L n s first
      record L n s second
    | .declare name init => do
      let v ← record L n s init
      act (Run.create s name v)
      return v
    | .assign name expr => do
      let v ← record L n s expr
      act (Run.update s name v)
      act (Run.resolve s name)
    | .function params body => act (Run.newClosure params body s)
    | .call callee args => do
      let f ← record L n s callee
      match f with
      | .closure c => do
        let vs ← each (record L n s) args
        let s' ← call c vs
        record L n s' c.body
      | v => act (Run.fail (.notAFunction callee.text v.text))

/-! Steps that print nothing -/

namespace Run.Silent

theorem bindParams (s : ScopeId) (params : List Name) (args : List Value) :
    (bindParams s params args).Silent := by
  induction params generalizing args with
  | nil => exact pure ()
  | cons p params ih => exact bind (create s p _) fun _ => ih args.tail

theorem enter (c : Closure) (args : List Value) : (enter c args).Silent := by
  refine bind (noteMismatch _ _) fun _ => bind (newScope c.scope) fun s => ?_
  exact bind (bindParams s c.params args) fun _ => pure s

end Run.Silent

structure Run.Plain {α : Type} (r : Run α) : Prop extends r.Silent where
  notes (st : State) : (r st).Meets (fun _ st' => st'.mismatches = st.mismatches)
    (fun _ st' => st'.mismatches = st.mismatches)

namespace Run.Plain

variable {α : Type}

theorem fail {f : Fault} (other : f.refused = []) : (Run.fail f : Run α).Plain :=
  ⟨.fail other, fun _ => rfl⟩

theorem lift {e : Except Fault α} (other : ∀ f, e = .error f → f.refused = []) :
    (Run.lift e).Plain where
  toSilent := .lift other
  notes st := by cases e <;> rfl

theorem literal (type : AtomType) (lexeme : Text) : (Run.lift (literal type lexeme)).Plain := by
  refine lift fun f failed => ?_
  unfold Treewalk.literal at failed
  repeat' split at failed
  all_goals
    cases failed
    try rfl

theorem operate (op : Text) (l r : Value) : (Run.lift (Value.operate op l r)).Plain := by
  have applied (o : Operator) (a b : Int64) (f : Fault) (failed : o.apply a b = .error f) :
      f.refused = [] := by
    cases o <;> simp only [Operator.apply] at failed
    case div | mod =>
      split at failed <;> cases failed
      rfl
    all_goals cases failed
  refine lift fun f failed => ?_
  unfold Value.operate at failed
  repeat' split at failed
  case h_1 => exact applied _ _ _ f failed
  all_goals
    cases failed
    try rfl

theorem truthOf (condition : Tree) (v : Value) : (Run.lift (truthOf condition v)).Plain := by
  refine lift fun f failed => ?_
  cases v <;> cases failed <;> rfl

theorem resolve (s : ScopeId) (name : Name) : (Run.resolve s name).Plain :=
  ⟨.resolve s name, fun _ => rfl⟩

theorem update (s : ScopeId) (name : Name) (v : Value) : (Run.update s name v).Plain :=
  ⟨.update s name v, fun _ => rfl⟩

theorem create (s : ScopeId) (name : Name) (v : Value) : (Run.create s name v).Plain where
  toSilent := .create s name v
  notes st := by
    unfold Run.create
    split <;> rfl

theorem newClosure (params : List Name) (body : Tree) (s : ScopeId) :
    (Run.newClosure params body s).Plain :=
  ⟨.newClosure params body s, fun _ => rfl⟩

end Run.Plain

/-! Evaluation and its record side by side -/

/-- What a relation between runs and recorded runs owes to the steps of evaluation. -/
structure Recorded.Follows (L : Listener) (R : ∀ α : Type, Run α → Recorded α → Prop) : Prop where
  pure {α : Type} (a : α) : R α (Run.pure a) (Recorded.pure a)
  bind {α β : Type} {r : Run α} {q : Recorded α} {k : α → Run β} {l : α → Recorded β} :
    R α r q → (∀ a, R β (k a) (l a)) → R β (r >>= k) (q >>= l)
  exhausted {α : Type} : R α Run.exhausted Recorded.exhausted
  act {α : Type} {r : Run α} : r.Plain → R α r (Recorded.act r)
  call (c : Closure) (args : List Value) : R ScopeId (enter c args) (Recorded.call c args)
  print (v : Value) : R Unit (Run.print v) (Recorded.print L v)
  within {n : Nat} {s : ScopeId} {t : Tree} {r : Run Value} {q : Recorded Value} :
    record L n s t = Recorded.within s t q → R Value r q → R Value r (Recorded.within s t q)

namespace Recorded.Follows

variable {L : Listener} {R : ∀ α : Type, Run α → Recorded α → Prop} {α β : Type}

theorem each (laws : Follows L R) {f : α → Run β} {g : α → Recorded β}
    (action : ∀ a, R β (f a) (g a)) (members : List α) :
    R (List β) (Run.each f members) (Recorded.each g members) := by
  induction members with
  | nil => exact laws.pure []
  | cons a rest ih =>
    refine laws.bind (action a) fun b => ?_
    exact laws.bind ih fun bs => laws.pure (b :: bs)

theorem iterate (laws : Follows L R) {test : Run Bool} {test' : Recorded Bool} {body : Run α}
    {body' : Recorded α} (tests : R Bool test test') (bodies : R α body body') (n : Nat)
    (last : α) : R α (Run.iterate test body n last) (Recorded.iterate test' body' n last) := by
  induction n generalizing last with
  | zero => exact laws.exhausted
  | succ n ih =>
    rw [Run.iterate_succ]
    refine laws.bind tests fun holds => ?_
    cases holds with
    | false => exact laws.pure last
    | true => exact laws.bind bodies ih

theorem record (laws : Follows L R) (n : Nat) (s : ScopeId) (t : Tree) :
    R Value (eval n s t) (record L n s t) := by
  induction n generalizing s t with
  | zero => exact laws.within (n := 0) rfl laws.exhausted
  | succ n ih =>
    refine laws.within (n := n + 1) rfl ?_
    cases t with
    | missing => exact laws.act (.fail rfl)
    | atom type lexeme => exact laws.act (.literal type lexeme)
    | var name => exact laws.act (.resolve s name)
    | print operand =>
      refine laws.bind (ih s operand) fun v => ?_
      exact laws.bind (laws.print v) fun _ => laws.pure v
    | binary left op right =>
      refine laws.bind (ih s left) fun l => ?_
      exact laws.bind (ih s right) fun r => laws.act (.operate op l r)
    | ifElse condition thenDo elseDo =>
      refine laws.bind (ih s thenDo) fun a => ?_
      have selects (b : Value) : R Value
          (do
            let c ← eval n s condition
            let holds ← Run.lift (truthOf condition c)
            return if holds then a else b)
          (do
            let c ← Treewalk.record L n s condition
            let holds ← Recorded.act (Run.lift (truthOf condition c))
            return if holds then a else b) := by
        refine laws.bind (ih s condition) fun c => ?_
        exact laws.bind (laws.act (.truthOf condition c)) fun holds => laws.pure _
      cases elseDo with
      | missing => exact laws.bind (laws.pure Value.null) selects
      | _ => exact laws.bind (ih s _) selects
    | loop condition body =>
      refine laws.iterate ?_ (ih s body) n .null
      exact laws.bind (ih s condition) fun c => laws.act (.truthOf condition c)
    | seq first second => exact laws.bind (ih s first) fun _ => ih s second
    | declare name init =>
      refine laws.bind (ih s init) fun v => ?_
      exact laws.bind (laws.act (.create s name v)) fun _ => laws.pure v
    | assign name expr =>
      refine laws.bind (ih s expr) fun v => ?_
      exact laws.bind (laws.act (.update s name v)) fun _ => laws.act (.resolve s name)
    | function params body => exact laws.act (.newClosure params body s)
    | call callee args =>
      refine laws.bind (ih s callee) fun f => ?_
      cases f with
      | closure c =>
        refine laws.bind (laws.each (ih s) args) fun vs => ?_
        exact laws.bind (laws.call c vs) fun s' => ih s' c.body
      | _ => exact laws.act (.fail rfl)

end Recorded.Follows

theorem outcome_follows :
    Recorded.Follows .lines fun _ r q => ∀ st, (q st).ending.outcome = r st where
  pure _ _ := rfl
  bind := by
    intro α β r q k l first next st
    rw [Recorded.bind_apply]
    simp only [Bind.bind, Run.bind, ← first st]
    cases (q st).ending with
    | value a st' => exact next a st'
    | failure e st' => rfl
    | exhausted => rfl
  exhausted _ := rfl
  act _ st := Outcome.outcome_ending _
  call _ _ st := Outcome.outcome_ending _
  print v st := by
    rw [Run.print_apply]
    cases accepts : st.sink.accepts <;> simp [Recorded.print, Listener.lines, accepts] <;> rfl
  within _ related := related

theorem record_outcome (n : Nat) (s : ScopeId) (t : Tree) (st : State) :
    (record .lines n s t st).ending.outcome = eval n s t st :=
  outcome_follows.record n s t st

end Treewalk

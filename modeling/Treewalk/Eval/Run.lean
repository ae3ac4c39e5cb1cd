import Treewalk.Store.Basic

/-! Runs: computations over a store, a sink for printed values and a record of calls whose
argument count did not fit. A run ends with a value, ends with a fault, or exhausts the depth
it was given; the first two keep the state reached, the last one says nothing. -/
namespace Treewalk

/-- A writer of lines that accepts a limited number of them, or any number. -/
structure Sink where
  limit : Option Nat
  lines : Array Text

namespace Sink

def unlimited : Sink := ⟨none, #[]⟩

def accepts (k : Sink) : Bool :=
  match k.limit with
  | some n => k.lines.size < n
  | none => true

def write? (k : Sink) (line : Text) : Option Sink :=
  if k.accepts then some { k with lines := k.lines.push line } else none

def text (k : Sink) : Text := (k.lines.toList.map Text.line).flatten

end Sink

structure ArityMismatch where
  params : Nat
  args : Nat

structure State where
  store : Store
  sink : Sink
  mismatches : Array ArityMismatch

inductive Outcome (α : Type) where
  | value (a : α) (state : State)
  | fault (f : Fault) (state : State)
  | exhausted

def Run (α : Type) := State → Outcome α

namespace Run

variable {α β : Type}

@[inline] protected def pure (a : α) : Run α := fun st => .value a st

@[inline] protected def bind (r : Run α) (next : α → Run β) : Run β := fun st =>
  match r st with
  | .value a st' => next a st'
  | .fault f st' => .fault f st'
  | .exhausted => .exhausted

instance : Monad Run where
  pure := Run.pure
  bind := Run.bind

def exhausted : Run α := fun _ => .exhausted

def fail (f : Fault) : Run α := fun st => .fault f st

def lift : Except Fault α → Run α
  | .ok a => Run.pure a
  | .error f => fail f

def resolve (s : ScopeId) (name : Name) : Run Value := fun st =>
  .value (st.store.resolve s name) st

def update (s : ScopeId) (name : Name) (value : Value) : Run Unit := fun st =>
  .value () { st with store := st.store.update s name value }

/-- Declares a name. The test comes first so that the store is not held while it changes. -/
def create (s : ScopeId) (name : Name) (value : Value) : Run Unit := fun st =>
  if st.store.declares s name then .fault (.alreadyDeclared name) st
  else .value () { st with store := st.store.bindAt s name value }

theorem create_apply (s : ScopeId) (name : Name) (value : Value) (st : State) :
    create s name value st =
      match st.store.create s name value with
      | .ok store => .value () { st with store }
      | .error f => .fault f st := by
  unfold create Store.create
  split <;> rfl

def newScope (outer : Option ScopeId) : Run ScopeId := fun st =>
  let (s, store) := st.store.newScope outer
  .value s { st with store }

def newClosure (params : List Name) (body : Tree) (scope : ScopeId) : Run Value := fun st =>
  let (c, store) := st.store.newClosure params body (some scope)
  .value (.closure c) { st with store }

def print (v : Value) : Run Unit := fun st =>
  match st.sink.write? v.text with
  | some sink => .value () { st with sink }
  | none => .fault (.refusedPrint v.text) st

def noteMismatch (params args : Nat) : Run Unit := fun st =>
  if params = args then .value () st
  else .value () { st with mismatches := st.mismatches.push ⟨params, args⟩ }

def each (action : α → Run β) : List α → Run (List β)
  | [] => Run.pure []
  | a :: rest => do
    let b ← action a
    let bs ← each action rest
    return b :: bs

/-- Runs the body as long as the test holds. The result is that of the last body, or `last` if
there was none. -/
def iterate (test : Run Bool) (body : Run α) : Nat → α → State → Outcome α
  | 0, _, _ => .exhausted
  | n + 1, last, st =>
    match test st with
    | .value false st' => .value last st'
    | .value true st' =>
      match body st' with
      | .value a st'' => iterate test body n a st''
      | .fault f st'' => .fault f st''
      | .exhausted => .exhausted
    | .fault f st' => .fault f st'
    | .exhausted => .exhausted

end Run
end Treewalk

import Treewalk.Document
import Treewalk.Executor

/-! Sessions: sequences of steps over one store and one host, in which scopes and values can be
given names. A step that fails leaves the session usable. -/
namespace Treewalk

inductive ValueTerm where
  | null
  | int (n : Int64)
  | bool (b : Bool)
  | saved (name : Text)
  | closure (params : List Name) (body : Tree) (scope : Option Text)

inductive Program where
  | document (format : Format) (text : Text)
  | tree (t : Tree)

def Program.decode : Program → Except DocumentError Tree
  | .document format text => Tree.ofDocument format text
  | .tree t => .ok t

/-- How a program is run: with the session's journal, without a journal, without any output, or
with accounting and an optional journal. -/
inductive Manner where
  | journaled
  | silent
  | bare
  | executed (logged : Bool)

inductive Step where
  | newScope (id : Text) (outer : Option Text)
  | global (scope : Text)
  | parent (scope : Text)
  | create (scope : Text) (name : Name) (value : ValueTerm)
  | update (scope : Text) (name : Name) (value : ValueTerm)
  | resolve (scope : Text) (name : Name) (save : Option Text)
  | make (value : ValueTerm) (save : Option Text)
  | operate (op : Text) (left right : ValueTerm)
  | compare (left right : ValueTerm)
  | eval (scope : Text) (program : Program) (manner : Manner) (limit : Option Nat)
      (save : Option Text)
  | mark (event : Text)
  | events
  | logTrace
  | timer (name : Text)
  | takeJournal
  | readMetrics

structure ScopeView where
  label : Option Text
  depth : Nat
  root : Option Text

structure ValueView where
  value : Value
  scope : Option ScopeView

inductive Answer where
  | done
  | scope (label : Option Text)
  | value (v : ValueView)
  | equal (b : Bool)
  | fault (f : Fault)
  | evaluated (v : ValueView) (printed : Text)
  | failed (f : Fault) (printed : Text)
  | undecodable (e : DocumentError)
  | events (names : Option (List Text))
  | journal (entries : List Entry)
  | metrics (m : Metrics)
  | exhausted
  | unknownName

structure Session where
  store : Store
  host : Host
  scopes : Table Text ScopeId
  values : Table Text Value

namespace Session

def rootName : Text := "g"

def new (traced : Bool) (clock : Nat → Int := fun _ => 0) : Session :=
  let (root, store) := Store.empty.newScope none
  ⟨store, .new traced clock, [(rootName, root)], []⟩

def scope? (s : Session) (name : Text) : Option ScopeId := s.scopes.lookup name

def label? (s : Session) (id : ScopeId) : Option Text :=
  (s.scopes.find? fun e => e.2 = id).map (·.1)

def save (s : Session) (name : Option Text) (v : Value) : Session :=
  match name with
  | some name => { s with values := (name, v) :: s.values }
  | none => s

/-- Makes the value that a term stands for. A closure term makes a new closure each time. -/
def read (s : Session) : ValueTerm → Option (Value × Session)
  | .null => some (.null, s)
  | .int n => some (.int n, s)
  | .bool b => some (.bool b, s)
  | .saved name => (s.values.lookup name).map (·, s)
  | .closure params body scope => do
    let scope ← match scope with
      | none => some none
      | some name => (s.scope? name).map some
    let (c, store) := s.store.newClosure params body scope
    return (.closure c, { s with store })

def view (s : Session) (v : Value) : ValueView :=
  match v with
  | .closure c =>
    ⟨v, c.scope.map fun id => ⟨s.label? id, s.store.depth id, s.label? (s.store.global id)⟩⟩
  | _ => ⟨v, none⟩

def run (n : Nat) (s : Session) (t : Tree) (scope : ScopeId) (manner : Manner)
    (limit : Option Nat) : Session × Outcome Value :=
  let sink : Sink := match manner with
    | .bare => .unlimited
    | _ => ⟨limit, #[]⟩
  let outcome := evaluate n t scope s.store sink
  let host := match manner, outcome with
    | .executed logged, _ => s.host.account logged outcome
    | .journaled, .value _ st | .journaled, .fault _ st => s.host.logMismatches st
    | _, _ => s.host
  match outcome with
  | .value _ st | .fault _ st => ({ s with store := st.store, host }, outcome)
  | .exhausted => (s, outcome)

def printed (manner : Manner) (st : State) : Text :=
  match manner with
  | .bare => []
  | _ => st.sink.text

def evalStep (n : Nat) (s : Session) (scope : Text) (program : Program) (manner : Manner)
    (limit : Option Nat) (name : Option Text) : Session × Answer :=
  match s.scope? scope, program.decode with
  | none, _ => (s, .unknownName)
  | some _, .error e => (s, .undecodable e)
  | some id, .ok t =>
    match s.run n t id manner limit with
    | (s, .value v st) => (s.save name v, .evaluated (s.view v) (printed manner st))
    | (s, .fault f st) => (s, .failed f (printed manner st))
    | (s, .exhausted) => (s, .exhausted)

/-- Runs one step. Evaluations get the depth `n`. -/
def step (n : Nat) (s : Session) (step : Step) : Session × Answer :=
  let attempt (result : Option (Session × Answer)) : Session × Answer :=
    result.getD (s, .unknownName)
  match step with
  | .newScope id outer => attempt do
    let outer ← match outer with
      | none => some none
      | some name => (s.scope? name).map some
    let (scope, store) := s.store.newScope outer
    return ({ s with store, scopes := (id, scope) :: s.scopes }, .done)
  | .global scope => attempt do
    return (s, .scope (s.label? (s.store.global (← s.scope? scope))))
  | .parent scope => attempt do
    return (s, .scope ((s.store.outer? (← s.scope? scope)).bind s.label?))
  | .create scope name value => attempt do
    let id ← s.scope? scope
    let (v, s) ← s.read value
    match s.store.create id name v with
    | .ok store => return ({ s with store }, .done)
    | .error f => return (s, .fault f)
  | .update scope name value => attempt do
    let id ← s.scope? scope
    let (v, s) ← s.read value
    return ({ s with store := s.store.update id name v }, .done)
  | .resolve scope name save => attempt do
    let v := s.store.resolve (← s.scope? scope) name
    return (s.save save v, .value (s.view v))
  | .make value save => attempt do
    let (v, s) ← s.read value
    return (s.save save v, .value (s.view v))
  | .operate op left right => attempt do
    let (l, s) ← s.read left
    let (r, s) ← s.read right
    match Value.operate op l r with
    | .ok v => return (s, .value (s.view v))
    | .error f => return (s, .fault f)
  | .compare left right => attempt do
    let (l, s) ← s.read left
    let (r, s) ← s.read right
    return (s, .equal (l.same r))
  | .eval scope program manner limit save => s.evalStep n scope program manner limit save
  | .mark event => ({ s with host := s.host.mark event }, .done)
  | .events => (s, .events (s.host.trace.map (·.events)))
  | .logTrace => ({ s with host := s.host.logTrace }, .done)
  | .timer name => ({ s with host := s.host.observe name }, .done)
  | .takeJournal =>
    ({ s with host := { s.host with journal := #[] } }, .journal s.host.journal.toList)
  | .readMetrics => (s, .metrics s.host.metrics)

def steps (n : Nat) (s : Session) : List Step → List Answer
  | [] => []
  | st :: rest =>
    let (s, answer) := s.step n st
    answer :: s.steps n rest

end Session
end Treewalk

import Treewalk.Proofs.Eval.Classification
import Treewalk.Proofs.Eval.Listening
import Treewalk.Proofs.Store.Access
import Treewalk.Proofs.Text.Integer
import Treewalk.Proofs.Tree.Complete
import Treewalk.Session

/-! Complete programs cannot be blamed. While only complete trees are evaluated and closures keep
complete bodies, no fault says that a node is missing or that a literal cannot be read, in one
evaluation, in several that share their scopes and over a whole session. Only a listener can blame
such a program, by refusing a value with an error that does. -/
namespace Treewalk

/-- A closure has a complete body; other values have nothing that could be missing. -/
def Value.Complete (v : Value) : Prop := ∀ c, v = .closure c → c.body.Complete

/-- All closures that scopes bind have complete bodies. -/
def Store.Complete (st : Store) : Prop := ∀ s name v, st.own? s name = some v → v.Complete

theorem Value.complete_of_scalar {v : Value} (scalar : ∀ c, v ≠ .closure c) : v.Complete :=
  fun c closure => absurd closure (scalar c)

theorem Tree.Complete.of_mem_parts {t u : Tree} (complete : t.Complete) (listed : u ∈ t.parts) :
    u.Complete := by
  cases complete with
  | int | bool | null | var | function => cases listed
  | print operand | declare _ operand | assign _ operand =>
    rw [List.mem_singleton.mp listed]
    exact operand
  | binary _ first second | loop first second | seq first second | ifThen second first =>
    obtain rfl | last := List.mem_cons.mp listed
    · exact first
    · rw [List.mem_singleton.mp last]
      exact second
  | @ifElse condition thenDo elseDo first last other =>
    have within : u ∈ [thenDo, elseDo, condition] := by
      cases elseDo with
      | missing => cases other
      | _ => exact listed
    simp only [List.mem_cons, List.not_mem_nil, or_false] at within
    rcases within with rfl | rfl | rfl
    · exact last
    · exact other
    · exact first
  | call callee args =>
    obtain rfl | arg := List.mem_cons.mp listed
    · exact callee
    · exact args _ arg

theorem Tree.Complete.literal_ok {type : AtomType} {lexeme : Text}
    (complete : (Tree.atom type lexeme).Complete) : ∃ v, literal type lexeme = .ok v := by
  have truth (b : Bool) : Text.readTruth (Text.truth b) = some b := by cases b <;> decide
  cases complete with
  | int n => exact ⟨.int n, by rw [literal, if_pos rfl, Text.readInt64_int64]⟩
  | bool b => exact ⟨.bool b, by rw [literal, if_neg (by decide), if_pos rfl, truth]⟩
  | null => exact ⟨.null, rfl⟩

namespace Store.Complete

variable {st : Store}

theorem empty : Store.empty.Complete := by
  intro t name v bound
  cases bound

theorem bindAt (complete : st.Complete) {v : Value} (value : v.Complete) (s : ScopeId)
    (name : Name) : (st.bindAt s name v).Complete := by
  intro t other u bound
  obtain ⟨-, -, rfl⟩ | before := own?_of_bindAt bound
  · exact value
  · exact complete t other u before

theorem newScope (complete : st.Complete) (outer : Option ScopeId) :
    (st.newScope outer).2.Complete := by
  intro t name v bound
  rw [own?_newScope] at bound
  exact complete t name v bound

theorem resolve (complete : st.Complete) (s : ScopeId) (name : Name) :
    (st.resolve s name).Complete := by
  obtain null | ⟨t, -, bound⟩ := resolve_cases st s name
  · rw [null]
    exact Value.complete_of_scalar nofun
  · exact complete t name _ bound

end Store.Complete

def Discipline.complete : Discipline Timeless where
  store _ st := st.Complete
  value _ v := v.Complete
  site _ _ t := t.Complete
  binder _ _ _ := True
  fault f := ¬f.IsMalformed

theorem Discipline.complete_lawful : Discipline.complete.Lawful where
  value_mono _ value := value
  site_mono _ site := site
  binder_mono _ _ := trivial
  part := Tree.Complete.of_mem_parts
  declared _ := trivial
  scalar := Value.complete_of_scalar
  missing site := nomatch site
  literal := by
    intro w s type lexeme f site failed
    obtain ⟨v, read⟩ := site.literal_ok
    cases read.symm.trans failed
  raised blameless := blameless
  resolve _ store := store.resolve _ _
  create _ value store := ⟨⟨⟩, le_rfl, store.bindAt value _ _⟩
  assign _ value store :=
    have after := store.bindAt value _ _
    ⟨⟨⟩, le_rfl, after, after.resolve _ _⟩
  closure := by
    intro w s params body st site store
    refine ⟨⟨⟩, le_rfl, store, ?_⟩
    intro c closure
    cases closure
    cases site with
    | function _ body => exact body
  scope := by
    intro w c st value store
    exact ⟨⟨⟩, le_rfl, store.newScope c.scope, value c rfl, fun _ _ => trivial⟩

theorem eval_complete (n : Nat) (s : ScopeId) {t : Tree} {st : State} (complete : t.Complete)
    (store : st.store.Complete) :
    (eval n s t st).Meets (fun v st' => v.Complete ∧ st'.store.Complete)
      (fun f st' => ¬f.IsMalformed ∧ st'.store.Complete) := by
  have ends : Discipline.complete.Ends ⟨⟩ Discipline.complete.value (eval n s t st) :=
    Discipline.eval_ends Discipline.complete_lawful complete store
  refine ends.imp ?_ ?_
  · intro v st' proper
    obtain ⟨_, _, store, value⟩ := proper
    exact ⟨value, store⟩
  · intro f st' proper
    obtain ⟨_, _, store, blameless⟩ := proper
    exact ⟨blameless, store⟩

/-! Listeners -/

def Cause.IsMalformed (c : Cause) : Prop :=
  c.kind? = some .malformedTree ∨ c.kind? = some .malformedLiteral

/-- Before any listener, a complete tree is blamed only by what the listener itself has said. -/
theorem record_complete (L : Listener) (n : Nat) (s : ScopeId) {t : Tree} (st : State)
    (complete : t.Complete) (store : st.store.Complete) :
    (record L n s t st).ending.Meets (fun v st' => v.Complete ∧ st'.store.Complete)
      (fun e st' => st'.store.Complete ∧ (e.cause.IsMalformed → ∃ v said, e = .refused v said ∧
        L.refusal? st'.sink v = some said ∧ said.kind? = e.cause.kind?)) := by
  have meets : (record L n s t st).ending.Meets (fun v st' => v.Complete ∧ st'.store.Complete)
      (fun e st' => ¬e.fault.IsMalformed ∧ st'.store.Complete) :=
    record_meets (V := fun v store => v.Complete ∧ store.Complete)
      (F := fun f store => ¬f.IsMalformed ∧ store.Complete)
      fun _ => eval_complete n s complete store
  cases ending : (record L n s t st).ending with
  | exhausted => trivial
  | value v st' =>
    rw [ending] at meets
    exact meets
  | failure e st' =>
    rw [ending] at meets
    refine ⟨meets.2, fun malformed => ?_⟩
    cases e with
    | raised f => exact absurd malformed meets.1
    | refused v said =>
      exact ⟨v, said, rfl, (record_orderly L n s t st).said_of_refused ending, rfl⟩

/-- The listener blames no program for what it refuses. -/
def Listener.Impartial (L : Listener) : Prop :=
  ∀ sink v said, L.refusal? sink v = some said → ¬said.IsMalformed

structure Evaluation where
  tree : Tree
  scope : ScopeId
  listener : Listener
  sink : Sink
  depth : Nat

namespace Evaluation

def ending (e : Evaluation) (store : Store) : Ending Value :=
  (record e.listener e.depth e.scope e.tree ⟨store, e.sink, #[]⟩).ending

/-- Each evaluation finds the scopes as the one before has left them. One that does not end is the
last. -/
def inTurn : Store → List Evaluation → List (Ending Value)
  | _, [] => []
  | store, e :: rest =>
    match e.ending store with
    | .value v st => .value v st :: inTurn st.store rest
    | .failure f st => .failure f st :: inTurn st.store rest
    | .exhausted => [.exhausted]

end Evaluation

def Ending.Blameless (ending : Ending Value) : Prop :=
  ending.Meets (fun v st => v.Complete ∧ st.store.Complete)
    (fun e st => st.store.Complete ∧ ¬e.cause.IsMalformed)

namespace Evaluation

theorem ending_blameless {e : Evaluation} (complete : e.tree.Complete)
    (impartial : e.listener.Impartial) {store : Store} (proper : store.Complete) :
    (e.ending store).Blameless := by
  have meets := record_complete e.listener e.depth e.scope ⟨store, e.sink, #[]⟩ complete proper
  refine meets.imp (fun _ _ kept => kept) fun f st ended => ⟨ended.1, fun malformed => ?_⟩
  obtain ⟨v, said, rfl, refused, -⟩ := ended.2 malformed
  exact impartial _ _ _ refused malformed

theorem inTurn_blameless {runs : List Evaluation}
    (proper : ∀ e ∈ runs, e.tree.Complete ∧ e.listener.Impartial) {store : Store}
    (complete : store.Complete) : ∀ ending ∈ inTurn store runs, ending.Blameless := by
  induction runs generalizing store with
  | nil => exact nofun
  | cons e rest ih =>
    rw [List.forall_mem_cons] at proper
    obtain ⟨⟨tree, impartial⟩, others⟩ := proper
    have blameless := ending_blameless tree impartial complete
    unfold inTurn
    cases ended : e.ending store with
    | value v st =>
      rw [ended] at blameless
      exact List.forall_mem_cons.mpr ⟨blameless, ih others blameless.2⟩
    | failure f st =>
      rw [ended] at blameless
      exact List.forall_mem_cons.mpr ⟨blameless, ih others blameless.1⟩
    | exhausted => exact List.forall_mem_singleton.mpr trivial

end Evaluation

/-! Sessions -/

def ValueTerm.Complete : ValueTerm → Prop
  | .closure _ body _ => body.Complete
  | _ => True

/-- A document is complete, whatever it holds: if it can be decoded, its tree is. -/
def Program.Complete : Program → Prop
  | .tree t => t.Complete
  | .document _ _ => True

def Step.Complete : Step → Prop
  | .create _ _ value | .update _ _ value | .make value _ => value.Complete
  | .operate _ left right | .compare left right => left.Complete ∧ right.Complete
  | .eval _ program _ _ _ => program.Complete
  | _ => True

def Answer.fault? : Answer → Option Fault
  | .fault f | .failed f _ => some f
  | _ => none

def Answer.Blameless (answer : Answer) : Prop := ∀ f ∈ answer.fault?, ¬f.IsMalformed

structure Session.Complete (s : Session) : Prop where
  store : s.store.Complete
  saved {name : Text} {v : Value} : s.values.lookup name = some v → v.Complete

theorem Program.decode_complete {program : Program} (complete : program.Complete) :
    Yields Tree.Complete program.decode := by
  cases program with
  | document format text => exact ofDocument_complete format text
  | tree t => exact .ok complete

namespace Session

variable {s : Session}

theorem new_complete (traced : Bool) : (new traced).Complete where
  store := Store.Complete.empty.newScope none
  saved found := by cases found

theorem Complete.save (complete : s.Complete) {v : Value} (value : v.Complete)
    (name : Option Text) : (s.save name v).Complete := by
  cases name with
  | none => exact complete
  | some name =>
    refine ⟨complete.store, ?_⟩
    intro other u found
    rw [Session.save, Table.lookup_cons_eq_ite] at found
    split at found
    · cases found
      exact value
    · exact complete.saved found

theorem Complete.read (complete : s.Complete) {term : ValueTerm} (proper : term.Complete)
    {v : Value} {s' : Session} (read : s.read term = some (v, s')) : v.Complete ∧ s'.Complete := by
  cases term with
  | null | int | bool =>
    cases read
    exact ⟨Value.complete_of_scalar nofun, complete⟩
  | saved name =>
    obtain ⟨u, found, same⟩ := Option.map_eq_some_iff.mp read
    cases same
    exact ⟨complete.saved found, complete⟩
  | closure params body scope =>
    have made (scope : Option ScopeId) :
        (Value.closure (s.store.newClosure params body scope).1).Complete := by
      intro c closure
      cases closure
      exact proper
    cases scope with
    | none =>
      cases read
      exact ⟨made none, complete.store, complete.saved⟩
    | some name =>
      obtain ⟨scope, -, same⟩ := Option.bind_eq_some_iff.mp read
      cases same
      exact ⟨made scope, complete.store, complete.saved⟩

def Proper (result : Session × Answer) : Prop := result.1.Complete ∧ result.2.Blameless

theorem run_complete (complete : s.Complete) {t : Tree} (tree : t.Complete) (n : Nat)
    (scope : ScopeId) (manner : Manner) (limit : Option Nat) :
    (s.run n t scope manner limit).1.Complete ∧
      (s.run n t scope manner limit).2.Meets (fun v _ => v.Complete)
        (fun f _ => ¬f.IsMalformed) := by
  unfold run
  dsimp only
  generalize ended : evaluate n t scope s.store _ = outcome
  have meets : outcome.Meets (fun v st' => v.Complete ∧ st'.store.Complete)
      (fun f st' => ¬f.IsMalformed ∧ st'.store.Complete) := by
    rw [← ended]
    exact eval_complete n scope tree complete.store
  cases outcome with
  | value v st => exact ⟨⟨meets.2, complete.saved⟩, meets.1⟩
  | fault f st => exact ⟨⟨meets.2, complete.saved⟩, meets.1⟩
  | exhausted => exact ⟨complete, trivial⟩

theorem evalStep_proper (complete : s.Complete) {program : Program} (proper : program.Complete)
    (n : Nat) (scope : Text) (manner : Manner) (limit : Option Nat) (name : Option Text) :
    Proper (s.evalStep n scope program manner limit name) := by
  unfold evalStep
  split
  · exact ⟨complete, nofun⟩
  · exact ⟨complete, nofun⟩
  · next id t found decoded =>
    have tree := Program.decode_complete proper t decoded
    obtain ⟨after, meets⟩ := run_complete complete tree n id manner limit
    generalize s.run n t id manner limit = result at after meets ⊢
    obtain ⟨s', outcome⟩ := result
    cases outcome with
    | value v st => exact ⟨after.save meets name, nofun⟩
    | fault f st =>
      refine ⟨after, ?_⟩
      intro g same
      cases same
      exact meets
    | exhausted => exact ⟨after, nofun⟩

theorem step_proper (complete : s.Complete) {step : Step} (proper : step.Complete) (n : Nat) :
    Proper (s.step n step) := by
  have attempt {o : Option (Session × Answer)} (each : ∀ r, o = some r → Proper r) :
      Proper (o.getD (s, .unknownName)) := by
    cases o with
    | none => exact ⟨complete, nofun⟩
    | some r => exact each r rfl
  cases step with
  | newScope id outer =>
    refine attempt fun r result => ?_
    cases outer with
    | none =>
      cases result
      exact ⟨⟨complete.store.newScope none, complete.saved⟩, nofun⟩
    | some name =>
      obtain ⟨outer, -, same⟩ := Option.bind_eq_some_iff.mp result
      cases same
      exact ⟨⟨complete.store.newScope outer, complete.saved⟩, nofun⟩
  | global scope | parent scope =>
    refine attempt fun r result => ?_
    obtain ⟨id, -, same⟩ := Option.bind_eq_some_iff.mp result
    cases same
    exact ⟨complete, nofun⟩
  | create scope name value =>
    refine attempt fun r result => ?_
    obtain ⟨id, -, result⟩ := Option.bind_eq_some_iff.mp result
    obtain ⟨⟨v, s'⟩, read, result⟩ := Option.bind_eq_some_iff.mp result
    obtain ⟨value, after⟩ := complete.read proper read
    dsimp only at result
    cases declared : s'.store.declares id name with
    | true =>
      rw [Store.create, if_pos declared] at result
      cases result
      refine ⟨after, ?_⟩
      intro f same
      cases same
      exact not_or.mpr ⟨nofun, nofun⟩
    | false =>
      rw [Store.create, if_neg (Bool.eq_false_iff.mp declared)] at result
      cases result
      exact ⟨⟨after.store.bindAt value id name, after.saved⟩, nofun⟩
  | update scope name value =>
    refine attempt fun r result => ?_
    obtain ⟨id, -, result⟩ := Option.bind_eq_some_iff.mp result
    obtain ⟨⟨v, s'⟩, read, same⟩ := Option.bind_eq_some_iff.mp result
    obtain ⟨value, after⟩ := complete.read proper read
    cases same
    exact ⟨⟨after.store.bindAt value _ name, after.saved⟩, nofun⟩
  | resolve scope name save =>
    refine attempt fun r result => ?_
    obtain ⟨id, -, same⟩ := Option.bind_eq_some_iff.mp result
    cases same
    exact ⟨complete.save (complete.store.resolve id name) save, nofun⟩
  | make value save =>
    refine attempt fun r result => ?_
    obtain ⟨⟨v, s'⟩, read, same⟩ := Option.bind_eq_some_iff.mp result
    obtain ⟨value, after⟩ := complete.read proper read
    cases same
    exact ⟨after.save value save, nofun⟩
  | operate op left right =>
    refine attempt fun r result => ?_
    obtain ⟨⟨l, s'⟩, readLeft, result⟩ := Option.bind_eq_some_iff.mp result
    obtain ⟨-, between⟩ := complete.read proper.1 readLeft
    obtain ⟨⟨r, s''⟩, readRight, result⟩ := Option.bind_eq_some_iff.mp result
    obtain ⟨-, after⟩ := between.read proper.2 readRight
    dsimp only at result
    obtain ⟨v, computed, -⟩ | ⟨f, failed, blameless⟩ := operate_cases op l r
    · rw [computed] at result
      cases result
      exact ⟨after, nofun⟩
    · rw [failed] at result
      cases result
      refine ⟨after, ?_⟩
      intro g same
      cases same
      exact blameless
  | compare left right =>
    refine attempt fun r result => ?_
    obtain ⟨⟨l, s'⟩, readLeft, result⟩ := Option.bind_eq_some_iff.mp result
    obtain ⟨-, between⟩ := complete.read proper.1 readLeft
    obtain ⟨⟨r, s''⟩, readRight, same⟩ := Option.bind_eq_some_iff.mp result
    obtain ⟨-, after⟩ := between.read proper.2 readRight
    cases same
    exact ⟨after, nofun⟩
  | eval scope program manner limit save =>
    exact evalStep_proper complete proper n scope manner limit save
  | mark | events | logTrace | timer | takeJournal | readMetrics =>
    exact ⟨⟨complete.store, complete.saved⟩, nofun⟩

theorem steps_blameless {n : Nat} {steps : List Step} (proper : ∀ step ∈ steps, step.Complete)
    (complete : s.Complete) : ∀ answer ∈ s.steps n steps, answer.Blameless := by
  induction steps generalizing s with
  | nil => exact nofun
  | cons step steps ih =>
    rw [List.forall_mem_cons] at proper
    obtain ⟨after, blameless⟩ := step_proper complete proper.1 n
    rw [Session.steps, List.forall_mem_cons]
    exact ⟨blameless, ih proper.2 after⟩

end Session

/-- Decoded programs cannot be blamed. They are complete, and a complete tree evaluated where all
closures are complete keeps all closures complete and fails for no reason that lies in a text,
unless a listener refuses a value for just that reason. So nothing of this kind happens in a
sequence of evaluations before listeners that do not, nor in a session. -/
theorem complete_programs_blameless :
    (∀ format text t, Tree.ofDocument format text = .ok t → t.Complete) ∧
    (∀ (L : Listener) n s t (st : State), t.Complete → st.store.Complete →
      (record L n s t st).ending.Meets (fun v st' => v.Complete ∧ st'.store.Complete)
        (fun e st' => st'.store.Complete ∧ (e.cause.IsMalformed → ∃ v said, e = .refused v said ∧
          L.refusal? st'.sink v = some said ∧ said.kind? = e.cause.kind?))) ∧
    (∀ store runs, store.Complete → (∀ e ∈ runs, e.tree.Complete ∧ e.listener.Impartial) →
      ∀ ending ∈ Evaluation.inTurn store runs,
        ending.Meets (fun v st => v.Complete ∧ st.store.Complete)
          (fun e st => st.store.Complete ∧ ¬e.cause.IsMalformed)) ∧
    (∀ n s t (st : State), t.Complete → st.store.Complete →
      (eval n s t st).Meets (fun v st' => v.Complete ∧ st'.store.Complete)
        (fun f st' => (f.kind? ≠ some .malformedTree ∧ f.kind? ≠ some .malformedLiteral) ∧
          st'.store.Complete)) ∧
    (∀ traced, (Session.new traced).Complete) ∧
    ∀ n (s : Session) steps, s.Complete → (∀ step ∈ steps, step.Complete) →
      ∀ answer ∈ s.steps n steps, answer.Blameless := by
  refine ⟨ofDocument_complete, ?_, ?_, ?_, Session.new_complete, ?_⟩
  · intro L n s t st tree store
    exact record_complete L n s st tree store
  · intro store runs complete proper
    exact Evaluation.inTurn_blameless proper complete
  · intro n s t st tree store
    refine (eval_complete n s tree store).imp (fun _ _ proper => proper) fun f st' proper => ?_
    exact ⟨not_or.mp proper.1, proper.2⟩
  · intro n s steps complete proper
    exact Session.steps_blameless proper complete

def Listener.accusing : Listener where
  refusal? _ _ := some (.kind .malformedTree)

theorem complete_tree_accused :
    ¬∀ (L : Listener) n s t (st : State) e st', t.Complete → st.store.Complete →
      (record L n s t st).ending = .failure e st' →
      e.cause.kind? ≠ some .malformedTree ∧ e.cause.kind? ≠ some .malformedLiteral := by
  intro blameless
  have accused := blameless .accusing 2 0 (.print (.int 1))
    ⟨(Store.empty.newScope none).2, .unlimited, #[]⟩ (.refused (.int 1) (.kind .malformedTree)) _
    (.print (.int 1)) (Store.Complete.empty.newScope none) rfl
  exact accused.1 rfl

def reciprocal : Text :=
  Text.ofString "\x7b\"kind\":\"var_decl\",\"name\":\"f\",\"init\":\x7b\"kind\":\"function\",\"params\":[\"d\"],"
    ++ Text.ofString "\"body\":\x7b\"kind\":\"binop\",\"op\":\"/\",\"left\":\x7b\"kind\":\"int\",\"value\":1\x7d,"
    ++ Text.ofString "\"right\":\x7b\"kind\":\"var\",\"name\":\"d\"\x7d\x7d\x7d\x7d"

def divisions : List Step :=
  [.eval "g" (.document .json reciprocal) .silent none none,
    .eval "g" (.tree (.call (.var "f") [.int 0])) .silent none none]

def quotients : List Evaluation :=
  [⟨.declare "f" (.function ["d"] (.binary (.int 1) "/" (.var "d"))), 0, .lines, .unlimited, 9⟩,
    ⟨.print (.binary (.int 1) "<" (.int 2)), 0, .untrue, .unlimited, 9⟩,
    ⟨.call (.var "f") [.int 0], 0, .untrue, .unlimited, 9⟩]

def Ending.failure? {α : Type} : Ending α → Option Failure
  | .failure e _ => some e
  | _ => none

theorem divisions_blameless :
    (Session.new false).Complete ∧ (∀ step ∈ divisions, step.Complete) ∧
      ((Session.new false).steps 9 divisions).map (fun a => a.fault?.map Fault.kind?)
        = [none, some (some .divisionByZero)] ∧
      (∀ answer ∈ (Session.new false).steps 9 divisions, answer.Blameless) ∧
      (∀ e ∈ quotients, e.tree.Complete ∧ e.listener.Impartial) ∧
      (Evaluation.inTurn (Session.new false).store quotients).map
          (fun ending => ending.failure?.map (·.cause.kind?))
        = [none, some none, some (some .divisionByZero)] ∧
      ∀ ending ∈ Evaluation.inTurn (Session.new false).store quotients, ending.Blameless := by
  obtain ⟨_, _, inTurn, _, fresh, sessions⟩ := complete_programs_blameless
  have called : (Tree.call (.var "f") [.int 0]).Complete :=
    .call (.var _) (List.forall_mem_singleton.mpr (.int 0))
  have proper : ∀ step ∈ divisions, step.Complete := by
    intro step listed
    simp only [divisions, List.mem_cons, List.not_mem_nil, or_false] at listed
    rcases listed with rfl | rfl
    · trivial
    · exact called
  have lines : Listener.lines.Impartial := by
    intro sink v said refused
    rw [Listener.lines_refusal refused]
    exact not_or.mpr ⟨nofun, nofun⟩
  have untrue : Listener.untrue.Impartial := by
    intro sink v said refused
    cases v with
    | bool b =>
      cases refused
      exact not_or.mpr ⟨nofun, nofun⟩
    | _ => cases refused
  have quotient : ∀ e ∈ quotients, e.tree.Complete ∧ e.listener.Impartial := by
    intro e listed
    simp only [quotients, List.mem_cons, List.not_mem_nil, or_false] at listed
    rcases listed with rfl | rfl | rfl
    · exact ⟨.declare _ (.function _ (.binary _ (.int 1) (.var _))), lines⟩
    · exact ⟨.print (.binary _ (.int 1) (.int 2)), untrue⟩
    · exact ⟨called, untrue⟩
  refine ⟨fresh false, proper, by decide +kernel, sessions 9 _ _ (fresh false) proper, quotient,
    by decide +kernel, ?_⟩
  exact inTurn _ _ (fresh false).store quotient

end Treewalk

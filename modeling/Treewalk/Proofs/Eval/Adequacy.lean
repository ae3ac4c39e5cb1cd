import Mathlib.Order.Filter.AtTopBot.Basic
import Treewalk.Proofs.Eval.Congruence
import Treewalk.Proofs.Eval.Discipline
import Treewalk.Proofs.Eval.Rules

/-! The evaluator and the rules of evaluation agree. Whatever the evaluator ends with can be
derived, by induction on its depth; whatever can be derived is what the evaluator ends with from
some depth on, by induction on the derivation. -/
namespace Treewalk

section Composition

variable {α β : Type} {r : Run α} {k : α → Run β} {st st' : State}

theorem Run.bind_of_value {a : α} (ran : r st = .value a st') : (r >>= k) st = k a st' := by
  simp only [Bind.bind, Run.bind, ran]

theorem Run.bind_of_fault {f : Fault} (ran : r st = .fault f st') :
    (r >>= k) st = .fault f st' := by
  simp only [Bind.bind, Run.bind, ran]

theorem Run.bind_cases {P : Outcome β → Prop} (ends : (r >>= k) st ≠ .exhausted)
    (value : ∀ a st', r st = .value a st' → k a st' ≠ .exhausted → P (k a st'))
    (fault : ∀ f st', r st = .fault f st' → P (.fault f st')) : P ((r >>= k) st) := by
  cases ran : r st with
  | value a st' =>
    rw [Run.bind_of_value ran] at ends ⊢
    exact value a st' ran ends
  | fault f st' =>
    rw [Run.bind_of_fault ran]
    exact fault f st' ran
  | exhausted =>
    simp only [Bind.bind, Run.bind, ran] at ends
    exact absurd rfl ends

theorem Run.bind_eq_value {b : β} : (r >>= k) st = .value b st' ↔
    ∃ a st₁, r st = .value a st₁ ∧ k a st₁ = .value b st' := by
  simp only [Bind.bind, Run.bind]
  cases r st <;> simp

theorem Run.bind_eq_fault {f : Fault} : (r >>= k) st = .fault f st' ↔
    r st = .fault f st' ∨ ∃ a st₁, r st = .value a st₁ ∧ k a st₁ = .fault f st' := by
  simp only [Bind.bind, Run.bind]
  cases r st <;> simp

theorem Run.bind_assoc {γ : Type} (r : Run α) (k : α → Run β) (l : β → Run γ) :
    (r >>= k) >>= l = r >>= fun a => k a >>= l := by
  funext st
  simp only [Bind.bind, Run.bind]
  cases r st <;> rfl

end Composition

/-! Literals, operators and parameters -/

theorem denotes_iff {type : AtomType} {lexeme : Text} {result : Except Fault Value} :
    Denotes type lexeme result ↔ literal type lexeme = result := by
  constructor
  · intro denotes
    cases denotes with
    | int read | notAnInt read => rw [literal, if_pos rfl, read]
    | bool read | notABool read => rw [literal, if_neg (by decide), if_pos rfl, read]
    | null => rfl
    | unknown notInt notBool notNull =>
      rw [literal, if_neg notInt, if_neg notBool, if_neg notNull]
  · intro read
    subst read
    by_cases isInt : type = .int
    · subst isInt
      rw [literal, if_pos rfl]
      split
      · next n read => exact .int read
      · next unread => exact .notAnInt unread
    · by_cases isBool : type = .bool
      · subst isBool
        rw [literal, if_neg isInt, if_pos rfl]
        split
        · next b read => exact .bool read
        · next unread => exact .notABool unread
      · by_cases isNull : type = .null
        · subst isNull
          exact .null
        · rw [literal, if_neg isInt, if_neg isBool, if_neg isNull]
          exact .unknown isInt isBool isNull

theorem operates_iff {op : Text} {l r : Value} {result : Except Fault Value} :
    Operates op l r result ↔ Value.operate op l r = result := by
  constructor
  · intro operates
    cases operates with
    | known symbol =>
      subst symbol
      simp [Value.operate, Operator.ofSymbol?_symbol]
    | unknown other =>
      have none : Operator.ofSymbol? op = none := by simp [Operator.ofSymbol?, other]
      simp [Value.operate, none]
    | left other =>
      cases l with
      | int a => exact absurd rfl (other a)
      | _ => rfl
    | right other =>
      cases r with
      | int b => exact absurd rfl (other b)
      | _ => rfl
  · intro computed
    subst computed
    cases l with
    | int a =>
      cases r with
      | int b =>
        simp only [Value.operate]
        cases read : Operator.ofSymbol? op with
        | some o => exact .known (by simpa using List.find?_some read)
        | none =>
          refine .unknown fun o symbol => ?_
          rw [← symbol, Operator.ofSymbol?_symbol] at read
          cases read
      | _ => exact .right (by simp)
    | _ => exact .left (by simp)

def bound (st : State) (fault : Option Fault) (store : Store) : Outcome Unit :=
  match fault with
  | none => .value () { st with store }
  | some f => .fault f { st with store }

theorem Run.create_of_ok {s : ScopeId} {name : Name} {v : Value} {st : State} {store : Store}
    (created : st.store.create s name v = .ok store) :
    Run.create s name v st = .value () { st with store } := by
  rw [Run.create_apply, created]

theorem Run.create_of_error {s : ScopeId} {name : Name} {v : Value} {st : State} {f : Fault}
    (failed : st.store.create s name v = .error f) : Run.create s name v st = .fault f st := by
  rw [Run.create_apply, failed]

theorem Binds.bindParams {s : ScopeId} {params : List Name} {values : List Value} {st : State}
    {fault : Option Fault} {store : Store} (binds : Binds s params values st.store fault store) :
    bindParams s params values st = bound st fault store := by
  generalize here : st.store = start at binds
  induction binds generalizing st with
  | done =>
    subst here
    rfl
  | argument created _ ih | absent created _ ih =>
    subst here
    exact (Run.bind_of_value (Run.create_of_ok created)).trans (ih rfl)
  | @repeated p params v values start f failed =>
    subst here
    have again : st.store.create s p (values.headD .null) = .error f := by
      unfold Store.create at failed ⊢
      split at failed <;> simp_all
    exact Run.bind_of_fault (Run.create_of_error again)

theorem Binds.exists (s : ScopeId) (params : List Name) (values : List Value) (store : Store) :
    ∃ fault store', Binds s params values store fault store' := by
  induction params generalizing values store with
  | nil => exact ⟨none, store, .done⟩
  | cons p params ih =>
    cases values with
    | nil =>
      cases created : store.create s p .null with
      | error f => exact ⟨some f, store, .repeated created⟩
      | ok store₁ =>
        obtain ⟨fault, store', rest⟩ := ih [] store₁
        exact ⟨fault, store', .absent created rest⟩
    | cons v values =>
      cases created : store.create s p v with
      | error f => exact ⟨some f, store, .repeated created⟩
      | ok store₁ =>
        obtain ⟨fault, store', rest⟩ := ih values store₁
        exact ⟨fault, store', .argument created rest⟩

theorem enter_apply (c : Closure) (values : List Value) (st : State) :
    enter c values st =
      (bindParams st.store.scopes.size c.params values >>= fun _ =>
        Run.pure st.store.scopes.size) (st.opened c values.length) := by
  have noted : Run.noteMismatch c.params.length values.length st =
      .value () { st with mismatches := (st.opened c values.length).mismatches } := by
    unfold Run.noteMismatch State.opened
    split <;> rfl
  exact Run.bind_of_value noted

theorem invoke_apply (evaluate : ScopeId → Tree → Run Value) (c : Closure) (values : List Value)
    (st : State) :
    invoke evaluate c values st =
      (bindParams st.store.scopes.size c.params values >>= fun _ =>
        evaluate st.store.scopes.size c.body) (st.opened c values.length) := by
  simp only [invoke, Bind.bind, Run.bind, enter_apply]
  cases bindParams st.store.scopes.size c.params values (st.opened c values.length) <;> rfl

/-! What the evaluator does can be derived -/

def truth (n : Nat) (s : ScopeId) (condition : Tree) : Run Bool := do
  let v ← eval n s condition
  Run.lift (truthOf condition v)

theorem eval_of_truth {n : Nat} {s : ScopeId} {condition : Tree} {st st' : State} {holds : Bool}
    (tested : truth n s condition st = .value holds st') :
    eval n s condition st = .value (.bool holds) st' := by
  obtain ⟨v, st₁, evaluated, lifted⟩ := Run.bind_eq_value.mp tested
  cases v with
  | bool b =>
    cases lifted
    exact evaluated
  | _ => cases lifted

def branchValue (n : Nat) (s : ScopeId) : Tree → Run Value
  | .missing => Run.pure .null
  | t => eval n s t

/-- The value of a call whose first arguments are known, as the evaluator finds it. -/
def callValue (n : Nat) (s : ScopeId) (c : Closure) (values : List Value) (rest : List Tree) :
    Run Value := do
  let more ← Run.each (eval n s) rest
  invoke (eval n) c (values ++ more)

theorem callValue_nil (n : Nat) (s : ScopeId) (c : Closure) (values : List Value) :
    callValue n s c values [] = invoke (eval n) c values := by
  funext st
  exact (Run.bind_of_value rfl).trans (by rw [List.append_nil])

theorem callValue_cons (n : Nat) (s : ScopeId) (c : Closure) (values : List Value) (arg : Tree)
    (rest : List Tree) :
    callValue n s c values (arg :: rest) =
      eval n s arg >>= fun v => callValue n s c (values ++ [v]) rest := by
  simp only [callValue, Run.each, Run.bind_assoc, List.append_assoc, List.singleton_append]
  rfl

theorem eval_ifElse (n : Nat) (s : ScopeId) (condition thenDo elseDo : Tree) :
    eval (n + 1) s (.ifElse condition thenDo elseDo) =
      (do
        let a ← eval n s thenDo
        let b ← branchValue n s elseDo
        let holds ← truth n s condition
        return if holds then a else b) := by
  cases elseDo <;> simp only [eval, branchValue, truth, Run.bind_assoc]

def Derivable (n : Nat) : Prop :=
  ∀ s t st o, eval n s t st = o → o ≠ .exhausted → Evaluates s (.tree t) st o

namespace Derivable

variable {n : Nat} {s : ScopeId} {t : Tree} {st st' : State} {f : Fault}

theorem value {v : Value} (trees : Derivable n) (ran : eval n s t st = .value v st') :
    Evaluates s (.tree t) st (.value v st') :=
  trees s t st _ ran nofun

theorem fault (trees : Derivable n) (ran : eval n s t st = .fault f st') :
    Evaluates s (.tree t) st (.fault f st') :=
  trees s t st _ ran nofun

theorem branch (trees : Derivable n) {o : Outcome Value} (ran : branchValue n s t st = o)
    (ends : o ≠ .exhausted) : Evaluates s (.branch t) st o := by
  cases t with
  | missing =>
    subst ran
    exact .noBranch
  | _ => exact .branch nofun (trees _ _ _ _ ran ends)

theorem condition (trees : Derivable n) {b : Bool} (ran : truth n s t st = .value b st') :
    Evaluates s (.condition t) st (.value (.bool b) st') :=
  .condition (trees.value (eval_of_truth ran))

theorem conditionAbort (trees : Derivable n) (ran : truth n s t st = .fault f st') :
    Evaluates s (.condition t) st (.fault f st') := by
  obtain failed | ⟨v, st₁, evaluated, lifted⟩ := Run.bind_eq_fault.mp ran
  · exact .conditionAbort (trees.fault failed)
  · cases v with
    | bool b => cases lifted
    | _ =>
      cases lifted
      exact .notBool (trees.value evaluated) nofun

theorem loop (trees : Derivable n) {test body : Tree} (k : Nat) (last : Value)
    (ends : Run.iterate (truth n s test) (eval n s body) k last st ≠ .exhausted) :
    Evaluates s (.loop test body last) st
      (Run.iterate (truth n s test) (eval n s body) k last st) := by
  induction k generalizing last st with
  | zero => exact absurd rfl ends
  | succ k ih =>
    rw [Run.iterate_succ] at ends ⊢
    refine Run.bind_cases ends (fun holds st₁ tested ends => ?_) (fun f st₁ tested => ?_)
    · cases holds with
      | false => exact .stop (trees.condition tested)
      | true =>
        refine Run.bind_cases ends (fun v st₂ ran ends => ?_) (fun f st₂ ran => ?_)
        · exact .round (trees.condition tested) (trees.value ran) (ih v ends)
        · exact .roundAbort (trees.condition tested) (trees.fault ran)
    · exact .testAbort (trees.conditionAbort tested)

theorem apply (trees : Derivable n) {c : Closure} {values : List Value}
    (ends : invoke (eval n) c values st ≠ .exhausted) :
    Evaluates s (.call c values []) st (invoke (eval n) c values st) := by
  obtain ⟨fault, store, binds⟩ := Binds.exists st.store.scopes.size c.params values
    (st.opened c values.length).store
  rw [invoke_apply] at ends ⊢
  have ran := binds.bindParams
  cases fault with
  | none =>
    rw [Run.bind_of_value ran] at ends ⊢
    exact .apply binds (trees _ _ _ _ rfl ends)
  | some f =>
    rw [Run.bind_of_fault ran]
    exact .bindFault binds

theorem call (trees : Derivable n) {c : Closure} (rest : List Tree) (values : List Value)
    (ends : callValue n s c values rest st ≠ .exhausted) :
    Evaluates s (.call c values rest) st (callValue n s c values rest st) := by
  induction rest generalizing values st with
  | nil =>
    rw [callValue_nil] at ends ⊢
    exact trees.apply ends
  | cons arg rest ih =>
    rw [callValue_cons] at ends ⊢
    refine Run.bind_cases ends (fun v st₁ ran ends => ?_) (fun f st₁ ran => ?_)
    · exact .argument (trees.value ran) (ih (values ++ [v]) ends)
    · exact .argumentAbort (trees.fault ran)

end Derivable

theorem eval_derivable (n : Nat) : Derivable n := by
  induction n with
  | zero =>
    intro s t st o ran ends
    exact absurd ran.symm ends
  | succ n trees =>
    intro s t st o ran ends
    subst ran
    cases t with
    | missing => exact .missing
    | atom type lexeme =>
      change Evaluates s _ st (Run.lift (literal type lexeme) st)
      cases read : literal type lexeme with
      | ok v => exact .literal (denotes_iff.mpr read)
      | error f => exact .badLiteral (denotes_iff.mpr read)
    | var name => exact .var
    | print operand =>
      refine Run.bind_cases ends (fun v st₁ ran _ => ?_) (fun f st₁ ran => ?_)
      · simp only [Bind.bind, Run.bind, Run.print]
        cases written : st₁.sink.write? v.text with
        | some sink => exact .print (trees.value ran) written
        | none => exact .printRefused (trees.value ran) written
      · exact .printAbort (trees.fault ran)
    | binary left op right =>
      refine Run.bind_cases ends (fun l st₁ ranLeft ends => ?_) (fun f st₁ ran => ?_)
      · refine Run.bind_cases ends (fun r st₂ ranRight ends => ?_) (fun f st₂ ran => ?_)
        · cases computed : Value.operate op l r with
          | ok v =>
            exact .binary (trees.value ranLeft) (trees.value ranRight) (operates_iff.mpr computed)
          | error f =>
            exact .binaryFault (trees.value ranLeft) (trees.value ranRight)
              (operates_iff.mpr computed)
        · exact .rightAbort (trees.value ranLeft) (trees.fault ran)
      · exact .leftAbort (trees.fault ran)
    | ifElse condition thenDo elseDo =>
      rw [eval_ifElse] at ends ⊢
      refine Run.bind_cases ends (fun a st₁ ranThen ends => ?_) (fun f st₁ ran => ?_)
      · refine Run.bind_cases ends (fun b st₂ ranElse ends => ?_) (fun f st₂ ran => ?_)
        · refine Run.bind_cases ends (fun holds st₃ tested _ => ?_) (fun f st₃ tested => ?_)
          · exact .select (trees.value ranThen) (trees.branch ranElse (by simp))
              (trees.condition tested)
          · exact .selectAbort (trees.value ranThen) (trees.branch ranElse (by simp))
              (trees.conditionAbort tested)
        · exact .elseAbort (trees.value ranThen) (trees.branch ran (by simp))
      · exact .thenAbort (trees.fault ran)
    | loop condition body => exact .loop (trees.loop n .null ends)
    | seq first second =>
      refine Run.bind_cases ends (fun v st₁ ran ends => ?_) (fun f st₁ ran => ?_)
      · exact .seq (trees.value ran) (trees _ _ _ _ rfl ends)
      · exact .seqAbort (trees.fault ran)
    | declare name init =>
      refine Run.bind_cases ends (fun v st₁ ran _ => ?_) (fun f st₁ ran => ?_)
      · cases created : st₁.store.create s name v with
        | ok store =>
          rw [Run.bind_of_value (Run.create_of_ok created)]
          exact .declare (trees.value ran) created
        | error f =>
          rw [Run.bind_of_fault (Run.create_of_error created)]
          exact .declareFault (trees.value ran) created
      · exact .declareAbort (trees.fault ran)
    | assign name expr =>
      refine Run.bind_cases ends (fun v st₁ ran ends => ?_) (fun f st₁ ran => ?_)
      · exact .assign (trees.value ran)
      · exact .assignAbort (trees.fault ran)
    | function params body => exact .function
    | call callee args =>
      refine Run.bind_cases ends (fun f st₁ ran ends => ?_) (fun f st₁ ran => ?_)
      · cases f with
        | closure c => exact .call (trees.value ran) (trees.call args [] ends)
        | _ => exact .notCallable (trees.value ran) (by simp)
      · exact .calleeAbort (trees.fault ran)

/-! What can be derived is what the evaluator does -/

def Phrase.run (n : Nat) (s : ScopeId) : Phrase → Run Value
  | .tree t => eval n s t
  | .branch t => branchValue n s t
  | .condition t => do
    let holds ← truth n s t
    return .bool holds
  | .loop test body last => Run.iterate (truth n s test) (eval n s body) n last
  | .call c values rest => callValue n s c values rest

/-- With enough depth, the evaluator ends in this way. -/
def Settles (s : ScopeId) (p : Phrase) (st : State) (o : Outcome Value) : Prop :=
  ∀ᶠ n in Filter.atTop, p.run n s st = o

namespace Settles

variable {s : ScopeId} {p : Phrase} {t : Tree} {st st' : State} {o : Outcome Value}

theorem of_succ (later : ∀ᶠ n in Filter.atTop, p.run (n + 1) s st = o) : Settles s p st o := by
  rw [Settles, ← Filter.map_add_atTop_eq_nat 1]
  exact later

theorem succ (settles : Settles s p st o) : ∀ᶠ n in Filter.atTop, p.run (n + 1) s st = o :=
  (Filter.tendsto_add_atTop_nat 1).eventually settles

end Settles

theorem truth_approximates {n m : Nat} (le : n ≤ m) (s : ScopeId) (t : Tree) :
    (truth n s t).Approximates (truth m s t) :=
  Run.approximates_congruence.bind (Run.approximates_congruence.eval le s t) fun _ =>
    Run.approximates_congruence.lift _

theorem truth_of_run {n : Nat} {s : ScopeId} {t : Tree} {st st' : State} {holds : Bool}
    (ran : (Phrase.condition t).run n s st = .value (.bool holds) st') :
    truth n s t st = .value holds st' := by
  obtain ⟨b, st₁, tested, same⟩ := Run.bind_eq_value.mp ran
  cases same
  exact tested

theorem truth_of_abort {n : Nat} {s : ScopeId} {t : Tree} {st st' : State} {f : Fault}
    (ran : (Phrase.condition t).run n s st = .fault f st') : truth n s t st = .fault f st' := by
  obtain failed | ⟨b, st₁, -, same⟩ := Run.bind_eq_fault.mp ran
  · exact failed
  · cases same

theorem Evaluates.settles {s : ScopeId} {p : Phrase} {st : State} {o : Outcome Value}
    (derived : Evaluates s p st o) : Settles s p st o := by
  induction derived with
  | missing => exact .of_succ (.of_forall fun n => rfl)
  | literal denotes | badLiteral denotes =>
    refine .of_succ (.of_forall fun n => ?_)
    simp only [Phrase.run, eval, denotes_iff.mp denotes]
    rfl
  | var => exact .of_succ (.of_forall fun n => rfl)
  | print _ written operand =>
    refine .of_succ (operand.mono fun n operand => (Run.bind_of_value operand).trans ?_)
    simp only [Bind.bind, Run.bind, Run.print, written]
    rfl
  | printRefused _ written operand =>
    refine .of_succ (operand.mono fun n operand => (Run.bind_of_value operand).trans ?_)
    simp only [Bind.bind, Run.bind, Run.print, written]
  | printAbort _ part | leftAbort _ part | thenAbort _ part | seqAbort _ part
  | declareAbort _ part | assignAbort _ part | calleeAbort _ part =>
    exact .of_succ (part.mono fun n part => Run.bind_of_fault part)
  | binary _ _ computed left right | binaryFault _ _ computed left right =>
    refine .of_succ ?_
    filter_upwards [left, right] with n left right
    refine (Run.bind_of_value left).trans ((Run.bind_of_value right).trans ?_)
    rw [operates_iff.mp computed]
    rfl
  | rightAbort _ _ left right =>
    refine .of_succ ?_
    filter_upwards [left, right] with n left right
    exact (Run.bind_of_value left).trans (Run.bind_of_fault right)
  | select _ _ _ first second test =>
    refine .of_succ ?_
    filter_upwards [first, second, test] with n first second test
    rw [Phrase.run, eval_ifElse]
    exact (Run.bind_of_value first).trans
      ((Run.bind_of_value second).trans (Run.bind_of_value (truth_of_run test)))
  | elseAbort _ _ first second =>
    refine .of_succ ?_
    filter_upwards [first, second] with n first second
    rw [Phrase.run, eval_ifElse]
    exact (Run.bind_of_value first).trans (Run.bind_of_fault second)
  | selectAbort _ _ _ first second test =>
    refine .of_succ ?_
    filter_upwards [first, second, test] with n first second test
    rw [Phrase.run, eval_ifElse]
    exact (Run.bind_of_value first).trans
      ((Run.bind_of_value second).trans (Run.bind_of_fault (truth_of_abort test)))
  | noBranch => exact .of_forall fun n => rfl
  | @branch s st t o present _ part =>
    refine part.mono fun n part => ?_
    cases t with
    | missing => exact absurd rfl present
    | _ => exact part
  | condition _ part =>
    refine part.mono fun n part => ?_
    exact Run.bind_of_value (Run.bind_of_value part)
  | @notBool s st t v st₁ _ other part =>
    refine part.mono fun n part => Run.bind_of_fault ((Run.bind_of_value part).trans ?_)
    cases v with
    | bool b => exact absurd rfl (other b)
    | _ => rfl
  | conditionAbort _ part =>
    exact part.mono fun n part => Run.bind_of_fault (Run.bind_of_fault part)
  | loop _ part => exact .of_succ part
  | stop _ test =>
    refine .of_succ (test.succ.mono fun n test => ?_)
    rw [Phrase.run, Run.iterate_succ, Run.bind_of_value (truth_of_run test)]
    rfl
  | round _ _ more test body rest =>
    refine .of_succ ?_
    filter_upwards [test.succ, body.succ, rest] with n test body rest
    rw [Phrase.run, Run.iterate_succ, Run.bind_of_value (truth_of_run test)]
    -- The rounds to come were counted with less depth for each of them.
    have deeper := Run.approximates_congruence.iterate (Nat.le_refl n)
      (truth_approximates (Nat.le_succ n) _ _)
      (Run.approximates_congruence.eval (Nat.le_succ n) _ _) _ _ (rest ▸ more.ends)
    exact (Run.bind_of_value body).trans (deeper.trans rest)
  | testAbort _ test =>
    refine .of_succ (test.succ.mono fun n test => ?_)
    rw [Phrase.run, Run.iterate_succ, Run.bind_of_fault (truth_of_abort test)]
  | roundAbort _ _ test body =>
    refine .of_succ ?_
    filter_upwards [test.succ, body.succ] with n test body
    rw [Phrase.run, Run.iterate_succ, Run.bind_of_value (truth_of_run test)]
    exact Run.bind_of_fault body
  | seq _ _ first second =>
    refine .of_succ ?_
    filter_upwards [first, second] with n first second
    exact (Run.bind_of_value first).trans second
  | declare _ created part =>
    refine .of_succ (part.mono fun n part => ?_)
    exact (Run.bind_of_value part).trans (Run.bind_of_value (Run.create_of_ok created))
  | declareFault _ failed part =>
    refine .of_succ (part.mono fun n part => ?_)
    exact (Run.bind_of_value part).trans (Run.bind_of_fault (Run.create_of_error failed))
  | assign _ part => exact .of_succ (part.mono fun n part => Run.bind_of_value part)
  | function => exact .of_succ (.of_forall fun n => rfl)
  | call _ _ callee rest =>
    refine .of_succ ?_
    filter_upwards [callee, rest] with n callee rest
    exact (Run.bind_of_value callee).trans rest
  | @notCallable s st callee args v st₁ _ other part =>
    refine .of_succ (part.mono fun n part => (Run.bind_of_value part).trans ?_)
    cases v with
    | closure c => exact absurd rfl (other c)
    | _ => rfl
  | argument _ _ part rest =>
    filter_upwards [part, rest] with n part rest
    rw [Phrase.run, callValue_cons]
    exact (Run.bind_of_value part).trans rest
  | argumentAbort _ part =>
    refine part.mono fun n part => ?_
    rw [Phrase.run, callValue_cons]
    exact Run.bind_of_fault part
  | apply binds _ body =>
    refine body.mono fun n body => ?_
    rw [Phrase.run, callValue_nil, invoke_apply, Run.bind_of_value binds.bindParams]
    exact body
  | bindFault binds =>
    refine .of_forall fun n => ?_
    rw [Phrase.run, callValue_nil, invoke_apply, Run.bind_of_fault binds.bindParams]

theorem Evaluates.unique {s : ScopeId} {p : Phrase} {st : State} {o o' : Outcome Value}
    (derived : Evaluates s p st o) (derived' : Evaluates s p st o') : o = o' := by
  obtain ⟨n, ran, ran'⟩ := (derived.settles.and derived'.settles).exists
  exact ran.symm.trans ran'

theorem evaluates_tree_iff {s : ScopeId} {t : Tree} {st : State} {o : Outcome Value} :
    Evaluates s (.tree t) st o ↔ o ≠ .exhausted ∧ ∃ n, eval n s t st = o := by
  constructor
  · intro derived
    exact ⟨derived.ends, derived.settles.exists⟩
  · rintro ⟨ends, n, ran⟩
    exact eval_derivable n s t st o ran ends

/-- The evaluator implements the rules: it ends in exactly the ways that they derive, they derive
at most one, and more depth does not change an end once it is reached. -/
theorem evaluator_implements_rules (s : ScopeId) (t : Tree) (st : State) :
    (∀ o, (o ≠ .exhausted ∧ ∃ n, eval n s t st = o) ↔ Evaluates s (.tree t) st o) ∧
    (∀ o o', Evaluates s (.tree t) st o → Evaluates s (.tree t) st o' → o = o') ∧
    ∀ n m, n ≤ m → eval n s t st ≠ .exhausted → eval m s t st = eval n s t st :=
  ⟨fun _ => evaluates_tree_iff.symm, fun _ _ => Evaluates.unique, fun _ _ => eval_eq_of_le⟩

def Tree.countdown : Tree :=
  let step : Tree := .seq (.print (.var "x")) (.assign "x" (.binary (.var "x") "-" (.var "d")))
  .seq (.seq (.declare "x" (.int 2)) (.declare "step" (.function ["d"] step)))
    (.loop (.binary (.int 0) "<" (.var "x")) (.call (.var "step") [.int 1]))

/-- One closure was made, and each of its two calls had a scope of its own under the captured
one. -/
def Store.CountedDown (st : Store) : Prop :=
  (st.own? 0 "x").map Value.text = some (Text.ofString "0") ∧
  (st.own? 0 "step").map Value.text = some (Text.ofString "<function(d)>") ∧
  st.nextIdentity = 1 ∧ st.scopes.size = 3 ∧ st.outer? 1 = some 0 ∧ st.outer? 2 = some 0 ∧
  (st.own? 2 "d").map Value.text = some (Text.ofString "1")

instance : DecidablePred Store.CountedDown := fun _ =>
  inferInstanceAs (Decidable (_ ∧ _ ∧ _ ∧ _ ∧ _ ∧ _ ∧ _))

theorem countdown_derived :
    ∃ v st', Evaluates 0 (.tree .countdown) ⟨⟨#[⟨none, []⟩], 0⟩, .unlimited, #[]⟩ (.value v st') ∧
      v.text = Text.ofString "0" ∧ st'.sink.text = Text.ofString "2\n1\n" ∧
      st'.store.CountedDown := by
  have passed : (eval 9 0 .countdown ⟨⟨#[⟨none, []⟩], 0⟩, .unlimited, #[]⟩).passes (fun v st' =>
      decide (v.text = Text.ofString "0" ∧ st'.sink.text = Text.ofString "2\n1\n" ∧
        st'.store.CountedDown)) = true := by
    decide +kernel
  obtain ⟨v, st', ran, shown⟩ := Outcome.exists_of_passes passed
  obtain ⟨derives, -, -⟩ :=
    evaluator_implements_rules 0 .countdown ⟨⟨#[⟨none, []⟩], 0⟩, .unlimited, #[]⟩
  exact ⟨v, st', (derives _).mp ⟨nofun, 9, ran⟩, of_decide_eq_true shown⟩

end Treewalk

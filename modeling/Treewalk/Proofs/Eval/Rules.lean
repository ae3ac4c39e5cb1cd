import Treewalk.Eval.Basic

/-! The rules of evaluation, as a relation between a tree, the state in which it is evaluated and
how that ends. The rules know no depth, and derive nothing for an evaluation that never ends. -/
namespace Treewalk

/-- What the rules are about: a tree; a branch that may be absent; a condition; a loop under way,
with the value of its last round; a call whose callee and first arguments are known. -/
inductive Phrase where
  | tree (t : Tree)
  | branch (t : Tree)
  | condition (t : Tree)
  | loop (condition body : Tree) (last : Value)
  | call (callee : Closure) (values : List Value) (rest : List Tree)

inductive Denotes : AtomType → Text → Except Fault Value → Prop where
  | int {lexeme n} : Text.readInt64 lexeme = some n → Denotes .int lexeme (.ok (.int n))
  | notAnInt {lexeme} : Text.readInt64 lexeme = none →
    Denotes .int lexeme (.error (.notAnInt lexeme))
  | bool {lexeme b} : Text.readTruth lexeme = some b → Denotes .bool lexeme (.ok (.bool b))
  | notABool {lexeme} : Text.readTruth lexeme = none →
    Denotes .bool lexeme (.error (.notABool lexeme))
  | null {lexeme} : Denotes .null lexeme (.ok .null)
  | unknown {type lexeme} : type ≠ .int → type ≠ .bool → type ≠ .null →
    Denotes type lexeme (.error (.unknownAtom type))

/-- Both operands must be integers, whatever the operator. One that is not known gives null. -/
inductive Operates (op : Text) : Value → Value → Except Fault Value → Prop where
  | known {a b o} : Operator.symbol o = op → Operates op (.int a) (.int b) (o.apply a b)
  | unknown {a b} : (∀ o, Operator.symbol o ≠ op) → Operates op (.int a) (.int b) (.ok .null)
  | left {l r} : (∀ a, l ≠ .int a) → Operates op l r (.error (.operandNotInt op l.text))
  | right {a r} : (∀ b, r ≠ .int b) → Operates op (.int a) r (.error (.operandNotInt op r.text))

/-- Parameters are bound one after the other. One without an argument is null, and arguments
without a parameter are dropped. A parameter that is bound already is a fault. -/
inductive Binds (s : ScopeId) : List Name → List Value → Store → Option Fault → Store → Prop where
  | done {values st} : Binds s [] values st none st
  | argument {p params v values st st₁ st₂ fault} : st.create s p v = .ok st₁ →
    Binds s params values st₁ fault st₂ → Binds s (p :: params) (v :: values) st fault st₂
  | absent {p params st st₁ st₂ fault} : st.create s p .null = .ok st₁ →
    Binds s params [] st₁ fault st₂ → Binds s (p :: params) [] st fault st₂
  | repeated {p params v values st f} : st.create s p v = .error f →
    Binds s (p :: params) values st (some f) st

/-- The state in which the parameters of a call are bound: there is a fresh scope under the one
that the closure captured, and a note is taken if the arguments are too few or too many. -/
def State.opened (st : State) (c : Closure) (count : Nat) : State where
  store := { st.store with scopes := st.store.scopes.push ⟨c.scope, []⟩ }
  sink := st.sink
  mismatches :=
    if c.params.length = count then st.mismatches
    else st.mismatches.push ⟨c.params.length, count⟩

/-- Evaluation of a phrase in a scope, from a state to an end. A rule whose name ends in `Abort`
says that a fault on the way is the fault of the whole. -/
inductive Evaluates : ScopeId → Phrase → State → Outcome Value → Prop where
  | missing {s st} : Evaluates s (.tree .missing) st (.fault .missingNode st)
  | literal {s st type lexeme v} : Denotes type lexeme (.ok v) →
    Evaluates s (.tree (.atom type lexeme)) st (.value v st)
  | badLiteral {s st type lexeme f} : Denotes type lexeme (.error f) →
    Evaluates s (.tree (.atom type lexeme)) st (.fault f st)
  | var {s st name} : Evaluates s (.tree (.var name)) st (.value (st.store.resolve s name) st)
  | print {s st operand v st₁ sink} : Evaluates s (.tree operand) st (.value v st₁) →
    st₁.sink.write? v.text = some sink →
    Evaluates s (.tree (.print operand)) st (.value v { st₁ with sink })
  | printRefused {s st operand v st₁} : Evaluates s (.tree operand) st (.value v st₁) →
    st₁.sink.write? v.text = none →
    Evaluates s (.tree (.print operand)) st (.fault (.refusedPrint v.text) st₁)
  | printAbort {s st operand f st₁} : Evaluates s (.tree operand) st (.fault f st₁) →
    Evaluates s (.tree (.print operand)) st (.fault f st₁)
  | binary {s st left op right l r v st₁ st₂} : Evaluates s (.tree left) st (.value l st₁) →
    Evaluates s (.tree right) st₁ (.value r st₂) → Operates op l r (.ok v) →
    Evaluates s (.tree (.binary left op right)) st (.value v st₂)
  | binaryFault {s st left op right l r f st₁ st₂} : Evaluates s (.tree left) st (.value l st₁) →
    Evaluates s (.tree right) st₁ (.value r st₂) → Operates op l r (.error f) →
    Evaluates s (.tree (.binary left op right)) st (.fault f st₂)
  | leftAbort {s st left op right f st₁} : Evaluates s (.tree left) st (.fault f st₁) →
    Evaluates s (.tree (.binary left op right)) st (.fault f st₁)
  | rightAbort {s st left op right l f st₁ st₂} : Evaluates s (.tree left) st (.value l st₁) →
    Evaluates s (.tree right) st₁ (.fault f st₂) →
    Evaluates s (.tree (.binary left op right)) st (.fault f st₂)
  | select {s st condition thenDo elseDo a b holds st₁ st₂ st₃} :
    Evaluates s (.tree thenDo) st (.value a st₁) → Evaluates s (.branch elseDo) st₁ (.value b st₂) →
    Evaluates s (.condition condition) st₂ (.value (.bool holds) st₃) →
    Evaluates s (.tree (.ifElse condition thenDo elseDo)) st (.value (if holds then a else b) st₃)
  | thenAbort {s st condition thenDo elseDo f st₁} : Evaluates s (.tree thenDo) st (.fault f st₁) →
    Evaluates s (.tree (.ifElse condition thenDo elseDo)) st (.fault f st₁)
  | elseAbort {s st condition thenDo elseDo a f st₁ st₂} :
    Evaluates s (.tree thenDo) st (.value a st₁) → Evaluates s (.branch elseDo) st₁ (.fault f st₂) →
    Evaluates s (.tree (.ifElse condition thenDo elseDo)) st (.fault f st₂)
  | selectAbort {s st condition thenDo elseDo a b f st₁ st₂ st₃} :
    Evaluates s (.tree thenDo) st (.value a st₁) → Evaluates s (.branch elseDo) st₁ (.value b st₂) →
    Evaluates s (.condition condition) st₂ (.fault f st₃) →
    Evaluates s (.tree (.ifElse condition thenDo elseDo)) st (.fault f st₃)
  | noBranch {s st} : Evaluates s (.branch .missing) st (.value .null st)
  | branch {s st t o} : t ≠ .missing → Evaluates s (.tree t) st o → Evaluates s (.branch t) st o
  | condition {s st t holds st₁} : Evaluates s (.tree t) st (.value (.bool holds) st₁) →
    Evaluates s (.condition t) st (.value (.bool holds) st₁)
  | notBool {s st t v st₁} : Evaluates s (.tree t) st (.value v st₁) → (∀ b, v ≠ .bool b) →
    Evaluates s (.condition t) st (.fault (.conditionNotBool t.text v.text) st₁)
  | conditionAbort {s st t f st₁} : Evaluates s (.tree t) st (.fault f st₁) →
    Evaluates s (.condition t) st (.fault f st₁)
  | loop {s st condition body o} : Evaluates s (.loop condition body .null) st o →
    Evaluates s (.tree (.loop condition body)) st o
  | stop {s st condition body last st₁} :
    Evaluates s (.condition condition) st (.value (.bool false) st₁) →
    Evaluates s (.loop condition body last) st (.value last st₁)
  | round {s st condition body last v o st₁ st₂} :
    Evaluates s (.condition condition) st (.value (.bool true) st₁) →
    Evaluates s (.tree body) st₁ (.value v st₂) → Evaluates s (.loop condition body v) st₂ o →
    Evaluates s (.loop condition body last) st o
  | testAbort {s st condition body last f st₁} :
    Evaluates s (.condition condition) st (.fault f st₁) →
    Evaluates s (.loop condition body last) st (.fault f st₁)
  | roundAbort {s st condition body last f st₁ st₂} :
    Evaluates s (.condition condition) st (.value (.bool true) st₁) →
    Evaluates s (.tree body) st₁ (.fault f st₂) →
    Evaluates s (.loop condition body last) st (.fault f st₂)
  | seq {s st first second v o st₁} : Evaluates s (.tree first) st (.value v st₁) →
    Evaluates s (.tree second) st₁ o → Evaluates s (.tree (.seq first second)) st o
  | seqAbort {s st first second f st₁} : Evaluates s (.tree first) st (.fault f st₁) →
    Evaluates s (.tree (.seq first second)) st (.fault f st₁)
  | declare {s st name init v st₁ store} : Evaluates s (.tree init) st (.value v st₁) →
    st₁.store.create s name v = .ok store →
    Evaluates s (.tree (.declare name init)) st (.value v { st₁ with store })
  | declareFault {s st name init v f st₁} : Evaluates s (.tree init) st (.value v st₁) →
    st₁.store.create s name v = .error f →
    Evaluates s (.tree (.declare name init)) st (.fault f st₁)
  | declareAbort {s st name init f st₁} : Evaluates s (.tree init) st (.fault f st₁) →
    Evaluates s (.tree (.declare name init)) st (.fault f st₁)
  | assign {s st name expr v st₁} : Evaluates s (.tree expr) st (.value v st₁) →
    Evaluates s (.tree (.assign name expr)) st
      (.value ((st₁.store.update s name v).resolve s name)
        { st₁ with store := st₁.store.update s name v })
  | assignAbort {s st name expr f st₁} : Evaluates s (.tree expr) st (.fault f st₁) →
    Evaluates s (.tree (.assign name expr)) st (.fault f st₁)
  | function {s st params body} : Evaluates s (.tree (.function params body)) st
      (.value (.closure ⟨st.store.nextIdentity, params, body, some s⟩)
        { st with store := { st.store with nextIdentity := st.store.nextIdentity + 1 } })
  | call {s st callee args c o st₁} : Evaluates s (.tree callee) st (.value (.closure c) st₁) →
    Evaluates s (.call c [] args) st₁ o → Evaluates s (.tree (.call callee args)) st o
  | notCallable {s st callee args v st₁} : Evaluates s (.tree callee) st (.value v st₁) →
    (∀ c, v ≠ .closure c) →
    Evaluates s (.tree (.call callee args)) st (.fault (.notAFunction callee.text v.text) st₁)
  | calleeAbort {s st callee args f st₁} : Evaluates s (.tree callee) st (.fault f st₁) →
    Evaluates s (.tree (.call callee args)) st (.fault f st₁)
  | argument {s st c values arg rest v o st₁} : Evaluates s (.tree arg) st (.value v st₁) →
    Evaluates s (.call c (values ++ [v]) rest) st₁ o →
    Evaluates s (.call c values (arg :: rest)) st o
  | argumentAbort {s st c values arg rest f st₁} : Evaluates s (.tree arg) st (.fault f st₁) →
    Evaluates s (.call c values (arg :: rest)) st (.fault f st₁)
  | apply {s st c values store o} :
    Binds st.store.scopes.size c.params values (st.opened c values.length).store none store →
    Evaluates st.store.scopes.size (.tree c.body) { st.opened c values.length with store } o →
    Evaluates s (.call c values []) st o
  | bindFault {s st c values store f} :
    Binds st.store.scopes.size c.params values (st.opened c values.length).store (some f) store →
    Evaluates s (.call c values []) st (.fault f { st.opened c values.length with store })

theorem Evaluates.ends {s : ScopeId} {p : Phrase} {st : State} {o : Outcome Value}
    (derived : Evaluates s p st o) : o ≠ .exhausted := by
  induction derived with
  | branch _ _ ih | loop _ ih | round _ _ _ _ _ ih | seq _ _ _ ih | call _ _ _ ih
  | argument _ _ _ ih | apply _ _ ih => exact ih
  | _ => exact nofun

end Treewalk

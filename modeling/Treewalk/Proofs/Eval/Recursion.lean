import Treewalk.Proofs.Eval.Binding
import Treewalk.Proofs.Eval.Eager

/-! Recursion without an end. A conditional evaluates both of its branches, so it cannot keep a
function from calling itself again. If a call of the function itself stands in an eager position of
its body, then no call of the function ever returns: the body cannot come to a value before a call
of the same function has, and nothing on the way changes what the function's name stands for. -/
namespace Treewalk

/-- The tree makes no function, does not rebind the name and calls nothing but what bears it. -/
def Tree.CallsOnly (f : Name) : Tree → Prop
  | .function _ _ => False
  | .declare name _ | .assign name _ => name ≠ f
  | .call callee _ => callee = .var f
  | _ => True

/-- The body of the function calls what bears the name, in an eager position, and calls nothing
else. -/
structure Closure.Recursive (c : Closure) (f : Name) : Prop where
  param : f ∉ c.params
  body : c.body.Every (Tree.CallsOnly f)
  calls : ∃ callee args, .call callee args ∈ c.body.eager

structure Closure.Named (c : Closure) (f : Name) (u s : ScopeId) (st : Store) : Prop where
  home : st.resolve u f = .closure c
  here : st.resolve s f = .closure c

/-! What the name stands for -/

section Named

variable {c : Closure} {f name : Name} {s u : ScopeId}

theorem Closure.Named.bindAt {st : Store} (named : c.Named f u s st) (apart : name ≠ f)
    (t : ScopeId) (v : Value) : c.Named f u s (st.bindAt t name v) where
  home := (Store.resolve_bindAt_other apart.symm).trans named.home
  here := (Store.resolve_bindAt_other apart.symm).trans named.here

theorem State.Entered.named {args : List Value} {st st' : State}
    (entered : Entered c args st st') (param : f ∉ c.params) (captured : c.scope = some u)
    (bound : st.store.resolve u f = .closure c) :
    c.Named f u st.store.scopes.size st'.store := by
  have inside := Store.lt_size_of_resolve bound
  have same : st'.store.lookup? u f = st.store.lookup? u f :=
    Store.lookup?_congr (fun t earlier => entered.old (earlier.trans_lt inside)) f
  have linked : st'.store.outer? st.store.scopes.size = some u := by
    rw [entered.outer, captured]
    intro u' captured'
    cases captured.symm.trans captured'
    exact inside
  constructor
  · rw [Store.resolve, same]
    exact bound
  · rw [Store.resolve, Store.lookup?_eq, entered.only param, linked, Option.none_or,
      Option.bind_some, same]
    exact bound

end Named

/-! Evaluation never gets past a call -/

/-- What is left when evaluation has come past some trees: the name stands for the function, and
none of the trees was a call. -/
structure Closure.Past (c : Closure) (f : Name) (u s : ScopeId) (trees : List Tree) (st : Store) :
    Prop where
  named : c.Named f u s st
  callless : ∀ t ∈ trees, t.isCall = false

namespace Closure.Past

variable {c : Closure} {f : Name} {u s : ScopeId} {trees more : List Tree} {st st' : Store}

theorem nil (named : c.Named f u s st) : c.Past f u s [] st := ⟨named, by simp⟩

theorem append (first : c.Past f u s trees st) (second : c.Past f u s more st') :
    c.Past f u s (trees ++ more) st' :=
  ⟨second.named, List.forall_mem_append.mpr ⟨first.callless, second.callless⟩⟩

theorem other (past : c.Past f u s trees st) {t : Tree} (apart : t.isCall = false) :
    c.Past f u s (trees ++ [t]) st :=
  past.append ⟨past.named, List.forall_mem_singleton.mpr apart⟩

theorem later (past : c.Past f u s trees st) (named : c.Named f u s st') : c.Past f u s trees st' :=
  ⟨named, past.callless⟩

end Closure.Past

def Phrase.CallsOnly (c : Closure) (f : Name) : Phrase → Prop
  | .tree t | .condition t => t.Every (Tree.CallsOnly f)
  | .branch t => t ≠ .missing → t.Every (Tree.CallsOnly f)
  | .loop test body _ => test.Every (Tree.CallsOnly f) ∧ body.Every (Tree.CallsOnly f)
  | .call callee _ rest => callee = c ∧ ∀ t ∈ rest, t.Every (Tree.CallsOnly f)

def Phrase.Passed (c : Closure) (f : Name) (u s : ScopeId) : Phrase → Store → Prop
  | .call _ _ _, _ => False
  | p, st => c.Past f u s p.eager st

theorem Evaluates.passed {c : Closure} {f : Name} (recursive : c.Recursive f) {u s : ScopeId}
    (captured : c.scope = some u) {p : Phrase} {st : State} {o : Outcome Value}
    (derived : Evaluates s p st o) (only : p.CallsOnly c f) (named : c.Named f u s st.store) :
    o.Meets (fun _ st' => p.Passed c f u s st'.store) fun _ _ => True := by
  -- A derivation is finite, so that the one for the body of a call, which must hold another call
  -- of the same function, cannot end in a value.
  induction derived with
  | literal _ | var => exact (Closure.Past.nil named).other rfl
  | print _ _ operand =>
    exact (operand (only.part (by simp [Tree.parts])) named).other rfl
  | binary _ _ _ left right =>
    have first := left (only.part (by simp [Tree.parts])) named
    have second := right (only.part (by simp [Tree.parts])) first.named
    exact (first.append second).other rfl
  | @select _ _ condition thenDo elseDo _ _ _ _ _ _ _ _ _ first second test =>
    have inThen : thenDo ∈ (Tree.ifElse condition thenDo elseDo).parts := by
      cases elseDo <;> simp [Tree.parts]
    have inElse (present : elseDo ≠ .missing) :
        elseDo ∈ (Tree.ifElse condition thenDo elseDo).parts := by
      cases elseDo <;> simp [Tree.parts] at present ⊢
    have inCondition : condition ∈ (Tree.ifElse condition thenDo elseDo).parts := by
      cases elseDo <;> simp [Tree.parts]
    have first := first (only.part inThen) named
    have second := second (fun present => only.part (inElse present)) first.named
    have third := test (only.part inCondition) second.named
    exact ((first.append second).append third).other rfl
  | noBranch => exact (Closure.Past.nil named).other rfl
  | branch present _ part => exact part (only present) named
  | condition _ part => exact part only named
  | loop _ part =>
    have inner := part ⟨only.part (by simp [Tree.parts]),
      only.part (by simp [Tree.parts])⟩ named
    exact inner.imp (fun _ _ past => past.other rfl) fun _ _ => id
  | stop _ test => exact test only.1 named
  | round _ _ _ test body rest =>
    have tested := test only.1 named
    have evaluated := body only.2 tested.named
    exact rest only evaluated.named
  | seq _ _ first second =>
    have first := first (only.part (by simp [Tree.parts])) named
    have rest := second (only.part (by simp [Tree.parts])) first.named
    exact rest.imp (fun _ _ past => (first.append past).other rfl) fun _ _ => id
  | declare _ created init =>
    have first := init (only.part (by simp [Tree.parts])) named
    obtain ⟨-, rfl⟩ := Store.create_eq_ok_iff.mp created
    exact (first.later (first.named.bindAt only.own ..)).other rfl
  | assign _ expr =>
    have first := expr (only.part (by simp [Tree.parts])) named
    exact (first.later (first.named.bindAt only.own ..)).other rfl
  | function => exact only.own.elim
  | call evaluated _ _ rest =>
    -- What is called is the function itself, since the name stands for it.
    obtain rfl := only.own
    obtain ⟨same, rfl⟩ := Outcome.value.inj (evaluated.unique .var)
    have itself := Value.closure.inj (same.trans named.here)
    have called := rest ⟨itself, fun t listed => only.part (by simp [Tree.parts, listed])⟩ named
    exact called.imp (fun _ _ never => never.elim) fun _ _ => id
  | argument _ _ arg rest =>
    have first := arg (only.2 _ List.mem_cons_self) named
    exact rest ⟨only.1, fun t listed => only.2 t (List.mem_cons_of_mem _ listed)⟩ first.named
  | @apply _ _ _ _ _ o binds _ body =>
    obtain ⟨rfl, -⟩ := only
    have entered := binds.entered.named recursive.param captured named.home
    obtain ⟨callee, args, inside⟩ := recursive.calls
    refine (body recursive.body entered).imp (fun _ _ past => ?_) fun _ _ => id
    cases past.callless _ inside
  | _ => trivial

/-- A call of a function that calls itself in an eager position of its body never returns a value.
It fails, whatever depth it is given from some depth on, or it does not end at any depth. -/
theorem recursion_never_returns (c : Closure) (f : Name) (s : ScopeId) (args : List Value)
    (st : State) (captured : c.scope = some s) (bound : st.store.resolve s f = .closure c)
    (recursive : c.Recursive f) :
    (∀ n v st', invoke (eval n) c args st ≠ .value v st') ∧
    ((∃ m g st', ∀ n, m ≤ n → invoke (eval n) c args st = .fault g st') ∨
      ∀ n, invoke (eval n) c args st = .exhausted) := by
  have never (n : Nat) (v : Value) (st' : State) : invoke (eval n) c args st ≠ .value v st' := by
    intro returned
    have derived : Evaluates s (.call c args []) st (.value v st') :=
      returned ▸ (eval_derivable n).apply (by simp [returned])
    exact derived.passed recursive captured ⟨rfl, by simp⟩ ⟨bound, bound⟩
  refine ⟨never, ?_⟩
  by_cases ends : ∃ m, invoke (eval m) c args st ≠ .exhausted
  · obtain ⟨m, ends⟩ := ends
    have deeper (n : Nat) (le : m ≤ n) : invoke (eval n) c args st = invoke (eval m) c args st :=
      Run.approximates_congruence.invoke (Run.approximates_congruence.eval le) c args st ends
    cases ran : invoke (eval m) c args st with
    | value v st' => exact absurd ran (never m v st')
    | fault g st' => exact .inl ⟨m, g, st', fun n le => (deeper n le).trans ran⟩
    | exhausted => exact absurd ran ends
  · exact .inr fun n => not_not.mp (not_exists.mp ends n)

def Tree.sumUp : Tree :=
  .ifElse (.binary (.var "k") "==" (.int 0)) (.int 0)
    (.binary (.var "k") "+" (.call (.var "sum") [.binary (.var "k") "-" (.int 1)]))

def Closure.sumUp : Closure := ⟨0, ["k"], .sumUp, some 0⟩

def Store.sumUp : Store := ⟨#[⟨none, [("sum", .closure .sumUp)]⟩], 1⟩

theorem Closure.sumUp_recursive : sumUp.Recursive "sum" where
  param := by decide
  body := by
    have leaf {t : Tree} (own : t.CallsOnly "sum") (none : t.children = []) :
        t.Every (Tree.CallsOnly "sum") := Tree.every_iff.mpr ⟨own, by simp [none]⟩
    have k : (Tree.var "k").Every (Tree.CallsOnly "sum") := leaf trivial rfl
    have number (n : Int64) : (Tree.int n).Every (Tree.CallsOnly "sum") := leaf trivial rfl
    have binary {left right : Tree} (op : Text) (first : left.Every (Tree.CallsOnly "sum"))
        (second : right.Every (Tree.CallsOnly "sum")) :
        (Tree.binary left op right).Every (Tree.CallsOnly "sum") :=
      Tree.every_iff.mpr ⟨trivial, by simpa [Tree.children, Tree.parts] using ⟨first, second⟩⟩
    have call : (Tree.call (.var "sum") [.binary (.var "k") "-" (.int 1)]).Every
        (Tree.CallsOnly "sum") := by
      refine Tree.every_iff.mpr ⟨rfl, ?_⟩
      simpa [Tree.children, Tree.parts] using ⟨leaf trivial rfl, binary "-" k (number 1)⟩
    refine Tree.every_iff.mpr ⟨trivial, ?_⟩
    simpa [sumUp, Tree.sumUp, Tree.children, Tree.parts] using
      ⟨number 0, binary "+" k call, binary "==" k (number 0)⟩
  calls := by
    refine ⟨.var "sum", [.binary (.var "k") "-" (.int 1)], ?_⟩
    simp [sumUp, Tree.sumUp, Tree.eager, Tree.eagerAll]

theorem sumUp_never_returns :
    Closure.sumUp.Recursive "sum" ∧ Store.sumUp.resolve 0 "sum" = .closure .sumUp ∧
    ∀ n v st', invoke (eval n) .sumUp [.int 0] ⟨.sumUp, .unlimited, #[]⟩ ≠ .value v st' := by
  have bound : Store.sumUp.resolve 0 "sum" = .closure .sumUp := by
    rw [Store.resolve, Store.lookup?_eq]
    rfl
  exact ⟨Closure.sumUp_recursive, bound, (recursion_never_returns .sumUp "sum" 0 [.int 0]
    ⟨.sumUp, .unlimited, #[]⟩ rfl bound Closure.sumUp_recursive).1⟩

end Treewalk

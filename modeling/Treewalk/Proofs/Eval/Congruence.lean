import Treewalk.Eval.Basic

/-! Relations between runs that composition respects. Evaluation is put together from a few steps
on states, so whatever relates every step to itself and carries over from parts to a composed run
relates evaluations as well. The second evaluation may be given more depth than the first, which
owes nothing where the first one is exhausted. -/
namespace Treewalk

/-- What a relation between runs owes to the steps of evaluation and to their composition. -/
structure Run.Congruence (R : ∀ α : Type, Run α → Run α → Prop) : Prop where
  pure {α : Type} (a : α) : R α (Run.pure a) (Run.pure a)
  bind {α β : Type} {r r' : Run α} {k k' : α → Run β} :
    R α r r' → (∀ a, R β (k a) (k' a)) → R β (r >>= k) (r' >>= k')
  exhausted {α : Type} (r : Run α) : R α Run.exhausted r
  fail {α : Type} (f : Fault) : R α (Run.fail f) (Run.fail f)
  resolve (s : ScopeId) (name : Name) : R Value (Run.resolve s name) (Run.resolve s name)
  update (s : ScopeId) (name : Name) (v : Value) :
    R Unit (Run.update s name v) (Run.update s name v)
  create (s : ScopeId) (name : Name) (v : Value) :
    R Unit (Run.create s name v) (Run.create s name v)
  newScope (outer : Option ScopeId) : R ScopeId (Run.newScope outer) (Run.newScope outer)
  newClosure (params : List Name) (body : Tree) (s : ScopeId) :
    R Value (Run.newClosure params body s) (Run.newClosure params body s)
  print (v : Value) : R Unit (Run.print v) (Run.print v)
  noteMismatch (params args : Nat) :
    R Unit (Run.noteMismatch params args) (Run.noteMismatch params args)

theorem Run.iterate_succ {α : Type} (test : Run Bool) (body : Run α) (n : Nat) (last : α) :
    (Run.iterate test body (n + 1) last : Run α) = test >>= fun holds =>
      if holds then body >>= fun a => Run.iterate test body n a else Run.pure last := by
  funext st
  simp only [Run.iterate, Bind.bind, Run.bind]
  cases test st with
  | value holds st' =>
    cases holds with
    | false => rfl
    | true => cases body st' <;> rfl
  | fault f st' => rfl
  | exhausted => rfl

namespace Run.Congruence

variable {R : ∀ α : Type, Run α → Run α → Prop} {α β : Type}

theorem lift (laws : Congruence R) (e : Except Fault α) : R α (Run.lift e) (Run.lift e) := by
  cases e with
  | ok a => exact laws.pure a
  | error f => exact laws.fail f

theorem each (laws : Congruence R) {f f' : α → Run β} (action : ∀ a, R β (f a) (f' a))
    (members : List α) : R (List β) (Run.each f members) (Run.each f' members) := by
  induction members with
  | nil => exact laws.pure []
  | cons a rest ih =>
    refine laws.bind (action a) fun b => ?_
    exact laws.bind ih fun bs => laws.pure (b :: bs)

theorem iterate (laws : Congruence R) {test test' : Run Bool} {body body' : Run α} {n m : Nat}
    (le : n ≤ m) (tests : R Bool test test') (bodies : R α body body') (last : α) :
    R α (Run.iterate test body n last) (Run.iterate test' body' m last) := by
  induction n generalizing m last with
  | zero => exact laws.exhausted _
  | succ n ih =>
    obtain ⟨m, rfl⟩ : ∃ k, m = k + 1 := ⟨m - 1, by omega⟩
    rw [Run.iterate_succ, Run.iterate_succ]
    refine laws.bind tests fun holds => ?_
    cases holds with
    | false => exact laws.pure last
    | true => exact laws.bind bodies fun a => ih (by omega) a

theorem bindParams (laws : Congruence R) (s : ScopeId) (params : List Name) (args : List Value) :
    R Unit (bindParams s params args) (bindParams s params args) := by
  induction params generalizing args with
  | nil => exact laws.pure ()
  | cons p params ih => exact laws.bind (laws.create s p _) fun _ => ih args.tail

theorem enter (laws : Congruence R) (c : Closure) (args : List Value) :
    R ScopeId (enter c args) (enter c args) := by
  refine laws.bind (laws.noteMismatch _ _) fun _ => ?_
  refine laws.bind (laws.newScope c.scope) fun s => ?_
  exact laws.bind (laws.bindParams s c.params args) fun _ => laws.pure s

theorem invoke (laws : Congruence R) {evaluate evaluate' : ScopeId → Tree → Run Value}
    (evaluations : ∀ s t, R Value (evaluate s t) (evaluate' s t)) (c : Closure)
    (args : List Value) : R Value (invoke evaluate c args) (invoke evaluate' c args) :=
  laws.bind (laws.enter c args) fun s => evaluations s c.body

theorem eval (laws : Congruence R) {n m : Nat} (le : n ≤ m) (s : ScopeId) (t : Tree) :
    R Value (eval n s t) (eval m s t) := by
  induction n generalizing m s t with
  | zero => exact laws.exhausted _
  | succ n ih =>
    obtain ⟨m, rfl⟩ : ∃ k, m = k + 1 := ⟨m - 1, by omega⟩
    have le : n ≤ m := by omega
    cases t with
    | missing => exact laws.fail _
    | atom type lexeme => exact laws.lift _
    | var name => exact laws.resolve s name
    | print operand =>
      exact laws.bind (ih le s operand) fun v => laws.bind (laws.print v) fun _ => laws.pure v
    | binary left op right =>
      refine laws.bind (ih le s left) fun l => ?_
      exact laws.bind (ih le s right) fun r => laws.lift _
    | ifElse condition thenDo elseDo =>
      refine laws.bind (ih le s thenDo) fun a => ?_
      have selects (b : Value) : R Value
          (do
            let c ← Treewalk.eval n s condition
            let holds ← Run.lift (truthOf condition c)
            return if holds then a else b)
          (do
            let c ← Treewalk.eval m s condition
            let holds ← Run.lift (truthOf condition c)
            return if holds then a else b) := by
        refine laws.bind (ih le s condition) fun c => ?_
        exact laws.bind (laws.lift _) fun holds => laws.pure _
      cases elseDo with
      | missing => exact laws.bind (laws.pure Value.null) selects
      | _ => exact laws.bind (ih le s _) selects
    | loop condition body =>
      refine laws.iterate le ?_ (ih le s body) .null
      exact laws.bind (ih le s condition) fun c => laws.lift _
    | seq first second => exact laws.bind (ih le s first) fun _ => ih le s second
    | declare name init =>
      refine laws.bind (ih le s init) fun v => ?_
      exact laws.bind (laws.create s name v) fun _ => laws.pure v
    | assign name expr =>
      refine laws.bind (ih le s expr) fun v => ?_
      exact laws.bind (laws.update s name v) fun _ => laws.resolve s name
    | function params body => exact laws.newClosure params body s
    | call callee args =>
      refine laws.bind (ih le s callee) fun f => ?_
      cases f with
      | closure c =>
        exact laws.bind (laws.each (ih le s) args) fun vs => laws.invoke (ih le) c vs
      | _ => exact laws.fail _

end Run.Congruence

def Run.Approximates {α : Type} (r r' : Run α) : Prop :=
  ∀ st, r st ≠ .exhausted → r' st = r st

theorem Run.approximates_congruence : Run.Congruence fun _ => Run.Approximates where
  pure _ _ _ := rfl
  bind := by
    intro α β r r' k k' first next st ends
    simp only [Bind.bind, Run.bind] at ends ⊢
    have same := first st
    cases outcome : r st with
    | value a st' =>
      rw [outcome] at ends same
      rw [same nofun]
      exact next a st' ends
    | fault f st' =>
      rw [outcome] at same
      rw [same nofun]
    | exhausted =>
      rw [outcome] at ends
      exact absurd rfl ends
  exhausted _ _ ends := absurd rfl ends
  fail _ _ _ := rfl
  resolve _ _ _ _ := rfl
  update _ _ _ _ _ := rfl
  create _ _ _ _ _ := rfl
  newScope _ _ _ := rfl
  newClosure _ _ _ _ _ := rfl
  print _ _ _ := rfl
  noteMismatch _ _ _ _ := rfl

/-- More depth never changes how an evaluation ended. -/
theorem eval_eq_of_le {n m : Nat} {s : ScopeId} {t : Tree} {st : State} (le : n ≤ m)
    (ends : eval n s t st ≠ .exhausted) : eval m s t st = eval n s t st :=
  Run.approximates_congruence.eval le s t st ends

end Treewalk

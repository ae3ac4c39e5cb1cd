import Mathlib.Data.List.Forall2
import Mathlib.Order.Basic
import Treewalk.Eval.Basic
import Treewalk.Proofs.Tree.Subtree

/-! Two evaluations of one tree kept in step. A coupling says which states, values and scopes of
the two evaluations belong together, as seen from a world that only grows while they run. If
every single step of evaluation keeps to a coupling, then so do whole evaluations. -/
namespace Treewalk

/-- Two outcomes that are of one kind and related as that kind asks. -/
inductive Outcome.Rel {α β : Type} (onValue : α → β → State → State → Prop)
    (onFault : Fault → Fault → State → State → Prop) : Outcome α → Outcome β → Prop where
  | value {a b st₁ st₂} : onValue a b st₁ st₂ → Rel onValue onFault (.value a st₁) (.value b st₂)
  | fault {f g st₁ st₂} : onFault f g st₁ st₂ → Rel onValue onFault (.fault f st₁) (.fault g st₂)
  | exhausted : Rel onValue onFault .exhausted .exhausted

structure Coupling (W : Type) [Preorder W] where
  state : W → State → State → Prop
  value : W → Value → Value → Prop
  site : W → ScopeId → ScopeId → Tree → Prop
  binder : W → ScopeId → ScopeId → Name → Prop
  fault : Fault → Fault → Prop

namespace Coupling

variable {W : Type} [Preorder W] {C : Coupling W} {α β γ δ : Type}

/-- Outcomes that are coupled at a later world, with their results related there. -/
def Ends (C : Coupling W) (w : W) (result : W → α → β → Prop) :
    Outcome α → Outcome β → Prop :=
  Outcome.Rel (fun a b st₁ st₂ => ∃ w', w ≤ w' ∧ C.state w' st₁ st₂ ∧ result w' a b)
    (fun f g st₁ st₂ => ∃ w', w ≤ w' ∧ C.state w' st₁ st₂ ∧ C.fault f g)

/-- What the steps of evaluation owe to a coupling. -/
structure Lawful (C : Coupling W) : Prop where
  value_mono {w w' a b} : w ≤ w' → C.value w a b → C.value w' a b
  site_mono {w w' s₁ s₂ t} : w ≤ w' → C.site w s₁ s₂ t → C.site w' s₁ s₂ t
  binder_mono {w w' s₁ s₂ name} : w ≤ w' → C.binder w s₁ s₂ name → C.binder w' s₁ s₂ name
  part {w s₁ s₂ t u} : C.site w s₁ s₂ t → u ∈ t.parts → C.site w s₁ s₂ u
  declared {w s₁ s₂ name init} : C.site w s₁ s₂ (.declare name init) → C.binder w s₁ s₂ name
  null {w} : C.value w .null .null
  missing {w s₁ s₂} : C.site w s₁ s₂ .missing → C.fault .missingNode .missingNode
  literal {w s₁ s₂ type lexeme st₁ st₂} : C.site w s₁ s₂ (.atom type lexeme) →
    C.state w st₁ st₂ → C.Ends w C.value (Run.lift (literal type lexeme) st₁)
      (Run.lift (literal type lexeme) st₂)
  resolve {w s₁ s₂ name st₁ st₂} : C.site w s₁ s₂ (.var name) → C.state w st₁ st₂ →
    C.value w (st₁.store.resolve s₁ name) (st₂.store.resolve s₂ name)
  print {w a b st₁ st₂} : C.value w a b → C.state w st₁ st₂ →
    C.Ends w (fun _ _ _ => True) (Run.print a st₁) (Run.print b st₂)
  operate {w op a₁ a₂ b₁ b₂ st₁ st₂} : C.value w a₁ a₂ → C.value w b₁ b₂ → C.state w st₁ st₂ →
    C.Ends w C.value (Run.lift (Value.operate op a₁ b₁) st₁)
      (Run.lift (Value.operate op a₂ b₂) st₂)
  truth {w condition a b st₁ st₂} : C.value w a b → C.state w st₁ st₂ →
    C.Ends w (fun _ => Eq) (Run.lift (truthOf condition a) st₁) (Run.lift (truthOf condition b) st₂)
  create {w s₁ s₂ name a b st₁ st₂} : C.binder w s₁ s₂ name → C.value w a b →
    C.state w st₁ st₂ →
    C.Ends w (fun _ _ _ => True) (Run.create s₁ name a st₁) (Run.create s₂ name b st₂)
  assign {w s₁ s₂ name expr a b st₁ st₂} : C.site w s₁ s₂ (.assign name expr) →
    C.value w a b → C.state w st₁ st₂ →
    C.Ends w C.value ((do Run.update s₁ name a; Run.resolve s₁ name) st₁)
      ((do Run.update s₂ name b; Run.resolve s₂ name) st₂)
  closure {w s₁ s₂ params body st₁ st₂} : C.site w s₁ s₂ (.function params body) →
    C.state w st₁ st₂ →
    C.Ends w C.value (Run.newClosure params body s₁ st₁) (Run.newClosure params body s₂ st₂)
  callable {w a b} : C.value w a b →
    (∃ c d, a = .closure c ∧ b = .closure d ∧ c.params = d.params ∧ c.body = d.body) ∨
      ((∀ c, a ≠ .closure c) ∧ (∀ d, b ≠ .closure d) ∧
        ∀ callee, C.fault (.notAFunction callee a.text) (.notAFunction callee b.text))
  mismatch {w st₁ st₂} (params args : Nat) : C.state w st₁ st₂ →
    C.Ends w (fun _ _ _ => True) (Run.noteMismatch params args st₁)
      (Run.noteMismatch params args st₂)
  scope {w c d st₁ st₂} : C.value w (.closure c) (.closure d) → C.state w st₁ st₂ →
    C.Ends w (fun w' s₁ s₂ => C.site w' s₁ s₂ c.body ∧ ∀ p ∈ c.params, C.binder w' s₁ s₂ p)
      (Run.newScope c.scope st₁) (Run.newScope d.scope st₂)

theorem Ends.pure {w : W} {result : W → α → β → Prop} {a : α} {b : β} {st₁ st₂ : State}
    (coupled : C.state w st₁ st₂) (related : result w a b) :
    C.Ends w result ((Pure.pure a : Run α) st₁) ((Pure.pure b : Run β) st₂) :=
  .value ⟨w, le_rfl, coupled, related⟩

theorem Ends.fail {w : W} {result : W → α → β → Prop} {f g : Fault} {st₁ st₂ : State}
    (coupled : C.state w st₁ st₂) (related : C.fault f g) :
    C.Ends w result ((Run.fail f : Run α) st₁) ((Run.fail g : Run β) st₂) :=
  .fault ⟨w, le_rfl, coupled, related⟩

theorem Ends.lift {w : W} {result : W → α → α → Prop} {e : Except Fault α} {st₁ st₂ : State}
    (coupled : C.state w st₁ st₂) (computed : ∀ a, e = .ok a → result w a a)
    (failed : ∀ f, e = .error f → C.fault f f) :
    C.Ends w result (Run.lift e st₁) (Run.lift e st₂) := by
  cases e with
  | ok a => exact Ends.pure coupled (computed a rfl)
  | error f => exact Ends.fail coupled (failed f rfl)

theorem Ends.mono {w w' : W} {P Q : W → α → β → Prop} {o₁ : Outcome α} {o₂ : Outcome β}
    (later : w ≤ w') (weaken : ∀ w'' a b, w' ≤ w'' → P w'' a b → Q w'' a b)
    (ends : C.Ends w' P o₁ o₂) : C.Ends w Q o₁ o₂ := by
  cases ends with
  | value h =>
    obtain ⟨w'', step, coupled, related⟩ := h
    exact .value ⟨w'', later.trans step, coupled, weaken w'' _ _ step related⟩
  | fault h =>
    obtain ⟨w'', step, coupled, related⟩ := h
    exact .fault ⟨w'', later.trans step, coupled, related⟩
  | exhausted => exact .exhausted

theorem Ends.bind {w : W} {P : W → α → β → Prop} {Q : W → γ → δ → Prop} {r₁ : Run α} {r₂ : Run β}
    {k₁ : α → Run γ} {k₂ : β → Run δ} {st₁ st₂ : State} (first : C.Ends w P (r₁ st₁) (r₂ st₂))
    (next : ∀ w' a b st₁ st₂, w ≤ w' → C.state w' st₁ st₂ → P w' a b →
      C.Ends w' Q (k₁ a st₁) (k₂ b st₂)) :
    C.Ends w Q ((r₁ >>= k₁) st₁) ((r₂ >>= k₂) st₂) := by
  simp only [Bind.bind, Run.bind]
  generalize r₁ st₁ = o₁ at first
  generalize r₂ st₂ = o₂ at first
  cases first with
  | value h =>
    obtain ⟨w', later, coupled, related⟩ := h
    exact (next w' _ _ _ _ later coupled related).mono later fun _ _ _ _ h => h
  | fault h => exact .fault h
  | exhausted => exact .exhausted

theorem Ends.each {w : W} (laws : C.Lawful) {f₁ f₂ : α → Run Value} {members : List α}
    {st₁ st₂ : State} (coupled : C.state w st₁ st₂)
    (action : ∀ a ∈ members, ∀ w' st₁ st₂, w ≤ w' → C.state w' st₁ st₂ →
      C.Ends w' C.value (f₁ a st₁) (f₂ a st₂)) :
    C.Ends w (fun w' => List.Forall₂ (C.value w')) (Run.each f₁ members st₁)
      (Run.each f₂ members st₂) := by
  induction members generalizing w st₁ st₂ with
  | nil => exact Ends.pure coupled .nil
  | cons a rest ih =>
    refine (action a List.mem_cons_self w st₁ st₂ le_rfl coupled).bind ?_
    intro w₁ x y st₁ st₂ later coupled related
    have tail := ih coupled fun b listed w' st₁ st₂ step =>
      action b (List.mem_cons_of_mem a listed) w' st₁ st₂ (later.trans step)
    refine tail.bind ?_
    intro w₂ xs ys st₁ st₂ later coupled listed
    exact Ends.pure coupled (.cons (laws.value_mono later related) listed)

theorem Ends.iterate {w : W} {P : W → α → β → Prop} {test₁ test₂ : Run Bool} {body₁ : Run α}
    {body₂ : Run β} {n : Nat} {a : α} {b : β} {st₁ st₂ : State} (coupled : C.state w st₁ st₂)
    (last : P w a b) (mono : ∀ w w' a b, w ≤ w' → P w a b → P w' a b)
    (test : ∀ w' st₁ st₂, w ≤ w' → C.state w' st₁ st₂ →
      C.Ends w' (fun _ => Eq) (test₁ st₁) (test₂ st₂))
    (body : ∀ w' st₁ st₂, w ≤ w' → C.state w' st₁ st₂ → C.Ends w' P (body₁ st₁) (body₂ st₂)) :
    C.Ends w P (Run.iterate test₁ body₁ n a st₁) (Run.iterate test₂ body₂ n b st₂) := by
  induction n generalizing w a b st₁ st₂ with
  | zero => exact .exhausted
  | succ n ih =>
    have checked := test w st₁ st₂ le_rfl coupled
    simp only [Run.iterate]
    generalize test₁ st₁ = o₁ at checked
    generalize test₂ st₂ = o₂ at checked
    cases checked with
    | fault h => exact .fault h
    | exhausted => exact .exhausted
    | @value holds _ st₁ st₂ h =>
      obtain ⟨w₁, later, coupled, rfl⟩ := h
      cases holds with
      | false => exact .value ⟨w₁, later, coupled, mono _ _ _ _ later last⟩
      | true =>
        have ran := body w₁ st₁ st₂ later coupled
        simp only
        generalize body₁ st₁ = o₁ at ran
        generalize body₂ st₂ = o₂ at ran
        cases ran with
        | fault h =>
          obtain ⟨w₂, step, coupled, related⟩ := h
          exact .fault ⟨w₂, later.trans step, coupled, related⟩
        | exhausted => exact .exhausted
        | value h =>
          obtain ⟨w₂, step, coupled, related⟩ := h
          have rest := ih coupled related
            (fun w' st₁ st₂ far => test w' st₁ st₂ ((later.trans step).trans far))
            (fun w' st₁ st₂ far => body w' st₁ st₂ ((later.trans step).trans far))
          exact rest.mono (later.trans step) fun _ _ _ _ h => h

theorem Ends.bindParams {w : W} (laws : C.Lawful) {s₁ s₂ : ScopeId} {params : List Name}
    {as bs : List Value} {st₁ st₂ : State} (coupled : C.state w st₁ st₂)
    (binders : ∀ p ∈ params, C.binder w s₁ s₂ p) (args : List.Forall₂ (C.value w) as bs) :
    C.Ends w (fun _ _ _ => True) (bindParams s₁ params as st₁) (bindParams s₂ params bs st₂) := by
  induction params generalizing w as bs st₁ st₂ with
  | nil => exact Ends.pure coupled trivial
  | cons p params ih =>
    have head : C.value w (as.headD .null) (bs.headD .null) := by
      cases args with
      | nil => exact laws.null
      | cons first _ => exact first
    have tail : List.Forall₂ (C.value w) as.tail bs.tail := by
      cases args with
      | nil => exact .nil
      | cons _ rest => exact rest
    refine (laws.create (binders p List.mem_cons_self) head coupled).bind ?_
    intro w' _ _ st₁ st₂ later coupled _
    exact ih coupled
      (fun q listed => laws.binder_mono later (binders q (List.mem_cons_of_mem p listed)))
      (tail.imp fun _ _ => laws.value_mono later)

theorem Ends.enter {w : W} (laws : C.Lawful) {c d : Closure} {as bs : List Value}
    {st₁ st₂ : State} (coupled : C.state w st₁ st₂)
    (closures : C.value w (.closure c) (.closure d)) (params : c.params = d.params)
    (args : List.Forall₂ (C.value w) as bs) :
    C.Ends w (fun w' s₁ s₂ => C.site w' s₁ s₂ c.body) (enter c as st₁) (enter d bs st₂) := by
  unfold Treewalk.enter
  rw [← params, ← args.length_eq]
  refine (laws.mismatch _ _ coupled).bind ?_
  intro w₁ _ _ st₁ st₂ to₁ coupled _
  refine (laws.scope (laws.value_mono to₁ closures) coupled).bind ?_
  intro w₂ s₁ s₂ st₁ st₂ to₂ coupled made
  have later := args.imp fun _ _ => laws.value_mono (to₁.trans to₂)
  refine (Ends.bindParams laws coupled made.2 later).bind ?_
  intro w₃ _ _ st₁ st₂ to₃ coupled _
  exact Ends.pure coupled (laws.site_mono to₃ made.1)

theorem Ends.invoke {w : W} (laws : C.Lawful) {evaluate : ScopeId → Tree → Run Value}
    (evaluations : ∀ w s₁ s₂ t st₁ st₂, C.site w s₁ s₂ t → C.state w st₁ st₂ →
      C.Ends w C.value (evaluate s₁ t st₁) (evaluate s₂ t st₂))
    {c d : Closure} {as bs : List Value} {st₁ st₂ : State} (coupled : C.state w st₁ st₂)
    (closures : C.value w (.closure c) (.closure d)) (params : c.params = d.params)
    (body : c.body = d.body) (args : List.Forall₂ (C.value w) as bs) :
    C.Ends w C.value (invoke evaluate c as st₁) (invoke evaluate d bs st₂) := by
  unfold Treewalk.invoke
  rw [← body]
  refine (Ends.enter laws coupled closures params args).bind ?_
  intro w' s₁ s₂ st₁ st₂ _ coupled site
  exact evaluations w' s₁ s₂ c.body st₁ st₂ site coupled

/-- Evaluation keeps to every lawful coupling. -/
theorem eval_ends (laws : C.Lawful) (n : Nat) : ∀ (w : W) (s₁ s₂ : ScopeId) (t : Tree)
    (st₁ st₂ : State), C.site w s₁ s₂ t → C.state w st₁ st₂ →
      C.Ends w C.value (eval n s₁ t st₁) (eval n s₂ t st₂) := by
  induction n with
  | zero => exact fun _ _ _ _ _ _ _ _ => .exhausted
  | succ n ih =>
    intro w s₁ s₂ t st₁ st₂ site coupled
    -- A part of the tree, evaluated in the same two scopes at any later world.
    have part : ∀ u ∈ t.parts, ∀ w' st₁ st₂, w ≤ w' → C.state w' st₁ st₂ →
        C.Ends w' C.value (eval n s₁ u st₁) (eval n s₂ u st₂) :=
      fun u inside w' st₁ st₂ later coupled =>
        ih w' s₁ s₂ u st₁ st₂ (laws.site_mono later (laws.part site inside)) coupled
    have test : ∀ condition ∈ t.parts, ∀ w' st₁ st₂, w ≤ w' → C.state w' st₁ st₂ →
        C.Ends w' (fun _ => Eq)
          ((do let c ← eval n s₁ condition; Run.lift (truthOf condition c)) st₁)
          ((do let c ← eval n s₂ condition; Run.lift (truthOf condition c)) st₂) := by
      intro condition inside w' st₁ st₂ later coupled
      refine (part condition inside w' st₁ st₂ later coupled).bind ?_
      intro _ _ _ _ _ _ coupled value
      exact laws.truth value coupled
    cases t with
    | missing => exact Ends.fail coupled (laws.missing site)
    | atom type lexeme => exact laws.literal site coupled
    | var name => exact .value ⟨w, le_rfl, coupled, laws.resolve site coupled⟩
    | print operand =>
      refine (part operand (by simp [Tree.parts]) w st₁ st₂ le_rfl coupled).bind ?_
      intro w₁ a b st₁ st₂ _ coupled value
      refine (laws.print value coupled).bind ?_
      intro w₂ _ _ st₁ st₂ later coupled _
      exact Ends.pure coupled (laws.value_mono later value)
    | binary left op right =>
      refine (part left (by simp [Tree.parts]) w st₁ st₂ le_rfl coupled).bind ?_
      intro w₁ a b st₁ st₂ to₁ coupled first
      refine (part right (by simp [Tree.parts]) w₁ st₁ st₂ to₁ coupled).bind ?_
      intro w₂ c d st₁ st₂ to₂ coupled second
      exact laws.operate (laws.value_mono to₂ first) second coupled
    | ifElse condition thenDo elseDo =>
      have inThen : thenDo ∈ (Tree.ifElse condition thenDo elseDo).parts := by
        cases elseDo <;> simp [Tree.parts]
      have inCondition : condition ∈ (Tree.ifElse condition thenDo elseDo).parts := by
        cases elseDo <;> simp [Tree.parts]
      refine (part thenDo inThen w st₁ st₂ le_rfl coupled).bind ?_
      intro w₁ a b st₁ st₂ to₁ coupled first
      have rest : ∀ w₂ c d st₁ st₂, w₁ ≤ w₂ → C.state w₂ st₁ st₂ → C.value w₂ c d →
          C.Ends w₂ C.value
            ((do
              let x ← eval n s₁ condition
              let holds ← Run.lift (truthOf condition x)
              return if holds then a else c) st₁)
            ((do
              let x ← eval n s₂ condition
              let holds ← Run.lift (truthOf condition x)
              return if holds then b else d) st₂) := by
        intro w₂ c d st₁ st₂ to₂ coupled second
        refine (part condition inCondition w₂ st₁ st₂ (to₁.trans to₂) coupled).bind ?_
        intro w₃ x y st₁ st₂ to₃ coupled value
        refine (laws.truth value coupled).bind ?_
        intro w₄ holds _ st₁ st₂ to₄ coupled same
        subst same
        refine Ends.pure coupled ?_
        cases holds with
        | true => exact laws.value_mono (to₂.trans (to₃.trans to₄)) first
        | false => exact laws.value_mono (to₃.trans to₄) second
      cases elseDo with
      | missing => exact (Ends.pure coupled laws.null).bind rest
      | _ => exact (part _ (by simp [Tree.parts]) w₁ st₁ st₂ to₁ coupled).bind rest
    | loop condition body =>
      exact Ends.iterate coupled laws.null (fun _ _ _ _ => laws.value_mono)
        (test condition (by simp [Tree.parts])) (part body (by simp [Tree.parts]))
    | seq first second =>
      refine (part first (by simp [Tree.parts]) w st₁ st₂ le_rfl coupled).bind ?_
      intro w₁ _ _ st₁ st₂ to₁ coupled _
      exact part second (by simp [Tree.parts]) w₁ st₁ st₂ to₁ coupled
    | declare name init =>
      refine (part init (by simp [Tree.parts]) w st₁ st₂ le_rfl coupled).bind ?_
      intro w₁ a b st₁ st₂ to₁ coupled value
      refine (laws.create (laws.binder_mono to₁ (laws.declared site)) value coupled).bind ?_
      intro w₂ _ _ st₁ st₂ to₂ coupled _
      exact Ends.pure coupled (laws.value_mono to₂ value)
    | assign name expr =>
      refine (part expr (by simp [Tree.parts]) w st₁ st₂ le_rfl coupled).bind ?_
      intro w₁ a b st₁ st₂ to₁ coupled value
      exact laws.assign (laws.site_mono to₁ site) value coupled
    | function params body => exact laws.closure site coupled
    | call callee args =>
      refine (part callee (by simp [Tree.parts]) w st₁ st₂ le_rfl coupled).bind ?_
      intro w₁ f g st₁ st₂ to₁ coupled value
      obtain ⟨c, d, rfl, rfl, params, body⟩ | ⟨noneLeft, noneRight, related⟩ := laws.callable value
      · have arguments : ∀ a ∈ args, ∀ w' st₁ st₂, w₁ ≤ w' → C.state w' st₁ st₂ →
            C.Ends w' C.value (eval n s₁ a st₁) (eval n s₂ a st₂) :=
          fun a listed w' st₁ st₂ later =>
            part a (by simp [Tree.parts, listed]) w' st₁ st₂ (to₁.trans later)
        refine (Ends.each laws coupled arguments).bind ?_
        intro w₂ as bs st₁ st₂ to₂ coupled values
        exact Ends.invoke laws ih coupled (laws.value_mono to₂ value) params body values
      · have failed : C.Ends w₁ C.value
            ((Run.fail (.notAFunction callee.text f.text) : Run Value) st₁)
            ((Run.fail (.notAFunction callee.text g.text) : Run Value) st₂) :=
          Ends.fail coupled (related callee.text)
        cases f <;> cases g <;> first | exact failed | simp_all

end Coupling
end Treewalk

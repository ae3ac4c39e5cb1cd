import Treewalk.Proofs.Eval.Binding
import Treewalk.Proofs.Eval.Eager
import Treewalk.Proofs.Eval.Growth

/-! One declaration for a name in a scope. What a scope binds stays bound, so each declaration in
an eager position is the first one of its name in the scope or the end of the evaluation. -/
namespace Treewalk

/-- There is room for the declarations of the name among the trees, between what the scope binds
before and what it binds afterwards. -/
structure Store.Gains (s : ScopeId) (name : Name) (trees : List Tree) (st st' : Store) : Prop where
  larger : st.scopes.size ≤ st'.scopes.size
  counted : trees.countP (Tree.isDeclaration name) + (st.declares s name).toNat
    ≤ (st'.declares s name).toNat

namespace Store.Gains

variable {s : ScopeId} {name : Name} {trees more : List Tree} {st st' st'' : Store}

theorem refl (s : ScopeId) (name : Name) (st : Store) : st.Gains s name [] st :=
  ⟨le_rfl, by simp⟩

theorem trans (first : st.Gains s name trees st') (second : st'.Gains s name more st'') :
    st.Gains s name (trees ++ more) st'' where
  larger := first.larger.trans second.larger
  counted := by
    have early := first.counted
    have late := second.counted
    rw [List.countP_append]
    omega

theorem keep (gains : st.Gains s name trees st') (kept : st'.Gains s name [] st'') :
    st.Gains s name trees st'' := by
  simpa using gains.trans kept

theorem other (gains : st.Gains s name trees st') {t : Tree}
    (apart : t.isDeclaration name = false) : st.Gains s name (trees ++ [t]) st' where
  larger := gains.larger
  counted := by simpa [apart] using gains.counted

theorem part (gains : st.Gains s name (trees ++ more) st') : st.Gains s name trees st' where
  larger := gains.larger
  counted := by
    have counted := gains.counted
    rw [List.countP_append] at counted
    omega

theorem of_kept (larger : st.scopes.size ≤ st'.scopes.size)
    (kept : st.declares s name = true → st'.declares s name = true) :
    st.Gains s name [] st' where
  larger := larger
  counted := by
    cases before : st.declares s name with
    | false => simp
    | true => simp [kept before]

theorem bindAt (st : Store) (s u : ScopeId) (name other : Name) (v : Value) :
    st.Gains s name [] (st.bindAt u other v) :=
  of_kept (size_bindAt ..).ge fun bound => (declares_bindAt ..).mpr (.inr bound)

theorem newClosure (st : Store) (s : ScopeId) (name : Name) (params : List Name) (body : Tree)
    (scope : Option ScopeId) : st.Gains s name [] (st.newClosure params body scope).2 :=
  of_kept le_rfl fun bound => bound

theorem create {other : Name} {init : Tree} {v : Value} (there : s < st.scopes.size)
    (created : st.create s other v = .ok st') :
    st.Gains s name [.declare other init] st' := by
  obtain ⟨free, rfl⟩ := create_eq_ok_iff.mp created
  by_cases same : other = name
  · subst same
    have bound : (st.bindAt s other v).declares s other = true :=
      (declares_bindAt ..).mpr (.inl ⟨rfl, rfl, there⟩)
    exact ⟨(size_bindAt ..).ge, by simp [free, bound, Tree.isDeclaration]⟩
  · exact (bindAt st s s name other v).other (by simp [Tree.isDeclaration, same])

end Store.Gains

section Evaluation

variable {s u : ScopeId} {t : Tree} {p : Phrase} {st st' : State} {v : Value} {o : Outcome Value}

theorem Evaluates.keeps (derived : Evaluates u (.tree t) st (.value v st'))
    (old : s < st.store.scopes.size) (name : Name) : st.store.Gains s name [] st'.store := by
  obtain ⟨-, n, ran⟩ := evaluates_tree_iff.mp derived
  let D := Discipline.growth (some u) (fun _ => True) (fun _ => True) st.store
  have site : D.site ⟨⟩ u t := ⟨fun _ _ => trivial, .inr ⟨rfl, fun _ _ => trivial⟩⟩
  have ends : D.Ends ⟨⟩ D.value (eval n u t st) :=
    Discipline.eval_ends Discipline.growth_lawful site ⟨.refl st.store, fun _ _ => trivial⟩
  rw [ran] at ends
  obtain ⟨_, _, ⟨grown, -⟩, -⟩ := ends
  exact .of_kept grown.larger (grown.kept old)

theorem State.Opening.keeps {c : Closure} {args : List Value} (opening : Opening c args st st')
    (old : s < st.store.scopes.size) (name : Name) : st.store.Gains s name [] st'.store := by
  have same : st'.store.declares s name = st.store.declares s name := by
    rw [Store.declares, Store.declares, Store.own?, Store.own?, opening.old old]
  exact .of_kept (by simp [opening.size]) fun bound => same.trans bound

theorem Evaluates.gains (derived : Evaluates s p st o) (there : s < st.store.scopes.size)
    (name : Name) : o.Meets (fun _ st' => st.store.Gains s name p.eager st'.store)
      fun _ _ => True := by
  induction derived with
  | literal _ | var => exact (Store.Gains.refl ..).other rfl
  | print _ _ operand => exact (operand there).other rfl
  | binary _ _ _ left right =>
    have first := left there
    have second := right (there.trans_le first.larger)
    exact (first.trans second).other rfl
  | select _ _ _ thenDo elseDo condition =>
    have first := thenDo there
    have second := elseDo (there.trans_le first.larger)
    have both := first.trans second
    exact (both.trans (condition (there.trans_le both.larger))).other rfl
  | noBranch => exact (Store.Gains.refl ..).other rfl
  | branch _ _ part => exact part there
  | condition _ part => exact part there
  | loop _ part => exact (part there).imp (fun _ _ gains => gains.other rfl) fun _ _ => id
  | stop _ test => exact test there
  | round _ _ _ test body rest =>
    have first := test there
    have both := first.trans (body (there.trans_le first.larger))
    refine (rest (there.trans_le both.larger)).imp (fun _ _ gains => ?_) fun _ _ => id
    -- The condition is counted once, however often it was evaluated.
    exact (both.trans gains).part.part
  | seq _ _ first second =>
    have first := first there
    refine (second (there.trans_le first.larger)).imp (fun _ _ gains => ?_) fun _ _ => id
    exact (first.trans gains).other rfl
  | declare _ created init =>
    have init := init there
    exact init.trans (.create (there.trans_le init.larger) created)
  | assign _ expr =>
    have first := expr there
    exact (first.keep (.bindAt ..)).other rfl
  | @function s st params body =>
    exact (Store.Gains.newClosure st.store s name params body (some s)).other rfl
  | call _ _ callee rest =>
    have first := callee there
    refine (rest (there.trans_le first.larger)).imp (fun _ _ gains => ?_) fun _ _ => id
    exact (first.trans gains).other rfl
  | argument _ _ arg rest =>
    have first := arg there
    refine (rest (there.trans_le first.larger)).imp (fun _ _ gains => ?_) fun _ _ => id
    exact first.trans gains
  | @apply _ _ _ _ _ o binds body _ =>
    -- The body declares names in a scope of its own.
    have entered := binds.entered.keeps there name
    cases o with
    | value v st' => exact entered.trans (body.keeps (there.trans_le entered.larger) name)
    | _ => trivial
  | _ => trivial

theorem eval_gains {n : Nat} (ran : eval n s t st = .value v st')
    (there : s < st.store.scopes.size) (name : Name) :
    st.store.Gains s name t.eager st'.store :=
  (evaluates_tree_iff.mpr ⟨by simp, n, ran⟩).gains there name

end Evaluation

/-! Loops -/

/-- A loop under way, with the value of its last round, goes through a number of rounds and then
stops. The body is evaluated once in each of them. -/
inductive Rounds (n : Nat) (s : ScopeId) (condition body : Tree) :
    Nat → Value → State → Value → State → Prop where
  | stop {last st st'} : eval n s condition st = .value (.bool false) st' →
    Rounds n s condition body 0 last st last st'
  | round {k last v w st st₁ st₂ st'} : eval n s condition st = .value (.bool true) st₁ →
    eval n s body st₁ = .value v st₂ → Rounds n s condition body k v st₂ w st' →
    Rounds n s condition body (k + 1) last st w st'

section Loops

variable {n k : Nat} {s : ScopeId} {condition body : Tree} {last v : Value} {st st' : State}

theorem exists_rounds {m : Nat}
    (ran : Run.iterate (truth n s condition) (eval n s body) m last st = .value v st') :
    ∃ k, Rounds n s condition body k last st v st' := by
  induction m generalizing last st with
  | zero => cases ran
  | succ m ih =>
    rw [Run.iterate_succ] at ran
    obtain ⟨holds, st₁, tested, rest⟩ := Run.bind_eq_value.mp ran
    cases holds with
    | false =>
      cases rest
      exact ⟨0, .stop (eval_of_truth tested)⟩
    | true =>
      obtain ⟨w, st₂, evaluated, rest⟩ := Run.bind_eq_value.mp rest
      obtain ⟨k, rounds⟩ := ih rest
      exact ⟨k + 1, .round (eval_of_truth tested) evaluated rounds⟩

theorem Rounds.counted (rounds : Rounds n s condition body k last st v st')
    (there : s < st.store.scopes.size) (name : Name) :
    k * body.declarations name + (st.store.declares s name).toNat
      ≤ (st'.store.declares s name).toNat := by
  induction rounds with
  | stop tested =>
    have kept := (eval_gains tested there name).counted
    omega
  | round tested evaluated _ ih =>
    have test := eval_gains tested there name
    have both := test.trans (eval_gains evaluated (there.trans_le test.larger) name)
    have rest := ih (there.trans_le both.larger)
    have counted := both.counted
    rw [List.countP_append, ← Tree.declarations, ← Tree.declarations] at counted
    rw [Nat.succ_mul]
    omega

end Loops

/-! Main statement -/

theorem Store.Gains.once {s : ScopeId} {name : Name} {trees : List Tree} {st st' : Store}
    (gains : st.Gains s name trees st') :
    trees.countP (Tree.isDeclaration name) ≤ 1 ∧
      (trees.countP (Tree.isDeclaration name) = 1 →
        st.declares s name = false ∧ st'.declares s name = true) := by
  have counted := gains.counted
  have most := Bool.toNat_le (st'.declares s name)
  refine ⟨by omega, fun one => ?_⟩
  exact ⟨Bool.toNat_eq_zero.mp (by omega), Bool.toNat_eq_one.mp (by omega)⟩

theorem invoke_declares_none {n : Nat} {c : Closure} {args : List Value} {st st' : State}
    {v : Value} {name : Name} (param : name ∈ c.params)
    (ran : invoke (eval n) c args st = .value v st') : c.body.declarations name = 0 := by
  obtain ⟨s, st₁, opened, evaluated⟩ := Run.bind_eq_value.mp ran
  obtain ⟨st₂, opened', entered, -⟩ | ⟨p, st₂, failed, -⟩ := enter_cases c args st
  · cases opened.symm.trans opened'
    obtain ⟨k, found⟩ := List.getElem?_of_mem param
    have bound : st₁.store.declares st.store.scopes.size name = true :=
      Store.declares_iff.mpr ⟨_, entered.bound found⟩
    have counted := (eval_gains evaluated (by simp [entered.size]) name).counted
    rw [bound, ← Tree.declarations] at counted
    have most := Bool.toNat_le (st'.store.declares st.store.scopes.size name)
    simp only [Bool.toNat_true] at counted
    omega
  · cases opened.symm.trans failed

/-- A tree that comes to a value declares a name at most once in eager positions, and then the name
is new in the scope. So it cannot be declared in both branches of a conditional, nor again where it
is a parameter, and a loop whose body declares a name goes through one round at most. -/
theorem names_declared_once (n : Nat) (st : State) (name : Name) :
    (∀ s t v st', s < st.store.scopes.size → eval n s t st = .value v st' →
      t.declarations name ≤ 1 ∧ (t.declarations name = 1 →
        st.store.declares s name = false ∧ st'.store.declares s name = true)) ∧
    (∀ s condition thenDo elseDo, s < st.store.scopes.size → 0 < thenDo.declarations name →
      0 < elseDo.declarations name →
      ∀ v st', eval n s (.ifElse condition thenDo elseDo) st ≠ .value v st') ∧
    (∀ c args, name ∈ c.params → 0 < c.body.declarations name →
      ∀ v st', invoke (eval n) c args st ≠ .value v st') ∧
    ∀ s condition body v st', s < st.store.scopes.size → 0 < body.declarations name →
      eval (n + 1) s (.loop condition body) st = .value v st' →
      (∃ k, Rounds n s condition body k .null st v st') ∧
        ∀ k, Rounds n s condition body k .null st v st' → k ≤ 1 := by
  refine ⟨?_, ?_, ?_, ?_⟩
  · intro s t v st' there ran
    exact (eval_gains ran there name).once
  · intro s condition thenDo elseDo there inThen inElse v st' ran
    have once := (eval_gains ran there name).once.1
    simp only [Tree.eager, List.countP_append] at once
    unfold Tree.declarations at inThen inElse
    omega
  · intro c args param inBody v st' ran
    exact inBody.ne' (invoke_declares_none param ran)
  · intro s condition body v st' there inBody ran
    refine ⟨exists_rounds ran, fun k rounds => ?_⟩
    have counted := rounds.counted there name
    have most := Bool.toNat_le (st'.store.declares s name)
    calc k ≤ k * body.declarations name := Nat.le_mul_of_pos_right k inBody
      _ ≤ 1 := by omega

def Store.started : Store := ⟨#[⟨none, [("x", .int 1)]⟩], 0⟩

def Tree.started : Tree := .binary (.var "x") "<" (.int 2)

def Tree.advance : Tree := .seq (.declare "y" (.var "x")) (.assign "x" (.int 2))

theorem advance_declares_once :
    (∃ v st', eval 9 0 (.loop .started .advance) ⟨.started, .unlimited, #[]⟩ = .value v st' ∧
      (∃ k, Rounds 8 0 .started .advance k .null ⟨.started, .unlimited, #[]⟩ v st') ∧
      ∀ k, Rounds 8 0 .started .advance k .null ⟨.started, .unlimited, #[]⟩ v st' → k ≤ 1) ∧
    (∃ v st', eval 8 0 .advance ⟨.started, .unlimited, #[]⟩ = .value v st' ∧
      Store.started.declares 0 "y" = false ∧ st'.store.declares 0 "y" = true) ∧
    (∀ v st', eval 8 0 (.ifElse .started .advance .advance) ⟨.started, .unlimited, #[]⟩
      ≠ .value v st') ∧
    ∀ v st', invoke (eval 8) ⟨0, ["y"], .advance, some 0⟩ [.int 5] ⟨.started, .unlimited, #[]⟩
      ≠ .value v st' := by
  obtain ⟨once, branches, bodies, loops⟩ :=
    names_declared_once 8 ⟨.started, .unlimited, #[]⟩ "y"
  have inside : 0 < Store.started.scopes.size := by decide
  have single : Tree.advance.declarations "y" = 1 := by decide
  have declared : 0 < Tree.advance.declarations "y" := by omega
  have passed : (eval 9 0 (.loop .started .advance) ⟨.started, .unlimited, #[]⟩).passes
      (fun _ _ => true) = true := by decide +kernel
  obtain ⟨v, st', ran, -⟩ := Outcome.exists_of_passes passed
  refine ⟨⟨v, st', ran, loops 0 _ _ _ _ inside declared ran⟩, ?_,
    branches 0 _ _ _ inside declared declared, bodies _ _ (by decide) declared⟩
  exact ⟨_, _, rfl, (once 0 _ _ _ inside rfl).2 single⟩

end Treewalk

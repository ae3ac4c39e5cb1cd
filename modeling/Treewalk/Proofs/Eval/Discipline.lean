import Treewalk.Proofs.Eval.Coupling

/-! Properties that evaluation maintains. A discipline says which stores, values and scopes are
proper, as seen from a world that only grows; if the store operations that evaluation is made of
keep to it, then so does evaluation, however it ends. A discipline is a coupling of an evaluation
with itself, so nothing is proved here by another induction. -/
namespace Treewalk

def Outcome.Meets {α : Type} (onValue : α → State → Prop) (onFault : Fault → State → Prop) :
    Outcome α → Prop
  | .value a st => onValue a st
  | .fault f st => onFault f st
  | .exhausted => True

theorem Outcome.Meets.imp {α : Type} {V V' : α → State → Prop} {F F' : Fault → State → Prop}
    {o : Outcome α} (meets : o.Meets V F) (value : ∀ a st, V a st → V' a st)
    (fault : ∀ f st, F f st → F' f st) : o.Meets V' F' := by
  cases o with
  | value a st => exact value a st meets
  | fault f st => exact fault f st meets
  | exhausted => trivial

theorem Outcome.Meets.and {α : Type} {V V' : α → State → Prop} {F F' : Fault → State → Prop}
    {o : Outcome α} (meets : o.Meets V F) (also : o.Meets V' F') :
    o.Meets (fun a st => V a st ∧ V' a st) (fun f st => F f st ∧ F' f st) := by
  cases o with
  | value a st => exact ⟨meets, also⟩
  | fault f st => exact ⟨meets, also⟩
  | exhausted => trivial

def Outcome.passes {α : Type} (test : α → State → Bool) : Outcome α → Bool
  | .value a st => test a st
  | _ => false

theorem Outcome.exists_of_passes {α : Type} {test : α → State → Bool} {o : Outcome α}
    (passed : o.passes test = true) : ∃ a st, o = .value a st ∧ test a st = true := by
  cases o with
  | value a st => exact ⟨a, st, rfl, passed⟩
  | _ => cases passed

/-- Whether the fault blames the program text rather than what happened while it ran. -/
def Fault.IsMalformed (f : Fault) : Prop :=
  f.kind? = some .malformedTree ∨ f.kind? = some .malformedLiteral

theorem operate_cases (op : Text) (a b : Value) :
    (∃ v, Value.operate op a b = .ok v ∧ ∀ c, v ≠ .closure c) ∨
      ∃ f, Value.operate op a b = .error f ∧ ¬ f.IsMalformed := by
  have mismatch : ∀ t, ¬ (Fault.operandNotInt op t).IsMalformed := by
    intro t
    exact not_or.mpr ⟨nofun, nofun⟩
  cases a with
  | int m =>
    cases b with
    | int n =>
      simp only [Value.operate]
      cases Operator.ofSymbol? op with
      | none => exact .inl ⟨.null, rfl, nofun⟩
      | some o =>
        cases o
        case div =>
          simp only [Operator.apply]
          split
          · exact .inr ⟨_, rfl, not_or.mpr ⟨nofun, nofun⟩⟩
          · exact .inl ⟨_, rfl, nofun⟩
        case mod =>
          simp only [Operator.apply]
          split
          · exact .inr ⟨_, rfl, not_or.mpr ⟨nofun, nofun⟩⟩
          · exact .inl ⟨_, rfl, nofun⟩
        all_goals exact .inl ⟨_, rfl, nofun⟩
    | _ => exact .inr ⟨_, rfl, mismatch _⟩
  | _ => exact .inr ⟨_, rfl, mismatch _⟩

theorem operate_ok {op : Text} {a b v : Value} (computed : Value.operate op a b = .ok v)
    (c : Closure) : v ≠ .closure c := by
  obtain ⟨u, known, scalar⟩ | ⟨f, known, -⟩ := operate_cases op a b
  · cases known.symm.trans computed
    exact scalar c
  · cases known.symm.trans computed

theorem truthOf_error {condition : Tree} {v : Value} {f : Fault}
    (failed : truthOf condition v = .error f) : ¬ f.IsMalformed := by
  cases v with
  | bool b => cases failed
  | _ =>
    cases failed
    exact not_or.mpr ⟨nofun, nofun⟩

theorem literal_ok {type : AtomType} {lexeme : Text} {v : Value}
    (read : literal type lexeme = .ok v) (c : Closure) : v ≠ .closure c := by
  intro same
  subst same
  unfold literal at read
  repeat' split at read
  all_goals cases read

/-- The only world of a discipline that asks the same at all times. -/
structure Timeless where

instance : Preorder Timeless where
  le _ _ := True
  le_refl _ := trivial
  le_trans _ _ _ _ _ := trivial

structure Discipline (W : Type) [Preorder W] where
  store : W → Store → Prop
  value : W → Value → Prop
  site : W → ScopeId → Tree → Prop
  binder : W → ScopeId → Name → Prop
  fault : Fault → Prop

namespace Discipline

variable {W : Type} [Preorder W] {D : Discipline W} {α : Type}

def Ends (D : Discipline W) (w : W) (result : W → α → Prop) : Outcome α → Prop :=
  Outcome.Meets (fun a st => ∃ w', w ≤ w' ∧ D.store w' st.store ∧ result w' a)
    (fun f st => ∃ w', w ≤ w' ∧ D.store w' st.store ∧ D.fault f)

/-- What the operations on stores owe to a discipline. -/
structure Lawful (D : Discipline W) : Prop where
  value_mono {w w' v} : w ≤ w' → D.value w v → D.value w' v
  site_mono {w w' s t} : w ≤ w' → D.site w s t → D.site w' s t
  binder_mono {w w' s name} : w ≤ w' → D.binder w s name → D.binder w' s name
  part {w s t u} : D.site w s t → u ∈ t.parts → D.site w s u
  declared {w s name init} : D.site w s (.declare name init) → D.binder w s name
  scalar {w v} : (∀ c, v ≠ .closure c) → D.value w v
  missing {w s} : D.site w s .missing → D.fault .missingNode
  literal {w s type lexeme f} : D.site w s (.atom type lexeme) →
    literal type lexeme = .error f → D.fault f
  raised {f} : ¬ f.IsMalformed → D.fault f
  resolve {w s name st} : D.site w s (.var name) → D.store w st → D.value w (st.resolve s name)
  create {w s name v st} : D.binder w s name → D.value w v → D.store w st →
    ∃ w', w ≤ w' ∧ D.store w' (st.bindAt s name v)
  assign {w s name expr v st} : D.site w s (.assign name expr) → D.value w v → D.store w st →
    ∃ w', w ≤ w' ∧ D.store w' (st.update s name v) ∧
      D.value w' ((st.update s name v).resolve s name)
  closure {w s params body st} : D.site w s (.function params body) → D.store w st →
    ∃ w', w ≤ w' ∧ D.store w' (st.newClosure params body (some s)).2 ∧
      D.value w' (.closure (st.newClosure params body (some s)).1)
  scope {w c st} : D.value w (.closure c) → D.store w st →
    ∃ w', w ≤ w' ∧ D.store w' (st.newScope c.scope).2 ∧
      D.site w' (st.newScope c.scope).1 c.body ∧
      ∀ p ∈ c.params, D.binder w' (st.newScope c.scope).1 p

def coupling (D : Discipline W) : Coupling W where
  state w st₁ st₂ := st₁ = st₂ ∧ D.store w st₁.store
  value w a b := a = b ∧ D.value w a
  site w s₁ s₂ t := s₁ = s₂ ∧ D.site w s₁ t
  binder w s₁ s₂ name := s₁ = s₂ ∧ D.binder w s₁ name
  fault f g := f = g ∧ D.fault f

theorem coupling_ends_iff {w : W} {P : W → α → Prop} {o : Outcome α} :
    D.coupling.Ends w (fun w a b => a = b ∧ P w a) o o ↔ D.Ends w P o := by
  constructor
  · intro ends
    cases ends with
    | value h =>
      obtain ⟨w', later, ⟨-, proper⟩, -, result⟩ := h
      exact ⟨w', later, proper, result⟩
    | fault h =>
      obtain ⟨w', later, ⟨-, proper⟩, -, result⟩ := h
      exact ⟨w', later, proper, result⟩
    | exhausted => trivial
  · intro ends
    cases o with
    | value a st =>
      obtain ⟨w', later, proper, result⟩ := ends
      exact .value ⟨w', later, ⟨rfl, proper⟩, rfl, result⟩
    | fault f st =>
      obtain ⟨w', later, proper, result⟩ := ends
      exact .fault ⟨w', later, ⟨rfl, proper⟩, rfl, result⟩
    | exhausted => exact .exhausted

theorem coupling_lawful (laws : D.Lawful) : D.coupling.Lawful where
  value_mono later := fun ⟨same, proper⟩ => ⟨same, laws.value_mono later proper⟩
  site_mono later := fun ⟨same, proper⟩ => ⟨same, laws.site_mono later proper⟩
  binder_mono later := fun ⟨same, proper⟩ => ⟨same, laws.binder_mono later proper⟩
  part := fun ⟨same, proper⟩ inside => ⟨same, laws.part proper inside⟩
  declared := fun ⟨same, proper⟩ => ⟨same, laws.declared proper⟩
  null := ⟨rfl, laws.scalar nofun⟩
  missing := fun ⟨_, proper⟩ => ⟨rfl, laws.missing proper⟩
  literal := by
    intro w s _ type lexeme st _ ⟨rfl, site⟩ ⟨rfl, proper⟩
    exact Coupling.Ends.lift ⟨rfl, proper⟩
      (fun a read => ⟨rfl, laws.scalar (literal_ok read)⟩)
      (fun f failed => ⟨rfl, laws.literal site failed⟩)
  resolve := by
    intro w s _ name st _ ⟨rfl, site⟩ ⟨rfl, proper⟩
    exact ⟨rfl, laws.resolve site proper⟩
  print := by
    intro w a _ st _ ⟨rfl, _⟩ ⟨rfl, proper⟩
    unfold Run.print
    split
    · exact .value ⟨w, le_rfl, ⟨rfl, proper⟩, trivial⟩
    · exact .fault ⟨w, le_rfl, ⟨rfl, proper⟩, rfl, laws.raised (not_or.mpr ⟨nofun, nofun⟩)⟩
  operate := by
    intro w op a _ b _ st _ ⟨rfl, _⟩ ⟨rfl, _⟩ ⟨rfl, proper⟩
    refine Coupling.Ends.lift ⟨rfl, proper⟩
      (fun v computed => ⟨rfl, laws.scalar (operate_ok computed)⟩) (fun f failed => ?_)
    obtain ⟨v, known, -⟩ | ⟨f, known, raised⟩ := operate_cases op a b
    · cases known.symm.trans failed
    · cases known.symm.trans failed
      exact ⟨rfl, laws.raised raised⟩
  truth := by
    intro w condition a _ st _ ⟨rfl, _⟩ ⟨rfl, proper⟩
    exact Coupling.Ends.lift ⟨rfl, proper⟩ (fun _ _ => rfl) fun f failed =>
      ⟨rfl, laws.raised (truthOf_error failed)⟩
  create := by
    intro w s _ name a _ st _ ⟨rfl, binder⟩ ⟨rfl, value⟩ ⟨rfl, proper⟩
    unfold Run.create
    split
    · exact .fault ⟨w, le_rfl, ⟨rfl, proper⟩, rfl, laws.raised (not_or.mpr ⟨nofun, nofun⟩)⟩
    · obtain ⟨w', later, proper⟩ := laws.create binder value proper
      exact .value ⟨w', later, ⟨rfl, proper⟩, trivial⟩
  assign := by
    intro w s _ name expr a _ st _ ⟨rfl, site⟩ ⟨rfl, value⟩ ⟨rfl, proper⟩
    obtain ⟨w', later, proper, value⟩ := laws.assign site value proper
    exact .value ⟨w', later, ⟨rfl, proper⟩, rfl, value⟩
  closure := by
    intro w s _ params body st _ ⟨rfl, site⟩ ⟨rfl, proper⟩
    obtain ⟨w', later, proper, value⟩ := laws.closure site proper
    exact .value ⟨w', later, ⟨rfl, proper⟩, rfl, value⟩
  callable := by
    intro w a _ ⟨rfl, _⟩
    cases a with
    | closure c => exact .inl ⟨c, c, rfl, rfl, rfl, rfl⟩
    | _ =>
      exact .inr ⟨nofun, nofun, fun callee => ⟨rfl, laws.raised (not_or.mpr ⟨nofun, nofun⟩)⟩⟩
  mismatch := by
    intro w st _ params args ⟨rfl, proper⟩
    unfold Run.noteMismatch
    split <;> exact .value ⟨w, le_rfl, ⟨rfl, proper⟩, trivial⟩
  scope := by
    intro w c _ st _ ⟨same, value⟩ ⟨rfl, proper⟩
    cases same
    obtain ⟨w', later, proper, site, binders⟩ := laws.scope value proper
    exact .value ⟨w', later, ⟨rfl, proper⟩, ⟨rfl, site⟩, fun p listed => ⟨rfl, binders p listed⟩⟩

theorem eval_ends (laws : D.Lawful) {n : Nat} {w : W} {s : ScopeId} {t : Tree} {st : State}
    (site : D.site w s t) (proper : D.store w st.store) : D.Ends w D.value (eval n s t st) :=
  coupling_ends_iff.mp
    (Coupling.eval_ends (coupling_lawful laws) n w s s t st st ⟨rfl, site⟩ ⟨rfl, proper⟩)

theorem invoke_ends (laws : D.Lawful) {n : Nat} {w : W} {c : Closure} {args : List Value}
    {st : State} (closure : D.value w (.closure c)) (values : ∀ v ∈ args, D.value w v)
    (proper : D.store w st.store) : D.Ends w D.value (invoke (eval n) c args st) := by
  have lawful := coupling_lawful laws
  have diagonal : List.Forall₂ (D.coupling.value w) args args :=
    List.forall₂_same.mpr fun v listed => ⟨rfl, values v listed⟩
  exact coupling_ends_iff.mp (Coupling.Ends.invoke lawful (Coupling.eval_ends lawful n)
    ⟨rfl, proper⟩ ⟨rfl, closure⟩ rfl rfl diagonal)

end Discipline
end Treewalk

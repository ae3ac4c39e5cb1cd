import Treewalk.Proofs.Eval.Adequacy
import Treewalk.Proofs.Store.Chain

/-! Assignment to a name. It changes one binding, in the first scope outward that binds the name or
else in the global scope, and whoever looks the name up from any scope sees the new value exactly if
that scope is the first on their own way outward to bind it. -/
namespace Treewalk.Store

variable {st : Store} {s t e : ScopeId} {name : Name} {v : Value}

def Nearest (st : Store) (s : ScopeId) (name : Name) (t : ScopeId) : Prop :=
  st.declares t name = true ∧ ∃ k, st.hops k s = some t ∧
    ∀ j < k, ∀ u, st.hops j s = some u → st.declares u name = false

/-- The scope that an assignment is meant for. -/
inductive Receives (st : Store) (s : ScopeId) (name : Name) : ScopeId → Prop where
  | nearest {t : ScopeId} : st.Nearest s name t → Receives st s name t
  | global : (∀ k u, st.hops k s = some u → st.declares u name = false) →
    Receives st s name (st.global s)

structure Rebinds (t : ScopeId) (name : Name) (v : Value) (st st' : Store) : Prop where
  size : st'.scopes.size = st.scopes.size
  link (s : ScopeId) : st'.link? s = st.link? s
  bound : st'.own? t name = some v
  other {s : ScopeId} {m : Name} : ¬(s = t ∧ m = name) → st'.own? s m = st.own? s m
  seen {s : ScopeId} : st'.Nearest s name t → st'.resolve s name = v
  unseen {s : ScopeId} {m : Name} : ¬(m = name ∧ st'.Nearest s name t) →
    st'.resolve s m = st.resolve s m

/-! Looking for the first scope that binds a name -/

theorem lookup?_eq_find? (st : Store) (s : ScopeId) (name : Name) :
    st.lookup? s name
      = ((st.chain s).find? fun t => st.declares t name).bind (st.own? · name) := by
  unfold lookup?
  induction st.chain s with
  | nil => rfl
  | cons t chain ih =>
    rw [List.findSome?_cons, List.find?_cons]
    unfold declares at ih ⊢
    cases own : st.own? t name with
    | none => exact ih
    | some v => simp [own]

theorem nearest_iff (walk : ∀ k, st.hops k s = (st.chain s)[k]?) :
    st.Nearest s name t ↔ (st.chain s).find? (fun u => st.declares u name) = some t := by
  simp only [Nearest, walk, List.find?_eq_some_iff_getElem]
  refine and_congr_right fun _ => exists_congr fun k => ?_
  rw [List.getElem?_eq_some_iff]
  constructor
  · rintro ⟨⟨inside, here⟩, before⟩
    refine ⟨inside, here, fun j earlier => ?_⟩
    simp [before j earlier _ (List.getElem?_eq_getElem (by omega))]
  · rintro ⟨inside, here, before⟩
    refine ⟨⟨inside, here⟩, fun j earlier u found => ?_⟩
    obtain ⟨_, rfl⟩ := List.getElem?_eq_some_iff.mp found
    simpa using before j earlier

theorem WellFormed.receives_iff (formed : st.WellFormed) :
    st.Receives s name t ↔ t = st.target s name := by
  unfold target
  constructor
  · rintro (near | free)
    · rw [(nearest_iff fun k => formed.hops_eq_getElem? k s).mp near]
      rfl
    · have nothing : (st.chain s).find? (fun u => st.declares u name) = none := by
        refine List.find?_eq_none.mpr fun u listed => ?_
        obtain ⟨k, found⟩ := List.getElem?_of_mem listed
        rw [← formed.hops_eq_getElem?] at found
        simp [free k u found]
      rw [nothing]
      rfl
  · rintro rfl
    cases found : (st.chain s).find? fun u => st.declares u name with
    | some t => exact .nearest ((nearest_iff fun k => formed.hops_eq_getElem? k s).mpr found)
    | none =>
      refine .global fun k u reached => ?_
      rw [formed.hops_eq_getElem?] at reached
      simpa using List.find?_eq_none.mp found u (List.mem_of_getElem? reached)

/-! After a name was bound -/

theorem chain_bindAt (st : Store) (t : ScopeId) (name : Name) (v : Value) (s : ScopeId) :
    (st.bindAt t name v).chain s = st.chain s :=
  chain_congr fun _ _ => link?_bindAt ..

theorem hops_bindAt (st : Store) (t : ScopeId) (name : Name) (v : Value) (k : Nat) (s : ScopeId) :
    (st.bindAt t name v).hops k s = st.hops k s := by
  induction k generalizing s with
  | zero => rfl
  | succ k ih =>
    rw [hops, hops, link?_bindAt]
    exact congrArg (st.link? s).bind (funext ih)

theorem WellFormed.nearest_bindAt_iff (formed : st.WellFormed) {u : ScopeId} :
    (st.bindAt t name v).Nearest s name u
      ↔ (st.chain s).find? (fun u => (st.bindAt t name v).declares u name) = some u := by
  rw [nearest_iff, chain_bindAt]
  intro k
  rw [hops_bindAt, chain_bindAt, formed.hops_eq_getElem?]

theorem find?_bindAt (st : Store) (t : ScopeId) (name : Name) (v : Value) (chain : List ScopeId) :
    chain.find? (fun u => (st.bindAt t name v).declares u name) = some t ∨
      chain.find? (fun u => (st.bindAt t name v).declares u name)
        = chain.find? fun u => st.declares u name := by
  induction chain with
  | nil => exact .inr rfl
  | cons u chain ih =>
    have grown := st.declares_bindAt t u name name v
    rw [List.find?_cons, List.find?_cons]
    cases after : (st.bindAt t name v).declares u name with
    | false =>
      have before : st.declares u name = false := by
        cases before : st.declares u name with
        | false => rfl
        | true => simp [grown.mpr (.inr before)] at after
      rw [before]
      exact ih
    | true =>
      obtain ⟨rfl, -⟩ | before := grown.mp after
      · exact .inl rfl
      · rw [before]
        exact .inr rfl

theorem own?_bindAt_self (inside : t < st.scopes.size) :
    (st.bindAt t name v).own? t name = some v := by
  rw [own?_bindAt, if_pos ⟨rfl, rfl, inside⟩]

theorem own?_bindAt_other {m : Name} (apart : ¬(s = t ∧ m = name)) :
    (st.bindAt t name v).own? s m = st.own? s m := by
  rw [own?_bindAt, if_neg fun ⟨scope, same, _⟩ => apart ⟨scope, same⟩]

theorem resolve_bindAt_of_first (inside : t < st.scopes.size)
    (first : (st.chain s).find? (fun u => (st.bindAt t name v).declares u name) = some t) :
    (st.bindAt t name v).resolve s name = v := by
  rw [resolve, lookup?_eq_find?, chain_bindAt, first, Option.bind_some, own?_bindAt_self inside]
  rfl

theorem resolve_bindAt_of_not_first
    (hidden : (st.chain s).find? (fun u => (st.bindAt t name v).declares u name) ≠ some t) :
    (st.bindAt t name v).resolve s name = st.resolve s name := by
  have same := (st.find?_bindAt t name v (st.chain s)).resolve_left hidden
  rw [resolve, resolve, lookup?_eq_find?, lookup?_eq_find?, chain_bindAt, same]
  cases first : (st.chain s).find? fun u => st.declares u name with
  | none => rfl
  | some u =>
    have apart : ¬(u = t ∧ name = name) := by
      rintro ⟨rfl, -⟩
      exact hidden (same.trans first)
    rw [Option.bind_some, Option.bind_some, own?_bindAt_other apart]

theorem resolve_bindAt_other {m : Name} (apart : m ≠ name) :
    (st.bindAt t name v).resolve s m = st.resolve s m := by
  have own (u : ScopeId) : (st.bindAt t name v).own? u m = st.own? u m :=
    own?_bindAt_other fun ⟨_, same⟩ => apart same
  rw [resolve, resolve, lookup?, lookup?, chain_bindAt]
  simp only [own]

theorem WellFormed.rebinds_bindAt (formed : st.WellFormed) (inside : t < st.scopes.size)
    (name : Name) (v : Value) : st.Rebinds t name v (st.bindAt t name v) where
  size := size_bindAt ..
  link _ := link?_bindAt ..
  bound := own?_bindAt_self inside
  other := own?_bindAt_other
  seen near := resolve_bindAt_of_first inside (formed.nearest_bindAt_iff.mp near)
  unseen := by
    intro s m hidden
    by_cases same : m = name
    · subst same
      refine resolve_bindAt_of_not_first fun first => hidden ⟨rfl, ?_⟩
      exact formed.nearest_bindAt_iff.mpr first
    · exact resolve_bindAt_other same

/-! Assigning to a name -/

theorem target_lt (there : s < st.scopes.size) (name : Name) :
    st.target s name < st.scopes.size :=
  (le_of_mem_chain (st.target_mem_chain s name)).trans_lt there

theorem find?_update (there : s < st.scopes.size) (name : Name) (v : Value) :
    (st.chain s).find? (fun u => (st.update s name v).declares u name)
      = some (st.target s name) := by
  obtain first | same := st.find?_bindAt (st.target s name) name v (st.chain s)
  · exact first
  · have bound : (st.update s name v).declares (st.target s name) name = true :=
      (declares_bindAt ..).mpr (.inl ⟨rfl, rfl, target_lt there name⟩)
    rw [update] at bound ⊢
    cases first : (st.chain s).find? fun u => st.declares u name with
    | none =>
      rw [first] at same
      have free := List.find?_eq_none.mp same _ (st.target_mem_chain s name)
      exact absurd bound free
    | some u =>
      rw [same, first, target, first]
      rfl

theorem resolve_update (there : s < st.scopes.size) (name : Name) (v : Value) :
    (st.update s name v).resolve s name = v :=
  resolve_bindAt_of_first (target_lt there name) (find?_update there name v)

theorem target_eq_global (nowhere : st.lookup? s name = none) :
    st.target s name = st.global s := by
  unfold target
  cases found : (st.chain s).find? fun u => st.declares u name with
  | none => rfl
  | some t =>
    have bound := (List.find?_eq_some_iff_append.mp found).1
    rw [lookup?_eq_find?, found, Option.bind_some] at nowhere
    rw [declares, nowhere] at bound
    cases bound

theorem WellFormed.update_eq (formed : st.WellFormed) (s : ScopeId) (name : Name) (v : Value) :
    st.update s name v =
      if st.declares s name then st.bindAt s name v
      else
        match st.link? s with
        | some o =>
          if (st.lookup? o name).isSome then st.update o name v
          else st.bindAt (st.global s) name v
        | none => st.bindAt (st.global s) name v := by
  rw [← formed.outer?_eq_link?, update]
  cases bound : st.declares s name with
  | true => rw [target_of_declares bound, if_pos rfl]
  | false =>
    rw [if_neg Bool.false_ne_true]
    cases linked : st.outer? s with
    | none => rw [target_of_unlinked linked, global_of_unlinked linked]
    | some o =>
      dsimp only
      rw [target_of_outer bound linked, update]
      split
      · rfl
      · next nowhere =>
        rw [global_of_outer linked, target_eq_global (Option.not_isSome_iff_eq_none.mp nowhere)]

end Treewalk.Store

namespace Treewalk

variable {st st' : State} {n : Nat} {s : ScopeId} {v : Value}

theorem eval_value_grows {t : Tree} (formed : st.store.WellFormed)
    (there : s < st.store.scopes.size) (ran : eval n s t st = .value v st') :
    st'.store.WellFormed ∧ s < st'.store.scopes.size := by
  have site : Discipline.wellFormed.site st.store.extent s t := there
  have ends : Discipline.wellFormed.Ends st.store.extent _ (eval n s t st) :=
    Discipline.eval_ends Discipline.wellFormed_lawful site ⟨formed, rfl⟩
  rw [ran] at ends
  obtain ⟨_, later, ⟨formed', rfl⟩, -⟩ := ends
  exact ⟨formed', there.trans_le later.1⟩

theorem eval_assign_iff (formed : st.store.WellFormed) (there : s < st.store.scopes.size)
    (name : Name) (expr : Tree) :
    eval (n + 1) s (.assign name expr) st = .value v st' ↔
      ∃ st₁, eval n s expr st = .value v st₁ ∧
        st' = { st₁ with store := st₁.store.update s name v } := by
  have read {u : Value} {st₁ : State} (ran : eval n s expr st = .value u st₁) :
      (do Run.update s name u; Run.resolve s name : Run Value) st₁
        = .value u { st₁ with store := st₁.store.update s name u } := by
    obtain ⟨-, there'⟩ := eval_value_grows formed there ran
    have back := Store.resolve_update there' name u
    exact congrArg (Outcome.value · _) back
  rw [eval, Run.bind_eq_value]
  constructor
  · rintro ⟨u, st₁, ran, rest⟩
    rw [read ran] at rest
    cases rest
    exact ⟨st₁, ran, rfl⟩
  · rintro ⟨st₁, ran, rfl⟩
    exact ⟨v, st₁, ran, read ran⟩

/-- An assignment to a name changes one binding, that of the scope it is meant for, and what is
seen of it from elsewhere. It can be made scope by scope; read back, it gives the value that was
assigned, so an assignment expression has the value of its right side. -/
theorem assignment_rebinds_one (st : State) (formed : st.store.WellFormed) (s : ScopeId)
    (there : s < st.store.scopes.size) (name : Name) :
    (∃ t, st.store.Receives s name t) ∧
    (∀ t v, st.store.Receives s name t →
      st.store.Rebinds t name v (st.store.update s name v)) ∧
    (∀ v, (st.store.update s name v).resolve s name = v) ∧
    (∀ v, st.store.update s name v =
      if st.store.declares s name then st.store.bindAt s name v
      else
        match st.store.link? s with
        | some o =>
          if (st.store.lookup? o name).isSome then st.store.update o name v
          else st.store.bindAt (st.store.global s) name v
        | none => st.store.bindAt (st.store.global s) name v) ∧
    ∀ n expr v st', eval (n + 1) s (.assign name expr) st = .value v st' ↔
      ∃ st₁, eval n s expr st = .value v st₁ ∧
        st' = { st₁ with store := st₁.store.update s name v } := by
  refine ⟨⟨_, formed.receives_iff.mpr rfl⟩, fun t v receives => ?_,
    Store.resolve_update there name, formed.update_eq s name, fun n expr v st' => ?_⟩
  · rw [formed.receives_iff.mp receives]
    exact formed.rebinds_bindAt (Store.target_lt there name) name v
  · exact eval_assign_iff formed there name expr

def Store.shadowed : Store :=
  ⟨#[⟨none, [("x", .null)]⟩, ⟨some 0, [("y", .int 2)]⟩, ⟨some 1, [("x", .int 7)]⟩, ⟨some 1, []⟩], 0⟩

theorem Store.shadowed_wellFormed : shadowed.WellFormed where
  outer_lt := by
    intro s scope o found linked
    match s with
    | 0 => cases found; cases linked
    | 1 | 2 | 3 => cases found; cases linked; decide
    | s + 4 => simp [shadowed] at found
  stored := by
    intro s name v bound
    refine Value.within_of_scalar fun c closure => ?_
    subst closure
    match s with
    | 0 | 1 | 2 =>
      simp [shadowed, own?, Scope.get?, List.lookup_cons] at bound
      split at bound <;> cases bound
    | 3 => simp [shadowed, own?, Scope.get?] at bound
    | s + 4 => simp [shadowed, own?] at bound

theorem shadowed_rebound :
    Store.shadowed.WellFormed ∧ Store.shadowed.Receives 3 "x" 0 ∧
      (Store.shadowed.update 3 "x" (.int 9)).own? 0 "x" = some (.int 9) ∧
      (Store.shadowed.update 3 "x" (.int 9)).resolve 1 "x" = .int 9 ∧
      (Store.shadowed.update 3 "x" (.int 9)).resolve 2 "x" = Store.shadowed.resolve 2 "x" ∧
      ∃ st', eval 2 3 (.assign "x" (.int 9)) ⟨.shadowed, .unlimited, #[]⟩
        = .value (.int 9) st' := by
  have formed := Store.shadowed_wellFormed
  obtain ⟨-, rebinds, -, -, assigned⟩ :=
    assignment_rebinds_one ⟨.shadowed, .unlimited, #[]⟩ formed 3 (by decide) "x"
  have receives : Store.shadowed.Receives 3 "x" 0 := by
    refine .nearest ⟨by decide, 2, by decide, fun j earlier u found => ?_⟩
    match j with
    | 0 | 1 => cases found; decide
  have changed := rebinds 0 (.int 9) receives
  refine ⟨formed, receives, changed.bound, changed.seen ?_, changed.unseen ?_, ?_⟩
  · refine ⟨by decide +kernel, 1, by decide +kernel, fun j earlier u found => ?_⟩
    match j with
    | 0 => cases found; decide +kernel
  · rintro ⟨-, -, k, found, before⟩
    match k with
    | 0 => cases found
    | k + 1 =>
      have shadow : (Store.shadowed.update 3 "x" (.int 9)).declares 2 "x" = true := by
        decide +kernel
      cases shadow.symm.trans (before 0 (by omega) 2 rfl)
  · exact ⟨_, (assigned 1 (.int 9) (.int 9) _).mpr ⟨_, rfl, rfl⟩⟩

end Treewalk

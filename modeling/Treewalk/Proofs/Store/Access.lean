import Mathlib.Order.SetNotation
import Treewalk.Store.Basic

/-! What the operations on a store do to the three things a reader can see of it: which scopes
there are, what a scope's own table binds, and where its outer link leads. Everything that walks
along a chain of scopes is described by these. -/
namespace Treewalk.Store

variable {st : Store} {s t : ScopeId} {name other : Name} {u v : Value}

/-! Binding a name in a scope -/

theorem getElem?_bindAt (st : Store) (s t : ScopeId) (name : Name) (v : Value) :
    (st.bindAt s name v).scopes[t]? =
      if s = t then (st.scopes[t]?).map fun scope => scope.put name v else st.scopes[t]? := by
  simp [bindAt, Array.getElem?_modify]

@[simp] theorem size_bindAt (st : Store) (s : ScopeId) (name : Name) (v : Value) :
    (st.bindAt s name v).scopes.size = st.scopes.size := by
  simp [bindAt]

@[simp] theorem nextIdentity_bindAt (st : Store) (s : ScopeId) (name : Name) (v : Value) :
    (st.bindAt s name v).nextIdentity = st.nextIdentity := rfl

@[simp] theorem outer?_bindAt (st : Store) (s t : ScopeId) (name : Name) (v : Value) :
    (st.bindAt s name v).outer? t = st.outer? t := by
  unfold outer?
  rw [getElem?_bindAt]
  split
  · cases st.scopes[t]? <;> rfl
  · rfl

theorem own?_bindAt (st : Store) (s t : ScopeId) (name other : Name) (v : Value) :
    (st.bindAt s name v).own? t other =
      if t = s ∧ other = name ∧ s < st.scopes.size then some v else st.own? t other := by
  unfold own?
  rw [getElem?_bindAt]
  by_cases here : s = t
  · subst here
    by_cases inside : s < st.scopes.size
    · simp only [Array.getElem?_eq_getElem inside, ↓reduceIte, Option.map_some, Option.bind_some,
        Scope.get?_put, true_and, inside, and_true]
    · simp [inside]
  · simp [here, Ne.symm here]

theorem declares_bindAt (st : Store) (s u : ScopeId) (name other : Name) (v : Value) :
    (st.bindAt s name v).declares u other = true ↔
      (u = s ∧ other = name ∧ s < st.scopes.size) ∨ st.declares u other = true := by
  unfold declares
  rw [own?_bindAt]
  split <;> simp [*]

theorem own?_of_bindAt (found : (st.bindAt s name v).own? t other = some u) :
    (t = s ∧ other = name ∧ u = v) ∨ st.own? t other = some u := by
  rw [own?_bindAt] at found
  split at found
  · next here => exact .inl ⟨here.1, here.2.1, (Option.some.inj found).symm⟩
  · exact .inr found

/-! Adding a scope -/

@[simp] theorem newScope_fst (st : Store) (outer : Option ScopeId) :
    (st.newScope outer).1 = st.scopes.size := rfl

@[simp] theorem size_newScope (st : Store) (outer : Option ScopeId) :
    (st.newScope outer).2.scopes.size = st.scopes.size + 1 := by
  simp [newScope]

@[simp] theorem nextIdentity_newScope (st : Store) (outer : Option ScopeId) :
    (st.newScope outer).2.nextIdentity = st.nextIdentity := rfl

theorem getElem?_newScope (st : Store) (outer : Option ScopeId) (t : ScopeId) :
    (st.newScope outer).2.scopes[t]? =
      if t = st.scopes.size then some ⟨outer, []⟩ else st.scopes[t]? :=
  Array.getElem?_push

@[simp] theorem own?_newScope (st : Store) (outer : Option ScopeId) (t : ScopeId) (name : Name) :
    (st.newScope outer).2.own? t name = st.own? t name := by
  unfold own?
  rw [getElem?_newScope]
  split
  · next fresh => simp [fresh, Scope.get?]
  · rfl

theorem own?_fresh (st : Store) (name : Name) : st.own? st.scopes.size name = none := by
  simp [own?]

theorem outer?_newScope (st : Store) (outer : Option ScopeId) (t : ScopeId) :
    (st.newScope outer).2.outer? t =
      if t = st.scopes.size then outer.filter (· < t) else st.outer? t := by
  unfold outer?
  rw [getElem?_newScope]
  split <;> rfl

/-! Making a closure -/

@[simp] theorem scopes_newClosure (st : Store) (params : List Name) (body : Tree)
    (scope : Option ScopeId) : (st.newClosure params body scope).2.scopes = st.scopes := rfl

@[simp] theorem own?_newClosure (st : Store) (params : List Name) (body : Tree)
    (scope : Option ScopeId) (t : ScopeId) (name : Name) :
    (st.newClosure params body scope).2.own? t name = st.own? t name := rfl

@[simp] theorem outer?_newClosure (st : Store) (params : List Name) (body : Tree)
    (scope : Option ScopeId) (t : ScopeId) :
    (st.newClosure params body scope).2.outer? t = st.outer? t := rfl

/-! Chains -/

theorem chain_of_outer {o : ScopeId} (linked : st.outer? s = some o) :
    st.chain s = s :: st.chain o := by
  rw [chain]
  split
  · next found =>
    rw [linked] at found
    rw [Option.some.inj found]
  · next found => rw [linked] at found; cases found

theorem chain_of_global (unlinked : st.outer? s = none) : st.chain s = [s] := by
  rw [chain]
  split
  · next found => rw [unlinked] at found; cases found
  · rfl

/-- Induction along the outer links of a scope. -/
theorem chain_induction (st : Store) {motive : ScopeId → Prop}
    (global : ∀ s, st.outer? s = none → motive s)
    (inner : ∀ s o, st.outer? s = some o → motive o → motive s) (s : ScopeId) : motive s := by
  induction s using Nat.strongRecOn with
  | ind s ih =>
    cases linked : st.outer? s with
    | none => exact global s linked
    | some o => exact inner s o linked (ih o (outer?_lt linked))

theorem chain_subset {R : Set ScopeId} (closed : ∀ s o, s ∈ R → st.outer? s = some o → o ∈ R)
    (start : s ∈ R) : ∀ t ∈ st.chain s, t ∈ R := by
  induction s using chain_induction st with
  | global s unlinked =>
    rw [chain_of_global unlinked]
    intro t listed
    rwa [List.mem_singleton.mp listed]
  | inner s o linked ih =>
    rw [chain_of_outer linked]
    intro t listed
    rcases List.mem_cons.mp listed with here | further
    · rwa [here]
    · exact ih (closed s o start linked) t further

theorem chain_ne_nil (st : Store) (s : ScopeId) : st.chain s ≠ [] := by
  cases linked : st.outer? s with
  | none => simp [chain_of_global linked]
  | some o => simp [chain_of_outer linked]

theorem global_mem_chain (st : Store) (s : ScopeId) : st.global s ∈ st.chain s := by
  unfold global
  rw [List.getLastD_eq_getLast?, List.getLast?_eq_some_getLast (chain_ne_nil st s)]
  exact List.getLast_mem _

theorem target_mem_chain (st : Store) (s : ScopeId) (name : Name) :
    st.target s name ∈ st.chain s := by
  unfold target
  cases found : (st.chain s).find? fun t => st.declares t name with
  | none => exact global_mem_chain st s
  | some t => exact List.mem_of_find?_eq_some found

theorem resolve_cases (st : Store) (s : ScopeId) (name : Name) :
    st.resolve s name = .null ∨
      ∃ t ∈ st.chain s, st.own? t name = some (st.resolve s name) := by
  unfold resolve
  cases found : st.lookup? s name with
  | none => exact .inl rfl
  | some v =>
    obtain ⟨t, listed, bound⟩ := List.exists_of_findSome?_eq_some found
    exact .inr ⟨t, listed, bound⟩

end Treewalk.Store

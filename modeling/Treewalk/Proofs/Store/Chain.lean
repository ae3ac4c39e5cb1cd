import Mathlib.Order.Interval.Set.Basic
import Treewalk.Proofs.Store.WellFormed

/-! Walking outward. Outer links are followed one by one here, as scopes record them. In a
well-formed graph every such walk ends, passes no scope twice and visits what the chain lists, so
that lookup, assignment and the search for the global scope are recursions along the links. -/
namespace Treewalk.Store

variable {st st' : Store} {s o : ScopeId}

def link? (st : Store) (s : ScopeId) : Option ScopeId := (st.scopes[s]?).bind Scope.outer

def hops (st : Store) : Nat → ScopeId → Option ScopeId
  | 0, s => some s
  | k + 1, s => (st.link? s).bind (st.hops k)

theorem outer?_eq_filter (st : Store) (s : ScopeId) :
    st.outer? s = (st.link? s).filter (· < s) := by
  unfold outer? link?
  cases st.scopes[s]? <;> simp

@[simp] theorem link?_bindAt (st : Store) (s t : ScopeId) (name : Name) (v : Value) :
    (st.bindAt s name v).link? t = st.link? t := by
  unfold link?
  rw [getElem?_bindAt]
  split
  · cases st.scopes[t]? <;> simp
  · rfl

theorem link?_newScope (st : Store) (outer : Option ScopeId) (t : ScopeId) :
    (st.newScope outer).2.link? t = if t = st.scopes.size then outer else st.link? t := by
  unfold link?
  rw [getElem?_newScope]
  split <;> simp

/-! Global scopes -/

theorem global_of_unlinked (unlinked : st.outer? s = none) : st.global s = s := by
  simp [global, chain_of_global unlinked]

theorem global_of_outer (linked : st.outer? s = some o) : st.global s = st.global o := by
  unfold global
  rw [chain_of_outer linked, List.getLastD_cons, List.getLastD_eq_getLast?,
    List.getLastD_eq_getLast?, List.getLast?_eq_some_getLast (st.chain_ne_nil o)]
  rfl

theorem outer?_global (st : Store) (s : ScopeId) : st.outer? (st.global s) = none := by
  induction s using chain_induction st with
  | global s unlinked => rw [global_of_unlinked unlinked, unlinked]
  | inner s o linked ih => rw [global_of_outer linked, ih]

theorem chain_congr (agree : ∀ t ≤ s, st'.link? t = st.link? t) : st'.chain s = st.chain s := by
  have outer : ∀ t ≤ s, st'.outer? t = st.outer? t := by
    intro t inside
    rw [outer?_eq_filter, outer?_eq_filter, agree t inside]
  clear agree
  induction s using chain_induction st with
  | global s unlinked =>
    rw [chain_of_global unlinked, chain_of_global ((outer s le_rfl).trans unlinked)]
  | inner s o linked ih =>
    rw [chain_of_outer linked, chain_of_outer ((outer s le_rfl).trans linked),
      ih fun t inside => outer t (inside.trans (outer?_lt linked).le)]

theorem global_congr (agree : ∀ t ≤ s, st'.link? t = st.link? t) : st'.global s = st.global s := by
  rw [global, global, chain_congr agree]

/-! The scope that an assignment changes -/

theorem target_of_declares {name : Name} (bound : st.declares s name = true) :
    st.target s name = s := by
  unfold target
  cases linked : st.outer? s with
  | none => simp [chain_of_global linked, bound]
  | some o => simp [chain_of_outer linked, bound]

theorem target_of_outer {name : Name} (free : st.declares s name = false)
    (linked : st.outer? s = some o) : st.target s name = st.target o name := by
  simp [target, chain_of_outer linked, free, global_of_outer linked]

theorem target_of_unlinked {name : Name} (unlinked : st.outer? s = none) :
    st.target s name = s := by
  unfold target
  rw [global_of_unlinked unlinked, chain_of_global unlinked]
  cases free : st.declares s name <;> simp [free]

theorem target_cases (st : Store) (s : ScopeId) (name : Name) :
    st.declares (st.target s name) name = true ∨ st.outer? (st.target s name) = none := by
  induction s using chain_induction st with
  | global s unlinked => exact .inr (by rw [target_of_unlinked unlinked, unlinked])
  | inner s o linked ih =>
    cases free : st.declares s name with
    | true => exact .inl (by rw [target_of_declares free, free])
    | false => rwa [target_of_outer free linked]

/-! What is seen from a scope -/

theorem lookup?_eq (st : Store) (s : ScopeId) (name : Name) :
    st.lookup? s name = (st.own? s name).or ((st.outer? s).bind (st.lookup? · name)) := by
  unfold lookup?
  cases linked : st.outer? s with
  | none => cases own : st.own? s name <;> simp [chain_of_global linked, own]
  | some o => cases own : st.own? s name <;> simp [chain_of_outer linked, own]

theorem lookup?_congr (agree : ∀ t ≤ s, st'.scopes[t]? = st.scopes[t]?) (name : Name) :
    st'.lookup? s name = st.lookup? s name := by
  have own : ∀ t ≤ s, st'.own? t name = st.own? t name := by
    intro t inside
    rw [own?, own?, agree t inside]
  have outer : ∀ t ≤ s, st'.outer? t = st.outer? t := by
    intro t inside
    rw [outer?, outer?, agree t inside]
  clear agree
  induction s using chain_induction st with
  | global s unlinked =>
    rw [lookup?_eq, lookup?_eq, own s le_rfl, outer s le_rfl, unlinked]
    rfl
  | inner s o linked ih =>
    have earlier := (outer?_lt linked).le
    rw [lookup?_eq, lookup?_eq, own s le_rfl, outer s le_rfl, linked, Option.bind_some,
      Option.bind_some, ih (fun t inside => own t (inside.trans earlier))
        fun t inside => outer t (inside.trans earlier)]

theorem lt_size_of_resolve {name : Name} {c : Closure} (bound : st.resolve s name = .closure c) :
    s < st.scopes.size := by
  by_contra beyond
  have nothing : st.scopes[s]? = none := Array.getElem?_eq_none (Nat.le_of_not_lt beyond)
  rw [resolve, lookup?_eq, own?, outer?, nothing] at bound
  cases bound

/-! Walks in a well-formed graph -/

theorem le_of_mem_chain {t : ScopeId} (listed : t ∈ st.chain s) : t ≤ s := by
  refine chain_subset (R := Set.Iic s) ?_ Set.self_mem_Iic t listed
  intro u o start linked
  exact (outer?_lt linked).le.trans start

theorem chain_pairwise (st : Store) (s : ScopeId) : (st.chain s).Pairwise (· > ·) := by
  induction s using chain_induction st with
  | global s unlinked => simp [chain_of_global unlinked]
  | inner s o linked ih =>
    rw [chain_of_outer linked, List.pairwise_cons]
    exact ⟨fun t listed => (le_of_mem_chain listed).trans_lt (outer?_lt linked), ih⟩

/-- Walking outward from the scope comes to an end, at its global scope, and passes no scope twice;
lookup, assignment and the search for the global scope go the same way, link by link. -/
structure Rooted (st : Store) (s : ScopeId) : Prop where
  ends : ∃ k, st.hops k s = some (st.global s)
  top : st.link? (st.global s) = none
  once {i j : Nat} {u : ScopeId} : st.hops i s = some u → st.hops j s = some u → i = j
  inside {k : Nat} {u : ScopeId} : st.hops k s = some u → u < st.scopes.size
  global_link {o : ScopeId} : st.link? s = some o → st.global o = st.global s
  global_global : st.global (st.global s) = st.global s
  global : st.global s = ((st.link? s).map st.global).getD s
  lookup (name : Name) :
    st.lookup? s name = (st.own? s name).or ((st.link? s).bind (st.lookup? · name))
  target (name : Name) : st.target s name =
    if st.declares s name then s else ((st.link? s).map (st.target · name)).getD s

namespace WellFormed

theorem outer?_eq_link? (formed : st.WellFormed) (s : ScopeId) : st.outer? s = st.link? s := by
  rw [outer?_eq_filter]
  cases linked : st.link? s with
  | none => rfl
  | some o =>
    obtain ⟨scope, found, outer⟩ := Option.bind_eq_some_iff.mp linked
    simp [formed.outer_lt found outer]

theorem hops_eq_getElem? (formed : st.WellFormed) (k : Nat) (s : ScopeId) :
    st.hops k s = (st.chain s)[k]? := by
  induction k generalizing s with
  | zero => cases linked : st.outer? s <;> simp [hops, chain_of_global, chain_of_outer, linked]
  | succ k ih =>
    rw [hops, ← formed.outer?_eq_link?]
    cases linked : st.outer? s with
    | none => simp [chain_of_global linked]
    | some o => simp [chain_of_outer linked, ih]

theorem hops_depth (formed : st.WellFormed) (s : ScopeId) :
    st.hops (st.depth s) s = some (st.global s) := by
  rw [formed.hops_eq_getElem?, depth, ← List.getLast?_eq_getElem?, global,
    List.getLastD_eq_getLast?, List.getLast?_eq_some_getLast (st.chain_ne_nil s)]
  rfl

theorem hops_injective (formed : st.WellFormed) {i j : Nat} {u : ScopeId}
    (first : st.hops i s = some u) (again : st.hops j s = some u) : i = j := by
  rw [formed.hops_eq_getElem?] at first again
  -- Places only get smaller along a chain, so none is listed twice.
  have once : (st.chain s).Nodup := (st.chain_pairwise s).imp fun apart => apart.ne'
  obtain ⟨inside, -⟩ := List.getElem?_eq_some_iff.mp first
  exact (List.getElem?_inj inside once).mp (first.trans again.symm)

theorem rooted (formed : st.WellFormed) (there : s < st.scopes.size) : st.Rooted s where
  ends := ⟨st.depth s, formed.hops_depth s⟩
  top := by rw [← formed.outer?_eq_link?, outer?_global]
  once := formed.hops_injective
  inside := by
    intro k u found
    rw [formed.hops_eq_getElem?] at found
    exact (le_of_mem_chain (List.mem_of_getElem? found)).trans_lt there
  global_link linked := (global_of_outer ((formed.outer?_eq_link? s).trans linked)).symm
  global_global := global_of_unlinked (st.outer?_global s)
  global := by
    rw [← formed.outer?_eq_link?]
    cases linked : st.outer? s with
    | none => exact global_of_unlinked linked
    | some o => exact global_of_outer linked
  lookup name := by rw [lookup?_eq, formed.outer?_eq_link?]
  target := by
    intro name
    rw [← formed.outer?_eq_link?]
    cases bound : st.declares s name with
    | true => exact target_of_declares bound
    | false =>
      cases linked : st.outer? s with
      | none => exact target_of_unlinked linked
      | some o => exact target_of_outer bound linked

end WellFormed
end Treewalk.Store

import Treewalk.Proofs.Store.Access

/-! Reachability in a scope graph: along outer links, and through closures that reachable scopes
bind. The graph may have cycles, so a set of scopes is described by being closed under links. -/
namespace Treewalk

def Value.captured? : Value → Option ScopeId
  | .closure c => c.scope
  | _ => none

namespace Store

/-- A scope leads to its outer scope and to the scopes that closures bound in it captured. -/
inductive Link (st : Store) (s u : ScopeId) : Prop where
  | outer : st.outer? s = some u → Link st s u
  | captured {name : Name} {v : Value} :
    st.own? s name = some v → v.captured? = some u → Link st s u

inductive Reach (st : Store) (roots : Set ScopeId) : ScopeId → Prop where
  | root {s : ScopeId} : s ∈ roots → Reach st roots s
  | link {s u : ScopeId} : Reach st roots s → st.Link s u → Reach st roots u

def Holds (st : Store) (roots : Set ScopeId) (identity : Nat) : Prop :=
  ∃ s name c, st.Reach roots s ∧ st.own? s name = some (.closure c) ∧ c.identity = identity

def Closed (st : Store) (R : Set ScopeId) : Prop := ∀ s ∈ R, ∀ u, st.Link s u → u ∈ R

/-- What can be reached from some roots is the least closed set that holds them. -/
theorem Reach.mem_of_closed {st : Store} {roots R : Set ScopeId} {u : ScopeId}
    (reached : st.Reach roots u) (within : ∀ s ∈ roots, s ∈ R) (closed : st.Closed R) : u ∈ R := by
  induction reached with
  | root listed => exact within _ listed
  | link _ linked ih => exact closed _ ih _ linked

namespace Closed

variable {st : Store} {R : Set ScopeId}

theorem chain_subset (closed : st.Closed R) {s : ScopeId} (start : s ∈ R) :
    ∀ t ∈ st.chain s, t ∈ R :=
  Store.chain_subset (fun s o inside linked => closed s inside o (.outer linked)) start

theorem captured_resolve (closed : st.Closed R) {s u : ScopeId} (start : s ∈ R) (name : Name)
    (captured : (st.resolve s name).captured? = some u) : u ∈ R := by
  obtain null | ⟨t, listed, bound⟩ := resolve_cases st s name
  · rw [null] at captured
    cases captured
  · exact closed t (closed.chain_subset start t listed) u (.captured bound captured)

theorem bindAt (closed : st.Closed R) {v : Value} (value : ∀ u, v.captured? = some u → u ∈ R)
    (s : ScopeId) (name : Name) : (st.bindAt s name v).Closed R := by
  intro t inside u linked
  cases linked with
  | outer outer =>
    rw [outer?_bindAt] at outer
    exact closed t inside u (.outer outer)
  | captured bound captured =>
    obtain ⟨-, -, rfl⟩ | before := own?_of_bindAt bound
    · exact value u captured
    · exact closed t inside u (.captured before captured)

theorem newScope (closed : st.Closed R) {outer : Option ScopeId}
    (known : ∀ o, outer = some o → o ∈ R) : (st.newScope outer).2.Closed R := by
  intro t inside u linked
  cases linked with
  | outer found =>
    rw [outer?_newScope] at found
    split at found
    · exact known u (Option.filter_eq_some_iff.mp found).1
    · exact closed t inside u (.outer found)
  | captured bound captured =>
    rw [own?_newScope] at bound
    exact closed t inside u (.captured bound captured)

theorem newClosure (closed : st.Closed R) (params : List Name) (body : Tree)
    (scope : Option ScopeId) : (st.newClosure params body scope).2.Closed R := by
  intro t inside u linked
  cases linked with
  | outer found => exact closed t inside u (.outer found)
  | captured bound captured => exact closed t inside u (.captured bound captured)

end Closed
end Store
end Treewalk

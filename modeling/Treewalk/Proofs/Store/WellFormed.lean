import Mathlib.Data.Nat.Basic
import Treewalk.Proofs.Eval.Discipline
import Treewalk.Proofs.Store.Access

/-! Well-formed scope graphs: outer links lead to earlier scopes, and the closures that scopes
hold were made by the store and captured scopes that it has. Evaluation in a scope that exists
keeps a graph well-formed and returns nothing that the graph does not know. -/
namespace Treewalk

def Store.extent (st : Store) : Nat × Nat := (st.scopes.size, st.nextIdentity)

def Value.Within (extent : Nat × Nat) (v : Value) : Prop :=
  ∀ c, v = .closure c → c.identity < extent.2 ∧ ∀ u, c.scope = some u → u < extent.1

structure Store.WellFormed (st : Store) : Prop where
  outer_lt {s : ScopeId} {scope : Scope} {o : ScopeId} :
    st.scopes[s]? = some scope → scope.outer = some o → o < s
  stored {s : ScopeId} {name : Name} {v : Value} : st.own? s name = some v → v.Within st.extent

theorem Value.Within.mono {w w' : Nat × Nat} {v : Value} (later : w ≤ w') (within : v.Within w) :
    v.Within w' := by
  intro c closure
  obtain ⟨known, captured⟩ := within c closure
  exact ⟨known.trans_le later.2, fun u scope => (captured u scope).trans_le later.1⟩

theorem Value.within_of_scalar {w : Nat × Nat} {v : Value} (scalar : ∀ c, v ≠ .closure c) :
    v.Within w :=
  fun c closure => absurd closure (scalar c)

namespace Store.WellFormed

variable {st : Store}

theorem bindAt (formed : st.WellFormed) {v : Value} (within : v.Within st.extent) (s : ScopeId)
    (name : Name) : (st.bindAt s name v).WellFormed where
  outer_lt := by
    intro t scope o found linked
    rw [getElem?_bindAt] at found
    split at found
    · obtain ⟨before, there, rfl⟩ := Option.map_eq_some_iff.mp found
      exact formed.outer_lt there linked
    · exact formed.outer_lt found linked
  stored := by
    intro t other u found
    have same : (st.bindAt s name v).extent = st.extent := by simp [extent]
    rw [same]
    obtain ⟨-, -, rfl⟩ | before := own?_of_bindAt found
    · exact within
    · exact formed.stored before

theorem newScope (formed : st.WellFormed) {outer : Option ScopeId}
    (known : ∀ o, outer = some o → o < st.scopes.size) : (st.newScope outer).2.WellFormed where
  outer_lt := by
    intro t scope o found linked
    rw [getElem?_newScope] at found
    split at found
    · next fresh =>
      cases found
      exact fresh ▸ known o linked
    · exact formed.outer_lt found linked
  stored := by
    intro t name v found
    have later : st.extent ≤ (st.newScope outer).2.extent := by
      constructor <;> simp [extent]
    rw [own?_newScope] at found
    exact (formed.stored found).mono later

theorem newClosure (formed : st.WellFormed) (params : List Name) (body : Tree)
    (scope : Option ScopeId) : (st.newClosure params body scope).2.WellFormed where
  outer_lt := formed.outer_lt
  stored := by
    intro t name v found
    have later : st.extent ≤ (st.newClosure params body scope).2.extent := by
      constructor <;> simp [extent, Store.newClosure]
    exact (formed.stored found).mono later

theorem resolve_within (formed : st.WellFormed) (s : ScopeId) (name : Name) :
    (st.resolve s name).Within st.extent := by
  obtain null | ⟨t, -, bound⟩ := resolve_cases st s name
  · rw [null]
    exact Value.within_of_scalar nofun
  · exact formed.stored bound

end Store.WellFormed

/-- The discipline of well-formed graphs. The world is the extent of the store. -/
def Discipline.wellFormed : Discipline (Nat × Nat) where
  store extent st := st.WellFormed ∧ st.extent = extent
  value extent v := v.Within extent
  site extent s _ := s < extent.1
  binder extent s _ := s < extent.1
  fault _ := True

theorem Discipline.wellFormed_lawful : Discipline.wellFormed.Lawful where
  value_mono := Value.Within.mono
  site_mono later exists₁ := exists₁.trans_le later.1
  binder_mono later exists₁ := exists₁.trans_le later.1
  part site _ := site
  declared site := site
  scalar := Value.within_of_scalar
  missing _ := trivial
  literal _ _ := trivial
  raised _ := trivial
  resolve := by
    intro _ s name st _ ⟨formed, rfl⟩
    exact formed.resolve_within s name
  create := by
    intro _ s name v st _ within ⟨formed, rfl⟩
    exact ⟨st.extent, le_rfl, formed.bindAt within s name, by simp [Store.extent]⟩
  assign := by
    intro _ s name expr v st _ within ⟨formed, rfl⟩
    have after := formed.bindAt within (st.target s name) name
    have same : (st.bindAt (st.target s name) name v).extent = st.extent := by simp [Store.extent]
    exact ⟨st.extent, le_rfl, ⟨after, same⟩, same ▸ after.resolve_within s name⟩
  closure := by
    intro _ s params body st site ⟨formed, rfl⟩
    refine ⟨_, ?_, ⟨formed.newClosure params body (some s), rfl⟩, ?_⟩
    · constructor <;> simp [Store.extent, Store.newClosure]
    · intro c made
      cases made
      refine ⟨by simp [Store.extent, Store.newClosure], fun u captured => ?_⟩
      cases captured
      exact site
  scope := by
    intro _ c st within ⟨formed, rfl⟩
    have known := (within c rfl).2
    have inside : (st.newScope c.scope).1 < (st.newScope c.scope).2.extent.1 := by
      simp [Store.extent]
    refine ⟨_, ?_, ⟨formed.newScope known, rfl⟩, inside, fun _ _ => inside⟩
    constructor <;> simp [Store.extent]

section Runs

variable {n : Nat} {st : State}

theorem Discipline.Ends.wellFormed {o : Outcome Value}
    (ends : wellFormed.Ends st.store.extent wellFormed.value o) :
    o.Meets (fun v st' => st'.store.WellFormed ∧ v.Within st'.store.extent)
      (fun _ st' => st'.store.WellFormed) := by
  refine ends.imp ?_ ?_
  · intro v st' ⟨_, _, ⟨formed, known⟩, within⟩
    exact ⟨formed, known ▸ within⟩
  · intro f st' ⟨_, _, ⟨formed, _⟩, _⟩
    exact formed

theorem eval_wellFormed {s : ScopeId} {t : Tree} (formed : st.store.WellFormed)
    (there : s < st.store.scopes.size) :
    (eval n s t st).Meets
      (fun v st' => st'.store.WellFormed ∧ v.Within st'.store.extent)
      (fun _ st' => st'.store.WellFormed) := by
  have site : Discipline.wellFormed.site st.store.extent s t := there
  exact (Discipline.eval_ends Discipline.wellFormed_lawful site ⟨formed, rfl⟩).wellFormed

theorem invoke_wellFormed {c : Closure} {args : List Value} (formed : st.store.WellFormed)
    (closure : (Value.closure c).Within st.store.extent)
    (values : ∀ v ∈ args, v.Within st.store.extent) :
    (invoke (eval n) c args st).Meets
      (fun v st' => st'.store.WellFormed ∧ v.Within st'.store.extent)
      (fun _ st' => st'.store.WellFormed) := by
  have proper : Discipline.wellFormed.store st.store.extent st.store := ⟨formed, rfl⟩
  exact (Discipline.invoke_ends Discipline.wellFormed_lawful closure values proper).wellFormed

end Runs
end Treewalk

import Treewalk.Proofs.Store.Reach
import Treewalk.Proofs.Store.WellFormed

/-! The write frame of evaluation. An evaluation can change only scopes that its own scope
reaches, and a call only scopes that the closure or an argument reaches; whatever it stores or
returns leads to such scopes or to scopes made on the way. -/
namespace Treewalk

/-- Scopes that an evaluation from some roots may touch: those it could reach at the start and
those made since. -/
def Store.Touchable (roots : Set ScopeId) (before after : Store) (u : ScopeId) : Prop :=
  before.Reach roots u ∨ (before.scopes.size ≤ u ∧ u < after.scopes.size)

/-- Nothing beyond the reach of the roots was changed or became reachable. -/
structure Store.Confined (roots : Set ScopeId) (before after : Store) : Prop where
  frame {u : ScopeId} : u < before.scopes.size → ¬ before.Reach roots u →
    after.scopes[u]? = before.scopes[u]?
  stored {s u : ScopeId} {name : Name} {v : Value} : after.Reach roots s →
    after.own? s name = some v → v.captured? = some u → Store.Touchable roots before after u

def capturedBy (values : List Value) : Set ScopeId :=
  { u | ∃ v ∈ values, v.captured? = some u }

def Discipline.inside (before : Store) (R : Set ScopeId) : Discipline Timeless where
  store _ st := st.Closed R ∧ before.scopes.size ≤ st.scopes.size ∧
    ∀ u < before.scopes.size, u ∉ R → st.scopes[u]? = before.scopes[u]?
  value _ v := ∀ u, v.captured? = some u → u ∈ R
  site _ s _ := s ∈ R
  binder _ s _ := s ∈ R
  fault _ := True

variable {before : Store} {R : Set ScopeId}

theorem Discipline.inside_bindAt {st : Store} {s : ScopeId} {v : Value} (name : Name)
    (start : s ∈ R) (value : ∀ u, v.captured? = some u → u ∈ R)
    (proper : (inside before R).store ⟨⟩ st) : (inside before R).store ⟨⟩ (st.bindAt s name v) := by
  obtain ⟨closed, larger, frame⟩ := proper
  refine ⟨closed.bindAt value s name, by simpa using larger, ?_⟩
  intro u old apart
  have other : s ≠ u := fun same => apart (same ▸ start)
  rw [Store.getElem?_bindAt, if_neg other]
  exact frame u old apart

theorem Discipline.inside_lawful (fresh : ∀ u, before.scopes.size ≤ u → u ∈ R) :
    (Discipline.inside before R).Lawful where
  value_mono _ value := value
  site_mono _ site := site
  binder_mono _ binder := binder
  part site _ := site
  declared site := site
  scalar := by
    intro _ v scalar u captured
    cases v with
    | closure c => exact absurd rfl (scalar c)
    | _ => cases captured
  missing _ := trivial
  literal _ _ := trivial
  raised _ := trivial
  resolve := by
    intro _ s name st site proper u captured
    exact proper.1.captured_resolve site name captured
  create := by
    intro _ s name v st binder value proper
    exact ⟨⟨⟩, le_rfl, inside_bindAt name binder value proper⟩
  assign := by
    intro _ s name expr v st site value proper
    have target := proper.1.chain_subset site _ (st.target_mem_chain s name)
    have after := inside_bindAt name target value proper
    exact ⟨⟨⟩, le_rfl, after, fun u captured => after.1.captured_resolve site name captured⟩
  closure := by
    intro _ s params body st site proper
    refine ⟨⟨⟩, le_rfl, ⟨proper.1.newClosure params body (some s), proper.2⟩, ?_⟩
    intro u captured
    cases captured
    exact site
  scope := by
    intro _ c st value proper
    obtain ⟨closed, larger, frame⟩ := proper
    have made : st.scopes.size ∈ R := fresh _ larger
    have larger' : before.scopes.size ≤ (st.newScope c.scope).2.scopes.size := by
      rw [Store.size_newScope]
      omega
    refine ⟨⟨⟩, le_rfl, ⟨closed.newScope value, larger', ?_⟩, made, fun _ _ => made⟩
    intro u old apart
    have other : u ≠ st.scopes.size := by omega
    rw [Store.getElem?_newScope, if_neg other]
    exact frame u old apart

/-- The scopes that are reachable from some roots, and all that are still to be made. -/
def Store.region (st : Store) (roots : Set ScopeId) : Set ScopeId :=
  { u | st.Reach roots u ∨ st.scopes.size ≤ u }

namespace Store

variable {st after : Store} {roots : Set ScopeId}

theorem root_mem_region {s : ScopeId} (listed : s ∈ roots) : s ∈ st.region roots :=
  .inl (.root listed)

theorem region_closed (st : Store) (roots : Set ScopeId) : st.Closed (st.region roots) := by
  intro s inside u linked
  rcases inside with reached | beyond
  · exact .inl (reached.link linked)
  · -- A place that holds no scope yet has no links.
    have nothing : st.scopes[s]? = none := Array.getElem?_eq_none beyond
    cases linked with
    | outer found => simp [outer?, nothing] at found
    | captured bound _ => simp [own?, nothing] at bound

theorem inside_region (st : Store) (roots : Set ScopeId) :
    (Discipline.inside st (st.region roots)).store ⟨⟩ st :=
  ⟨region_closed st roots, le_rfl, fun _ _ _ => rfl⟩

theorem touchable_of_within {u : ScopeId} {v : Value} (region : u ∈ st.region roots)
    (within : v.Within after.extent) (captured : v.captured? = some u) :
    Touchable roots st after u := by
  rcases region with reached | made
  · exact .inl reached
  · cases v with
    | closure c => exact .inr ⟨made, (within c rfl).2 u captured⟩
    | _ => cases captured

theorem confined_of_inside (inside : (Discipline.inside st (st.region roots)).store ⟨⟩ after)
    (formed : after.WellFormed) : Confined roots st after where
  frame := by
    intro u old unreached
    apply inside.2.2 u old
    intro region
    rcases region with reached | made
    · exact unreached reached
    · exact Nat.not_lt.mpr made old
  stored := by
    intro s u name v reached bound captured
    have start := reached.mem_of_closed (fun _ => root_mem_region) inside.1
    exact touchable_of_within (inside.1 s start u (.captured bound captured)) (formed.stored bound)
      captured

end Store

/-- Every evaluation and every call in a well-formed graph is confined to what it can reach. -/
theorem evaluation_confined (st : State) (formed : st.store.WellFormed) :
    (∀ n s t, s < st.store.scopes.size →
      (eval n s t st).Meets
        (fun v st' => Store.Confined {s} st.store st'.store ∧
          ∀ u, v.captured? = some u → Store.Touchable {s} st.store st'.store u)
        (fun _ st' => Store.Confined {s} st.store st'.store)) ∧
    (∀ n c args, (∀ v ∈ Value.closure c :: args, v.Within st.store.extent) →
      (invoke (eval n) c args st).Meets
        (fun v st' => Store.Confined (capturedBy (.closure c :: args)) st.store st'.store ∧
          ∀ u, v.captured? = some u →
            Store.Touchable (capturedBy (.closure c :: args)) st.store st'.store u)
        (fun _ st' => Store.Confined (capturedBy (.closure c :: args)) st.store st'.store)) := by
  -- Both follow from staying inside the region of the roots while the graph stays well-formed.
  have combine : ∀ (roots : Set ScopeId) (o : Outcome Value),
      (Discipline.inside st.store (st.store.region roots)).Ends ⟨⟩
        (Discipline.inside st.store (st.store.region roots)).value o →
      o.Meets (fun v st' => st'.store.WellFormed ∧ v.Within st'.store.extent)
        (fun _ st' => st'.store.WellFormed) →
      o.Meets
        (fun v st' => Store.Confined roots st.store st'.store ∧
          ∀ u, v.captured? = some u → Store.Touchable roots st.store st'.store u)
        (fun _ st' => Store.Confined roots st.store st'.store) := by
    intro roots o stays keeps
    refine (stays.and keeps).imp ?_ ?_
    · intro v st' both
      obtain ⟨⟨_, _, inside, value⟩, formed, within⟩ := both
      exact ⟨Store.confined_of_inside inside formed,
        fun u captured => Store.touchable_of_within (value u captured) within captured⟩
    · intro f st' both
      obtain ⟨⟨_, _, inside, _⟩, formed⟩ := both
      exact Store.confined_of_inside inside formed
  have lawful : ∀ roots, (Discipline.inside st.store (st.store.region roots)).Lawful :=
    fun roots => Discipline.inside_lawful fun u beyond => .inr beyond
  constructor
  · intro n s t there
    have root : s ∈ st.store.region {s} := Store.root_mem_region rfl
    exact combine {s} _
      (Discipline.eval_ends (lawful {s}) root (st.store.inside_region {s}))
      (eval_wellFormed formed there)
  · intro n c args known
    have captured : ∀ v ∈ Value.closure c :: args, ∀ u, v.captured? = some u →
        u ∈ st.store.region (capturedBy (.closure c :: args)) :=
      fun v listed u captured => Store.root_mem_region ⟨v, listed, captured⟩
    exact combine _ _
      (Discipline.invoke_ends (lawful _) (captured _ List.mem_cons_self)
        (fun v listed => captured v (List.mem_cons_of_mem _ listed))
        (st.store.inside_region _))
      (invoke_wellFormed formed (known _ List.mem_cons_self)
        fun v listed => known v (List.mem_cons_of_mem _ listed))

def Store.siblings : Store :=
  ⟨#[⟨none, []⟩, ⟨some 0, [("x", .int 1)]⟩, ⟨some 0, [("x", .int 5)]⟩], 1⟩

theorem Store.siblings_own? {s : ScopeId} {name : Name} {v : Value}
    (bound : siblings.own? s name = some v) : ∀ c, v ≠ .closure c := by
  intro c closure
  subst closure
  match s with
  | 0 => simp [siblings, own?, Scope.get?] at bound
  | 1 | 2 =>
    simp [siblings, own?, Scope.get?, List.lookup_cons] at bound
    split at bound <;> cases bound
  | s + 3 => simp [siblings, own?] at bound

theorem Store.siblings_wellFormed : siblings.WellFormed where
  outer_lt := by
    intro s scope o found linked
    match s with
    | 0 => cases found; cases linked
    | 1 | 2 => cases found; cases linked; decide
    | s + 3 => simp [siblings] at found
  stored bound := Value.within_of_scalar (siblings_own? bound)

theorem Store.siblings_apart {roots : Set ScopeId} (first : ∀ s ∈ roots, s = 1) :
    ¬ siblings.Reach roots 2 := by
  intro reached
  have inside : (2 : ScopeId) ∈ ({0, 1} : Set ScopeId) := by
    refine reached.mem_of_closed (fun s listed => .inr (first s listed)) ?_
    intro s start u linked
    cases linked with
    | outer found =>
      rcases start with rfl | rfl
      · cases found
      · cases found; exact .inl rfl
    | @captured name v bound captured =>
      have scalar := siblings_own? bound
      cases v with
      | closure c => exact absurd rfl (scalar c)
      | _ => cases captured
  rcases inside with h | h <;> cases h

def Tree.outward : Tree := .seq (.assign "x" (.int 2)) (.assign "y" (.function [] (.var "x")))

theorem assignments_keep_sibling :
    Store.siblings.WellFormed ∧
      (∃ v st', eval 9 1 .outward ⟨.siblings, .unlimited, #[]⟩ = .value v st' ∧
        st'.store.scopes[2]? = Store.siblings.scopes[2]?) ∧
      ∃ v st', invoke (eval 9) ⟨0, ["z"], .outward, some 1⟩ [.int 3]
          ⟨.siblings, .unlimited, #[]⟩ = .value v st' ∧
        st'.store.scopes[2]? = Store.siblings.scopes[2]? := by
  have formed := Store.siblings_wellFormed
  have confined := evaluation_confined ⟨.siblings, .unlimited, #[]⟩ formed
  refine ⟨formed, ?_, ?_⟩
  · have evaluated := confined.1 9 1 .outward (by decide)
    cases outcome : eval 9 1 .outward ⟨.siblings, .unlimited, #[]⟩ with
    | value v st' =>
      rw [outcome] at evaluated
      exact ⟨v, st', rfl, evaluated.1.frame (by decide) (Store.siblings_apart fun _ => id)⟩
    | fault f st' => cases outcome
    | exhausted => cases outcome
  · have known : ∀ v ∈ [Value.closure ⟨0, ["z"], .outward, some 1⟩, .int 3],
        v.Within Store.siblings.extent := by
      intro v listed c closure
      simp only [List.mem_cons, List.not_mem_nil, or_false] at listed
      rcases listed with rfl | rfl
      · cases closure
        exact ⟨by decide, fun u captured => by cases captured; decide⟩
      · cases closure
    have root : ∀ u ∈ capturedBy [Value.closure ⟨0, ["z"], .outward, some 1⟩, .int 3], u = 1 := by
      intro u captured
      obtain ⟨v, listed, captured⟩ := captured
      simp only [List.mem_cons, List.not_mem_nil, or_false] at listed
      rcases listed with rfl | rfl
      · exact (Option.some.inj captured).symm
      · cases captured
    have called := confined.2 9 ⟨0, ["z"], .outward, some 1⟩ [.int 3] known
    cases outcome : invoke (eval 9) ⟨0, ["z"], .outward, some 1⟩ [.int 3]
        ⟨.siblings, .unlimited, #[]⟩ with
    | value v st' =>
      rw [outcome] at called
      exact ⟨v, st', rfl, called.1.frame (by decide) (Store.siblings_apart root)⟩
    | fault f st' => cases outcome
    | exhausted => cases outcome

end Treewalk

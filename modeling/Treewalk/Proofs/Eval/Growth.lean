import Mathlib.Logic.Relation
import Treewalk.Proofs.Eval.Discipline
import Treewalk.Proofs.Store.Chain

/-! How the scopes that exist grow while a program runs. Their outer links stay, their names stay
bound, and a new name has one of two origins: the evaluated tree declares it in the scope of the
evaluation, or an assignment to it found no binding and added one to a global scope. What the
functions called on the way declare is bound in scopes of their own. -/
namespace Treewalk

namespace Tree

/-- A declaration of the name occurs in the tree outside of function bodies. -/
def Declares (t : Tree) (name : Name) : Prop :=
  ∃ init, Relation.ReflTransGen (fun u t => u ∈ parts t) (.declare name init) t

/-- An assignment to the name occurs anywhere in the tree. -/
def Assigns (t : Tree) (name : Name) : Prop :=
  ∃ expr, Relation.ReflTransGen (fun u t => u ∈ children t) (.assign name expr) t

variable {t u : Tree} {name : Name}

theorem Declares.of_part (inside : u ∈ t.parts) (declares : u.Declares name) : t.Declares name :=
  declares.imp fun _ occurs => occurs.tail inside

theorem Assigns.of_child (inside : u ∈ t.children) (assigns : u.Assigns name) : t.Assigns name :=
  assigns.imp fun _ occurs => occurs.tail inside

end Tree

def Outcome.Leaves {α : Type} (P : Store → Prop) (o : Outcome α) : Prop :=
  o.Meets (fun _ st => P st.store) fun _ st => P st.store

def Value.Assigns (v : Value) (name : Name) : Prop := ∃ c, v = .closure c ∧ c.body.Assigns name

def Store.Assigns (st : Store) (name : Name) : Prop :=
  ∃ s key v, st.own? s key = some v ∧ v.Assigns name

/-- The law of growth, for a run that declares names in one scope of its own or in none and
assigns to names. -/
structure Store.Growth (own : Option ScopeId) (declared assigned : Name → Prop)
    (before after : Store) : Prop where
  link {u : ScopeId} : u < before.scopes.size → after.link? u = before.link? u
  outer {u : ScopeId} : u < before.scopes.size → after.outer? u = before.outer? u
  global {u : ScopeId} : u < before.scopes.size → after.global u = before.global u
  kept {u : ScopeId} {name : Name} : u < before.scopes.size → before.declares u name = true →
    after.declares u name = true
  inner {u o : ScopeId} (name : Name) : u < before.scopes.size → own ≠ some u →
    before.outer? u = some o → after.declares u name = before.declares u name
  outermost {u : ScopeId} {name : Name} : u < before.scopes.size → own ≠ some u →
    before.outer? u = none → after.declares u name = true →
    before.declares u name = true ∨ assigned name
  home {u : ScopeId} {name : Name} : u < before.scopes.size → own = some u →
    after.declares u name = true →
    before.declares u name = true ∨ declared name ∨ before.outer? u = none ∧ assigned name

/-- The same in one sentence about where a new name comes from, as a run maintains it. -/
structure Store.Grown (own : Option ScopeId) (declared assigned : Name → Prop)
    (before after : Store) : Prop where
  larger : before.scopes.size ≤ after.scopes.size
  link {u : ScopeId} : u < before.scopes.size → after.link? u = before.link? u
  kept {u : ScopeId} {name : Name} : u < before.scopes.size → before.declares u name = true →
    after.declares u name = true
  gained {u : ScopeId} {name : Name} : u < before.scopes.size → after.declares u name = true →
    before.declares u name = true ∨ (own = some u ∧ declared name) ∨
      (before.outer? u = none ∧ assigned name)

variable {own : Option ScopeId} {declared assigned : Name → Prop} {before st : Store}

namespace Store
namespace Grown

theorem refl (st : Store) : st.Grown own declared assigned st where
  larger := le_rfl
  link _ := rfl
  kept _ bound := bound
  gained _ bound := .inl bound

theorem outer (grown : before.Grown own declared assigned st) {u : ScopeId}
    (old : u < before.scopes.size) : st.outer? u = before.outer? u := by
  rw [outer?_eq_filter, outer?_eq_filter, grown.link old]

theorem bindAt (grown : before.Grown own declared assigned st) {s : ScopeId} {name : Name}
    (v : Value)
    (allowed : s < before.scopes.size → st.declares s name = true ∨ (own = some s ∧ declared name) ∨
      (before.outer? s = none ∧ assigned name)) :
    before.Grown own declared assigned (st.bindAt s name v) where
  larger := by simpa using grown.larger
  link old := by simpa using grown.link old
  kept old bound := (declares_bindAt ..).mpr (.inr (grown.kept old bound))
  gained := by
    intro u other old bound
    rcases (declares_bindAt ..).mp bound with ⟨rfl, rfl, -⟩ | bound
    · rcases allowed old with bound | origin
      · exact grown.gained old bound
      · exact .inr origin
    · exact grown.gained old bound

theorem newScope (grown : before.Grown own declared assigned st) (outer : Option ScopeId) :
    before.Grown own declared assigned (st.newScope outer).2 where
  larger := by
    rw [size_newScope]
    exact grown.larger.trans (Nat.le_succ _)
  link := by
    intro u old
    rw [link?_newScope, if_neg (old.trans_le grown.larger).ne, grown.link old]
  kept := by
    intro u name old bound
    simpa [declares] using grown.kept old bound
  gained := by
    intro u name old bound
    exact grown.gained old (by simpa [declares] using bound)

theorem newClosure (grown : before.Grown own declared assigned st) (params : List Name)
    (body : Tree) (scope : Option ScopeId) :
    before.Grown own declared assigned (st.newClosure params body scope).2 :=
  ⟨grown.larger, grown.link, grown.kept, grown.gained⟩

theorem growth (grown : before.Grown own declared assigned st) :
    before.Growth own declared assigned st where
  link := grown.link
  outer := grown.outer
  global old := global_congr fun _ earlier => grown.link (earlier.trans_lt old)
  kept := grown.kept
  inner := by
    intro u o name old other linked
    rw [Bool.eq_iff_iff]
    refine ⟨fun bound => ?_, grown.kept old⟩
    rcases grown.gained old bound with bound | ⟨home, -⟩ | ⟨unlinked, -⟩
    · exact bound
    · exact absurd home other
    · cases unlinked.symm.trans linked
  outermost := by
    intro u name old other _ bound
    rcases grown.gained old bound with bound | ⟨home, -⟩ | ⟨-, assigned⟩
    · exact .inl bound
    · exact absurd home other
    · exact .inr assigned
  home := by
    intro u name old _ bound
    rcases grown.gained old bound with bound | ⟨-, declared⟩ | origin
    · exact .inl bound
    · exact .inr (.inl declared)
    · exact .inr (.inr origin)

end Grown
end Store

def Discipline.growth (own : Option ScopeId) (declared assigned : Name → Prop) (before : Store) :
    Discipline Timeless where
  store _ st := before.Grown own declared assigned st ∧ ∀ name, st.Assigns name → assigned name
  value _ v := ∀ name, v.Assigns name → assigned name
  site _ s t := (∀ name, t.Assigns name → assigned name) ∧
    (before.scopes.size ≤ s ∨ (own = some s ∧ ∀ name, t.Declares name → declared name))
  binder _ s name := before.scopes.size ≤ s ∨ (own = some s ∧ declared name)
  fault _ := True

namespace Discipline

theorem growth_bindAt {s : ScopeId} {name : Name} {v : Value}
    (proper : (growth own declared assigned before).store ⟨⟩ st)
    (value : (growth own declared assigned before).value ⟨⟩ v)
    (allowed : s < before.scopes.size → st.declares s name = true ∨ (own = some s ∧ declared name) ∨
      (before.outer? s = none ∧ assigned name)) :
    (growth own declared assigned before).store ⟨⟩ (st.bindAt s name v) := by
  refine ⟨proper.1.bindAt v allowed, ?_⟩
  rintro other ⟨u, key, w, bound, assigns⟩
  rcases Store.own?_of_bindAt bound with ⟨-, -, rfl⟩ | bound
  · exact value other assigns
  · exact proper.2 other ⟨u, key, w, bound, assigns⟩

theorem growth_resolve (proper : (growth own declared assigned before).store ⟨⟩ st) (s : ScopeId)
    (name : Name) : (growth own declared assigned before).value ⟨⟩ (st.resolve s name) := by
  intro other assigns
  obtain null | ⟨u, -, bound⟩ := st.resolve_cases s name
  · obtain ⟨c, closure, -⟩ := assigns
    cases null.symm.trans closure
  · exact proper.2 other ⟨u, name, _, bound, assigns⟩

theorem growth_lawful : (growth own declared assigned before).Lawful where
  value_mono _ value := value
  site_mono _ site := site
  binder_mono _ binder := binder
  part := by
    rintro _ s t u ⟨assigns, place⟩ inside
    refine ⟨fun name inner => assigns name (inner.of_child (Tree.mem_children_of_mem_parts inside)),
      place.imp_right ?_⟩
    exact fun ⟨home, declares⟩ => ⟨home, fun name inner => declares name (inner.of_part inside)⟩
  declared := by
    rintro _ s name init ⟨-, place⟩
    exact place.imp_right fun ⟨home, declares⟩ => ⟨home, declares name ⟨init, .refl⟩⟩
  scalar scalar := fun _ ⟨c, closure, _⟩ => absurd closure (scalar c)
  missing _ := trivial
  literal _ _ := trivial
  raised _ := trivial
  resolve _ proper := growth_resolve proper _ _
  create := by
    intro _ s name v st binder value proper
    refine ⟨⟨⟩, le_rfl, growth_bindAt proper value fun old => ?_⟩
    exact .inr (.inl (binder.resolve_left old.not_ge))
  assign := by
    rintro _ s name expr v st ⟨assigns, -⟩ value proper
    have after : (growth own declared assigned before).store ⟨⟩ (st.update s name v) := by
      refine growth_bindAt proper value fun old => ?_
      -- A binding that is not there yet is added where the chain ends.
      refine (st.target_cases s name).imp_right fun unlinked => .inr ⟨?_, ?_⟩
      · exact (proper.1.outer old).symm.trans unlinked
      · exact assigns name ⟨expr, .refl⟩
    exact ⟨⟨⟩, le_rfl, after, growth_resolve after s name⟩
  closure := by
    rintro _ s params body st ⟨assigns, -⟩ proper
    refine ⟨⟨⟩, le_rfl, ⟨proper.1.newClosure params body (some s), proper.2⟩, ?_⟩
    -- The body will run in a scope of its own, so only its assignments matter.
    rintro name ⟨c, made, inner⟩
    cases made
    exact assigns name (inner.of_child List.mem_cons_self)
  scope := by
    intro _ c st value proper
    have fresh : before.scopes.size ≤ st.scopes.size := proper.1.larger
    refine ⟨⟨⟩, le_rfl, ⟨proper.1.newScope c.scope, ?_⟩, ⟨?_, .inl fresh⟩, fun _ _ => .inl fresh⟩
    · rintro name ⟨u, key, v, bound, assigns⟩
      rw [Store.own?_newScope] at bound
      exact proper.2 name ⟨u, key, v, bound, assigns⟩
    · exact fun name assigns => value name ⟨c, rfl, assigns⟩

theorem Ends.growth {o : Outcome Value}
    (ends : (growth own declared assigned before).Ends ⟨⟩
      (Discipline.growth own declared assigned before).value o) :
    o.Leaves (before.Growth own declared assigned) := by
  refine ends.imp ?_ ?_
  · intro v st' ⟨_, _, proper, _⟩
    exact proper.1.growth
  · intro f st' ⟨_, _, proper, _⟩
    exact proper.1.growth

end Discipline

/-- Evaluation adds to the scopes that exist only what its tree declares in its own scope, and to
global scopes only what is assigned to by its tree or by a closure that it may call. A call adds
to no scope but global ones, so nothing declared in a function is seen outside of the call. -/
theorem scopes_grow_lawfully (n : Nat) (st : State) :
    (∀ s t, (eval n s t st).Leaves
      (st.store.Growth (some s) t.Declares fun name => t.Assigns name ∨ st.store.Assigns name)) ∧
    (∀ c args, (invoke (eval n) c args st).Leaves
      (st.store.Growth none (fun _ => False) fun name =>
        (∃ v ∈ Value.closure c :: args, v.Assigns name) ∨ st.store.Assigns name)) := by
  constructor
  · intro s t
    refine (Discipline.eval_ends (w := ⟨⟩) Discipline.growth_lawful ?_ ?_).growth
    · exact ⟨fun _ => .inl, .inr ⟨rfl, fun _ => id⟩⟩
    · exact ⟨.refl st.store, fun _ => .inr⟩
  · intro c args
    refine (Discipline.invoke_ends (w := ⟨⟩) Discipline.growth_lawful ?_ ?_ ?_).growth
    · exact fun name assigns => .inl ⟨_, List.mem_cons_self, assigns⟩
    · exact fun v listed name assigns => .inl ⟨v, List.mem_cons_of_mem _ listed, assigns⟩
    · exact ⟨.refl st.store, fun _ => .inr⟩

def Store.setter : Store :=
  ⟨#[⟨none, [("f", .closure ⟨0, ["p"],
      .seq (.declare "d" (.var "p")) (.assign "z" (.var "d")), some 2⟩)]⟩,
    ⟨some 0, []⟩, ⟨some 0, []⟩], 1⟩

def Tree.callSetter : Tree := .seq (.declare "y" (.int 1)) (.call (.var "f") [.var "y"])

theorem setter_declares_inside :
    ∃ v st', eval 9 1 .callSetter ⟨.setter, .unlimited, #[]⟩ = .value v st' ∧
      st'.store.declares 1 "y" = true ∧ st'.store.declares 0 "z" = true ∧
      ∀ name, st'.store.declares 2 name = false := by
  have passed : (eval 9 1 .callSetter ⟨.setter, .unlimited, #[]⟩).passes (fun _ st' =>
      st'.store.declares 1 "y" && st'.store.declares 0 "z") = true := by decide +kernel
  obtain ⟨v, st', ran, shown⟩ := Outcome.exists_of_passes passed
  obtain ⟨evaluated, -⟩ := scopes_grow_lawfully 9 ⟨.setter, .unlimited, #[]⟩
  have law := evaluated 1 .callSetter
  rw [ran] at law
  obtain ⟨own, assigned⟩ := Bool.and_eq_true_iff.mp shown
  have same := fun name => law.inner (u := 2) (o := 0) name (by decide) (by decide) (by decide)
  exact ⟨v, st', ran, own, assigned, same⟩

end Treewalk

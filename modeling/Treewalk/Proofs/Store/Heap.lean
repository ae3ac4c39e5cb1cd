import Mathlib.Data.List.Infix
import Mathlib.Logic.Relation
import Treewalk.Proofs.Store.Chain

/-! Heaps: a store together with the values that a client holds. A client adds scopes, binds and
reads names, makes closures and evaluates programs. Whatever it does, the graph stays well-formed,
and there is one record of all closures ever made, which only grows and in which each closure is
found under its identity. -/
namespace Treewalk

structure History where
  scopes : Nat
  made : List Closure

instance : Preorder History where
  le w w' := w.scopes ≤ w'.scopes ∧ w.made <+: w'.made
  le_refl w := ⟨le_rfl, List.prefix_rfl⟩
  le_trans _ _ _ first second := ⟨first.1.trans second.1, first.2.trans second.2⟩

namespace History

def extent (w : History) : Nat × Nat := (w.scopes, w.made.length)

def withScope (w : History) : History := ⟨w.scopes + 1, w.made⟩

def withClosure (w : History) (c : Closure) : History := ⟨w.scopes, w.made ++ [c]⟩

theorem le_withScope (w : History) : w ≤ w.withScope := ⟨Nat.le_succ _, List.prefix_rfl⟩

theorem le_withClosure (w : History) (c : Closure) : w ≤ w.withClosure c :=
  ⟨le_rfl, List.prefix_append _ _⟩

variable {w w' : History}

theorem extent_mono (later : w ≤ w') : w.extent ≤ w'.extent := ⟨later.1, later.2.length_le⟩

theorem made_mono (later : w ≤ w') {identity : Nat} {c : Closure}
    (recorded : w.made[identity]? = some c) : w'.made[identity]? = some c := by
  obtain ⟨rest, whole⟩ := later.2
  obtain ⟨inside, -⟩ := List.getElem?_eq_some_iff.mp recorded
  rw [← whole, List.getElem?_append_left inside, recorded]

end History

/-- The value has a place in the history: if it is a closure, it was made then, is found under its
identity and captured a scope that exists. -/
structure Value.Known (w : History) (v : Value) : Prop where
  within : v.Within w.extent
  recorded {c : Closure} : v = .closure c → w.made[c.identity]? = some c

/-- The store is what the history led to. -/
structure Store.Records (st : Store) (w : History) : Prop where
  formed : st.WellFormed
  extent : st.extent = w.extent
  recorded {s : ScopeId} {name : Name} {c : Closure} : st.own? s name = some (.closure c) →
    w.made[c.identity]? = some c

theorem Value.Known.mono {w w' : History} {v : Value} (later : w ≤ w') (known : v.Known w) :
    v.Known w' where
  within := known.within.mono (History.extent_mono later)
  recorded closure := History.made_mono later (known.recorded closure)

theorem Value.known_of_scalar {w : History} {v : Value} (scalar : ∀ c, v ≠ .closure c) :
    v.Known w where
  within := Value.within_of_scalar scalar
  recorded closure := absurd closure (scalar _)

namespace Store.Records

variable {st : Store} {w : History}

theorem size (records : st.Records w) : st.scopes.size = w.scopes :=
  congrArg Prod.fst records.extent

theorem nextIdentity (records : st.Records w) : st.nextIdentity = w.made.length :=
  congrArg Prod.snd records.extent

theorem known (records : st.Records w) {s : ScopeId} {name : Name} {v : Value}
    (bound : st.own? s name = some v) : v.Known w where
  within := records.extent ▸ records.formed.stored bound
  recorded closure := records.recorded (closure ▸ bound)

theorem resolve (records : st.Records w) (s : ScopeId) (name : Name) :
    (st.resolve s name).Known w := by
  obtain null | ⟨t, -, bound⟩ := resolve_cases st s name
  · rw [null]
    exact Value.known_of_scalar nofun
  · exact records.known bound

theorem bindAt (records : st.Records w) {v : Value} (known : v.Known w) (s : ScopeId)
    (name : Name) : (st.bindAt s name v).Records w where
  formed := records.formed.bindAt (records.extent ▸ known.within) s name
  extent := by simpa [Store.extent] using records.extent
  recorded := by
    intro t other c bound
    rcases own?_of_bindAt bound with ⟨-, -, rfl⟩ | bound
    · exact known.recorded rfl
    · exact records.recorded bound

theorem newScope (records : st.Records w) {outer : Option ScopeId}
    (there : ∀ o, outer = some o → o < w.scopes) :
    (st.newScope outer).2.Records w.withScope where
  formed := records.formed.newScope fun o linked => records.size ▸ there o linked
  extent := by
    simp [Store.extent, History.extent, History.withScope, records.size, records.nextIdentity]
  recorded := by
    intro t name c bound
    rw [own?_newScope] at bound
    exact records.recorded bound

theorem newClosure (records : st.Records w) (params : List Name) (body : Tree)
    (scope : Option ScopeId) :
    (st.newClosure params body scope).2.Records
      (w.withClosure (st.newClosure params body scope).1) where
  formed := records.formed.newClosure params body scope
  extent := by
    simp [Store.extent, History.extent, History.withClosure, Store.newClosure, records.size,
      records.nextIdentity]
  recorded := by
    intro t name c bound
    exact History.made_mono (w.le_withClosure _) (records.recorded bound)

theorem newClosure_known (records : st.Records w) (params : List Name) (body : Tree)
    {scope : Option ScopeId} (there : ∀ u, scope = some u → u < w.scopes) :
    (Value.closure (st.newClosure params body scope).1).Known
      (w.withClosure (st.newClosure params body scope).1) where
  within := by
    intro c made
    cases made
    refine ⟨?_, there⟩
    simp [History.extent, History.withClosure, Store.newClosure, records.nextIdentity]
  recorded := by
    intro c made
    cases made
    simp [History.withClosure, Store.newClosure, records.nextIdentity]

end Store.Records

def Discipline.history : Discipline History where
  store w st := st.Records w
  value w v := v.Known w
  site w s _ := s < w.scopes
  binder w s _ := s < w.scopes
  fault _ := True

theorem Discipline.history_lawful : Discipline.history.Lawful where
  value_mono := Value.Known.mono
  site_mono later inside := inside.trans_le later.1
  binder_mono later inside := inside.trans_le later.1
  part site _ := site
  declared site := site
  scalar := Value.known_of_scalar
  missing _ := trivial
  literal _ _ := trivial
  raised _ := trivial
  resolve _ records := records.resolve _ _
  create _ known records := ⟨_, le_rfl, records.bindAt known _ _⟩
  assign := by
    intro w s name expr v st _ known records
    have after := records.bindAt known (st.target s name) name
    exact ⟨w, le_rfl, after, after.resolve s name⟩
  closure := by
    intro w s params body st site records
    refine ⟨_, w.le_withClosure _, records.newClosure params body (some s), ?_⟩
    exact records.newClosure_known params body fun u captured => Option.some.inj captured ▸ site
  scope := by
    intro w c st known records
    have fresh : st.scopes.size < w.withScope.scopes := by
      rw [records.size]
      exact Nat.lt_succ_self _
    exact ⟨w.withScope, w.le_withScope, records.newScope (known.within c rfl).2, fresh,
      fun _ _ => fresh⟩

structure Heap where
  store : Store
  held : List Value

namespace Heap

def Present (h : Heap) (c : Closure) : Prop :=
  (∃ s name, h.store.own? s name = some (.closure c)) ∨ .closure c ∈ h.held

/-- What a client can do. A declaration that fails changes nothing and is no step. -/
inductive Step (h : Heap) : Heap → Prop where
  | newScope {outer} : (∀ o, outer = some o → o < h.store.scopes.size) →
    Step h ⟨(h.store.newScope outer).2, h.held⟩
  | create {s name v store} : s < h.store.scopes.size → v ∈ h.held →
    h.store.create s name v = .ok store → Step h ⟨store, h.held⟩
  | update {s name v} : s < h.store.scopes.size → v ∈ h.held →
    Step h ⟨h.store.update s name v, h.held⟩
  | resolve {s name} : s < h.store.scopes.size → Step h ⟨h.store, h.store.resolve s name :: h.held⟩
  | scalar {v} : (∀ c, v ≠ .closure c) → Step h ⟨h.store, v :: h.held⟩
  | newClosure {params body scope} : (∀ o, scope = some o → o < h.store.scopes.size) →
    Step h ⟨(h.store.newClosure params body scope).2,
      .closure (h.store.newClosure params body scope).1 :: h.held⟩
  | value {n s t sink log v st} : s < h.store.scopes.size →
    eval n s t ⟨h.store, sink, log⟩ = .value v st → Step h ⟨st.store, v :: h.held⟩
  | fault {n s t sink log f st} : s < h.store.scopes.size →
    eval n s t ⟨h.store, sink, log⟩ = .fault f st → Step h ⟨st.store, h.held⟩

abbrev Steps : Heap → Heap → Prop := Relation.ReflTransGen Step

def initial : Heap := ⟨(Store.empty.newScope none).2, []⟩

def Reachable (h : Heap) : Prop := Steps initial h

structure Records (h : Heap) (w : History) : Prop where
  store : h.store.Records w
  held {v : Value} : v ∈ h.held → v.Known w

namespace Records

variable {h h' : Heap} {w : History}

theorem hold (records : h.Records w) {v : Value} (known : v.Known w) :
    Records ⟨h.store, v :: h.held⟩ w where
  store := records.store
  held := by
    intro u listed
    rcases List.mem_cons.mp listed with rfl | listed
    · exact known
    · exact records.held listed

theorem replace (records : h.Records w) {w' : History} {store : Store} (later : w ≤ w')
    (after : store.Records w') : Records ⟨store, h.held⟩ w' where
  store := after
  held listed := (records.held listed).mono later

theorem eval_ends (records : h.Records w) {n : Nat} {s : ScopeId} {t : Tree} {sink : Sink}
    {log : Array ArityMismatch} {o : Outcome Value} (inside : s < h.store.scopes.size)
    (ran : eval n s t ⟨h.store, sink, log⟩ = o) :
    Discipline.history.Ends w Discipline.history.value o := by
  rw [records.store.size] at inside
  have site : Discipline.history.site w s t := inside
  exact ran ▸ Discipline.eval_ends Discipline.history_lawful site records.store

theorem step (records : h.Records w) (step : Step h h') : ∃ w', w ≤ w' ∧ h'.Records w' := by
  have size := records.store.size
  cases step with
  | newScope there =>
    exact ⟨w.withScope, w.le_withScope, records.replace w.le_withScope
      (records.store.newScope fun o linked => size ▸ there o linked)⟩
  | @create s name v store _ listed created =>
    unfold Store.create at created
    split at created
    · cases created
    · cases created
      exact ⟨w, le_rfl, records.replace le_rfl (records.store.bindAt (records.held listed) s name)⟩
  | update _ listed =>
    exact ⟨w, le_rfl, records.replace le_rfl (records.store.bindAt (records.held listed) _ _)⟩
  | resolve _ => exact ⟨w, le_rfl, records.hold (records.store.resolve _ _)⟩
  | scalar scalar => exact ⟨w, le_rfl, records.hold (Value.known_of_scalar scalar)⟩
  | @newClosure params body scope there =>
    have after := records.store.newClosure params body scope
    exact ⟨_, w.le_withClosure _, (records.replace (w.le_withClosure _) after).hold
      (records.store.newClosure_known params body fun u captured => size ▸ there u captured)⟩
  | value inside ran =>
    obtain ⟨w', later, after, known⟩ := records.eval_ends inside ran
    exact ⟨w', later, (records.replace later after).hold known⟩
  | fault inside ran =>
    obtain ⟨w', later, after, -⟩ := records.eval_ends inside ran
    exact ⟨w', later, records.replace later after⟩

theorem steps (records : h.Records w) (steps : Steps h h') : ∃ w', w ≤ w' ∧ h'.Records w' := by
  induction steps with
  | refl => exact ⟨w, le_rfl, records⟩
  | tail _ next ih =>
    obtain ⟨w₁, earlier, records⟩ := ih
    obtain ⟨w₂, later, records⟩ := records.step next
    exact ⟨w₂, earlier.trans later, records⟩

theorem known (records : h.Records w) {c : Closure} (present : h.Present c) :
    (Value.closure c).Known w := by
  rcases present with ⟨s, name, bound⟩ | listed
  · exact records.store.known bound
  · exact records.held listed

theorem fresh (records : h.Records w) (run : Steps h h') {c : Closure} (present : h.Present c)
    (params : List Name) (body : Tree) (scope : Option ScopeId) :
    (Value.closure (h'.store.newClosure params body scope).1).same (.closure c) = false := by
  obtain ⟨w', later, records'⟩ := records.steps run
  have known := (records.known present).mono later
  have earlier : c.identity < w'.made.length := (known.within c rfl).1
  rw [← records'.store.nextIdentity] at earlier
  exact decide_eq_false earlier.ne'

theorem eq_of_identity (records : h.Records w) (run : Steps h h') {c d : Closure}
    (present : h.Present c) (present' : h'.Present d) (same : c.identity = d.identity) : c = d := by
  obtain ⟨w', later, records'⟩ := records.steps run
  -- Both stand in the later record, in the same place.
  have first := ((records.known present).mono later).recorded rfl
  have second := (records'.known present').recorded rfl
  rw [same] at first
  exact Option.some.inj (first.symm.trans second)

end Records

theorem initial_records : initial.Records ⟨1, []⟩ where
  store := by
    have empty : Store.empty.Records ⟨0, []⟩ :=
      { formed := ⟨nofun, nofun⟩, extent := rfl, recorded := nofun }
    exact empty.newScope nofun
  held := nofun

theorem Reachable.records {h : Heap} (reached : h.Reachable) : ∃ w, h.Records w := by
  obtain ⟨w, -, records⟩ := initial_records.steps reached
  exact ⟨w, records⟩

end Heap
end Treewalk

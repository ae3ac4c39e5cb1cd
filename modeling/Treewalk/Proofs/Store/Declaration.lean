import Treewalk.Proofs.Store.Assignment

/-! Declaration of a name. It fails exactly if the scope's own table binds the name already, and
then changes nothing. Otherwise it adds one binding to that table, which hides what further out
bears the name from everyone who comes by the scope on the way outward, and from nobody else. -/
namespace Treewalk.Store

variable {st st' st'' : Store} {s e : ScopeId} {name : Name} {v : Value}

structure SameBut (e : ScopeId) (st st' : Store) : Prop where
  size : st'.scopes.size = st.scopes.size
  nextIdentity : st'.nextIdentity = st.nextIdentity
  link (s : ScopeId) : st'.link? s = st.link? s
  other {s : ScopeId} : s ≠ e → st'.scopes[s]? = st.scopes[s]?

namespace SameBut

theorem refl (e : ScopeId) (st : Store) : st.SameBut e st where
  size := rfl
  nextIdentity := rfl
  link _ := rfl
  other _ := rfl

theorem trans (first : SameBut e st st') (second : SameBut e st' st'') : SameBut e st st'' where
  size := second.size.trans first.size
  nextIdentity := second.nextIdentity.trans first.nextIdentity
  link s := (second.link s).trans (first.link s)
  other apart := (second.other apart).trans (first.other apart)

theorem bindAt (st : Store) (e : ScopeId) (name : Name) (v : Value) :
    st.SameBut e (st.bindAt e name v) where
  size := size_bindAt ..
  nextIdentity := rfl
  link _ := link?_bindAt ..
  other apart := by rw [getElem?_bindAt, if_neg apart.symm]

end SameBut

/-- Walking outward from `s` leads to `e`, and no scope before `e` binds the name. -/
def Unshadowed (st : Store) (s : ScopeId) (name : Name) (e : ScopeId) : Prop :=
  ∃ k, st.hops k s = some e ∧ ∀ j < k, ∀ u, st.hops j s = some u → st.declares u name = false

/-- The second store has one more binding than the first, which is seen where nothing nearer binds
the name. -/
structure Declared (e : ScopeId) (name : Name) (v : Value) (st st' : Store) : Prop
    extends SameBut e st st' where
  own (m : Name) : st'.own? e m = if m = name then some v else st.own? e m
  seen {s : ScopeId} : st.Unshadowed s name e → st'.resolve s name = v
  unseen {s : ScopeId} {m : Name} : ¬(m = name ∧ st.Unshadowed s name e) →
    st'.resolve s m = st.resolve s m

theorem declares_iff : st.declares e name = true ↔ ∃ u, st.own? e name = some u :=
  Option.isSome_iff_exists

theorem create_eq_error_iff {f : Fault} :
    st.create e name v = .error f ↔ st.declares e name = true ∧ f = .alreadyDeclared name := by
  unfold create
  split
  · next bound => simp [bound, eq_comm]
  · next free => simp [free]

theorem create_eq_ok_iff :
    st.create e name v = .ok st' ↔ st.declares e name = false ∧ st' = st.bindAt e name v := by
  unfold create
  split
  · next bound => simp [bound]
  · next free => simp [free, eq_comm]

theorem WellFormed.nearest_bindAt_iff_unshadowed (formed : st.WellFormed)
    (there : e < st.scopes.size) :
    (st.bindAt e name v).Nearest s name e ↔ st.Unshadowed s name e := by
  have bound : (st.bindAt e name v).declares e name = true :=
    (declares_bindAt ..).mpr (.inl ⟨rfl, rfl, there⟩)
  simp only [Nearest, Unshadowed, hops_bindAt, bound, true_and]
  refine exists_congr fun k => and_congr_right fun reached => ?_
  refine forall₂_congr fun j earlier => forall₂_congr fun u passed => ?_
  -- No walk comes by a scope twice, so what is passed on the way is another one.
  have apart : u ≠ e := by
    rintro rfl
    exact earlier.ne (formed.hops_injective passed reached)
  rw [declares, own?_bindAt_other fun same => apart same.1, ← declares]

theorem WellFormed.declared_bindAt (formed : st.WellFormed) (there : e < st.scopes.size)
    (name : Name) (v : Value) : st.Declared e name v (st.bindAt e name v) where
  toSameBut := .bindAt st e name v
  own m := by
    rw [own?_bindAt]
    simp only [true_and, there, and_true]
  seen unshadowed := by
    refine (formed.rebinds_bindAt there name v).seen ?_
    exact (formed.nearest_bindAt_iff_unshadowed there).mpr unshadowed
  unseen := by
    intro s m hidden
    refine (formed.rebinds_bindAt there name v).unseen fun ⟨same, nearest⟩ => hidden ⟨same, ?_⟩
    exact (formed.nearest_bindAt_iff_unshadowed there).mp nearest

end Treewalk.Store

namespace Treewalk

/-- A declaration fails if and only if the scope's own table binds the name, to whatever value, and
then leaves everything as it was. Otherwise it changes the table of that scope only, and what is
seen from elsewhere exactly where the scope is not shadowed. -/
theorem declaration_binds_locally (st : State) (formed : st.store.WellFormed) (e : ScopeId)
    (there : e < st.store.scopes.size) (name : Name) (v : Value) :
    ((∃ f, st.store.create e name v = .error f) ↔ ∃ u, st.store.own? e name = some u) ∧
    (∀ f, st.store.create e name v = .error f →
      f.kind? = some .duplicateDeclaration ∧ Run.create e name v st = .fault f st) ∧
    ∀ store, st.store.create e name v = .ok store →
      Run.create e name v st = .value () { st with store } ∧
        st.store.Declared e name v store := by
  refine ⟨?_, fun f failed => ⟨?_, Run.create_of_error failed⟩, fun store created => ?_⟩
  · simp only [Store.create_eq_error_iff, exists_and_left, exists_eq, and_true]
    exact Store.declares_iff
  · obtain ⟨-, rfl⟩ := Store.create_eq_error_iff.mp failed
    rfl
  · refine ⟨Run.create_of_ok created, ?_⟩
    obtain ⟨-, rfl⟩ := Store.create_eq_ok_iff.mp created
    exact formed.declared_bindAt there name v

theorem shadowed_declared :
    Store.shadowed.WellFormed ∧
      (∃ f, Store.shadowed.create 0 "x" (.int 9) = .error f ∧
        f.kind? = some .duplicateDeclaration) ∧
      ∃ store, Store.shadowed.create 1 "x" (.int 9) = .ok store ∧
        store.resolve 1 "x" = .int 9 ∧ store.resolve 3 "x" = .int 9 ∧
        store.resolve 2 "x" = Store.shadowed.resolve 2 "x" ∧
        store.resolve 0 "x" = Store.shadowed.resolve 0 "x" := by
  have formed := Store.shadowed_wellFormed
  obtain ⟨fails, kind, -⟩ := declaration_binds_locally ⟨.shadowed, .unlimited, #[]⟩ formed 0
    (by decide) "x" (.int 9)
  obtain ⟨f, failed⟩ := fails.mpr ⟨.null, rfl⟩
  obtain ⟨-, -, declared⟩ := declaration_binds_locally ⟨.shadowed, .unlimited, #[]⟩ formed 1
    (by decide) "x" (.int 9)
  have created : Store.shadowed.create 1 "x" (.int 9)
      = .ok (Store.shadowed.bindAt 1 "x" (.int 9)) :=
    Store.create_eq_ok_iff.mpr ⟨by decide, rfl⟩
  obtain ⟨-, changed⟩ := declared _ created
  refine ⟨formed, ⟨f, failed, (kind f failed).1⟩, _, created, changed.seen ?_, changed.seen ?_,
    changed.unseen ?_, changed.unseen ?_⟩
  · exact ⟨0, by decide, fun j earlier => by omega⟩
  · refine ⟨1, by decide, fun j earlier u passed => ?_⟩
    obtain rfl : j = 0 := by omega
    cases passed
    decide
  · rintro ⟨-, k, reached, before⟩
    cases k with
    | zero => cases reached
    | succ k =>
      have shadow : Store.shadowed.declares 2 "x" = true := by decide
      cases shadow.symm.trans (before 0 (by omega) 2 rfl)
  · rintro ⟨-, k, reached, -⟩
    cases k <;> cases reached

end Treewalk

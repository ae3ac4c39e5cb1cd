import Mathlib.Data.List.Nodup
import Treewalk.Proofs.Eval.Adequacy
import Treewalk.Proofs.Store.Declaration

/-! How a call begins. Parameters are bound one after the other in a fresh scope, which can fail at
a parameter that repeats an earlier one and nowhere else. What was there before the call stays as
it was either way, and a wrong number of arguments is noted once. -/
namespace Treewalk

/-- The first parameter that repeats an earlier one. -/
def FirstRepeat (params : List Name) (p : Name) : Prop :=
  ∃ before after, params = before ++ p :: after ∧ p ∈ before ∧ before.Nodup

theorem FirstRepeat.not_nodup {params : List Name} {p : Name} (repeats : FirstRepeat params p) :
    ¬ params.Nodup := by
  obtain ⟨before, after, rfl, earlier, -⟩ := repeats
  intro distinct
  exact (List.nodup_append.mp distinct).2.2 p earlier p List.mem_cons_self rfl

/-- Each parameter is bound in the scope, to its argument or else to null, and nothing else is
changed. -/
structure Store.Filled (s : ScopeId) (params : List Name) (args : List Value) (st st' : Store) :
    Prop extends SameBut s st st' where
  bound {k : Nat} {p : Name} : params[k]? = some p → st'.own? s p = some (args[k]?.getD .null)
  free {name : Name} : name ∉ params → st'.own? s name = st.own? s name

/-- What the beginning of a call has done, whether it gets to the body or fails before. -/
structure State.Opening (c : Closure) (args : List Value) (st st' : State) : Prop where
  size : st'.store.scopes.size = st.store.scopes.size + 1
  old {u : ScopeId} : u < st.store.scopes.size → st'.store.scopes[u]? = st.store.scopes[u]?
  sink : st'.sink = st.sink
  noted : st'.mismatches.toList = st.mismatches.toList ++
    if c.params.length = args.length then [] else [⟨c.params.length, args.length⟩]

/-- The state in which a body is evaluated. Its scope is the one that was not there before. -/
structure State.Entered (c : Closure) (args : List Value) (st st' : State) : Prop
    extends Opening c args st st' where
  link : st'.store.link? st.store.scopes.size = c.scope
  outer : (∀ u, c.scope = some u → u < st.store.scopes.size) →
    st'.store.outer? st.store.scopes.size = c.scope
  bound {k : Nat} {p : Name} : c.params[k]? = some p →
    st'.store.own? st.store.scopes.size p = some (args[k]?.getD .null)
  only {name : Name} : name ∉ c.params → st'.store.own? st.store.scopes.size name = none

section Parameters

variable {s : ScopeId} {p : Name} {params : List Name} {args : List Value}

theorem Store.Filled.nil (s : ScopeId) (args : List Value) (st : Store) :
    st.Filled s [] args st where
  toSameBut := .refl s st
  bound found := by simp at found
  free _ := rfl

theorem Store.Filled.cons {st st' : Store} (there : s < st.scopes.size) (fresh : p ∉ params)
    (filled : (st.bindAt s p (args.headD .null)).Filled s params args.tail st') :
    st.Filled s (p :: params) args st' where
  toSameBut := (SameBut.bindAt st s p _).trans filled.toSameBut
  bound := by
    intro k q found
    cases k with
    | zero =>
      obtain rfl : p = q := by simpa using found
      rw [filled.free fresh, own?_bindAt_self there]
      cases args <;> rfl
    | succ k =>
      rw [filled.bound (by simpa using found)]
      cases args <;> simp
  free := by
    intro name other
    have beyond : name ∉ params := fun listed => other (List.mem_cons_of_mem p listed)
    have apart : name ≠ p := fun same => other (same ▸ List.mem_cons_self)
    rw [filled.free beyond, own?_bindAt_other fun same => apart same.2]

theorem bindParams_of_declared {st : State} (bound : st.store.declares s p = true) :
    bindParams s (p :: params) args st = .fault (.alreadyDeclared p) st :=
  Run.bind_of_fault (Run.create_of_error (Store.create_eq_error_iff.mpr ⟨bound, rfl⟩))

theorem bindParams_of_free {st : State} (free : st.store.declares s p = false) :
    bindParams s (p :: params) args st = bindParams s params args.tail
      { st with store := st.store.bindAt s p (args.headD .null) } :=
  Run.bind_of_value (Run.create_of_ok (Store.create_eq_ok_iff.mpr ⟨free, rfl⟩))

theorem bindParams_cases (params : List Name) (args : List Value) (st : State) {seen : List Name}
    (there : s < st.store.scopes.size)
    (declared : ∀ q, st.store.declares s q = true ↔ q ∈ seen) (distinct : seen.Nodup) :
    (∃ store, bindParams s params args st = .value () { st with store } ∧
      st.store.Filled s params args store ∧ (seen ++ params).Nodup) ∨
    ∃ q store, bindParams s params args st = .fault (.alreadyDeclared q) { st with store } ∧
      st.store.SameBut s store ∧ FirstRepeat (seen ++ params) q := by
  induction params generalizing args seen st with
  | nil => exact .inl ⟨st.store, rfl, .nil s args st.store, by simpa using distinct⟩
  | cons p params ih =>
    cases bound : st.store.declares s p with
    | true =>
      exact .inr ⟨p, st.store, bindParams_of_declared bound, .refl s st.store,
        seen, params, rfl, (declared p).mp bound, distinct⟩
    | false =>
      have fresh : p ∉ seen := fun listed => by simp [(declared p).mpr listed] at bound
      have more : ∀ q, (st.store.bindAt s p (args.headD .null)).declares s q = true
          ↔ q ∈ seen ++ [p] := by
        intro q
        rw [Store.declares_bindAt, declared q]
        simp [there, or_comm]
      have longer : (seen ++ [p]).Nodup := by
        refine List.nodup_append.mpr ⟨distinct, List.nodup_singleton p, fun q listed r here => ?_⟩
        rw [List.mem_singleton.mp here]
        exact fun same => fresh (same ▸ listed)
      rw [bindParams_of_free bound, List.append_cons seen p params]
      obtain ⟨store, ran, filled, whole⟩ | ⟨q, store, ran, same, repeats⟩ :=
        ih args.tail { st with store := st.store.bindAt s p (args.headD .null) }
          (by simpa using there) more longer
      · have once : p ∉ params := fun again =>
          (List.nodup_append.mp whole).2.2 p (by simp) p again rfl
        exact .inl ⟨store, ran, .cons there once filled, whole⟩
      · exact .inr ⟨q, store, ran, (Store.SameBut.bindAt st.store s p _).trans same, repeats⟩

end Parameters

section Calls

variable {c : Closure} {args : List Value} {st : State}

theorem State.link?_opened (st : State) (c : Closure) (given : Nat) :
    (st.opened c given).store.link? st.store.scopes.size = c.scope :=
  (Store.link?_newScope ..).trans (if_pos rfl)

theorem State.opening {store : Store}
    (same : (st.opened c args.length).store.SameBut st.store.scopes.size store) :
    Opening c args st { st.opened c args.length with store } where
  size := by simpa [opened] using same.size
  old := by
    intro u inside
    rw [same.other inside.ne]
    exact (Store.getElem?_newScope ..).trans (if_neg inside.ne)
  sink := rfl
  noted := by
    simp only [opened]
    split <;> simp

theorem State.entered {store : Store}
    (filled : (st.opened c args.length).store.Filled st.store.scopes.size c.params args store) :
    Entered c args st { st.opened c args.length with store } where
  toOpening := opening filled.toSameBut
  link := (filled.link _).trans (link?_opened ..)
  outer := by
    intro earlier
    rw [Store.outer?_eq_filter, filled.link, link?_opened]
    cases captured : c.scope with
    | none => rfl
    | some u => simp [earlier u captured]
  bound := filled.bound
  only other := by
    rw [filled.free other]
    exact (Store.own?_newScope ..).trans (Store.own?_fresh ..)

theorem enter_cases (c : Closure) (args : List Value) (st : State) :
    (∃ st', enter c args st = .value st.store.scopes.size st' ∧ State.Entered c args st st' ∧
      c.params.Nodup) ∨
    ∃ p st', enter c args st = .fault (.alreadyDeclared p) st' ∧ State.Opening c args st st' ∧
      FirstRepeat c.params p := by
  have there : st.store.scopes.size < (st.opened c args.length).store.scopes.size := by
    simp [State.opened]
  have nothing (q : Name) :
      (st.opened c args.length).store.declares st.store.scopes.size q = true ↔ q ∈ [] := by
    change ((st.store.newScope c.scope).2.own? st.store.scopes.size q).isSome = true ↔ q ∈ []
    rw [Store.own?_newScope, Store.own?_fresh]
    simp
  rw [enter_apply]
  obtain ⟨store, ran, filled, distinct⟩ | ⟨p, store, ran, same, repeats⟩ :=
    bindParams_cases c.params args _ there nothing List.nodup_nil
  · exact .inl ⟨_, Run.bind_of_value ran, State.entered filled, distinct⟩
  · exact .inr ⟨p, _, Run.bind_of_fault ran, State.opening same, repeats⟩

theorem Binds.entered {store : Store} (binds : Binds st.store.scopes.size c.params args
      (st.opened c args.length).store none store) :
    State.Entered c args st { st.opened c args.length with store } := by
  have ran : enter c args st
      = .value st.store.scopes.size { st.opened c args.length with store } := by
    rw [enter_apply]
    exact Run.bind_of_value binds.bindParams
  obtain ⟨st', ran', entered, -⟩ | ⟨p, st', ran', -⟩ := enter_cases c args st
  · cases ran.symm.trans ran'
    exact entered
  · cases ran.symm.trans ran'

end Calls

/-- Binding the arguments of a call fails exactly if the parameters repeat a name. It then blames
the first one that does, before anything is evaluated or printed and with all earlier scopes
unchanged. Otherwise the body is what is evaluated next, in a new scope around which lies the
captured one and which binds the parameters and nothing else. A note is taken once if there are too
few or too many arguments, and none if their number fits. -/
theorem arguments_bound_in_order (c : Closure) (args : List Value) (st : State) :
    ((∃ f st', enter c args st = .fault f st') ↔ ¬ c.params.Nodup) ∧
    (∀ f st', enter c args st = .fault f st' →
      f.kind? = some .duplicateDeclaration ∧
      (∃ p, FirstRepeat c.params p ∧ f = .alreadyDeclared p) ∧ State.Opening c args st st' ∧
      ∀ evaluate, invoke evaluate c args st = .fault f st') ∧
    (c.params.Nodup → ∃ st', State.Entered c args st st' ∧
      ∀ evaluate, invoke evaluate c args st = evaluate st.store.scopes.size c.body st') := by
  obtain ⟨st', ran, entered, distinct⟩ | ⟨p, st', ran, opening, repeats⟩ := enter_cases c args st
  · refine ⟨?_, ?_, fun _ => ⟨st', entered, fun evaluate => Run.bind_of_value ran⟩⟩
    · simp [ran, distinct]
    · simp [ran]
  · refine ⟨?_, ?_, fun distinct => absurd distinct repeats.not_nodup⟩
    · simp [ran, repeats.not_nodup]
    · intro f st'' failed
      cases ran.symm.trans failed
      exact ⟨rfl, ⟨p, repeats, rfl⟩, opening, fun evaluate => Run.bind_of_fault ran⟩

def Closure.repeating : Closure := ⟨7, ["a", "b", "a"], .print (.var "a"), none⟩

def Closure.pair : Closure := ⟨8, ["a", "b"], .var "b", some 0⟩

theorem pair_entered :
    (∃ st', enter .repeating [.int 1] ⟨.shadowed, .unlimited, #[]⟩
        = .fault (.alreadyDeclared "a") st' ∧
      st'.mismatches.toList = [⟨3, 1⟩] ∧ st'.store.scopes[2]? = Store.shadowed.scopes[2]?) ∧
    ∃ st', (∀ evaluate, invoke evaluate .pair [.int 1] ⟨.shadowed, .unlimited, #[]⟩
        = evaluate 4 (.var "b") st') ∧
      st'.store.own? 4 "a" = some (.int 1) ∧ st'.store.own? 4 "b" = some .null ∧
      st'.store.own? 4 "x" = none ∧ st'.store.outer? 4 = some 0 ∧
      st'.mismatches.toList = [⟨2, 1⟩] := by
  constructor
  · obtain ⟨-, blames, -⟩ := arguments_bound_in_order .repeating [.int 1]
      ⟨.shadowed, .unlimited, #[]⟩
    obtain ⟨-, -, opening, -⟩ := blames (.alreadyDeclared "a") _ rfl
    exact ⟨_, rfl, opening.noted, opening.old (by decide)⟩
  · obtain ⟨-, -, enters⟩ := arguments_bound_in_order .pair [.int 1] ⟨.shadowed, .unlimited, #[]⟩
    obtain ⟨st', entered, evaluates⟩ := enters (by decide)
    refine ⟨st', evaluates, entered.bound (k := 0) rfl, entered.bound (k := 1) rfl,
      entered.only (by decide), entered.outer ?_, entered.noted⟩
    rintro u captured
    cases captured
    decide

end Treewalk

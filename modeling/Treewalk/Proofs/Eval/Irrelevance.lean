import Treewalk.Proofs.Eval.Growth
import Treewalk.Proofs.Store.Declaration

/-! Names that a program does not mention. A binding of such a name can be added to any scope, also
to one that the program reads and writes, and nothing comes of it: the program and the functions it
calls look up and bind other names only, and so do the functions that they make. -/
namespace Treewalk

namespace Tree

mutual

def names : Tree → List Name
  | .missing | .atom _ _ => []
  | .var name => [name]
  | .print operand => operand.names
  | .binary left _ right => left.names ++ right.names
  | .ifElse condition thenDo elseDo => condition.names ++ thenDo.names ++ elseDo.names
  | .loop condition body => condition.names ++ body.names
  | .seq first second => first.names ++ second.names
  | .declare name init => name :: init.names
  | .assign name expr => name :: expr.names
  | .function params body => params ++ body.names
  | .call callee args => callee.names ++ namesOfAll args

def namesOfAll : List Tree → List Name
  | [] => []
  | t :: rest => t.names ++ namesOfAll rest

end

theorem names_subset_namesOfAll {t : Tree} {trees : List Tree} (listed : t ∈ trees) :
    t.names ⊆ namesOfAll trees := by
  induction trees with
  | nil => cases listed
  | cons u rest ih =>
    rw [namesOfAll]
    rcases List.mem_cons.mp listed with rfl | listed
    · exact List.subset_append_left _ _
    · exact List.Subset.trans (ih listed) (List.subset_append_right _ _)

theorem names_subset_of_part {t u : Tree} (inside : u ∈ t.parts) : u.names ⊆ t.names := by
  cases t with
  | call callee args =>
    rw [names]
    rcases List.mem_cons.mp inside with rfl | listed
    · exact List.subset_append_left _ _
    · exact List.Subset.trans (names_subset_namesOfAll listed) (List.subset_append_right _ _)
  | ifElse condition thenDo elseDo =>
    cases elseDo <;> simp only [parts, List.mem_cons, List.not_mem_nil, or_false] at inside <;>
      rcases inside with rfl | rfl | rfl <;> simp [names]
  | binary | loop | seq =>
    simp only [parts, List.mem_cons, List.not_mem_nil, or_false] at inside
    rcases inside with rfl | rfl <;> simp [names]
  | print | declare | assign =>
    rw [List.mem_singleton.mp inside]
    simp [names]
  | missing | atom | var | function => cases inside

end Tree

def Closure.names (c : Closure) : List Name := c.params ++ c.body.names

/-- The value is not a closure in which the name occurs. -/
def Value.Avoids (x : Name) (v : Value) : Prop := ∀ c, v = .closure c → x ∉ c.names

def Store.Avoids (x : Name) (st : Store) : Prop :=
  ∀ s name v, st.own? s name = some v → v.Avoids x

theorem Value.avoids_of_scalar {x : Name} {v : Value} (scalar : ∀ c, v ≠ .closure c) :
    v.Avoids x :=
  fun c closure => absurd closure (scalar c)

namespace Store

theorem Avoids.resolve {x : Name} {st : Store} (avoids : st.Avoids x) (s : ScopeId)
    (name : Name) : (st.resolve s name).Avoids x := by
  obtain null | ⟨t, -, bound⟩ := st.resolve_cases s name
  · rw [null]
    exact Value.avoids_of_scalar (by simp)
  · exact avoids t name _ bound

theorem Avoids.bindAt {x : Name} {st : Store} {v : Value} (avoids : st.Avoids x)
    (value : v.Avoids x) (s : ScopeId) (name : Name) : (st.bindAt s name v).Avoids x := by
  intro t other u bound
  obtain ⟨-, -, rfl⟩ | bound := own?_of_bindAt bound
  · exact value
  · exact avoids t other u bound

/-- The second store differs from the first in one binding more. -/
structure Extra (e : ScopeId) (x : Name) (v : Value) (st st' : Store) : Prop
    extends SameBut e st st' where
  free : st.own? e x = none
  bound : st'.own? e x = some v
  own {m : Name} : m ≠ x → st'.own? e m = st.own? e m

variable {e : ScopeId} {x : Name} {v : Value} {st st' : Store}

theorem extra_bindAt (there : e < st.scopes.size) (free : st.declares e x = false) (v : Value) :
    st.Extra e x v (st.bindAt e x v) where
  toSameBut := .bindAt st e x v
  free := by simpa [declares] using free
  bound := own?_bindAt_self there
  own apart := own?_bindAt_other fun same => apart same.2

namespace Extra

theorem own_eq (extra : st.Extra e x v st') {m : Name} (apart : m ≠ x) (s : ScopeId) :
    st'.own? s m = st.own? s m := by
  by_cases here : s = e
  · rw [here, extra.own apart]
  · rw [own?, own?, extra.other here]

theorem declares_eq (extra : st.Extra e x v st') {m : Name} (apart : m ≠ x) (s : ScopeId) :
    st'.declares s m = st.declares s m := by
  rw [declares, declares, extra.own_eq apart]

theorem chain_eq (extra : st.Extra e x v st') (s : ScopeId) : st'.chain s = st.chain s :=
  chain_congr fun t _ => extra.link t

theorem resolve_eq (extra : st.Extra e x v st') {m : Name} (apart : m ≠ x) (s : ScopeId) :
    st'.resolve s m = st.resolve s m := by
  simp only [resolve, lookup?, extra.chain_eq, extra.own_eq apart]

theorem target_eq (extra : st.Extra e x v st') {m : Name} (apart : m ≠ x) (s : ScopeId) :
    st'.target s m = st.target s m := by
  simp only [target, global, extra.chain_eq, extra.declares_eq apart]

theorem bindAt (extra : st.Extra e x v st') {m : Name} (apart : m ≠ x) (s : ScopeId)
    (a : Value) : (st.bindAt s m a).Extra e x v (st'.bindAt s m a) where
  size := by simp only [size_bindAt, extra.size]
  nextIdentity := extra.nextIdentity
  link t := by rw [link?_bindAt, link?_bindAt, extra.link]
  other := by
    intro t away
    rw [getElem?_bindAt, getElem?_bindAt, extra.other away]
  free := (own?_bindAt_other fun same => apart same.2.symm).trans extra.free
  bound := (own?_bindAt_other fun same => apart same.2.symm).trans extra.bound
  own := by
    intro other away
    rw [own?_bindAt, own?_bindAt, extra.size, extra.own away]

theorem newScope (extra : st.Extra e x v st') (outer : Option ScopeId) :
    (st.newScope outer).2.Extra e x v (st'.newScope outer).2 where
  size := by rw [size_newScope, size_newScope, extra.size]
  nextIdentity := extra.nextIdentity
  link t := by rw [link?_newScope, link?_newScope, extra.size, extra.link]
  other := by
    intro t away
    rw [getElem?_newScope, getElem?_newScope, extra.size, extra.other away]
  free := (own?_newScope ..).trans extra.free
  bound := (own?_newScope ..).trans extra.bound
  own away := by rw [own?_newScope, own?_newScope, extra.own away]

theorem newClosure (extra : st.Extra e x v st') (params : List Name) (body : Tree)
    (scope : Option ScopeId) :
    (st.newClosure params body scope).2.Extra e x v (st'.newClosure params body scope).2 where
  size := extra.size
  nextIdentity := congrArg (· + 1) extra.nextIdentity
  link := extra.link
  other := extra.other
  free := extra.free
  bound := extra.bound
  own := extra.own

end Extra
end Store

structure State.Extra (e : ScopeId) (x : Name) (v : Value) (st st' : State) : Prop where
  store : st.store.Extra e x v st'.store
  sink : st'.sink = st.sink
  mismatches : st'.mismatches = st.mismatches

def Coupling.extra (e : ScopeId) (x : Name) (v : Value) : Coupling Timeless where
  state _ st₁ st₂ := st₁.Extra e x v st₂ ∧ st₁.store.Avoids x
  value _ a b := a = b ∧ a.Avoids x
  site _ s₁ s₂ t := s₁ = s₂ ∧ x ∉ t.names
  binder _ s₁ s₂ name := s₁ = s₂ ∧ name ≠ x
  fault := Eq

namespace Coupling

theorem extra_lawful (e : ScopeId) (x : Name) (v : Value) : (extra e x v).Lawful where
  value_mono _ value := value
  site_mono _ site := site
  binder_mono _ binder := binder
  part := fun ⟨same, unread⟩ inside => ⟨same, fun listed =>
    unread (Tree.names_subset_of_part inside listed)⟩
  declared := by
    rintro _ s _ name init ⟨rfl, unread⟩
    exact ⟨rfl, fun same => unread (by simp [Tree.names, same])⟩
  null := ⟨rfl, Value.avoids_of_scalar (by simp)⟩
  missing _ := rfl
  literal := by
    intro _ s₁ s₂ type lexeme st₁ st₂ _ coupled
    exact Ends.lift coupled (fun a read => ⟨rfl, Value.avoids_of_scalar (literal_ok read)⟩)
      fun _ _ => rfl
  resolve := by
    rintro _ s _ name st₁ st₂ ⟨rfl, unread⟩ ⟨extra, avoids⟩
    have apart : name ≠ x := fun same => unread (by simp [Tree.names, same])
    exact ⟨(extra.store.resolve_eq apart s).symm, avoids.resolve s name⟩
  print := by
    rintro _ a _ st₁ st₂ ⟨rfl, _⟩ ⟨extra, avoids⟩
    unfold Run.print
    rw [extra.sink]
    cases st₁.sink.write? a.text with
    | some sink =>
      exact .value ⟨⟨⟩, le_rfl, ⟨⟨extra.store, rfl, extra.mismatches⟩, avoids⟩, trivial⟩
    | none => exact .fault ⟨⟨⟩, le_rfl, ⟨extra, avoids⟩, rfl⟩
  operate := by
    rintro _ op a _ b _ st₁ st₂ ⟨rfl, _⟩ ⟨rfl, _⟩ coupled
    refine Ends.lift coupled (fun u computed => ⟨rfl, Value.avoids_of_scalar ?_⟩) fun _ _ => rfl
    exact operate_ok computed
  truth := by
    rintro _ condition a _ st₁ st₂ ⟨rfl, _⟩ coupled
    exact Ends.lift coupled (fun _ _ => rfl) fun _ _ => rfl
  create := by
    rintro _ s _ name a _ st₁ st₂ ⟨rfl, apart⟩ ⟨rfl, value⟩ ⟨extra, avoids⟩
    unfold Run.create
    rw [extra.store.declares_eq apart]
    split
    · exact .fault ⟨⟨⟩, le_rfl, ⟨extra, avoids⟩, rfl⟩
    · exact .value ⟨⟨⟩, le_rfl, ⟨⟨extra.store.bindAt apart s a, extra.sink, extra.mismatches⟩,
        avoids.bindAt value s name⟩, trivial⟩
  assign := by
    rintro _ s _ name expr a _ st₁ st₂ ⟨rfl, unread⟩ ⟨rfl, value⟩ ⟨extra, avoids⟩
    have apart : name ≠ x := fun same => unread (by simp [Tree.names, same])
    -- The assignment goes to the same scope on both sides, be it the one with the extra binding.
    have after := extra.store.bindAt apart (st₁.store.target s name) a
    rw [← Store.update, ← extra.store.target_eq apart, ← Store.update] at after
    have kept : (st₁.store.update s name a).Avoids x := avoids.bindAt value _ name
    exact .value ⟨⟨⟩, le_rfl, ⟨⟨after, extra.sink, extra.mismatches⟩, kept⟩,
      (after.resolve_eq apart s).symm, kept.resolve s name⟩
  closure := by
    rintro _ s _ params body st₁ st₂ ⟨rfl, unread⟩ ⟨extra, avoids⟩
    have after := extra.store.newClosure params body (some s)
    refine .value ⟨⟨⟩, le_rfl, ⟨⟨after, extra.sink, extra.mismatches⟩, avoids⟩, ?_, ?_⟩
    · exact congrArg (fun i => Value.closure ⟨i, params, body, some s⟩)
        extra.store.nextIdentity.symm
    · intro c made
      cases made
      exact unread
  callable := by
    rintro _ a _ ⟨rfl, _⟩
    cases a with
    | closure c => exact .inl ⟨c, c, rfl, rfl, rfl, rfl⟩
    | _ => exact .inr ⟨by simp, by simp, fun callee => rfl⟩
  mismatch := by
    rintro _ st₁ st₂ params args ⟨extra, avoids⟩
    unfold Run.noteMismatch
    rw [extra.mismatches]
    split
    · exact .value ⟨⟨⟩, le_rfl, ⟨extra, avoids⟩, trivial⟩
    · exact .value ⟨⟨⟩, le_rfl, ⟨⟨extra.store, extra.sink, rfl⟩, avoids⟩, trivial⟩
  scope := by
    rintro _ c _ st₁ st₂ ⟨same, value⟩ ⟨extra, avoids⟩
    cases same
    have unread : ¬(x ∈ c.params ∨ x ∈ c.body.names) :=
      fun listed => value c rfl (List.mem_append.mpr listed)
    have opened : (st₁.store.newScope c.scope).2.Avoids x := by
      intro t name u bound
      rw [Store.own?_newScope] at bound
      exact avoids t name u bound
    exact .value ⟨⟨⟩, le_rfl, ⟨⟨extra.store.newScope c.scope, extra.sink, extra.mismatches⟩,
      opened⟩, ⟨extra.store.size.symm, fun listed => unread (.inr listed)⟩,
      fun p listed => ⟨extra.store.size.symm, fun same => unread (.inl (same ▸ listed))⟩⟩

end Coupling

/-- A name that occurs neither in a tree nor in any closure at hand can be bound in any scope to
anything: the tree is evaluated as before, step for step, and the binding is still there
afterwards as the only difference. -/
theorem unmentioned_binding_irrelevant (n : Nat) (t : Tree) (e s : ScopeId) (x : Name) (v : Value)
    (st : State) (unread : x ∉ t.names) (avoids : st.store.Avoids x)
    (there : s < st.store.scopes.size) (free : st.store.declares s x = false) :
    Outcome.Rel (fun a b st₁ st₂ => a = b ∧ st₁.Extra s x v st₂)
      (fun f g st₁ st₂ => f = g ∧ st₁.Extra s x v st₂)
      (eval n e t st) (eval n e t { st with store := st.store.bindAt s x v }) := by
  have start : State.Extra s x v st { st with store := st.store.bindAt s x v } :=
    ⟨Store.extra_bindAt there free v, rfl, rfl⟩
  have ends := Coupling.eval_ends (Coupling.extra_lawful s x v) n ⟨⟩ e e t st _ ⟨rfl, unread⟩
    ⟨start, avoids⟩
  generalize eval n e t st = o₁ at ends
  generalize eval n e t { st with store := st.store.bindAt s x v } = o₂ at ends
  cases ends with
  | value h =>
    obtain ⟨-, -, ⟨extra, -⟩, same, -⟩ := h
    exact .value ⟨same, extra⟩
  | fault h =>
    obtain ⟨-, -, ⟨extra, -⟩, same⟩ := h
    exact .fault ⟨same, extra⟩
  | exhausted => exact .exhausted

theorem Store.setter_avoids : Store.setter.Avoids "x" := by
  intro s name v bound c closure
  obtain ⟨scope, found, bound⟩ := Option.bind_eq_some_iff.mp bound
  have listed := Array.mem_of_getElem? found
  simp only [setter, List.mem_toArray, List.mem_cons, List.not_mem_nil, or_false] at listed
  subst closure
  rcases listed with rfl | rfl | rfl
  · rw [Scope.get?, Table.lookup_cons_eq_ite] at bound
    split at bound <;> cases bound
    decide
  · cases bound
  · cases bound

theorem setter_ignores_binding :
    Text.ofString "x" ∉ Tree.callSetter.names ∧ Store.setter.Avoids "x" ∧
      ∃ v st₁ st₂, eval 9 1 .callSetter ⟨.setter, .unlimited, #[]⟩ = .value v st₁ ∧
        eval 9 1 .callSetter
          ⟨Store.setter.bindAt 2 "x" (.closure ⟨1, ["x"], .var "x", none⟩), .unlimited, #[]⟩
          = .value v st₂ ∧
        State.Extra 2 "x" (.closure ⟨1, ["x"], .var "x", none⟩) st₁ st₂ := by
  have unread : Text.ofString "x" ∉ Tree.callSetter.names := by decide
  have passed : (eval 9 1 .callSetter ⟨.setter, .unlimited, #[]⟩).passes (fun _ _ => true)
      = true := by decide +kernel
  obtain ⟨v, st₁, ran, -⟩ := Outcome.exists_of_passes passed
  have related := unmentioned_binding_irrelevant 9 .callSetter 1 2 "x"
    (.closure ⟨1, ["x"], .var "x", none⟩) ⟨.setter, .unlimited, #[]⟩ unread Store.setter_avoids
    (by decide) (by decide)
  rw [ran] at related
  generalize eval 9 1 .callSetter
    ⟨Store.setter.bindAt 2 "x" (.closure ⟨1, ["x"], .var "x", none⟩), .unlimited, #[]⟩ = o
    at related
  cases related with
  | value h =>
    obtain ⟨rfl, extra⟩ := h
    exact ⟨unread, Store.setter_avoids, v, st₁, _, ran, rfl, extra⟩

end Treewalk

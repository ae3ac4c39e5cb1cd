import Treewalk.Proofs.Store.Pairing
import Treewalk.Proofs.Store.WellFormed

/-! Evaluation sees the shape of the scopes it can reach and nothing else. In two graphs whose
reachable parts are isomorphic, a tree prints the same lines, ends in the same way with
isomorphic values or equal faults, and leaves reachable parts that are isomorphic again, by a
pairing that extends the first. Places and identities themselves are never seen. -/
namespace Treewalk

/-- The pairing is an isomorphism between the parts of two graphs that two scopes reach. -/
structure Pairing.Isomorphism (p : Pairing) (st₁ : Store) (e₁ : ScopeId) (st₂ : Store)
    (e₂ : ScopeId) : Prop where
  start : p.scope e₁ e₂
  scope_unique : Relator.BiUnique p.scope
  identity_unique : Relator.BiUnique p.identity
  scopes_left {a : ScopeId} : (∃ b, p.scope a b) ↔ st₁.Reach {e₁} a
  scopes_right {b : ScopeId} : (∃ a, p.scope a b) ↔ st₂.Reach {e₂} b
  identities_left {i : Nat} : (∃ j, p.identity i j) ↔ st₁.Holds {e₁} i
  identities_right {j : Nat} : (∃ i, p.identity i j) ↔ st₂.Holds {e₂} j
  outer {a b : ScopeId} : p.scope a b → Option.Rel p.scope (st₁.outer? a) (st₂.outer? b)
  own {a b : ScopeId} : p.scope a b → ∀ name,
    Option.Rel p.Values (st₁.own? a name) (st₂.own? b name)

def Pairing.within (p : Pairing) (st₁ : Store) (e₁ : ScopeId) (st₂ : Store) (e₂ : ScopeId) :
    Pairing where
  scope a b := p.scope a b ∧ st₁.Reach {e₁} a ∧ st₂.Reach {e₂} b
  identity i j := p.identity i j ∧ st₁.Holds {e₁} i ∧ st₂.Holds {e₂} j

theorem Store.WellFormed.reach_lt {st : Store} {e s : ScopeId} (formed : st.WellFormed)
    (there : e < st.scopes.size) (reached : st.Reach {e} s) : s < st.scopes.size := by
  refine reached.mem_of_closed (R := { u | u < st.scopes.size }) (fun s listed => ?_) ?_
  · exact listed ▸ there
  · intro s inside u linked
    cases linked with
    | outer found => exact (Store.outer?_lt found).trans inside
    | @captured name v bound captured =>
      have within := formed.stored bound
      cases v with
      | closure c => exact (within c rfl).2 u captured
      | _ => cases captured

theorem Store.WellFormed.holds_lt {st : Store} {roots : Set ScopeId} {i : Nat}
    (formed : st.WellFormed) (held : st.Holds roots i) : i < st.nextIdentity := by
  obtain ⟨s, name, c, -, bound, rfl⟩ := held
  exact (formed.stored bound c rfl).1

namespace Pairing

variable {p q : Pairing} {st₁ st₂ : Store} {e₁ e₂ : ScopeId}

theorem Isomorphism.couples (iso : p.Isomorphism st₁ e₁ st₂ e₂) (formed₁ : st₁.WellFormed)
    (formed₂ : st₂.WellFormed) (there₁ : e₁ < st₁.scopes.size) (there₂ : e₂ < st₂.scopes.size) :
    p.Couples st₁ st₂ where
  scope_unique := iso.scope_unique
  identity_unique := iso.identity_unique
  scope_lt h := ⟨formed₁.reach_lt there₁ (iso.scopes_left.mp ⟨_, h⟩),
    formed₂.reach_lt there₂ (iso.scopes_right.mp ⟨_, h⟩)⟩
  identity_lt h := ⟨formed₁.holds_lt (iso.identities_left.mp ⟨_, h⟩),
    formed₂.holds_lt (iso.identities_right.mp ⟨_, h⟩)⟩
  outer := iso.outer
  own := iso.own

theorem Values.within {a b : ScopeId} {name : Name} {v w : Value} (paired : q.Values v w)
    (reached₁ : st₁.Reach {e₁} a) (reached₂ : st₂.Reach {e₂} b)
    (bound₁ : st₁.own? a name = some v) (bound₂ : st₂.own? b name = some w) :
    (q.within st₁ e₁ st₂ e₂).Values v w := by
  cases paired with
  | int n => exact .int n
  | bool b => exact .bool b
  | null => exact .null
  | @closure c d identity params body scope =>
    refine .closure ⟨identity, ⟨a, name, c, reached₁, bound₁, rfl⟩,
      ⟨b, name, d, reached₂, bound₂, rfl⟩⟩ params body ?_
    cases captured : c.scope with
    | none =>
      rw [eq_none_of_rel scope captured]
      exact .none
    | some u =>
      obtain ⟨u', captured', further⟩ := exists_of_rel scope captured
      rw [captured']
      exact .some ⟨further, reached₁.link (.captured bound₁ captured),
        reached₂.link (.captured bound₂ captured')⟩

theorem Couples.isomorphism (coupled : q.Couples st₁ st₂) (start : q.scope e₁ e₂) :
    (q.within st₁ e₁ st₂ e₂).Isomorphism st₁ e₁ st₂ e₂ where
  start := ⟨start, .root rfl, .root rfl⟩
  scope_unique := ⟨fun _ _ _ x y => coupled.scope_unique.1 x.1 y.1,
    fun _ _ _ x y => coupled.scope_unique.2 x.1 y.1⟩
  identity_unique := ⟨fun _ _ _ x y => coupled.identity_unique.1 x.1 y.1,
    fun _ _ _ x y => coupled.identity_unique.2 x.1 y.1⟩
  scopes_left := by
    intro a
    refine ⟨fun ⟨b, h⟩ => h.2.1, fun reached => ?_⟩
    obtain ⟨b, paired, reached'⟩ := coupled.reach start reached
    exact ⟨b, paired, reached, reached'⟩
  scopes_right := by
    intro b
    refine ⟨fun ⟨a, h⟩ => h.2.2, fun reached => ?_⟩
    obtain ⟨a, paired, reached'⟩ := coupled.swap.reach start reached
    exact ⟨a, paired, reached', reached⟩
  identities_left := by
    intro i
    refine ⟨fun ⟨j, h⟩ => h.2.1, fun held => ?_⟩
    obtain ⟨a, name, c, reached, bound, rfl⟩ := held
    obtain ⟨b, paired, reached'⟩ := coupled.reach start reached
    obtain ⟨w, bound', value⟩ := exists_of_rel (coupled.own paired name) bound
    have inside := value.within reached reached' bound bound'
    cases inside with
    | closure identity _ _ _ => exact ⟨_, identity⟩
  identities_right := by
    intro j
    refine ⟨fun ⟨i, h⟩ => h.2.2, fun held => ?_⟩
    obtain ⟨b, name, d, reached', bound', rfl⟩ := held
    obtain ⟨a, paired, reached⟩ := coupled.swap.reach start reached'
    obtain ⟨v, bound, value⟩ := exists_of_rel (coupled.swap.own paired name) bound'
    have inside := value.swap.within reached reached' bound bound'
    cases inside with
    | closure identity _ _ _ => exact ⟨_, identity⟩
  outer := by
    intro a b h
    obtain ⟨paired, reached, reached'⟩ := h
    cases linked : st₁.outer? a with
    | none =>
      rw [eq_none_of_rel (coupled.outer paired) linked]
      exact .none
    | some o =>
      obtain ⟨o', linked', further⟩ := exists_of_rel (coupled.outer paired) linked
      rw [linked']
      exact .some ⟨further, reached.link (.outer linked), reached'.link (.outer linked')⟩
  own := by
    intro a b h name
    obtain ⟨paired, reached, reached'⟩ := h
    cases bound : st₁.own? a name with
    | none =>
      rw [eq_none_of_rel (coupled.own paired name) bound]
      exact .none
    | some v =>
      obtain ⟨w, bound', value⟩ := exists_of_rel (coupled.own paired name) bound
      rw [bound']
      exact .some (value.within reached reached' bound bound')

end Pairing

/-- Two evaluations in coupled graphs that print to equal sinks. -/
def Coupling.paired : Coupling Pairing where
  state p st₁ st₂ :=
    p.Couples st₁.store st₂.store ∧ st₁.sink = st₂.sink ∧ st₁.mismatches = st₂.mismatches
  value p := p.Values
  site p s₁ s₂ _ := p.scope s₁ s₂
  binder p s₁ s₂ _ := p.scope s₁ s₂
  fault := Eq

namespace Pairing.Values

variable {p : Pairing} {a b : Value}

theorem of_scalar {v : Value} (scalar : ∀ c, v ≠ .closure c) : p.Values v v := by
  cases v with
  | int n => exact .int n
  | bool b => exact .bool b
  | null => exact .null
  | closure c => exact absurd rfl (scalar c)

theorem operate_eq {a₁ a₂ b₁ b₂ : Value} (first : p.Values a₁ a₂) (second : p.Values b₁ b₂)
    (op : Text) : Value.operate op a₁ b₁ = Value.operate op a₂ b₂ := by
  have texts := first.text_eq
  have texts' := second.text_eq
  cases first <;> cases second <;> simp only [Value.operate, texts, texts']

theorem truthOf_eq (paired : p.Values a b) (condition : Tree) :
    truthOf condition a = truthOf condition b := by
  have texts := paired.text_eq
  cases paired <;> simp only [truthOf, texts]

end Pairing.Values

namespace Coupling

theorem paired_lawful : paired.Lawful where
  value_mono := Pairing.Values.mono
  site_mono later site := later.1 _ _ site
  binder_mono later binder := later.1 _ _ binder
  part site _ := site
  declared site := site
  null := .null
  missing _ := rfl
  literal _ coupled :=
    Ends.lift coupled (fun v read => .of_scalar (literal_ok read)) fun _ _ => rfl
  resolve site coupled := coupled.1.resolve site _
  print := by
    intro p a b st₁ st₂ value coupled
    obtain ⟨stores, sinks, logs⟩ := coupled
    unfold Run.print
    rw [value.text_eq, sinks]
    cases st₂.sink.write? b.text with
    | some sink => exact .value ⟨p, le_rfl, ⟨stores, rfl, logs⟩, trivial⟩
    | none => exact .fault ⟨p, le_rfl, ⟨stores, sinks, logs⟩, rfl⟩
  operate := by
    intro p op a₁ a₂ b₁ b₂ st₁ st₂ first second coupled
    rw [first.operate_eq second op]
    exact Ends.lift coupled (fun v computed => .of_scalar (operate_ok computed)) fun _ _ => rfl
  truth := by
    intro p condition a b st₁ st₂ value coupled
    rw [value.truthOf_eq condition]
    exact Ends.lift coupled (fun _ _ => rfl) fun _ _ => rfl
  create := by
    intro p s₁ s₂ name a b st₁ st₂ binder value coupled
    obtain ⟨stores, sinks, logs⟩ := coupled
    unfold Run.create
    rw [stores.declares_eq binder name]
    split
    · exact .fault ⟨p, le_rfl, ⟨stores, sinks, logs⟩, rfl⟩
    · exact .value ⟨p, le_rfl, ⟨stores.bindAt binder value name, sinks, logs⟩, trivial⟩
  assign := by
    intro p s₁ s₂ name expr a b st₁ st₂ site value coupled
    obtain ⟨stores, sinks, logs⟩ := coupled
    have after := stores.bindAt (stores.target site name) value name
    exact .value ⟨p, le_rfl, ⟨after, sinks, logs⟩, after.resolve site name⟩
  closure := by
    intro p s₁ s₂ params body st₁ st₂ site coupled
    obtain ⟨stores, sinks, logs⟩ := coupled
    have after := stores.newClosure params body (some s₁) (some s₂)
    refine .value ⟨_, p.le_joinIdentities _ _, ⟨after, sinks, logs⟩, ?_⟩
    exact .closure (.inr ⟨rfl, rfl⟩) rfl rfl (.some site)
  callable := by
    intro p a b value
    cases value with
    | closure _ params body _ => exact .inl ⟨_, _, rfl, rfl, params, body⟩
    | _ => exact .inr ⟨nofun, nofun, fun callee => rfl⟩
  mismatch := by
    intro p st₁ st₂ params args coupled
    obtain ⟨stores, sinks, logs⟩ := coupled
    unfold Run.noteMismatch
    rw [logs]
    split
    · exact .value ⟨p, le_rfl, ⟨stores, sinks, logs⟩, trivial⟩
    · exact .value ⟨p, le_rfl, ⟨stores, sinks, rfl⟩, trivial⟩
  scope := by
    intro p c d st₁ st₂ value coupled
    obtain ⟨stores, sinks, logs⟩ := coupled
    cases value with
    | closure _ _ _ scope =>
      have fresh : (p.joinScopes st₁.store.scopes.size st₂.store.scopes.size).scope
          st₁.store.scopes.size st₂.store.scopes.size := .inr ⟨rfl, rfl⟩
      exact .value ⟨_, p.le_joinScopes _ _, ⟨stores.newScope scope, sinks, logs⟩, fresh,
        fun _ _ => fresh⟩

end Coupling

/-- States with the same output whose reachable parts are isomorphic, by a pairing that extends
`p` and relates the results as well. -/
def Pairing.Agree (p : Pairing) (e₁ e₂ : ScopeId) (results : Pairing → Prop)
    (st₁ st₂ : State) : Prop :=
  st₁.sink = st₂.sink ∧ st₁.mismatches = st₂.mismatches ∧
    ∃ q, p ≤ q ∧ Relator.BiUnique q.scope ∧ Relator.BiUnique q.identity ∧
      (q.within st₁.store e₁ st₂.store e₂).Isomorphism st₁.store e₁ st₂.store e₂ ∧ results q

/-- Evaluations in scopes with isomorphic reach go the same way and end in isomorphic graphs. -/
theorem isomorphic_evaluations (st₁ st₂ : State) {p : Pairing} {e₁ e₂ : ScopeId}
    (iso : p.Isomorphism st₁.store e₁ st₂.store e₂)
    (formed₁ : st₁.store.WellFormed) (formed₂ : st₂.store.WellFormed)
    (there₁ : e₁ < st₁.store.scopes.size) (there₂ : e₂ < st₂.store.scopes.size)
    (sinks : st₁.sink = st₂.sink) (logs : st₁.mismatches = st₂.mismatches) (n : Nat) (t : Tree) :
    Outcome.Rel
      (fun v₁ v₂ st₁' st₂' =>
        v₁.text = v₂.text ∧ p.Agree e₁ e₂ (fun q => q.Values v₁ v₂) st₁' st₂')
      (fun f₁ f₂ st₁' st₂' => f₁.kind? = f₂.kind? ∧ f₁.message = f₂.message ∧
        p.Agree e₁ e₂ (fun _ => True) st₁' st₂')
      (eval n e₁ t st₁) (eval n e₂ t st₂) := by
  have coupled := iso.couples formed₁ formed₂ there₁ there₂
  have agree : ∀ q (st₁' st₂' : State) (results : Pairing → Prop), p ≤ q →
      Coupling.paired.state q st₁' st₂' → results q → p.Agree e₁ e₂ results st₁' st₂' := by
    intro q st₁' st₂' results later after related
    obtain ⟨stores, sinks, logs⟩ := after
    exact ⟨sinks, logs, q, later, stores.scope_unique, stores.identity_unique,
      stores.isomorphism (later.1 _ _ iso.start), related⟩
  have ends := Coupling.eval_ends Coupling.paired_lawful n p e₁ e₂ t st₁ st₂ iso.start
    ⟨coupled, sinks, logs⟩
  generalize eval n e₁ t st₁ = o₁ at ends
  generalize eval n e₂ t st₂ = o₂ at ends
  cases ends with
  | value h =>
    obtain ⟨q, later, after, value⟩ := h
    exact .value ⟨value.text_eq, agree q _ _ _ later after value⟩
  | fault h =>
    obtain ⟨q, later, after, same⟩ := h
    exact .fault ⟨congrArg _ same, congrArg _ same, agree q _ _ _ later after trivial⟩
  | exhausted => exact .exhausted

def Store.lone (others : Array Scope) (i : Nat) : Store :=
  ⟨others.push ⟨none, [("f", .closure ⟨i, ["a"], .var "a", some others.size⟩)]⟩, i + 1⟩

theorem Store.lone_outer? (others : Array Scope) (i : Nat) :
    (lone others i).outer? others.size = none := by
  simp [lone, outer?]

theorem Store.lone_own? (others : Array Scope) (i : Nat) (name : Name) :
    (lone others i).own? others.size name =
      if name = Text.ofString "f" then some (.closure ⟨i, ["a"], .var "a", some others.size⟩)
      else none := by
  simp only [lone, own?, Array.getElem?_push_size, Option.bind_some, Scope.get?,
    Table.lookup_cons_eq_ite, List.lookup_nil]

theorem Store.lone_reach {others : Array Scope} {i : Nat} {s : ScopeId} :
    (lone others i).Reach {others.size} s ↔ s = others.size := by
  constructor
  · intro reached
    refine reached.mem_of_closed (R := {others.size}) (fun _ => id) ?_
    intro s start u linked
    cases start
    cases linked with
    | outer found => rw [lone_outer?] at found; cases found
    | captured bound captured =>
      rw [lone_own?] at bound
      split at bound
      · cases bound
        exact (Option.some.inj captured).symm
      · cases bound
  · intro same
    exact .root same

theorem Store.lone_holds {others : Array Scope} {i k : Nat} :
    (lone others i).Holds {others.size} k ↔ k = i := by
  constructor
  · intro held
    obtain ⟨s, name, c, reached, bound, rfl⟩ := held
    rw [lone_reach.mp reached, lone_own?] at bound
    split at bound <;> cases bound
    rfl
  · intro same
    exact ⟨others.size, "f", _, .root rfl, (lone_own? others i _).trans (if_pos rfl), same.symm⟩

theorem Store.lone_isomorphism (others₁ others₂ : Array Scope) (i j : Nat) :
    Pairing.Isomorphism ⟨fun a b => a = others₁.size ∧ b = others₂.size, fun k l => k = i ∧ l = j⟩
      (lone others₁ i) others₁.size (lone others₂ j) others₂.size where
  start := ⟨rfl, rfl⟩
  scope_unique := ⟨fun _ _ _ x y => x.1.trans y.1.symm, fun _ _ _ x y => x.2.trans y.2.symm⟩
  identity_unique := ⟨fun _ _ _ x y => x.1.trans y.1.symm, fun _ _ _ x y => x.2.trans y.2.symm⟩
  scopes_left := ⟨fun ⟨_, h⟩ => lone_reach.mpr h.1, fun h => ⟨_, lone_reach.mp h, rfl⟩⟩
  scopes_right := ⟨fun ⟨_, h⟩ => lone_reach.mpr h.2, fun h => ⟨_, rfl, lone_reach.mp h⟩⟩
  identities_left := ⟨fun ⟨_, h⟩ => lone_holds.mpr h.1, fun h => ⟨_, lone_holds.mp h, rfl⟩⟩
  identities_right := ⟨fun ⟨_, h⟩ => lone_holds.mpr h.2, fun h => ⟨_, rfl, lone_holds.mp h⟩⟩
  outer := by
    intro a b paired
    rw [paired.1, paired.2, lone_outer?, lone_outer?]
    exact .none
  own := by
    intro a b paired name
    rw [paired.1, paired.2, lone_own?, lone_own?]
    split
    · exact .some (.closure ⟨rfl, rfl⟩ rfl rfl (.some ⟨rfl, rfl⟩))
    · exact .none

theorem Store.lone_wellFormed {others : Array Scope} (i : Nat)
    (plain : ∀ scope ∈ others, scope.outer = none ∧
      ∀ name v, scope.get? name = some v → ∀ c, v ≠ .closure c) : (lone others i).WellFormed where
  outer_lt := by
    intro s scope o found linked
    rw [lone, Array.getElem?_push] at found
    split at found
    · cases found
      cases linked
    · rw [(plain scope (Array.mem_of_getElem? found)).1] at linked
      cases linked
  stored := by
    intro s name v bound
    by_cases last : s = others.size
    · rw [last, lone_own?] at bound
      split at bound <;> cases bound
      intro c closure
      cases closure
      exact ⟨Nat.lt_succ_self i, fun u captured => by cases captured; simp [extent, lone]⟩
    · rw [own?, lone, Array.getElem?_push, if_neg last] at bound
      obtain ⟨scope, found, bound⟩ := Option.bind_eq_some_iff.mp bound
      exact Value.within_of_scalar ((plain scope (Array.mem_of_getElem? found)).2 name v bound)

def Tree.selfCall : Tree := .print (.call (.var "f") [.var "f"])

def Outcome.isValue {α : Type} : Outcome α → Bool
  | .value _ _ => true
  | _ => false

theorem lone_calls_agree :
    (Store.lone #[] 0).WellFormed ∧ (Store.lone #[⟨none, [("x", .int 7)]⟩] 3).WellFormed ∧
      ∃ v₁ st₁ v₂ st₂, eval 9 0 .selfCall ⟨.lone #[] 0, .unlimited, #[]⟩ = .value v₁ st₁ ∧
        eval 9 1 .selfCall ⟨.lone #[⟨none, [("x", .int 7)]⟩] 3, .unlimited, #[]⟩ = .value v₂ st₂ ∧
        v₁.text = v₂.text ∧ st₁.sink = st₂.sink := by
  have formed₁ : (Store.lone #[] 0).WellFormed := Store.lone_wellFormed 0 (by simp)
  have formed₂ : (Store.lone #[⟨none, [("x", .int 7)]⟩] 3).WellFormed := by
    refine Store.lone_wellFormed 3 fun scope listed => ?_
    rw [List.mem_toArray, List.mem_singleton] at listed
    rw [listed]
    refine ⟨rfl, fun name v bound c closure => ?_⟩
    rw [Scope.get?, Table.lookup_cons_eq_ite] at bound
    split at bound
    · cases bound
      cases closure
    · cases bound
  have agree := isomorphic_evaluations ⟨.lone #[] 0, .unlimited, #[]⟩
    ⟨.lone #[⟨none, [("x", .int 7)]⟩] 3, .unlimited, #[]⟩
    (Store.lone_isomorphism #[] #[⟨none, [("x", .int 7)]⟩] 0 3) formed₁ formed₂ (by decide)
    (by decide) rfl rfl 9 .selfCall
  have ended : (eval 9 0 .selfCall ⟨.lone #[] 0, .unlimited, #[]⟩).isValue = true := by
    decide +kernel
  refine ⟨formed₁, formed₂, ?_⟩
  cases first : eval 9 0 .selfCall ⟨.lone #[] 0, .unlimited, #[]⟩ with
  | fault f st =>
    rw [first] at ended
    cases ended
  | exhausted =>
    rw [first] at ended
    cases ended
  | value v₁ st₁ =>
    change Outcome.Rel _ _ (eval 9 0 .selfCall ⟨.lone #[] 0, .unlimited, #[]⟩)
      (eval 9 1 .selfCall ⟨.lone #[⟨none, [("x", .int 7)]⟩] 3, .unlimited, #[]⟩) at agree
    rw [first] at agree
    generalize eval 9 1 .selfCall _ = o at agree
    cases agree with
    | value h => exact ⟨v₁, st₁, _, _, rfl, rfl, h.1, h.2.1⟩

end Treewalk

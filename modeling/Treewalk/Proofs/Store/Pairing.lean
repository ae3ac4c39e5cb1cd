import Mathlib.Data.List.Forall2
import Mathlib.Logic.Relator
import Mathlib.Order.Basic
import Treewalk.Proofs.Store.Reach

/-! Two scope graphs side by side. A pairing joins scopes of one graph with scopes of another,
and closure identities likewise, one to one. It couples the graphs if paired scopes look alike:
paired outer links, the same names, and paired values under them. Everything a program can do to
a scope does the same to its partner. -/
namespace Treewalk

structure Pairing where
  scope : ScopeId → ScopeId → Prop
  identity : Nat → Nat → Prop

namespace Pairing

instance : Preorder Pairing where
  le p q := (∀ a b, p.scope a b → q.scope a b) ∧ ∀ i j, p.identity i j → q.identity i j
  le_refl _ := ⟨fun _ _ h => h, fun _ _ h => h⟩
  le_trans _ _ _ first second :=
    ⟨fun a b h => second.1 a b (first.1 a b h), fun i j h => second.2 i j (first.2 i j h)⟩

/-- Values that differ at most in the identity and the captured scope of a closure, and there
only as the pairing says. -/
inductive Values (p : Pairing) : Value → Value → Prop where
  | int (n : Int64) : Values p (.int n) (.int n)
  | bool (b : Bool) : Values p (.bool b) (.bool b)
  | null : Values p .null .null
  | closure {c d : Closure} : p.identity c.identity d.identity → c.params = d.params →
    c.body = d.body → Option.Rel p.scope c.scope d.scope → Values p (.closure c) (.closure d)

variable {p q : Pairing} {st₁ st₂ : Store} {a b : Value} {s₁ s₂ : ScopeId}

theorem rel_mono {α β : Type} {R S : α → β → Prop} (weaken : ∀ a b, R a b → S a b) {x : Option α}
    {y : Option β} (related : Option.Rel R x y) : Option.Rel S x y := by
  cases related with
  | none => exact .none
  | some h => exact .some (weaken _ _ h)

theorem eq_none_of_rel {α β : Type} {R : α → β → Prop} {x : Option α} {y : Option β}
    (related : Option.Rel R x y) (nothing : x = none) : y = none := by
  cases related with
  | none => rfl
  | some h => cases nothing

theorem exists_of_rel {α β : Type} {R : α → β → Prop} {x : Option α} {y : Option β} {a : α}
    (related : Option.Rel R x y) (found : x = some a) : ∃ b, y = some b ∧ R a b := by
  cases related with
  | none => cases found
  | some h =>
    cases found
    exact ⟨_, rfl, h⟩

theorem rel_swap {α β : Type} {R : α → β → Prop} {S : β → α → Prop} (swap : ∀ a b, R a b → S b a)
    {x : Option α} {y : Option β} (related : Option.Rel R x y) : Option.Rel S y x := by
  cases related with
  | none => exact .none
  | some h => exact .some (swap _ _ h)

theorem Values.mono (later : p ≤ q) (paired : p.Values a b) : q.Values a b := by
  cases paired with
  | int n => exact .int n
  | bool b => exact .bool b
  | null => exact .null
  | closure identity params body scope =>
    exact .closure (later.2 _ _ identity) params body (rel_mono later.1 scope)

theorem Values.text_eq (paired : p.Values a b) : a.text = b.text := by
  cases paired with
  | closure _ params _ _ => simp only [Value.text, params]
  | _ => rfl

theorem Values.captured (paired : p.Values a b) :
    Option.Rel p.scope a.captured? b.captured? := by
  cases paired with
  | closure _ _ _ scope => exact scope
  | _ => exact .none

def swap (p : Pairing) : Pairing := ⟨fun b a => p.scope a b, fun j i => p.identity i j⟩

theorem Values.swap (paired : p.Values a b) : p.swap.Values b a := by
  cases paired with
  | int n => exact .int n
  | bool b => exact .bool b
  | null => exact .null
  | closure identity params body scope =>
    exact .closure identity params.symm body.symm (rel_swap (fun _ _ h => h) scope)

/-- The pairing is one to one between things that are there, and paired scopes look alike. -/
structure Couples (p : Pairing) (st₁ st₂ : Store) : Prop where
  scope_unique : Relator.BiUnique p.scope
  identity_unique : Relator.BiUnique p.identity
  scope_lt {a b : ScopeId} : p.scope a b → a < st₁.scopes.size ∧ b < st₂.scopes.size
  identity_lt {i j : Nat} : p.identity i j → i < st₁.nextIdentity ∧ j < st₂.nextIdentity
  outer {a b : ScopeId} : p.scope a b → Option.Rel p.scope (st₁.outer? a) (st₂.outer? b)
  own {a b : ScopeId} : p.scope a b → ∀ name,
    Option.Rel p.Values (st₁.own? a name) (st₂.own? b name)

namespace Couples

theorem chain (coupled : p.Couples st₁ st₂) (paired : p.scope s₁ s₂) :
    List.Forall₂ p.scope (st₁.chain s₁) (st₂.chain s₂) := by
  induction s₁ using Store.chain_induction st₁ generalizing s₂ with
  | global s₁ unlinked =>
    have unlinked' := eq_none_of_rel (coupled.outer paired) unlinked
    rw [Store.chain_of_global unlinked, Store.chain_of_global unlinked']
    exact .cons paired .nil
  | inner s₁ o linked ih =>
    obtain ⟨o', linked', further⟩ := exists_of_rel (coupled.outer paired) linked
    rw [Store.chain_of_outer linked, Store.chain_of_outer linked']
    exact .cons paired (ih further)

theorem declares_eq (coupled : p.Couples st₁ st₂) (paired : p.scope s₁ s₂) (name : Name) :
    st₁.declares s₁ name = st₂.declares s₂ name := by
  have own := coupled.own paired name
  unfold Store.declares
  generalize st₁.own? s₁ name = x at own
  generalize st₂.own? s₂ name = y at own
  cases own <;> rfl

theorem findSome?_own (coupled : p.Couples st₁ st₂) {l₁ l₂ : List ScopeId}
    (lists : List.Forall₂ p.scope l₁ l₂) (name : Name) :
    Option.Rel p.Values (l₁.findSome? fun t => st₁.own? t name)
      (l₂.findSome? fun t => st₂.own? t name) := by
  induction lists with
  | nil => exact .none
  | @cons x y _ _ here _ ih =>
    have own := coupled.own here name
    rw [List.findSome?_cons, List.findSome?_cons]
    generalize st₁.own? x name = u at own
    generalize st₂.own? y name = v at own
    cases own with
    | none => exact ih
    | some value => exact .some value

theorem find?_declares (coupled : p.Couples st₁ st₂) {l₁ l₂ : List ScopeId}
    (lists : List.Forall₂ p.scope l₁ l₂) (name : Name) :
    Option.Rel p.scope (l₁.find? fun t => st₁.declares t name)
      (l₂.find? fun t => st₂.declares t name) := by
  induction lists with
  | nil => exact .none
  | cons here _ ih =>
    rw [List.find?_cons, List.find?_cons, coupled.declares_eq here name]
    split
    · exact .some here
    · exact ih

theorem getLastD {l₁ l₂ : List ScopeId} (lists : List.Forall₂ p.scope l₁ l₂)
    (paired : p.scope s₁ s₂) : p.scope (l₁.getLastD s₁) (l₂.getLastD s₂) := by
  induction lists generalizing s₁ s₂ with
  | nil => exact paired
  | cons next _ ih => simpa only [List.getLastD_cons] using ih next

theorem resolve (coupled : p.Couples st₁ st₂) (paired : p.scope s₁ s₂) (name : Name) :
    p.Values (st₁.resolve s₁ name) (st₂.resolve s₂ name) := by
  have found := coupled.findSome?_own (coupled.chain paired) name
  unfold Store.resolve Store.lookup?
  generalize (st₁.chain s₁).findSome? _ = x at found
  generalize (st₂.chain s₂).findSome? _ = y at found
  cases found with
  | none => exact .null
  | some value => exact value

theorem target (coupled : p.Couples st₁ st₂) (paired : p.scope s₁ s₂) (name : Name) :
    p.scope (st₁.target s₁ name) (st₂.target s₂ name) := by
  have chains := coupled.chain paired
  have found := coupled.find?_declares chains name
  have global : p.scope (st₁.global s₁) (st₂.global s₂) := getLastD chains paired
  unfold Store.target
  generalize (st₁.chain s₁).find? _ = x at found
  generalize (st₂.chain s₂).find? _ = y at found
  cases found with
  | none => exact global
  | some nearest => exact nearest

theorem bindAt (coupled : p.Couples st₁ st₂) (paired : p.scope s₁ s₂) (value : p.Values a b)
    (name : Name) : p.Couples (st₁.bindAt s₁ name a) (st₂.bindAt s₂ name b) where
  scope_unique := coupled.scope_unique
  identity_unique := coupled.identity_unique
  scope_lt h := by simpa using coupled.scope_lt h
  identity_lt := coupled.identity_lt
  outer h := by simpa using coupled.outer h
  own := by
    intro x y h other
    -- The two tables change together because the pairing is one to one.
    have together : x = s₁ ↔ y = s₂ := by
      constructor
      · intro same
        exact coupled.scope_unique.2 (same ▸ h) paired
      · intro same
        exact coupled.scope_unique.1 (same ▸ h) paired
    have there := coupled.scope_lt paired
    rw [Store.own?_bindAt, Store.own?_bindAt]
    by_cases here : x = s₁ ∧ other = name
    · rw [if_pos ⟨here.1, here.2, there.1⟩, if_pos ⟨together.mp here.1, here.2, there.2⟩]
      exact .some value
    · rw [if_neg fun h => here ⟨h.1, h.2.1⟩, if_neg fun h => here ⟨together.mpr h.1, h.2.1⟩]
      exact coupled.own h other

end Couples

/-- A one-to-one relation stays one when it joins two things that were not joined before. -/
theorem biUnique_join {r : Nat → Nat → Prop} {m n : Nat} (unique : Relator.BiUnique r)
    (left : ∀ y, ¬ r m y) (right : ∀ x, ¬ r x n) :
    Relator.BiUnique fun x y => r x y ∨ (x = m ∧ y = n) := by
  constructor
  · intro x y z first second
    rcases first with old | ⟨rfl, rfl⟩
    · rcases second with old' | ⟨rfl, rfl⟩
      · exact unique.1 old old'
      · exact absurd old (right x)
    · rcases second with old' | ⟨rfl, -⟩
      · exact absurd old' (right y)
      · rfl
  · intro x y z first second
    rcases first with old | ⟨rfl, rfl⟩
    · rcases second with old' | ⟨rfl, rfl⟩
      · exact unique.2 old old'
      · exact absurd old (left y)
    · rcases second with old' | ⟨-, rfl⟩
      · exact absurd old' (left z)
      · rfl

def joinScopes (p : Pairing) (m n : ScopeId) : Pairing :=
  ⟨fun x y => p.scope x y ∨ (x = m ∧ y = n), p.identity⟩

def joinIdentities (p : Pairing) (m n : Nat) : Pairing :=
  ⟨p.scope, fun x y => p.identity x y ∨ (x = m ∧ y = n)⟩

theorem le_joinScopes (p : Pairing) (m n : ScopeId) : p ≤ p.joinScopes m n :=
  ⟨fun _ _ h => .inl h, fun _ _ h => h⟩

theorem le_joinIdentities (p : Pairing) (m n : Nat) : p ≤ p.joinIdentities m n :=
  ⟨fun _ _ h => h, fun _ _ h => .inl h⟩

theorem rel_filter {o₁ o₂ : Option ScopeId} {m n : ScopeId} {r : ScopeId → ScopeId → Prop}
    (related : Option.Rel r o₁ o₂) (bound : ∀ a b, r a b → a < m ∧ b < n) :
    Option.Rel r (o₁.filter (· < m)) (o₂.filter (· < n)) := by
  cases related with
  | none => exact .none
  | some h =>
    obtain ⟨left, right⟩ := bound _ _ h
    rw [Option.filter_some_pos (by simpa using left), Option.filter_some_pos (by simpa using right)]
    exact .some h

theorem Couples.newScope (coupled : p.Couples st₁ st₂) {o₁ o₂ : Option ScopeId}
    (outer : Option.Rel p.scope o₁ o₂) :
    (p.joinScopes st₁.scopes.size st₂.scopes.size).Couples (st₁.newScope o₁).2
      (st₂.newScope o₂).2 where
  scope_unique := by
    refine biUnique_join coupled.scope_unique (fun y h => ?_) (fun x h => ?_)
    · exact Nat.lt_irrefl _ (coupled.scope_lt h).1
    · exact Nat.lt_irrefl _ (coupled.scope_lt h).2
  identity_unique := coupled.identity_unique
  scope_lt := by
    intro x y h
    rw [Store.size_newScope, Store.size_newScope]
    rcases h with old | ⟨rfl, rfl⟩
    · obtain ⟨left, right⟩ := coupled.scope_lt old
      exact ⟨Nat.lt_succ_of_lt left, Nat.lt_succ_of_lt right⟩
    · exact ⟨Nat.lt_succ_self _, Nat.lt_succ_self _⟩
  identity_lt := coupled.identity_lt
  outer := by
    intro x y h
    rw [Store.outer?_newScope, Store.outer?_newScope]
    refine rel_mono (p.le_joinScopes _ _).1 ?_
    rcases h with old | ⟨rfl, rfl⟩
    · obtain ⟨left, right⟩ := coupled.scope_lt old
      rw [if_neg (Nat.ne_of_lt left), if_neg (Nat.ne_of_lt right)]
      exact coupled.outer old
    · rw [if_pos rfl, if_pos rfl]
      exact rel_filter outer fun a b => coupled.scope_lt
  own := by
    intro x y h name
    rw [Store.own?_newScope, Store.own?_newScope]
    rcases h with old | ⟨rfl, rfl⟩
    · exact rel_mono (fun _ _ => Values.mono (p.le_joinScopes _ _)) (coupled.own old name)
    · have nothing : ∀ st : Store, st.own? st.scopes.size name = none := by simp [Store.own?]
      rw [nothing, nothing]
      exact .none

theorem Couples.newClosure (coupled : p.Couples st₁ st₂) (params : List Name) (body : Tree)
    (o₁ o₂ : Option ScopeId) :
    (p.joinIdentities st₁.nextIdentity st₂.nextIdentity).Couples
      (st₁.newClosure params body o₁).2 (st₂.newClosure params body o₂).2 where
  scope_unique := coupled.scope_unique
  identity_unique := by
    refine biUnique_join coupled.identity_unique (fun y h => ?_) (fun x h => ?_)
    · exact Nat.lt_irrefl _ (coupled.identity_lt h).1
    · exact Nat.lt_irrefl _ (coupled.identity_lt h).2
  scope_lt := coupled.scope_lt
  identity_lt := by
    intro i j h
    rcases h with old | ⟨rfl, rfl⟩
    · obtain ⟨left, right⟩ := coupled.identity_lt old
      exact ⟨Nat.lt_succ_of_lt left, Nat.lt_succ_of_lt right⟩
    · exact ⟨Nat.lt_succ_self _, Nat.lt_succ_self _⟩
  outer := coupled.outer
  own h name :=
    rel_mono (fun _ _ => Values.mono (p.le_joinIdentities _ _)) (coupled.own h name)

theorem Couples.swap (coupled : p.Couples st₁ st₂) : p.swap.Couples st₂ st₁ where
  scope_unique := ⟨fun _ _ _ x y => coupled.scope_unique.2 x y,
    fun _ _ _ x y => coupled.scope_unique.1 x y⟩
  identity_unique := ⟨fun _ _ _ x y => coupled.identity_unique.2 x y,
    fun _ _ _ x y => coupled.identity_unique.1 x y⟩
  scope_lt h := (coupled.scope_lt h).symm
  identity_lt h := (coupled.identity_lt h).symm
  outer h := rel_swap (fun _ _ paired => paired) (coupled.outer h)
  own h name := rel_swap (fun _ _ => Values.swap) (coupled.own h name)

theorem Couples.reach (coupled : p.Couples st₁ st₂) {e₁ e₂ : ScopeId} (start : p.scope e₁ e₂)
    {x : ScopeId} (reached : st₁.Reach {e₁} x) : ∃ y, p.scope x y ∧ st₂.Reach {e₂} y := by
  induction reached with
  | root listed => exact ⟨e₂, listed ▸ start, .root rfl⟩
  | link _ linked ih =>
    obtain ⟨y, paired, reached⟩ := ih
    cases linked with
    | outer found =>
      obtain ⟨o, found', further⟩ := exists_of_rel (coupled.outer paired) found
      exact ⟨o, further, reached.link (.outer found')⟩
    | captured bound captured =>
      obtain ⟨w, bound', value⟩ := exists_of_rel (coupled.own paired _) bound
      obtain ⟨o, captured', further⟩ := exists_of_rel value.captured captured
      exact ⟨o, further, reached.link (.captured bound' captured')⟩

end Pairing
end Treewalk

import Treewalk.Proofs.Eval.Activation
import Treewalk.Proofs.Eval.Adequacy
import Treewalk.Proofs.Store.Heap
import Treewalk.Proofs.Store.Reach

/-! The representation invariant of scope graphs and of closure identities, at every moment: before
and after each step of a client, and wherever an evaluation stands when it starts another one. The
heap at such a moment is one that the client could have reached by itself, so that whatever holds
of reachable heaps holds inside of evaluations too. -/
namespace Treewalk

open Relation (ReflTransGen)

/-- The scope exists in a store to which a client can get while holding at least these values. -/
def Heap.Attains (start : Heap) (s : ScopeId) (st : Store) (values : List Value) : Prop :=
  s < st.scopes.size ∧ ∃ held, (∀ v ∈ values, v ∈ held) ∧ Steps start ⟨st, held⟩

namespace Heap.Attains

variable {start : Heap} {s : ScopeId} {store : Store} {st st₁ : State} {values more : List Value}
  {t : Tree} {v : Value}

theorem mono (attains : start.Attains s store values) (fewer : ∀ v ∈ more, v ∈ values) :
    start.Attains s store more := by
  obtain ⟨there, held, kept, run⟩ := attains
  exact ⟨there, held, fun v listed => kept v (fewer v listed), run⟩

theorem records (reached : start.Reachable) (attains : start.Attains s store values) :
    ∃ w, Records ⟨store, values⟩ w := by
  obtain ⟨-, held, kept, run⟩ := attains
  obtain ⟨w, records⟩ := Reachable.records (reached.trans run)
  exact ⟨w, records.store, fun listed => records.held (kept _ listed)⟩

theorem tail (reached : start.Reachable) (attains : start.Attains s store values)
    (more : List Value) (after : Store)
    (step : ∀ held, (∀ v ∈ values, v ∈ held) → Step ⟨store, held⟩ ⟨after, more ++ held⟩) :
    start.Attains s after (more ++ values) := by
  obtain ⟨there, held, kept, run⟩ := attains
  obtain ⟨w, records⟩ := Reachable.records (reached.trans run)
  obtain ⟨w', later, records'⟩ := records.step (step held kept)
  refine ⟨?_, more ++ held, ?_, run.tail (step held kept)⟩
  · have grown := later.1
    rw [← records.store.size, ← records'.store.size] at grown
    exact there.trans_le grown
  · intro v listed
    rcases List.mem_append.mp listed with new | old
    · exact List.mem_append_left _ new
    · exact List.mem_append_right _ (kept v old)

theorem tree (reached : start.Reachable) (attains : start.Attains s st.store values)
    (derived : Evaluates s (.tree t) st (.value v st₁)) :
    start.Attains s st₁.store (v :: values) := by
  obtain ⟨-, n, ran⟩ := evaluates_tree_iff.mp derived
  exact attains.tail reached [v] st₁.store fun held _ => .value attains.1 ran

theorem branch (reached : start.Reachable) (attains : start.Attains s st.store values)
    (derived : Evaluates s (.branch t) st (.value v st₁)) :
    start.Attains s st₁.store (v :: values) := by
  cases derived with
  | noBranch => exact attains.tail reached [.null] _ fun held _ => .scalar nofun
  | branch _ derived => exact attains.tree reached derived

theorem condition (reached : start.Reachable) (attains : start.Attains s st.store values)
    (derived : Evaluates s (.condition t) st (.value v st₁)) :
    start.Attains s st₁.store values := by
  cases derived with
  | condition derived => exact (attains.tree reached derived).mono (by simp +contextual)

theorem binds (reached : start.Reachable) {params : List Name} {args : List Value}
    {fault : Option Fault} {after : Store} (binds : Binds s params args store fault after)
    (attains : start.Attains s store (args ++ values)) : start.Attains s after values := by
  induction binds with
  | done => exact attains.mono (by simp +contextual)
  | argument created _ ih =>
    have bound := attains.tail reached [] _ fun held kept =>
      .create attains.1 (kept _ List.mem_cons_self) created
    exact ih (bound.mono (by simp +contextual))
  | absent created _ ih =>
    -- The client takes the null that stands in for the argument.
    have taken := attains.tail reached [.null] _ fun held _ => .scalar nofun
    have bound := taken.tail reached [] _ fun held kept =>
      .create taken.1 (kept _ List.mem_cons_self) created
    exact ih (bound.mono (by simp +contextual))
  | repeated _ => exact attains.mono (by simp +contextual)

theorem enter (reached : start.Reachable) {c : Closure} {args : List Value} {fault : Option Fault}
    {after : Store}
    (binds : Binds store.scopes.size c.params args (store.newScope c.scope).2 fault after)
    (attains : start.Attains s store (.closure c :: args ++ values)) :
    start.Attains store.scopes.size after values := by
  obtain ⟨w, records⟩ := attains.records reached
  -- The closure is held, so the scope that it captured exists.
  have captured : ∀ o, c.scope = some o → o < store.scopes.size := by
    rw [records.store.size]
    exact ((records.held List.mem_cons_self).within c rfl).2
  have opened := attains.tail reached [] (store.newScope c.scope).2 fun held _ => .newScope captured
  refine Attains.binds reached binds ⟨by simp, opened.2.imp fun held ⟨kept, run⟩ => ⟨?_, run⟩⟩
  exact fun v listed => kept v (List.mem_cons_of_mem _ listed)

theorem starts (reached : start.Reachable) {a b : Activation} (starts : a.Starts b)
    (attains : start.Attains a.scope a.state.store (a.phrase.values ++ a.pending)) :
    start.Attains b.scope b.state.store (b.phrase.values ++ b.pending) := by
  cases starts with
  | operand | left | thenDo | branch | condition | test | first | init | expr | callee | argument =>
    exact attains
  | right derived | elseDo derived => exact attains.tree reached derived
  | selector derived derived' => exact (attains.tree reached derived).branch reached derived'
  | loop => exact attains.tail reached [.null] _ fun held _ => .scalar nofun
  | round holds =>
    exact (attains.condition reached holds).mono fun v => List.mem_cons_of_mem _
  | again holds derived =>
    exact ((attains.condition reached holds).tree reached derived).mono (by
      simp +contextual [Phrase.values])
  | second derived => exact (attains.tree reached derived).mono fun v => List.mem_cons_of_mem _
  | call derived => exact attains.tree reached derived
  | next derived =>
    refine (attains.tree reached derived).mono fun u listed => ?_
    simp only [Phrase.values, List.mem_append, List.mem_cons, List.not_mem_nil] at listed ⊢
    tauto
  | body binds => exact attains.enter reached binds

theorem activations (reached : start.Reachable) {a b : Activation}
    (run : ReflTransGen Activation.Starts a b)
    (attains : start.Attains a.scope a.state.store (a.phrase.values ++ a.pending)) :
    start.Attains b.scope b.state.store (b.phrase.values ++ b.pending) := by
  induction run with
  | refl => exact attains
  | tail _ next ih => exact ih.starts reached next

end Heap.Attains

def Activation.heap (a : Activation) : Heap := ⟨a.state.store, a.phrase.values ++ a.pending⟩

theorem Heap.Attains.fresh {h h' : Heap} {a : Activation} (reached : h.Reachable)
    (run : Steps h h')
    (attains : h'.Attains a.scope a.state.store (a.phrase.values ++ a.pending)) {d : Closure}
    (present : h.Present d ∨ a.heap.Present d) (params : List Name) (body : Tree)
    (scope : Option ScopeId) :
    (Value.closure (a.state.store.newClosure params body scope).1).same (.closure d) = false := by
  obtain ⟨w, records⟩ := reached.records
  obtain ⟨w', records'⟩ := attains.records (reached.trans run)
  obtain ⟨-, held, -, further⟩ := attains
  rcases present with before | now
  · exact records.fresh (run.trans further) before params body scope
  · exact records'.fresh .refl now params body scope

/-- The representation invariant of reachable heaps. Every walk outward ends at a global scope, and
closures capture scopes that exist. From then on an identity stands for one closure, and a new
closure equals none that was there before, whether the client makes it or a function expression
does, anywhere inside of an evaluation. -/
theorem reachable_heap_represents {h : Heap} (reached : h.Reachable) :
    (∀ s, s < h.store.scopes.size → h.store.Rooted s) ∧
    (∀ c u, h.Present c → c.scope = some u → u < h.store.scopes.size) ∧
    ∀ h', Heap.Steps h h' →
      (∀ c d, h.Present c → h'.Present d → c.identity = d.identity → c = d) ∧
      (∀ c, h.Present c → ∀ params body scope,
        (Value.closure (h'.store.newClosure params body scope).1).same (.closure c) = false) ∧
      (∀ s t sink log a params body, s < h'.store.scopes.size →
        ReflTransGen Activation.Starts ⟨s, .tree t, ⟨h'.store, sink, log⟩, h'.held⟩ a →
        a.phrase = .tree (.function params body) →
        ∃ c st, Evaluates a.scope a.phrase a.state (.value (.closure c) st) ∧
          ∀ d, h.Present d ∨ a.heap.Present d →
            (Value.closure c).same (.closure d) = false) := by
  obtain ⟨w, records⟩ := reached.records
  refine ⟨fun s => records.store.formed.rooted, ?_, fun h' run => ⟨?_, ?_, ?_⟩⟩
  · intro c u present captured
    rw [records.store.size]
    exact ((records.known present).within c rfl).2 u captured
  · intro c d
    exact records.eq_of_identity run
  · intro c present
    exact records.fresh run present
  · intro s t sink log a params body there started function
    have start : h'.Attains s h'.store h'.held := ⟨there, h'.held, fun _ => id, .refl⟩
    have attains := start.activations (reached.trans run) started
    obtain ⟨s', p, st', pending⟩ := a
    cases function
    exact ⟨_, _, .function, fun d present =>
      attains.fresh reached run present params body (some s')⟩

def Tree.makeInner : Tree := .call (.function ["x"] (.function [] (.var "x"))) [.int 1]

theorem inner_closure_represented :
    ∃ c st, eval 9 0 .makeInner ⟨Heap.initial.store, .unlimited, #[]⟩ = .value (.closure c) st ∧
      Heap.Reachable ⟨st.store, [.closure c]⟩ ∧ c.scope = some 1 ∧ st.store.Rooted 1 ∧
      ∀ h' d, Heap.Steps ⟨st.store, [.closure c]⟩ h' → h'.Present d → c.identity = d.identity →
        c = d := by
  have passed : (eval 9 0 .makeInner ⟨Heap.initial.store, .unlimited, #[]⟩).passes (fun v _ =>
      decide (v.captured? = some 1)) = true := by decide +kernel
  obtain ⟨v, st, ran, shown⟩ := Outcome.exists_of_passes passed
  have captures : v.captured? = some 1 := of_decide_eq_true shown
  cases v with
  | closure c =>
    have reached : Heap.Reachable ⟨st.store, [.closure c]⟩ := .tail .refl (.value (by decide) ran)
    obtain ⟨rooted, captured, identities⟩ := reachable_heap_represents reached
    have present : Heap.Present ⟨st.store, [.closure c]⟩ c := .inr List.mem_cons_self
    exact ⟨c, st, ran, reached, captures, rooted 1 (captured c 1 present captures),
      fun h' d run => (identities h' run).1 c d present⟩
  | _ => cases captures

end Treewalk

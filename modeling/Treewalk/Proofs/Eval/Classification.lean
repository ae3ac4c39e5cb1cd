import Treewalk.Proofs.Eval.Abort

/-! The kind of a failure. A failure under which there is a refused value has no kind as long as
the listener says nothing of a kind; any other failure has exactly one, so it does not matter in
which order kinds are looked for. -/
namespace Treewalk

namespace Event

def IsRefusal : Event → Prop
  | .refused _ _ _ => True
  | _ => False

instance : DecidablePred IsRefusal
  | .refused _ _ _ => .isTrue trivial
  | .started _ _ _ | .ended _ _ _ _ | .called _ _ _ | .taken _ _ => .isFalse id

def IsPrint : Event → Prop
  | .taken _ _ | .refused _ _ _ => True
  | _ => False

theorem IsRefusal.exists {a : Event} (refusal : a.IsRefusal) :
    ∃ v said st, a = .refused v said st := by
  cases a with
  | refused v said st => exact ⟨v, said, st, rfl⟩
  | _ => cases refusal

theorem Aborts.not_isPrint {e : Failure} {st : State} {a : Event} (aborts : a.Aborts e st) :
    ¬a.IsPrint := by
  obtain ⟨s, t, start, rfl⟩ := aborts
  exact id

end Event

/-- Whatever a fault is about, but for printing, it has exactly one kind. -/
theorem Fault.wraps_cause {f : Fault} (other : f.refused = []) :
    ∃ k, ∀ k', f.cause.wraps k' = true ↔ k' = k := by
  have rooted {k : ErrorKind} (root : f.root = .kind k) (k' : ErrorKind) :
      f.cause.wraps k' = true ↔ k' = k := by
    simp [Fault.cause, Cause.wraps, root, eq_comm]
  cases f with
  | refusedPrint line => simp [Fault.refused] at other
  | _ => exact ⟨_, rooted rfl⟩

namespace Cause

variable {c : Cause}

theorem find?_wraps {k : ErrorKind} {order : List ErrorKind} (listed : k ∈ order)
    (only : ∀ k', c.wraps k' = true ↔ k' = k) : order.find? (fun k => c.wraps k) = some k := by
  cases found : order.find? (fun k => c.wraps k) with
  | none =>
    have absent := List.find?_eq_none.mp found k listed
    exact absurd ((only k).mpr rfl) absent
  | some k' =>
    have wrapped : c.wraps k' = true := by simpa using List.find?_some found
    rw [(only k').mp wrapped]

theorem kind?_of_foreign (foreign : ∀ k, c.wraps k = false) : c.kind? = none := by
  simp [Cause.kind?, foreign]

end Cause

theorem ErrorKind.label_ne_unknown (k : ErrorKind) : k.label ≠ Text.ofString "unknown" := by
  cases k <;> decide

namespace Observed.Orderly

variable {L : Listener} {α : Type} {o : Observed α} {e : Failure} {st : State} {f : Fault}
  {v : Value} {said : Cause} {before after : List Event}

theorem of_refused (orderly : o.Orderly L)
    (happened : o.events = before ++ .refused v said st :: after) :
    o.ending = .failure (.refused v said) st ∧
      (∀ a ∈ before, ¬a.IsRefusal) ∧ ∀ a ∈ after, ¬a.IsPrint := by
  have ordered := orderly.aborts
  rw [happened, List.pairwise_append, List.pairwise_cons] at ordered
  refine ⟨orderly.fails _ (by simp [happened]) _ _ .refused, ?_, ?_⟩
  · intro a earlier refusal
    obtain ⟨v', said', st', rfl⟩ := refusal.exists
    have aborted := ordered.2.2 _ earlier (.refused v said st) (by simp) _ _ .refused
    exact aborted.not_isPrint trivial
  · intro a later
    exact (ordered.2.1.1 a later _ _ .refused).not_isPrint

theorem of_raised (orderly : o.Orderly L) (raised : o.ending = .failure (.raised f) st) :
    ∀ a ∈ o.events, ¬a.IsRefusal := by
  intro a listed refusal
  obtain ⟨v, said, st', rfl⟩ := refusal.exists
  have refused := orderly.fails _ listed _ _ .refused
  rw [raised] at refused
  cases refused

theorem said_of_refused (orderly : o.Orderly L)
    (refused : o.ending = .failure (.refused v said) st) : L.refusal? st.sink v = some said :=
  orderly.genuine _ (orderly.refused v said st refused)

end Observed.Orderly

theorem Listener.lines_refusal {sink : Sink} {v : Value} {said : Cause}
    (refused : Listener.lines.refusal? sink v = some said) : said = .other "sink closed" := by
  dsimp only [Listener.lines] at refused
  split at refused <;> cases refused
  rfl

theorem eval_fault_iff {n : Nat} {s : ScopeId} {t : Tree} {st st' : State} {f : Fault} :
    eval n s t st = .fault f st' ↔
      ∃ e, (record .lines n s t st).ending = .failure e st' ∧ e.fault = f ∧ e.cause = f.cause := by
  have orderly := record_orderly .lines n s t st
  rw [← record_outcome]
  constructor
  · intro failed
    cases ending : (record .lines n s t st).ending with
    | failure e st₁ =>
      rw [ending] at failed
      cases failed
      refine ⟨e, rfl, rfl, ?_⟩
      cases e with
      | raised f => rfl
      | refused v said =>
        rw [Listener.lines_refusal (orderly.said_of_refused ending)]
        rfl
    | _ =>
      rw [ending] at failed
      cases failed
  · rintro ⟨e, ending, rfl, -⟩
    rw [ending]
    rfl

/-- Failures are classified exactly. If the listener never says anything of a kind, then a failed
evaluation had a value refused, as the last one that it printed, and its error has no kind; or no
value was refused, and its error has one single kind, in whichever order kinds are looked for. The
evaluator itself fails as the record for lines does. -/
theorem failures_classified_exactly :
    (∀ (L : Listener) n s t st e st',
      (∀ sink v said, L.refusal? sink v = some said → ∀ k, said.wraps k = false) →
      (record L n s t st).ending = .failure e st' →
      (∃ v said before after,
        (record L n s t st).events = before ++ .refused v said st' :: after ∧
        (∀ a ∈ before, ¬a.IsRefusal) ∧ (∀ a ∈ after, ¬a.IsPrint) ∧
        e = .refused v said ∧ (∀ k, e.cause.wraps k = false) ∧
        ErrorKind.labelOf e.cause.kind? = Text.ofString "unknown") ∨
      ((∀ a ∈ (record L n s t st).events, ¬a.IsRefusal) ∧
        (∃ k, (∀ k', e.cause.wraps k' = true ↔ k' = k) ∧
          ∀ order : List ErrorKind, order.Perm ErrorKind.all →
            order.find? (fun k => e.cause.wraps k) = some k) ∧
        ErrorKind.labelOf e.cause.kind? ≠ Text.ofString "unknown")) ∧
    (∀ (L : Listener) n s t st v said st' before after,
      (record L n s t st).events = before ++ .refused v said st' :: after →
      (record L n s t st).ending = .failure (.refused v said) st' ∧ ∀ a ∈ after, ¬a.IsPrint) ∧
    (∀ sink v said, Listener.lines.refusal? sink v = some said → ∀ k, said.wraps k = false) ∧
    ∀ n s t st f st', eval n s t st = .fault f st' ↔
      ∃ e, (record .lines n s t st).ending = .failure e st' ∧ e.fault = f ∧ e.cause = f.cause := by
  refine ⟨?_, ?_, ?_, fun _ _ _ _ _ _ => eval_fault_iff⟩
  · intro L n s t st e st' foreign ending
    have orderly := record_orderly L n s t st
    cases e with
    | refused v said =>
      obtain ⟨before, after, split⟩ := List.append_of_mem (orderly.refused v said st' ending)
      obtain ⟨-, first, last⟩ := orderly.of_refused split
      have unkind : ∀ k, (Failure.refused v said).cause.wraps k = false := by
        simpa [Failure.cause, Cause.wraps] using
          foreign _ _ _ (orderly.said_of_refused ending)
      refine .inl ⟨v, said, before, after, split, first, last, rfl, unkind, ?_⟩
      rw [Cause.kind?_of_foreign unkind]
      rfl
    | raised f =>
      obtain ⟨k, only⟩ := Fault.wraps_cause (orderly.raised f st' ending)
      have kind : (Failure.raised f).cause.kind? = some k :=
        Cause.find?_wraps (ErrorKind.mem_all k) only
      refine .inr ⟨orderly.of_raised ending, ⟨k, only, fun order perm => ?_⟩, ?_⟩
      · exact Cause.find?_wraps (perm.mem_iff.mpr (ErrorKind.mem_all k)) only
      · rw [kind]
        exact k.label_ne_unknown
  · intro L n s t st v said st' before after split
    obtain ⟨ending, -, last⟩ := (record_orderly L n s t st).of_refused split
    exact ⟨ending, last⟩
  · intro sink v said refused k
    rw [Listener.lines_refusal refused]
    rfl

def Listener.untrue : Listener where
  refusal? _
    | .bool _ => some (.join [.other "no truth", .other "no falsehood"])
    | _ => none

def Tree.comparison : Tree :=
  .seq (.seq (.print (.int 1)) (.print (.binary (.int 1) "<" (.int 2)))) (.print (.int 3))

theorem comparison_unclassified :
    ∃ v said st' before after,
      (record .untrue 9 0 .comparison ⟨⟨#[⟨none, []⟩], 0⟩, .unlimited, #[]⟩).ending =
        .failure (.refused v said) st' ∧
      (record .untrue 9 0 .comparison ⟨⟨#[⟨none, []⟩], 0⟩, .unlimited, #[]⟩).events =
        before ++ .refused v said st' :: after ∧
      (∀ a ∈ after, ¬a.IsPrint) ∧
      ErrorKind.labelOf (Failure.refused v said).cause.kind? = Text.ofString "unknown" := by
  have refuses : ∃ a ∈ (record .untrue 9 0 .comparison
      ⟨⟨#[⟨none, []⟩], 0⟩, .unlimited, #[]⟩).events, a.IsRefusal := by decide +kernel
  have foreign : ∀ sink v said, Listener.untrue.refusal? sink v = some said →
      ∀ k, said.wraps k = false := by
    intro sink v said refused k
    cases v with
    | bool b =>
      cases refused
      rfl
    | _ => cases refused
  obtain ⟨a, listed, refusal⟩ := refuses
  obtain ⟨v, said, st', rfl⟩ := refusal.exists
  obtain ⟨before, after, split⟩ := List.append_of_mem listed
  obtain ⟨classified, last, -, -⟩ := failures_classified_exactly
  obtain ⟨ending, silent⟩ := last _ _ _ _ _ _ _ _ _ _ split
  obtain ⟨_, _, _, _, _, _, _, _, _, unknown⟩ | ⟨accepted, -⟩ :=
    classified _ _ _ _ _ _ _ foreign ending
  · exact ⟨v, said, st', before, after, ending, split, silent, unknown⟩
  · exact absurd refusal (accepted _ listed)

end Treewalk

import Treewalk.Proofs.Eval.Record

/-! Failures abort. In the record of an evaluation nothing follows a failed evaluation but the ends
of the evaluations around it, and these fail in the same way and in the same state. -/
namespace Treewalk

namespace Event

inductive Fails : Event → Failure → State → Prop where
  | ended {s t start e st} : Fails (.ended s t start (.failure e st)) e st
  | refused {v said st} : Fails (.refused v said st) (.refused v said) st

/-- The event is the end of an evaluation that the failure aborts. -/
def Aborts (e : Failure) (st : State) (a : Event) : Prop :=
  ∃ s t start, a = .ended s t start (.failure e st)

def Genuine (L : Listener) : Event → Prop
  | .started _ _ _ | .called _ _ _ => True
  | .ended s t start result => ∃ n, (record L n s t start).ending = result
  | .taken v st => L.refusal? st.sink v = none
  | .refused v said st => L.refusal? st.sink v = some said

end Event

/-- The record of an evaluation in which failures abort, and in which every failure comes from
somewhere. -/
structure Observed.Orderly (L : Listener) {α : Type} (o : Observed α) : Prop where
  aborts : o.events.Pairwise fun a b => ∀ e st, a.Fails e st → b.Aborts e st
  fails : ∀ a ∈ o.events, ∀ e st, a.Fails e st → o.ending = .failure e st
  refused : ∀ v said st, o.ending = .failure (.refused v said) st → .refused v said st ∈ o.events
  raised : ∀ f st, o.ending = .failure (.raised f) st → f.refused = []
  genuine : ∀ a ∈ o.events, a.Genuine L

namespace Observed.Orderly

variable {L : Listener} {α β : Type}

theorem uneventful {ending : Ending α} {events : List Event}
    (raises : ∀ e st, ending = .failure e st → ∃ f, e = .raised f ∧ f.refused = [])
    (calls : ∀ a ∈ events, ∃ c args st, a = .called c args st) :
    (⟨ending, events⟩ : Observed α).Orderly L := by
  have unfailing : ∀ a ∈ events, ∀ e st, ¬a.Fails e st := by
    intro a listed e st failed
    obtain ⟨c, args, st', rfl⟩ := calls a listed
    cases failed
  constructor
  · exact List.pairwise_of_forall_mem_list fun a listed b _ e st failed =>
      absurd failed (unfailing a listed e st)
  · exact fun a listed e st failed => absurd failed (unfailing a listed e st)
  · exact fun v said st same => by simpa using raises _ st same
  · exact fun f st same => by simpa using raises _ st same
  · intro a listed
    obtain ⟨c, args, st, rfl⟩ := calls a listed
    trivial

theorem silent {r : Run α} (silent : r.Silent) (st : State) {events : List Event}
    (calls : ∀ a ∈ events, ∃ c args st, a = .called c args st) :
    (⟨(r st).ending, events⟩ : Observed α).Orderly L := by
  have raises := silent.sink st
  refine uneventful (fun e st' failed => ?_) calls
  cases ran : r st with
  | fault f st'' =>
    rw [ran] at raises failed
    cases failed
    exact ⟨f, rfl, raises.2⟩
  | _ =>
    rw [ran] at failed
    cases failed

theorem cast {e : Failure} {st : State} {events : List Event}
    (orderly : (⟨.failure e st, events⟩ : Observed α).Orderly L) :
    (⟨.failure e st, events⟩ : Observed β).Orderly L where
  aborts := orderly.aborts
  fails a listed e' st' failed := by simpa using orderly.fails a listed e' st' failed
  refused v said st' same := orderly.refused v said st' (by simpa using same)
  raised f st' same := orderly.raised f st' (by simpa using same)
  genuine := orderly.genuine

theorem append {first : Observed α} {second : Observed β} (before : first.Orderly L)
    (after : second.Orderly L) (unfailing : ∀ e st, first.ending ≠ .failure e st) :
    (⟨second.ending, first.events ++ second.events⟩ : Observed β).Orderly L where
  aborts := by
    refine List.pairwise_append.mpr ⟨before.aborts, after.aborts, ?_⟩
    intro a listed b _ e st failed
    exact absurd (before.fails a listed e st failed) (unfailing e st)
  fails a listed e st failed := by
    rcases List.mem_append.mp listed with early | late
    · exact absurd (before.fails a early e st failed) (unfailing e st)
    · exact after.fails a late e st failed
  refused v said st same := List.mem_append_right _ (after.refused v said st same)
  raised := after.raised
  genuine a listed := by
    rcases List.mem_append.mp listed with early | late
    · exact before.genuine a early
    · exact after.genuine a late

theorem within {n : Nat} {s : ScopeId} {t : Tree} {st : State} {q : Recorded Value}
    (recorded : record L n s t = Recorded.within s t q) (orderly : (q st).Orderly L) :
    (Recorded.within s t q st).Orderly L where
  aborts := by
    have last : ∀ a ∈ (q st).events, ∀ b ∈ [Event.ended s t st (q st).ending],
        ∀ e st', a.Fails e st' → b.Aborts e st' := by
      intro a listed b here e st' failed
      rw [List.mem_singleton.mp here, orderly.fails a listed e st' failed]
      exact ⟨s, t, st, rfl⟩
    have start : ∀ b ∈ (q st).events ++ [Event.ended s t st (q st).ending],
        ∀ e st', (Event.started s t st).Fails e st' → b.Aborts e st' := by
      intro b _ e st' failed
      cases failed
    exact .cons start
      (List.pairwise_append.mpr ⟨orderly.aborts, List.pairwise_singleton _ _, last⟩)
  fails a listed e st' failed := by
    simp only [Recorded.within, List.cons_append, List.mem_cons, List.mem_append,
      List.not_mem_nil, or_false] at listed
    rcases listed with rfl | inside | rfl
    · cases failed
    · exact orderly.fails a inside e st' failed
    · generalize ended : (q st).ending = ending at failed
      cases failed
      exact ended
  refused v said st' same := by
    have inside := orderly.refused v said st' same
    simp [Recorded.within, inside]
  raised := orderly.raised
  genuine a listed := by
    simp only [Recorded.within, List.cons_append, List.mem_cons, List.mem_append,
      List.not_mem_nil, or_false] at listed
    rcases listed with rfl | inside | rfl
    · trivial
    · exact orderly.genuine a inside
    · exact ⟨n, by rw [recorded]; rfl⟩

end Observed.Orderly

theorem orderly_follows (L : Listener) :
    Recorded.Follows L fun _ _ q => ∀ st, (q st).Orderly L where
  pure a st := .uneventful (by simp) (by simp)
  bind := by
    intro α β r q k l first next st
    have before := first st
    rw [Recorded.bind_apply]
    generalize q st = o at before
    obtain ⟨ending, events⟩ := o
    cases ending with
    | value a st' => exact before.append (next a st') (by simp)
    | failure e st' => exact before.cast
    | exhausted =>
      exact ⟨before.aborts, by simpa using before.fails, by simp, by simp, before.genuine⟩
  exhausted st := .uneventful (by simp) (by simp)
  act plain st := .silent plain.toSilent st (by simp)
  call c args st := .silent (.enter c args) st (by simp)
  print v st := by
    unfold Recorded.print
    cases answer : L.refusal? st.sink v with
    | none =>
      refine ⟨List.pairwise_singleton _ _, ?_, by simp, by simp, by simpa [Event.Genuine]⟩
      intro a listed e st' failed
      rw [List.mem_singleton.mp listed] at failed
      cases failed
    | some said =>
      refine ⟨List.pairwise_singleton _ _, ?_, ?_, by simp, by simpa [Event.Genuine]⟩
      · intro a listed e st' failed
        rw [List.mem_singleton.mp listed] at failed
        cases failed
        rfl
      · intro v' said' st' same
        cases same
        exact List.mem_singleton_self _
  within recorded orderly st := (orderly st).within recorded

theorem record_orderly (L : Listener) (n : Nat) (s : ScopeId) (t : Tree) (st : State) :
    (record L n s t st).Orderly L :=
  (orderly_follows L).record n s t st

/-- A failure anywhere in an evaluation is the failure of the whole, in the state in which it
happened. After it there are only the ends of the evaluations around it: nothing else is evaluated
and nothing is printed. -/
theorem failures_abort_unchanged (L : Listener) (n : Nat) (s : ScopeId) (t : Tree) (st : State)
    {before after : List Event} {s' : ScopeId} {u : Tree} {start : State} {e : Failure}
    {st' : State}
    (happened : (record L n s t st).events =
      before ++ .ended s' u start (.failure e st') :: after) :
    (∃ k, (record L k s' u start).ending = .failure e st') ∧
    (record L n s t st).ending = .failure e st' ∧
    (∀ a ∈ after, a.Aborts e st') ∧
    (L = .lines → (∃ k, eval k s' u start = .fault e.fault st') ∧
      ∀ m, n ≤ m → eval m s t st = .fault e.fault st') := by
  have orderly := record_orderly L n s t st
  have listed : Event.ended s' u start (.failure e st') ∈ (record L n s t st).events := by
    simp [happened]
  have genuine := orderly.genuine _ listed
  have ending := orderly.fails _ listed e st' .ended
  refine ⟨genuine, ending, ?_, ?_⟩
  · have ordered := orderly.aborts
    rw [happened, List.pairwise_append, List.pairwise_cons] at ordered
    intro a later
    exact ordered.2.1.1 a later e st' .ended
  · rintro rfl
    obtain ⟨k, part⟩ := genuine
    have whole : eval n s t st = .fault e.fault st' := by
      rw [← record_outcome, ending]
      rfl
    refine ⟨⟨k, ?_⟩, fun m le => ?_⟩
    · rw [← record_outcome, part]
      rfl
    · rw [eval_eq_of_le le (by simp [whole]), whole]

def Tree.interrupted : Tree :=
  let divides : Tree := .function ["x"] (.seq (.binary (.var "x") "/" (.int 0)) (.print (.int 2)))
  .seq (.print (.int 1)) (.binary (.call divides [.int 7]) "+" (.print (.int 3)))

def Event.isDivision : Event → Bool
  | .ended 1 (.binary _ _ _) _ (.failure (.raised (.zeroDivisor dividend)) st) =>
    dividend = 7 && st.sink.text = Text.ofString "1\n"
  | _ => false

theorem interrupted_aborts :
    ∃ left op right start k st',
      eval k 1 (.binary left op right) start = .fault (.zeroDivisor 7) st' ∧
      eval 9 0 .interrupted ⟨⟨#[⟨none, []⟩], 0⟩, .unlimited, #[]⟩ = .fault (.zeroDivisor 7) st' ∧
      st'.sink.text = Text.ofString "1\n" := by
  have found : (record .lines 9 0 .interrupted ⟨⟨#[⟨none, []⟩], 0⟩, .unlimited, #[]⟩).events.any
      Event.isDivision = true := by decide +kernel
  obtain ⟨a, listed, division⟩ := List.any_eq_true.mp found
  obtain ⟨before, after, split⟩ := List.append_of_mem listed
  unfold Event.isDivision at division
  split at division
  · next left op right start dividend st' =>
    obtain ⟨rfl, printed⟩ : dividend = 7 ∧ st'.sink.text = Text.ofString "1\n" := by
      simpa using division
    obtain ⟨-, -, -, lines⟩ := failures_abort_unchanged .lines 9 0 _ _ split
    obtain ⟨⟨k, part⟩, whole⟩ := lines rfl
    exact ⟨left, op, right, start, k, st', part, whole 9 (Nat.le_refl 9), printed⟩
  · cases division

end Treewalk

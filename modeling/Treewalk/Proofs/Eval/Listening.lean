import Treewalk.Proofs.Eval.Record

/-! Listeners and full sinks. An evaluation that a listener ends by refusing a value would have
ended there with any sink that is full by then, and one that no listener interrupts goes on with
any sink that has room. So whatever holds of scopes and results for every limit of a sink holds for
every listener, whatever its reasons to refuse. -/
namespace Treewalk

/-- A sink with this limit refuses where the listener did, and nowhere before. -/
def Ending.Suits {α : Type} (limit : Nat) : Ending α → Prop
  | .value _ st | .failure (.raised _) st => st.sink.lines.size ≤ limit
  | .failure (.refused _ _) st => st.sink.lines.size = limit
  | .exhausted => False

theorem Ending.exists_suits {α : Type} {ending : Ending α} (ends : ending ≠ .exhausted) :
    ∃ limit, ending.Suits limit := by
  cases ending with
  | value a st => exact ⟨st.sink.lines.size, Nat.le_refl _⟩
  | failure e st => cases e <;> exact ⟨st.sink.lines.size, by simp [Suits]⟩
  | exhausted => exact absurd rfl ends

def Run.Heard {α : Type} (r : Run α) (q : Recorded α) : Prop :=
  ∀ st limit, (q st).ending.Suits limit →
    st.sink.lines.size ≤ limit ∧ r (st.limited limit) = (q st).ending.outcome.limited limit

theorem Run.Silent.heard {α : Type} {r : Run α} (silent : r.Silent) {st : State} {limit : Nat}
    (suits : (r st).ending.Suits limit) :
    st.sink.lines.size ≤ limit ∧
      r (st.limited limit) = (r st).ending.outcome.limited limit := by
  refine ⟨?_, by rw [silent.limited, Outcome.outcome_ending]⟩
  have sink := silent.sink st
  cases ran : r st with
  | value a st' =>
    rw [ran] at suits sink
    exact sink ▸ suits
  | fault f st' =>
    rw [ran] at suits sink
    exact sink.1 ▸ suits
  | exhausted =>
    rw [ran] at suits
    exact suits.elim

theorem heard_follows (L : Listener) : Recorded.Follows L fun _ => Run.Heard where
  pure a st limit room := ⟨room, rfl⟩
  bind := by
    intro α β r q k l first next st limit suits
    rw [Recorded.bind_apply] at suits ⊢
    have start := first st limit
    simp only [Bind.bind, Run.bind]
    cases ended : (q st).ending with
    | value a st' =>
      rw [ended] at suits start
      obtain ⟨room, rest⟩ := next a st' limit suits
      obtain ⟨earlier, ran⟩ := start room
      exact ⟨earlier, by rw [ran]; exact rest⟩
    | failure e st' =>
      rw [ended] at suits start
      obtain ⟨earlier, ran⟩ := start (by cases e <;> exact suits)
      exact ⟨earlier, by rw [ran]; rfl⟩
    | exhausted =>
      rw [ended] at suits
      exact suits.elim
  exhausted st limit suits := suits.elim
  act plain st limit suits := plain.toSilent.heard suits
  call c args st limit suits := (Run.Silent.enter c args).heard suits
  print v st limit suits := by
    unfold Recorded.print at suits ⊢
    cases answer : L.refusal? st.sink v with
    | none =>
      rw [answer] at suits
      have room : st.sink.lines.size + 1 ≤ limit := by simpa [Ending.Suits] using suits
      have accepts : (st.limited limit).sink.accepts = true := decide_eq_true room
      rw [Run.print_apply, if_pos accepts]
      exact ⟨Nat.le_of_succ_le room, rfl⟩
    | some said =>
      rw [answer] at suits
      have full : st.sink.lines.size = limit := suits
      have refuses : (st.limited limit).sink.accepts = false :=
        decide_eq_false (Nat.not_lt.mpr (Nat.le_of_eq full.symm))
      rw [Run.print_apply, refuses]
      exact ⟨Nat.le_of_eq full, rfl⟩
  within _ heard := heard

/-- However an evaluation before a listener ends, before some sink it ends in the same way. -/
theorem eval_of_record {L : Listener} {n : Nat} {s : ScopeId} {t : Tree} {st : State}
    (ends : (record L n s t st).ending ≠ .exhausted) :
    ∃ limit, eval n s t (st.limited limit) =
      (record L n s t st).ending.outcome.limited limit := by
  obtain ⟨limit, suits⟩ := Ending.exists_suits ends
  exact ⟨limit, ((heard_follows L).record n s t st limit suits).2⟩

theorem record_meets {L : Listener} {n : Nat} {s : ScopeId} {t : Tree} {st : State}
    {V : Value → Store → Prop} {F : Fault → Store → Prop}
    (meets : ∀ limit, (eval n s t (st.limited limit)).Meets (fun v st' => V v st'.store)
      (fun f st' => F f st'.store)) :
    (record L n s t st).ending.Meets (fun v st' => V v st'.store)
      (fun e st' => F e.fault st'.store) := by
  cases ending : (record L n s t st).ending with
  | exhausted => trivial
  | _ =>
    obtain ⟨limit, ran⟩ := eval_of_record (ne_of_eq_of_ne ending (by simp))
    have limited := meets limit
    rw [ran, ending] at limited
    exact limited

end Treewalk

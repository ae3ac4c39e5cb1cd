import Treewalk.Proofs.Eval.SinkLimit

/-! Sinks that hold lines already. An evaluation does not see what was written before it, only how
many lines are still accepted, so it does the same as with an empty sink that accepts that many. -/
namespace Treewalk

/-- The sink when some lines had been written to it earlier. -/
def Sink.behind (earlier : Array Text) (k : Sink) : Sink :=
  ⟨k.limit.map (earlier.size + ·), earlier ++ k.lines⟩

def State.behind (earlier : Array Text) (st : State) : State :=
  { st with sink := st.sink.behind earlier }

def Outcome.behind {α : Type} (earlier : Array Text) : Outcome α → Outcome α
  | .value a st => .value a (st.behind earlier)
  | .fault f st => .fault f (st.behind earlier)
  | .exhausted => .exhausted

variable {earlier : Array Text}

theorem Sink.accepts_behind (k : Sink) : (k.behind earlier).accepts = k.accepts := by
  unfold accepts behind
  cases k.limit <;> simp

theorem Sink.text_behind (k : Sink) :
    (k.behind earlier).text = (earlier.toList.map Text.line).flatten ++ k.text := by
  simp [text, behind]

theorem Run.print_behind (v : Value) (st : State) :
    Run.print v (st.behind earlier) = (Run.print v st).behind earlier := by
  rw [Run.print_apply, Run.print_apply]
  change (if (st.sink.behind earlier).accepts then _ else _) = _
  rw [Sink.accepts_behind]
  split
  · simp [Outcome.behind, State.behind, Sink.behind]
  · rfl

/-- Wherever the first run ends, the second one does the same, with the earlier lines in the sink
of either of them. -/
structure Run.Moves (earlier : Array Text) {α : Type} (r r' : Run α) : Prop where
  onward (st : State) : r st ≠ .exhausted → r' (st.behind earlier) = (r st).behind earlier
  back (st : State) : r (st.behind earlier) ≠ .exhausted →
    (r' st).behind earlier = r (st.behind earlier)

namespace Run.Moves

variable {α β : Type}

theorem of_eq {r : Run α} (same : ∀ st, r (st.behind earlier) = (r st).behind earlier) :
    Moves earlier r r where
  onward st _ := same st
  back st _ := (same st).symm

theorem bind {r r' : Run α} {k k' : α → Run β} (first : Moves earlier r r')
    (next : ∀ a, Moves earlier (k a) (k' a)) : Moves earlier (r >>= k) (r' >>= k') where
  onward st ends := by
    simp only [Bind.bind, Run.bind] at ends ⊢
    have moved := first.onward st
    cases outcome : r st with
    | value a st' =>
      rw [outcome] at ends moved
      rw [moved (by simp)]
      exact (next a).onward st' ends
    | fault f st' =>
      rw [outcome] at moved
      rw [moved (by simp)]
      rfl
    | exhausted =>
      rw [outcome] at ends
      exact absurd rfl ends
  back st ends := by
    simp only [Bind.bind, Run.bind] at ends ⊢
    have running : r (st.behind earlier) ≠ .exhausted := by
      intro exhausted
      rw [exhausted] at ends
      exact ends rfl
    rw [← first.back st running] at ends ⊢
    cases outcome : r' st with
    | value a st' =>
      rw [outcome] at ends
      exact (next a).back st' ends
    | fault f st' => rfl
    | exhausted => rfl

end Run.Moves

theorem Run.moves_congruence : Run.Congruence fun _ => Run.Moves earlier where
  pure a := .of_eq fun _ => rfl
  bind := Run.Moves.bind
  exhausted r := ⟨fun _ ends => absurd rfl ends, fun _ ends => absurd rfl ends⟩
  fail f := .of_eq fun _ => rfl
  resolve s name := .of_eq fun _ => rfl
  update s name v := .of_eq fun _ => rfl
  create s name v := by
    refine .of_eq fun st => ?_
    unfold Run.create
    change (if st.store.declares s name then _ else _) = _
    split <;> rfl
  newScope outer := .of_eq fun _ => rfl
  newClosure params body s := .of_eq fun _ => rfl
  print v := .of_eq (Run.print_behind v)
  noteMismatch params args := by
    refine .of_eq fun st => ?_
    unfold Run.noteMismatch
    split <;> rfl

theorem eval_behind (n : Nat) (s : ScopeId) (t : Tree) (st : State) :
    eval n s t (st.behind earlier) = (eval n s t st).behind earlier := by
  have moves : Run.Moves earlier (eval n s t) (eval n s t) :=
    Run.moves_congruence.eval (Nat.le_refl n) s t
  by_cases ends : eval n s t (st.behind earlier) = .exhausted
  · by_cases exhausted : eval n s t st = .exhausted
    · rw [ends, exhausted]
      rfl
    · exact moves.onward st exhausted
  · exact (moves.back st ends).symm

end Treewalk

import Treewalk.Proofs.Eval.Binding
import Treewalk.Proofs.Eval.Record

/-! The notes of an evaluation. One is taken for every call of the evaluation whose arguments are
too few or too many, in the order of the calls, and none for anything else. -/
namespace Treewalk

/-- The note that an event gives rise to. -/
def Event.mismatch? : Event → Option ArityMismatch
  | .called c args _ =>
    if c.params.length = args.length then none else some ⟨c.params.length, args.length⟩
  | _ => none

theorem State.Opening.notes {c : Closure} {args : List Value} {st st' : State}
    (opening : Opening c args st st') :
    st'.mismatches.toList = st.mismatches.toList ++
      [Event.called c args st].filterMap Event.mismatch? := by
  rw [opening.noted]
  by_cases fits : c.params.length = args.length <;> simp [Event.mismatch?, fits]

end Treewalk

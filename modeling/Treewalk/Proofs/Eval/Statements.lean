import Mathlib.Data.List.Induction
import Treewalk.Proofs.Eval.Adequacy

/-! Lists of statements. Two statements are joined into one that evaluates both, and joining them
two by two makes one statement of a whole list. Where the brackets fall makes no difference: the
statements are evaluated one after the other, up to the first that fails, and are shown alike. -/
namespace Treewalk

def evalInTurn (n : Nat) (s : ScopeId) : List Tree → Run Value
  | [] => Run.pure .null
  | [t] => eval n s t
  | t :: next :: rest => do
    let _ ← eval n s t
    evalInTurn n s (next :: rest)

/-- The tree joins the statements two by two, in their order. -/
inductive Tree.Joins : List Tree → Tree → Prop where
  | one (t : Tree) : Joins [t] t
  | both {front back : List Tree} {first second : Tree} : Joins front first → Joins back second →
    Joins (front ++ back) (.seq first second)

variable {n k : Nat} {statements back : List Tree} {t : Tree}

theorem evalInTurn_append (n : Nat) (s : ScopeId) (front : List Tree) (some : back ≠ []) :
    evalInTurn n s (front ++ back) =
      (do let _ ← evalInTurn n s front; evalInTurn n s back) := by
  obtain ⟨u, back, rfl⟩ := List.exists_cons_of_ne_nil some
  induction front with
  | nil => rfl
  | cons t front ih =>
    cases front with
    | nil => rfl
    | cons next front =>
      change (do let _ ← eval n s t; evalInTurn n s (next :: front ++ u :: back)) = _
      rw [ih, evalInTurn, Run.bind_assoc]

theorem Text.intercalate_append (sep : Text) {front back : List Text} (some₁ : front ≠ [])
    (some₂ : back ≠ []) :
    sep.intercalate (front ++ back) = sep.intercalate front ++ sep ++ sep.intercalate back := by
  induction front with
  | nil => exact absurd rfl some₁
  | cons t front ih =>
    cases front with
    | nil =>
      rw [List.singleton_append, List.intercalate_cons_of_ne_nil some₂, List.intercalate_singleton]
    | cons next front =>
      rw [List.cons_append, List.intercalate_cons_of_ne_nil (by simp), ih (by simp),
        List.intercalate_cons_cons]
      simp only [List.append_assoc]

namespace Tree

theorem Joins.ne_nil (joins : Joins statements t) : statements ≠ [] := by
  induction joins with
  | one t => simp
  | both _ _ first _ => simp [first]

theorem Joins.length_pos (joins : Joins statements t) : 0 < statements.length :=
  List.length_pos_of_ne_nil joins.ne_nil

theorem joins_block (first : Tree) (rest : List Tree) :
    Joins (first :: rest) (block first rest) := by
  induction rest using List.reverseRecOn with
  | nil => exact .one first
  | append_singleton rest last ih =>
    rw [block_append_singleton]
    exact .both ih (.one last)

theorem Joins.text_eq (joins : Joins statements t) :
    t.text = List.intercalate (Text.ofString "; ") (statements.map text) := by
  induction joins with
  | one t => simp
  | both first second ih₁ ih₂ =>
    rw [text, ih₁, ih₂, List.map_append, Text.intercalate_append _
      (by simpa using first.ne_nil) (by simpa using second.ne_nil)]

theorem Joins.eval_approximates (joins : Joins statements t) (le : n ≤ k) (s : ScopeId) :
    Run.Approximates (eval n s t) (evalInTurn k s statements) := by
  have laws := Run.approximates_congruence
  induction joins generalizing n k with
  | one t => exact laws.eval le s t
  | both first second ih₁ ih₂ =>
    cases n with
    | zero => exact laws.exhausted _
    | succ n =>
      rw [evalInTurn_append k s _ second.ne_nil]
      exact laws.bind (ih₁ (by omega)) fun _ => ih₂ (by omega)

/-- The other way around, the brackets take some depth, at most one level for each statement
behind the first. -/
theorem Joins.approximates_eval (joins : Joins statements t)
    (le : n + statements.length ≤ k + 1) (s : ScopeId) :
    Run.Approximates (evalInTurn n s statements) (eval k s t) := by
  have laws := Run.approximates_congruence
  induction joins generalizing n k with
  | one t => exact laws.eval (by simpa using le) s t
  | both first second ih₁ ih₂ =>
    have some₁ := first.length_pos
    have some₂ := second.length_pos
    rw [List.length_append] at le
    obtain ⟨k, rfl⟩ : ∃ m, k = m + 1 := ⟨k - 1, by omega⟩
    rw [evalInTurn_append n s _ second.ne_nil]
    exact laws.bind (ih₁ (by omega)) fun _ => ih₂ (by omega)

theorem Joins.ends_iff (joins : Joins statements t) (s : ScopeId) (st : State) {o : Outcome Value}
    (ends : o ≠ .exhausted) :
    (∃ n, eval n s t st = o) ↔ ∃ n, evalInTurn n s statements st = o := by
  constructor
  · rintro ⟨n, rfl⟩
    exact ⟨n, joins.eval_approximates le_rfl s st ends⟩
  · rintro ⟨n, rfl⟩
    exact ⟨n + statements.length, joins.approximates_eval (by omega) s st ends⟩

end Tree

/-- A list of statements, joined from the left as programs are or with any other brackets, ends as
its statements do one after the other in the same scope, and is shown in one way only. -/
theorem statements_evaluated_in_turn (first : Tree) (rest : List Tree) :
    (∀ s st o, o ≠ .exhausted →
      ((∃ n, eval n s (.block first rest) st = o) ↔
        ∃ n, evalInTurn n s (first :: rest) st = o)) ∧
    ∀ t, Tree.Joins (first :: rest) t →
      (∀ s st o, o ≠ .exhausted →
        ((∃ n, eval n s t st = o) ↔ ∃ n, eval n s (.block first rest) st = o)) ∧
      t.text = (Tree.block first rest).text := by
  have block := Tree.joins_block first rest
  refine ⟨fun s st o => block.ends_iff s st, fun t joins => ⟨fun s st o ends => ?_, ?_⟩⟩
  · rw [joins.ends_iff s st ends, block.ends_iff s st ends]
  · rw [joins.text_eq, block.text_eq]

def Tree.cutShort : Tree :=
  .seq (.print (.int 1)) (.seq (.seq (.declare "x" (.int 2)) .missing) (.print (.var "x")))

theorem cutShort_in_turn :
    Tree.Joins [.print (.int 1), .declare "x" (.int 2), .missing, .print (.var "x")] .cutShort ∧
      Tree.cutShort.text =
        (Tree.block (.print (.int 1)) [.declare "x" (.int 2), .missing, .print (.var "x")]).text ∧
      ∃ n st', evalInTurn n 0
          [.print (.int 1), .declare "x" (.int 2), .missing, .print (.var "x")]
          ⟨⟨#[⟨none, []⟩], 0⟩, .unlimited, #[]⟩ = .fault .missingNode st' ∧
        st'.sink.lines.toList = [Text.ofString "1"] := by
  have joins : Tree.Joins [.print (.int 1), .declare "x" (.int 2), .missing, .print (.var "x")]
      .cutShort :=
    .both (.one _) (.both (.both (.one _) (.one _)) (.one _))
  obtain ⟨inTurn, others⟩ := statements_evaluated_in_turn (.print (.int 1))
    [.declare "x" (.int 2), .missing, .print (.var "x")]
  obtain ⟨alike, shown⟩ := others .cutShort joins
  obtain ⟨st', ran, printed⟩ : ∃ st', eval 9 0 .cutShort ⟨⟨#[⟨none, []⟩], 0⟩, .unlimited, #[]⟩
      = .fault .missingNode st' ∧ st'.sink.lines.toList = [Text.ofString "1"] :=
    ⟨_, rfl, by decide⟩
  have blocks := (alike 0 _ _ (by simp)).mp ⟨9, ran⟩
  obtain ⟨n, ends⟩ := (inTurn 0 _ _ (by simp)).mp blocks
  exact ⟨joins, shown, n, st', ends, printed⟩

end Treewalk

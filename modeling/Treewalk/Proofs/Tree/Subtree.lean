import Mathlib.Logic.Relation
import Treewalk.Tree.Basic

/-! The trees inside of a tree, and what holds of all of them. -/
namespace Treewalk.Tree

/-- The trees that are evaluated in the same scope on the way to the value of a tree. -/
def parts : Tree → List Tree
  | .missing | .atom _ _ | .var _ | .function _ _ => []
  | .print operand => [operand]
  | .binary left _ right => [left, right]
  | .ifElse condition thenDo .missing => [thenDo, condition]
  | .ifElse condition thenDo elseDo => [thenDo, elseDo, condition]
  | .loop condition body => [condition, body]
  | .seq first second => [first, second]
  | .declare _ init => [init]
  | .assign _ expr => [expr]
  | .call callee args => callee :: args

def children : Tree → List Tree
  | .function _ body => [body]
  | t => t.parts

variable {P : Tree → Prop} {t u : Tree}

theorem mem_children_of_mem_parts (inside : u ∈ t.parts) : u ∈ t.children := by
  cases t with
  | function => cases inside
  | _ => exact inside

def Every (P : Tree → Prop) (t : Tree) : Prop :=
  ∀ u, Relation.ReflTransGen (fun u t => u ∈ children t) u t → P u

theorem every_iff : t.Every P ↔ P t ∧ ∀ u ∈ t.children, u.Every P := by
  constructor
  · intro every
    exact ⟨every t .refl, fun u inside w within => every w (within.tail inside)⟩
  · rintro ⟨here, inner⟩ u within
    obtain rfl | ⟨w, within, inside⟩ := within.cases_tail
    · exact here
    · exact inner w inside u within

theorem Every.own (every : t.Every P) : P t := (every_iff.mp every).1

theorem Every.inner (every : t.Every P) (inside : u ∈ t.children) : u.Every P :=
  (every_iff.mp every).2 u inside

theorem Every.part (every : t.Every P) (inside : u ∈ t.parts) : u.Every P :=
  every.inner (mem_children_of_mem_parts inside)

end Treewalk.Tree

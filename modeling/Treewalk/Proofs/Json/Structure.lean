import Treewalk.Proofs.Json.Grammar
import Treewalk.Tree.Decode

/-! Trees in JSON values. A node is an object; its fields are the first members of their names,
and what other members hold does not matter. -/
namespace Treewalk

def NodeKind.named? : String → Option NodeKind
  | "int" => some .int
  | "bool" => some .bool
  | "null" => some .null
  | "var" => some .var
  | "print" => some .print
  | "binop" => some .binop
  | "if" => some .ifElse
  | "while" => some .loop
  | "seq" => some .seq
  | "var_decl" => some .declare
  | "assign" => some .assign
  | "function" => some .function
  | "call" => some .call
  | _ => none

namespace Json

def name? : Json → Option Name
  | .string s => some (Text.ofString s)
  | _ => none

def truth? : Json → Option Bool
  | .bool b => some b
  | _ => none

def integer? : Json → Option Int
  | .number q => q.integer?
  | _ => none

abbrev Part (members : List (String × Json)) := { j : Json // sizeOf j < sizeOf members }

theorem mem_of_lookup {members : List (String × Json)} {name : String} {j : Json}
    (found : members.lookup name = some j) : (name, j) ∈ members := by
  obtain ⟨before, after, rfl, -⟩ := List.lookup_eq_some_iff.mp found
  exact List.mem_append_right before (.head after)

theorem sizeOf_lt_of_lookup {members : List (String × Json)} {name : String} {j : Json}
    (found : members.lookup name = some j) : sizeOf j < sizeOf members := by
  have smaller := List.sizeOf_lt_of_mem (mem_of_lookup found)
  simp only [Prod.mk.sizeOf_spec] at smaller
  omega

def child (members : List (String × Json)) (name : String) : Option (Part members) :=
  match found : members.lookup name with
  | none | some .null => none
  | some j => some ⟨j, sizeOf_lt_of_lookup found⟩

def parameters (members : List (String × Json)) : Option (List Name) :=
  match members.lookup "params" with
  | none => some []
  | some (.array items) => items.mapM name?
  | some _ => none

def arguments (members : List (String × Json)) : Option (List (Part members)) :=
  match found : members.lookup "args" with
  | none => some []
  | some (.array items) => some (items.attach.map fun ⟨j, listed⟩ => ⟨j, by
      have inside := List.sizeOf_lt_of_mem listed
      have bound := sizeOf_lt_of_lookup found
      simp only [array.sizeOf_spec] at bound
      omega⟩)
  | some _ => none

def tree? (j : Json) : Option Tree :=
  match j with
  | .object members =>
    match members.lookup "kind" with
    | some (.string label) =>
      match NodeKind.named? label with
      | none => none
      | some .int => return .int (Int64.ofInt (← (members.lookup "value").bind integer?))
      | some .bool => return .bool (← (members.lookup "value").bind truth?)
      | some .null => some .null
      | some .var => return .var (← (members.lookup "name").bind name?)
      | some .print => do
        let ⟨operand, _⟩ ← child members "expr"
        return .print (← tree? operand)
      | some .binop => do
        let op ← (members.lookup "op").bind name?
        let ⟨left, _⟩ ← child members "left"
        let left ← tree? left
        let ⟨right, _⟩ ← child members "right"
        return .binary left op (← tree? right)
      | some .ifElse => do
        let ⟨condition, _⟩ ← child members "cond"
        let condition ← tree? condition
        let ⟨thenDo, _⟩ ← child members "then"
        let thenDo ← tree? thenDo
        match child members "else" with
        | some ⟨elseDo, _⟩ => return .ifElse condition thenDo (← tree? elseDo)
        | none => return .ifElse condition thenDo .missing
      | some .loop => do
        let ⟨condition, _⟩ ← child members "cond"
        let condition ← tree? condition
        let ⟨body, _⟩ ← child members "body"
        return .loop condition (← tree? body)
      | some .seq => do
        let ⟨first, _⟩ ← child members "first"
        let first ← tree? first
        let ⟨second, _⟩ ← child members "second"
        return .seq first (← tree? second)
      | some .declare => do
        let name ← (members.lookup "name").bind name?
        let ⟨init, _⟩ ← child members "init"
        return .declare name (← tree? init)
      | some .assign => do
        let name ← (members.lookup "name").bind name?
        let ⟨expr, _⟩ ← child members "expr"
        return .assign name (← tree? expr)
      | some .function => do
        let params ← parameters members
        let ⟨body, _⟩ ← child members "body"
        return .function params (← tree? body)
      | some .call => do
        let ⟨callee, _⟩ ← child members "fn"
        let callee ← tree? callee
        let args ← arguments members
        return .call callee (← args.mapM fun ⟨arg, _⟩ => tree? arg)
    | _ => none
  | _ => none
termination_by sizeOf j
decreasing_by
  all_goals
    simp only [object.sizeOf_spec]
    omega

/-- The nodes of a document: the document itself, and the nodes of its fields and arguments. -/
inductive Node : Json → Json → Prop where
  | self {j : Json} : Node j j
  | field {members : List (String × Json)} {name : String} {v k : Json} :
    members.lookup name = some v → Node v k → Node (.object members) k
  | argument {members : List (String × Json)} {items : List Json} {v k : Json} :
    members.lookup "args" = some (.array items) → v ∈ items → Node v k → Node (.object members) k

/-- The integers in the `int` nodes of a document are 64-bit integers. -/
def IntegersFit (j : Json) : Prop :=
  ∀ members i, j.Node (.object members) → members.lookup "kind" = some (.string "int") →
    (members.lookup "value").bind integer? = some i → Text.minInt64 ≤ i ∧ i ≤ Text.maxInt64

end Json
end Treewalk

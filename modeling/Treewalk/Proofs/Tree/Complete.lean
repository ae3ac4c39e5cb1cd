import Treewalk.Document
import Treewalk.Proofs.Tree.Node
import Treewalk.Proofs.Tree.Subtree

/-! Complete trees: nothing is missing but an `else` branch, and every literal is written the way
its value is. Whatever a decoder returns is complete, and its nulls have no lexeme. -/
namespace Treewalk

inductive Tree.Complete : Tree → Prop where
  | int (n : Int64) : Complete (.atom .int (Text.int64 n))
  | bool (b : Bool) : Complete (.atom .bool (Text.truth b))
  | null (lexeme : Text) : Complete (.atom .null lexeme)
  | var (name : Name) : Complete (.var name)
  | print {operand : Tree} : Complete operand → Complete (.print operand)
  | binary {left right : Tree} (op : Text) :
    Complete left → Complete right → Complete (.binary left op right)
  | ifThen {condition thenDo : Tree} :
    Complete condition → Complete thenDo → Complete (.ifElse condition thenDo .missing)
  | ifElse {condition thenDo elseDo : Tree} : Complete condition → Complete thenDo →
    Complete elseDo → Complete (.ifElse condition thenDo elseDo)
  | loop {condition body : Tree} : Complete condition → Complete body →
    Complete (.loop condition body)
  | seq {first second : Tree} : Complete first → Complete second → Complete (.seq first second)
  | declare {init : Tree} (name : Name) : Complete init → Complete (.declare name init)
  | assign {expr : Tree} (name : Name) : Complete expr → Complete (.assign name expr)
  | function {body : Tree} (params : List Name) : Complete body → Complete (.function params body)
  | call {callee : Tree} {args : List Tree} : Complete callee → (∀ a ∈ args, Complete a) →
    Complete (.call callee args)

def Yields {α ε : Type} (P : α → Prop) (x : Except ε α) : Prop := ∀ a, x = .ok a → P a

namespace Yields

variable {α ε : Type} {P : α → Prop}

theorem ok {a : α} (proper : P a) : Yields P (.ok a : Except ε α) := by
  intro b equal
  cases equal
  exact proper

theorem error {e : ε} : Yields P (.error e : Except ε α) := by
  intro a equal
  cases equal

end Yields

def Tree.NullBare (t : Tree) : Prop := ∀ lexeme, t = .atom .null lexeme → lexeme = []

/-- Complete trees whose null literals are all alike. -/
structure Tree.Canonical (t : Tree) : Prop where
  complete : t.Complete
  bare : t.Every NullBare

theorem Tree.canonical_of_children {t : Tree} (complete : t.Complete) (bare : t.NullBare)
    (inner : ∀ u ∈ t.children, u.Canonical) : t.Canonical :=
  ⟨complete, every_iff.mpr ⟨bare, fun u inside => (inner u inside).bare⟩⟩

section Built

variable {data : Text} {decode : Wire.Inner data → Except DecodeError Tree} {kind : NodeKind}
  {t : Tree}

theorem Tree.Built.complete (built : Built decode kind t)
    (inner : ∀ w u, decode w = .ok u → u.Complete) : t.Complete := by
  have part {kind : NodeKind} {key : Text} {u : Tree} (decoded : Part decode kind key u) :
      u.Complete := by
    obtain ⟨w, -, decoded⟩ := decoded
    exact inner w u decoded
  cases built with
  | int => exact .int _
  | bool => exact .bool _
  | null => exact .null _
  | var => exact .var _
  | print operand => exact .print (part operand)
  | binary _ left right => exact .binary _ (part left) (part right)
  | ifThen condition thenDo _ => exact .ifThen (part condition) (part thenDo)
  | ifElse condition thenDo elseDo => exact .ifElse (part condition) (part thenDo) (part elseDo)
  | loop condition body => exact .loop (part condition) (part body)
  | seq first second => exact .seq (part first) (part second)
  | declare _ init => exact .declare _ (part init)
  | assign _ expr => exact .assign _ (part expr)
  | function _ body => exact .function _ (part body)
  | call callee _ args =>
    refine .call (part callee) fun u listed => ?_
    obtain ⟨w, -, decoded⟩ := List.mem_map.mp (args ▸ List.mem_map_of_mem listed)
    exact inner w u decoded

theorem Tree.Built.nullBare (built : Built decode kind t) : t.NullBare := by
  intro lexeme literal
  cases built with
  | null =>
    cases literal
    rfl
  | int | bool => cases literal
  | _ => cases literal

theorem Tree.Built.children {P : Tree → Prop} (built : Built decode kind t)
    (inner : ∀ w u, decode w = .ok u → P u) : ∀ u ∈ t.children, P u := by
  have part {kind : NodeKind} {key : Text} {u : Tree} (decoded : Part decode kind key u) : P u := by
    obtain ⟨w, -, decoded⟩ := decoded
    exact inner w u decoded
  cases built with
  | int | bool | null | var => simp [Tree.children, parts, Tree.int, Tree.bool, Tree.null]
  | print operand | declare _ operand | assign _ operand | function _ operand =>
    simpa [Tree.children, parts] using part operand
  | binary _ first second | ifThen second first _ | loop first second | seq first second =>
    simpa [Tree.children, parts] using ⟨part first, part second⟩
  | @ifElse _ _ other condition thenDo elseDo =>
    cases other <;> simp [Tree.children, parts, part condition, part thenDo, part elseDo]
  | call callee _ args =>
    refine List.forall_mem_cons.mpr ⟨part callee, fun u listed => ?_⟩
    obtain ⟨w, -, decoded⟩ := List.mem_map.mp (args ▸ List.mem_map_of_mem listed)
    exact inner w u decoded

end Built

theorem ofWire_canonical (v : Wire.Value) : Yields Tree.Canonical (Tree.ofWire v) := by
  induction size : v.raw.length using Nat.strongRecOn generalizing v with
  | ind n ih =>
  have inner (w : Wire.Inner v.raw) (u : Tree) (decoded : Tree.ofWire w.val = .ok u) :
      u.Canonical := ih _ (size ▸ w.property) _ rfl u decoded
  intro t decoded
  rw [Tree.ofWire] at decoded
  obtain ⟨kind, -, built⟩ := Tree.built_of_node decoded
  exact Tree.canonical_of_children (built.complete fun w u decoded => (inner w u decoded).complete)
    built.nullBare (built.children inner)

theorem ofWire_complete (v : Wire.Value) : Yields Tree.Complete (Tree.ofWire v) :=
  fun t decoded => (ofWire_canonical v t decoded).complete

theorem ofJson_complete (text : Text) : Yields Tree.Complete (Tree.ofJson text) := by
  unfold Tree.ofJson
  split
  · exact ofWire_complete _
  · exact .error

theorem ofDocument_complete (format : Format) (text : Text) :
    Yields Tree.Complete (Tree.ofDocument format text) := by
  have json (text : Text) :
      Yields Tree.Complete ((Tree.ofJson text).mapError DocumentError.tree) := by
    have complete := ofJson_complete text
    cases result : Tree.ofJson text with
    | error e => exact .error
    | ok t => exact .ok (complete t result)
  cases format with
  | json => exact json text
  | yaml =>
    rw [Tree.ofDocument, Tree.ofYaml]
    split
    · unfold Tree.ofDatum
      split
      · exact json _
      · exact .error
    · exact .error

end Treewalk

import Treewalk.Proofs.Wire.Slices
import Treewalk.Tree.Decode

/-! One level of decoding. What a node hands on to be decoded, what it builds from the results, and
that it depends on nothing else; each is said once for all kinds of nodes. -/
namespace Treewalk

open Wire (Inner)

theorem ok_of_bind {α β ε : Type} {x : Except ε α} {f : α → Except ε β} {b : β}
    (ended : x >>= f = .ok b) : ∃ a, x = .ok a ∧ f a = .ok b := by
  cases x with
  | error e => cases ended
  | ok a => exact ⟨a, rfl, ended⟩

theorem bind_congr_ok {α β ε : Type} {x : Except ε α} {f g : α → Except ε β}
    (same : ∀ a, x = .ok a → f a = g a) : x >>= f = x >>= g := by
  cases x with
  | error e => rfl
  | ok a => exact same a rfl

theorem mapM_congr {α β ε : Type} {f g : α → Except ε β} {as : List α}
    (same : ∀ a ∈ as, f a = g a) : as.mapM f = as.mapM g := by
  induction as with
  | nil => rfl
  | cons a as ih =>
    rw [List.forall_mem_cons] at same
    rw [List.mapM_cons, List.mapM_cons, same.1, ih same.2]

theorem map_of_mapM {α β ε : Type} {f : α → Except ε β} {as : List α} {bs : List β}
    (read : as.mapM f = .ok bs) : as.map f = bs.map .ok := by
  induction as generalizing bs with
  | nil =>
    cases read
    rfl
  | cons a as ih =>
    rw [List.mapM_cons] at read
    obtain ⟨b, first, read⟩ := ok_of_bind read
    obtain ⟨bs, rest, read⟩ := ok_of_bind read
    cases read
    rw [List.map_cons, List.map_cons, first, ih rest]

namespace NodeKind

def parts : NodeKind → List Text
  | int | bool | null | var => []
  | print | assign => ["expr"]
  | binop => ["left", "right"]
  | ifElse => ["cond", "then", "else"]
  | loop => ["cond", "body"]
  | seq => ["first", "second"]
  | declare => ["init"]
  | function => ["body"]
  | call => ["fn"]

theorem label_of_ofLabel? {label : Text} {kind : NodeKind} (known : ofLabel? label = some kind) :
    kind.label = label := by
  simpa using (List.find?_eq_some_iff_append.mp known).1

theorem label_injective {kind other : NodeKind} (same : kind.label = other.label) :
    kind = other := by
  have known := ofLabel?_label kind
  rw [same, ofLabel?_label other] at known
  exact (Option.some.inj known).symm

end NodeKind

def Wire.Value.IsNode (v : Wire.Value) (kind : NodeKind) : Prop :=
  v.kind = .object ∧ Wire.textMember "kind" v.raw = some kind.label

theorem Wire.Value.IsNode.unique {v : Wire.Value} {kind other : NodeKind} (node : v.IsNode kind)
    (again : v.IsNode other) : kind = other :=
  NodeKind.label_injective (Option.some.inj (node.2.symm.trans again.2))

namespace Tree

/-- The values inside of a node that are handed on to be decoded. -/
inductive Hands (v : Wire.Value) : Wire.Value → Prop where
  | part {kind : NodeKind} {key : Text} {w : Inner v.raw} : v.IsNode kind → key ∈ kind.parts →
    child kind key v.raw = .ok w → Hands v w.val
  | argument {ws : List (Inner v.raw)} {w : Inner v.raw} : v.IsNode .call →
    arguments v.raw = .ok ws → w ∈ ws → Hands v w.val

theorem child_eq_ok {kind : NodeKind} {key data : Text} {w : Inner data}
    (found : child kind key data = .ok w) : Wire.member key data = .ok w := by
  unfold child at found
  split at found
  · cases found
  · cases found
  · next member =>
    split at found
    · cases found
    · cases found
      exact member

theorem arguments_eq_ok {data : Text} {ws : List (Inner data)} (found : arguments data = .ok ws) :
    Wire.arrayMember "args" data = .ok ws ∨
      ws = [] ∧ Wire.arrayMember "args" data = .error .keyNotFound := by
  unfold arguments at found
  split at found
  · next absent =>
    cases found
    exact .inr ⟨rfl, absent⟩
  · cases found
  · next list =>
    cases found
    exact .inl list

theorem Hands.slice {v w : Wire.Value} (hands : Hands v w) :
    w.raw <:+: v.raw ∧ w.raw.length < v.raw.length := by
  cases hands with
  | @part _ _ w _ _ found => exact ⟨Wire.infix_of_member (child_eq_ok found), w.property⟩
  | @argument _ w _ found listed =>
    refine ⟨?_, w.property⟩
    obtain list | ⟨rfl, -⟩ := arguments_eq_ok found
    · exact Wire.infix_of_arrayMember list _ listed
    · cases listed

theorem optionalChild_eq_some {kind : NodeKind} {key data : Text} {w : Inner data} :
    optionalChild kind key data = .ok (some w) ↔ child kind key data = .ok w := by
  unfold optionalChild
  split <;> simp [*]

theorem node_congr {v : Wire.Value} {decode decode' : Inner v.raw → Except DecodeError Tree}
    (agree : ∀ w, Hands v w.val → decode w = decode' w) : node v decode = node v decode' := by
  unfold node
  split
  · rfl
  next object =>
  split
  · rfl
  next label named =>
  cases known : NodeKind.ofLabel? label with
  | none => rfl
  | some kind =>
  have isNode : v.IsNode kind :=
    ⟨not_not.mp object, by rw [named, NodeKind.label_of_ofLabel? known]⟩
  have part {key : Text} {f g : Tree → Except DecodeError Tree} (listed : key ∈ kind.parts)
      (rest : ∀ t, f t = g t) : (child kind key v.raw >>= fun w => decode w >>= f)
        = child kind key v.raw >>= fun w => decode' w >>= g := by
    refine bind_congr_ok fun w found => ?_
    rw [agree w (.part isNode listed found), funext rest]
  cases kind with
  | int | bool | null | var => rfl
  | print => exact part (by decide) fun operand => rfl
  | binop =>
    dsimp only
    split
    · exact part (by decide) fun left => part (by decide) fun right => rfl
    · rfl
  | ifElse =>
    refine part (by decide) fun condition => part (by decide) fun thenDo => ?_
    refine bind_congr_ok fun elseDo found => ?_
    cases elseDo with
    | none => rfl
    | some w =>
      have present := optionalChild_eq_some.mp found
      dsimp only
      rw [agree w (.part isNode (by decide) present)]
  | loop => exact part (by decide) fun condition => part (by decide) fun body => rfl
  | seq => exact part (by decide) fun first => part (by decide) fun second => rfl
  | declare => exact bind_congr_ok fun name _ => part (by decide) fun init => rfl
  | assign => exact bind_congr_ok fun name _ => part (by decide) fun expr => rfl
  | function => exact bind_congr_ok fun params _ => part (by decide) fun body => rfl
  | call =>
    refine part (by decide) fun callee => bind_congr_ok fun args found => ?_
    rw [mapM_congr fun w listed => agree w (.argument isNode found listed)]

section Built

variable {data : Text}

def Part (decode : Inner data → Except DecodeError Tree) (kind : NodeKind) (key : Text)
    (t : Tree) : Prop :=
  ∃ w, child kind key data = .ok w ∧ decode w = .ok t

inductive Built (decode : Inner data → Except DecodeError Tree) : NodeKind → Tree → Prop where
  | int {n : Int64} : Wire.intMember "value" data = .ok n → Built decode .int (.int n)
  | bool {b : Bool} : Wire.boolMember "value" data = .ok b → Built decode .bool (.bool b)
  | null : Built decode .null .null
  | var {name : Name} : nameOf .var data = .ok name → Built decode .var (.var name)
  | print {operand : Tree} : Part decode .print "expr" operand →
    Built decode .print (.print operand)
  | binary {left right : Tree} {op : Text} : Wire.textMember "op" data = some op →
    Part decode .binop "left" left → Part decode .binop "right" right →
    Built decode .binop (.binary left op right)
  | ifThen {condition thenDo : Tree} : Part decode .ifElse "cond" condition →
    Part decode .ifElse "then" thenDo → optionalChild .ifElse "else" data = .ok none →
    Built decode .ifElse (.ifElse condition thenDo .missing)
  | ifElse {condition thenDo elseDo : Tree} : Part decode .ifElse "cond" condition →
    Part decode .ifElse "then" thenDo → Part decode .ifElse "else" elseDo →
    Built decode .ifElse (.ifElse condition thenDo elseDo)
  | loop {condition body : Tree} : Part decode .loop "cond" condition →
    Part decode .loop "body" body → Built decode .loop (.loop condition body)
  | seq {first second : Tree} : Part decode .seq "first" first →
    Part decode .seq "second" second → Built decode .seq (.seq first second)
  | declare {name : Name} {init : Tree} : nameOf .declare data = .ok name →
    Part decode .declare "init" init → Built decode .declare (.declare name init)
  | assign {name : Name} {expr : Tree} : nameOf .assign data = .ok name →
    Part decode .assign "expr" expr → Built decode .assign (.assign name expr)
  | function {params : List Name} {body : Tree} : parameters data = .ok params →
    Part decode .function "body" body → Built decode .function (.function params body)
  | call {callee : Tree} {ws : List (Inner data)} {args : List Tree} :
    Part decode .call "fn" callee → arguments data = .ok ws → ws.map decode = args.map .ok →
    Built decode .call (.call callee args)

end Built

theorem built_of_node {v : Wire.Value} {decode : Inner v.raw → Except DecodeError Tree} {t : Tree}
    (read : node v decode = .ok t) : ∃ kind, v.IsNode kind ∧ Built decode kind t := by
  unfold node at read
  split at read
  · cases read
  next object =>
  split at read
  · cases read
  next label named =>
  cases known : NodeKind.ofLabel? label with
  | none => simp [known] at read
  | some kind =>
  rw [known] at read
  refine ⟨kind, ⟨not_not.mp object, by rw [named, NodeKind.label_of_ofLabel? known]⟩, ?_⟩
  have part {kind : NodeKind} {key : Text} {f : Tree → Except DecodeError Tree}
      (read : (child kind key v.raw >>= fun w => decode w >>= f) = .ok t) :
      ∃ u, Part decode kind key u ∧ f u = .ok t := by
    obtain ⟨w, found, read⟩ := ok_of_bind read
    obtain ⟨u, decoded, read⟩ := ok_of_bind read
    exact ⟨u, ⟨w, found, decoded⟩, read⟩
  cases kind with
  | int =>
    dsimp only at read
    split at read <;> cases read
    exact .int ‹_›
  | bool =>
    dsimp only at read
    split at read <;> cases read
    exact .bool ‹_›
  | null =>
    cases read
    exact .null
  | var =>
    obtain ⟨name, found, read⟩ := ok_of_bind read
    cases read
    exact .var found
  | print =>
    obtain ⟨operand, decoded, read⟩ := part read
    cases read
    exact .print decoded
  | binop =>
    dsimp only at read
    split at read
    · next op found =>
      obtain ⟨left, decoded, read⟩ := part read
      obtain ⟨right, decoded', read⟩ := part read
      cases read
      exact .binary found decoded decoded'
    · cases read
  | ifElse =>
    obtain ⟨condition, decoded, read⟩ := part read
    obtain ⟨thenDo, decoded', read⟩ := part read
    obtain ⟨elseDo, found, read⟩ := ok_of_bind read
    cases elseDo with
    | none =>
      cases read
      exact .ifThen decoded decoded' found
    | some w =>
      obtain ⟨elseDo, decoded'', read⟩ := ok_of_bind read
      cases read
      exact .ifElse decoded decoded' ⟨w, optionalChild_eq_some.mp found, decoded''⟩
  | loop =>
    obtain ⟨condition, decoded, read⟩ := part read
    obtain ⟨body, decoded', read⟩ := part read
    cases read
    exact .loop decoded decoded'
  | seq =>
    obtain ⟨first, decoded, read⟩ := part read
    obtain ⟨second, decoded', read⟩ := part read
    cases read
    exact .seq decoded decoded'
  | declare =>
    obtain ⟨name, found, read⟩ := ok_of_bind read
    obtain ⟨init, decoded, read⟩ := part read
    cases read
    exact .declare found decoded
  | assign =>
    obtain ⟨name, found, read⟩ := ok_of_bind read
    obtain ⟨expr, decoded, read⟩ := part read
    cases read
    exact .assign found decoded
  | function =>
    obtain ⟨params, found, read⟩ := ok_of_bind read
    obtain ⟨body, decoded, read⟩ := part read
    cases read
    exact .function found decoded
  | call =>
    obtain ⟨callee, decoded, read⟩ := part read
    obtain ⟨ws, found, read⟩ := ok_of_bind read
    obtain ⟨args, decoded', read⟩ := ok_of_bind read
    cases read
    exact .call decoded found (map_of_mapM decoded')

end Tree
end Treewalk

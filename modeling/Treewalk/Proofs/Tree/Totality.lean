import Treewalk.Proofs.Tree.Complete

/-! Decoding of arbitrary octets. The recursion ends because each value that is handed on is a
strictly shorter slice of the one before, the result is a canonical tree or an error about the tree,
and a list that was found is kept as a whole or makes everything fail. -/
namespace Treewalk

open Relation (ReflTransGen)
open Wire (Inner)

namespace Tree

/-- The decoder with its recursion cut off at a depth, and something else put below. -/
def unrolled (below : Wire.Value → Except DecodeError Tree) :
    Nat → Wire.Value → Except DecodeError Tree
  | 0, v => below v
  | n + 1, v => node v fun w => unrolled below n w.val

/-- What stands below a depth of as many levels as there are octets is never reached. -/
theorem unrolled_eq (below : Wire.Value → Except DecodeError Tree) {n : Nat} {v : Wire.Value}
    (deep : v.raw.length < n) : unrolled below n v = ofWire v := by
  induction n generalizing v with
  | zero => omega
  | succ n ih =>
    rw [unrolled, ofWire]
    refine node_congr fun w hands => ih ?_
    have shorter := hands.slice.2
    omega

/-! What is accepted -/

section Built

variable {data : Text} {decode : Inner data → Except DecodeError Tree} {kind : NodeKind} {t : Tree}

theorem Part.accepted {key : Text} (part : Part decode kind key t) {w : Inner data}
    (found : child kind key data = .ok w) : ∃ u, decode w = .ok u := by
  obtain ⟨w', found', decoded⟩ := part
  cases found.symm.trans found'
  exact ⟨t, decoded⟩

theorem Built.part_accepted (built : Built decode kind t) {key : Text} (listed : key ∈ kind.parts)
    {w : Inner data} (found : child kind key data = .ok w) : ∃ u, decode w = .ok u := by
  cases built with
  | int | bool | null | var => cases listed
  | print part | declare _ part | assign _ part | function _ part | call part =>
    cases List.mem_singleton.mp listed
    exact part.accepted found
  | binary _ first second | loop first second | seq first second =>
    obtain rfl | last := List.mem_cons.mp listed
    · exact first.accepted found
    · cases List.mem_singleton.mp last
      exact second.accepted found
  | ifThen condition thenDo absent =>
    simp only [NodeKind.parts, List.mem_cons, List.not_mem_nil, or_false] at listed
    rcases listed with rfl | rfl | rfl
    · exact condition.accepted found
    · exact thenDo.accepted found
    · cases absent.symm.trans (optionalChild_eq_some.mpr found)
  | ifElse condition thenDo elseDo =>
    simp only [NodeKind.parts, List.mem_cons, List.not_mem_nil, or_false] at listed
    rcases listed with rfl | rfl | rfl
    · exact condition.accepted found
    · exact thenDo.accepted found
    · exact elseDo.accepted found

theorem Built.argument_accepted (built : Built decode .call t) {ws : List (Inner data)}
    (found : arguments data = .ok ws) {w : Inner data} (listed : w ∈ ws) :
    ∃ u, decode w = .ok u := by
  cases built with
  | call _ found' all =>
    cases found.symm.trans found'
    obtain ⟨u, -, decoded⟩ := List.mem_map.mp (all ▸ List.mem_map_of_mem listed)
    exact ⟨u, decoded.symm⟩

/-- The list under the key is kept as a whole: every element of it is accepted, in order, and none
is left out. -/
def Kept {α : Type} (key data : Text) (accept : Wire.Value → Except DecodeError α)
    (items : List α) : Prop :=
  ∃ ws, Wire.arrayMember key data = .ok ws ∧ ws.map (fun w => accept w.val) = items.map .ok

theorem kept_of_parameters {params : List Name} (read : parameters data = .ok params)
    (found : (Wire.findKey "params" 0 true false data).isSome = true) :
    Kept "params" data parameter params := by
  obtain ⟨after, found⟩ := Option.isSome_iff_exists.mp found
  unfold parameters at read
  split at read
  · next absent => exact absurd absent (Wire.arrayMember_ne_keyNotFound found)
  · cases read
  · next ws list => exact ⟨ws, list, map_of_mapM read⟩

theorem arguments_of_found {ws : List (Inner data)} (read : arguments data = .ok ws)
    (found : (Wire.findKey "args" 0 true false data).isSome = true) :
    Wire.arrayMember "args" data = .ok ws := by
  obtain ⟨after, found⟩ := Option.isSome_iff_exists.mp found
  obtain list | ⟨-, absent⟩ := arguments_eq_ok read
  · exact list
  · exact absurd absent (Wire.arrayMember_ne_keyNotFound found)

end Built

theorem ofWire_handed {v w : Wire.Value} {t : Tree} (read : ofWire v = .ok t) (hands : Hands v w) :
    ∃ u, ofWire w = .ok u := by
  rw [ofWire] at read
  obtain ⟨kind, isNode, built⟩ := built_of_node read
  cases hands with
  | part isNode' listed found =>
    cases isNode.unique isNode'
    exact built.part_accepted listed found
  | argument isCall found listed =>
    cases isNode.unique isCall
    exact built.argument_accepted found listed

theorem ofWire_reached {root v : Wire.Value} {t : Tree} (read : ofWire root = .ok t)
    (reached : ReflTransGen Hands root v) : ∃ u, ofWire v = .ok u := by
  induction reached with
  | refl => exact ⟨t, read⟩
  | tail _ hands ih =>
    obtain ⟨u, accepted⟩ := ih
    exact ofWire_handed accepted hands

theorem ofWire_function {v : Wire.Value} {t : Tree} (read : ofWire v = .ok t)
    (isFunction : v.IsNode .function)
    (found : (Wire.findKey "params" 0 true false v.raw).isSome = true) :
    ∃ params body, t = .function params body ∧ Kept "params" v.raw parameter params := by
  rw [ofWire] at read
  obtain ⟨kind, isNode, built⟩ := built_of_node read
  cases isNode.unique isFunction
  cases built with
  | function params => exact ⟨_, _, rfl, kept_of_parameters params found⟩

theorem ofWire_call {v : Wire.Value} {t : Tree} (read : ofWire v = .ok t)
    (isCall : v.IsNode .call) (found : (Wire.findKey "args" 0 true false v.raw).isSome = true) :
    ∃ callee args, t = .call callee args ∧ Kept "args" v.raw ofWire args := by
  rw [ofWire] at read
  obtain ⟨kind, isNode, built⟩ := built_of_node read
  cases isNode.unique isCall
  cases built with
  | call _ args all => exact ⟨_, _, rfl, _, arguments_of_found args found, all⟩

end Tree

theorem DocumentError.wraps_cause (e : DocumentError) (k : ErrorKind) :
    e.cause.wraps k = true ↔ k = .malformedTree := by
  simp [DocumentError.cause, Cause.wraps, eq_comm]

theorem mapError_eq_ok {α ε ε' : Type} {f : ε → ε'} {x : Except ε α} {a : α} :
    x.mapError f = .ok a ↔ x = .ok a := by
  cases x <;> simp [Except.mapError]

theorem ofDocument_json_eq_ok {text : Text} {t : Tree} (read : Tree.ofDocument .json text = .ok t) :
    ∃ root rest, Wire.readValue text = .ok (root, rest) ∧ Tree.ofWire root = .ok t := by
  rw [Tree.ofDocument, Tree.ofJson] at read
  split at read
  · next root rest value => exact ⟨root, rest, value, mapError_eq_ok.mp read⟩
  · cases read

open Treewalk.Tree (Hands Kept node unrolled ofWire parameter) in
/-- Any octets are decoded to a canonical tree or refused as a malformed one. A node depends only on
the values it hands on, all of them strictly shorter slices of it, so that what lies deeper than
there are octets is never reached. If the whole is accepted then so was every element of every list
that was found on the way, and the lists hold them all. -/
theorem decoding_total_and_closed (text : Text) :
    (match Tree.ofDocument .json text with
      | .ok t => t.Canonical
      | .error e => ∀ k, e.cause.wraps k = true ↔ k = .malformedTree) ∧
    (∀ v w, Hands v w → w.raw <:+: v.raw ∧ w.raw.length < v.raw.length) ∧
    (∀ v decode decode', (∀ w : Inner v.raw, Hands v w.val → decode w = decode' w) →
      node v decode = node v decode') ∧
    (∀ below n v, v.raw.length < n → unrolled below n v = ofWire v) ∧
    ∀ root rest, Wire.readValue text = .ok (root, rest) → root.raw <:+: text ∧
      ∀ t, Tree.ofDocument .json text = .ok t → ∀ v, ReflTransGen Hands root v →
        (v.IsNode .function → (Wire.findKey "params" 0 true false v.raw).isSome →
          ∃ params body, ofWire v = .ok (.function params body) ∧
            Kept "params" v.raw parameter params) ∧
        (v.IsNode .call → (Wire.findKey "args" 0 true false v.raw).isSome →
          ∃ callee args, ofWire v = .ok (.call callee args) ∧ Kept "args" v.raw ofWire args) := by
  refine ⟨?_, fun v w hands => hands.slice, fun v decode decode' => Tree.node_congr,
    fun below n v => Tree.unrolled_eq below, fun root rest value => ?_⟩
  · cases read : Tree.ofDocument .json text with
    | error e => exact e.wraps_cause
    | ok t =>
      obtain ⟨root, -, -, decoded⟩ := ofDocument_json_eq_ok read
      exact ofWire_canonical root t decoded
  · refine ⟨(Wire.slices_of_readValue value).1, fun t read v reached => ?_⟩
    obtain ⟨root', _, value', decoded⟩ := ofDocument_json_eq_ok read
    cases value.symm.trans value'
    obtain ⟨u, accepted⟩ := Tree.ofWire_reached decoded reached
    constructor
    · intro isFunction found
      obtain ⟨params, body, rfl, kept⟩ := Tree.ofWire_function accepted isFunction found
      exact ⟨params, body, accepted, kept⟩
    · intro isCall found
      obtain ⟨callee, args, rfl, kept⟩ := Tree.ofWire_call accepted isCall found
      exact ⟨callee, args, accepted, kept⟩

def strayCall : Text :=
  Text.ofString "\x7b\"kind\":\"call\",\"fn\":\x7b\"kind\":\"null\"\x7d,"
    ++ Text.ofString "\"args\":[\x7b\"kind\":\"null\"\x7d,7]\x7d"

theorem stray_call_refused :
    Wire.readValue (strayCall ++ [125, 255]) = .ok (⟨.object, strayCall⟩, [125, 255]) ∧
      (Wire.Value.mk .object strayCall).IsNode .call ∧
      ∃ e, Tree.ofDocument .json (strayCall ++ [125, 255]) = .error e ∧
        ∀ k, e.cause.wraps k = true ↔ k = .malformedTree := by
  have value : Wire.readValue (strayCall ++ [125, 255])
      = .ok (⟨.object, strayCall⟩, [125, 255]) := rfl
  have isCall : (Wire.Value.mk .object strayCall).IsNode .call := ⟨rfl, by decide +kernel⟩
  have kinds : (Wire.arrayMember "args" strayCall).toOption.map (·.map (·.val.kind))
      = some [.object, .number] := by decide +kernel
  obtain ⟨outcome, -, -, -, lists⟩ := decoding_total_and_closed (strayCall ++ [125, 255])
  refine ⟨value, isCall, ?_⟩
  cases read : Tree.ofDocument .json (strayCall ++ [125, 255]) with
  | error e =>
    rw [read] at outcome
    exact ⟨e, rfl, outcome⟩
  | ok t =>
    obtain ⟨-, args, -, ws, list, all⟩ :=
      ((lists _ _ value).2 t read _ .refl).2 isCall (by decide +kernel)
    rw [list] at kinds
    have kinds : ws.map (·.val.kind) = [.object, .number] := Option.some.inj kinds
    obtain ⟨w, listed, number⟩ : ∃ w ∈ ws, w.val.kind = .number := by
      rw [← List.mem_map, kinds]
      decide
    have refused : Tree.ofWire w.val = .error (.notAnObject .number) := by
      rw [Tree.ofWire, Tree.node, if_pos (by simp [number]), number]
    obtain ⟨u, -, accepted⟩ := List.mem_map.mp (all ▸ List.mem_map_of_mem listed)
    cases refused.symm.trans accepted.symm

end Treewalk

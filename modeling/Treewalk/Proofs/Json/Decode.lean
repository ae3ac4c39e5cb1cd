import Treewalk.Document
import Treewalk.Proofs.Json.Member
import Treewalk.Proofs.Json.Number
import Treewalk.Proofs.Json.Structure

/-! Decoding text and decoding by structure. The decoder of text never builds a value; still it
gives the tree of the value for every text of it, and fails on all texts of a value that denotes
no tree. -/
namespace Treewalk.Json

open Text (ascii)

/-- Two computations succeed together, with related results, or fail together. -/
inductive Mirrors {α β ε : Type} (R : α → β → Prop) : Except ε α → Option β → Prop where
  | ok {a : α} {b : β} : R a b → Mirrors R (.ok a) (some b)
  | error {e : ε} : Mirrors R (.error e) none

namespace Mirrors

variable {α β γ δ ε : Type} {R : α → β → Prop} {S : γ → δ → Prop}

theorem bind {x : Except ε α} {y : Option β} {f : α → Except ε γ} {g : β → Option δ}
    (first : Mirrors R x y) (next : ∀ a b, R a b → Mirrors S (f a) (g b)) :
    Mirrors S (x >>= f) (y >>= g) := by
  cases first with
  | ok related => exact next _ _ related
  | error => exact .error

theorem mapM {f : α → Except ε γ} {g : β → Option δ} {xs : List α} {ys : List β}
    (related : List.Forall₂ R xs ys) (each : ∀ a b, R a b → Mirrors S (f a) (g b)) :
    Mirrors (List.Forall₂ S) (xs.mapM f) (ys.mapM g) := by
  induction related with
  | nil => exact .ok .nil
  | cons first _ ih =>
    rw [List.mapM_cons, List.mapM_cons]
    exact (each _ _ first).bind fun a b h => ih.bind fun as bs hs => .ok (.cons h hs)

end Mirrors

theorem parameter_slice {j : Json} {v : Wire.Value} (slice : Slice j v) :
    Mirrors Eq (Tree.parameter v) j.name? := by
  unfold Tree.parameter
  cases slice with
  | string spelled =>
    rw [if_pos rfl, unescape_string spelled]
    exact .ok rfl
  | _ => exact .error

section Fields

variable {members : List (String × Json)} {t : Text}
  (written : Written (.value (.object members)) t)
include written

theorem textMember_written (name : String) :
    Wire.textMember (Text.ofString name) t = (members.lookup name).bind name? := by
  unfold Wire.textMember
  cases found : members.lookup name with
  | none => rw [member_absent written found]; rfl
  | some j =>
    obtain ⟨⟨v, small⟩, result, slice⟩ := member_present written found
    rw [result]
    cases slice with
    | string spelled => exact unescape_string spelled
    | _ => rfl

theorem nameOf_written (kind : NodeKind) :
    Mirrors Eq (Tree.nameOf kind t) ((members.lookup "name").bind name?) := by
  unfold Tree.nameOf
  rw [textMember_written written]
  cases (members.lookup "name").bind name? with
  | none => exact .error
  | some name => exact .ok rfl

theorem boolMember_written :
    Mirrors Eq (Wire.boolMember "value" t) ((members.lookup "value").bind truth?) := by
  unfold Wire.boolMember
  cases found : members.lookup "value" with
  | none =>
    rw [member_absent written found]
    exact .error
  | some j =>
    obtain ⟨⟨v, small⟩, result, slice⟩ := member_present written found
    rw [result]
    cases slice with
    | bool b => cases b <;> exact .ok rfl
    | _ => exact .error

theorem intMember_written
    (fits : ∀ i, (members.lookup "value").bind integer? = some i →
      Text.minInt64 ≤ i ∧ i ≤ Text.maxInt64) :
    Mirrors (fun n i => n = Int64.ofInt i) (Wire.intMember "value" t)
      ((members.lookup "value").bind integer?) := by
  unfold Wire.intMember
  cases found : members.lookup "value" with
  | none =>
    rw [member_absent written found]
    exact .error
  | some j =>
    obtain ⟨⟨v, small⟩, result, slice⟩ := member_present written found
    rw [found] at fits
    rw [result]
    cases slice with
    | number q =>
      change Mirrors _ (Wire.readNumber q.text) q.integer?
      cases integer : q.integer? with
      | none =>
        obtain ⟨e, failed⟩ := readNumber_error integer
        rw [failed]
        exact .error
      | some i =>
        obtain ⟨low, high⟩ := fits i integer
        rw [readNumber_integer integer low high]
        exact .ok rfl
    | _ => exact .error

def Holds (v : Wire.Inner t) (p : Part members) : Prop := Slice p.val v.val ∧ p.val.IntegersFit

theorem child_absent {name : String} (absent : child members name = none) (kind : NodeKind) :
    Tree.child kind (Text.ofString name) t = .error (.missingChild kind (Text.ofString name)) := by
  unfold child at absent
  split at absent
  · next nothing => rw [Tree.child, member_absent written nothing]
  · next null =>
    obtain ⟨⟨v, small⟩, result, slice⟩ := member_present written null
    cases slice
    rw [Tree.child, result]
    rfl
  · cases absent

theorem child_present (fits : (object members).IntegersFit) {name : String} {p : Part members}
    (present : child members name = some p) (kind : NodeKind) :
    ∃ v, Tree.child kind (Text.ofString name) t = .ok v ∧ Holds v p := by
  unfold child at present
  split at present
  · cases present
  · cases present
  · next j other found =>
    cases present
    obtain ⟨v, result, slice⟩ := member_present written found
    have visible : v.val.kind ≠ .null := by
      generalize v.val = w at slice
      cases slice with
      | null => exact absurd rfl other
      | _ => exact Wire.Kind.noConfusion
    refine ⟨v, ?_, slice, fun members i node => fits members i (.field found node)⟩
    rw [Tree.child, result]
    exact if_neg visible

theorem child_written (fits : (object members).IntegersFit) (kind : NodeKind) (name : String) :
    Mirrors Holds (Tree.child kind (Text.ofString name) t) (child members name) := by
  cases found : child members name with
  | none =>
    rw [child_absent written found]
    exact .error
  | some p =>
    obtain ⟨v, result, holds⟩ := child_present written fits found kind
    rw [result]
    exact .ok holds

theorem optionalChild_written (fits : (object members).IntegersFit) (kind : NodeKind)
    (name : String) :
    ∃ o, Tree.optionalChild kind (Text.ofString name) t = .ok o ∧
      Option.Rel Holds o (child members name) := by
  unfold Tree.optionalChild
  cases found : child members name with
  | none =>
    rw [child_absent written found]
    exact ⟨none, rfl, .none⟩
  | some p =>
    obtain ⟨v, result, holds⟩ := child_present written fits found kind
    rw [result]
    exact ⟨some v, rfl, .some holds⟩

theorem parameters_written : Mirrors Eq (Tree.parameters t) (parameters members) := by
  unfold parameters
  split
  · next absent =>
    rw [Tree.parameters, arrayMember_absent written absent]
    exact .ok rfl
  · next items found =>
    obtain ⟨vs, result, slices⟩ := arrayMember_array written found
    rw [Tree.parameters, result]
    have names : Mirrors (List.Forall₂ Eq) (vs.mapM fun v => Tree.parameter v.val)
        (items.mapM name?) := by
      refine Mirrors.mapM slices.flip fun v j slice => ?_
      exact parameter_slice slice
    rw [List.forall₂_eq_eq_eq] at names
    exact names
  · next other found =>
    rw [Tree.parameters, arrayMember_other written found other]
    exact .error

theorem arguments_written (fits : (object members).IntegersFit) :
    Mirrors (List.Forall₂ Holds) (Tree.arguments t) (arguments members) := by
  unfold arguments
  split
  · next absent =>
    rw [Tree.arguments, arrayMember_absent written absent]
    exact .ok .nil
  · next items found =>
    obtain ⟨vs, result, slices⟩ := arrayMember_array written found
    rw [Tree.arguments, result]
    have attached : List.Forall₂ (fun v (j : { j // j ∈ items }) => Slice j.val v.val) vs
        items.attach := by
      rw [← List.attach_map_subtype_val items] at slices
      exact (List.forall₂_map_left_iff.mp slices).flip
    refine .ok (List.forall₂_map_right_iff.mpr (attached.imp fun v j slice => ?_))
    exact ⟨slice, fun members i node => fits members i (.argument found j.property node)⟩
  · next other found =>
    rw [Tree.arguments, arrayMember_other written found other]
    exact .error

end Fields

theorem ofLabel?_ofString (label : String) :
    NodeKind.ofLabel? (Text.ofString label) = NodeKind.named? label := by
  unfold NodeKind.named?
  split
  case h_14 =>
    refine List.find?_eq_none.mpr fun kind _ same => ?_
    have same := of_decide_eq_true same
    cases kind <;> exact absurd (Text.ofString_inj.mp same).symm ‹_›
  all_goals decide

theorem eq_int_of_named? {label : String} (int : NodeKind.named? label = some .int) :
    label = "int" := by
  unfold NodeKind.named? at int
  split at int <;> first | rfl | cases int

section Object

variable {members : List (String × Json)} {t : Text}
  (written : Written (.value (.object members)) t) (fits : (object members).IntegersFit)
  (parts : ∀ (v : Wire.Inner t) (p : Part members), Holds v p →
    Mirrors Eq (Tree.ofWire v.val) p.val.tree?)
include written fits parts

theorem part_written {kind : NodeKind} {name : String} {f : Tree → Except DecodeError Tree}
    {g : Tree → Option Tree} (rest : ∀ x, Mirrors Eq (f x) (g x)) :
    Mirrors Eq (Tree.child kind (Text.ofString name) t >>= fun v => Tree.ofWire v.val >>= f)
      (child members name >>= fun p => p.val.tree? >>= g) := by
  refine (child_written written fits kind name).bind fun v p holds => ?_
  refine (parts v p holds).bind fun x _ same => ?_
  rw [← same]
  exact rest x

theorem ofWire_object : Mirrors Eq (Tree.ofWire ⟨.object, t⟩) (object members).tree? := by
  have part {kind : NodeKind} {name : String} {f : Tree → Except DecodeError Tree}
      {g : Tree → Option Tree} := @part_written members t written fits parts kind name f g
  rw [Tree.ofWire, Tree.node, tree?, if_neg (by simp), textMember_written written]
  cases labelled : members.lookup "kind" with
  | none => exact .error
  | some j =>
  cases j with
  | null | bool | number | array | object => exact .error
  | string label =>
  simp only [Option.bind_some, name?, ofLabel?_ofString]
  cases named : NodeKind.named? label with
  | none => exact .error
  | some kind =>
  cases kind with
  | int =>
    rw [eq_int_of_named? named] at labelled
    have read := intMember_written written fun i => fits members i .self labelled
    generalize Wire.intMember "value" t = x at read ⊢
    generalize (members.lookup "value").bind integer? = y at read ⊢
    cases read with
    | ok same => exact .ok (congrArg Tree.int same)
    | error => exact .error
  | bool =>
    have read := boolMember_written written
    generalize Wire.boolMember "value" t = x at read ⊢
    generalize (members.lookup "value").bind truth? = y at read ⊢
    cases read with
    | ok same => exact .ok (congrArg Tree.bool same)
    | error => exact .error
  | null => exact .ok rfl
  | var =>
    refine (nameOf_written written .var).bind fun name _ same => ?_
    rw [same]
    exact .ok rfl
  | print => exact part fun operand => .ok rfl
  | binop =>
    simp only [textMember_written written]
    cases (members.lookup "op").bind name? with
    | none => exact .error
    | some op => exact part fun left => part fun right => .ok rfl
  | ifElse =>
    refine part fun condition => part fun thenDo => ?_
    obtain ⟨o, result, held⟩ := optionalChild_written written fits .ifElse "else"
    rw [result]
    generalize child members "else" = c at held ⊢
    cases held with
    | none => exact .ok rfl
    | some holds =>
      refine (parts _ _ holds).bind fun elseDo _ same => ?_
      rw [same]
      exact .ok rfl
  | loop => exact part fun condition => part fun body => .ok rfl
  | seq => exact part fun first => part fun second => .ok rfl
  | declare =>
    refine (nameOf_written written .declare).bind fun name _ same => ?_
    rw [same]
    exact part fun init => .ok rfl
  | assign =>
    refine (nameOf_written written .assign).bind fun name _ same => ?_
    rw [same]
    exact part fun expr => .ok rfl
  | function =>
    refine (parameters_written written).bind fun params _ same => ?_
    rw [same]
    exact part fun body => .ok rfl
  | call =>
    refine part fun callee => ?_
    refine (arguments_written written fits).bind fun args inner held => ?_
    refine (Mirrors.mapM held parts).bind fun trees _ same => ?_
    rw [List.forall₂_eq_eq_eq] at same
    rw [same]
    exact .ok rfl

end Object

/-- The decoder of text follows the decoder by structure on every slice that holds the value. -/
theorem ofWire_slice {j : Json} {v : Wire.Value} (slice : Slice j v) (fits : j.IntegersFit) :
    Mirrors Eq (Tree.ofWire v) j.tree? := by
  induction size : sizeOf j using Nat.strongRecOn generalizing j v with
  | ind n ih =>
    cases slice with
    | object written =>
      refine ofWire_object written fits fun v p holds => ?_
      have smaller : sizeOf p.val < n := by
        have inside := p.property
        rw [← size, object.sizeOf_spec]
        omega
      exact ih _ smaller holds.1 holds.2 rfl
    | _ =>
      rw [Tree.ofWire, Tree.node, if_pos (by simp)]
      unfold tree?
      exact .error

theorem kind?_documentError (e : DocumentError) : e.kind? = some .malformedTree := by
  simp [DocumentError.kind?, DocumentError.cause, Cause.kind?, Cause.wraps, ErrorKind.all]

theorem ofDocument_slice {j : Json} {text : Text} (written : Written (.element j) text) :
    ∃ v, Slice j v ∧ Tree.ofDocument .json text = (Tree.ofWire v).mapError .tree := by
  have delimited : Delimited [] := by
    intro b front
    cases front
  obtain ⟨v, w, slice, -, read⟩ := readValue_element written delimited
  rw [List.append_nil] at read
  exact ⟨v, slice, by rw [Tree.ofDocument, Tree.ofJson, read]⟩

/-- Every text of a value is decoded to the tree that the value denotes. If it denotes none, every
text of it is refused as a malformed tree. -/
theorem ofDocument_written {j : Json} {text : Text} (written : Written (.element j) text)
    (fits : j.IntegersFit) :
    match j.tree? with
    | some t => Tree.ofDocument .json text = .ok t
    | none => ∃ e, Tree.ofDocument .json text = .error e ∧ e.kind? = some .malformedTree := by
  obtain ⟨v, slice, decoded⟩ := ofDocument_slice written
  have agree := ofWire_slice slice fits
  rw [decoded]
  generalize Tree.ofWire v = result at agree ⊢
  generalize j.tree? = meaning at agree ⊢
  cases agree with
  | ok same => exact congrArg Except.ok same
  | error => exact ⟨_, rfl, kind?_documentError _⟩

theorem Plain.stringText {s : String} (plain : Plain s) :
    StringText s.toList (Text.ofString s) := by
  rw [Text.ofString_eq_flatMap]
  unfold Plain at plain
  generalize s.toList = chars at plain
  induction chars with
  | nil => exact .nil
  | cons c chars ih =>
    rw [List.forall_mem_cons] at plain
    obtain ⟨⟨visible, quoted, escaped⟩, rest⟩ := plain
    exact .cons (.plain visible quoted escaped) (ih rest)

theorem Plain.member {name : String} (plain : Plain name) {j : Json} {t : Text}
    (written : Written (.value j) t) :
    Written (.member name j) (ascii '"' :: Text.ofString name ++ ascii '"' :: ascii ':' :: t) := by
  have blank : Blank [] := by decide
  simpa using Written.member blank plain.stringText blank (.element blank written blank)

theorem integersFit_object {members : List (String × Json)}
    (own : ∀ i, members.lookup "kind" = some (.string "int") →
      (members.lookup "value").bind integer? = some i → Text.minInt64 ≤ i ∧ i ≤ Text.maxInt64)
    (fields : ∀ m ∈ members, m.2.IntegersFit)
    (arguments : ∀ items, members.lookup "args" = some (.array items) →
      ∀ j ∈ items, j.IntegersFit) : (object members).IntegersFit := by
  intro inner i node kind value
  cases node with
  | self => exact own i kind value
  | field found node => exact fields _ (mem_of_lookup found) inner i node kind value
  | argument found listed node => exact arguments _ found _ listed inner i node kind value

theorem integersFit_leaf {j : Json} (leaf : ∀ members, j ≠ .object members) : j.IntegersFit := by
  intro members i node
  cases node with
  | self => exact absurd rfl (leaf members)
  | field | argument => exact absurd rfl (leaf _)

@[simp]
theorem integersFit_null : null.IntegersFit := integersFit_leaf (by simp)

@[simp]
theorem integersFit_bool (b : Bool) : (bool b).IntegersFit := integersFit_leaf (by simp)

@[simp]
theorem integersFit_number (q : Numeral) : (number q).IntegersFit := integersFit_leaf (by simp)

@[simp]
theorem integersFit_string (s : String) : (string s).IntegersFit := integersFit_leaf (by simp)

@[simp]
theorem integersFit_array (items : List Json) : (array items).IntegersFit :=
  integersFit_leaf (by simp)

def crowded : Json :=
  .object [
    ("note", .object [("kind", .string "int"), ("value", .string "]\x7d\"")]),
    ("kind", .string "print"),
    ("expr", .object [("kind", .string "int"), ("value", .number ⟨true, 7, none, none⟩),
      ("value", .number ⟨false, 1, none, none⟩)]),
    ("kind", .string "x")]

def crowdedText : Text :=
  Text.ofString " \x7b\"note\":\x7b\"kind\":\"int\",\"value\":\"]\x7d\\\"\"\x7d, \"k\\u0069nd\" : \"print\",\n"
    ++ Text.ofString "\"expr\":\x7b\"kind\":\"int\",\"value\":-7,\"value\":1\x7d,\"kind\":\"x\" \x7d"

theorem crowded_written : Written (.element crowded) crowdedText := by
  have text {s : String} (plain : Plain s) :
      Written (.value (.string s)) (ascii '"' :: Text.ofString s ++ [ascii '"']) :=
    .string plain.stringText
  have key (s : String) (plain : Plain s) {j : Json} {t : Text} := @Plain.member s plain j t
  have blank : Blank [] := by decide
  have space : Blank [ascii ' '] := by decide
  have line : Blank [ascii '\n'] := by decide
  have brackets : StringText "]\x7d\"".toList (Text.ofString "]\x7d\\\"") :=
    .cons (.plain (by decide) (by decide) (by decide)) <|
    .cons (.plain (by decide) (by decide) (by decide)) <|
    .cons (@CharText.short '"' '"' (by decide)) .nil
  have kind : StringText "kind".toList (Text.ofString "k\\u0069nd") :=
    .cons (.plain (by decide) (by decide) (by decide)) <|
    .cons (.unit (fun _ => false) (by decide)) <|
    .cons (.plain (by decide) (by decide) (by decide)) <|
    .cons (.plain (by decide) (by decide) (by decide)) .nil
  have int := key "kind" (by decide) (text (s := "int") (by decide))
  have note := Written.object <| .nextMember int <|
    .lastMember (key "value" (by decide) (.string brackets))
  have expr := Written.object <| .nextMember int <|
    .nextMember (key "value" (by decide) (.number ⟨true, 7, none, none⟩)) <|
    .lastMember (key "value" (by decide) (.number ⟨false, 1, none, none⟩))
  have print := Written.element space (text (s := "print") (by decide)) blank
  have other := Written.element blank (text (s := "x") (by decide)) space
  have members := Written.object <|
    .nextMember (key "note" (by decide) note) <|
    .nextMember (.member space kind space print) <|
    .nextMember (.member line (Plain.stringText (s := "expr") (by decide)) blank
      (.element blank expr blank)) <|
    .lastMember (.member blank (Plain.stringText (s := "kind") (by decide)) blank other)
  have equal {t u : Text} (same : t = u) (written : Written (.element crowded) t) :
      Written (.element crowded) u := same ▸ written
  exact equal (by decide +kernel) (.element space members blank)

theorem crowded_integersFit : crowded.IntegersFit := by
  have note : (object [("kind", .string "int"), ("value", .string "]\x7d\"")]).IntegersFit := by
    refine integersFit_object ?_ ?_ (fun _ found => by cases found)
    · intro i _ value
      cases value
    · simp
  have expr : (object [("kind", .string "int"), ("value", .number ⟨true, 7, none, none⟩),
      ("value", .number ⟨false, 1, none, none⟩)]).IntegersFit := by
    refine integersFit_object ?_ ?_ (fun _ found => by cases found)
    · intro i _ value
      cases value
      decide
    · simp
  refine integersFit_object ?_ ?_ (fun _ found => by cases found)
  · simp [List.lookup_cons]
  · simp [note, expr]

theorem crowded_decoded : Written (.element crowded) crowdedText ∧ crowded.IntegersFit ∧
    Tree.ofDocument .json crowdedText = .ok (.print (.int (-7))) := by
  have meaning : crowded.tree? = some (.print (.int (-7))) := by
    simp [crowded, tree?, NodeKind.named?, child, List.lookup_cons, integer?, Numeral.integer?]
  have decoded := ofDocument_written crowded_written crowded_integersFit
  rw [meaning] at decoded
  exact ⟨crowded_written, crowded_integersFit, decoded⟩

end Treewalk.Json

import Treewalk.Proofs.Datum.Written
import Treewalk.Proofs.Json.Fields
import Treewalk.Proofs.Tree.Complete

/-! Trees as generic data. A node is a mapping that has its kind and its parts for fields, in any
order; what is absent may be left out or be given as such. Whatever document holds the data, it is
decoded to the tree. -/
namespace Treewalk

def Datum.HasFields (d : Datum) (fields : List (String × Datum)) : Prop :=
  ∃ members, d.Maps members ∧ members.Perm (fields.map fun f => (Text.ofString f.1, f.2))

/-- The field of a list, which may be left out if the list is empty. -/
inductive Datum.ListField (key : String) : List Datum → List (String × Datum) → Prop where
  | given (items : List Datum) : ListField key items [(key, .seq items)]
  | omitted : ListField key [] []

open Datum (ListField) in
inductive Tree.Encodes : Tree → Datum → Prop where
  | int {n : Int64} {d : Datum} :
    d.HasFields [("kind", .text "int"), ("value", .int n.toInt)] → Encodes (.int n) d
  | bool {b : Bool} {d : Datum} :
    d.HasFields [("kind", .text "bool"), ("value", .bool b)] → Encodes (.bool b) d
  | null {d : Datum} : d.HasFields [("kind", .text "null")] → Encodes .null d
  | var {name : Name} {d : Datum} :
    d.HasFields [("kind", .text "var"), ("name", .text name)] → Encodes (.var name) d
  | print {operand : Tree} {o d : Datum} : Encodes operand o →
    d.HasFields [("kind", .text "print"), ("expr", o)] → Encodes (.print operand) d
  | binary {left right : Tree} {op : Text} {l r d : Datum} : Encodes left l → Encodes right r →
    d.HasFields [("kind", .text "binop"), ("op", .text op), ("left", l), ("right", r)] →
    Encodes (.binary left op right) d
  | ifThen {condition thenDo : Tree} {c t d : Datum} {other : List (String × Datum)} :
    Encodes condition c → Encodes thenDo t → other = [] ∨ other = [("else", .null)] →
    d.HasFields (("kind", .text "if") :: ("cond", c) :: ("then", t) :: other) →
    Encodes (.ifElse condition thenDo .missing) d
  | ifElse {condition thenDo elseDo : Tree} {c t e d : Datum} :
    Encodes condition c → Encodes thenDo t → Encodes elseDo e →
    d.HasFields [("kind", .text "if"), ("cond", c), ("then", t), ("else", e)] →
    Encodes (.ifElse condition thenDo elseDo) d
  | loop {condition body : Tree} {c b d : Datum} : Encodes condition c → Encodes body b →
    d.HasFields [("kind", .text "while"), ("cond", c), ("body", b)] →
    Encodes (.loop condition body) d
  | seq {first second : Tree} {f s d : Datum} : Encodes first f → Encodes second s →
    d.HasFields [("kind", .text "seq"), ("first", f), ("second", s)] → Encodes (.seq first second) d
  | declare {name : Name} {init : Tree} {i d : Datum} : Encodes init i →
    d.HasFields [("kind", .text "var_decl"), ("name", .text name), ("init", i)] →
    Encodes (.declare name init) d
  | assign {name : Name} {expr : Tree} {e d : Datum} : Encodes expr e →
    d.HasFields [("kind", .text "assign"), ("name", .text name), ("expr", e)] →
    Encodes (.assign name expr) d
  | function {params : List Name} {body : Tree} {b d : Datum} {list : List (String × Datum)} :
    ListField "params" (params.map .text) list → Encodes body b →
    d.HasFields (("kind", .text "function") :: ("body", b) :: list) →
    Encodes (.function params body) d
  | call {callee : Tree} {args : List (Tree × Datum)} {c d : Datum} {list : List (String × Datum)} :
    ListField "args" (args.map (·.2)) list → Encodes callee c → (∀ a ∈ args, Encodes a.1 a.2) →
    d.HasFields (("kind", .text "call") :: ("fn", c) :: list) →
    Encodes (.call callee (args.map (·.1))) d

/-- The data is written as the text of an object that denotes the tree. -/
def Datum.Denotes (d : Datum) (t : Tree) : Prop :=
  ∃ members, d.WrittenAs (.object members) ∧ (Json.object members).tree? = some t ∧
    (Json.object members).IntegersFit

theorem Datum.HasFields.denotes {d : Datum} {fields : List (String × Datum)} {t : Tree}
    (has : d.HasFields fields) (values : List (String × Json))
    (each : List.Forall₂ (fun f v => f.1 = v.1 ∧ f.2.WrittenAs v.2) fields values)
    (distinct : (values.map (·.1)).Nodup) (fits : (Json.object values).IntegersFit)
    (tree : ∀ members : List (String × Json),
      (∀ name, members.lookup name = values.lookup name) → (Json.object members).tree? = some t) :
    d.Denotes t := by
  obtain ⟨members, maps, perm⟩ := has
  have named : List.Forall₂ (fun m v => m.1 = Text.ofString v.1 ∧ m.2.WrittenAs v.2)
      (fields.map fun f => (Text.ofString f.1, f.2)) values := by
    refine List.forall₂_map_left_iff.mpr (each.imp fun f v field => ?_)
    exact ⟨congrArg Text.ofString field.1, field.2⟩
  -- The mapping has its members in an order of its own, and they are sorted once more on the way.
  obtain ⟨others, held, moved⟩ := List.perm_comp_forall₂ perm named
  obtain ⟨sorted, order, written⟩ := maps.writtenAs held
  have look := Json.lookup_perm (order.trans moved) distinct
  exact ⟨sorted, written, tree sorted look, Json.integersFit_congr look fits⟩

theorem Datum.HasFields.node {d : Datum} {label : String} {fields : List (String × Datum)}
    {t : Tree} (has : d.HasFields (("kind", .text (Text.ofString label)) :: fields))
    (values : List (String × Json)) (other : label ≠ "int")
    (each : List.Forall₂ (fun f v => f.1 = v.1 ∧ f.2.WrittenAs v.2 ∧ v.2.IntegersFit) fields values)
    (distinct : ("kind" :: values.map (·.1)).Nodup)
    (arguments : ∀ items, ("args", Json.array items) ∈ values → ∀ j ∈ items, j.IntegersFit)
    (tree : ∀ members : List (String × Json),
      (∀ name, members.lookup name = (("kind", .string label) :: values).lookup name) →
      (Json.object members).tree? = some t) :
    d.Denotes t := by
  have written := each.imp fun f v field => And.intro field.1 field.2.1
  have fits : ∀ v ∈ values, v.2.IntegersFit := by
    clear has written distinct arguments tree
    induction each with
    | nil => simp
    | cons first _ ih => exact List.forall_mem_cons.mpr ⟨first.2.2, ih⟩
  refine has.denotes (("kind", .string label) :: values)
    (.cons ⟨rfl, text_writtenAs label⟩ written) distinct ?_ tree
  refine Json.integersFit_object ?_ ?_ fun items found => ?_
  · intro i kind
    cases kind
    exact absurd rfl other
  · exact List.forall_mem_cons.mpr ⟨Json.integersFit_string label, fits⟩
  · exact arguments items (by simpa using Json.mem_of_lookup found)

def Text.Valid (t : Text) : Prop := ∃ s : String, t = Text.ofString s

def Tree.ownTexts : Tree → List Text
  | .var name | .declare name _ | .assign name _ => [name]
  | .binary _ op _ => [op]
  | .function params _ => params
  | _ => []

def Tree.Readable (t : Tree) : Prop := t.Every fun u => ∀ text ∈ u.ownTexts, text.Valid

theorem exists_names {texts : List Text} (valid : ∀ t ∈ texts, t.Valid) :
    ∃ names : List String, texts = names.map Text.ofString := by
  induction texts with
  | nil => exact ⟨[], rfl⟩
  | cons t texts ih =>
    rw [List.forall_mem_cons] at valid
    obtain ⟨⟨s, rfl⟩, others⟩ := valid
    obtain ⟨names, rfl⟩ := ih others
    exact ⟨s :: names, rfl⟩

theorem exists_items {args : List (Tree × Datum)} (each : ∀ a ∈ args, a.2.Denotes a.1) :
    ∃ js : List Json, List.Forall₂ Datum.WrittenAs (args.map (·.2)) js ∧
      List.Forall₂ (fun j t => j.tree? = some t) js (args.map (·.1)) ∧ ∀ j ∈ js, j.IntegersFit := by
  induction args with
  | nil => exact ⟨[], .nil, .nil, by simp⟩
  | cons a args ih =>
    rw [List.forall_mem_cons] at each
    obtain ⟨⟨m, written, tree, fits⟩, others⟩ := each
    obtain ⟨js, items, trees, sound⟩ := ih others
    exact ⟨.object m :: js, .cons written items, .cons tree trees,
      List.forall_mem_cons.mpr ⟨fits, sound⟩⟩

namespace Datum.Denotes

open Json (child_eq_some child_eq_none)

variable {d : Datum}

theorem int {n : Int64} (fields : d.HasFields [("kind", .text "int"), ("value", .int n.toInt)]) :
    d.Denotes (.int n) := by
  refine fields.denotes [("kind", .string "int"), ("value", .number (.ofInt n.toInt))]
    (by simp) (by simp) ?_ fun members look => ?_
  · refine Json.integersFit_object (fun i _ value => ?_) (by simp) (by simp [List.lookup_cons])
    have same : n.toInt = i :=
      Option.some_inj.mp ((Numeral.integer?_ofInt n.toInt).symm.trans value)
    have low := Int64.le_toInt n
    have high := Int64.toInt_lt n
    simp only [Text.minInt64, Text.maxInt64]
    omega
  · rw [Json.tree?, look]
    simp [look, List.lookup_cons, NodeKind.named?, Json.integer?, Numeral.integer?_ofInt]

theorem bool {b : Bool} (fields : d.HasFields [("kind", .text "bool"), ("value", .bool b)]) :
    d.Denotes (.bool b) := by
  refine fields.node [("value", .bool b)] (by decide) (by simp) (by simp) (by simp)
    fun members look => ?_
  rw [Json.tree?, look]
  simp [look, List.lookup_cons, NodeKind.named?, Json.truth?]

theorem null (fields : d.HasFields [("kind", .text "null")]) : d.Denotes .null := by
  refine fields.node [] (by decide) (by simp) (by simp) (by simp) fun members look => ?_
  rw [Json.tree?, look]
  simp [NodeKind.named?]

theorem var {name : Name} (valid : name.Valid)
    (fields : d.HasFields [("kind", .text "var"), ("name", .text name)]) :
    d.Denotes (.var name) := by
  obtain ⟨s, rfl⟩ := valid
  refine fields.node [("name", .string s)] (by decide) (by simp) (by simp) (by simp)
    fun members look => ?_
  rw [Json.tree?, look]
  simp [look, List.lookup_cons, NodeKind.named?, Json.name?]

theorem print {operand : Tree} {o : Datum} (inner : o.Denotes operand)
    (fields : d.HasFields [("kind", .text "print"), ("expr", o)]) : d.Denotes (.print operand) := by
  obtain ⟨m, written, tree, fits⟩ := inner
  refine fields.node [("expr", .object m)] (by decide) (by simp [written, fits]) (by simp) (by simp)
    fun members look => ?_
  rw [Json.tree?, look]
  simp [NodeKind.named?, child_eq_some (look "expr"), tree]

theorem binary {left right : Tree} {op : Text} {l r : Datum} (valid : op.Valid)
    (first : l.Denotes left) (second : r.Denotes right)
    (fields : d.HasFields
      [("kind", .text "binop"), ("op", .text op), ("left", l), ("right", r)]) :
    d.Denotes (.binary left op right) := by
  obtain ⟨s, rfl⟩ := valid
  obtain ⟨m, written, tree, fits⟩ := first
  obtain ⟨m', written', tree', fits'⟩ := second
  refine fields.node [("op", .string s), ("left", .object m), ("right", .object m')] (by decide)
    (by simp [written, written', fits, fits']) (by simp) (by simp) fun members look => ?_
  rw [Json.tree?, look]
  simp [look, List.lookup_cons, NodeKind.named?, Json.name?, child_eq_some (look "left"),
    child_eq_some (look "right"), tree, tree']

theorem ifThen {condition thenDo : Tree} {c t : Datum} {other : List (String × Datum)}
    (first : c.Denotes condition) (second : t.Denotes thenDo)
    (absent : other = [] ∨ other = [("else", .null)])
    (fields : d.HasFields (("kind", .text "if") :: ("cond", c) :: ("then", t) :: other)) :
    d.Denotes (.ifElse condition thenDo .missing) := by
  obtain ⟨m, written, tree, fits⟩ := first
  obtain ⟨m', written', tree', fits'⟩ := second
  obtain rfl | rfl := absent
  · refine fields.node [("cond", .object m), ("then", .object m')] (by decide)
      (by simp [written, written', fits, fits']) (by simp) (by simp) fun members look => ?_
    rw [Json.tree?, look]
    simp [NodeKind.named?, child_eq_some (look "cond"), child_eq_some (look "then"),
      child_eq_none (.inl (look "else")), tree, tree']
  · refine fields.node [("cond", .object m), ("then", .object m'), ("else", .null)] (by decide)
      (by simp [written, written', fits, fits']) (by simp) (by simp) fun members look => ?_
    rw [Json.tree?, look]
    simp [NodeKind.named?, child_eq_some (look "cond"), child_eq_some (look "then"),
      child_eq_none (.inr (look "else")), tree, tree']

theorem ifElse {condition thenDo elseDo : Tree} {c t e : Datum} (first : c.Denotes condition)
    (second : t.Denotes thenDo) (third : e.Denotes elseDo)
    (fields : d.HasFields [("kind", .text "if"), ("cond", c), ("then", t), ("else", e)]) :
    d.Denotes (.ifElse condition thenDo elseDo) := by
  obtain ⟨m, written, tree, fits⟩ := first
  obtain ⟨m', written', tree', fits'⟩ := second
  obtain ⟨m'', written'', tree'', fits''⟩ := third
  refine fields.node [("cond", .object m), ("then", .object m'), ("else", .object m'')] (by decide)
    (by simp [written, written', written'', fits, fits', fits'']) (by simp) (by simp)
    fun members look => ?_
  rw [Json.tree?, look]
  simp [NodeKind.named?, child_eq_some (look "cond"), child_eq_some (look "then"),
    child_eq_some (look "else"), tree, tree', tree'']

theorem loop {condition body : Tree} {c b : Datum} (first : c.Denotes condition)
    (second : b.Denotes body)
    (fields : d.HasFields [("kind", .text "while"), ("cond", c), ("body", b)]) :
    d.Denotes (.loop condition body) := by
  obtain ⟨m, written, tree, fits⟩ := first
  obtain ⟨m', written', tree', fits'⟩ := second
  refine fields.node [("cond", .object m), ("body", .object m')] (by decide)
    (by simp [written, written', fits, fits']) (by simp) (by simp) fun members look => ?_
  rw [Json.tree?, look]
  simp [NodeKind.named?, child_eq_some (look "cond"), child_eq_some (look "body"), tree, tree']

theorem seq {before after : Tree} {f s : Datum} (first : f.Denotes before)
    (second : s.Denotes after)
    (fields : d.HasFields [("kind", .text "seq"), ("first", f), ("second", s)]) :
    d.Denotes (.seq before after) := by
  obtain ⟨m, written, tree, fits⟩ := first
  obtain ⟨m', written', tree', fits'⟩ := second
  refine fields.node [("first", .object m), ("second", .object m')] (by decide)
    (by simp [written, written', fits, fits']) (by simp) (by simp) fun members look => ?_
  rw [Json.tree?, look]
  simp [NodeKind.named?, child_eq_some (look "first"), child_eq_some (look "second"), tree, tree']

theorem declare {name : Name} {init : Tree} {i : Datum} (valid : name.Valid)
    (inner : i.Denotes init)
    (fields : d.HasFields [("kind", .text "var_decl"), ("name", .text name), ("init", i)]) :
    d.Denotes (.declare name init) := by
  obtain ⟨s, rfl⟩ := valid
  obtain ⟨m, written, tree, fits⟩ := inner
  refine fields.node [("name", .string s), ("init", .object m)] (by decide)
    (by simp [written, fits]) (by simp) (by simp) fun members look => ?_
  rw [Json.tree?, look]
  simp [look, List.lookup_cons, NodeKind.named?, Json.name?, child_eq_some (look "init"), tree]

theorem assign {name : Name} {expr : Tree} {e : Datum} (valid : name.Valid)
    (inner : e.Denotes expr)
    (fields : d.HasFields [("kind", .text "assign"), ("name", .text name), ("expr", e)]) :
    d.Denotes (.assign name expr) := by
  obtain ⟨s, rfl⟩ := valid
  obtain ⟨m, written, tree, fits⟩ := inner
  refine fields.node [("name", .string s), ("expr", .object m)] (by decide)
    (by simp [written, fits]) (by simp) (by simp) fun members look => ?_
  rw [Json.tree?, look]
  simp [look, List.lookup_cons, NodeKind.named?, Json.name?, child_eq_some (look "expr"), tree]

theorem function {params : List Name} {body : Tree} {b : Datum} {list : List (String × Datum)}
    (valid : ∀ p ∈ params, p.Valid) (listed : ListField "params" (params.map .text) list)
    (inner : b.Denotes body)
    (fields : d.HasFields (("kind", .text "function") :: ("body", b) :: list)) :
    d.Denotes (.function params body) := by
  obtain ⟨m, written, tree, fits⟩ := inner
  obtain ⟨names, rfl⟩ := exists_names valid
  generalize items : (names.map Text.ofString).map Datum.text = ds at listed
  cases listed with
  | omitted =>
    obtain rfl : names = [] := by simpa using items
    refine fields.node [("body", .object m)] (by decide) (by simp [written, fits]) (by simp)
      (by simp) fun members look => ?_
    have params : Json.parameters members = some [] := by
      rw [Json.parameters, look]
      rfl
    rw [Json.tree?, look]
    simp [NodeKind.named?, params, child_eq_some (look "body"), tree]
  | given =>
    subst items
    have list : (Datum.seq ((names.map Text.ofString).map .text)).WrittenAs
        (.array (names.map .string)) := by
      refine seq_writtenAs ?_
      simp [List.forall₂_map_left_iff, List.forall₂_map_right_iff, List.forall₂_same]
    refine fields.node [("body", .object m), ("params", .array (names.map .string))] (by decide)
      (by simpa [written, fits] using list) (by simp) (by simp) fun members look => ?_
    rw [Json.tree?, look]
    simp [NodeKind.named?, Json.parameters_eq (look "params"), child_eq_some (look "body"), tree]

theorem call {callee : Tree} {args : List (Tree × Datum)} {c : Datum} {list : List (String × Datum)}
    (listed : ListField "args" (args.map (·.2)) list) (inner : c.Denotes callee)
    (others : ∀ a ∈ args, a.2.Denotes a.1)
    (fields : d.HasFields (("kind", .text "call") :: ("fn", c) :: list)) :
    d.Denotes (.call callee (args.map (·.1))) := by
  obtain ⟨m, written, tree, fits⟩ := inner
  obtain ⟨js, items, trees, sound⟩ := exists_items others
  generalize values : args.map (·.2) = ds at listed items
  cases listed with
  | omitted =>
    obtain rfl : args = [] := by simpa using values
    refine fields.node [("fn", .object m)] (by decide) (by simp [written, fits]) (by simp) (by simp)
      fun members look => ?_
    rw [Json.tree?, look]
    simp [NodeKind.named?, Json.arguments_absent (look "args"), child_eq_some (look "fn"), tree]
  | given =>
    refine fields.node [("fn", .object m), ("args", .array js)] (by decide)
      (by simp [written, fits, seq_writtenAs items]) (by simp) (by simpa using sound)
      fun members look => ?_
    obtain ⟨parts, found, inside⟩ := Json.arguments_present (look "args")
    rw [Json.tree?, look]
    simp [NodeKind.named?, found, inside, Json.mapM_eq_some trees, child_eq_some (look "fn"), tree]

end Datum.Denotes

theorem Tree.Encodes.denotes {t : Tree} {d : Datum} (encodes : t.Encodes d)
    (readable : t.Readable) : d.Denotes t := by
  induction encodes with
  | int fields => exact .int fields
  | bool fields => exact .bool fields
  | null fields => exact .null fields
  | var fields => exact .var (readable.own _ (by simp [ownTexts])) fields
  | print _ fields operand =>
    exact .print (operand (readable.inner (by simp [children, parts]))) fields
  | binary _ _ fields left right =>
    exact .binary (readable.own _ (by simp [ownTexts]))
      (left (readable.inner (by simp [children, parts])))
      (right (readable.inner (by simp [children, parts]))) fields
  | ifThen _ _ absent fields condition thenDo =>
    exact .ifThen (condition (readable.inner (by simp [children, parts])))
      (thenDo (readable.inner (by simp [children, parts]))) absent fields
  | @ifElse first second third _ _ _ _ _ _ given fields condition thenDo elseDo =>
    have all : (Tree.ifElse first second third).children = [second, third, first] := by
      cases given <;> rfl
    exact .ifElse (condition (readable.inner (by simp [all])))
      (thenDo (readable.inner (by simp [all]))) (elseDo (readable.inner (by simp [all]))) fields
  | loop _ _ fields condition body =>
    exact .loop (condition (readable.inner (by simp [children, parts])))
      (body (readable.inner (by simp [children, parts]))) fields
  | seq _ _ fields first second =>
    exact .seq (first (readable.inner (by simp [children, parts])))
      (second (readable.inner (by simp [children, parts]))) fields
  | declare _ fields init =>
    exact .declare (readable.own _ (by simp [ownTexts]))
      (init (readable.inner (by simp [children, parts]))) fields
  | assign _ fields expr =>
    exact .assign (readable.own _ (by simp [ownTexts]))
      (expr (readable.inner (by simp [children, parts]))) fields
  | function listed _ fields body =>
    exact .function readable.own listed (body (readable.inner (by simp [children]))) fields
  | call listed _ _ fields callee args =>
    refine .call listed (callee (readable.inner (by simp [children, parts])))
      (fun a inside => ?_) fields
    exact args a inside (readable.inner (List.mem_cons_of_mem _ (List.mem_map_of_mem inside)))

theorem Datum.hasFields_record (fields : List (String × Datum)) :
    (Datum.record (fields.map fun f => (Text.ofString f.1, f.2))).HasFields fields :=
  ⟨_, .record _, .refl _⟩

theorem exists_pairs {args : List Tree} (each : ∀ a ∈ args, ∃ d, a.Encodes d) :
    ∃ pairs : List (Tree × Datum), pairs.map (·.1) = args ∧ ∀ p ∈ pairs, p.1.Encodes p.2 := by
  induction args with
  | nil => exact ⟨[], rfl, by simp⟩
  | cons a args ih =>
    rw [List.forall_mem_cons] at each
    obtain ⟨⟨d, first⟩, others⟩ := each
    obtain ⟨pairs, rfl, rest⟩ := ih others
    exact ⟨(a, d) :: pairs, rfl, List.forall_mem_cons.mpr ⟨first, rest⟩⟩

theorem Tree.Canonical.exists_encodes {t : Tree} (canonical : t.Canonical) : ∃ d, t.Encodes d := by
  obtain ⟨complete, bare⟩ := canonical
  have fields (list : List (String × Datum)) := Datum.hasFields_record list
  induction complete with
  | int n => exact ⟨_, .int (fields _)⟩
  | bool b => exact ⟨_, .bool (fields _)⟩
  | null lexeme =>
    obtain rfl : lexeme = [] := bare.own lexeme rfl
    exact ⟨_, .null (fields _)⟩
  | var name => exact ⟨_, .var (fields _)⟩
  | print _ operand =>
    obtain ⟨o, inner⟩ := operand (bare.inner (by simp [children, parts]))
    exact ⟨_, .print inner (fields _)⟩
  | binary op _ _ left right =>
    obtain ⟨l, first⟩ := left (bare.inner (by simp [children, parts]))
    obtain ⟨r, second⟩ := right (bare.inner (by simp [children, parts]))
    exact ⟨_, .binary first second (fields _)⟩
  | ifThen _ _ condition thenDo =>
    obtain ⟨c, first⟩ := condition (bare.inner (by simp [children, parts]))
    obtain ⟨t, second⟩ := thenDo (bare.inner (by simp [children, parts]))
    exact ⟨_, .ifThen first second (.inl rfl) (fields _)⟩
  | @ifElse first second third _ _ given condition thenDo elseDo =>
    have all : (Tree.ifElse first second third).children = [second, third, first] := by
      cases given <;> rfl
    obtain ⟨c, first⟩ := condition (bare.inner (by simp [all]))
    obtain ⟨t, second⟩ := thenDo (bare.inner (by simp [all]))
    obtain ⟨e, third⟩ := elseDo (bare.inner (by simp [all]))
    exact ⟨_, .ifElse first second third (fields _)⟩
  | loop _ _ condition body =>
    obtain ⟨c, first⟩ := condition (bare.inner (by simp [children, parts]))
    obtain ⟨b, second⟩ := body (bare.inner (by simp [children, parts]))
    exact ⟨_, .loop first second (fields _)⟩
  | seq _ _ before after =>
    obtain ⟨f, first⟩ := before (bare.inner (by simp [children, parts]))
    obtain ⟨s, second⟩ := after (bare.inner (by simp [children, parts]))
    exact ⟨_, .seq first second (fields _)⟩
  | declare name _ init =>
    obtain ⟨i, inner⟩ := init (bare.inner (by simp [children, parts]))
    exact ⟨_, .declare inner (fields _)⟩
  | assign name _ expr =>
    obtain ⟨e, inner⟩ := expr (bare.inner (by simp [children, parts]))
    exact ⟨_, .assign inner (fields _)⟩
  | function params _ body =>
    obtain ⟨b, inner⟩ := body (bare.inner (by simp [children]))
    exact ⟨_, .function (.given _) inner (fields _)⟩
  | call _ _ callee others =>
    obtain ⟨c, inner⟩ := callee (bare.inner (by simp [children, parts]))
    obtain ⟨pairs, rfl, each⟩ := exists_pairs fun a listed =>
      others a listed (bare.inner (List.mem_cons_of_mem _ listed))
    exact ⟨_, .call (.given _) inner each (fields _)⟩

theorem Datum.Denotes.ofDatum {d : Datum} {t : Tree} (denotes : d.Denotes t) :
    Tree.ofDatum d = .ok t := by
  obtain ⟨members, ⟨text, written, spelled⟩, tree, fits⟩ := denotes
  have blank : Json.Blank [] := by decide
  have element := Json.Written.element blank spelled blank
  rw [List.nil_append, List.append_nil] at element
  obtain ⟨v, slice, decoded⟩ := Json.ofDocument_slice element
  have agree := Json.ofWire_slice slice fits
  rw [tree] at agree
  have result : Tree.ofDatum d = Tree.ofDocument .json text := by
    rw [Tree.ofDatum, written, Tree.ofDocument]
  rw [result, decoded]
  generalize Tree.ofWire v = x at agree
  cases agree with
  | ok same => exact congrArg Except.ok same

/-- Decoding a document that holds the wire form of a tree gives the tree back, and every complete
tree has a wire form. -/
theorem encoding_decoded (t : Tree) (canonical : t.Canonical) (readable : t.Readable) :
    (∃ d, t.Encodes d) ∧
      ∀ d doc, t.Encodes d → Yaml.load? doc = some d → Tree.ofDocument .yaml doc = .ok t := by
  refine ⟨canonical.exists_encodes, fun d doc encodes loaded => ?_⟩
  rw [Tree.ofDocument, Tree.ofYaml, loaded]
  exact (encodes.denotes readable).ofDatum

def boundCheck : Tree := .binary (.int Int64.minValue) "<=" (.var "\u2028&\"")

def boundCheckDatum : Datum :=
  .record [("op", .text "<="), ("kind", .text "binop"),
    ("left", .record [("kind", .text "int"), ("value", .int (-9223372036854775808))]),
    ("right", .record [("name", .text "\u2028&\""), ("kind", .text "var")])]

def boundCheckDocument : Text :=
  Text.ofString "op: <=\nkind: binop\nleft: \x7bkind: int, value: -9223372036854775808\x7d\n"
    ++ Text.ofString "right:\n  name: \"\\L&\\\"\"\n  kind: var\n"

def isBoundCheck : Option Datum → Bool
  | some (.record [(a, .text b), (c, .text d), (e, .record [(f, .text g), (h, .int n)]),
      (i, .record [(j, .text k), (l, .text m)])]) =>
    [a, b, c, d, e, f, g, h, i, j, k, l, m] = ["op", "<=", "kind", "binop", "left", "kind", "int",
      "value", "right", "name", "\u2028&\"", "kind", "var"].map Text.ofString ∧
    n = -9223372036854775808
  | _ => false

theorem boundCheck_loaded : Yaml.load? boundCheckDocument = some boundCheckDatum := by
  have same : isBoundCheck (Yaml.load? boundCheckDocument) = true := by decide +kernel
  generalize Yaml.load? boundCheckDocument = loaded at same
  unfold isBoundCheck at same
  split at same
  · obtain ⟨texts, rfl⟩ := of_decide_eq_true same
    simp only [List.map_cons, List.map_nil, List.cons.injEq, and_true] at texts
    obtain ⟨rfl, rfl, rfl, rfl, rfl, rfl, rfl, rfl, rfl, rfl, rfl, rfl, rfl⟩ := texts
    rfl
  · cases same

theorem boundCheck_encodes : boundCheck.Encodes boundCheckDatum := by
  have left : (Tree.int Int64.minValue).Encodes
      (.record [("kind", .text "int"), ("value", .int (-9223372036854775808))]) :=
    .int ⟨_, .record _, .refl _⟩
  have right : (Tree.var "\u2028&\"").Encodes
      (.record [("name", .text "\u2028&\""), ("kind", .text "var")]) :=
    .var ⟨_, .record _, .swap ..⟩
  exact .binary left right ⟨_, .record _, .swap ..⟩

theorem boundCheck_canonical : boundCheck.Canonical := by
  have int : (Tree.int Int64.minValue).Canonical := by
    refine Tree.canonical_of_children (.int _) ?_ (by simp [Tree.int, Tree.children, Tree.parts])
    intro lexeme literal
    cases literal
  have var : (Tree.var "\u2028&\"").Canonical := by
    refine Tree.canonical_of_children (.var _) ?_ (by simp [Tree.children, Tree.parts])
    intro lexeme literal
    cases literal
  refine Tree.canonical_of_children (.binary _ int.complete var.complete) ?_ ?_
  · intro lexeme literal
    cases literal
  · simpa [boundCheck, Tree.children, Tree.parts] using ⟨int, var⟩

theorem boundCheck_readable : boundCheck.Readable := by
  have int : (Tree.int Int64.minValue).Readable :=
    Tree.every_iff.mpr (by simp [Tree.int, Tree.ownTexts, Tree.children, Tree.parts])
  have var : (Tree.var "\u2028&\"").Readable :=
    Tree.every_iff.mpr (by simp [Text.Valid, Tree.ownTexts, Tree.children, Tree.parts])
  refine Tree.every_iff.mpr ⟨?_, ?_⟩
  · simp [boundCheck, Text.Valid, Tree.ownTexts]
  · simpa [boundCheck, Tree.children, Tree.parts] using ⟨int, var⟩

theorem boundCheck_decoded : boundCheck.Canonical ∧ boundCheck.Readable ∧
    boundCheck.Encodes boundCheckDatum ∧ Yaml.load? boundCheckDocument = some boundCheckDatum ∧
    Tree.ofDocument .yaml boundCheckDocument = .ok boundCheck := by
  obtain ⟨-, decoded⟩ := encoding_decoded boundCheck boundCheck_canonical boundCheck_readable
  exact ⟨boundCheck_canonical, boundCheck_readable, boundCheck_encodes, boundCheck_loaded,
    decoded _ _ boundCheck_encodes boundCheck_loaded⟩

end Treewalk

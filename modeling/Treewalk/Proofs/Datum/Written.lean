import Mathlib.Data.List.Perm.Basic
import Treewalk.Datum.Json
import Treewalk.Proofs.Json.Grammar
import Treewalk.Proofs.Text.Utf8

/-! What is written for generic data is a text of it in the grammar of JSON. Every character of a
string gets one of its escapes or stands for itself, and the members of a mapping are those of the
value in another order. -/
namespace Treewalk

open Text (ascii)

namespace Json

theorem unitEscape_eq (n : Nat) : unitEscape n = codeEscape (fun _ => false) n := by
  have escape : Text.ofString "\\u" = [ascii '\\', ascii 'u'] := by decide
  simp [unitEscape, codeEscape, Text.hex, Text.hexDigit, hexLetter, escape, Nat.div_div_eq_div_mul]

theorem charText_escape (c : Char) : CharText c (escape c.toNat) := by
  have short (d letter : Char) (listed : (d, letter) ∈ shortEscapes) {t : Text}
      (same : c.toNat = d.toNat) (text : t = [ascii '\\', ascii letter]) : CharText c t := by
    rw [Char.toNat_inj.mp same, text]
    exact .short listed
  unfold escape
  split
  · next same => exact short '"' '"' (by decide) same (by decide)
  split
  · next same => exact short '\\' '\\' (by decide) same (by decide)
  split
  · next same => exact short '\x08' 'b' (by decide) same (by decide)
  split
  · next same => exact short '\x0c' 'f' (by decide) same (by decide)
  split
  · next same => exact short '\n' 'n' (by decide) same (by decide)
  split
  · next same => exact short '\r' 'r' (by decide) same (by decide)
  split
  · next same => exact short '\t' 't' (by decide) same (by decide)
  split
  · next hidden =>
    have small : c.toNat < 0x10000 := by
      simp only [isHidden, Char.reduceToNat, Bool.or_eq_true, decide_eq_true_eq] at hidden
      omega
    rw [unitEscape_eq]
    exact .unit _ small
  · next quote backslash _ _ _ _ _ visible =>
    rw [Text.Utf8.encode_toNat]
    refine .plain ?_ (fun same => quote (congrArg Char.toNat same))
      (fun same => backslash (congrArg Char.toNat same))
    simp only [isHidden, Char.reduceToNat, Bool.or_eq_true, decide_eq_true_eq] at visible
    omega

theorem quoted_spelled (s : String) : ∃ body,
    quoted (Text.ofString s) = ascii '"' :: body ++ [ascii '"'] ∧ StringText s.toList body := by
  refine ⟨s.toList.flatMap fun c => escape c.toNat, ?_, ?_⟩
  · rw [quoted, Text.scan_ofString, List.flatMap_map]
  · induction s.toList with
    | nil => exact .nil
    | cons c chars ih => exact .cons (charText_escape c) ih

theorem Written.quoted {name : String} {j : Json} {t : Text} (written : Written (.value j) t) :
    Written (.member name j) (quoted (Text.ofString name) ++ ascii ':' :: t) := by
  have blank : Blank [] := by decide
  obtain ⟨body, octets, spelled⟩ := quoted_spelled name
  have member := Written.member blank spelled blank (.element blank written blank)
  rw [octets]
  simpa using member

end Json

def Numeral.ofInt (i : Int) : Numeral := ⟨i < 0, i.natAbs, none, none⟩

theorem Numeral.text_ofInt (i : Int) : (ofInt i).text = Text.integer i := by
  unfold Text.integer
  split <;> simp [ofInt, text, *]

theorem Numeral.integer?_ofInt (i : Int) : (ofInt i).integer? = some i := by
  change some (if decide (i < 0) = true then -(i.natAbs : Int) else i.natAbs) = some i
  congr 1
  split
  · next negative =>
    have below : i < 0 := of_decide_eq_true negative
    omega
  · next other =>
    have above : ¬i < 0 := fun negative => other (decide_eq_true negative)
    omega

namespace Datum

/-- The data is written, as a text of the value. -/
def WrittenAs (d : Datum) (j : Json) : Prop := ∃ t, d.json = .ok t ∧ Json.Written (.value j) t

@[simp]
theorem null_writtenAs : null.WrittenAs .null := ⟨Text.ofString "null", by rw [json], .null⟩

@[simp]
theorem bool_writtenAs (b : Bool) : (bool b).WrittenAs (.bool b) :=
  ⟨Text.truth b, by rw [json], .bool b⟩

@[simp]
theorem int_writtenAs (i : Int) : (int i).WrittenAs (.number (.ofInt i)) := by
  refine ⟨Text.integer i, by rw [json], ?_⟩
  rw [← Numeral.text_ofInt]
  exact .number _

@[simp]
theorem text_writtenAs (s : String) : (text (Text.ofString s)).WrittenAs (.string s) := by
  obtain ⟨body, octets, spelled⟩ := Json.quoted_spelled s
  exact ⟨_, by rw [json, octets], .string spelled⟩

theorem mapM_forall₂ {α β γ ε : Type} {f : α → Except ε γ} {P : β → γ → Prop} {xs : List α}
    {ys : List β} (each : List.Forall₂ (fun x y => ∃ z, f x = .ok z ∧ P y z) xs ys) :
    ∃ zs, xs.mapM f = .ok zs ∧ List.Forall₂ P ys zs := by
  induction each with
  | nil => exact ⟨[], rfl, .nil⟩
  | cons first _ ih =>
    obtain ⟨z, result, holds⟩ := first
    obtain ⟨zs, results, rest⟩ := ih
    refine ⟨z :: zs, ?_, .cons holds rest⟩
    rw [List.mapM_cons, result, results]
    rfl

theorem jsonItems_eq_mapM (items : List Datum) : jsonItems items = items.mapM json := by
  induction items with
  | nil => rw [jsonItems]; rfl
  | cons d rest ih => rw [jsonItems, ih, List.mapM_cons]

theorem jsonMembers_eq_map (members : List (Text × Datum)) :
    jsonMembers members = members.map fun m => (m.1, m.2.json) := by
  induction members with
  | nil => rw [jsonMembers]; rfl
  | cons m rest ih => rw [jsonMembers, ih]; rfl

theorem jsonValues_eq_map (members : List (Key × Datum)) :
    jsonValues members = members.map fun m => m.2.json := by
  induction members with
  | nil => rw [jsonValues]; rfl
  | cons m rest ih => rw [jsonValues, ih]; rfl

theorem intercalate_written {α : Type} {part : α → Json.Phrase} {whole : List α → Json.Phrase}
    (last : ∀ {x t}, Json.Written (part x) t → Json.Written (whole [x]) t)
    (next : ∀ {x xs t u}, Json.Written (part x) t → Json.Written (whole xs) u →
      Json.Written (whole (x :: xs)) (t ++ ascii ',' :: u))
    {xs : List α} {ts : List Text}
    (each : List.Forall₂ (fun x t => Json.Written (part x) t) xs ts) (nonempty : xs ≠ []) :
    Json.Written (whole xs) (List.intercalate [ascii ','] ts) := by
  induction each with
  | nil => exact absurd rfl nonempty
  | cons first rest ih =>
    cases rest with
    | nil => simpa [List.intercalate] using last first
    | cons second rest => simpa [List.intercalate] using next first (ih (by simp))

theorem seq_writtenAs {items : List Datum} {js : List Json}
    (each : List.Forall₂ WrittenAs items js) : (seq items).WrittenAs (.array js) := by
  obtain ⟨ts, results, written⟩ := mapM_forall₂ each
  refine ⟨ascii '[' :: List.intercalate [ascii ','] ts ++ [ascii ']'], ?_, ?_⟩
  · rw [json, jsonItems_eq_mapM, results]
    rfl
  · have blank : Json.Blank [] := by decide
    have elements := written.imp fun j t value => by
      simpa using Json.Written.element blank value blank
    cases elements with
    | nil => exact .emptyArray (w := []) blank
    | cons first rest =>
      exact .array (intercalate_written .lastElement .nextElement (.cons first rest) (by simp))

/-- The data is a mapping with texts for keys, in either form. -/
inductive Maps : Datum → List (Text × Datum) → Prop where
  | record (members : List (Text × Datum)) : Maps (.record members) members
  | map (members : List (Text × Datum)) :
    Maps (.map (members.map fun m => (.text m.1, m.2))) members

theorem Maps.json_eq {d : Datum} {members : List (Text × Datum)} (maps : d.Maps members)
    (valid : ∀ m ∈ members, ∃ s, m.1 = Text.ofString s) :
    d.json = joinMembers (members.map fun m => (m.1, m.2.json)) := by
  cases maps with
  | record => rw [json, jsonMembers_eq_map]
  | map =>
    have names : (members.map fun m => (Key.text m.1, m.2)).mapM (·.1.name)
        = (.ok (members.map (·.1)) : Except WriteError (List Text)) := by
      induction members with
      | nil => rfl
      | cons m rest ih =>
        rw [List.forall_mem_cons] at valid
        obtain ⟨⟨s, name⟩, others⟩ := valid
        rw [List.map_cons, List.mapM_cons, ih others, Key.name, name, Text.cleaned_ofString,
          ← name]
        rfl
    rw [json, names, jsonValues_eq_map, List.map_map]
    exact congrArg joinMembers (List.zip_map' ..)

theorem joinMembers_written {entries : List (Text × Except WriteError Text)}
    {members : List (String × Json)}
    (each : List.Forall₂ (fun e m => e.1 = Text.ofString m.1 ∧
      ∃ t, e.2 = .ok t ∧ Json.Written (.value m.2) t) entries members) :
    ∃ sorted t, sorted.Perm members ∧ joinMembers entries = .ok t ∧
      Json.Written (.value (.object sorted)) t := by
  obtain ⟨sorted, ordered, perm⟩ := List.perm_comp_forall₂
    (List.mergeSort_perm entries fun a b => Text.le a.1 b.1) each
  have lines : List.Forall₂ (fun e m => ∃ t,
      (return Json.quoted e.1 ++ ascii ':' :: (← e.2) : Except WriteError Text) = .ok t ∧
        Json.Written (.member m.1 m.2) t)
      (entries.mergeSort fun a b => Text.le a.1 b.1) sorted := by
    refine ordered.imp fun e m entry => ?_
    obtain ⟨name, t, result, written⟩ := entry
    refine ⟨_, ?_, written.quoted⟩
    rw [name, result]
    rfl
  obtain ⟨ts, results, written⟩ := mapM_forall₂ lines
  refine ⟨sorted, ascii '\x7b' :: List.intercalate [ascii ','] ts ++ [ascii '\x7d'], perm, ?_, ?_⟩
  · rw [joinMembers, results]
    rfl
  · cases written with
    | nil => exact .emptyObject (w := []) (by decide)
    | cons first rest =>
      exact .object (intercalate_written .lastMember .nextMember (.cons first rest) (by simp))

theorem Maps.writtenAs {d : Datum} {members : List (Text × Datum)} {fields : List (String × Json)}
    (maps : d.Maps members)
    (each : List.Forall₂ (fun m f => m.1 = Text.ofString f.1 ∧ m.2.WrittenAs f.2) members fields) :
    ∃ sorted, sorted.Perm fields ∧ d.WrittenAs (.object sorted) := by
  have valid : ∀ m ∈ members, ∃ s, m.1 = Text.ofString s := by
    clear maps
    induction each with
    | nil => simp
    | cons first _ ih => exact List.forall_mem_cons.mpr ⟨⟨_, first.1⟩, ih⟩
  have entries : List.Forall₂ (fun e f => e.1 = Text.ofString f.1 ∧
      ∃ t, e.2 = .ok t ∧ Json.Written (.value f.2) t)
      (members.map fun m => (m.1, m.2.json)) fields := List.forall₂_map_left_iff.mpr each
  obtain ⟨sorted, t, perm, result, written⟩ := joinMembers_written entries
  exact ⟨sorted, perm, t, (maps.json_eq valid).trans result, written⟩

end Datum
end Treewalk

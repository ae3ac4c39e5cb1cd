import Treewalk.Proofs.Json.Grammar
import Treewalk.Proofs.Text.Integer
import Treewalk.Proofs.Text.Utf8
import Treewalk.Wire.Slice

/-! The shape of JSON text as the slicing functions see it: strings whose quotes are escaped, and
brackets of both kinds that balance outside strings. -/
namespace Treewalk.Wire

open Text (ascii)

/-- What can stand between quotes: a quote occurs only behind a backslash. -/
inductive StringBody : Text → Prop where
  | nil : StringBody []
  | octet {b : UInt8} {rest : Text} :
    b ≠ quote → b ≠ backslash → StringBody rest → StringBody (b :: rest)
  | escape {b : UInt8} {rest : Text} : StringBody rest → StringBody (backslash :: b :: rest)

namespace StringBody

theorem append {t u : Text} (first : StringBody t) (second : StringBody u) :
    StringBody (t ++ u) := by
  induction first with
  | nil => exact second
  | octet quoted escaped _ ih => exact .octet quoted escaped ih
  | escape _ ih => exact .escape ih

theorem of_forall {t : Text} (plain : ∀ b ∈ t, b ≠ quote ∧ b ≠ backslash) : StringBody t := by
  induction t with
  | nil => exact .nil
  | cons b rest ih =>
    rw [List.forall_mem_cons] at plain
    exact .octet plain.1.1 plain.1.2 (ih plain.2)

end StringBody

theorem splitString_quote (rest : Text) : splitString (quote :: rest) = some ([], rest) := by
  cases rest <;> simp [splitString]

theorem splitString_body {t : Text} (body : StringBody t) (rest : Text) :
    splitString (t ++ quote :: rest) = some (t, rest) := by
  induction body with
  | nil => exact splitString_quote rest
  | @octet b t quoted escaped _ ih =>
    cases tail : t ++ quote :: rest with
    | nil => simp at tail
    | cons c next =>
      rw [tail] at ih
      simp [tail, splitString, quoted, escaped, ih]
  | @escape b t _ ih =>
    have other : backslash ≠ quote := by decide
    simp [splitString, other, ih]

inductive Brackets : UInt8 → UInt8 → Prop where
  | square : Brackets (ascii '[') (ascii ']')
  | curly : Brackets (ascii '\x7b') (ascii '\x7d')

def delimiters : List UInt8 := [quote, ascii '[', ascii ']', ascii '\x7b', ascii '\x7d']

/-- Text whose strings are closed and whose brackets balance. -/
inductive Balanced : Text → Prop where
  | nil : Balanced []
  | octet {b : UInt8} {rest : Text} : b ∉ delimiters → Balanced rest → Balanced (b :: rest)
  | string {s rest : Text} : StringBody s → Balanced rest → Balanced (quote :: s ++ quote :: rest)
  | block {o c : UInt8} {inner rest : Text} :
    Brackets o c → Balanced inner → Balanced rest → Balanced (o :: inner ++ c :: rest)

def behind (t : Text) (split : Text × Text) : Text × Text := (t ++ split.1, split.2)

theorem behind_nil : behind [] = id := rfl

theorem behind_behind (t u : Text) : behind t ∘ behind u = behind (t ++ u) := by
  funext split
  simp [behind]

section SplitBlock

variable {o c : UInt8}

theorem splitBlock_octet {b : UInt8} (quoted : b ≠ quote) (opening : b ≠ o) (closing : b ≠ c)
    (level : Nat) (rest : Text) :
    splitBlock o c .outside level (b :: rest)
      = (splitBlock o c .outside level rest).map (behind [b]) := by
  rw [splitBlock, if_neg quoted, if_neg opening, if_neg closing]
  rfl

theorem splitBlock_body {s : Text} (body : StringBody s) (level : Nat) (rest : Text) :
    splitBlock o c .inString level (s ++ quote :: rest)
      = (splitBlock o c .outside level rest).map (behind (s ++ [quote])) := by
  have inside (b : UInt8) (t : Text) : splitBlock o c .inString level (b :: t)
      = (splitBlock o c (if b = quote then .outside else if b = backslash then .escaped
          else .inString) level t).map (behind [b]) := rfl
  have escaped (b : UInt8) (t : Text) : splitBlock o c .escaped level (b :: t)
      = (splitBlock o c .inString level t).map (behind [b]) := rfl
  induction body with
  | nil => rw [List.nil_append, inside, if_pos rfl, List.nil_append]
  | octet quoted unescaped _ ih =>
    rw [List.cons_append, inside, if_neg quoted, if_neg unescaped, ih, Option.map_map,
      behind_behind]
    rfl
  | escape _ ih =>
    rw [List.cons_append, List.cons_append, inside, if_neg (by decide), if_pos rfl, escaped, ih,
      Option.map_map, Option.map_map, behind_behind, behind_behind]
    rfl

theorem splitBlock_string {s : Text} (body : StringBody s) (level : Nat) (rest : Text) :
    splitBlock o c .outside level (quote :: s ++ quote :: rest)
      = (splitBlock o c .outside level rest).map (behind (quote :: s ++ [quote])) := by
  rw [List.cons_append, splitBlock, if_pos rfl, splitBlock_body body, Option.map_map]
  rfl

theorem splitBlock_opening (other : o ≠ quote) (level : Nat) (rest : Text) :
    splitBlock o c .outside level (o :: rest)
      = (splitBlock o c .outside (level + 1) rest).map (behind [o]) := by
  rw [splitBlock, if_neg other, if_pos rfl]
  rfl

theorem splitBlock_closing (other : c ≠ quote) (distinct : c ≠ o) {level : Nat}
    (inner : ¬level ≤ 1) (rest : Text) :
    splitBlock o c .outside level (c :: rest)
      = (splitBlock o c .outside (level - 1) rest).map (behind [c]) := by
  rw [splitBlock, if_neg other, if_neg distinct, if_pos rfl, if_neg inner]
  rfl

theorem quote_mem : quote ∈ delimiters := by decide

theorem Brackets.mem (pair : Brackets o c) : o ∈ delimiters ∧ c ∈ delimiters := by
  cases pair <;> decide

theorem Brackets.ne (pair : Brackets o c) : o ≠ quote ∧ c ≠ quote ∧ c ≠ o := by
  cases pair <;> decide

theorem Brackets.eq_or_ne {o' c' : UInt8} (pair : Brackets o c) (other : Brackets o' c') :
    (o' = o ∧ c' = c) ∨ (o' ≠ o ∧ o' ≠ c ∧ c' ≠ o ∧ c' ≠ c) := by
  cases pair <;> cases other <;> decide

/-- Inside a block, balanced text is passed over as a whole. -/
theorem splitBlock_balanced (pair : Brackets o c) {t : Text} (balanced : Balanced t) {level : Nat}
    (inside : 1 ≤ level) (rest : Text) :
    splitBlock o c .outside level (t ++ rest)
      = (splitBlock o c .outside level rest).map (behind t) := by
  induction balanced generalizing level rest with
  | nil => rw [List.nil_append, behind_nil, Option.map_id_fun, id]
  | @octet b t free _ ih =>
    rw [List.cons_append, splitBlock_octet (ne_of_mem_of_not_mem quote_mem free).symm
      (ne_of_mem_of_not_mem pair.mem.1 free).symm (ne_of_mem_of_not_mem pair.mem.2 free).symm,
      ih inside, Option.map_map, behind_behind]
    rfl
  | @string s t body _ ih =>
    have whole : quote :: s ++ quote :: t ++ rest = quote :: s ++ quote :: (t ++ rest) := by simp
    rw [whole, splitBlock_string body, ih inside, Option.map_map, behind_behind]
    simp
  | @block o' c' inner t other _ _ inner_ih ih =>
    obtain ⟨openQuote, closeQuote, distinct⟩ := pair.ne
    obtain ⟨openQuote', closeQuote', _⟩ := other.ne
    rw [List.append_assoc, List.cons_append, List.cons_append]
    obtain ⟨rfl, rfl⟩ | ⟨foreign₁, foreign₂, foreign₃, foreign₄⟩ := pair.eq_or_ne other
    · rw [splitBlock_opening openQuote, inner_ih (by omega), splitBlock_closing closeQuote distinct
        (by omega), Nat.add_sub_cancel, ih inside]
      simp [behind_behind]
    · rw [splitBlock_octet openQuote' foreign₁ foreign₂, inner_ih inside,
        splitBlock_octet closeQuote' foreign₃ foreign₄, ih inside]
      simp [behind_behind]

theorem block?_enclosed (pair : Brackets o c) {inner : Text} (balanced : Balanced inner)
    (rest : Text) : block? o c (o :: inner ++ c :: rest) = some (o :: inner ++ [c], rest) := by
  obtain ⟨openQuote, closeQuote, distinct⟩ := pair.ne
  have closing : splitBlock o c .outside 1 (c :: rest) = some ([c], rest) := by
    rw [splitBlock, if_neg closeQuote, if_neg distinct, if_pos rfl, if_pos (Nat.le_refl 1)]
  rw [block?, List.cons_append, splitBlock_opening openQuote,
    splitBlock_balanced pair balanced (Nat.le_refl 1), closing]
  rfl

end SplitBlock
namespace Balanced

theorem append {t u : Text} (first : Balanced t) (second : Balanced u) : Balanced (t ++ u) := by
  induction first with
  | nil => exact second
  | octet free _ ih => exact .octet free ih
  | string body _ ih =>
    rw [List.append_assoc, List.cons_append]
    exact .string body ih
  | block pair inner _ _ ih =>
    rw [List.append_assoc, List.cons_append]
    exact .block pair inner ih

theorem of_forall {t : Text} (free : ∀ b ∈ t, b ∉ delimiters) : Balanced t := by
  induction t with
  | nil => exact .nil
  | cons b t ih =>
    rw [List.forall_mem_cons] at free
    exact .octet free.1 (ih free.2)

end Balanced
end Treewalk.Wire

namespace Treewalk.Json

open Text (ascii)
open Wire (quote backslash StringBody Balanced Brackets delimiters)

def separators : List UInt8 :=
  delimiters ++ [ascii ':', ascii ',', ascii ' ', ascii '\t', ascii '\n', ascii '\r']

structure Token (t : Text) : Prop where
  nonempty : t ≠ []
  free : ∀ b ∈ t, b ∉ separators

theorem not_mem_separators_of_isDigit {b : UInt8} (digit : Text.isDigit b = true) :
    b ∉ separators := by
  have none : separators.all (!Text.isDigit ·) = true := by decide
  intro listed
  have other := List.all_eq_true.mp none b listed
  rw [digit] at other
  cases other

theorem isDigit_of_mem_digits {d : Digits} {b : UInt8} (listed : b ∈ d.text) :
    Text.isDigit b = true := by
  have all : ∀ n : Fin 10, Text.isDigit (ascii (Nat.digitChar n.val)) = true := by decide
  obtain ⟨n, -, rfl⟩ := List.mem_map.mp listed
  exact all n

theorem octet_number {q : Numeral} {b : UInt8} (listed : b ∈ q.text) :
    Text.isDigit b = true ∨ b ∈ [ascii '-', ascii '+', ascii '.', ascii 'e', ascii 'E'] := by
  simp only [Numeral.text, List.mem_append] at listed
  obtain ((sign | whole) | fraction) | exponent := listed
  · right
    grind
  · exact .inl (Text.isDigit_of_mem_natural whole)
  · split at fraction
    · cases fraction
    · obtain rfl | digit := List.mem_cons.mp fraction
      · exact .inr (by decide)
      · exact .inl (isDigit_of_mem_digits digit)
  · split at exponent
    · cases exponent
    · simp only [Exponent.text, List.cons_append, List.mem_cons, List.mem_append] at exponent
      obtain mark | sign | digit := exponent
      · right
        grind
      · right
        grind
      · exact .inl (isDigit_of_mem_digits digit)

theorem token_number (q : Numeral) : Token q.text := by
  constructor
  · simp [Numeral.text, Text.natural_ne_nil]
  · intro b listed
    obtain digit | mark := octet_number listed
    · exact not_mem_separators_of_isDigit digit
    · simp only [List.mem_cons, List.not_mem_nil, or_false] at mark
      rcases mark with rfl | rfl | rfl | rfl | rfl <;> decide

theorem token_of_all {t : Text} (nonempty : t ≠ []) (free : t.all (· ∉ separators) = true) :
    Token t :=
  ⟨nonempty, fun b listed => of_decide_eq_true (List.all_eq_true.mp free b listed)⟩

theorem token_truth (b : Bool) : Token (Text.truth b) := by
  cases b <;> exact token_of_all (by decide) (by decide)

theorem token_null : Token (Text.ofString "null") := token_of_all (by decide) (by decide)

theorem Token.balanced {t : Text} (token : Token t) : Balanced t :=
  .of_forall fun b listed delimiter =>
    token.free b listed (List.mem_append_left _ delimiter)

theorem Blank.balanced {w : Text} (blank : Blank w) : Balanced w := by
  refine .of_forall fun b listed => ?_
  obtain rfl | rfl | rfl | rfl := blank b listed <;> decide

theorem hexLetter_body (capital : Bool) {n : Nat} (small : n < 16) :
    hexLetter capital n ≠ quote ∧ hexLetter capital n ≠ backslash := by
  revert n
  cases capital <;> decide

theorem codeEscape_body (capital : Fin 4 → Bool) (n : Nat) : StringBody (codeEscape capital n) := by
  refine .escape (StringBody.of_forall fun b listed => ?_)
  simp only [List.mem_cons, List.not_mem_nil, or_false] at listed
  rcases listed with rfl | rfl | rfl | rfl <;> exact hexLetter_body _ (Nat.mod_lt _ (by decide))

theorem CharText.body {c : Char} {t : Text} (written : CharText c t) : StringBody t := by
  cases written with
  | plain _ quoted escaped =>
    exact .of_forall fun b listed => ⟨Text.Utf8.ne_ascii_of_mem (by decide) quoted listed,
      Text.Utf8.ne_ascii_of_mem (by decide) escaped listed⟩
  | short => exact .escape .nil
  | unit capital => exact codeEscape_body capital _
  | pair high low => exact (codeEscape_body high _).append (codeEscape_body low _)

theorem StringText.body {chars : List Char} {t : Text} (written : StringText chars t) :
    StringBody t := by
  induction written with
  | nil => exact .nil
  | cons first _ ih => exact first.body.append ih

/-- Every phrase of the grammar is balanced. -/
theorem Written.balanced {phrase : Phrase} {t : Text} (written : Written phrase t) :
    Balanced t := by
  induction written with
  | null => exact token_null.balanced
  | bool b => exact (token_truth b).balanced
  | number q => exact (token_number q).balanced
  | string body => exact .string body.body .nil
  | emptyArray blank => exact .block .square blank.balanced .nil
  | array _ ih => exact .block .square ih .nil
  | emptyObject blank => exact .block .curly blank.balanced .nil
  | object _ ih => exact .block .curly ih .nil
  | element before _ after ih => exact (before.balanced.append ih).append after.balanced
  | lastElement _ ih => exact ih
  | nextElement _ _ first rest => exact first.append (.octet (by decide) rest)
  | member before name between _ ih =>
    exact (before.balanced.append (.string name.body between.balanced)).append
      (.octet (by decide) ih)
  | lastMember _ ih => exact ih
  | nextMember _ _ first rest => exact first.append (.octet (by decide) rest)

end Treewalk.Json

import Mathlib.Data.List.Forall2
import Treewalk.Proofs.Json.Shape
import Treewalk.Wire.Member

/-! Reading JSON text piece by piece: the escapes of a string, the slice of the first value, and
the slices of the elements of an array. -/
namespace Treewalk.Json

open Text (ascii)
open Wire (quote backslash unescape unit? hexDigit? shortEscape? isHalf skipBlank readValue)

theorem unescape_octet {b : UInt8} (plain : b ≠ backslash) (rest : Text) :
    unescape (b :: rest) = (unescape rest).map (b :: ·) := by
  rw [Wire.unescape.eq_def]
  dsimp only
  rw [if_neg plain]

theorem unescape_octets {t : Text} (plain : ∀ b ∈ t, b ≠ backslash) (rest : Text) :
    unescape (t ++ rest) = (unescape rest).map (t ++ ·) := by
  induction t with
  | nil => simp
  | cons b t ih =>
    rw [List.forall_mem_cons] at plain
    rw [List.cons_append, unescape_octet plain.1, ih plain.2, Option.map_map]
    rfl

theorem unescape_short {e b : UInt8} (known : shortEscape? e = some b) (rest : Text) :
    unescape (backslash :: e :: rest) = (unescape rest).map (b :: ·) := by
  rw [Wire.unescape.eq_def]
  dsimp only
  rw [if_pos rfl, known]

theorem unit?_hexLetter (capital : Fin 4 → Bool) {n : Nat} (small : n < 0x10000) :
    unit? (hexLetter (capital 0) (n / 0x1000 % 16)) (hexLetter (capital 1) (n / 0x100 % 16))
      (hexLetter (capital 2) (n / 0x10 % 16)) (hexLetter (capital 3) (n % 16)) = some n := by
  have digit : ∀ capital : Bool, ∀ d < 16, hexDigit? (hexLetter capital d) = some d := by decide
  have bound (m : Nat) : m % 16 < 16 := Nat.mod_lt m (by decide)
  simp only [unit?, digit _ _ (bound _), Option.bind_eq_bind, Option.bind_some, Option.pure_def,
    Option.some.injEq]
  omega

theorem isHalf_iff {n : Nat} : isHalf n = true ↔ 0xD800 ≤ n ∧ n ≤ 0xDFFF := by
  simp [isHalf]

theorem unescape_unit (capital : Fin 4 → Bool) {n : Nat} (small : n < 0x10000)
    (whole : isHalf n = false) (rest : Text) :
    unescape (codeEscape capital n ++ rest) = (unescape rest).map (Text.Utf8.encode n ++ ·) := by
  have letter : shortEscape? (ascii 'u') = none := by decide
  rw [codeEscape, Wire.unescape.eq_def]
  dsimp only [List.cons_append, List.nil_append]
  rw [if_pos (by decide), letter, unit?_hexLetter capital small]
  simp only [if_true, whole, Bool.false_eq_true, if_false]

theorem unescape_pair (capital capital' : Fin 4 → Bool) {high low : Nat} (upper : high < 0x10000)
    (half : isHalf high = true) (lower : 0xDC00 ≤ low) (small : low < 0x10000) (rest : Text) :
    unescape (codeEscape capital high ++ codeEscape capital' low ++ rest)
      = (unescape rest).map (Text.Utf8.encode (Wire.pair high low) ++ ·) := by
  have letter : shortEscape? (ascii 'u') = none := by decide
  rw [codeEscape, codeEscape, Wire.unescape.eq_def]
  dsimp only [List.cons_append, List.nil_append]
  rw [if_pos (by decide), letter, unit?_hexLetter capital upper]
  simp only [if_true, half, unit?_hexLetter capital' small, if_neg (Nat.not_lt.mpr lower)]

theorem pair_surrogates {n : Nat} (large : 0x10000 ≤ n) :
    Wire.pair (0xD800 + (n - 0x10000) / 0x400) (0xDC00 + (n - 0x10000) % 0x400) = n := by
  have parts : (n - 0x10000) / 0x400 * 0x400 + (n - 0x10000) % 0x400 = n - 0x10000 :=
    Nat.div_add_mod' _ _
  unfold Wire.pair
  generalize (n - 0x10000) / 0x400 = high at parts ⊢
  generalize (n - 0x10000) % 0x400 = low at parts ⊢
  omega

theorem unescape_char {c : Char} {t : Text} (written : CharText c t) (rest : Text) :
    unescape (t ++ rest) = (unescape rest).map (String.utf8EncodeChar c ++ ·) := by
  have scalar := Text.Utf8.toNat_cases c
  cases written with
  | plain _ _ escaped =>
    exact unescape_octets
      (fun b listed => Text.Utf8.ne_ascii_of_mem (by decide) escaped listed) rest
  | short listed =>
    have table : ∀ p ∈ shortEscapes, shortEscape? (ascii p.2) = some (ascii p.1) ∧
        String.utf8EncodeChar p.1 = [ascii p.1] := by decide
    obtain ⟨known, octets⟩ := table _ listed
    rw [octets]
    exact unescape_short known rest
  | unit capital small =>
    have whole : isHalf c.toNat = false := by
      rw [Bool.eq_false_iff, Ne, isHalf_iff]
      omega
    rw [unescape_unit capital small whole, Text.Utf8.encode_toNat]
  | pair high low large =>
    have half : isHalf (0xD800 + (c.toNat - 0x10000) / 0x400) = true := by
      rw [isHalf_iff]
      omega
    rw [unescape_pair high low (by omega) half (by omega) (by omega), pair_surrogates large,
      Text.Utf8.encode_toNat]

theorem unescape_string {s : String} {t : Text} (written : StringText s.toList t) :
    unescape t = some (Text.ofString s) := by
  rw [Text.ofString_eq_flatMap]
  generalize s.toList = chars at written
  induction written with
  | nil => rfl
  | cons first _ ih =>
    rw [unescape_char first, ih]
    rfl

theorem isBlank_of_mem {w : Text} (blank : Blank w) {b : UInt8} (listed : b ∈ w) :
    Wire.isBlank b = true := by
  obtain rfl | rfl | rfl | rfl := blank b listed <;> decide

theorem skipBlank_append {w : Text} (blank : Blank w) (t : Text) :
    skipBlank (w ++ t) = skipBlank t :=
  List.dropWhile_append_of_pos fun _ listed => isBlank_of_mem blank listed

theorem skipBlank_cons {b : UInt8} (visible : Wire.isBlank b = false) (t : Text) :
    skipBlank (b :: t) = b :: t :=
  List.dropWhile_cons_of_neg (by simp [visible])

theorem readValue_append {w : Text} (blank : Blank w) (t : Text) :
    readValue (w ++ t) = readValue t := by
  rw [readValue, skipBlank_append blank, readValue]

def Delimited (rest : Text) : Prop := ∀ b ∈ rest.head?, Wire.endsToken b = true

theorem Delimited.cons {b : UInt8} (ends : Wire.endsToken b = true) (rest : Text) :
    Delimited (b :: rest) := by
  intro c front
  cases front
  exact ends

theorem Delimited.append {rest : Text} (delimited : Delimited rest) {w : Text} (blank : Blank w) :
    Delimited (w ++ rest) := by
  cases w with
  | nil => exact delimited
  | cons b w => exact .cons (by simp [Wire.endsToken, isBlank_of_mem blank]) _

/-- The slice that holds a value. -/
inductive Slice : Json → Wire.Value → Prop where
  | null : Slice .null ⟨.null, Text.ofString "null"⟩
  | bool (b : Bool) : Slice (.bool b) ⟨.boolean, Text.truth b⟩
  | number (q : Numeral) : Slice (.number q) ⟨.number, q.text⟩
  | string {s : String} {t : Text} : StringText s.toList t → Slice (.string s) ⟨.string, t⟩
  | array {items : List Json} {t : Text} :
    Written (.value (.array items)) t → Slice (.array items) ⟨.array, t⟩
  | object {members : List (String × Json)} {t : Text} :
    Written (.value (.object members)) t → Slice (.object members) ⟨.object, t⟩

theorem readToken_append {t : Text} (token : Token t) {kind : Wire.Kind}
    (known : Wire.tokenKind? t = some kind) {rest : Text} (delimited : Delimited rest) :
    Wire.readToken (t ++ rest) = .ok (⟨kind, t⟩, rest) := by
  have inside : ∀ b ∈ t, (!Wire.endsToken b) = true := by
    intro b listed
    have free := token.free b listed
    simp only [separators, Wire.delimiters, List.cons_append, List.nil_append, List.mem_cons,
      not_or] at free
    simp [Wire.endsToken, Wire.isBlank, free]
  have outside : rest.takeWhile (!Wire.endsToken ·) = [] ∧
      rest.dropWhile (!Wire.endsToken ·) = rest := by
    cases rest with
    | nil => exact ⟨rfl, rfl⟩
    | cons b rest => simp [delimited b rfl]
  rw [Wire.readToken, List.takeWhile_append_of_pos inside, List.dropWhile_append_of_pos inside,
    outside.1, outside.2, List.append_nil, known]

theorem readValue_token {t : Text} (token : Token t) {kind : Wire.Kind}
    (known : Wire.tokenKind? t = some kind) {rest : Text} (delimited : Delimited rest) :
    readValue (t ++ rest) = .ok (⟨kind, t⟩, rest) := by
  cases front : t with
  | nil => exact absurd front token.nonempty
  | cons b tail =>
    have free := token.free b (by simp [front])
    simp only [separators, Wire.delimiters, List.cons_append, List.nil_append, List.mem_cons,
      not_or] at free
    have visible : Wire.isBlank b = false := by simp [Wire.isBlank, free]
    rw [List.cons_append, readValue, skipBlank_cons visible]
    dsimp only
    rw [if_neg free.1, if_neg free.2.1, if_neg free.2.2.2.1, ← List.cons_append, ← front,
      readToken_append token known delimited]

theorem tokenKind?_number (q : Numeral) : Wire.tokenKind? q.text = some .number := by
  have front : ∃ b tail, q.text = b :: tail ∧ (Text.isDigit b || b = ascii '-') = true := by
    cases digits : Text.natural q.whole with
    | nil => exact absurd digits (Text.natural_ne_nil q.whole)
    | cons b tail =>
      have digit := Text.isDigit_of_mem_natural (n := q.whole) (b := b) (by simp [digits])
      cases minus : q.negative with
      | true => exact ⟨ascii '-', _, by simp only [Numeral.text, minus]; rfl, by decide⟩
      | false => exact ⟨b, _, by simp only [Numeral.text, minus, digits]; rfl, by simp [digit]⟩
  obtain ⟨b, tail, text, first⟩ := front
  have other {word : Text}
      (letter : word.head?.any (fun c => Text.isDigit c || c = ascii '-') = false) :
      q.text ≠ word := by
    intro equal
    rw [← equal, text] at letter
    cases first.symm.trans letter
  have notTrue : q.text ≠ Text.ofString "true" := other (by decide)
  have notFalse : q.text ≠ Text.ofString "false" := other (by decide)
  have notNull : q.text ≠ Text.ofString "null" := other (by decide)
  unfold Wire.tokenKind?
  rw [if_neg (not_or.mpr ⟨notTrue, notFalse⟩), if_neg notNull, text]
  exact if_pos first

theorem readValue_string {t : Text} (body : Wire.StringBody t) (rest : Text) :
    readValue (ascii '"' :: t ++ [ascii '"'] ++ rest) = .ok (⟨.string, t⟩, rest) := by
  have whole : ascii '"' :: t ++ [ascii '"'] ++ rest = quote :: (t ++ quote :: rest) := by
    simp [quote]
  rw [whole, readValue, skipBlank_cons (by decide)]
  dsimp only
  rw [if_pos rfl, Wire.splitString_body body]

def blockKind (opening : UInt8) : Wire.Kind := if opening = ascii '[' then .array else .object

theorem readValue_block {o c : UInt8} (pair : Wire.Brackets o c) {inner : Text}
    (balanced : Wire.Balanced inner) (rest : Text) :
    readValue (o :: inner ++ [c] ++ rest) = .ok (⟨blockKind o, o :: inner ++ [c]⟩, rest) := by
  have whole : o :: inner ++ [c] ++ rest = o :: (inner ++ c :: rest) := by simp
  have visible : Wire.isBlank o = false := by cases pair <;> decide
  have block := Wire.block?_enclosed pair balanced rest
  rw [List.cons_append] at block
  rw [whole, readValue, skipBlank_cons visible]
  dsimp only
  cases pair with
  | square =>
    rw [if_neg (by decide), if_pos rfl, block]
    rfl
  | curly =>
    rw [if_neg (by decide), if_neg (by decide), if_pos rfl, block]
    rfl

theorem readValue_value {j : Json} {t : Text} (written : Written (.value j) t) {rest : Text}
    (delimited : Delimited rest) : ∃ v, Slice j v ∧ readValue (t ++ rest) = .ok (v, rest) := by
  cases written with
  | null => exact ⟨_, .null, readValue_token token_null (by decide) delimited⟩
  | bool b =>
    have known : Wire.tokenKind? (Text.truth b) = some .boolean := by cases b <;> decide
    exact ⟨_, .bool b, readValue_token (token_truth b) known delimited⟩
  | number q =>
    exact ⟨_, .number q, readValue_token (token_number q) (tokenKind?_number q) delimited⟩
  | string body => exact ⟨_, .string body, readValue_string body.body rest⟩
  | emptyArray blank =>
    exact ⟨_, .array (.emptyArray blank), readValue_block .square blank.balanced rest⟩
  | array inner => exact ⟨_, .array (.array inner), readValue_block .square inner.balanced rest⟩
  | emptyObject blank =>
    exact ⟨_, .object (.emptyObject blank), readValue_block .curly blank.balanced rest⟩
  | object inner => exact ⟨_, .object (.object inner), readValue_block .curly inner.balanced rest⟩

theorem readValue_element {j : Json} {t : Text} (written : Written (.element j) t) {rest : Text}
    (delimited : Delimited rest) :
    ∃ v w, Slice j v ∧ Blank w ∧ readValue (t ++ rest) = .ok (v, w ++ rest) := by
  cases written with
  | @element _ w t w' before value after =>
    obtain ⟨v, slice, read⟩ := readValue_value value (delimited.append after)
    refine ⟨v, w', slice, after, ?_⟩
    rw [List.append_assoc, List.append_assoc, readValue_append before, read]

theorem elements_eq {t after rest : Text} {v : Wire.Value} {b : UInt8}
    (read : readValue t = .ok (v, after)) (front : skipBlank after = b :: rest) :
    Wire.elements t = if b = ascii ']' then .ok [v]
      else if b = ascii ',' then (Wire.elements rest).map (v :: ·)
      else .error .unclosedArray := by
  rw [Wire.elements]
  split
  · next other => rw [read] at other; cases other
  · next other =>
    rw [read] at other
    cases other
    split
    · next empty => rw [front] at empty; cases empty
    · next same =>
      rw [front] at same
      cases same
      rfl

theorem elements_written {items : List Json} {t : Text} (written : Written (.elements items) t)
    (rest : Text) :
    ∃ vs, List.Forall₂ Slice items vs ∧ Wire.elements (t ++ ascii ']' :: rest) = .ok vs := by
  induction items generalizing t with
  | nil => cases written
  | cons j items ih =>
    cases written with
    | lastElement element =>
      have delimited : Delimited (ascii ']' :: rest) := .cons (by decide) rest
      obtain ⟨v, w, slice, blank, read⟩ := readValue_element element delimited
      have front : skipBlank (w ++ ascii ']' :: rest) = ascii ']' :: rest := by
        rw [skipBlank_append blank, skipBlank_cons (by decide)]
      refine ⟨[v], .cons slice .nil, ?_⟩
      rw [elements_eq read front, if_pos rfl]
    | @nextElement _ _ t u element more =>
      have delimited : Delimited (ascii ',' :: (u ++ ascii ']' :: rest)) := .cons (by decide) _
      obtain ⟨v, w, slice, blank, read⟩ := readValue_element element delimited
      have front : skipBlank (w ++ ascii ',' :: (u ++ ascii ']' :: rest))
          = ascii ',' :: (u ++ ascii ']' :: rest) := by
        rw [skipBlank_append blank, skipBlank_cons (by decide)]
      obtain ⟨vs, slices, found⟩ := ih more
      refine ⟨v :: vs, .cons slice slices, ?_⟩
      rw [List.append_assoc, List.cons_append, elements_eq read front, if_neg (by decide),
        if_pos rfl, found]
      rfl

end Treewalk.Json

import Treewalk.Table
import Treewalk.Proofs.Json.Read

/-! Members of a JSON object. The scan for a key passes over everything else in the text of the
object: other keys, their values whatever they hold, and blanks. -/
namespace Treewalk.Json

open Text (ascii)
open Wire (quote unescape skipBlank readValue findKey StringBody Brackets Balanced delimiters)

section FindKey

variable {key : Text} {level : Int} {descend closed : Bool}

theorem findKey_octet {b : UInt8} (free : b ∉ ascii ':' :: delimiters) (rest : Text) :
    findKey key level descend closed (b :: rest) = findKey key level descend closed rest := by
  simp only [delimiters, List.mem_cons, List.not_mem_nil, or_false, not_or] at free
  rw [findKey]
  simp [free]

theorem findKey_octets {t : Text} (free : ∀ b ∈ t, b ∉ ascii ':' :: delimiters) (rest : Text) :
    findKey key level descend closed (t ++ rest) = findKey key level descend closed rest := by
  induction t with
  | nil => rfl
  | cons b t ih =>
    rw [List.forall_mem_cons] at free
    rw [List.cons_append, findKey_octet free.1, ih free.2]

theorem findKey_blank {w : Text} (blank : Blank w) (rest : Text) :
    findKey key level descend closed (w ++ rest) = findKey key level descend closed rest := by
  refine findKey_octets (fun b listed => ?_) rest
  obtain rfl | rfl | rfl | rfl := blank b listed <;> decide

theorem findKey_quoted {s : Text} (body : StringBody s) {rest next : Text} {c : UInt8}
    (front : skipBlank rest = c :: next) :
    findKey key level descend closed (quote :: s ++ quote :: rest)
      = if c = ascii ':' then
          if level ≠ 1 then none
          else
            match unescape s with
            | none => none
            | some name =>
              if name ≠ key then findKey key level false closed next
              else if closed then findKey key level true closed next
              else some next
        else findKey key level descend closed (c :: next) := by
  rw [List.cons_append, findKey, if_pos rfl]
  split
  · next other =>
    rw [Wire.splitString_body body] at other
    cases other
  · next other =>
    rw [Wire.splitString_body body] at other
    cases other
    split
    · next empty =>
      rw [front] at empty
      cases empty
    · next same =>
      rw [front] at same
      cases same
      rfl

theorem findKey_name {s name : Text} (body : StringBody s) (read : unescape s = some name)
    {rest next : Text} (front : skipBlank rest = ascii ':' :: next) :
    findKey key 1 descend false (quote :: s ++ quote :: rest)
      = if name = key then some next else findKey key 1 false false next := by
  rw [findKey_quoted body front, if_pos rfl, if_neg (by decide), read]
  dsimp only
  by_cases same : name = key
  · rw [if_neg (not_not_intro same), if_neg Bool.false_ne_true, if_pos same]
  · rw [if_pos same, if_neg same]

theorem findKey_array {inner : Text} (balanced : Balanced inner) (rest : Text) :
    findKey key level descend closed (ascii '[' :: inner ++ ascii ']' :: rest)
      = findKey key level descend closed rest := by
  have block := Wire.block?_enclosed .square balanced rest
  rw [List.cons_append] at block ⊢
  rw [findKey, if_neg (by decide), if_neg (by decide), if_neg (by decide), if_pos rfl]
  split
  · next other =>
    rw [block] at other
    cases other
  · next other =>
    rw [block] at other
    cases other
    rfl

theorem findKey_object {inner : Text} (balanced : Balanced inner) (rest : Text) :
    findKey key level false closed (ascii '\x7b' :: inner ++ ascii '\x7d' :: rest)
      = findKey key level false closed rest := by
  have block := Wire.block?_enclosed .curly balanced rest
  rw [List.cons_append] at block ⊢
  rw [findKey, if_neg (by decide), if_pos rfl, if_neg Bool.false_ne_true]
  split
  · next other =>
    rw [block] at other
    cases other
  · next other =>
    rw [block] at other
    cases other
    rfl

theorem findKey_token {t : Text} (token : Token t) (rest : Text) :
    findKey key level descend closed (t ++ rest) = findKey key level descend closed rest := by
  have free : ascii ':' :: delimiters ⊆ separators := by decide
  exact findKey_octets (fun b listed special => token.free b listed (free special)) rest

theorem findKey_value {j : Json} {t : Text} (written : Written (.value j) t) {w : Text}
    (blank : Blank w) {c : UInt8} (visible : Wire.isBlank c = false) (other : c ≠ ascii ':')
    (next : Text) :
    findKey key level false closed (t ++ (w ++ c :: next))
      = findKey key level false closed (c :: next) := by
  have front : skipBlank (w ++ c :: next) = c :: next := by
    rw [skipBlank_append blank, skipBlank_cons visible]
  rw [← findKey_blank blank (c :: next)]
  cases written with
  | null => exact findKey_token token_null _
  | bool b => exact findKey_token (token_truth b) _
  | number q => exact findKey_token (token_number q) _
  | @string s t body =>
    rw [List.append_assoc]
    exact (findKey_quoted body.body front).trans
      ((if_neg other).trans (findKey_blank blank _).symm)
  | emptyArray blank =>
    rw [List.append_assoc]
    exact findKey_array blank.balanced _
  | array inner =>
    rw [List.append_assoc]
    exact findKey_array inner.balanced _
  | emptyObject blank =>
    rw [List.append_assoc]
    exact findKey_object blank.balanced _
  | object inner =>
    rw [List.append_assoc]
    exact findKey_object inner.balanced _

end FindKey

def Starts (after : Text) (j : Json) : Prop :=
  ∃ t rest, Written (.element j) t ∧ Delimited rest ∧ after = t ++ rest

section Members

variable {key name : String} {j : Json} {t : Text} {descend : Bool}

theorem findKey_member (written : Written (.member name j) t) {c : UInt8}
    (ends : Wire.endsToken c = true) (visible : Wire.isBlank c = false) (next : Text) :
    ∃ after, Starts after j ∧ findKey key 1 descend false (t ++ c :: next)
      = if key = name then some after else findKey key 1 false false (c :: next) := by
  have other : c ≠ ascii ':' := by
    intro colon
    rw [colon] at ends
    cases ends
  cases written with
  | @member _ _ w s w' u before spelled between element =>
    refine ⟨u ++ c :: next, ⟨u, c :: next, element, .cons ends next, rfl⟩, ?_⟩
    have front :
        skipBlank (w' ++ ascii ':' :: (u ++ c :: next)) = ascii ':' :: (u ++ c :: next) := by
      rw [skipBlank_append between, skipBlank_cons (by decide)]
    have whole : w ++ (ascii '"' :: s ++ ascii '"' :: w') ++ ascii ':' :: u ++ c :: next
        = w ++ (quote :: s ++ quote :: (w' ++ ascii ':' :: (u ++ c :: next))) := by
      simp [quote]
    rw [whole, findKey_blank before, findKey_name spelled.body (unescape_string spelled) front]
    simp only [Text.ofString_inj, @eq_comm _ name key]
    congr 1
    cases element with
    | element before value after =>
      rw [List.append_assoc, List.append_assoc, findKey_blank before,
        findKey_value value after visible other]

theorem findKey_close : findKey (Text.ofString key) 1 descend false [ascii '\x7d'] = none := by
  rw [findKey, if_neg (by decide), if_neg (by decide), if_pos rfl, findKey]

/-- The scan finds the first member of the name, or ends with the object. -/
theorem findKey_members {members : List (String × Json)} (written : Written (.members members) t) :
    Option.Rel Starts (findKey (Text.ofString key) 1 descend false (t ++ [ascii '\x7d']))
      (members.lookup key) := by
  induction members generalizing t descend with
  | nil => cases written
  | cons m members ih =>
    cases written with
    | @lastMember name j t member =>
      have ends : Wire.endsToken (ascii '\x7d') = true := by decide
      obtain ⟨after, starts, found⟩ := findKey_member member ends (by decide) []
      rw [found, Table.lookup_cons_eq_ite]
      split
      · exact .some starts
      · rw [findKey_close]
        exact .none
    | @nextMember name j _ t u member more =>
      have ends : Wire.endsToken (ascii ',') = true := by decide
      obtain ⟨after, starts, found⟩ :=
        findKey_member member ends (by decide) (u ++ [ascii '\x7d'])
      rw [List.append_assoc, List.cons_append, found, Table.lookup_cons_eq_ite]
      split
      · exact .some starts
      · rw [findKey_octet (by decide)]
        exact ih more

theorem findKey_written {members : List (String × Json)}
    (written : Written (.value (.object members)) t) (key : String) :
    Option.Rel Starts (findKey (Text.ofString key) 0 true false t) (members.lookup key) := by
  have enter (rest : Text) : findKey (Text.ofString key) 0 true false (ascii '\x7b' :: rest)
      = findKey (Text.ofString key) 1 true false rest := by
    rw [findKey, if_neg (by decide), if_pos rfl, if_pos rfl]
    rfl
  cases written with
  | emptyObject blank =>
    rw [List.cons_append, enter, findKey_blank blank, findKey_close]
    exact .none
  | object inner =>
    rw [List.cons_append, enter]
    exact findKey_members inner

theorem findKey_absent {members : List (String × Json)}
    (written : Written (.value (.object members)) t) (absent : members.lookup key = none) :
    findKey (Text.ofString key) 0 true false t = none := by
  have scanned := findKey_written written key
  rw [absent] at scanned
  generalize findKey (Text.ofString key) 0 true false t = found at scanned ⊢
  cases scanned
  rfl

theorem findKey_present {members : List (String × Json)}
    (written : Written (.value (.object members)) t) (present : members.lookup key = some j) :
    ∃ after, findKey (Text.ofString key) 0 true false t = some after ∧ Starts after j := by
  have scanned := findKey_written written key
  rw [present] at scanned
  generalize findKey (Text.ofString key) 0 true false t = found at scanned ⊢
  cases scanned with
  | some starts => exact ⟨_, rfl, starts⟩

theorem value_front (written : Written (.value j) t) :
    ∃ c tail, t = c :: tail ∧ Wire.isBlank c = false ∧ c ≠ ascii ']' ∧
      (c = ascii '[' → ∃ items, j = .array items) := by
  have front {t : Text} (token : Token t) : ∃ c tail, t = c :: tail ∧ Wire.isBlank c = false ∧
      c ≠ ascii ']' ∧ (c = ascii '[' → ∃ items, j = .array items) := by
    cases first : t with
    | nil => exact absurd first token.nonempty
    | cons c tail =>
      have free := token.free c (by simp [first])
      simp only [separators, delimiters, List.cons_append, List.nil_append, List.mem_cons,
        not_or] at free
      exact ⟨c, tail, rfl, by simp [Wire.isBlank, free], free.2.2.1,
        fun opening => absurd opening free.2.1⟩
  cases written with
  | null => exact front token_null
  | bool b => exact front (token_truth b)
  | number q => exact front (token_number q)
  | emptyArray | array => exact ⟨_, _, rfl, by decide, by decide, fun _ => ⟨_, rfl⟩⟩
  | string | emptyObject | object =>
    exact ⟨_, _, rfl, by decide, by decide, fun opening => absurd opening (by decide)⟩

theorem elements_front {items : List Json} (written : Written (.elements items) t) :
    ∃ c tail, c ≠ ascii ']' ∧ ∀ rest, skipBlank (t ++ rest) = c :: (tail ++ rest) := by
  have front {j : Json} {t : Text} (written : Written (.element j) t) :
      ∃ c tail, c ≠ ascii ']' ∧ ∀ rest, skipBlank (t ++ rest) = c :: (tail ++ rest) := by
    cases written with
    | @element _ w _ w' before value _ =>
      obtain ⟨c, tail, rfl, visible, other, -⟩ := value_front value
      refine ⟨c, tail ++ w', other, fun rest => ?_⟩
      rw [List.append_assoc, List.append_assoc, skipBlank_append before, List.cons_append,
        skipBlank_cons visible, List.append_assoc]
  cases written with
  | lastElement element => exact front element
  | @nextElement _ _ t u element _ =>
    obtain ⟨c, tail, other, first⟩ := front element
    refine ⟨c, tail ++ ascii ',' :: u, other, fun rest => ?_⟩
    rw [List.append_assoc, first, List.append_assoc]

theorem map_val_member (key data : Text) :
    (Wire.member key data).map Subtype.val =
      match findKey key 0 true false data with
      | none => .error .keyNotFound
      | some after => (readValue after).map Prod.fst := by
  unfold Wire.member
  split
  · next absent =>
    rw [absent]
    rfl
  · next found =>
    split <;> next read =>
      simp only [found, read]
      rfl

theorem map_val_arrayMember (key data : Text) :
    (Wire.arrayMember key data).map (List.map Subtype.val) =
      match findKey key 0 true false data with
      | none => .error .keyNotFound
      | some after =>
        match skipBlank after with
        | [] => .error .noValue
        | b :: rest =>
          if b = ascii '[' then
            match skipBlank rest with
            | [] => .error .noValue
            | c :: _ => if c = ascii ']' then .ok [] else Wire.elements rest
          else .error .unclosedArray := by
  unfold Wire.arrayMember
  split
  · next absent =>
    rw [absent]
    rfl
  next after found =>
  split
  · next empty =>
    simp only [found, empty]
    rfl
  next b rest front =>
  simp only [found, front]
  by_cases array : b = ascii '['
  · rw [if_pos array, if_pos array]
    cases skipBlank rest with
    | nil => rfl
    | cons c tail =>
      dsimp only
      by_cases closed : c = ascii ']'
      · rw [if_pos closed, if_pos closed]
        rfl
      · rw [if_neg closed, if_neg closed]
        split <;> next read => simp [read, Except.map]
  · rw [if_neg array, if_neg array]
    rfl

theorem eq_error_of_map {α β ε : Type} {f : α → β} {x : Except ε α} {e : ε}
    (mapped : x.map f = .error e) : x = .error e := by
  cases x with
  | error e => exact congrArg Except.error (Except.error.inj mapped)
  | ok a => cases mapped

theorem exists_of_map {α β ε : Type} {f : α → β} {x : Except ε α} {b : β}
    (mapped : x.map f = .ok b) : ∃ a, x = .ok a ∧ f a = b := by
  cases x with
  | error e => cases mapped
  | ok a => exact ⟨a, rfl, Except.ok.inj mapped⟩

section Object

variable {members : List (String × Json)} (written : Written (.value (.object members)) t)
include written

theorem member_absent (absent : members.lookup key = none) :
    Wire.member (Text.ofString key) t = .error .keyNotFound := by
  apply eq_error_of_map
  rw [map_val_member, findKey_absent written absent]

theorem member_present (present : members.lookup key = some j) :
    ∃ v, Wire.member (Text.ofString key) t = .ok v ∧ Slice j v.val := by
  obtain ⟨after, found, u, rest, element, delimited, rfl⟩ := findKey_present written present
  obtain ⟨v, w, slice, -, read⟩ := readValue_element element delimited
  have mapped : (Wire.member (Text.ofString key) t).map Subtype.val = .ok v := by
    rw [map_val_member, found]
    dsimp only
    rw [read]
    rfl
  obtain ⟨inner, equal, rfl⟩ := exists_of_map mapped
  exact ⟨inner, equal, slice⟩

theorem arrayMember_absent (absent : members.lookup key = none) :
    Wire.arrayMember (Text.ofString key) t = .error .keyNotFound := by
  apply eq_error_of_map
  rw [map_val_arrayMember, findKey_absent written absent]

theorem arrayMember_other (present : members.lookup key = some j)
    (other : ∀ items, j ≠ .array items) :
    Wire.arrayMember (Text.ofString key) t = .error .unclosedArray := by
  obtain ⟨after, found, u, rest, element, -, rfl⟩ := findKey_present written present
  cases element with
  | @element _ w u w' before value behind =>
    obtain ⟨c, tail, rfl, visible, -, array⟩ := value_front value
    have front : skipBlank (w ++ c :: tail ++ w' ++ rest) = c :: (tail ++ w' ++ rest) := by
      simp [skipBlank_append before, skipBlank_cons visible]
    have closed : c ≠ ascii '[' := by
      intro opening
      obtain ⟨items, same⟩ := array opening
      exact other items same
    apply eq_error_of_map
    rw [map_val_arrayMember, found]
    dsimp only
    rw [front]
    exact if_neg closed

theorem arrayMember_array {items : List Json} (present : members.lookup key = some (.array items)) :
    ∃ vs, Wire.arrayMember (Text.ofString key) t = .ok vs ∧
      List.Forall₂ (fun j v => Slice j v.val) items vs := by
  obtain ⟨after, found, u, rest, element, -, rfl⟩ := findKey_present written present
  suffices mapped : ∃ vs, List.Forall₂ Slice items vs ∧
      (Wire.arrayMember (Text.ofString key) t).map (List.map Subtype.val) = .ok vs by
    obtain ⟨vs, slices, equal⟩ := mapped
    obtain ⟨inner, result, rfl⟩ := exists_of_map equal
    exact ⟨inner, result, List.forall₂_map_right_iff.mp slices⟩
  rw [map_val_arrayMember, found]
  dsimp only
  cases element with
  | @element _ w _ w' before value behind =>
    have front (inner : Text) : skipBlank (w ++ (ascii '[' :: inner ++ [ascii ']']) ++ w' ++ rest)
        = ascii '[' :: (inner ++ ascii ']' :: (w' ++ rest)) := by
      simp [skipBlank_append before, skipBlank_cons (by decide : Wire.isBlank (ascii '[') = false)]
    cases value with
    | emptyArray blank =>
      refine ⟨[], .nil, ?_⟩
      rw [front]
      dsimp only
      rw [if_pos rfl, skipBlank_append blank, skipBlank_cons (by decide)]
      exact if_pos rfl
    | array elements =>
      obtain ⟨c, tail, other, second⟩ := elements_front elements
      obtain ⟨vs, slices, read⟩ := elements_written elements (w' ++ rest)
      refine ⟨vs, slices, ?_⟩
      rw [front]
      dsimp only
      rw [if_pos rfl, second]
      exact (if_neg other).trans read

end Object
end Members
end Treewalk.Json

import Mathlib.Data.List.Infix
import Treewalk.Wire.Member

/-! Where the values lie that are read from a text. Nothing is ever copied together: a value, its
members and its elements are slices of the text, whatever the text holds. -/
namespace Treewalk.Wire

open Text (ascii)

theorem slices_of_splitString {t content after : Text}
    (split : splitString t = some (content, after)) : content <:+: t ∧ after <:+ t := by
  obtain rfl := append_of_splitString split
  exact ⟨⟨[], quote :: after, by simp⟩, ⟨content ++ [quote], by simp⟩⟩

theorem slices_of_block? {opening closing : UInt8} {t block after : Text}
    (split : block? opening closing t = some (block, after)) : block <:+: t ∧ after <:+ t := by
  obtain ⟨rfl, -⟩ := append_of_splitBlock split
  exact ⟨⟨[], after, by simp⟩, ⟨block, rfl⟩⟩

theorem skipBlank_suffix (t : Text) : skipBlank t <:+ t := List.dropWhile_suffix _

theorem slices_of_readToken {t after : Text} {v : Value} (read : readToken t = .ok (v, after)) :
    v.raw <:+: t ∧ after <:+ t := by
  unfold readToken at read
  split at read
  · cases read
    exact ⟨(List.takeWhile_prefix _).isInfix, List.dropWhile_suffix _⟩
  · cases read

theorem slices_of_readValue {t after : Text} {v : Value} (read : readValue t = .ok (v, after)) :
    v.raw <:+: t ∧ after <:+ t := by
  have blanks := skipBlank_suffix t
  unfold readValue at read
  split at read
  · cases read
  · next b rest front =>
    rw [front] at blanks
    have widen {u w : Text} (slices : u <:+: b :: rest ∧ w <:+ b :: rest) : u <:+: t ∧ w <:+ t :=
      ⟨slices.1.trans blanks.isInfix, slices.2.trans blanks⟩
    have tail := List.suffix_cons b rest
    split at read
    · split at read
      · next split =>
        cases read
        obtain ⟨content, after⟩ := slices_of_splitString split
        exact widen ⟨content.trans tail.isInfix, after.trans tail⟩
      · cases read
    split at read
    · split at read
      · next split =>
        cases read
        exact widen (slices_of_block? split)
      · cases read
    split at read
    · split at read
      · next split =>
        cases read
        exact widen (slices_of_block? split)
      · cases read
    · exact widen (slices_of_readToken read)

theorem suffix_of_findKey {key t after : Text} {level : Int} {descend closed : Bool}
    (found : findKey key level descend closed t = some after) : after <:+ t := by
  fun_induction findKey key level descend closed t
  all_goals grind [→ slices_of_block?, → slices_of_splitString, skipBlank_suffix,
    List.IsSuffix.trans, List.suffix_cons]

theorem infix_of_elements {t : Text} {vs : List Value} (read : elements t = .ok vs) :
    ∀ v ∈ vs, v.raw <:+: t := by
  fun_induction elements t generalizing vs with
  | case4 t v after value rest front _ ih =>
    have blanks := skipBlank_suffix after
    rw [front] at blanks
    obtain ⟨slice, behind⟩ := slices_of_readValue value
    have tail : rest <:+: t :=
      (((List.suffix_cons _ rest).trans blanks).trans behind).isInfix
    cases inner : elements rest with
    | error e => simp [inner, Except.map] at read
    | ok items =>
      simp only [inner, Except.map, Except.ok.injEq] at read
      subst read
      exact List.forall_mem_cons.mpr ⟨slice, fun w listed => (ih inner w listed).trans tail⟩
  | _ => grind [→ slices_of_readValue]

/-! Members -/

variable {key data : Text}

theorem infix_of_member {v : Inner data} (read : member key data = .ok v) :
    v.val.raw <:+: data := by
  unfold member at read
  split at read
  · cases read
  · next found =>
    split at read
    · next value =>
      cases read
      exact (slices_of_readValue value).1.trans (suffix_of_findKey found).isInfix
    · cases read

theorem infix_of_arrayMember {vs : List (Inner data)} (read : arrayMember key data = .ok vs) :
    ∀ v ∈ vs, v.val.raw <:+: data := by
  unfold arrayMember at read
  split at read
  · cases read
  · next after found =>
    split at read
    · cases read
    · next b rest front =>
      have blanks := skipBlank_suffix after
      rw [front] at blanks
      have tail : rest <:+: data :=
        (((List.suffix_cons b rest).trans blanks).trans (suffix_of_findKey found)).isInfix
      split at read
      · split at read
        · cases read
        · split at read
          · cases read
            simp
          · split at read
            · cases read
            · next items listed =>
              cases read
              intro v inside
              obtain ⟨⟨w, member⟩, -, rfl⟩ := List.mem_map.mp inside
              exact (infix_of_elements listed w member).trans tail
      · cases read

/-! A key that was found is never taken for one that is absent. -/

theorem readValue_ne_keyNotFound (t : Text) : readValue t ≠ .error .keyNotFound := by
  unfold readValue readToken
  repeat' split
  all_goals simp

theorem elements_ne_keyNotFound (t : Text) : elements t ≠ .error .keyNotFound := by
  fun_induction elements t with
  | case1 t e failed =>
    intro absent
    cases absent
    exact readValue_ne_keyNotFound t failed
  | case4 t v after _ rest _ _ ih =>
    intro absent
    cases inner : elements rest with
    | error e =>
      simp only [inner, Except.map, Except.error.injEq] at absent
      exact ih (absent ▸ inner)
    | ok items => simp [inner, Except.map] at absent
  | _ => simp

theorem arrayMember_ne_keyNotFound {after : Text}
    (found : findKey key 0 true false data = some after) :
    arrayMember key data ≠ .error .keyNotFound := by
  unfold arrayMember
  split
  · next absent => simp [absent] at found
  · repeat' split
    all_goals simp
    next failed =>
      rintro rfl
      exact elements_ne_keyNotFound _ failed

end Treewalk.Wire

import Mathlib.Data.List.Nodup
import Treewalk.Proofs.Json.Decode

/-! The fields of an object, as they are looked up among its members. If the names of the members
are distinct, their order does not matter. -/
namespace Treewalk.Json

theorem integersFit_congr {members values : List (String × Json)}
    (look : ∀ name, members.lookup name = values.lookup name)
    (fits : (object values).IntegersFit) : (object members).IntegersFit := by
  intro inner i node kind value
  cases node with
  | self =>
    rw [look] at kind value
    exact fits values i .self kind value
  | field found node => exact fits inner i (.field (look _ ▸ found) node) kind value
  | argument found listed node =>
    exact fits inner i (.argument (look _ ▸ found) listed node) kind value

theorem lookup_of_mem {members : List (String × Json)} (distinct : (members.map (·.1)).Nodup)
    {name : String} {j : Json} (listed : (name, j) ∈ members) : members.lookup name = some j := by
  obtain ⟨before, after, rfl⟩ := List.append_of_mem listed
  refine List.lookup_eq_some_iff.mpr ⟨before, after, rfl, fun m earlier => ?_⟩
  rw [List.map_append, List.map_cons] at distinct
  have apart := (List.nodup_append.mp distinct).2.2 _ (List.mem_map_of_mem earlier) name (by simp)
  simpa using apart.symm

theorem lookup_perm {members values : List (String × Json)} (perm : members.Perm values)
    (distinct : (values.map (·.1)).Nodup) (name : String) :
    members.lookup name = values.lookup name := by
  have apart : (members.map (·.1)).Nodup := (perm.map _).nodup_iff.mpr distinct
  ext j
  constructor
  · intro found
    exact lookup_of_mem distinct (perm.mem_iff.mp (mem_of_lookup found))
  · intro found
    exact lookup_of_mem apart (perm.mem_iff.mpr (mem_of_lookup found))

theorem child_eq_some {members inner : List (String × Json)} {name : String}
    (found : members.lookup name = some (.object inner)) :
    child members name = some ⟨.object inner, sizeOf_lt_of_lookup found⟩ := by
  unfold child
  split
  · next absent => simp [found] at absent
  · next null => simp [found] at null
  · next j _ present =>
    rw [found] at present
    cases present
    rfl

theorem child_eq_none {members : List (String × Json)} {name : String}
    (absent : members.lookup name = none ∨ members.lookup name = some .null) :
    child members name = none := by
  unfold child
  split
  · rfl
  · rfl
  · next j visible present =>
    rw [present] at absent
    obtain nothing | null := absent
    · cases nothing
    · cases null
      exact absurd rfl visible

theorem mapM_eq_some {α β : Type} {f : α → Option β} {xs : List α} {ys : List β}
    (each : List.Forall₂ (fun x y => f x = some y) xs ys) : xs.mapM f = some ys := by
  induction each with
  | nil => rfl
  | cons first _ ih =>
    rw [List.mapM_cons, first, ih]
    rfl

theorem arguments_present {members : List (String × Json)} {items : List Json}
    (found : members.lookup "args" = some (.array items)) :
    ∃ parts, arguments members = some parts ∧ parts.unattach = items := by
  unfold arguments
  split
  · next absent =>
    rw [found] at absent
    cases absent
  · next list present =>
    rw [found] at present
    cases present
    refine ⟨_, rfl, ?_⟩
    rw [List.unattach, List.map_map]
    exact List.attach_map_subtype_val items
  · next other present =>
    rw [found] at present
    cases present
    exact absurd rfl (other items)

theorem arguments_absent {members : List (String × Json)}
    (absent : members.lookup "args" = none) : arguments members = some [] := by
  unfold arguments
  split
  · rfl
  · next present =>
    rw [absent] at present
    cases present
  · next present =>
    rw [absent] at present
    cases present

theorem parameters_eq {members : List (String × Json)} {names : List String}
    (found : members.lookup "params" = some (.array (names.map .string))) :
    parameters members = some (names.map Text.ofString) := by
  rw [parameters, found]
  refine mapM_eq_some (List.forall₂_map_left_iff.mpr (List.forall₂_map_right_iff.mpr ?_))
  exact List.forall₂_same.mpr fun name _ => rfl

end Treewalk.Json

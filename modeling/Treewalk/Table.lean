/-! Tables: association lists that are looked up by key. Setting a key that is there already
keeps its place, and a new key goes to the end. -/
namespace Treewalk

abbrev Table (κ ν : Type) := List (κ × ν)

namespace Table

variable {κ ν : Type} [DecidableEq κ]

def set (key : κ) (value : ν) : Table κ ν → Table κ ν
  | [] => [(key, value)]
  | (k, v) :: rest => if k = key then (key, value) :: rest else (k, v) :: set key value rest

theorem lookup_cons_eq_ite [BEq κ] [LawfulBEq κ] (key other : κ) (value : ν) (t : Table κ ν) :
    List.lookup other ((key, value) :: t) = if other = key then some value else t.lookup other := by
  by_cases same : other = key
  · simp [same]
  · simp [List.lookup_cons, beq_false_of_ne same, same]

theorem lookup_set [BEq κ] [LawfulBEq κ] (key other : κ) (value : ν) (t : Table κ ν) :
    (set key value t).lookup other = if other = key then some value else t.lookup other := by
  induction t with
  | nil => exact lookup_cons_eq_ite key other value []
  | cons entry rest ih =>
    obtain ⟨k, v⟩ := entry
    by_cases here : k = key
    · simp only [set, here, ↓reduceIte, lookup_cons_eq_ite]
      split <;> rfl
    · simp only [set, here, ↓reduceIte, lookup_cons_eq_ite, ih]
      by_cases same : other = key
      · have apart : ¬key = k := fun equal => here equal.symm
        simp [same, apart]
      · simp [same]

end Table
end Treewalk

import Mathlib.Data.List.Basic
import Mathlib.Logic.Relation
import Treewalk.ErrorKind

/-! The leaves of an error tree decide its kind, which is the earliest one among them. How they are
wrapped and joined does not matter: the changes that keep the set of leaves are those made up of
wrapping errors and of permuting, grouping and repeating the members of joins, at any place. -/
namespace Treewalk

namespace ErrorKind

/-- The place of the kind in the order in which a classification looks for kinds. -/
def rank (k : ErrorKind) : Nat := all.idxOf k

variable {p : ErrorKind → Bool} {k k' : ErrorKind}

theorem rank_inj : k.rank = k'.rank ↔ k = k' := List.idxOf_inj k.mem_all

theorem rank_le_of_find? (found : all.find? p = some k) (holds : p k' = true) :
    k.rank ≤ k'.rank := by
  obtain ⟨first, before, after, order, missed⟩ := List.find?_eq_some_iff_append.mp found
  -- what holds is not listed before the kind that was found, so its place is counted from there
  have later {j : ErrorKind} (met : p j = true) :
      j.rank = (k :: after).idxOf j + before.length := by
    have absent : j ∉ before := fun listed => by simpa [met] using missed j listed
    rw [rank, order, List.idxOf_append_of_notMem absent, Nat.add_comm]
  rw [later first, later holds, List.idxOf_cons_self]
  omega

theorem find?_all_eq_some_iff :
    all.find? p = some k ↔ p k = true ∧ ∀ k', p k' = true → k.rank ≤ k'.rank := by
  constructor
  · intro found
    exact ⟨List.find?_some found, fun k' => rank_le_of_find? found⟩
  · rintro ⟨holds, least⟩
    cases found : all.find? p with
    | none => exact absurd holds (List.find?_eq_none.mp found k k.mem_all)
    | some k' =>
      have le := rank_le_of_find? found holds
      have ge := least k' (List.find?_some found)
      rw [rank_inj.mp (Nat.le_antisymm le ge)]

theorem ofLabel?_labelOf (kind : Option ErrorKind) : ofLabel? (labelOf kind) = kind := by
  cases kind with
  | none => decide
  | some k => cases k <;> decide

theorem labelOf_inj {kind kind' : Option ErrorKind} : labelOf kind = labelOf kind' ↔ kind = kind' :=
  (Function.LeftInverse.injective ofLabel?_labelOf).eq_iff

end ErrorKind

namespace Cause

@[elab_as_elim]
theorem induction {motive : Cause → Prop} (kind : ∀ k, motive (.kind k))
    (other : ∀ note, motive (.other note))
    (wrap : ∀ note cause, motive cause → motive (.wrap note cause))
    (join : ∀ causes, (∀ c ∈ causes, motive c) → motive (.join causes)) (c : Cause) : motive c :=
  @Cause.rec motive (fun causes => ∀ c ∈ causes, motive c) kind other wrap join
    (List.forall_mem_nil _) (fun _ _ first rest => List.forall_mem_cons.mpr ⟨first, rest⟩) c

mutual

/-- The errors in a tree that wrap no others, from left to right. -/
def leaves : Cause → List Cause
  | .kind k => [.kind k]
  | .other note => [.other note]
  | .wrap _ cause => cause.leaves
  | .join causes => leavesOfAll causes

def leavesOfAll : List Cause → List Cause
  | [] => []
  | c :: rest => c.leaves ++ leavesOfAll rest

end

variable {a c c' : Cause} {k : ErrorKind} {causes causes' : List Cause}

theorem mem_leavesOfAll : a ∈ leavesOfAll causes ↔ ∃ c ∈ causes, a ∈ c.leaves := by
  induction causes with
  | nil => simp [leavesOfAll]
  | cons c rest ih => simp [leavesOfAll, ih]

theorem mem_leaves_wrap {note : Text} : a ∈ (wrap note c).leaves ↔ a ∈ c.leaves := by
  rw [leaves]

theorem mem_leaves_join : a ∈ (join causes).leaves ↔ ∃ c ∈ causes, a ∈ c.leaves := by
  rw [leaves, mem_leavesOfAll]

theorem wraps_iff_mem_leaves : c.wraps k = true ↔ kind k ∈ c.leaves := by
  induction c using Cause.induction with
  | kind k' => simp [wraps, leaves, eq_comm]
  | other note => simp [wraps, leaves]
  | wrap note c ih => rw [wraps, ih, mem_leaves_wrap]
  | join causes ih =>
    rw [wraps, anyWraps_eq_any, List.any_eq_true, mem_leaves_join]
    exact exists_congr fun c => and_congr_right fun listed => ih c listed

theorem kind?_eq_some_iff :
    c.kind? = some k ↔ kind k ∈ c.leaves ∧ ∀ k', kind k' ∈ c.leaves → k.rank ≤ k'.rank := by
  simp only [kind?, ErrorKind.find?_all_eq_some_iff, wraps_iff_mem_leaves]

theorem kind?_eq_none_iff : c.kind? = none ↔ ∀ k, kind k ∉ c.leaves := by
  simp only [kind?, List.find?_eq_none, wraps_iff_mem_leaves, ErrorKind.mem_all, forall_const]

theorem kind?_congr (same : ∀ a, a ∈ c.leaves ↔ a ∈ c'.leaves) : c.kind? = c'.kind? := by
  have wraps_eq (k : ErrorKind) : c.wraps k = c'.wraps k := by
    rw [Bool.eq_iff_iff, wraps_iff_mem_leaves, wraps_iff_mem_leaves, same]
  simp only [kind?, wraps_eq]

/-- One change to the form of an error tree, at any place in it. Neighbours in a join may be made a
group of their own, and an error a group by itself. -/
inductive Rearranges : Cause → Cause → Prop where
  | wrap (note : Text) (c : Cause) : Rearranges c (.wrap note c)
  | permute {causes causes' : List Cause} : causes.Perm causes' →
    Rearranges (.join causes) (.join causes')
  | group (before inner after : List Cause) :
    Rearranges (.join (before ++ inner ++ after)) (.join (before ++ .join inner :: after))
  | alone (c : Cause) : Rearranges c (.join [c])
  | duplicate {c : Cause} {causes : List Cause} : c ∈ causes →
    Rearranges (.join causes) (.join (c :: causes))
  | insideWrap {c c' : Cause} (note : Text) : Rearranges c c' →
    Rearranges (.wrap note c) (.wrap note c')
  | insideJoin {c c' : Cause} (before after : List Cause) : Rearranges c c' →
    Rearranges (.join (before ++ c :: after)) (.join (before ++ c' :: after))

/-- Any number of changes, each made or undone. -/
def Rearranged : Cause → Cause → Prop := Relation.EqvGen Rearranges

theorem Rearranges.mem_leaves_iff (step : Rearranges c c') : a ∈ c.leaves ↔ a ∈ c'.leaves := by
  induction step with
  | wrap note c => rw [mem_leaves_wrap]
  | permute perm => simp only [mem_leaves_join, perm.mem_iff]
  | group before inner after =>
    simp only [mem_leaves_join, List.mem_append, List.mem_cons, or_and_right, exists_or,
      exists_eq_left, or_assoc]
  | alone c => simp only [mem_leaves_join, List.mem_singleton, exists_eq_left]
  | @duplicate c causes listed =>
    simp only [mem_leaves_join, List.mem_cons, or_and_right, exists_or, exists_eq_left]
    exact ⟨.inr, fun either => either.elim (fun leaf => ⟨c, listed, leaf⟩) id⟩
  | insideWrap note _ ih => rw [mem_leaves_wrap, mem_leaves_wrap, ih]
  | insideJoin before after _ ih =>
    simp only [mem_leaves_join, List.mem_append, List.mem_cons, or_and_right, exists_or,
      exists_eq_left, ih]

namespace Rearranged

theorem mem_leaves_iff (rearranged : Rearranged c c') : a ∈ c.leaves ↔ a ∈ c'.leaves := by
  induction rearranged with
  | rel c c' step => exact step.mem_leaves_iff
  | refl c => rfl
  | symm c c' _ ih => exact ih.symm
  | trans c₁ c₂ c₃ _ _ ih₁ ih₂ => exact ih₁.trans ih₂

theorem step (step : Rearranges c c') : Rearranged c c' := .rel _ _ step

theorem undo (step : Rearranges c c') : Rearranged c' c := .symm _ _ (.rel _ _ step)

theorem symm (rearranged : Rearranged c c') : Rearranged c' c :=
  Relation.EqvGen.symm _ _ rearranged

instance : Trans Rearranged Rearranged Rearranged := ⟨Relation.EqvGen.trans _ _ _⟩

theorem insideJoin (before after : List Cause) (rearranged : Rearranged c c') :
    Rearranged (.join (before ++ c :: after)) (.join (before ++ c' :: after)) := by
  induction rearranged with
  | rel c c' change => exact step (.insideJoin before after change)
  | refl c => exact .refl _
  | symm c c' _ ih => exact ih.symm
  | trans c₁ c₂ c₃ _ _ ih₁ ih₂ => exact .trans _ _ _ ih₁ ih₂

theorem flatten (before : List Cause) (flat : ∀ c ∈ causes, Rearranged c (.join c.leaves)) :
    Rearranged (.join (before ++ causes)) (.join (before ++ leavesOfAll causes)) := by
  induction causes generalizing before with
  | nil => exact .refl _
  | cons c rest ih =>
    obtain ⟨first, others⟩ := List.forall_mem_cons.mp flat
    -- the leaves of the first member then stand among the members that are done
    calc
      Rearranged (.join (before ++ c :: rest)) (.join (before ++ .join c.leaves :: rest)) :=
        first.insideJoin before rest
      Rearranged _ (.join (before ++ c.leaves ++ rest)) := undo (.group before c.leaves rest)
      Rearranged _ (.join (before ++ c.leaves ++ leavesOfAll rest)) := ih _ others
      _ = .join (before ++ leavesOfAll (c :: rest)) := by rw [leavesOfAll, List.append_assoc]

theorem join_leaves (c : Cause) : Rearranged c (.join c.leaves) := by
  induction c using Cause.induction with
  | kind k => exact step (.alone _)
  | other note => exact step (.alone _)
  | wrap note c ih => exact .trans _ _ _ (undo (.wrap note c)) ih
  | join causes ih => exact flatten [] ih

theorem absorb (subset : causes ⊆ causes') :
    Rearranged (.join (causes ++ causes')) (.join causes') := by
  induction causes with
  | nil => exact .refl _
  | cons c rest ih =>
    obtain ⟨listed, others⟩ := List.cons_subset.mp subset
    exact .trans _ _ _ (undo (.duplicate (List.mem_append_right rest listed))) (ih others)

theorem join_congr (same : ∀ c, c ∈ causes ↔ c ∈ causes') :
    Rearranged (.join causes) (.join causes') :=
  calc
    Rearranged (.join causes) (.join (causes' ++ causes)) := (absorb fun c => (same c).mpr).symm
    Rearranged _ (.join (causes ++ causes')) := step (.permute List.perm_append_comm)
    Rearranged _ (.join causes') := absorb fun c => (same c).mp

end Rearranged

theorem rearranged_iff : Rearranged c c' ↔ ∀ a, a ∈ c.leaves ↔ a ∈ c'.leaves := by
  constructor
  · intro rearranged a
    exact rearranged.mem_leaves_iff
  · intro same
    calc
      Rearranged c (.join c.leaves) := .join_leaves c
      Rearranged _ (.join c'.leaves) := .join_congr same
      Rearranged _ c' := (Rearranged.join_leaves c').symm

end Cause

open Cause in
/-- The label of an error is that of the earliest kind among its leaves, and `unknown` exactly if no
leaf has a kind. Two errors are rearrangements of each other exactly if they have the same leaves,
in whatever order and number, and then they have the same label. -/
theorem earliest_leaf_decides :
    (∀ (c : Cause) k, ErrorKind.labelOf c.kind? = k.label ↔
      kind k ∈ c.leaves ∧ ∀ k', kind k' ∈ c.leaves → k.rank ≤ k'.rank) ∧
    (∀ c : Cause, ErrorKind.labelOf c.kind? = Text.ofString "unknown" ↔
      ∀ k, kind k ∉ c.leaves) ∧
    (∀ c c', Rearranged c c' ↔ ∀ a, a ∈ c.leaves ↔ a ∈ c'.leaves) ∧
    ∀ c c', Rearranged c c' → ErrorKind.labelOf c.kind? = ErrorKind.labelOf c'.kind? := by
  refine ⟨?_, ?_, fun _ _ => rearranged_iff, ?_⟩
  · intro c k
    exact (@ErrorKind.labelOf_inj c.kind? (some k)).trans kind?_eq_some_iff
  · intro c
    exact (@ErrorKind.labelOf_inj c.kind? none).trans kind?_eq_none_iff
  · intro c c' rearranged
    rw [kind?_congr fun _ => rearranged.mem_leaves_iff]

def Cause.tangled : Cause :=
  .wrap "outer" (.join [.other "type mismatch", .kind .malformedTree,
    .wrap "inner" (.join [.kind .malformedTree, .wrap "inmost" (.kind .divisionByZero)])])

def Cause.untangled : Cause :=
  .join [.kind .divisionByZero, .wrap "late" (.kind .malformedTree), .other "type mismatch"]

theorem tangled_by_zero :
    Cause.Rearranged .tangled .untangled ∧
      ErrorKind.labelOf Cause.tangled.kind? = ErrorKind.labelOf Cause.untangled.kind? ∧
      ErrorKind.labelOf Cause.tangled.kind? = Text.ofString "division_by_zero" := by
  obtain ⟨labelled, -, sameLeaves, kept⟩ := earliest_leaf_decides
  have rearranged : Cause.Rearranged .tangled .untangled := by
    rw [sameLeaves]
    intro a
    simp only [Cause.tangled, Cause.untangled, Cause.leaves, Cause.leavesOfAll, List.mem_append,
      List.mem_cons, List.not_mem_nil, or_false]
    tauto
  refine ⟨rearranged, kept _ _ rearranged, (labelled _ .divisionByZero).mpr ?_⟩
  constructor
  · simp [Cause.tangled, Cause.leaves, Cause.leavesOfAll]
  · intro k' leaf
    have listed : k' = .malformedTree ∨ k' = .divisionByZero := by
      simpa [Cause.tangled, Cause.leaves, Cause.leavesOfAll] using leaf
    rcases listed with rfl | rfl <;> decide

end Treewalk

import Mathlib

/-! # Streams merged into one sequence

The values of several streams stand in one sequence, each with the tag of its stream. Where the
sequence keeps the order of every stream, whoever takes the next value of the tagged stream at
each entry gets the values of the entries.
-/

namespace Foundation

universe u v

variable {α : Type u} {Tag : Type v} [DecidableEq Tag]

/-- The values with one tag, in their order. -/
def part (tag : Tag) (merged : List (α × Tag)) : List α :=
  (merged.filter fun entry => entry.2 = tag).map Prod.fst

@[simp]
theorem part_nil (tag : Tag) : part tag ([] : List (α × Tag)) = [] := rfl

@[simp]
theorem part_append (tag : Tag) (first second : List (α × Tag)) :
    part tag (first ++ second) = part tag first ++ part tag second := by
  rw [part, List.filter_append, List.map_append]
  rfl

@[simp]
theorem part_cons_self (value : α) (tag : Tag) (rest : List (α × Tag)) :
    part tag ((value, tag) :: rest) = value :: part tag rest := by
  simp [part]

@[simp]
theorem part_cons_ne {tag other : Tag} (hne : other ≠ tag) (value : α)
    (rest : List (α × Tag)) : part tag ((value, other) :: rest) = part tag rest := by
  simp [part, hne]

theorem mem_part {tag : Tag} {merged : List (α × Tag)} {value : α} :
    value ∈ part tag merged ↔ (value, tag) ∈ merged := by
  simp [part]

theorem part_map_pair (tag other : Tag) (stream : List α) :
    part tag (stream.map fun value => (value, other)) = if other = tag then stream else [] := by
  induction stream with
  | nil => simp
  | cons value stream ih =>
    by_cases hsame : other = tag
    · subst hsame
      rw [if_pos rfl] at ih ⊢
      rw [List.map_cons, part_cons_self, ih]
    · rw [if_neg hsame] at ih ⊢
      rw [List.map_cons, part_cons_ne hsame, ih]

theorem part_perm {first second : List (α × Tag)} (hperm : first.Perm second) (tag : Tag) :
    (part tag first).Perm (part tag second) :=
  (hperm.filter _).map _

/-- The sequence has the values of every stream in the order of the stream. -/
def Merges (merged : List (α × Tag)) (streams : Tag → List α) : Prop :=
  ∀ tag, part tag merged = streams tag

theorem merges_of_perm {before : α → α → Prop} [Std.Antisymm before]
    {first merged : List (α × Tag)} {streams : Tag → List α} (hfirst : Merges first streams)
    (hperm : merged.Perm first) (hstreams : ∀ tag, (streams tag).Pairwise before)
    (hordered : merged.Pairwise fun left right => left.2 = right.2 → before left.1 right.1) :
    Merges merged streams := by
  intro tag
  have hpart : (part tag merged).Pairwise before := by
    refine List.pairwise_map.mpr ((hordered.filter _).imp_of_mem ?_)
    intro left right hleft hright hbefore
    have hleftTag := of_decide_eq_true (List.mem_filter.mp hleft).2
    have hrightTag := of_decide_eq_true (List.mem_filter.mp hright).2
    exact hbefore (hleftTag.trans hrightTag.symm)
  have hsame : (part tag merged).Perm (streams tag) := hfirst tag ▸ part_perm hperm tag
  exact hsame.eq_of_pairwise' hpart (hstreams tag)

theorem Merges.getElem? {done rest : List (α × Tag)} {value : α} {tag : Tag}
    {streams : Tag → List α} (hmerges : Merges (done ++ (value, tag) :: rest) streams) :
    (streams tag)[(part tag done).length]? = some value := by
  rw [← hmerges tag, part_append, part_cons_self, List.getElem?_append_right (Nat.le_refl _),
    Nat.sub_self, List.getElem?_cons_zero]

end Foundation

import Mathlib

/-! # Places in a sorted list

The place of a value in a list that is sorted by ranks is behind all entries of no greater
rank. A search that halves a range finds it, and looks only at the places it needs.
-/

namespace Foundation

universe u v

/-- The places that a search for a boundary looks at between two places, halving the range
once for each unit of fuel. -/
def probes (boundary : Nat) : Nat → Nat → Nat → List Nat
  | 0, _, _ => []
  | fuel + 1, low, high =>
    if low < high then
      (low + high) / 2 ::
        if (low + high) / 2 < boundary then probes boundary fuel ((low + high) / 2 + 1) high
        else probes boundary fuel low ((low + high) / 2)
    else []

theorem pred_mem_probes {boundary fuel low high : Nat} (hlow : low < boundary)
    (hhigh : boundary ≤ high) (hfuel : high - low ≤ fuel) :
    boundary - 1 ∈ probes boundary fuel low high := by
  induction fuel generalizing low high with
  | zero => omega
  | succ fuel ih =>
    rw [probes, if_pos (by omega)]
    split
    next hbelow =>
      by_cases hlast : (low + high) / 2 + 1 < boundary
      · exact List.mem_cons_of_mem _ (ih hlast hhigh (by omega))
      · have hplace : boundary - 1 = (low + high) / 2 := by omega
        rw [hplace]
        exact List.mem_cons_self
    next habove => exact List.mem_cons_of_mem _ (ih hlow (by omega) (by omega))

section Ranked

variable {Item : Type u} {Rank : Type v} [LinearOrder Rank] (rank : Item → Rank)

def noGreater (value : Rank) (items : List Item) : List Item :=
  items.takeWhile fun item => decide (rank item ≤ value)

/-- The entries behind them. -/
def greater (value : Rank) (items : List Item) : List Item :=
  items.dropWhile fun item => decide (rank item ≤ value)

/-- The place of a rank. -/
def boundary (value : Rank) (items : List Item) : Nat := (noGreater rank value items).length

variable {rank} {value : Rank} {items : List Item}

theorem noGreater_append_greater (value : Rank) (items : List Item) :
    noGreater rank value items ++ greater rank value items = items :=
  List.takeWhile_append_dropWhile

theorem boundary_le (value : Rank) (items : List Item) : boundary rank value items ≤ items.length :=
  (List.takeWhile_prefix _).length_le

theorem take_boundary (value : Rank) (items : List Item) :
    items.take (boundary rank value items) = noGreater rank value items :=
  (List.prefix_iff_eq_take.mp (List.takeWhile_prefix _)).symm

theorem drop_boundary (value : Rank) (items : List Item) :
    items.drop (boundary rank value items) = greater rank value items := by
  have happend : items = noGreater rank value items ++ greater rank value items :=
    (noGreater_append_greater value items).symm
  calc items.drop (boundary rank value items)
      = (noGreater rank value items ++ greater rank value items).drop
          (noGreater rank value items).length := by rw [← happend]; rfl
    _ = greater rank value items := List.drop_left

theorem rank_le_of_mem {item : Item} (hitem : item ∈ noGreater rank value items) :
    rank item ≤ value := by
  have hwithin := List.mem_takeWhile_imp hitem
  exact of_decide_eq_true hwithin

section

variable (hsorted : items.Pairwise fun left right => rank left < rank right)
include hsorted

theorem lt_rank_of_mem {item : Item} (hitem : item ∈ greater rank value items) :
    value < rank item := by
  induction items with
  | nil => exact absurd hitem List.not_mem_nil
  | cons first rest ih =>
    obtain ⟨hfirst, hrest⟩ := List.pairwise_cons.mp hsorted
    rw [greater, List.dropWhile_cons] at hitem
    split at hitem
    · exact ih hrest hitem
    next hgreater =>
      have habove : value < rank first := lt_of_not_ge fun hle => hgreater (decide_eq_true hle)
      rcases List.mem_cons.mp hitem with rfl | hlater
      · exact habove
      · exact habove.trans (hfirst item hlater)

theorem lt_boundary_iff {place : Nat} (hplace : place < items.length) :
    place < boundary rank value items ↔ rank items[place] ≤ value := by
  constructor
  · intro hbelow
    have hmem : items[place] ∈ items.take (boundary rank value items) :=
      List.mem_take_iff_getElem.mpr ⟨place, by omega, rfl⟩
    rw [take_boundary] at hmem
    exact rank_le_of_mem hmem
  · intro hle
    by_contra habove
    have hmem : items[place] ∈ items.drop (boundary rank value items) :=
      List.mem_drop_iff_getElem.mpr
        ⟨place - boundary rank value items, by omega, by congr 1; omega⟩
    rw [drop_boundary] at hmem
    exact absurd hle (not_le_of_gt (lt_rank_of_mem hsorted hmem))

theorem sorted_insert {item : Item} (hnew : ∀ other ∈ items, rank other ≠ rank item) :
    (noGreater rank (rank item) items ++ item :: greater rank (rank item) items).Pairwise
      fun left right => rank left < rank right := by
  have hsplit : (noGreater rank (rank item) items ++ greater rank (rank item) items).Pairwise
      fun left right => rank left < rank right := by
    rw [noGreater_append_greater]
    exact hsorted
  obtain ⟨hfront, hback, hcross⟩ := List.pairwise_append.mp hsplit
  have hbelow : ∀ other ∈ noGreater rank (rank item) items, rank other < rank item := by
    intro other hother
    have hmem : other ∈ items := (List.takeWhile_sublist _).subset hother
    exact lt_of_le_of_ne (rank_le_of_mem hother) (hnew other hmem)
  refine List.pairwise_append.mpr ⟨hfront, List.pairwise_cons.mpr ⟨?_, hback⟩, ?_⟩
  · exact fun other hother => lt_rank_of_mem hsorted hother
  · intro first hfirst second hsecond
    rcases List.mem_cons.mp hsecond with rfl | hsecond
    · exact hbelow first hfirst
    · exact hcross first hfirst second hsecond

end

end Ranked

end Foundation

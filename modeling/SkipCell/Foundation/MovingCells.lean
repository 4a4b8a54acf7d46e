import Mathlib

/-! # Cells that move

Cells at natural numbers, of which some are vacant. A block of consecutive cells moves to
another place, by swaps with vacant cells in an order that suits the direction; and the
cells that meet a predicate move down, each to the number of those below it.
-/

namespace Foundation

universe uCell

variable {Cell : Type uCell} {vacant : Cell} {first next count place : Nat}

def swapCells (left right : Nat) (cells : Nat → Cell) : Nat → Cell :=
  fun place => cells (Equiv.swap left right place)

theorem swapCells_left {left right : Nat} (cells : Nat → Cell) :
    swapCells left right cells left = cells right := by
  rw [swapCells, Equiv.swap_apply_left]

theorem swapCells_right {left right : Nat} (cells : Nat → Cell) :
    swapCells left right cells right = cells left := by
  rw [swapCells, Equiv.swap_apply_right]

theorem swapCells_other {left right : Nat} (cells : Nat → Cell) (hleft : place ≠ left)
    (hright : place ≠ right) : swapCells left right cells place = cells place := by
  rw [swapCells, Equiv.swap_apply_of_ne_of_ne hleft hright]

/-- The `count` cells from `first` on are moved to `next`. Their old places become vacant,
so far as they are not new places. -/
def moveBlock (vacant : Cell) (first next count : Nat) (cells : Nat → Cell) : Nat → Cell :=
  fun place =>
    if next ≤ place ∧ place < next + count then cells (place - next + first)
    else if first ≤ place ∧ place < first + count then vacant
    else cells place

/-- The new places that are not old ones are vacant. -/
def VacantFor (vacant : Cell) (first next count : Nat) (cells : Nat → Cell) : Prop :=
  ∀ place, next ≤ place → place < next + count → ¬ (first ≤ place ∧ place < first + count) →
    cells place = vacant

variable {cells : Nat → Cell}

theorem moveBlock_zero : moveBlock vacant first next 0 cells = cells := by
  funext place
  rw [moveBlock, if_neg (by omega), if_neg (by omega)]

theorem moveBlock_new {offset : Nat} (hoffset : offset < count) :
    moveBlock vacant first next count cells (next + offset) = cells (first + offset) := by
  rw [moveBlock, if_pos (by omega), show next + offset - next + first = first + offset by omega]

theorem moveBlock_old (hplace : first ≤ place ∧ place < first + count)
    (hout : ¬ (next ≤ place ∧ place < next + count)) :
    moveBlock vacant first next count cells place = vacant := by
  rw [moveBlock, if_neg hout, if_pos hplace]

theorem moveBlock_other (hold : ¬ (first ≤ place ∧ place < first + count))
    (hnew : ¬ (next ≤ place ∧ place < next + count)) :
    moveBlock vacant first next count cells place = cells place := by
  rw [moveBlock, if_neg hnew, if_neg hold]

theorem moveBlock_snoc_vacant (hdown : next < first)
    (hvacant : VacantFor vacant first next (count + 1) cells) :
    moveBlock vacant first next count cells (next + count) = vacant := by
  by_cases hold : first ≤ next + count
  · exact moveBlock_old (by omega) (by omega)
  · rw [moveBlock_other (by omega) (by omega)]
    exact hvacant _ (by omega) (by omega) (by omega)

theorem moveBlock_snoc (hdown : next < first)
    (hvacant : VacantFor vacant first next (count + 1) cells) :
    swapCells (next + count) (first + count) (moveBlock vacant first next count cells) =
      moveBlock vacant first next (count + 1) cells := by
  funext place
  by_cases hleft : place = next + count
  · subst hleft
    rw [swapCells_left, moveBlock_other (by omega) (by omega), moveBlock_new (by omega)]
  · by_cases hright : place = first + count
    · subst hright
      rw [swapCells_right, moveBlock_snoc_vacant hdown hvacant, moveBlock_old (by omega) (by omega)]
    · rw [swapCells_other _ hleft hright]
      simp only [moveBlock]
      split_ifs <;> first | rfl | omega

theorem moveBlock_cons_vacant (hup : first < next)
    (hvacant : VacantFor vacant first next (count + 1) cells) :
    moveBlock vacant (first + 1) (next + 1) count cells next = vacant := by
  by_cases hold : next < first + 1 + count
  · exact moveBlock_old (by omega) (by omega)
  · rw [moveBlock_other (by omega) (by omega)]
    exact hvacant _ (by omega) (by omega) (by omega)

theorem moveBlock_cons (hup : first < next)
    (hvacant : VacantFor vacant first next (count + 1) cells) :
    swapCells next first (moveBlock vacant (first + 1) (next + 1) count cells) =
      moveBlock vacant first next (count + 1) cells := by
  funext place
  by_cases hleft : place = next
  · subst hleft
    have hnew : moveBlock vacant first place (count + 1) cells (place + 0) = cells (first + 0) :=
      moveBlock_new (by omega)
    rw [swapCells_left, moveBlock_other (by omega) (by omega)]
    exact hnew.symm
  · by_cases hright : place = first
    · subst hright
      rw [swapCells_right, moveBlock_cons_vacant hup hvacant, moveBlock_old (by omega) (by omega)]
    · rw [swapCells_other _ hleft hright]
      simp only [moveBlock]
      split_ifs <;> first
        | omega
        | rfl
        | congr 1; omega

theorem vacantFor_moveBlock :
    VacantFor vacant next first count (moveBlock vacant first next count cells) := by
  intro place hfirst hplace hout
  exact moveBlock_old ⟨hfirst, hplace⟩ hout

theorem moveBlock_moveBlock (hvacant : VacantFor vacant first next count cells) :
    moveBlock vacant next first count (moveBlock vacant first next count cells) = cells := by
  funext place
  by_cases hfirst : first ≤ place ∧ place < first + count
  · obtain ⟨offset, rfl⟩ := Nat.exists_eq_add_of_le hfirst.1
    rw [moveBlock_new (by omega), moveBlock_new (by omega)]
  · by_cases hnext : next ≤ place ∧ place < next + count
    · rw [moveBlock_old hnext hfirst, hvacant place hnext.1 hnext.2 hfirst]
    · rw [moveBlock_other hnext hfirst, moveBlock_other hfirst hnext]

theorem map_moveBlock {Other : Type uCell} (change : Cell → Other) (place : Nat) :
    change (moveBlock vacant first next count cells place) =
      moveBlock (change vacant) first next count (fun place => change (cells place)) place := by
  simp only [moveBlock]
  split
  · rfl
  · split <;> rfl

/-- The block is swapped to its new places, one offset after the other. -/
def swapBlock (first next : Nat) (offsets : List Nat) (cells : Nat → Cell) : Nat → Cell :=
  offsets.foldl (fun cells offset => swapCells (next + offset) (first + offset) cells) cells

theorem swapBlock_snoc (offsets : List Nat) (offset : Nat) (cells : Nat → Cell) :
    swapBlock first next (offsets ++ [offset]) cells =
      swapCells (next + offset) (first + offset) (swapBlock first next offsets cells) := by
  rw [swapBlock, List.foldl_append]
  rfl

theorem swapBlock_down (hdown : next < first) (hvacant : VacantFor vacant first next count cells) :
    swapBlock first next (List.range count) cells = moveBlock vacant first next count cells := by
  induction count with
  | zero => rw [moveBlock_zero, List.range_zero, swapBlock, List.foldl_nil]
  | succ count ih =>
    have hbefore : VacantFor vacant first next count cells := by
      intro place hnext hplace hout
      exact hvacant place hnext (by omega) (by omega)
    rw [List.range_succ, swapBlock_snoc, ih hbefore]
    exact moveBlock_snoc hdown hvacant

theorem swapBlock_map_succ (offsets : List Nat) (cells : Nat → Cell) :
    swapBlock first next (offsets.map Nat.succ) cells =
      swapBlock (first + 1) (next + 1) offsets cells := by
  rw [swapBlock, swapBlock, List.foldl_map]
  congr 1
  funext cells offset
  rw [show next + 1 + offset = next + offset.succ by omega,
    show first + 1 + offset = first + offset.succ by omega]

theorem swapBlock_up (hup : first < next) (hvacant : VacantFor vacant first next count cells) :
    swapBlock first next (List.range count).reverse cells =
      moveBlock vacant first next count cells := by
  induction count generalizing first next with
  | zero => rw [moveBlock_zero, List.range_zero, List.reverse_nil, swapBlock, List.foldl_nil]
  | succ count ih =>
    have hbefore : VacantFor vacant (first + 1) (next + 1) count cells := by
      intro place hnext hplace hout
      exact hvacant place (by omega) (by omega) (by omega)
    rw [List.range_succ_eq_map, List.reverse_cons, ← List.map_reverse, swapBlock_snoc,
      swapBlock_map_succ, ih (by omega) hbefore]
    exact moveBlock_cons hup hvacant

variable {keep : Nat → Prop} [DecidablePred keep] {source target : Nat → Cell}

theorem exists_of_lt_count (hplace : place < Nat.count keep count) :
    ∃ kept < count, keep kept ∧ Nat.count keep kept = place := by
  induction count with
  | zero => exact absurd hplace (Nat.not_lt_zero _)
  | succ count ih =>
    by_cases hbefore : place < Nat.count keep count
    · obtain ⟨kept, hless, hkept⟩ := ih hbefore
      exact ⟨kept, by omega, hkept⟩
    · rw [Nat.count_succ] at hplace
      split at hplace
      · next hkeep => exact ⟨count, by omega, hkeep, by omega⟩
      · omega

/-- The kept ones among the first `done` cells are at the bottom, with what `target` gives
them; behind them it is vacant up to `done`, and from there on still as at the start. -/
structure Packed (vacant : Cell) (keep : Nat → Prop) [DecidablePred keep]
    (source target : Nat → Cell) (done : Nat) (cells : Nat → Cell) : Prop where
  kept : ∀ place < done, keep place → cells (Nat.count keep place) = target place
  vacated : ∀ place < done, Nat.count keep done ≤ place → cells place = vacant
  untouched : ∀ place, done ≤ place → cells place = source place

variable {done : Nat}

theorem packed_zero : Packed vacant keep source target 0 source :=
  ⟨fun _ hplace => absurd hplace (Nat.not_lt_zero _),
    fun _ hplace => absurd hplace (Nat.not_lt_zero _), fun _ _ => rfl⟩

theorem Packed.step_dropped (hpacked : Packed vacant keep source target done cells) (hout : ¬ keep done) :
    Packed vacant keep source target (done + 1) (Function.update cells done vacant) where
  kept place hplace hkeep := by
    have hbefore : place < done := by
      refine lt_of_le_of_ne (Nat.lt_succ_iff.mp hplace) fun hsame => hout (hsame ▸ hkeep)
    have hrank : Nat.count keep place ≤ place := Nat.count_le keep
    rw [Function.update_of_ne (by omega)]
    exact hpacked.kept place hbefore hkeep
  vacated place hplace hrank := by
    rw [Nat.count_succ, if_neg hout, Nat.add_zero] at hrank
    by_cases hsame : place = done
    · rw [hsame, Function.update_self]
    · rw [Function.update_of_ne hsame]
      exact hpacked.vacated place (by omega) hrank
  untouched place hplace := by
    rw [Function.update_of_ne (by omega)]
    exact hpacked.untouched place (by omega)

theorem Packed.step_kept (hpacked : Packed vacant keep source target done cells) (hkeep : keep done) :
    Packed vacant keep source target (done + 1)
      (swapCells (Nat.count keep done) done (Function.update cells done (target done))) where
  kept place hplace hplaceKeep := by
    by_cases hsame : place = done
    · rw [hsame, swapCells_left, Function.update_self]
    · have hless : Nat.count keep place < Nat.count keep done :=
        Nat.count_strict_mono hplaceKeep (by omega)
      have hrank : Nat.count keep done ≤ done := Nat.count_le keep
      rw [swapCells_other _ (by omega) (by omega), Function.update_of_ne (by omega)]
      exact hpacked.kept place (by omega) hplaceKeep
  vacated place hplace hrank := by
    rw [Nat.count_succ, if_pos hkeep] at hrank
    by_cases hsame : place = done
    · rw [hsame] at hrank ⊢
      rw [swapCells_right, Function.update_of_ne (by omega)]
      exact hpacked.vacated _ (by omega) le_rfl
    · rw [swapCells_other _ (by omega) hsame, Function.update_of_ne hsame]
      exact hpacked.vacated place (by omega) (by omega)
  untouched place hplace := by
    have hrank : Nat.count keep done ≤ done := Nat.count_le keep
    rw [swapCells_other _ (by omega) (by omega), Function.update_of_ne (by omega)]
    exact hpacked.untouched place (by omega)

/-- As `Packed`, where a cell is copied and its old place keeps what it had. -/
structure Copied (keep : Nat → Prop) [DecidablePred keep] (source : Nat → Cell) (done : Nat)
    (cells : Nat → Cell) : Prop where
  kept : ∀ place < done, keep place → cells (Nat.count keep place) = source place
  untouched : ∀ place, done ≤ place → cells place = source place

theorem copied_zero : Copied keep source 0 source :=
  ⟨fun _ hplace => absurd hplace (Nat.not_lt_zero _), fun _ _ => rfl⟩

theorem Copied.step_dropped (hcopied : Copied keep source done cells) (hout : ¬ keep done) :
    Copied keep source (done + 1) cells where
  kept place hplace hkeep := by
    refine hcopied.kept place (lt_of_le_of_ne (Nat.lt_succ_iff.mp hplace) fun hsame => ?_) hkeep
    exact hout (hsame ▸ hkeep)
  untouched place hplace := hcopied.untouched place (by omega)

theorem Copied.step_kept (hcopied : Copied keep source done cells) :
    Copied keep source (done + 1)
      (Function.update cells (Nat.count keep done) (cells done)) where
  kept place hplace hplaceKeep := by
    by_cases hsame : place = done
    · rw [hsame, Function.update_self]
      exact hcopied.untouched done le_rfl
    · have hless : Nat.count keep place < Nat.count keep done :=
        Nat.count_strict_mono hplaceKeep (by omega)
      rw [Function.update_of_ne hless.ne]
      exact hcopied.kept place (by omega) hplaceKeep
  untouched place hplace := by
    have hrank : Nat.count keep done ≤ done := Nat.count_le keep
    rw [Function.update_of_ne (by omega)]
    exact hcopied.untouched place (by omega)

theorem Copied.step_swapped (hcopied : Copied keep source done cells) :
    Copied keep source (done + 1) (swapCells (Nat.count keep done) done cells) where
  kept place hplace hplaceKeep := by
    by_cases hsame : place = done
    · rw [hsame, swapCells_left]
      exact hcopied.untouched done le_rfl
    · have hless : Nat.count keep place < Nat.count keep done :=
        Nat.count_strict_mono hplaceKeep (by omega)
      have hrank : Nat.count keep done ≤ done := Nat.count_le keep
      rw [swapCells_other _ (by omega) (by omega)]
      exact hcopied.kept place (by omega) hplaceKeep
  untouched place hplace := by
    have hrank : Nat.count keep done ≤ done := Nat.count_le keep
    rw [swapCells_other _ (by omega) (by omega)]
    exact hcopied.untouched place (by omega)

theorem swapCells_self (place : Nat) (cells : Nat → Cell) : swapCells place place cells = cells := by
  funext other
  rw [swapCells, Equiv.swap_self]
  rfl

end Foundation

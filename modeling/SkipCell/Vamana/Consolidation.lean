import SkipCell.Vamana.Pruning
import SkipCell.Vamana.SlotHistory

/-! # Repairing the lists around deleted locations

A consolidation goes over the locations in use and the frozen points. A list that names deleted
locations is replaced by its other neighbors and those of the deleted ones, or by a selection of
them where they are too many. The lists of the deleted locations themselves stay as they are.
-/

namespace SkipCell.Vamana

open Foundation

universe uDistance uFactor

variable {Distance : Type uDistance} {Factor : Type uFactor} [LinearOrder Distance]
  [LinearOrder Factor]

namespace Space

variable {Label : Type} [DecidableEq Label] (space : Space Distance Factor Label)
  (iteration : Iteration)

end Space

variable {Tag IndexLabel Point : Type}

variable {deleted : Finset Nat} {graph : Nat → List Nat} {loc node : Nat}

structure Repaired (deleted : Finset Nat) (range : Nat) (before after : Nat → List Nat)
    (loc : Nat) : Prop where
  unchanged : (∀ ngh ∈ before loc, ngh ∉ deleted) → after loc = before loc
  nodup : after loc ≠ before loc → (after loc).Nodup
  noLoop : after loc ≠ before loc → loc ∈ after loc → loc ∈ before loc
  length : after loc ≠ before loc → (after loc).length ≤ range
  survivors : after loc ≠ before loc → ∀ ngh ∈ after loc, ngh ∉ deleted ∧
    (ngh ∈ before loc ∨ ∃ other ∈ before loc, other ∈ deleted ∧ ngh ∈ before other)

theorem Repaired.of_eq {range : Nat} {before after : Nat → List Nat}
    (hsame : after loc = before loc) : Repaired deleted range before after loc where
  unchanged _ := hsame
  nodup hchanged := absurd hsame hchanged
  noLoop hchanged := absurd hsame hchanged
  length hchanged := absurd hsame hchanged
  survivors hchanged := absurd hsame hchanged

namespace Space

variable {Label : Type} [DecidableEq Label] {space : Space Distance Factor Label}
  {iteration : Iteration} {range maxc : Nat} {alpha : FiniteAlpha space.floats}

variable {locations : List Nat}

end Space

variable {Label : Type} [DecidableEq Label] {space : Space Distance Factor Label}
  {iteration : Iteration} [DecidableEq Tag] {state : State Tag IndexLabel Point}
  {uses : Nat → Use Tag}

/-- A location in use or a frozen point. -/
def State.Holds (state : State Tag IndexLabel Point) (loc : Nat) : Prop :=
  (loc < state.maxPoints ∧ loc ∉ state.deleteSet ∧ loc ∉ state.emptySlots.values) ∨
    (state.maxPoints ≤ loc ∧ loc < state.maxPoints + state.numFrozenPts)

end SkipCell.Vamana

import SkipCell.Vamana.Compaction
import SkipCell.Vamana.Labels

/-! # Compaction with labels

What `save` does to a filtered index before it writes: the labels of a location move with its
adjacency list, and the start of every label moves with the frozen points.
-/

namespace SkipCell.Vamana

open Foundation

variable {Tag Label Point : Type}

namespace Labelled

variable (index : Labelled Tag Label Point)

/-- Adjacency lists, vectors and labels. -/
abbrev Cells (Label Point : Type) := State.Cells Point × (Nat → List Label)

/-- The labels at the new location of a point and at its old one are swapped. -/
def moveLabels (labels : Nat → List Label) (old : Nat) : Nat → List Label :=
  match index.newLocation old with
  | none => labels
  | some new => if new ≠ old ∧ index.filteredIndex then swapCells new old labels else labels

def compactPoint (cells : Cells Label Point) (old : Nat) : Except Error (Cells Label Point) := do
  let moved ← index.toState.compactPoint cells.1 old
  .ok (moved, index.moveLabels cells.2 old)

/-- The first `count` locations, one after the other. -/
def compactPoints : Nat → Except Error (Cells Label Point)
  | 0 => .ok ((index.graph, index.vectors), index.locationToLabels)
  | count + 1 => do
    let cells ← compactPoints count
    index.compactPoint cells count

def compactData [DecidableEq Tag] : LabelledOutcome Tag Label Point Unit :=
  if index.dataCompacted then (index, .ok ())
  else if 0 < index.deleteSet.card then
    (index, .error (.diskannException ("Can not compact data when index has non-empty " ++
      "delete_set_ of size: " ++ toString index.deleteSet.card)))
  else if index.start < index.maxPoints ∧ ¬ index.locationToTag.contains index.start then
    (index, .error (.diskannException "ERROR: Start node deleted."))
  else
    match index.compactPoints (index.maxPoints + index.numFrozenPts) with
    | .error failure => (index, .error failure)
    | .ok ((graph, vectors), labels) =>
      ({ index with
          tagToLocation := index.retaggedLocations
          locationToTag := State.retaggedTags index.retaggedLocations
          graph := fun location =>
            if index.nd ≤ location ∧ location < index.maxPoints then [] else graph location
          vectors := vectors
          locationToLabels := fun location =>
            if index.filteredIndex ∧ index.nd ≤ location ∧ location < index.maxPoints then []
            else labels location
          emptySlots := insertSlots {} index.nd index.maxPoints
          dataCompacted := true }, .ok ())

/-- The lists and the labels at `new` and at `old`, each with an offset, are swapped for one
offset after the other. -/
def swapLists (assertions filtered down : Bool) (old new : Nat) :
    List Nat → (Nat → List Nat) × (Nat → List Label) →
      Except Error ((Nat → List Nat) × (Nat → List Label))
  | [], cells => .ok cells
  | offset :: offsets, (graph, labels) =>
    if assertions ∧ graph (new + offset) ≠ [] then .error (State.notVacant down)
    else
      swapLists assertions filtered down old new offsets
        (swapCells (new + offset) (old + offset) graph,
          if filtered then swapCells (new + offset) (old + offset) labels else labels)

def repositionPoints (assertions : Bool) (zero : Point) (old new count : Nat) :
    LabelledOutcome Tag Label Point Unit :=
  if count = 0 ∨ old = new then (index, .ok ())
  else
    let offsets := if new < old then List.range count else (List.range count).reverse
    match swapLists assertions index.filteredIndex (new < old) old new offsets
        (fun location => (index.graph location).map (State.repointed old new count),
          index.locationToLabels) with
    | .error failure => (index, .error failure)
    | .ok (graph, labels) =>
      ({ index with
          graph := graph
          vectors := moveBlock zero old new count index.vectors
          locationToLabels := labels }, .ok ())

/-- The starts of the labels follow the frozen points, in `uint32_t` arithmetic. -/
def moveStarts (old new : Nat) : Labelled Tag Label Point :=
  if index.filteredIndex then
    { index with
      labelToStartId := AssocMap.mapValues
        (fun medoidId => UInt32.ofNat new + (medoidId - UInt32.ofNat old)) index.labelToStartId }
  else index

def compactFrozenPoint (assertions : Bool) (zero : Point) : LabelledOutcome Tag Label Point Unit :=
  if index.nd < index.maxPoints ∧ 0 < index.numFrozenPts then
    LabelledOutcome.andThen (index.repositionPoints assertions zero index.maxPoints index.nd
      index.numFrozenPts) fun index _ =>
        (moveStarts { index with start := index.nd } index.maxPoints index.nd, .ok ())
  else (index, .ok ())

def repositionFrozenPointToEnd (assertions : Bool) (zero : Point) :
    LabelledOutcome Tag Label Point Unit :=
  if index.numFrozenPts = 0 ∨ index.nd = index.maxPoints then (index, .ok ())
  else
    LabelledOutcome.andThen (index.repositionPoints assertions zero index.nd index.maxPoints
      index.numFrozenPts) fun index _ =>
        (moveStarts { index with start := index.maxPoints } index.nd index.maxPoints, .ok ())

/-- `save` without the files: the index is compacted, and the frozen points go to its end
again. -/
def save [DecidableEq Tag] (assertions compactBeforeSave : Bool) (zero : Point) :
    LabelledOutcome Tag Label Point Unit :=
  LabelledOutcome.andThen
    (if compactBeforeSave then
      LabelledOutcome.andThen index.compactData fun index _ =>
        index.compactFrozenPoint assertions zero
    else if ¬ index.dataCompacted then
      (index, .error (.diskannException
        "vamana_index_t save for non-compacted index is not yet implemented"))
    else (index, .ok ()))
    fun index _ => index.repositionFrozenPointToEnd assertions zero

end Labelled

namespace Labelled

variable (index : Labelled Tag Label Point)

/-- The labels after the first `count` locations. -/
def labelsCompacted (count : Nat) : Nat → List Label :=
  (List.range count).foldl index.moveLabels index.locationToLabels

theorem compactPoints_eq (count : Nat) :
    index.compactPoints count =
      (index.toState.compactPoints count).map fun cells => (cells, index.labelsCompacted count) := by
  induction count with
  | zero => rfl
  | succ count ih =>
    have hlabels : index.labelsCompacted (count + 1) =
        index.moveLabels (index.labelsCompacted count) count := by
      rw [labelsCompacted, List.range_succ, List.foldl_append]
      rfl
    rw [compactPoints, State.compactPoints, ih, hlabels]
    cases hcells : index.toState.compactPoints count with
    | error failure => rfl
    | ok cells =>
      change index.compactPoint (cells, _) count =
        Except.map _ (index.toState.compactPoint cells count)
      rw [compactPoint]
      cases index.toState.compactPoint cells count <;> rfl

end Labelled

end SkipCell.Vamana

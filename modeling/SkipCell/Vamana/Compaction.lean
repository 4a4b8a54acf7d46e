import SkipCell.Foundation.MovingCells
import SkipCell.Vamana.Index

/-! # Compaction

What `save` does to an index before it writes: the tagged points move down to the first
locations, and the frozen points behind them; afterwards the frozen points move back.
-/

namespace SkipCell.Vamana

open Foundation

variable {Tag Label Point : Type}

namespace State

variable (state : State Tag Label Point)

/-- The tagged locations below a tagged one come before it; a location without a tag has no
new one. -/
def newLocation (old : Nat) : Option Nat :=
  if old < state.maxPoints then
    if state.locationToTag.contains old then
      some (Nat.count (fun location => state.locationToTag.contains location = true) old)
    else none
  else if old < state.maxPoints + state.numFrozenPts then some old
  else none

/-- Neighbors at an empty location are dropped. -/
def renumber (neighbors : List Nat) : Except Error (List Nat) :=
  (neighbors.filter fun neighbor =>
      ¬ (neighbor < state.maxPoints ∧ ¬ state.locationToTag.contains neighbor)).mapM
    fun neighbor =>
      match state.newLocation neighbor with
      | some location => .ok location
      | none => .error .outOfBounds

/-- Adjacency lists and vectors. -/
abbrev Cells (Point : Type) := (Nat → List Nat) × (Nat → Point)

def compactPoint (cells : Cells Point) (old : Nat) : Except Error (Cells Point) :=
  match state.newLocation old with
  | none => .ok (Function.update cells.1 old [], cells.2)
  | some new => do
    let neighbors ← state.renumber (cells.1 old)
    let graph := Function.update cells.1 old neighbors
    if new = old then .ok (graph, cells.2)
    else .ok (swapCells new old graph, Function.update cells.2 new (cells.2 old))

/-- The first `count` locations, one after the other. -/
def compactPoints : Nat → Except Error (Cells Point)
  | 0 => .ok (state.graph, state.vectors)
  | count + 1 => do
    let cells ← compactPoints count
    state.compactPoint cells count

variable [DecidableEq Tag]

def retaggedLocations : AssocMap Tag Nat :=
  state.locationToTag.positions.foldl (fun located old =>
    match state.locationToTag.tryGet old, state.newLocation old with
    | some tag, some new => located.insert tag new
    | _, _ => located) ∅

def retaggedTags (located : AssocMap Tag Nat) : NaturalNumberMap Tag :=
  located.entries.foldl (fun tagged entry => tagged.set entry.2 entry.1) {}

omit [DecidableEq Tag]

/-- The assertion that the new place of a list is empty. -/
def notVacant (down : Bool) : Error :=
  .assertionFailed ("graph_store_->get_neighbours(new_location_start + loc_offset" ++
    (if down then "" else " - 1u") ++ ").empty()")

/-- The lists at `new` and at `old`, each with an offset, are swapped for one offset after
the other. -/
def swapLists (assertions down : Bool) (old new : Nat) :
    List Nat → (Nat → List Nat) → Except Error (Nat → List Nat)
  | [], graph => .ok graph
  | offset :: offsets, graph =>
    if assertions ∧ graph (new + offset) ≠ [] then .error (notVacant down)
    else swapLists assertions down old new offsets (swapCells (new + offset) (old + offset) graph)

/-- A neighbor among the points that move. -/
def repointed (old new count neighbor : Nat) : Nat :=
  if old ≤ neighbor ∧ neighbor < old + count then neighbor + new - old else neighbor

end State

section Lists

variable {assertions down : Bool} {old new count : Nat} {graph : Nat → List Nat}

theorem swapLists_append (first last : List Nat) :
    State.swapLists assertions down old new (first ++ last) graph =
      State.swapLists assertions down old new first graph >>=
        State.swapLists assertions down old new last := by
  induction first generalizing graph with
  | nil => rfl
  | cons offset offsets ih =>
    rw [List.cons_append, State.swapLists, State.swapLists]
    split
    · rfl
    · exact ih

theorem swapLists_single {offset : Nat} (hvacant : graph (new + offset) = []) :
    State.swapLists assertions down old new [offset] graph =
      .ok (swapCells (new + offset) (old + offset) graph) := by
  rw [State.swapLists, if_neg (fun hassert => hassert.2 hvacant), State.swapLists]

theorem swapLists_map_succ (offsets : List Nat) :
    State.swapLists assertions down old new (offsets.map Nat.succ) graph =
      State.swapLists assertions down (old + 1) (new + 1) offsets graph := by
  induction offsets generalizing graph with
  | nil => rfl
  | cons offset offsets ih =>
    rw [List.map_cons, State.swapLists, State.swapLists,
      show new + 1 + offset = new + offset.succ by omega,
      show old + 1 + offset = old + offset.succ by omega]
    split
    · rfl
    · exact ih

theorem swapLists_down (hdown : new < old) (hvacant : VacantFor [] old new count graph) :
    State.swapLists assertions down old new (List.range count) graph =
      .ok (moveBlock [] old new count graph) := by
  induction count with
  | zero => rw [moveBlock_zero, List.range_zero, State.swapLists]
  | succ count ih =>
    have hbefore : VacantFor [] old new count graph := by
      intro place hnew hplace hold
      exact hvacant place hnew (by omega) (by omega)
    rw [List.range_succ, swapLists_append, ih hbefore]
    refine (swapLists_single (moveBlock_snoc_vacant hdown hvacant)).trans ?_
    rw [moveBlock_snoc hdown hvacant]

theorem swapLists_up (hup : old < new) (hvacant : VacantFor [] old new count graph) :
    State.swapLists assertions down old new (List.range count).reverse graph =
      .ok (moveBlock [] old new count graph) := by
  induction count generalizing old new with
  | zero => rw [moveBlock_zero, List.range_zero, List.reverse_nil, State.swapLists]
  | succ count ih =>
    have hbefore : VacantFor [] (old + 1) (new + 1) count graph := by
      intro place hnew hplace hold
      exact hvacant place (by omega) (by omega) (by omega)
    rw [List.range_succ_eq_map, List.reverse_cons, ← List.map_reverse, swapLists_append,
      swapLists_map_succ, ih (by omega) hbefore]
    have htarget : moveBlock [] (old + 1) (new + 1) count graph new = [] :=
      moveBlock_cons_vacant hup hvacant
    refine (swapLists_single htarget).trans ?_
    rw [Nat.add_zero, Nat.add_zero, moveBlock_cons hup hvacant]

end Lists

end SkipCell.Vamana

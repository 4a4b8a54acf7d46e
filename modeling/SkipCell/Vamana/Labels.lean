import SkipCell.Vamana.SlotHistory

/-! # The labels of a dynamic index

What a filtered index keeps beside its slots: the labels of every location, and the frozen
point at which the searches for a label start.
-/

namespace SkipCell.Vamana

open Foundation

/-- `vamana_index_t` with `location_to_labels_` and `label_to_start_id_`. -/
structure Labelled (Tag Label Point : Type) extends State Tag Label Point where
  locationToLabels : Nat → List Label := fun _ => []
  labelToStartId : AssocMap Label UInt32 := ∅

variable {Tag Label Point Result Other : Type}

/-- What an operation on an index with labels leaves, and what it returns or throws. -/
abbrev LabelledOutcome (Tag Label Point Result : Type) :=
  Labelled Tag Label Point × Except Error Result

/-- The next statement, unless there was an exception. -/
def LabelledOutcome.andThen (outcome : LabelledOutcome Tag Label Point Result)
    (next : Labelled Tag Label Point → Result → LabelledOutcome Tag Label Point Other) :
    LabelledOutcome Tag Label Point Other :=
  match outcome with
  | (index, .ok result) => next index result
  | (index, .error failure) => (index, .error failure)

@[simp]
theorem LabelledOutcome.andThen_ok (index : Labelled Tag Label Point) (result : Result)
    (next : Labelled Tag Label Point → Result → LabelledOutcome Tag Label Point Other) :
    LabelledOutcome.andThen (index, .ok result) next = next index result := rfl

theorem LabelledOutcome.andThen_keeps (holds : Labelled Tag Label Point → Prop)
    {outcome : LabelledOutcome Tag Label Point Result}
    {next : Labelled Tag Label Point → Result → LabelledOutcome Tag Label Point Other}
    (hfirst : holds outcome.1) (hnext : ∀ index result, holds index → holds (next index result).1) :
    holds (outcome.andThen next).1 := by
  obtain ⟨index, failure | result⟩ := outcome
  · exact hfirst
  · exact hnext index result hfirst

def LabelledOutcome.slots (outcome : LabelledOutcome Tag Label Point Result) :
    Outcome Tag Label Point Result :=
  (outcome.1.toState, outcome.2)

theorem LabelledOutcome.slots_andThen (outcome : LabelledOutcome Tag Label Point Result)
    (next : Labelled Tag Label Point → Result → LabelledOutcome Tag Label Point Other)
    (after : State Tag Label Point → Result → Outcome Tag Label Point Other)
    (hnext : ∀ index result, (next index result).slots = after index.toState result) :
    (outcome.andThen next).slots = Outcome.andThen outcome.slots after := by
  obtain ⟨index, result | failure⟩ := outcome
  · rfl
  · exact hnext _ _

namespace Labelled

variable (index : Labelled Tag Label Point)

/-- An operation on the slots leaves the tables of labels alone. -/
def onSlots (outcome : Outcome Tag Label Point Result) : LabelledOutcome Tag Label Point Result :=
  ({ index with toState := outcome.1 }, outcome.2)

@[simp]
theorem slots_onSlots (outcome : Outcome Tag Label Point Result) :
    (index.onSlots outcome).slots = outcome := rfl

/-- A label that was not seen before gets the next frozen point. -/
def registerLabels [DecidableEq Label] (point : Point) (index : Labelled Tag Label Point) :
    List Label → LabelledOutcome Tag Label Point Unit
  | [] => (index, .ok ())
  | label :: labels =>
    if label ∈ index.labels then registerLabels point index labels
    else if index.numFrozenPts ≤ index.frozenPtsUsed then
      (index, .error (.diskannException ("Error: For dynamic filtered index, the number of " ++
        "frozen points should be atleast equal to number of unique labels.")))
    else
      registerLabels point
        { index with
          labels := label :: index.labels
          labelToStartId :=
            index.labelToStartId.insert label (.ofNat (index.maxPoints + index.frozenPtsUsed))
          locationToLabels :=
            Function.update index.locationToLabels (index.maxPoints + index.frozenPtsUsed) [label]
          vectors := Function.update index.vectors (index.maxPoints + index.frozenPtsUsed) point
          frozenPtsUsed := index.frozenPtsUsed + 1 } labels

/-- Whether the point goes on to be inserted. -/
def admitLabels [DecidableEq Label] (point : Point) (location : Nat) (labels : List Label) :
    LabelledOutcome Tag Label Point Bool :=
  if ¬ index.filteredIndex then (index, .ok true)
  else if labels = [] then
    LabelledOutcome.andThen (index.onSlots (index.releaseLocation location)) fun index _ =>
      (index, .ok false)
  else
    LabelledOutcome.andThen
      (registerLabels point
        { index with
          locationToLabels := Function.update index.locationToLabels location labels } labels)
      fun index _ => (index, .ok true)

variable [DecidableEq Tag] [DecidableEq Label]

/-- The rest of an insertion, with a reserved location. -/
def insertAt (point : Point) (tag : Tag) (location : Nat) (labels : List Label)
    (links : Nat → List Nat) : LabelledOutcome Tag Label Point Int :=
  LabelledOutcome.andThen (index.admitLabels point location labels) fun index admitted =>
    if admitted then index.onSlots (index.placePoint point tag location links)
    else (index, .ok (-1))

/-- `links` are the lists after the search for neighbors and the reverse edges. -/
def insertPoint [Zero Tag] (assertions : Bool) (point : Point) (tag : Tag) (labels : List Label)
    (links : Nat → List Nat) : LabelledOutcome Tag Label Point Int :=
  if assertions ∧ ¬ index.hasBuilt then (index, .error (.assertionFailed "has_built_"))
  else if tag = 0 then
    (index, .error (.diskannException
      "Do not insert point with tag 0. That is reserved for points hidden from the user."))
  else
    LabelledOutcome.andThen (index.onSlots (index.reserveLocation assertions))
      fun index reserved =>
        match reserved with
        | some location => index.insertAt point tag location labels links
        | none =>
          -- A filtered index releases location -1, or writes the labels there.
          if index.filteredIndex then (index, .error .outOfBounds) else (index, .ok (-1))

end Labelled

section Slots

variable [DecidableEq Label] (index : Labelled Tag Label Point)

theorem registerLabels_slots (point : Point) (labels : List Label)
    (index : Labelled Tag Label Point) :
    (Labelled.registerLabels point index labels).slots =
      State.registerLabels point index.toState labels := by
  induction labels generalizing index with
  | nil => rfl
  | cons label labels ih =>
    rw [Labelled.registerLabels, State.registerLabels]
    split
    · exact ih index
    · split
      · rfl
      · exact ih _

theorem admitLabels_slots (point : Point) (location : Nat) (labels : List Label) :
    (index.admitLabels point location labels).slots =
      index.toState.admitLabels point location labels := by
  rw [Labelled.admitLabels, State.admitLabels]
  split
  · rfl
  · split
    · rw [LabelledOutcome.slots_andThen _ _ (fun state _ => (state, .ok false))
        (fun index _ => rfl), Labelled.slots_onSlots]
    · rw [LabelledOutcome.slots_andThen _ _ (fun state _ => (state, .ok true))
        (fun index _ => rfl), registerLabels_slots]

theorem insertPoint_slots [DecidableEq Tag] [Zero Tag] (assertions : Bool) (point : Point)
    (tag : Tag) (labels : List Label) (links : Nat → List Nat) :
    (index.insertPoint assertions point tag labels links).slots =
      index.toState.insertPoint assertions point tag labels links := by
  rw [Labelled.insertPoint, State.insertPoint]
  split
  · rfl
  · split
    · rfl
    · refine (LabelledOutcome.slots_andThen _ _ _ fun index reserved => ?_).trans
        (by rw [Labelled.slots_onSlots])
      cases reserved with
      | none =>
        dsimp only
        split <;> rfl
      | some location =>
        dsimp only
        rw [Labelled.insertAt, ← admitLabels_slots]
        refine LabelledOutcome.slots_andThen _ _ _ fun index admitted => ?_
        split <;> rfl

end Slots

end SkipCell.Vamana

import SkipCell.Foundation.AssocMap
import SkipCell.Vamana.NaturalNumbers

/-! # The dynamic Vamana index

The slots of a dynamic index: its capacity, the tags of the locations in use, the
locations that wait for a consolidation, and the empty slots. Which edges a search
finds is not said here: an operation that links points is given the adjacency lists
that it leaves.
-/

namespace SkipCell.Vamana

open Foundation

/-- `index_config_t`, with what concerns the slots. A location is an `int`. -/
structure IndexConfig where
  maxPoints : Nat
  numFrozenPts : Nat
  filteredIndex : Bool := false
  fits : max 1 maxPoints + max 1 numFrozenPts < 2 ^ 31 := by decide

/-- `vamana_index_t` with `dynamic_index_`, which has tags. Frozen points have the
locations from `maxPoints` on. -/
structure State (Tag Label Point : Type) where
  maxPoints : Nat
  numFrozenPts : Nat
  filteredIndex : Bool
  nd : Nat := 0
  start : Nat
  hasBuilt : Bool := false
  dataCompacted : Bool := true
  deletesEnabled : Bool := false
  emptySlots : NaturalNumberSet := {}
  deleteSet : Finset Nat := ∅
  locationToTag : NaturalNumberMap Tag := {}
  tagToLocation : AssocMap Tag Nat := ∅
  labels : List Label := []
  frozenPtsUsed : Nat := 0
  vectors : Nat → Point
  graph : Nat → List Nat := fun _ => []

variable {Tag Label Point : Type}

/-- What an operation leaves, and what it returns or throws. -/
abbrev Outcome (Tag Label Point Result : Type) :=
  State Tag Label Point × Except Error Result

/-- The next statement, unless there was an exception. -/
def Outcome.andThen {Result Other : Type} (outcome : Outcome Tag Label Point Result)
    (next : State Tag Label Point → Result → Outcome Tag Label Point Other) :
    Outcome Tag Label Point Other :=
  match outcome with
  | (state, .ok result) => next state result
  | (state, .error failure) => (state, .error failure)

@[simp]
theorem Outcome.andThen_ok {Result Other : Type} (state : State Tag Label Point) (result : Result)
    (next : State Tag Label Point → Result → Outcome Tag Label Point Other) :
    Outcome.andThen (state, .ok result) next = next state result := rfl

theorem Outcome.andThen_keeps {Result Other : Type} (holds : State Tag Label Point → Prop)
    {outcome : Outcome Tag Label Point Result}
    {next : State Tag Label Point → Result → Outcome Tag Label Point Other}
    (hfirst : holds outcome.1) (hnext : ∀ state result, holds state → holds (next state result).1) :
    holds (outcome.andThen next).1 := by
  obtain ⟨state, failure | result⟩ := outcome
  · exact hfirst
  · exact hnext state result hfirst

/-- The slots from `first` up to `last`, inserted one after the other. -/
def insertSlots (slots : NaturalNumberSet) (first last : Nat) : NaturalNumberSet :=
  (List.range' first (last - first)).foldl NaturalNumberSet.insert slots

namespace State

variable (state : State Tag Label Point)

def enableDelete : State Tag Label Point :=
  if state.deletesEnabled then state
  else
    { state with
      emptySlots :=
        if state.dataCompacted then insertSlots state.emptySlots state.nd state.maxPoints
        else state.emptySlots
      deletesEnabled := true }

def construct (config : IndexConfig) (zero : Point) : State Tag Label Point :=
  enableDelete
    { maxPoints := if config.maxPoints = 0 then 1 else config.maxPoints
      numFrozenPts := if config.numFrozenPts = 0 then 1 else config.numFrozenPts
      filteredIndex := config.filteredIndex
      start := if config.maxPoints = 0 then 1 else config.maxPoints
      vectors := fun _ => zero }

/-- A slot for a point, unless the index is full. -/
def reserveLocation (assertions : Bool) : Outcome Tag Label Point (Option Nat) :=
  if state.maxPoints ≤ state.nd then (state, .ok none)
  else if state.dataCompacted ∧ state.emptySlots.isEmpty then
    ({ state with nd := state.nd + 1 }, .ok (some state.nd))
  else if assertions ∧ state.emptySlots.size = 0 then
    (state, .error (.assertionFailed "empty_slots_.size() != 0"))
  else if assertions ∧ state.emptySlots.size + state.nd ≠ state.maxPoints then
    (state, .error (.assertionFailed "empty_slots_.size() + nd_ == max_points_"))
  else
    match state.emptySlots.popAny with
    | .error failure => (state, .error failure)
    | .ok (location, slots) =>
      ({ state with
          emptySlots := slots
          deleteSet := state.deleteSet.erase location
          nd := state.nd + 1 }, .ok (some location))

def alreadyEmpty : Error :=
  .diskannException "Trying to release location, but location already in empty slots"

def releaseLocation (location : Nat) : Outcome Tag Label Point Nat :=
  match state.emptySlots.isInSet location with
  | .error failure => (state, .error failure)
  | .ok true => (state, .error alreadyEmpty)
  | .ok false =>
    ({ state with emptySlots := state.emptySlots.insert location, nd := state.nd - 1 },
      .ok (state.nd - 1))

def countMismatch : Error := .diskannException "#empty slots + nd != max points"

def releaseLocations (state : State Tag Label Point) : List Nat → Outcome Tag Label Point Nat
  | [] =>
    if state.emptySlots.size + state.nd ≠ state.maxPoints then (state, .error countMismatch)
    else (state, .ok state.nd)
  | location :: locations =>
    Outcome.andThen (state.releaseLocation location) fun state _ =>
      releaseLocations state locations

/-! ## Building -/

def setStartPoints (points : List Point) : Outcome Tag Label Point Unit :=
  if 0 < state.nd then
    (state, .error (.diskannException "Can not set starting point for a non-empty index"))
  else if points.length ≠ state.numFrozenPts then
    (state, .error (.diskannException "Invalid number of points"))
  else
    ({ state with
        vectors := fun location =>
          if location < state.maxPoints then state.vectors location
          else points.getD (location - state.maxPoints) (state.vectors location)
        hasBuilt := true }, .ok ())

/-- The first vectors become `points`. -/
def populateData (points : List Point) : Nat → Point := fun location =>
  points.getD location (state.vectors location)

variable [DecidableEq Tag]

/-- Both maps get an entry. -/
def assignTag (tagged : Tag × Nat) : State Tag Label Point :=
  { state with
    tagToLocation := state.tagToLocation.insert tagged.1 tagged.2
    locationToTag := state.locationToTag.set tagged.2 tagged.1 }

/-- The tags of the first locations, one after the other. -/
def assignTags (tags : List Tag) : State Tag Label Point :=
  tags.zipIdx.foldl (fun state tagged => state.assignTag tagged) state

def generateFrozenPoint (medoid : Nat) : Outcome Tag Label Point Unit :=
  if state.numFrozenPts = 0 then (state, .ok ())
  else if 1 < state.numFrozenPts then
    (state, .error (.diskannException
      "More than one frozen point not supported in generate_frozen_point"))
  else if state.nd = 0 then
    (state, .error (.diskannException "ERROR: Can not pick a frozen point since nd=0"))
  else
    ({ state with
        vectors := Function.update state.vectors state.maxPoints (state.vectors medoid)
        frozenPtsUsed := state.frozenPtsUsed + 1 }, .ok ())

/-- `links` are the lists that `link` leaves. -/
def buildWithDataPopulated (tags : List Tag) (medoid : Nat) (links : Nat → List Nat) :
    Outcome Tag Label Point Unit :=
  if state.nd < 1 then
    (state, .error (.diskannException "Error: Trying to build an index with 0 points"))
  else if tags.length ≠ state.nd then
    (state, .error (.diskannException ("ERROR: Driver requests loading " ++ toString state.nd ++
      " points from file,but tags vector is of size " ++ toString tags.length ++ ".\n")))
  else
    Outcome.andThen ((state.assignTags tags).generateFrozenPoint medoid) fun state _ =>
      ({ state with start := state.maxPoints, graph := links, hasBuilt := true }, .ok ())

/-- From vectors in memory. -/
def build (points : List Point) (tags : List Tag) (medoid : Nat) (links : Nat → List Nat) :
    Outcome Tag Label Point Unit :=
  if points.length = 0 then
    (state, .error (.diskannException "Do not call build with 0 points"))
  else if state.maxPoints + state.numFrozenPts < points.length then
    ({ state with nd := points.length }, .error .outOfBounds)
  else
    buildWithDataPopulated
      { state with nd := points.length, vectors := state.populateData points } tags medoid links

def buildFromFile (points : List Point) (numPointsToLoad : Nat) (tags : List Tag) (medoid : Nat)
    (links : Nat → List Nat) : Outcome Tag Label Point Unit :=
  if numPointsToLoad = 0 then
    (state, .error (.diskannException "Do not call build with 0 points"))
  else if state.maxPoints < points.length then
    (state, .error (.diskannException ("ERROR: Driver requests loading " ++
      toString numPointsToLoad ++ " points and file has " ++ toString points.length ++
      " points, but index can support only " ++ toString state.maxPoints ++
      " points as specified in constructor.\n")))
  else if points.length < numPointsToLoad then
    (state, .error (.diskannException ("ERROR: Driver requests loading " ++
      toString numPointsToLoad ++ " points and file has only " ++ toString points.length ++
      " points.\n")))
  else
    buildWithDataPopulated
      { state with nd := numPointsToLoad, vectors := state.populateData points } tags medoid links

/-- The labels of a new point: one that was not seen before takes a frozen point. -/
def registerLabels [DecidableEq Label] (point : Point) (state : State Tag Label Point) :
    List Label → Outcome Tag Label Point Unit
  | [] => (state, .ok ())
  | label :: labels =>
    if label ∈ state.labels then registerLabels point state labels
    else if state.numFrozenPts ≤ state.frozenPtsUsed then
      (state, .error (.diskannException ("Error: For dynamic filtered index, the number of " ++
        "frozen points should be atleast equal to number of unique labels.")))
    else
      registerLabels point
        { state with
          labels := label :: state.labels
          vectors := Function.update state.vectors (state.maxPoints + state.frozenPtsUsed) point
          frozenPtsUsed := state.frozenPtsUsed + 1 } labels

/-- Whether the point goes on to be inserted. -/
def admitLabels [DecidableEq Label] (point : Point) (location : Nat) (labels : List Label) :
    Outcome Tag Label Point Bool :=
  if ¬ state.filteredIndex then (state, .ok true)
  else if labels = [] then
    Outcome.andThen (state.releaseLocation location) fun state _ => (state, .ok false)
  else
    Outcome.andThen (registerLabels point state labels) fun state _ => (state, .ok true)

/-- The tag, the vector and the edges of a point whose location is reserved. -/
def placePoint (point : Point) (tag : Tag) (location : Nat) (links : Nat → List Nat) :
    Outcome Tag Label Point Int :=
  if tag ∈ state.tagToLocation then
    Outcome.andThen (state.releaseLocation location) fun state _ => (state, .ok (-1))
  else
    ({ state with
        tagToLocation := state.tagToLocation.insert tag location
        locationToTag := state.locationToTag.set location tag
        vectors := Function.update state.vectors location point
        graph := links }, .ok 0)

/-- `links` are the lists after the search for neighbors and the reverse edges. -/
def insertPoint [DecidableEq Label] [Zero Tag] (assertions : Bool) (point : Point) (tag : Tag)
    (labels : List Label) (links : Nat → List Nat) : Outcome Tag Label Point Int :=
  if assertions ∧ ¬ state.hasBuilt then (state, .error (.assertionFailed "has_built_"))
  else if tag = 0 then
    (state, .error (.diskannException
      "Do not insert point with tag 0. That is reserved for points hidden from the user."))
  else
    Outcome.andThen (state.reserveLocation assertions) fun state reserved =>
      match reserved with
      | some location =>
        Outcome.andThen (state.admitLabels point location labels) fun state admitted =>
          if admitted then state.placePoint point tag location links else (state, .ok (-1))
      | none =>
        -- A filtered index uses location -1 before it is checked.
        if state.filteredIndex then (state, .error .outOfBounds) else (state, .ok (-1))

/-! ## Deletion -/

/-- Marks the location of a tag that is there. -/
def markDeleted (tag : Tag) (location : Nat) : State Tag Label Point :=
  { state with
    deleteSet := insert location state.deleteSet
    locationToTag := state.locationToTag.erase location
    tagToLocation := state.tagToLocation.erase tag }

@[simp]
theorem markDeleted_maxPoints (tag : Tag) (location : Nat) :
    (state.markDeleted tag location).maxPoints = state.maxPoints := rfl

def lazyDelete (assertions : Bool) (tag : Tag) : Outcome Tag Label Point Int :=
  let state := { state with dataCompacted := false }
  match state.tagToLocation.lookup tag with
  | none => (state, .ok (-1))
  | some location =>
    if assertions ∧ state.maxPoints ≤ location then
      (state, .error (.assertionFailed "tag_to_location_[tag] < max_points_"))
    else (state.markDeleted tag location, .ok 0)

/-- Several deletions. Returns the tags that were not found. -/
def lazyDeleteAll (tags failedTags : List Tag) : Outcome Tag Label Point (List Tag) :=
  if failedTags ≠ [] then
    (state, .error (.diskannException "failed_tags should be passed as an empty list"))
  else
    let (state, failed) := tags.foldl (fun (state, failed) tag =>
      match state.tagToLocation.lookup tag with
      | none => (state, failed ++ [tag])
      | some location => (state.markDeleted tag location, failed))
      ({ state with dataCompacted := false }, [])
    (state, .ok failed)

inductive ConsolidationStatus
  | success
  | inconsistentCountError
  deriving DecidableEq

/-- `consolidation_report_t`, without the time. -/
structure ConsolidationReport where
  status : ConsolidationStatus
  activePoints : Nat := 0
  maxPoints : Nat := 0
  emptySlots : Nat := 0
  slotsReleased : Nat := 0
  deleteSetSize : Nat := 0
  numCallsToProcessDelete : Nat := 0

/-- Which locations are processed: those that are neither deleted nor empty. -/
def processed (oldDeleteSet : Finset Nat) : Except Error (List Bool) :=
  (List.range state.maxPoints).mapM fun location =>
    if location ∈ oldDeleteSet then .ok false
    else do
      let empty ← state.emptySlots.isInSet location
      .ok (!empty)

/-- The deleted locations are released in the order `order`; `links` are the lists that
`process_delete` leaves. -/
def consolidateDeletes (order : List Nat) (links : Nat → List Nat) :
    Outcome Tag Label Point ConsolidationReport :=
  if state.emptySlots.size + state.nd ≠ state.maxPoints then (state, .error countMismatch)
  else if state.locationToTag.size + state.deleteSet.card ≠ state.nd then
    (state, .ok { status := .inconsistentCountError })
  else if state.locationToTag.size ≠ state.tagToLocation.keys.length then
    (state, .error (.diskannException "location_to_tag_ and tag_to_location_ not of same size"))
  else
    let oldDeleteSet := state.deleteSet
    let state := { state with deleteSet := ∅ }
    if state.start ∈ oldDeleteSet then
      (state, .error (.diskannException "ERROR: start node has been deleted"))
    else
      match state.processed oldDeleteSet with
      | .error failure => (state, .error failure)
      | .ok processed =>
        Outcome.andThen (releaseLocations { state with graph := links } order)
          fun state active =>
            (state, .ok
              { status := .success
                activePoints := active
                maxPoints := state.maxPoints
                emptySlots := state.emptySlots.size
                slotsReleased := oldDeleteSet.card
                deleteSetSize := state.deleteSet.card
                numCallsToProcessDelete := processed.count true + state.numFrozenPts })

end State

end SkipCell.Vamana

import SkipCell.Foundation.CompressedRows
import SkipCell.Sidecar.Index

/-! # The graph that is partitioned

The lists of the Base graph are projected, and the graph of the projected arcs is made
undirected. Short lists are projected in parallel, and the pairs are written where they belong;
the general path sorts a key for each arc.
-/

namespace SkipCell.Build

open Foundation Sidecar

/-- What the projection sees of the Base graph. -/
structure GraphView where
  lists : List (List Nat)
  squaredDistance : Nat → Nat → Single

namespace GraphView

variable (graph : GraphView)

def pointCount : Nat := graph.lists.length

def neighbors (node : Nat) : List Nat := graph.lists.getD node []

def BadDistance (node target : Nat) : Prop :=
  (graph.squaredDistance node target).isFinite = false ∨ graph.squaredDistance node target < .zero

instance (node target : Nat) : Decidable (graph.BadDistance node target) :=
  inferInstanceAs (Decidable (_ ∨ _))

end GraphView

structure PartitionGraph where
  offsets : List Nat
  neighbors : List Nat
  nodeWeights : List Nat
  edgeWeights : List Nat
  directedEdgeCount : Nat
  undirectedEdgeCount : Nat
  deriving DecidableEq

structure WeightedPair where
  left : Nat
  right : Nat
  weight : Nat

def maxGraphDegree : Nat := 512

def sortIds (ids : List Nat) : List Nat := ids.insertionSort (· ≤ ·)

/-- `std::adjacent_find` finds something. -/
def HasRepeat (ids : List Nat) : Prop := ∃ pair ∈ ids.zip ids.tail, pair.1 = pair.2

instance (ids : List Nat) : Decidable (HasRepeat ids) :=
  inferInstanceAs (Decidable (∃ pair ∈ _, _))

def uniqueNeighbors (graph : GraphView) (node : Nat) : Except Error (List Nat) := do
  let neighbors := sortIds (graph.neighbors node)
  reject (HasRepeat neighbors) (.invalidArgument "Base Vamana contains a duplicate directed edge")
  reject (∃ target ∈ neighbors, graph.pointCount ≤ target ∨ target = node)
    (.invalidArgument "Base Vamana contains an invalid directed edge")
  .ok neighbors

/-- The order of pairs of a distance and an ID. -/
def RankedBefore (left right : Single × Nat) : Prop :=
  left.1 < right.1 ∨ ¬ right.1 < left.1 ∧ left.2 ≤ right.2

instance : DecidableRel RankedBefore := fun _ _ => inferInstanceAs (Decidable (_ ∨ _))

def rankTargets (graph : GraphView) (node : Nat) (targets : List Nat) : List (Single × Nat) :=
  (targets.map fun target => (graph.squaredDistance node target, target)).insertionSort RankedBefore

def nearestTargets (graph : GraphView) (count node : Nat) (targets : List Nat) : List Nat :=
  sortIds (((rankTargets graph node targets).take count).map Prod.snd)

def projectedNeighbors (graph : GraphView) (projection : PartitionProjection) (node : Nat) :
    Except Error (List Nat) := do
  let neighbors ← uniqueNeighbors graph node
  let degree ← projectionDegree projection
  if neighbors.length ≤ degree.toNat then .ok neighbors
  else do
    reject (∃ target ∈ neighbors, graph.BadDistance node target)
      (.invalidArgument "Base Vamana projection distance is invalid")
    .ok (nearestTargets graph degree.toNat node neighbors)

def runningOffsets (permit : Nat → Except Error Unit) (context : String) :
    Nat → List Nat → Except Error (List Nat)
  | offset, [] => .ok [offset]
  | offset, count :: counts => do
    let next ← checkedAdd offset count context
    permit next
    let rest ← runningOffsets permit context next counts
    .ok (offset :: rest)

def pairItems (pairs : List WeightedPair) : List (Nat × Nat × Nat) :=
  pairs.flatMap fun pair =>
    [(pair.left, pair.right, pair.weight), (pair.right, pair.left, pair.weight)]

def EdgeBefore (left right : Nat × Nat) : Prop :=
  left.1 < right.1 ∨ left.1 = right.1 ∧ left.2 ≤ right.2

instance : DecidableRel EdgeBefore := fun _ _ => inferInstanceAs (Decidable (_ ∨ _))

/-- Both ends of each pair get the other as a neighbor, and the rows are sorted. -/
def connectPairs (edgeIdLimit : Nat) {size : Nat} (sorting : LoopOrder size)
    (directedEdgeCount : Nat) (pairs : List WeightedPair) : Except Error PartitionGraph := do
  let degrees := countItems size (pairItems pairs)
  let offsets ← runningOffsets
    (fun next => reject (edgeIdLimit < next)
      (.invalidArgument "Community partition adjacency exceeds KaMinPar EdgeID"))
    "partition adjacency" 0 degrees
  let edges := scatter (pairItems pairs) offsets (List.replicate (offsets.getLastD 0) (0, 0))
  let sortRow (node : Nat) (edges : List (Nat × Nat)) : List (Nat × Nat) :=
    let rowBegin := offsets.getD node 0
    let rowEnd := offsets.getD (node + 1) 0
    patch edges rowBegin ((subspan edges rowBegin (rowEnd - rowBegin)).insertionSort EdgeBefore)
  let sorted := parallelFor sorting.val sortRow edges
  .ok
    { offsets
      neighbors := sorted.map Prod.fst
      nodeWeights := List.replicate size 1
      edgeWeights := sorted.map Prod.snd
      directedEdgeCount
      undirectedEdgeCount := pairs.length }

structure ProjectedNode where
  invalid : Nat := 0
  baseDegree : Nat := 0
  targets : List Nat := []

def projectNode (graph : GraphView) (degreeLimit node : Nat) : ProjectedNode :=
  let neighbors := graph.neighbors node
  if neighbors = [] ∨ maxGraphDegree < neighbors.length then { invalid := 1 }
  else
    let ordered := sortIds neighbors
    if (∃ target ∈ ordered, graph.pointCount ≤ target ∨ target = node) ∨ HasRepeat ordered then
      { invalid := 1 }
    else if ∃ target ∈ ordered, graph.BadDistance node target then
      { invalid := 2, baseDegree := neighbors.length }
    else
      { baseDegree := neighbors.length
        targets := nearestTargets graph (min degreeLimit neighbors.length) node ordered }

/-- The loops over the nodes; each is shared by the threads. -/
structure PartitionLoops (size : Nat) where
  projection : LoopOrder size
  pairCounts : LoopOrder size
  pairs : LoopOrder size
  sorting : LoopOrder size

section Rows

variable (rows : List ProjectedNode)

def targetsOf (node : Nat) : List Nat := (rows.getD node {}).targets

/-- The targets with which a node makes a pair: a pair of two arcs is made at the smaller node. -/
def pairTargets (node : Nat) : List Nat :=
  (targetsOf rows node).filter fun target => node < target ∨ node ∉ targetsOf rows target

def makePair (node target : Nat) : WeightedPair :=
  ⟨min node target, max node target, if node ∈ targetsOf rows target then 2 else 1⟩

end Rows

def buildBoundedPartitionGraph (edgeIdLimit : Nat) (graph : GraphView)
    (projection : PartitionProjection) (loops : PartitionLoops graph.pointCount) :
    Except Error PartitionGraph := do
  let degreeLimit ← projectionDegree projection
  let _ ← checkedMultiply graph.pointCount degreeLimit.toNat "bounded projection targets"
  let rows := parallelFor loops.projection.val
    (fun node rows => rows.set node (projectNode graph degreeLimit.toNat node))
    (List.replicate graph.pointCount {})
  match rows.find? fun row => row.invalid ≠ 0 with
  | some row =>
    .error (.invalidArgument (if row.invalid = 2
      then "Base Vamana projection distance is invalid"
      else "Base Vamana contains an invalid or duplicate directed edge"))
  | none => do
    let directedBaseEdgeCount ← scan
      (fun _ degree sum => checkedAdd sum degree "directed Base edges") 0
      (rows.map ProjectedNode.baseDegree) 0
    let pairCounts := parallelFor loops.pairCounts.val
      (fun node counts => counts.set node (pairTargets rows node).length)
      (List.replicate graph.pointCount 0)
    let pairOffsets ← runningOffsets (fun _ => .ok ()) "bounded projection pairs" 0 pairCounts
    let pairs := parallelFor loops.pairs.val
      (fun node pairs => patch pairs (pairOffsets.getD node 0)
        ((pairTargets rows node).map (makePair rows node)))
      (List.replicate (pairOffsets.getLastD 0) ⟨0, 0, 0⟩)
    connectPairs edgeIdLimit loops.sorting directedBaseEdgeCount pairs

def makeUndirectedKey (left right : Nat) : Nat := min left right * 2 ^ 32 + max left right

def keyLeft (key : Nat) : Nat := key / 2 ^ 32

def keyRight (key : Nat) : Nat := key % 2 ^ 32

/-- The keys of a sorted list, each with the number of its copies. -/
def runLengths : List Nat → List (Nat × Nat)
  | [] => []
  | key :: keys =>
    match runLengths keys with
    | [] => [(key, 1)]
    | (first, count) :: runs =>
      if key = first then (first, count + 1) :: runs else (key, 1) :: (first, count) :: runs

def collectKeys (graph : GraphView) (projection : PartitionProjection) (node : Nat)
    (state : List Nat × Nat) : Except Error (List Nat × Nat) := do
  let baseNeighbors ← uniqueNeighbors graph node
  let directedBaseEdgeCount ← checkedAdd state.2 baseNeighbors.length "directed Base edges"
  let neighbors ← projectedNeighbors graph projection node
  .ok (state.1 ++ neighbors.map (makeUndirectedKey node), directedBaseEdgeCount)

def pairOfRun (run : Nat × Nat) : Except Error WeightedPair := do
  reject (run.2 = 0 ∨ 2 < run.2)
    (.logicError "deduplicated Base pair has an invalid reciprocal multiplicity")
  .ok ⟨keyLeft run.1, keyRight run.1, run.2⟩

def buildKeySortedPartitionGraph (edgeIdLimit : Nat) (graph : GraphView)
    (projection : PartitionProjection) : Except Error PartitionGraph := do
  let (undirectedKeys, directedBaseEdgeCount) ← scan (fun _ => collectKeys graph projection) 0
    (List.range graph.pointCount) ([], 0)
  let pairs ← (runLengths (sortIds undirectedKeys)).mapM pairOfRun
  connectPairs edgeIdLimit (.ascending graph.pointCount) directedBaseEdgeCount pairs

/-- `build_partition_graph`. The largest edge number is that of the partitioner. -/
def buildPartitionGraph (edgeIdLimit : Nat) (graph : GraphView)
    (projection : PartitionProjection) (loops : PartitionLoops graph.pointCount) :
    Except Error PartitionGraph := do
  reject (graph.pointCount = 0 ∨ 2 ^ 32 - 1 < graph.pointCount)
    (.invalidArgument "Community partition point count is invalid")
  if projection ≠ .fullReciprocalVamana then
    buildBoundedPartitionGraph edgeIdLimit graph projection loops
  else buildKeySortedPartitionGraph edgeIdLimit graph projection

end SkipCell.Build

import SkipCell.Sidecar.Validate

/-! # The hierarchy of contiguous Cells

The tree over the Cells of every Community that is stored with the index. A range
of Cells is split into nearly equal parts until a part fits into one leaf. Counts
and positions are 32-bit, as in the source.
-/

namespace SkipCell.Build

open Foundation Sidecar

def cellCentroid (index : Index) (cell : Nat) : List Single :=
  (index.directionAxes.drop (cell * index.dimension.toNat)).take index.dimension.toNat

/-- Sums of the weighted centroids, each addition rounded to a `float`. -/
def weightedCentroid (dimension : Nat) (total : Double)
    (weighted : List (Double × List Single)) : List Single :=
  let add (sums : List Single) (term : Double × List Single) : List Single :=
    List.zipWith (fun sum coordinate => sum + (term.1 * coordinate.toDouble).toSingle) sums term.2
  (weighted.foldl add (List.replicate dimension .zero)).map fun sum =>
    (sum.toDouble / total).toSingle

/-- What `build_contiguous_cell_hierarchy` has appended: the records of the nodes,
and the children of each, which are laid out at the end. -/
structure ContiguousState where
  nodes : List CellHierarchyNode := []
  nodeChildren : List (List UInt32) := []
  centroids : List Single := []

/-- Cells from `first` up to `last`. -/
def cellRange (first last : UInt32) : List UInt32 :=
  (List.range' first.toNat (last.toNat - first.toNat)).map UInt32.ofNat

/-- Writes the children of a node once they are known. -/
def ContiguousState.completeNode (state : ContiguousState) (nodeId : UInt32) (childrenAreCells : Bool)
    (children : List UInt32) : ContiguousState :=
  { state with
    nodes := state.nodes.modify nodeId.toNat fun node =>
      { node with childCount := .ofNat children.length, childrenAreCells }
    nodeChildren := state.nodeChildren.set nodeId.toNat children }

/-- The record of a range with its weight, its centroid and its radius. -/
def ContiguousState.openNode (index : Index) (first last : UInt32) (state : ContiguousState) :
    Except Error ContiguousState := do
  let cells ← (cellRange first last).mapM fun cell => element .outOfBounds index.cells cell.toNat
  let descendantCount ← scan (fun _ (cell : Cell) count =>
    checkedAdd count cell.nodeCount.toNat "Contiguous Cell hierarchy descendants") 0 cells 0
  let leafCentroids := (cellRange first last).map fun cell => cellCentroid index cell.toNat
  let weights := cells.map fun cell => Double.ofNat cell.nodeCount.toNat
  let centroid := weightedCentroid index.dimension.toNat (.ofNat descendantCount)
    (weights.zip leafCentroids)
  let radius := leafCentroids.foldl (fun (radius : Single) leafCentroid =>
    radius.maximum (squaredDistance centroid leafCentroid).sqrt.toSingle) .zero
  .ok
    { nodes := state.nodes ++
        [{ nodeId := .ofNat state.nodes.length
           childBegin := 0
           childCount := 0
           descendantNodeCount := .ofNat descendantCount
           radius := radius.nextUp
           childrenAreCells := false }]
      nodeChildren := state.nodeChildren ++ [[]]
      centroids := state.centroids ++ centroid }

/-- The loop over the children of a range, with how many remain. -/
def appendChildren (self : UInt32 → UInt32 → ContiguousState →
      Except Error (UInt32 × ContiguousState)) (last : UInt32) :
    Nat → UInt32 → ContiguousState → Except Error (List UInt32 × ContiguousState)
  | 0, _, state => .ok ([], state)
  | later + 1, childBegin, state => do
    let remaining := last - childBegin
    let remainingChildren := UInt32.ofNat (later + 1)
    let count := (remaining + remainingChildren - 1) / remainingChildren
    let (child, state) ← self childBegin (childBegin + count) state
    let (children, state) ← appendChildren self last later (childBegin + count) state
    .ok (child :: children, state)

/-- The recursive `append_node` of `build_contiguous_cell_hierarchy`; the fuel
bounds its depth. -/
def appendNode (index : Index) :
    Nat → UInt32 → UInt32 → ContiguousState → Except Error (UInt32 × ContiguousState)
  | 0, _, _, _ => .error .endless
  | fuel + 1, first, last, state => do
    reject (last ≤ first ∨ index.cells.length < last.toNat)
      (.logicError "Contiguous Cell hierarchy range is invalid")
    let nodeId := UInt32.ofNat state.nodes.length
    let state ← state.openNode index first last
    let cellCount := last - first
    if cellCount ≤ index.config.cellHierarchyLeafSize then
      .ok (nodeId, state.completeNode nodeId true (cellRange first last))
    else do
      let childCount := min index.config.cellHierarchyBranching.toNat cellCount.toNat
      let (children, state) ← appendChildren (appendNode index fuel) last childCount first state
      .ok (nodeId, state.completeNode nodeId false children)

/-- One turn of the loop over the Communities, with the roots so far. -/
def appendCommunity (index : Index) (community : Nat) (record : Community)
    (outcome : List UInt32 × ContiguousState) : Except Error (List UInt32 × ContiguousState) :=
  if record.cellCount = 0 then .ok outcome
  else do
    let cellEnd := record.cellBegin + record.cellCount.toUInt64
    reject (index.cells.length < cellEnd.toNat ∨ 2 ^ 32 - 1 < cellEnd.toNat)
      (.logicError "Community Cell range cannot be represented in its hierarchy")
    let (root, state) ← appendNode index (index.cells.length + 1) record.cellBegin.toUInt32
      cellEnd.toUInt32 outcome.2
    .ok (outcome.1.set community root, state)

/-- One turn of the loop that lays out the children, in the order of the nodes. -/
def layOutChildren (entry : CellHierarchyNode × List UInt32)
    (outcome : List CellHierarchyNode × List UInt32) : List CellHierarchyNode × List UInt32 :=
  (outcome.1 ++ [{ entry.1 with childBegin := .ofNat outcome.2.length }], outcome.2 ++ entry.2)

/-- `build_contiguous_cell_hierarchy`. -/
def buildContiguousCellHierarchy (index : Index) : Except Error Index := do
  let (roots, state) ← scan32 (appendCommunity index) index.communities
    (index.communities.map fun _ => .ofNat invalidId, {})
  let (nodes, children) ← scan32 (fun _ entry outcome => .ok (layOutChildren entry outcome))
    (state.nodes.zip state.nodeChildren) ([], [])
  .ok { index with
    cellHierarchyNodes := nodes
    cellHierarchyRoots := roots
    cellHierarchyChildren := children
    cellHierarchyCentroids := state.centroids }

end SkipCell.Build

import SkipCell.Build.CellHierarchy

/-! # The hierarchy built at load time

An index without a stored hierarchy gets one when it is searched. With
`cell_hierarchy_preserve_leaf_order` the Cells of a node are split in their order;
children are appended when their node is complete.
-/

namespace SkipCell.Search

open Foundation Sidecar Build

/-- The fields of `community_polar_search_config_t` that shape the hierarchy. -/
structure CellHierarchyConfig where
  cellHierarchyBranching : UInt32 := 8
  cellHierarchyLeafSize : UInt32 := 16

/-- The members of `community_polar_search_t` that `build_cell_hierarchy` fills. -/
structure RuntimeHierarchy where
  cellHierarchyNodes : List CellHierarchyNode := []
  cellHierarchyChildren : List UInt32 := []
  cellHierarchyCentroids : List Single := []

/-- Writes the children of a node once they are known. -/
def RuntimeHierarchy.completeNode (state : RuntimeHierarchy) (nodeId : UInt32)
    (childrenAreCells : Bool) (children : List UInt32) : RuntimeHierarchy :=
  { state with
    cellHierarchyNodes := state.cellHierarchyNodes.modify nodeId.toNat fun node =>
      { node with
        childBegin := .ofNat state.cellHierarchyChildren.length
        childCount := .ofNat children.length
        childrenAreCells }
    cellHierarchyChildren := state.cellHierarchyChildren ++ children }

/-- The record of a list of Cells with its centroid and its radius. -/
def RuntimeHierarchy.openNode (index : Index) (cells : List UInt32) (state : RuntimeHierarchy) :
    Except Error RuntimeHierarchy := do
  let records ← cells.mapM fun cell => element .outOfBounds index.cells cell.toNat
  let weights := records.map fun cell => Double.ofNat cell.nodeCount.toNat
  let totalWeight := weights.foldl (· + ·) ⟨0⟩
  let leafCentroids := cells.map fun cell => cellCentroid index cell.toNat
  let completedCentroid := weightedCentroid index.dimension.toNat totalWeight
    (weights.zip leafCentroids)
  let radius := leafCentroids.foldl (fun (radius : Single) leafCentroid =>
    radius.maximum (squaredDistance leafCentroid completedCentroid).toSingle.sqrt) .zero
  .ok
    { state with
      cellHierarchyNodes := state.cellHierarchyNodes ++
        [{ nodeId := .ofNat state.cellHierarchyNodes.length
           childBegin := 0
           childCount := 0
           descendantNodeCount := 0
           radius := radius.nextUp
           childrenAreCells := false }]
      cellHierarchyCentroids := state.cellHierarchyCentroids ++ completedCentroid }

/-- The loop over the clusters of a node, with the Cells and the clusters that remain. -/
def appendClusters (self : List UInt32 → RuntimeHierarchy →
      Except Error (UInt32 × RuntimeHierarchy)) :
    Nat → List UInt32 → RuntimeHierarchy → Except Error (List UInt32 × RuntimeHierarchy)
  | 0, _, state => .ok ([], state)
  | later + 1, cells, state => do
    let count := (cells.length + (later + 1) - 1) / (later + 1)
    let (child, state) ← self (cells.take count) state
    let (children, state) ← appendClusters self later (cells.drop count) state
    .ok (child :: children, state)

/-- The recursive `append_node` of `build_cell_hierarchy`; the fuel bounds its depth. -/
def appendCells (index : Index) (config : CellHierarchyConfig) :
    Nat → List UInt32 → RuntimeHierarchy → Except Error (UInt32 × RuntimeHierarchy)
  | 0, _, _ => .error .endless
  | fuel + 1, cells, state => do
    reject (cells = []) (.logicError "Hierarchical Cell node cannot be empty")
    let cells := cells.insertionSort (· ≤ ·)
    let nodeId := UInt32.ofNat state.cellHierarchyNodes.length
    let state ← state.openNode index cells
    if cells.length ≤ config.cellHierarchyLeafSize.toNat then
      .ok (nodeId, state.completeNode nodeId true cells)
    else do
      let clusterCount := min config.cellHierarchyBranching.toNat cells.length
      let (children, state) ←
        appendClusters (appendCells index config fuel) clusterCount cells state
      .ok (nodeId, state.completeNode nodeId false children)

/-- One turn of the loop over the Communities, with the roots so far. -/
def appendCommunityCells (index : Index) (config : CellHierarchyConfig) (community : Nat)
    (record : Community) (outcome : List UInt32 × RuntimeHierarchy) :
    Except Error (List UInt32 × RuntimeHierarchy) :=
  if record.cellCount = 0 then .ok outcome
  else do
    let cells := (List.range' record.cellBegin.toNat record.cellCount.toNat).map UInt32.ofNat
    let (root, state) ← appendCells index config (index.cells.length + 1) cells outcome.2
    .ok (outcome.1.set community root, state)

/-- `build_cell_hierarchy` with `cell_hierarchy_preserve_leaf_order`: the roots of the
Communities and their trees. -/
def buildCellHierarchy (index : Index) (config : CellHierarchyConfig) :
    Except Error (List UInt32 × RuntimeHierarchy) :=
  let communityHierarchyRoots := index.communities.map fun _ => UInt32.ofNat invalidId
  if index.cellHierarchyNodes.isEmpty then
    scan32 (appendCommunityCells index config) index.communities (communityHierarchyRoots, {})
  else .ok (communityHierarchyRoots, {})

end SkipCell.Search

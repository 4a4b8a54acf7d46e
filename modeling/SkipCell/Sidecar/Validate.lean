import SkipCell.Foundation.ByteCodec
import SkipCell.Foundation.Tiling
import SkipCell.Sidecar.Index

/-! # The validator of loaded indexes

`validate_loaded_index` and `validate_cell_hierarchy`, loop by loop. A loop over
an array is a `scan` with the running values that the source keeps beside it. The
owner arrays of the source, such as `cell_to_sector`, are lists that are filled
range by range.
-/

namespace SkipCell.Sidecar

open Foundation

/-- `UINT32_MAX`, for no owner. -/
def invalidId : Nat := 2 ^ 32 - 1

/-- `k_pole_sector_id` and `k_invalid_axis_index`. -/
def kPoleSectorId : UInt32 := 2 ^ 32 - 1

def kInvalidAxisIndex : UInt64 := 2 ^ 64 - 1

/-- The float nearest to 1.0e-4, by which angles may exceed their bound. -/
def angleTolerance : Single := ⟨0x38D1B717⟩

/-- `std::numbers::pi_v<float>`. -/
def pi : Single := ⟨0x40490FDB⟩

/-- A subspan, which the source takes unchecked. -/
def slice {α : Type} (values : List α) (first count : Nat) : Except Error (List α) :=
  if first + count ≤ values.length then .ok ((values.drop first).take count)
  else .error .outOfBounds

/-- The packet records are a node id and its PQ code. -/
def Index.recordBytes (index : Index) : Nat := 4 + index.pqCodeWidth.toNat

def Index.cellNodes (index : Index) (cell : Nat) : Nat :=
  (index.cells[cell]?.map fun record => record.nodeCount.toNat).getD 0

structure VisitState where
  nodeState : List Nat
  parentCount : List Nat
  cellSeen : List Bool

/-- A visit returns the nodes and the Cells below. -/
structure Descendants where
  count : Nat := 0
  cells : List Nat := []

def squaredDistance (center leafCenter : List Single) : Double :=
  (center.zip leafCenter).foldl
    (fun sum pair =>
      let difference := pair.1.toDouble - pair.2.toDouble
      sum + difference * difference)
    .zero

/-- The larger of the doubles 1.0e-4 and `radius` times 1.0e-5. -/
def radiusTolerance (radius : Single) : Double :=
  let scaled := radius.toDouble * ⟨0x3EE4F8B588E368F1⟩
  if (⟨0x3F1A36E2EB1C432D⟩ : Double) < scaled then scaled else ⟨0x3F1A36E2EB1C432D⟩

/-- The Cells below a node lie within its radius. -/
def checkRadius (index : Index) (nodeId : Nat) (radius : Single) :
    List Nat → Except Error Unit
  | [] => .ok ()
  | cell :: cells => do
    let dimension := index.dimension.toNat
    let center ← slice index.cellHierarchyCentroids (nodeId * dimension) dimension
    let leafCenter ← slice index.directionAxes (cell * dimension) dimension
    reject (radius.toDouble + radiusTolerance radius < (squaredDistance center leafCenter).sqrt)
      (.runtimeError "Community-Polar Cell hierarchy radius is not conservative")
    checkRadius index nodeId radius cells

def visitCell (index : Index) (community child : Nat) (state : VisitState)
    (below : Descendants) : Except Error (VisitState × Descendants) :=
  match index.cells[child]? with
  | none => .error (.runtimeError "Community-Polar Cell hierarchy leaf is invalid")
  | some cell => do
    reject (state.cellSeen[child]? ≠ some false ∨ cell.communityId.toNat ≠ community)
      (.runtimeError "Community-Polar Cell hierarchy leaf is invalid")
    let count ← checkedAdd below.count cell.nodeCount.toNat "Cell hierarchy descendant nodes"
    .ok ({ state with cellSeen := state.cellSeen.set child true }, ⟨count, below.cells ++ [child]⟩)

/-- Counts a reference to a node, which must be the first. -/
def addParent (state : VisitState) (child : Nat) (failure : Error) : Except Error VisitState :=
  match state.parentCount[child]? with
  | none => .error failure
  | some parents => do
    reject (parents + 1 ≠ 1) failure
    .ok { state with parentCount := state.parentCount.set child (parents + 1) }

def visitChild (index : Index) (self : Nat → VisitState → Except Error (VisitState × Descendants))
    (community : Nat) (childrenAreCells : Bool) (offset : Nat)
    (outcome : VisitState × Descendants) : Except Error (VisitState × Descendants) := do
  let (state, below) := outcome
  let child ← element .outOfBounds index.cellHierarchyChildren offset
  if childrenAreCells then
    visitCell index community child.toNat state below
  else
    let state ← addParent state child.toNat
      (.runtimeError "Community-Polar Cell hierarchy internal edge is invalid")
    let (state, found) ← self child.toNat state
    let count ← checkedAdd below.count found.count "Cell hierarchy descendant nodes"
    .ok (state, ⟨count, below.cells ++ found.cells⟩)

/-- The offsets of a node's children. The end of the range is a sum of two
`uint32_t`, so that a range that passes `2 ^ 32` is empty. -/
def CellHierarchyNode.childOffsets (node : CellHierarchyNode) : List Nat :=
  List.range' node.childBegin.toNat
    ((node.childBegin + node.childCount).toNat - node.childBegin.toNat)

/-- The recursive `visit` of the source; the fuel bounds its depth. -/
def visit (index : Index) (community : Nat) :
    Nat → Nat → VisitState → Except Error (VisitState × Descendants)
  | 0, _, _ => .error .endless
  | fuel + 1, nodeId, state => do
    reject (state.nodeState[nodeId]? ≠ some 0)
      (.runtimeError "Community-Polar Cell hierarchy contains a cycle or duplicate node")
    let node ← element .outOfBounds index.cellHierarchyNodes nodeId
    let (state, below) ← scan
      (fun _ offset outcome =>
        visitChild index (fun child state => visit index community fuel child state) community
          node.childrenAreCells offset outcome)
      0 node.childOffsets ({ state with nodeState := state.nodeState.set nodeId 1 }, {})
    reject (below.count ≠ node.descendantNodeCount.toNat)
      (.runtimeError "Community-Polar Cell hierarchy descendant count is invalid")
    checkRadius index nodeId node.radius below.cells
    .ok ({ state with nodeState := state.nodeState.set nodeId 2 }, below)

/-- The child ranges follow one another, and the radii and centroids are finite. -/
def checkHierarchyNode (index : Index) (nodeId : Nat) (node : CellHierarchyNode)
    (expectedChild : Nat) : Except Error Nat := do
  let invalid := .runtimeError "Community-Polar Cell hierarchy node is invalid"
  reject (node.nodeId.toNat ≠ nodeId ∨ node.childCount = 0 ∨
    node.childBegin.toNat ≠ expectedChild) invalid
  let childEnd ← checkedAdd node.childBegin.toNat node.childCount.toNat
    "Cell hierarchy child range"
  reject (index.cellHierarchyChildren.length < childEnd ∨ node.descendantNodeCount = 0 ∨
    node.radius.isFinite = false ∨ node.radius < .zero) invalid
  let nextChild ← checkedAdd expectedChild node.childCount.toNat "Cell hierarchy children"
  let centroid ← slice index.cellHierarchyCentroids (nodeId * index.dimension.toNat)
    index.dimension.toNat
  reject (∃ value ∈ centroid, Single.isFinite value = false)
    (.runtimeError "Community-Polar Cell hierarchy centroid is invalid")
  .ok nextChild

/-- Visits the tree of a Community that owns Cells. -/
def visitRoot (index : Index) (community : Nat) (record : Community) (state : VisitState) :
    Except Error VisitState := do
  let root ← element .outOfBounds index.cellHierarchyRoots community
  if record.cellCount = 0 then
    reject (root.toNat ≠ invalidId)
      (.runtimeError "Community-Polar empty Community has a Cell hierarchy root")
    .ok state
  else
    let state ← addParent state root.toNat
      (.runtimeError "Community-Polar Cell hierarchy root is invalid")
    let (state, below) ← visit index community (index.cellHierarchyNodes.length + 1) root.toNat state
    reject (below.count ≠ index.pointCount.toNat ∧ below.count ≠ record.nodeCount.toNat)
      (.runtimeError "Community-Polar Cell hierarchy root coverage is invalid")
    .ok state

def CellPartition.hasHierarchy (partition : CellPartition) : Prop :=
  partition = .globalGeometric ∨ partition = .globalGraphLocal ∨ partition = .graphLocal ∨
    partition = .convergenceCoaccess

instance (partition : CellPartition) : Decidable partition.hasHierarchy :=
  inferInstanceAs (Decidable (_ ∨ _))

def validateCellHierarchy (index : Index) : Except Error Unit :=
  if index.cellHierarchyNodes = [] ∧ index.cellHierarchyRoots = [] ∧
      index.cellHierarchyChildren = [] ∧ index.cellHierarchyCentroids = [] then
    .ok ()
  else do
    let incomplete := .runtimeError "Community-Polar Cell hierarchy metadata is incomplete"
    reject (index.cellHierarchyNodes = [] ∨ index.cellHierarchyRoots = [] ∨
      index.cellHierarchyChildren = [] ∨ index.cellHierarchyCentroids = [] ∨
      ¬ index.config.cellPartition.hasHierarchy ∨
      index.cellHierarchyRoots.length ≠ index.communities.length) incomplete
    let centroids ← checkedMultiply index.cellHierarchyNodes.length index.dimension.toNat
      "Cell hierarchy centroids"
    reject (index.cellHierarchyCentroids.length ≠ centroids) incomplete
    let children ← scan32 (checkHierarchyNode index) index.cellHierarchyNodes 0
    reject (children ≠ index.cellHierarchyChildren.length)
      (.runtimeError "Community-Polar Cell hierarchy child ranges are incomplete")
    let state ← scan32 (visitRoot index) index.communities
      ⟨index.cellHierarchyNodes.map fun _ => 0, index.cellHierarchyNodes.map fun _ => 0,
        index.cells.map fun _ => false⟩
    reject (0 ∈ state.nodeState ∨ false ∈ state.cellSeen ∨ 0 ∈ state.parentCount)
      (.runtimeError "Community-Polar Cell hierarchy does not cover its nodes and Cells")

def checkVectorBytes (index : Index) : Except Error Unit :=
  if index.config.adaptiveMultiCapacity then do
    let vectorBytes ← checkedMultiply index.dimension.toNat 4 "Adaptive vector bytes"
    reject (index.config.adaptiveVectorBytes.toNat ≠ vectorBytes)
      (.runtimeError "Adaptive policy vector bytes disagree with the Base dimension")
  else .ok ()

def checkCentroids (index : Index) : Except Error Unit :=
  if index.config.cellPartition ≠ .polarRadial then do
    let centroids ← checkedMultiply index.cells.length index.dimension.toNat "Cell centroids"
    reject (index.directionAxes.length ≠ centroids)
      (.runtimeError "Community-Polar Cell centroids are invalid")
  else .ok ()

/-- The sizes and totals of the arrays, and the offsets of the Community edges. -/
def checkGlobals (index : Index) : Except Error Unit := do
  checkVectorBytes index
  let inconsistent := .runtimeError "Community-Polar sidecar has inconsistent global metadata"
  reject (index.pointCount = 0 ∨ index.dimension = 0 ∨ index.pqCodeWidth = 0 ∨
    index.pointCount.toNat ≤ index.entryPointId.toNat ∨
    index.communities.length ≠ index.config.communityCount.toNat ∨
    index.nodeToCommunity.length ≠ index.pointCount.toNat ∨
    index.nodeToCell.length ≠ index.pointCount.toNat ∨
    index.nodeToPacketRecord.length ≠ index.pointCount.toNat) inconsistent
  let poles ← checkedMultiply index.communities.length index.dimension.toNat "Community poles"
  reject (index.communityPoles.length ≠ poles ∨
    index.communityEdgeOffsets.length ≠ index.communities.length + 1) inconsistent
  reject (index.communityEdgeOffsets.head? ≠ some 0 ∨
      index.communityEdgeOffsets.getLast?.map UInt64.toNat ≠ some index.communityEdges.length ∨
      ¬ index.communityEdgeOffsets.IsChain (· ≤ ·))
    (.runtimeError "Community-Polar Community CSR offsets are invalid")
  let packetBytes ← checkedMultiply index.pointCount.toNat index.recordBytes
    "Community-Polar packet bytes"
  reject (packetBytes ≠ index.packetPayload.length)
    (.runtimeError "Community-Polar packet payload has an invalid length")
  reject (index.directionAxes.length % index.dimension.toNat ≠ 0)
    (.runtimeError "Community-Polar direction axes have an invalid length")
  checkCentroids index

/-- How many nodes each Community has, and the least of them. -/
structure Membership where
  members : List Nat
  minimum : List Nat

def countMember (index : Index) (node : Nat) (owners : UInt32 × UInt32) (state : Membership) :
    Except Error Membership := do
  let (community, cell) := owners
  reject (index.communities.length ≤ community.toNat ∨ index.cells.length ≤ cell.toNat)
    (.runtimeError "Community-Polar node membership is invalid")
  .ok ⟨state.members.modify community.toNat (· + 1),
    state.minimum.modify community.toNat (min · node)⟩

def checkCommunity (index : Index) (state : Membership) (community : Nat) (record : Community)
    (expected : Nat × Nat) : Except Error (Nat × Nat) := do
  let (expectedSector, expectedCell) := expected
  let invalid := .runtimeError "Community-Polar Community record is invalid"
  reject (record.communityId.toNat ≠ community ∨ record.nodeCount = 0 ∨
    state.members[community]? ≠ some record.nodeCount.toNat ∨
    state.minimum[community]? ≠ some record.minimumNodeId.toNat ∨
    index.pointCount.toNat ≤ record.navigationHubId.toNat ∨
    index.nodeToCommunity[record.minimumNodeId.toNat]?.map UInt32.toNat ≠ some community ∨
    index.nodeToCommunity[record.navigationHubId.toNat]?.map UInt32.toNat ≠ some community) invalid
  let packetBytes ← checkedMultiply record.nodeCount.toNat index.recordBytes
    "Community packet bytes"
  reject (record.packetBytes.toNat ≠ packetBytes ∨ record.sectorBegin.toNat ≠ expectedSector ∨
    record.cellBegin.toNat ≠ expectedCell) invalid
  let sectorEnd ← checkedAdd record.sectorBegin.toNat record.sectorCount.toNat
    "Community Sector range"
  reject (index.sectors.length < sectorEnd) invalid
  let cellEnd ← checkedAdd record.cellBegin.toNat record.cellCount.toNat "Community Cell range"
  reject (index.cells.length < cellEnd ∨ record.radius.isFinite = false ∨ record.radius < .zero)
    invalid
  let expectedSector ← checkedAdd expectedSector record.sectorCount.toNat "Community Sectors"
  let expectedCell ← checkedAdd expectedCell record.cellCount.toNat "Community Cells"
  .ok (expectedSector, expectedCell)

/-- `sector_to_community` and `cell_to_community`. -/
def communityOwners (index : Index) : List Nat × List Nat :=
  index.communities.zipIdx.foldl
    (fun owners (record, community) =>
      (fillRange owners.1 record.sectorBegin.toNat record.sectorCount.toNat community,
        fillRange owners.2 record.cellBegin.toNat record.cellCount.toNat community))
    (index.sectors.map fun _ => invalidId, index.cells.map fun _ => invalidId)

def checkGateway (index : Index) (record : Edge) (gatewayId : Nat) (targets : List Nat) :
    Except Error (List Nat) := do
  let gateway ← element .outOfBounds index.gateways gatewayId
  let source := gateway.sourceNode.toNat
  let target := gateway.targetNode.toNat
  reject (index.pointCount.toNat ≤ source ∨ index.pointCount.toNat ≤ target ∨
      index.nodeToCommunity[source]? ≠ some record.sourceCommunity ∨
      index.nodeToCommunity[target]? ≠ some record.targetCommunity ∨
      index.nodeToPacketRecord[target]? ≠ some gateway.packetRecordIndex)
    (.runtimeError "Community-Polar Gateway record is invalid")
  .ok (targets ++ [target])

/-- Checks one edge and its Gateways. The state holds the next Gateway and the
previous target of the same source. -/
def checkEdge (index : Index) (source edgeId : Nat) (state : Nat × Option Nat) :
    Except Error (Nat × Option Nat) := do
  let (expectedGateway, previousTarget) := state
  let record ← element .outOfBounds index.communityEdges edgeId
  let invalid := .runtimeError "Community-Polar Community edge is invalid"
  reject (record.sourceCommunity.toNat ≠ source ∨
    index.communities.length ≤ record.targetCommunity.toNat ∨
    record.sourceCommunity = record.targetCommunity ∨ record.directedCrossEdgeCount = 0 ∨
    record.gatewayCount = 0 ∨ index.config.gatewayCount < record.gatewayCount ∨
    record.gatewayBegin.toNat ≠ expectedGateway) invalid
  let gatewayEnd ← checkedAdd record.gatewayBegin.toNat record.gatewayCount.toNat "Gateway range"
  reject (index.gateways.length < gatewayEnd ∨
    (∃ previous ∈ previousTarget, record.targetCommunity.toNat ≤ previous)) invalid
  let targets ← scan (fun _ gatewayId targets => checkGateway index record gatewayId targets) 0
    (List.range' record.gatewayBegin.toNat record.gatewayCount.toNat) []
  reject (¬ (targets.insertionSort (· ≤ ·)).IsChain (· ≠ ·))
    (.runtimeError "Community-Polar Gateway targets are not unique")
  let expectedGateway ← checkedAdd expectedGateway record.gatewayCount.toNat "Gateways"
  .ok (expectedGateway, some record.targetCommunity.toNat)

def checkSourceEdges (index : Index) (source : Nat) (expectedGateway : Nat) :
    Except Error Nat := do
  let first ← element .outOfBounds index.communityEdgeOffsets source
  let last ← element .outOfBounds index.communityEdgeOffsets (source + 1)
  let (expectedGateway, _) ← scan (fun _ edgeId state => checkEdge index source edgeId state) 0
    (List.range' first.toNat (last.toNat - first.toNat)) (expectedGateway, none)
  .ok expectedGateway

/-- `cell_to_sector` and the running Cell cursor. -/
structure Cursor where
  owners : List Nat
  next : Nat := 0
  members : List Nat := []

def checkSector (index : Index) (sectorToCommunity : List Nat) (sectorId : Nat) (record : Sector)
    (cursor : Cursor) : Except Error Cursor := do
  let invalid := .runtimeError "Community-Polar Sector record is invalid"
  reject (sectorToCommunity[sectorId]? ≠ some record.communityId.toNat ∨ record.nodeCount = 0 ∨
    record.cellCount = 0 ∨ record.cellBegin.toNat ≠ cursor.next) invalid
  let cellEnd ← checkedAdd record.cellBegin.toNat record.cellCount.toNat "Sector Cell range"
  reject (index.cells.length < cellEnd ∨
    record.minimumRadius.isFinite = false ∨ record.maximumRadius.isFinite = false ∨
    record.maximumAngle.isFinite = false ∨ record.minimumRadius < .zero ∨
    record.maximumRadius < record.minimumRadius ∨ record.maximumAngle < .zero ∨
    pi + angleTolerance < record.maximumAngle ∨
    record.sectorId = kPoleSectorId ∧ record.axisIndex ≠ kInvalidAxisIndex ∨
    record.sectorId ≠ kPoleSectorId ∧
      (index.config.polarDirectionCount ≤ record.sectorId ∨
        index.directionAxes.length / index.dimension.toNat ≤ record.axisIndex.toNat)) invalid
  let next ← checkedAdd cursor.next record.cellCount.toNat "Sector Cells"
  .ok { cursor with
    owners := fillRange cursor.owners record.cellBegin.toNat record.cellCount.toNat sectorId
    next := next }

/-- Adds to the count of a Sector or a Cell, which the caller has found in range. -/
def addMembers (members : List Nat) (owner count : Nat) (context : String) :
    Except Error (List Nat) := do
  let current ← element .outOfBounds members owner
  let next ← checkedAdd current count context
  .ok (members.set owner next)

def checkCell (index : Index) (cellToCommunity cellToSector : List Nat) (cell : Nat)
    (record : Cell) (cursor : Cursor) : Except Error Cursor := do
  let sectorId ← element .outOfBounds cellToSector cell
  let sector ← element .outOfBounds index.sectors sectorId
  let invalid := .runtimeError "Community-Polar Cell record is invalid"
  reject (record.cellId.toNat ≠ cell ∨
    cellToCommunity[cell]? ≠ some record.communityId.toNat ∨
    record.communityId ≠ sector.communityId ∨ record.sectorId ≠ sector.sectorId ∨
    record.nodeCount = 0 ∨
    (if index.config.adaptiveMultiCapacity then ¬ isAdaptiveCapacityClass record.capacityClass
      else record.capacityClass ≠ index.config.cellTargetSize) ∨
    record.capacityClass.toNat < record.nodeCount.toNat ∨ record.blockCount = 0 ∨
    record.blockBegin.toNat ≠ cursor.next) invalid
  let blockEnd ← checkedAdd record.blockBegin.toNat record.blockCount.toNat "Cell Block range"
  reject (index.blocks.length < blockEnd ∨
    record.minimumRadius.isFinite = false ∨ record.maximumRadius.isFinite = false ∨
    record.maximumAngle.isFinite = false ∨ record.minimumRadius < .zero ∨
    record.maximumRadius < record.minimumRadius ∨ record.maximumAngle < .zero ∨
    sector.maximumAngle + angleTolerance < record.maximumAngle) invalid
  let members ← addMembers cursor.members sectorId record.nodeCount.toNat "Sector members"
  let next ← checkedAdd cursor.next record.blockCount.toNat "Cell Blocks"
  .ok { owners := fillRange cursor.owners record.blockBegin.toNat record.blockCount.toNat cell
        next := next, members := members }

def checkBlock (index : Index) (blockToCell : List Nat) (block : Nat) (record : Block)
    (cursor : Cursor) : Except Error Cursor := do
  let cellId ← element .outOfBounds blockToCell block
  let cell ← element .outOfBounds index.cells cellId
  let invalid := .runtimeError "Community-Polar Block record is invalid"
  reject (record.blockId.toNat ≠ block ∨ record.cellId ≠ cell.cellId ∨ record.nodeCount = 0 ∨
    index.config.blockTargetSize < record.nodeCount ∨
    record.packetRecordBegin.toNat ≠ cursor.next) invalid
  let packetEnd ← checkedAdd record.packetRecordBegin.toNat record.nodeCount.toNat
    "Block packet range"
  reject (index.pointCount.toNat < packetEnd ∨
    record.minimumRadius.isFinite = false ∨ record.maximumRadius.isFinite = false ∨
    record.maximumAngle.isFinite = false ∨ record.minimumRadius < cell.minimumRadius ∨
    record.maximumRadius < record.minimumRadius ∨ cell.maximumRadius < record.maximumRadius ∨
    record.maximumAngle < .zero ∨ cell.maximumAngle + angleTolerance < record.maximumAngle ∨
    record.maximumPqReconstructionError.isFinite = false ∨
    record.maximumPqReconstructionError < .zero) invalid
  let members ← addMembers cursor.members record.cellId.toNat record.nodeCount.toNat "Cell members"
  let next ← checkedAdd cursor.next record.nodeCount.toNat "Block packets"
  .ok { owners := fillRange cursor.owners record.packetRecordBegin.toNat record.nodeCount.toNat
          record.cellId.toNat
        next := next, members := members }

def Index.packetNode (index : Index) (packet : Nat) : Except Error Nat := do
  let offset ← checkedMultiply packet index.recordBytes "packet offset"
  reject (index.packetPayload.length < offset + 4)
    (.runtimeError "Community-Polar sidecar is truncated")
  .ok (decodeLittle ((index.packetPayload.drop offset).take 4))

def checkPacket (index : Index) (packetToCell : List Nat) (packet : Nat) (seen : List Bool) :
    Except Error (List Bool) := do
  let node ← index.packetNode packet
  let cellId ← element .outOfBounds packetToCell packet
  let cell ← element .outOfBounds index.cells cellId
  reject (index.pointCount.toNat ≤ node ∨ seen[node]? ≠ some false ∨
      index.nodeToPacketRecord[node]?.map UInt64.toNat ≠ some packet ∨
      index.nodeToCell[node]?.map UInt32.toNat ≠ some cellId ∨
      ¬ index.config.cellPartition.isGlobal ∧
        index.nodeToCommunity[node]? ≠ some cell.communityId)
    (.runtimeError "Community-Polar packet node mapping is invalid")
  .ok (seen.set node true)

def validateLoadedIndex (index : Index) : Except Error Unit := do
  validateBuildConfig index.config
  checkGlobals index
  let membership ← scan32 (countMember index) (index.nodeToCommunity.zip index.nodeToCell)
    ⟨index.communities.map fun _ => 0, index.communities.map fun _ => invalidId⟩
  let (sectors, cells) ← scan (checkCommunity index membership) 0 index.communities (0, 0)
  reject (sectors ≠ index.sectors.length ∨ cells ≠ index.cells.length)
    (.runtimeError "Community-Polar Community ranges are incomplete")
  let (sectorToCommunity, cellToCommunity) := communityOwners index
  let gateways ← scan (fun source (_ : Community) next => checkSourceEdges index source next) 0
    index.communities 0
  reject (gateways ≠ index.gateways.length)
    (.runtimeError "Community-Polar Gateway ranges are incomplete")
  let cellCursor ← scan32 (checkSector index sectorToCommunity) index.sectors
    { owners := index.cells.map fun _ => invalidId }
  reject (cellCursor.next ≠ index.cells.length)
    (.runtimeError "Community-Polar Sector ranges are incomplete")
  let blockCursor ← scan32 (checkCell index cellToCommunity cellCursor.owners) index.cells
    { owners := index.blocks.map fun _ => invalidId, members := index.sectors.map fun _ => 0 }
  reject (blockCursor.next ≠ index.blocks.length)
    (.runtimeError "Community-Polar Cell ranges are incomplete")
  let packetCursor ← scan32 (checkBlock index blockCursor.owners) index.blocks
    { owners := List.replicate index.pointCount.toNat invalidId
      members := index.cells.map fun _ => 0 }
  reject (packetCursor.next ≠ index.pointCount.toNat)
    (.runtimeError "Community-Polar Block ranges are incomplete")
  reject (blockCursor.members ≠ index.sectors.map fun sector => sector.nodeCount.toNat)
    (.runtimeError "Community-Polar Sector membership count is invalid")
  reject (packetCursor.members ≠ index.cells.map fun cell => cell.nodeCount.toNat)
    (.runtimeError "Community-Polar Cell membership count is invalid")
  reject (index.config.adaptiveMultiCapacity = true ∧
      (index.cellHierarchyNodes = [] ∨ index.cellHierarchyRoots = [] ∨
        index.cellHierarchyChildren = [] ∨ index.cellHierarchyCentroids = []))
    (.runtimeError "Adaptive multi-capacity Cells require a persisted hierarchy")
  validateCellHierarchy index
  let _ ← scan (fun _ packet seen => checkPacket index packetCursor.owners packet seen) 0
    (List.range index.pointCount.toNat) (List.replicate index.pointCount.toNat false)
  .ok ()

/-- The loops of an accepted index, with the values that one hands to the next. -/
structure Accepted (index : Index) where
  membership : Membership
  cellCursor : Cursor
  blockCursor : Cursor
  packetCursor : Cursor
  seen : List Bool
  config : validateBuildConfig index.config = .ok ()
  globals : checkGlobals index = .ok ()
  members : scan (countMember index) 0 (index.nodeToCommunity.zip index.nodeToCell)
    ⟨index.communities.map fun _ => 0, index.communities.map fun _ => invalidId⟩ = .ok membership
  communities : scan (checkCommunity index membership) 0 index.communities (0, 0) =
    .ok (index.sectors.length, index.cells.length)
  edges : scan (fun source (_ : Community) next => checkSourceEdges index source next) 0
    index.communities 0 = .ok index.gateways.length
  sectors : scan (checkSector index (communityOwners index).1) 0 index.sectors
    { owners := index.cells.map fun _ => invalidId } = .ok cellCursor
  sectorsEnd : cellCursor.next = index.cells.length
  cells : scan (checkCell index (communityOwners index).2 cellCursor.owners) 0 index.cells
    { owners := index.blocks.map fun _ => invalidId, members := index.sectors.map fun _ => 0 } =
      .ok blockCursor
  cellsEnd : blockCursor.next = index.blocks.length
  blocks : scan (checkBlock index blockCursor.owners) 0 index.blocks
    { owners := List.replicate index.pointCount.toNat invalidId
      members := index.cells.map fun _ => 0 } = .ok packetCursor
  blocksEnd : packetCursor.next = index.pointCount.toNat
  sectorMembers : blockCursor.members = index.sectors.map fun sector => sector.nodeCount.toNat
  cellMembers : packetCursor.members = index.cells.map fun cell => cell.nodeCount.toNat
  hierarchy : validateCellHierarchy index = .ok ()
  packets : scan (fun _ packet seen => checkPacket index packetCursor.owners packet seen) 0
    (List.range index.pointCount.toNat) (List.replicate index.pointCount.toNat false) = .ok seen

theorem accepted_of_valid {index : Index} (hvalid : validateLoadedIndex index = .ok ()) :
    Nonempty (Accepted index) := by
  simp only [validateLoadedIndex, bind_ok, reject_ok, scanCounted_eq_ok] at hvalid
  obtain ⟨_, hconfig, _, hglobals, membership, ⟨-, hmembers⟩, ⟨sectors, cells⟩, hcommunities,
    _, hranges, gateways, hedges, _, hgateways, cellCursor, ⟨-, hsectors⟩, _, hcellEnd,
    blockCursor, ⟨-, hcells⟩, _, hblockEnd, packetCursor, ⟨-, hblocks⟩, _, hpacketEnd, _,
    hsectorMembers, _, hcellMembers, _, -, _, hhierarchy, seen, hpackets, -⟩ := hvalid
  simp only [not_or, not_not] at hranges hgateways hcellEnd hblockEnd hpacketEnd
  obtain ⟨rfl, rfl⟩ := hranges
  obtain rfl := hgateways
  exact ⟨⟨membership, cellCursor, blockCursor, packetCursor, seen, hconfig, hglobals,
    hmembers, hcommunities, hedges, hsectors, hcellEnd, hcells, hblockEnd,
    hblocks, hpacketEnd, not_not.mp hsectorMembers, not_not.mp hcellMembers, hhierarchy, hpackets⟩⟩

theorem counts_of_valid {index : Index} (hvalid : validateLoadedIndex index = .ok ()) :
    (index.nodeToCommunity.zip index.nodeToCell).length < 2 ^ 32 ∧
      index.cells.length < 2 ^ 32 := by
  simp only [validateLoadedIndex, bind_ok, reject_ok, scanCounted_eq_ok] at hvalid
  obtain ⟨_, -, _, -, membership, ⟨hnodes, -⟩, _, -, _, -, _, -, _, -, _, -, _, -, _, ⟨hcells, -⟩,
    -⟩ := hvalid
  exact ⟨hnodes, hcells⟩

/-- Two nodes in two Communities of one Cell each, with a Gateway from the first
to the second and a hierarchy of two leaves. -/
def twoNodes : Index where
  config :=
    { communityCount := 2, cellTargetSize := 2, blockTargetSize := 2
      cellPartition := .globalGraphLocal }
  pointCount := 2
  dimension := 1
  pqCodeWidth := 1
  nodeToCommunity := [0, 1]
  nodeToCell := [0, 1]
  nodeToPacketRecord := [0, 1]
  communities :=
    [⟨0, 1, 5, 0, 0, 1, 0, 0, .zero, false, 0, 1, 0, 1⟩,
      ⟨1, 1, 5, 0, 1, 0, 1, 1, .zero, true, 1, 1, 1, 1⟩]
  communityPoles := [.zero, .one]
  communityEdgeOffsets := [0, 1, 1]
  communityEdges := [⟨0, 1, 1, 0, 1⟩]
  gateways := [⟨0, 1, 1⟩]
  directionAxes := [.zero, .one]
  sectors :=
    [{ communityId := 0, sectorId := kPoleSectorId, nodeCount := 1, axisIndex := kInvalidAxisIndex
       cellBegin := 0, cellCount := 1 },
      { communityId := 1, sectorId := 3, nodeCount := 1, axisIndex := 1
        cellBegin := 1, cellCount := 1 }]
  cells :=
    [{ cellId := 0, communityId := 0, sectorId := kPoleSectorId, radialCellId := 0, nodeCount := 1
       capacityClass := 2, blockBegin := 0, blockCount := 1 },
      { cellId := 1, communityId := 1, sectorId := 3, radialCellId := 0, nodeCount := 1
        capacityClass := 2, blockBegin := 1, blockCount := 1 }]
  blocks :=
    [{ blockId := 0, cellId := 0, nodeCount := 1, packetRecordBegin := 0 },
      { blockId := 1, cellId := 1, nodeCount := 1, packetRecordBegin := 1 }]
  cellHierarchyNodes :=
    [{ nodeId := 0, childBegin := 0, childCount := 1, descendantNodeCount := 1
       childrenAreCells := true },
      { nodeId := 1, childBegin := 1, childCount := 1, descendantNodeCount := 1
        childrenAreCells := true }]
  cellHierarchyRoots := [0, 1]
  cellHierarchyChildren := [0, 1]
  cellHierarchyCentroids := [.zero, .one]
  packetPayload := [0, 0, 0, 0, 7, 1, 0, 0, 0, 9]

theorem twoNodes_valid : validateLoadedIndex twoNodes = .ok () := by decide +kernel

end SkipCell.Sidecar

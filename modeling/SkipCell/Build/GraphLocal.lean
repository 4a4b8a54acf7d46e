import SkipCell.Build.CellBlocks
import SkipCell.Foundation.FrontierGroups

/-! # Graph-local Cells

A Cell from nodes that are given, in their order; and the Cells that follow the graph breadth
first, without regard to Communities.
-/

namespace SkipCell.Build

open Foundation Sidecar

/-- What a builder sees of the linked graph. Node IDs are 32-bit, and the edges of a
completed graph stay inside it. -/
structure PostLinkGraph where
  neighbors : List (List UInt32)
  small : neighbors.length < 2 ^ 32
  inside : ∀ list ∈ neighbors, ∀ neighbor ∈ list, neighbor.toNat < neighbors.length

namespace PostLinkGraph

variable (graph : PostLinkGraph)

def pointCount : Nat := graph.neighbors.length

def adjacency (node : Nat) : List Nat := (graph.neighbors.getD node []).map UInt32.toNat

theorem adjacency_lt {node neighbor : Nat} (hneighbor : neighbor ∈ graph.adjacency node) :
    neighbor < graph.pointCount := by
  obtain ⟨id, hid, rfl⟩ := List.mem_map.mp hneighbor
  rw [List.getD_eq_getElem?_getD] at hid
  cases hlist : graph.neighbors[node]? with
  | none =>
    rw [hlist] at hid
    exact absurd hid List.not_mem_nil
  | some list =>
    rw [hlist] at hid
    exact graph.inside list (List.mem_of_getElem? hlist) id hid

end PostLinkGraph

/-! ## One Cell -/

def vectorRow (vectors : List Single) (dimension node : UInt32) : List Single :=
  (vectors.drop (node.toNat * dimension.toNat)).take dimension.toNat

def poleRow (index : Index) (community : UInt32) : List Single :=
  vectorRow index.communityPoles index.dimension community

def computeRadius (point pole : List Single) : Single := (squaredDistance point pole).sqrt.toSingle

/-- `std::numeric_limits<float>::max()`. -/
def floatMax : Single := ⟨0x7F7FFFFF⟩

/-- `std::numbers::pi_v<float>`. -/
def floatPi : Single := ⟨0x40490FDB⟩

/-- Sums of the coordinates, divided by the number of the vectors. -/
def meanVector (dimension : UInt32) (rows : List (List Single)) : List Single :=
  (rows.foldl (fun sums row => List.zipWith (· + ·) sums row)
    (List.replicate dimension.toNat .zero)).map (· / .ofNat rows.length)

def placeLocalNode (cellId node : UInt32) (result : BuildResult) : Except Error BuildResult := do
  let packetIndex := result.packetNodeIds.length
  let nodeToCell ← assign .outOfBounds result.index.nodeToCell node.toNat cellId
  let nodeToPacketRecord ←
    assign .outOfBounds result.index.nodeToPacketRecord node.toNat (.ofNat packetIndex)
  .ok
    { index := { result.index with nodeToCell, nodeToPacketRecord }
      packetNodeIds := result.packetNodeIds ++ [node] }

/-- The Blocks of a Cell from `blockBegin` on. The loop does not end if a Block may hold no
node. -/
def appendLocalBlocks (radius : UInt32 → Single) (cellId : UInt32) (nodes : List UInt32) :
    Nat → Nat → BuildResult → Except Error BuildResult
  | 0, _, _ => .error .endless
  | fuel + 1, blockBegin, result =>
    if nodes.length ≤ blockBegin then .ok result
    else do
      let blockTargetSize := result.index.config.blockTargetSize.toNat
      let blockEnd := min nodes.length (blockBegin + blockTargetSize)
      let blockNodes := (nodes.take blockEnd).drop blockBegin
      let placed ← scan (fun _ => placeLocalNode cellId) 0 blockNodes result
      let block : Block :=
        { blockId := .ofNat result.index.blocks.length
          cellId
          nodeCount := .ofNat (blockEnd - blockBegin)
          packetRecordBegin := .ofNat result.packetNodeIds.length
          minimumRadius := (blockNodes.map radius).foldl Single.minimum floatMax
          maximumRadius := (blockNodes.map radius).foldl Single.maximum .zero
          maximumAngle := floatPi }
      appendLocalBlocks radius cellId nodes fuel (blockBegin + blockTargetSize)
        { placed with index := { placed.index with blocks := placed.index.blocks ++ [block] } }

/-- `append_graph_local_cell`. -/
def appendGraphLocalCell (vectors : List Single) (communityId cellOrdinal : UInt32)
    (nodes : List UInt32) (result : BuildResult) : Except Error BuildResult :=
  if nodes.isEmpty then .ok result
  else do
    let pole := poleRow result.index communityId
    let row := vectorRow vectors result.index.dimension
    let radius (node : UInt32) := computeRadius (row node) pole
    let cellId := UInt32.ofNat result.index.cells.length
    let blockBegin := result.index.blocks.length
    let centroid := meanVector result.index.dimension (nodes.map row)
    let placed ← appendLocalBlocks radius cellId nodes (nodes.length + 1) 0
      { result with index :=
        { result.index with directionAxes := result.index.directionAxes ++ centroid } }
    let cell : Cell :=
      { cellId, communityId
        sectorId := kPoleSectorId
        radialCellId := cellOrdinal
        nodeCount := .ofNat nodes.length
        capacityClass := result.index.config.cellTargetSize
        minimumRadius := (nodes.map radius).foldl Single.minimum floatMax
        maximumRadius := (nodes.map radius).foldl Single.maximum .zero
        maximumAngle := floatPi
        blockBegin := .ofNat blockBegin
        blockCount := .ofNat (placed.index.blocks.length - blockBegin) }
    .ok { placed with index := { placed.index with cells := placed.index.cells ++ [cell] } }

/-- The nodes have been written to the packets of a Cell; nothing is said of the Blocks and of
the geometry. -/
structure LocalPlaced (before after : BuildResult) (cellId : UInt32) (nodes : List UInt32) :
    Prop where
  nodeToCell : after.index.nodeToCell =
    labelGroup cellId (nodes.map UInt32.toNat) before.index.nodeToCell
  records : after.index.nodeToPacketRecord.length = before.index.nodeToPacketRecord.length
  packets : after.packetNodeIds = before.packetNodeIds ++ nodes
  cells : after.index.cells = before.index.cells
  config : after.index.config = before.index.config
  sectors : after.index.sectors = before.index.sectors
  communities : after.index.communities = before.index.communities
  pointCount : after.index.pointCount = before.index.pointCount

/-- The nodes have places in the arrays. -/
def Fits (result : BuildResult) (nodes : List UInt32) : Prop :=
  ∀ node ∈ nodes, node.toNat < result.index.nodeToCell.length ∧
    node.toNat < result.index.nodeToPacketRecord.length

theorem LocalPlaced.refl (result : BuildResult) (cellId : UInt32) :
    LocalPlaced result result cellId [] :=
  ⟨rfl, rfl, (List.append_nil _).symm, rfl, rfl, rfl, rfl, rfl⟩

variable {first second third before after : BuildResult}

theorem LocalPlaced.trans {cellId : UInt32} {nodes more : List UInt32}
    (hfirst : LocalPlaced first second cellId nodes)
    (hsecond : LocalPlaced second third cellId more) :
    LocalPlaced first third cellId (nodes ++ more) where
  nodeToCell := by
    rw [List.map_append, labelGroup_append, ← hfirst.nodeToCell, hsecond.nodeToCell]
  records := hsecond.records.trans hfirst.records
  packets := by rw [hsecond.packets, hfirst.packets, List.append_assoc]
  cells := hsecond.cells.trans hfirst.cells
  config := hsecond.config.trans hfirst.config
  sectors := hsecond.sectors.trans hfirst.sectors
  communities := hsecond.communities.trans hfirst.communities
  pointCount := hsecond.pointCount.trans hfirst.pointCount

theorem LocalPlaced.fits {cellId : UInt32} {nodes more : List UInt32}
    (hplaced : LocalPlaced before after cellId nodes) (hfits : Fits before more) :
    Fits after more := by
  intro node hnode
  rw [hplaced.nodeToCell, length_labelGroup, hplaced.records]
  exact hfits node hnode

theorem placeLocalNodes_ok (cellId : UInt32) {nodes : List UInt32} {result : BuildResult}
    (hfits : Fits result nodes) (position : Nat) :
    ∃ placed, scan (fun _ => placeLocalNode cellId) position nodes result = .ok placed ∧
      placed.index.blocks = result.index.blocks ∧ LocalPlaced result placed cellId nodes := by
  induction nodes generalizing result position with
  | nil => exact ⟨result, rfl, rfl, .refl result cellId⟩
  | cons node nodes ih =>
    obtain ⟨hnode, hnodes⟩ := List.forall_mem_cons.mp hfits
    set next : BuildResult :=
      { index :=
          { result.index with
            nodeToCell := result.index.nodeToCell.set node.toNat cellId
            nodeToPacketRecord := result.index.nodeToPacketRecord.set node.toNat
              (.ofNat result.packetNodeIds.length) }
        packetNodeIds := result.packetNodeIds ++ [node] } with hnext
    have hplace : placeLocalNode cellId node result = .ok next := by
      simp only [placeLocalNode, bind_ok, assign_eq_ok]
      exact ⟨_, ⟨hnode.1, rfl⟩, _, ⟨hnode.2, rfl⟩, rfl⟩
    have hone : LocalPlaced result next cellId [node] :=
      ⟨rfl, List.length_set .., rfl, rfl, rfl, rfl, rfl, rfl⟩
    obtain ⟨placed, hscan, hblocks, hrest⟩ := ih (hone.fits hnodes) (position + 1)
    refine ⟨placed, ?_, hblocks, hone.trans hrest⟩
    rw [scan, hplace]
    exact hscan

theorem appendLocalBlocks_ok (radius : UInt32 → Single) (cellId : UInt32) (nodes : List UInt32)
    {fuel blockBegin : Nat} {result : BuildResult} (hfits : Fits result nodes)
    (hblock : 0 < result.index.config.blockTargetSize.toNat)
    (hfuel : nodes.length - blockBegin < fuel) :
    ∃ placed, appendLocalBlocks radius cellId nodes fuel blockBegin result = .ok placed ∧
      LocalPlaced result placed cellId (nodes.drop blockBegin) := by
  induction fuel generalizing blockBegin result with
  | zero => exact absurd hfuel (Nat.not_lt_zero _)
  | succ fuel ih =>
    rw [appendLocalBlocks]
    split
    · next hdone =>
        refine ⟨result, rfl, ?_⟩
        rw [List.drop_eq_nil_of_le hdone]
        exact .refl result cellId
    · next hmore =>
        set target := result.index.config.blockTargetSize.toNat with htarget
        set blockNodes := (nodes.take (min nodes.length (blockBegin + target))).drop blockBegin
          with hblockNodes
        have hsubset : ∀ node ∈ blockNodes, node ∈ nodes := fun node hnode =>
          List.mem_of_mem_take (List.mem_of_mem_drop hnode)
        obtain ⟨placed, hscan, -, hplaced⟩ := placeLocalNodes_ok cellId
          (fun node hnode => hfits node (hsubset node hnode)) 0
        have hsplit : nodes.drop blockBegin = blockNodes ++ nodes.drop (blockBegin + target) := by
          rw [hblockNodes, ← List.drop_take_append_drop nodes blockBegin target, List.drop_take]
          congr 1
          rcases Nat.le_total nodes.length (blockBegin + target) with hle | hle
          · rw [Nat.min_eq_left hle, List.take_of_length_le (by rw [List.length_drop]; omega),
              List.take_of_length_le (by rw [List.length_drop])]
          · rw [Nat.min_eq_right hle, Nat.add_sub_cancel_left]
        have hnext : LocalPlaced result
            { placed with index :=
              { placed.index with
                blocks := placed.index.blocks ++
                  [{ blockId := .ofNat result.index.blocks.length
                     cellId
                     nodeCount := .ofNat (min nodes.length (blockBegin + target) - blockBegin)
                     packetRecordBegin := .ofNat result.packetNodeIds.length
                     minimumRadius := (blockNodes.map radius).foldl Single.minimum floatMax
                     maximumRadius := (blockNodes.map radius).foldl Single.maximum .zero
                     maximumAngle := floatPi }] } } cellId blockNodes :=
          ⟨hplaced.nodeToCell, hplaced.records, hplaced.packets, hplaced.cells, hplaced.config,
            hplaced.sectors, hplaced.communities, hplaced.pointCount⟩
        have hshorter : nodes.length - (blockBegin + target) < fuel := by omega
        obtain ⟨last, hlast, hrest⟩ := ih (hnext.fits hfits)
          (by rw [hnext.config]; exact hblock) hshorter
        refine ⟨last, bind_ok.mpr ⟨placed, hscan, hlast⟩, ?_⟩
        rw [hsplit]
        exact hnext.trans hrest

/-- A Cell is appended, with the number of the Cells before it. -/
structure LocalAppended (before after : BuildResult) (nodes : List UInt32) : Prop where
  cell : ∃ cell : Cell, after.index.cells = before.index.cells ++ [cell] ∧
    cell.cellId = .ofNat before.index.cells.length ∧ cell.nodeCount = .ofNat nodes.length
  nodeToCell : after.index.nodeToCell = labelGroup (.ofNat before.index.cells.length)
    (nodes.map UInt32.toNat) before.index.nodeToCell
  records : after.index.nodeToPacketRecord.length = before.index.nodeToPacketRecord.length
  packets : after.packetNodeIds = before.packetNodeIds ++ nodes
  config : after.index.config = before.index.config
  sectors : after.index.sectors = before.index.sectors
  communities : after.index.communities = before.index.communities
  pointCount : after.index.pointCount = before.index.pointCount

theorem appendGraphLocalCell_ok (vectors : List Single) (communityId cellOrdinal : UInt32)
    {nodes : List UInt32} {result : BuildResult} (hnodes : nodes ≠ []) (hfits : Fits result nodes)
    (hblock : 0 < result.index.config.blockTargetSize.toNat) :
    ∃ after, appendGraphLocalCell vectors communityId cellOrdinal nodes result = .ok after ∧
      LocalAppended result after nodes := by
  rw [appendGraphLocalCell, if_neg (by rwa [List.isEmpty_iff])]
  obtain ⟨placed, hblocks, hplaced⟩ := @appendLocalBlocks_ok
    (fun node => computeRadius (vectorRow vectors result.index.dimension node)
      (poleRow result.index communityId))
    (.ofNat result.index.cells.length) nodes (nodes.length + 1) 0
    { result with index :=
      { result.index with
        directionAxes := result.index.directionAxes ++ meanVector result.index.dimension
          (nodes.map (vectorRow vectors result.index.dimension)) } }
    hfits hblock (by omega)
  rw [List.drop_zero] at hplaced
  refine ⟨_, bind_ok.mpr ⟨placed, hblocks, rfl⟩, ?_⟩
  refine ⟨⟨_, congrArg (· ++ [_]) hplaced.cells, rfl, rfl⟩, hplaced.nodeToCell, hplaced.records,
    hplaced.packets, hplaced.config, hplaced.sectors, hplaced.communities, hplaced.pointCount⟩

theorem toNat_cellNumber {target pointCount : Nat} {groups : List (List Nat)}
    (hgroups : Partitions target pointCount groups) (hsmall : pointCount < 2 ^ 32) {number : Nat}
    (hnumber : number ≤ groups.length) : (UInt32.ofNat number).toNat = number := by
  have hcount := hgroups.length_le
  rw [UInt32.toNat_ofNat']
  exact Nat.mod_eq_of_lt (by omega)

/-! ## Cells along the graph -/

/-- The Community that owns all Cells, and the others. -/
def resetCommunity (position : Nat) (community : Community) : Community :=
  { community with
    sectorBegin := if position = 0 then 0 else 1
    sectorCount := 0
    cellBegin := 0
    cellCount := 0
    graphOnly := false }

def wholeSector (pointCount : UInt64) (radius : Single) (cellCount : Nat) : Sector where
  communityId := 0
  sectorId := kPoleSectorId
  nodeCount := pointCount
  axisIndex := kInvalidAxisIndex
  minimumRadius := .zero
  maximumRadius := radius
  maximumAngle := floatPi
  cellBegin := 0
  cellCount := .ofNat cellCount

def closeCommunity (cellCount position : Nat) (community : Community) : Community :=
  if position = 0 then { community with sectorCount := 1, cellCount := .ofNat cellCount }
  else { community with cellBegin := .ofNat cellCount }

/-- `build_global_graph_local_cells`. The groups do not depend on the Cells before them. -/
def buildGlobalGraphLocalCells (graph : PostLinkGraph) (vectors : List Single)
    (result : BuildResult) : Except Error BuildResult := do
  let owner ← element .outOfBounds result.index.communities 0
  let groups := groupNodes graph.adjacency result.index.config.cellTargetSize.toNat
    graph.pointCount
  let placed ← scan (fun cellOrdinal group =>
      appendGraphLocalCell vectors 0 (.ofNat cellOrdinal) (group.map UInt32.ofNat)) 0 groups
    { result with index :=
      { result.index with communities := result.index.communities.mapIdx resetCommunity } }
  let cellCount := placed.index.cells.length
  .ok
    { placed with index :=
      { placed.index with
        communities := placed.index.communities.mapIdx (closeCommunity cellCount)
        sectors := placed.index.sectors ++
          [wholeSector placed.index.pointCount owner.radius cellCount] } }

/-- The groups have become Cells, one after the other. -/
structure GroupsAppended (before after : BuildResult) (groups : List (List Nat)) : Prop where
  cells : ∃ added : List Cell, after.index.cells = before.index.cells ++ added ∧
    added.map (fun cell => (cell.cellId, cell.nodeCount)) = groups.mapIdx fun position group =>
      (.ofNat (before.index.cells.length + position), .ofNat group.length)
  nodeToCell : after.index.nodeToCell =
    labelGroups UInt32.ofNat before.index.cells.length groups before.index.nodeToCell
  records : after.index.nodeToPacketRecord.length = before.index.nodeToPacketRecord.length
  packets : after.packetNodeIds = before.packetNodeIds ++ groups.flatten.map UInt32.ofNat
  config : after.index.config = before.index.config

theorem GroupsAppended.length {groups : List (List Nat)}
    (happended : GroupsAppended before after groups) :
    after.index.cells.length = before.index.cells.length + groups.length := by
  obtain ⟨added, hcells, hadded⟩ := happended.cells
  have hlength := congrArg List.length hadded
  rw [List.length_map, List.length_mapIdx] at hlength
  rw [hcells, List.length_append, hlength]

theorem GroupsAppended.refl (result : BuildResult) : GroupsAppended result result [] :=
  ⟨⟨[], (List.append_nil _).symm, rfl⟩, rfl, rfl, (List.append_nil _).symm, rfl⟩

theorem GroupsAppended.trans {groups more : List (List Nat)}
    (hfirst : GroupsAppended first second groups) (hsecond : GroupsAppended second third more) :
    GroupsAppended first third (groups ++ more) := by
  obtain ⟨front, hfront, hfronts⟩ := hfirst.cells
  obtain ⟨back, hback, hbacks⟩ := hsecond.cells
  refine ⟨⟨front ++ back, ?_, ?_⟩, ?_, hsecond.records.trans hfirst.records, ?_,
    hsecond.config.trans hfirst.config⟩
  · rw [hback, hfront, List.append_assoc]
  · rw [List.map_append, hfronts, hbacks, List.mapIdx_append, hfirst.length]
    simp only [Nat.add_assoc, Nat.add_comm groups.length]
  · rw [hsecond.nodeToCell, hfirst.nodeToCell, hfirst.length, labelGroups_append]
  · rw [hsecond.packets, hfirst.packets, List.append_assoc, List.flatten_append, List.map_append]

theorem LocalAppended.group {group : List Nat}
    (hgroup : (group.map UInt32.ofNat).map UInt32.toNat = group)
    (happended : LocalAppended before after (group.map UInt32.ofNat)) :
    GroupsAppended before after [group] := by
  obtain ⟨cell, hcell, hcellId, hcount⟩ := happended.cell
  refine ⟨⟨[cell], hcell, ?_⟩, ?_, happended.records, ?_, happended.config⟩
  · rw [List.map_singleton, List.mapIdx_singleton, hcellId, hcount, List.length_map, Nat.add_zero]
  · rw [happended.nodeToCell, hgroup]
    rfl
  · rw [happended.packets, List.flatten_singleton]

/-- The Cells of the groups. -/
theorem appendGroups_ok (vectors : List Single) (community : UInt32) {groups : List (List Nat)}
    {size position : Nat} {result : BuildResult} (hsome : ∀ group ∈ groups, group ≠ [])
    (hsmall : size < 2 ^ 32) (hbelow : ∀ node ∈ groups.flatten, node < size)
    (hcells : result.index.nodeToCell.length = size)
    (hrecords : result.index.nodeToPacketRecord.length = size)
    (hblock : 0 < result.index.config.blockTargetSize.toNat) :
    ∃ after, scan (fun cellOrdinal group =>
        appendGraphLocalCell vectors community (.ofNat cellOrdinal) (group.map UInt32.ofNat))
        position groups result = .ok after ∧ GroupsAppended result after groups ∧
      after.index.communities = result.index.communities := by
  induction groups generalizing result position with
  | nil => exact ⟨result, rfl, .refl result, rfl⟩
  | cons group groups ih =>
    obtain ⟨hgroup, hgroups⟩ := List.forall_mem_cons.mp hsome
    have hback : ∀ node ∈ group, (UInt32.ofNat node).toNat = node := fun node hnode => by
      have hless := hbelow node (List.mem_append_left _ hnode)
      rw [UInt32.toNat_ofNat']
      exact Nat.mod_eq_of_lt (by omega)
    have hfits : Fits result (group.map UInt32.ofNat) := by
      intro id hid
      obtain ⟨node, hnode, rfl⟩ := List.mem_map.mp hid
      rw [hback node hnode, hcells, hrecords]
      exact ⟨hbelow node (List.mem_append_left _ hnode), hbelow node (List.mem_append_left _ hnode)⟩
    have hids : (group.map UInt32.ofNat).map UInt32.toNat = group := by
      rw [List.map_map]
      exact (List.map_congr_left hback).trans (List.map_id' group)
    obtain ⟨next, hnext, happended⟩ := appendGraphLocalCell_ok vectors community (.ofNat position)
      (by simpa using hgroup) hfits hblock
    have hnextCells : next.index.nodeToCell.length = size := by
      rw [happended.nodeToCell, length_labelGroup, hcells]
    obtain ⟨after, hafter, hrest, hcommunities⟩ := @ih (position + 1) next hgroups
      (fun node hnode => hbelow node (List.mem_append_right _ hnode)) hnextCells
      (happended.records.trans hrecords) (by rw [happended.config]; exact hblock)
    exact ⟨after, bind_ok.mpr ⟨next, hnext, hafter⟩,
      (happended.group hids).trans hrest, hcommunities.trans happended.communities⟩

/-- What `build_global_graph_local_cells` is called with: an index that has Communities, no
Cells yet, a slot for each node, and sizes that were validated. -/
structure ReadyForCells (graph : PostLinkGraph) (result : BuildResult) : Prop where
  communities : result.index.communities ≠ []
  cells : result.index.cells = []
  nodeToCell : result.index.nodeToCell.length = graph.pointCount
  records : result.index.nodeToPacketRecord.length = graph.pointCount
  blocks : 0 < result.index.config.blockTargetSize.toNat

theorem buildGlobalGraphLocalCells_ok {graph : PostLinkGraph} {result : BuildResult}
    (hready : ReadyForCells graph result) (vectors : List Single)
    (htarget : 1 ≤ result.index.config.cellTargetSize.toNat) :
    ∃ built, buildGlobalGraphLocalCells graph vectors result = .ok built ∧
      built.index.cells.length =
        (groupNodes graph.adjacency result.index.config.cellTargetSize.toNat
          graph.pointCount).length ∧
      built.index.nodeToCell = labelGroups UInt32.ofNat 0
        (groupNodes graph.adjacency result.index.config.cellTargetSize.toNat graph.pointCount)
        result.index.nodeToCell := by
  have hgroups : Partitions result.index.config.cellTargetSize.toNat graph.pointCount
      (groupNodes graph.adjacency result.index.config.cellTargetSize.toNat graph.pointCount) :=
    groupNodes_partitions htarget fun _ _ _ hneighbor => graph.adjacency_lt hneighbor
  obtain ⟨owner, others, howner⟩ := List.exists_cons_of_ne_nil hready.communities
  obtain ⟨placed, hscan, happended, -⟩ := @appendGroups_ok vectors 0 _ graph.pointCount 0
    { result with index :=
      { result.index with communities := result.index.communities.mapIdx resetCommunity } }
    (fun group hgroup => List.ne_nil_of_length_pos (hgroups.sizes group hgroup).1) graph.small
    (fun node hnode => (hgroups.mem node).mp hnode) hready.nodeToCell hready.records hready.blocks
  have hcount := happended.length
  have hlabels := happended.nodeToCell
  rw [hready.cells, List.length_nil] at hcount hlabels
  rw [Nat.zero_add] at hcount
  have hfront : element (.outOfBounds : Error) result.index.communities 0 = .ok owner := by
    rw [element_eq_ok, howner, List.getElem?_cons_zero]
  refine ⟨_, bind_ok.mpr ⟨owner, hfront, bind_ok.mpr ⟨placed, hscan, rfl⟩⟩, hcount, hlabels⟩

end SkipCell.Build

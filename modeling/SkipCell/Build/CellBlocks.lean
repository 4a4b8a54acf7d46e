import SkipCell.Build.Polar
import SkipCell.Foundation.RangeTree
import SkipCell.Sidecar.Validate

/-! # Radial Cells

The nodes of one Sector are cut into radial bins, and every bin that is not empty
becomes a Cell with its Blocks and packet records. The bins are counted so that
each could hold its share, but equal radii stay together.
-/

namespace SkipCell.Build

open Foundation Sidecar

structure PolarNode where
  nodeId : UInt32
  radius : Single
  angle : Single

/-- The part of `community_polar_build_result_t` that Cells are written to. -/
structure BuildResult where
  index : Index
  packetNodeIds : List UInt32

/-- `std::tie(left.radius, left.node_id) < std::tie(right.radius, right.node_id)`. -/
def PolarNode.before (left right : PolarNode) : Prop :=
  left.radius < right.radius ∨ ¬ right.radius < left.radius ∧ left.nodeId < right.nodeId

instance (left right : PolarNode) : Decidable (left.before right) :=
  inferInstanceAs (Decidable (_ ∨ _))

def sortNodes (nodes : List PolarNode) : List PolarNode :=
  nodes.insertionSort fun left right => ¬ right.before left

/-- The number of radial bins, cast to `uint32_t`. -/
def radialBinCount (nodeCount : Nat) (cellTargetSize : UInt32) : UInt32 :=
  let count := UInt32.ofNat ((nodeCount + cellTargetSize.toNat - 1) / cellTargetSize.toNat)
  if 1 < count then count else 1

/-- One turn of the loop over the nodes of a Block, with the largest angle so far. -/
def placeNode (cellId : UInt32) (node : PolarNode) (maximumAngle : Single)
    (result : BuildResult) : Except Error (Single × BuildResult) := do
  let packetIndex := result.packetNodeIds.length
  let nodeToCell ← assign .outOfBounds result.index.nodeToCell node.nodeId.toNat cellId
  let nodeToPacketRecord ←
    assign .outOfBounds result.index.nodeToPacketRecord node.nodeId.toNat (.ofNat packetIndex)
  .ok (maximumAngle.maximum node.angle,
    { index := { result.index with nodeToCell, nodeToPacketRecord }
      packetNodeIds := result.packetNodeIds ++ [node.nodeId] })

/-- The loop over the Blocks of a Cell. It does not end if Blocks may hold no node. -/
def appendBlocks (cellId : UInt32) (cellNodes : List PolarNode) :
    Nat → Nat → BuildResult → Except Error BuildResult
  | 0, _, _ => .error .endless
  | fuel + 1, blockBegin, result =>
    if cellNodes.length ≤ blockBegin then .ok result
    else do
      let blockTargetSize := result.index.config.blockTargetSize.toNat
      let blockEnd := min cellNodes.length (blockBegin + blockTargetSize)
      let front ← element .outOfBounds cellNodes blockBegin
      let back ← element .outOfBounds cellNodes (blockEnd - 1)
      let (maximumAngle, placed) ← scan
        (fun _ node (state : Single × BuildResult) => placeNode cellId node state.1 state.2)
        0 ((cellNodes.take blockEnd).drop blockBegin) (.zero, result)
      let block : Block :=
        { blockId := .ofNat result.index.blocks.length
          cellId
          nodeCount := .ofNat (blockEnd - blockBegin)
          packetRecordBegin := .ofNat result.packetNodeIds.length
          minimumRadius := front.radius
          maximumRadius := back.radius
          maximumAngle }
      appendBlocks cellId cellNodes fuel (blockBegin + blockTargetSize)
        { placed with index := { placed.index with blocks := placed.index.blocks ++ [block] } }

/-- One turn of the loop over the radial bins. -/
def appendRadialCell (communityId sectorId : UInt32) (sectorMaximumAngle : Single)
    (radialCell : Nat) (binNodes : List PolarNode) (result : BuildResult) :
    Except Error BuildResult :=
  if binNodes.isEmpty then .ok result
  else do
    let cellNodes := sortNodes binNodes
    let front ← element .outOfBounds cellNodes 0
    let back ← element .outOfBounds cellNodes (cellNodes.length - 1)
    let cellId := UInt32.ofNat result.index.cells.length
    let blockBegin := result.index.blocks.length
    let placed ← appendBlocks cellId cellNodes (cellNodes.length + 1) 0 result
    let cell : Cell :=
      { cellId, communityId, sectorId
        radialCellId := .ofNat radialCell
        nodeCount := .ofNat cellNodes.length
        capacityClass := result.index.config.cellTargetSize
        minimumRadius := front.radius
        maximumRadius := back.radius
        maximumAngle := sectorMaximumAngle
        blockBegin := .ofNat blockBegin
        blockCount := .ofNat (placed.index.blocks.length - blockBegin) }
    .ok { placed with index := { placed.index with cells := placed.index.cells ++ [cell] } }

/-- One turn of the loop that sorts nodes into radial bins. -/
def pushRadialNode (boundaries : List Single) (node : PolarNode)
    (radialNodes : List (List PolarNode)) : Except Error (List (List PolarNode)) := do
  let bin ← findPolarRadialBin node.radius boundaries
  let binNodes ← element .outOfBounds radialNodes bin.toNat
  assign .outOfBounds radialNodes bin.toNat (binNodes ++ [node])

/-- `append_cell_blocks`. -/
def appendCellBlocks (result : BuildResult) (communityId sectorId : UInt32)
    (nodes : List PolarNode) (sectorMaximumAngle : Single) : Except Error BuildResult :=
  if nodes.isEmpty then .ok result
  else do
    let nodes := sortNodes nodes
    let bins := radialBinCount nodes.length result.index.config.cellTargetSize
    let boundaries ← computeRadialQuantileBoundaries (nodes.map PolarNode.radius) bins
    let radialNodes ← scan (fun _ => pushRadialNode boundaries) 0 nodes
      (List.replicate bins.toNat [])
    scan (appendRadialCell communityId sectorId sectorMaximumAngle) 0 radialNodes result

variable {cellId communityId sectorId : UInt32} {result final : BuildResult}
    {sectorMaximumAngle : Single} {nodes : List PolarNode}

theorem placeNode_keeps {node : PolarNode} {maximumAngle : Single} {placed : Single × BuildResult}
    (hplace : placeNode cellId node maximumAngle result = .ok placed) :
    placed.2.index.cells = result.index.cells ∧ placed.2.index.config = result.index.config := by
  unfold placeNode at hplace
  simp only [bind_ok, assign_eq_ok] at hplace
  obtain ⟨_, _, _, _, hplaced⟩ := hplace
  obtain rfl := Except.ok.inj hplaced
  exact ⟨rfl, rfl⟩

theorem appendBlocks_keeps {cellNodes : List PolarNode} {fuel blockBegin : Nat}
    (happend : appendBlocks cellId cellNodes fuel blockBegin result = .ok final) :
    final.index.cells = result.index.cells ∧ final.index.config = result.index.config := by
  induction fuel generalizing blockBegin result with
  | zero => cases happend
  | succ fuel ih =>
    unfold appendBlocks at happend
    split at happend
    next =>
      obtain rfl := Except.ok.inj happend
      exact ⟨rfl, rfl⟩
    next =>
      simp only [bind_ok] at happend
      obtain ⟨_, _, _, _, ⟨maximumAngle, placed⟩, hscan, hrest⟩ := happend
      have hplaced : placed.index.cells = result.index.cells ∧
          placed.index.config = result.index.config := by
        apply scan_invariant (motive := fun _ state =>
          state.2.index.cells = result.index.cells ∧
            state.2.index.config = result.index.config) hscan ⟨rfl, rfl⟩
        intro _ _ state next _ hstate hnext
        obtain ⟨hcells, hconfig⟩ := placeNode_keeps hnext
        exact ⟨hcells.trans hstate.1, hconfig.trans hstate.2⟩
      obtain ⟨hcells, hconfig⟩ := ih hrest
      exact ⟨hcells.trans hplaced.1, hconfig.trans hplaced.2⟩

theorem length_sortNodes (nodes : List PolarNode) : (sortNodes nodes).length = nodes.length :=
  List.length_insertionSort _ _

theorem appendRadialCell_eq {radialCell : Nat} {binNodes : List PolarNode}
    (happend : appendRadialCell communityId sectorId sectorMaximumAngle radialCell binNodes
      result = .ok final) :
    final.index.config = result.index.config ∧
      (binNodes = [] ∧ final.index.cells = result.index.cells ∨
        ∃ cell, final.index.cells = result.index.cells ++ [cell] ∧
          cell.nodeCount = .ofNat binNodes.length) := by
  unfold appendRadialCell at happend
  split at happend
  next hempty =>
    obtain rfl := Except.ok.inj happend
    exact ⟨rfl, Or.inl ⟨List.isEmpty_iff.mp hempty, rfl⟩⟩
  next =>
    simp only [bind_ok] at happend
    obtain ⟨_, _, _, _, placed, hplaced, hfinal⟩ := happend
    obtain ⟨hcells, hconfig⟩ := appendBlocks_keeps hplaced
    obtain rfl := Except.ok.inj hfinal
    rw [← hcells]
    exact ⟨hconfig, Or.inr ⟨_, rfl, by simp only [length_sortNodes]⟩⟩

theorem scan_appendRadialCell {radialNodes : List (List PolarNode)}
    (hsize : ∀ binNodes ∈ radialNodes, binNodes.length < 2 ^ 64)
    (hscan : scan (appendRadialCell communityId sectorId sectorMaximumAngle) 0 radialNodes
      result = .ok final) (capacity : Nat) :
    (∀ cell ∈ final.index.cells.drop result.index.cells.length,
        cell.nodeCount.toNat ≤ capacity) ↔
      ∀ binNodes ∈ radialNodes, binNodes.length ≤ capacity := by
  obtain ⟨emitted, hcells, hemitted⟩ : ∃ emitted,
      final.index.cells = result.index.cells ++ emitted ∧
        ((∀ cell ∈ emitted, cell.nodeCount.toNat ≤ capacity) ↔
          ∀ binNodes ∈ radialNodes.take radialNodes.length, binNodes.length ≤ capacity) := by
    rw [← Nat.zero_add radialNodes.length]
    apply scan_invariant (motive := fun position (state : BuildResult) => ∃ emitted,
      state.index.cells = result.index.cells ++ emitted ∧
        ((∀ cell ∈ emitted, cell.nodeCount.toNat ≤ capacity) ↔
          ∀ binNodes ∈ radialNodes.take position, binNodes.length ≤ capacity)) hscan
    · exact ⟨[], by simp⟩
    · rintro position binNodes state next hbin ⟨emitted, hcells, hemitted⟩ hnext
      rw [Nat.zero_add] at hemitted ⊢
      have htake : radialNodes.take (position + 1) = radialNodes.take position ++ [binNodes] := by
        rw [List.take_add_one, hbin, Option.toList_some]
      rw [htake]
      obtain ⟨-, ⟨rfl, hsame⟩ | ⟨cell, hnew, hcount⟩⟩ := appendRadialCell_eq hnext
      · refine ⟨emitted, hsame.trans hcells, ?_⟩
        simp only [List.forall_mem_append, List.forall_mem_singleton, hemitted, List.length_nil,
          Nat.zero_le, and_true]
      · refine ⟨emitted ++ [cell], by rw [hnew, hcells, List.append_assoc], ?_⟩
        have hexact : cell.nodeCount.toNat = binNodes.length := by
          rw [hcount, UInt64.toNat_ofNat']
          exact Nat.mod_eq_of_lt (hsize binNodes (List.mem_of_getElem? hbin))
        simp only [List.forall_mem_append, List.forall_mem_singleton, hemitted, hexact]
  rw [hcells, List.drop_left, hemitted, List.take_length]

theorem quotient_le (nodeCount capacity : Nat) :
    (nodeCount + capacity - 1) / capacity ≤ nodeCount := by
  cases capacity with
  | zero => simp
  | succ later => exact share_le nodeCount later

theorem radialBinCount_le {nodeCount : Nat} (cellTargetSize : UInt32) (hnodes : 0 < nodeCount) :
    (radialBinCount nodeCount cellTargetSize).toNat ≤ nodeCount := by
  unfold radialBinCount
  dsimp only
  split
  next =>
    rw [UInt32.toNat_ofNat']
    exact (Nat.mod_le _ _).trans (quotient_le nodeCount cellTargetSize.toNat)
  next => exact hnodes

theorem scan_pushRadialNode {boundaries : List Single} {bins : Nat}
    {radialNodes : List (List PolarNode)}
    (hscan : scan (fun _ => pushRadialNode boundaries) 0 nodes (List.replicate bins []) =
      .ok radialNodes) :
    radialNodes.length = bins ∧ ∀ bin binNodes, radialNodes[bin]? = some binNodes →
      binNodes.length = nodes.countP fun node =>
        lowerBound (boundaries.map Single.key) node.radius.key = bin := by
  have hall : radialNodes.length = bins ∧ ∀ bin binNodes, radialNodes[bin]? = some binNodes →
      binNodes.length = (nodes.take nodes.length).countP fun node =>
        lowerBound (boundaries.map Single.key) node.radius.key = bin := by
    rw [← Nat.zero_add nodes.length]
    apply scan_invariant (motive := fun position (state : List (List PolarNode)) =>
      state.length = bins ∧ ∀ bin binNodes, state[bin]? = some binNodes →
        binNodes.length = (nodes.take position).countP fun node =>
          lowerBound (boundaries.map Single.key) node.radius.key = bin) hscan
    · refine ⟨List.length_replicate, fun bin binNodes hbin => ?_⟩
      rw [List.eq_of_mem_replicate (List.mem_of_getElem? hbin)]
      rfl
    · rintro position node state next hnode ⟨hlength, hstate⟩ hnext
      rw [Nat.zero_add] at hstate ⊢
      unfold pushRadialNode at hnext
      simp only [bind_ok, element_eq_ok, assign_eq_ok] at hnext
      obtain ⟨found, hfound, foundNodes, hfoundNodes, -, rfl⟩ := hnext
      have hplace := findPolarRadialBin_eq hfound
      have htake : nodes.take (position + 1) = nodes.take position ++ [node] := by
        rw [List.take_add_one, hnode, Option.toList_some]
      refine ⟨by rwa [List.length_set], fun bin binNodes hbin => ?_⟩
      rw [htake, List.countP_append, List.countP_singleton, ← hplace]
      obtain rfl | hother := eq_or_ne found.toNat bin
      · have hset := (List.getElem_of_getElem? hfoundNodes).1
        rw [List.getElem?_set_self hset] at hbin
        obtain rfl := Option.some.inj hbin
        simp [hstate _ _ hfoundNodes]
      · rw [List.getElem?_set_ne hother] at hbin
        simp [hother, hstate bin binNodes hbin]
  rwa [List.take_length] at hall

/-- No bin takes in more ties at its upper end than its ranks, and the ties that
left it at its lower end, have room for. -/
def TiesFit (nodes : List PolarNode) (cellTargetSize : UInt32) : Prop :=
  let radii := sortedKeys (nodes.map PolarNode.radius)
  let bins := (radialBinCount nodes.length cellTargetSize).toNat
  ∀ bin < bins, binEnd radii bins (bin + 1) ≤ binEnd radii bins bin + cellTargetSize.toNat

instance (nodes : List PolarNode) (cellTargetSize : UInt32) :
    Decidable (TiesFit nodes cellTargetSize) :=
  inferInstanceAs (Decidable (∀ bin < _, _))

theorem perm_sortNodes (nodes : List PolarNode) : (sortNodes nodes).Perm nodes :=
  List.perm_insertionSort _ _

theorem sortedKeys_congr {first second : List Single} (hperm : first.Perm second) :
    sortedKeys first = sortedKeys second := by
  apply List.Perm.eq_of_pairwise' (pairwise_sortedKeys first) (pairwise_sortedKeys second)
  exact (List.perm_insertionSort _ _).trans
    ((hperm.map _).trans (List.perm_insertionSort _ _).symm)

theorem length_lt_of_nodup (hnodes : (nodes.map PolarNode.nodeId).Nodup) :
    nodes.length < 2 ^ 64 := by
  have hdistinct : (nodes.map fun node => node.nodeId.toNat).Nodup := by
    have := hnodes.map (f := UInt32.toNat) fun _ _ => UInt32.toNat_inj.mp
    rwa [List.map_map] at this
  have hbound : (nodes.map fun node => node.nodeId.toNat) ⊆ List.range (2 ^ 32) := by
    intro nodeId hnodeId
    obtain ⟨node, -, rfl⟩ := List.mem_map.mp hnodeId
    exact List.mem_range.mpr node.nodeId.toNat_lt
  have hle := (hdistinct.subperm hbound).length_le
  rw [List.length_map, List.length_range] at hle
  omega

theorem emitted_keep_target_iff (hnodes : (nodes.map PolarNode.nodeId).Nodup)
    (happend : appendCellBlocks result communityId sectorId nodes sectorMaximumAngle = .ok final) :
    (∀ cell ∈ final.index.cells.drop result.index.cells.length,
        cell.nodeCount.toNat ≤ result.index.config.cellTargetSize.toNat) ↔
      TiesFit nodes result.index.config.cellTargetSize := by
  have hsize := length_lt_of_nodup hnodes
  have hperm := perm_sortNodes nodes
  unfold appendCellBlocks at happend
  split at happend
  next hempty =>
    obtain rfl := Except.ok.inj happend
    obtain rfl := List.isEmpty_iff.mp hempty
    rw [List.drop_length]
    simp only [List.not_mem_nil, false_implies, implies_true, true_iff]
    intro bin _
    simp [binEnd, tiesAfter, sortedKeys, nearestRank]
  next hempty =>
    simp only [bind_ok, length_sortNodes] at happend
    obtain ⟨boundaries, hboundaries, radialNodes, hpush, hcells⟩ := happend
    obtain ⟨hlength, hbins⟩ := scan_pushRadialNode hpush
    set bins := (radialBinCount nodes.length result.index.config.cellTargetSize).toNat with hbinsDef
    have hpositive : 0 < nodes.length := List.length_pos_iff.mpr fun hnil => hempty (by simp [hnil])
    have hquantiles := quantileCuts_boundaries hboundaries (by
      rw [List.length_map, length_sortNodes]
      exact radialBinCount_le _ hpositive)
    rw [sortedKeys_congr (hperm.map PolarNode.radius)] at hquantiles
    have hcount : ∀ bin binNodes, radialNodes[bin]? = some binNodes →
        binEnd (sortedKeys (nodes.map PolarNode.radius)) bins bin + binNodes.length =
          binEnd (sortedKeys (nodes.map PolarNode.radius)) bins (bin + 1) := by
      intro bin binNodes hbin
      have hbound : bin < bins := hlength ▸ (List.getElem_of_getElem? hbin).1
      rw [← hquantiles.countP_lowerBound_eq (pairwise_sortedKeys _) hbound, hbins bin binNodes hbin,
        countP_sortedKeys, List.countP_map, hperm.countP_eq]
      rfl
    have hsizes : ∀ binNodes ∈ radialNodes, binNodes.length < 2 ^ 64 := by
      intro binNodes hmem
      obtain ⟨bin, hbin⟩ := List.mem_iff_getElem?.mp hmem
      rw [hbins bin binNodes hbin]
      exact List.countP_le_length.trans_lt (by rwa [length_sortNodes])
    rw [scan_appendRadialCell hsizes hcells]
    constructor
    · intro hfits bin hbin
      have hread : radialNodes[bin]? = some radialNodes[bin] := List.getElem?_eq_getElem _
      rw [← hcount bin _ hread]
      exact Nat.add_le_add_left (hfits _ (List.getElem_mem _)) _
    · intro hfits binNodes hmem
      obtain ⟨bin, hbin⟩ := List.mem_iff_getElem?.mp hmem
      have hbound : bin < bins := hlength ▸ (List.getElem_of_getElem? hbin).1
      have hfit : binEnd _ bins (bin + 1) ≤ binEnd _ bins bin + _ := hfits bin hbound
      rw [← hcount bin binNodes hbin] at hfit
      exact Nat.le_of_add_le_add_left hfit

theorem nodeCount_le_of_valid {index : Index} (hvalid : validateLoadedIndex index = .ok ())
    (hradial : index.config.cellPartition = .polarRadial) :
    ∀ cell ∈ index.cells, cell.nodeCount.toNat ≤ index.config.cellTargetSize.toNat := by
  intro cell hcell
  obtain ⟨accepted⟩ := accepted_of_valid hvalid
  have hfixed : index.config.adaptiveMultiCapacity = false := by
    by_contra hadaptive
    have hconfig := accepted.config
    simp [validateBuildConfig, hadaptive, hradial] at hconfig
  obtain ⟨position, hposition⟩ := List.mem_iff_getElem?.mp hcell
  obtain ⟨before, after, hcheck⟩ := scan_accepts accepted.cells hposition
  simp only [checkCell, bind_ok, reject_ok, hfixed, not_or, not_not,
    Bool.false_eq_true, if_false] at hcheck
  obtain ⟨_, -, _, -, _, ⟨-, -, -, -, -, hcapacity, hcount, -⟩, -⟩ := hcheck
  rw [← hcapacity]
  exact Nat.le_of_not_lt hcount

/-- In the radial mode every Cell that is emitted keeps the target size exactly when
the ties at the quantiles fit; else the validator rejects every index with the Cells. -/
theorem appendCellBlocks_capacity {result final : BuildResult} {communityId sectorId : UInt32}
    {nodes : List PolarNode} {sectorMaximumAngle : Single}
    (hnodes : (nodes.map PolarNode.nodeId).Nodup)
    (happend : appendCellBlocks result communityId sectorId nodes sectorMaximumAngle =
      .ok final) :
    ((∀ cell ∈ final.index.cells.drop result.index.cells.length,
        cell.nodeCount.toNat ≤ result.index.config.cellTargetSize.toNat) ↔
      TiesFit nodes result.index.config.cellTargetSize) ∧
    (¬ TiesFit nodes result.index.config.cellTargetSize → ∀ index : Index,
      index.config = result.index.config → index.config.cellPartition = .polarRadial →
      final.index.cells ⊆ index.cells → validateLoadedIndex index ≠ .ok ()) := by
  have hiff := emitted_keep_target_iff hnodes happend
  refine ⟨hiff, fun hoverfull index hconfig hradial hcells hvalid => hoverfull (hiff.mp ?_)⟩
  intro cell hcell
  rw [← hconfig]
  exact nodeCount_le_of_valid hvalid hradial cell (hcells (List.mem_of_mem_drop hcell))

/-- Two nodes of one Community, with its Sector written and its Cells to come. -/
def pairWithoutCells (cellTargetSize : UInt32) : BuildResult where
  index :=
    { config := { communityCount := 1, cellTargetSize, blockTargetSize := 2 }
      pointCount := 2
      dimension := 1
      pqCodeWidth := 1
      nodeToCommunity := [0, 0]
      nodeToCell := [0, 0]
      nodeToPacketRecord := [0, 0]
      communities := [⟨0, 2, 10, 0, 0, 0, 0, 0, .zero, true, 0, 1, 0, 1⟩]
      communityPoles := [.zero]
      communityEdgeOffsets := [0, 0]
      sectors :=
        [{ communityId := 0, sectorId := kPoleSectorId, nodeCount := 2
           axisIndex := kInvalidAxisIndex, cellBegin := 0, cellCount := 1 }]
      cells := []
      blocks := []
      packetPayload := [0, 0, 0, 0, 7, 1, 0, 0, 0, 9] }
  packetNodeIds := []

/-- Two nodes at the same distance from their Hub. -/
def equalRadii : List PolarNode := [⟨0, .zero, .zero⟩, ⟨1, .zero, .zero⟩]

theorem appendCellBlocks_capacity_equalRadii :
    ∃ final, appendCellBlocks (pairWithoutCells 2) 0 kPoleSectorId equalRadii .zero = .ok final ∧
      ((∀ cell ∈ final.index.cells.drop 0, cell.nodeCount.toNat ≤ 2) ↔
        TiesFit equalRadii 2) := by
  obtain ⟨final, happend, -⟩ : ∃ final,
      appendCellBlocks (pairWithoutCells 2) 0 kPoleSectorId equalRadii .zero = .ok final ∧ True :=
    exists_ok (by decide +kernel)
  exact ⟨final, happend, (appendCellBlocks_capacity (by decide) happend).1⟩

/-- With Cells of one node the two still share a Cell, and the index is rejected. -/
theorem equalRadii_overfull :
    ∃ final, appendCellBlocks (pairWithoutCells 1) 0 kPoleSectorId equalRadii .zero = .ok final ∧
      (∃ cell ∈ final.index.cells, 1 < cell.nodeCount.toNat) ∧
      validateLoadedIndex final.index =
        .error (.runtimeError "Community-Polar Cell record is invalid") :=
  exists_ok (by decide +kernel)

end SkipCell.Build

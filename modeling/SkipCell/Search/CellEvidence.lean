import SkipCell.Search.CellNodes

/-! # Evidence for Cells and Blocks

A Base node that is expanded gives evidence for its own Cell and Block and for those of its
new neighbors: their support is counted once for each source, and their best distances are
kept.
-/

namespace SkipCell.Search

open Foundation Sidecar

/-! ## Lookups

The source reads the arrays of a valid index unchecked. -/

namespace ResidentIndex

variable (resident : ResidentIndex)

def nodeCell (node : UInt32) : UInt32 := resident.index.nodeToCell.getD node.toNat 0

def nodeBlock (node : UInt32) : UInt32 := resident.packets.nodeToBlock.getD node.toNat 0

def nodeCommunity (node : UInt32) : UInt32 := resident.index.nodeToCommunity.getD node.toNat 0

def cellCommunity (cell : UInt32) : UInt32 :=
  (resident.index.cells[cell.toNat]?.map (·.communityId)).getD 0

def graphOnly (community : UInt32) : Bool :=
  (resident.index.communities[community.toNat]?.map (·.graphOnly)).getD false

theorem nodeCell_lt {node : UInt32} (hnode : node.toNat < resident.index.pointCount.toNat) :
    (resident.nodeCell node).toNat < resident.index.cells.length := by
  obtain ⟨accepted⟩ := accepted_of_valid resident.valid
  have hcommunities := accepted.globals_ok.nodeToCommunity
  have hcells := accepted.globals_ok.nodeToCell
  have hpair : (resident.index.nodeToCommunity.zip resident.index.nodeToCell)[node.toNat]? =
      some (resident.index.nodeToCommunity[node.toNat], resident.index.nodeToCell[node.toNat]) := by
    rw [List.getElem?_eq_getElem (by simp [hcommunities, hcells, hnode])]
    simp
  obtain ⟨_, _, hmember⟩ := scan_accepts accepted.members hpair
  have hcell := (countMember_eq_ok hmember).2.1
  simpa [nodeCell, List.getD_eq_getElem?_getD, hcells, hnode] using hcell

/-- Each node has no Block yet or a Block of the index. -/
def Owned (index : Index) (nodes : PacketNodes) : Prop :=
  nodes.nodeToBlock.length = index.pointCount.toNat ∧
    ∀ block ∈ nodes.nodeToBlock, block = .ofNat invalidId ∨ block.toNat < index.blocks.length

theorem Owned.visitBlock {index : Index} {nodes next : PacketNodes} {block : Nat} {record : Block}
    (howned : Owned index nodes) (hblock : block < index.blocks.length) (hnarrow : block < 2 ^ 32)
    (hvisit : PacketNodes.visitBlock index block record nodes = .ok next) : Owned index next := by
  refine scan_invariant (motive := fun _ nodes => Owned index nodes) hvisit howned ?_
  rintro _ _ before after - ⟨hlength, hblocks⟩ hpacket
  simp only [PacketNodes.visitPacket, bind_ok, Except.ok.injEq] at hpacket
  obtain ⟨bytes, -, _, -, ids, -, rfl⟩ := hpacket
  refine ⟨List.length_set.trans hlength, fun other hother => ?_⟩
  rcases List.mem_or_eq_of_mem_set hother with hold | rfl
  · exact hblocks other hold
  · exact .inr ((UInt32.toNat_ofNat_of_lt' hnarrow).symm ▸ hblock)

theorem nodeBlock_lt {node : UInt32} (hnode : node.toNat < resident.index.pointCount.toNat) :
    (resident.nodeBlock node).toNat < resident.index.blocks.length := by
  have hload := resident.loaded
  simp only [PacketNodes.load, bind_ok, reject_ok, scanCounted_eq_ok, Except.ok.injEq] at hload
  obtain ⟨nodes, ⟨hnarrow, hscan⟩, _, howners, hnodes⟩ := hload
  have howned : Owned resident.index nodes := by
    refine scan_invariant (motive := fun _ nodes => Owned resident.index nodes) hscan ?_ ?_
    · exact ⟨List.length_replicate, fun block hblock => .inl (List.eq_of_mem_replicate hblock)⟩
    · intro block record _ _ hrecord howned hvisit
      have hblock := (List.getElem_of_getElem? hrecord).1
      rw [Nat.zero_add] at hvisit
      exact howned.visitBlock hblock (hblock.trans hnarrow) hvisit
  obtain ⟨hlength, hblocks⟩ := hnodes ▸ howned
  rw [hnodes] at howners
  have hmem : resident.nodeBlock node ∈ resident.packets.nodeToBlock := by
    simp [nodeBlock, List.getD_eq_getElem?_getD, hlength, hnode]
  exact (hblocks _ hmem).resolve_left fun hnone => howners (hnone ▸ hmem)

end ResidentIndex

structure EvidenceConfig where
  cellSupport : UInt32 := 1
  cellBlockBudget : UInt32 := 1
  sourceCellBatching : Bool := false

/-- The members of `community_polar_query_state_t` that the evidence touches. -/
structure CellEvidence where
  cellRuntimeEnabled : Bool := true
  cellBlocks : UInt32 := 0
  observedCellEvidenceSources : Finset UInt32 := ∅
  cellCandidateCreated : List Bool
  cellSupportCounts : List UInt32
  blockSupportCounts : List UInt32
  cellBestGraphDistance : List Single
  blockBestGraphDistance : List Single
  touchedCellFlags : List Bool
  touchedBlockFlags : List Bool
  touchedCells : List UInt32 := []
  touchedBlocks : List UInt32 := []
  cellEvidenceScratch : List UInt32 := []
  blockEvidenceScratch : List UInt32 := []
  supportedBlockScratch : List UInt32 := []

namespace CellEvidence

def touchCell (evidence : CellEvidence) (cell : UInt32) : CellEvidence :=
  if evidence.touchedCellFlags[cell.toNat]? = some false then
    { evidence with
      touchedCellFlags := evidence.touchedCellFlags.set cell.toNat true
      touchedCells := evidence.touchedCells ++ [cell] }
  else evidence

def touchBlock (evidence : CellEvidence) (block : UInt32) : CellEvidence :=
  if evidence.touchedBlockFlags[block.toNat]? = some false then
    { evidence with
      touchedBlockFlags := evidence.touchedBlockFlags.set block.toNat true
      touchedBlocks := evidence.touchedBlocks ++ [block] }
  else evidence

section

variable (evidence : CellEvidence) (cell : UInt32)
include evidence cell

@[simp]
theorem touchCell_cellSupportCounts :
    (evidence.touchCell cell).cellSupportCounts = evidence.cellSupportCounts := by
  unfold touchCell
  split <;> rfl

@[simp]
theorem touchCell_blockSupportCounts :
    (evidence.touchCell cell).blockSupportCounts = evidence.blockSupportCounts := by
  unfold touchCell
  split <;> rfl

@[simp]
theorem touchCell_cellBestGraphDistance :
    (evidence.touchCell cell).cellBestGraphDistance = evidence.cellBestGraphDistance := by
  unfold touchCell
  split <;> rfl

@[simp]
theorem touchCell_blockBestGraphDistance :
    (evidence.touchCell cell).blockBestGraphDistance = evidence.blockBestGraphDistance := by
  unfold touchCell
  split <;> rfl

@[simp]
theorem touchCell_cellEvidenceScratch :
    (evidence.touchCell cell).cellEvidenceScratch = evidence.cellEvidenceScratch := by
  unfold touchCell
  split <;> rfl

@[simp]
theorem touchCell_blockEvidenceScratch :
    (evidence.touchCell cell).blockEvidenceScratch = evidence.blockEvidenceScratch := by
  unfold touchCell
  split <;> rfl

end

section

variable (evidence : CellEvidence) (block : UInt32)
include evidence block

@[simp]
theorem touchBlock_cellSupportCounts :
    (evidence.touchBlock block).cellSupportCounts = evidence.cellSupportCounts := by
  unfold touchBlock
  split <;> rfl

@[simp]
theorem touchBlock_blockSupportCounts :
    (evidence.touchBlock block).blockSupportCounts = evidence.blockSupportCounts := by
  unfold touchBlock
  split <;> rfl

@[simp]
theorem touchBlock_cellBestGraphDistance :
    (evidence.touchBlock block).cellBestGraphDistance = evidence.cellBestGraphDistance := by
  unfold touchBlock
  split <;> rfl

@[simp]
theorem touchBlock_blockBestGraphDistance :
    (evidence.touchBlock block).blockBestGraphDistance = evidence.blockBestGraphDistance := by
  unfold touchBlock
  split <;> rfl

@[simp]
theorem touchBlock_cellEvidenceScratch :
    (evidence.touchBlock block).cellEvidenceScratch = evidence.cellEvidenceScratch := by
  unfold touchBlock
  split <;> rfl

@[simp]
theorem touchBlock_blockEvidenceScratch :
    (evidence.touchBlock block).blockEvidenceScratch = evidence.blockEvidenceScratch := by
  unfold touchBlock
  split <;> rfl

end

/-- `accepts_cell_evidence`. -/
def acceptsCellEvidence (config : EvidenceConfig) (evidence : CellEvidence) : Bool :=
  evidence.cellRuntimeEnabled && decide (evidence.cellBlocks < config.cellBlockBudget)

/-- The candidate is not passed over. -/
def Counts (resident : ResidentIndex) (candidate : UInt32 × Single) : Prop :=
  candidate.1.toNat < resident.index.pointCount.toNat ∧ candidate.2.isFinite = true ∧
    resident.graphOnly (resident.cellCommunity (resident.nodeCell candidate.1)) = false

instance (resident : ResidentIndex) (candidate : UInt32 × Single) :
    Decidable (Counts resident candidate) :=
  inferInstanceAs (Decidable (_ ∧ _))

/-- One turn of the loop over the candidate nodes. -/
def observeCandidate (resident : ResidentIndex) (evidence : CellEvidence)
    (candidate : UInt32 × Single) : CellEvidence :=
  if ¬ Counts resident candidate then evidence
  else
    let cell := resident.nodeCell candidate.1
    let block := resident.nodeBlock candidate.1
    let touched := (evidence.touchCell cell).touchBlock block
    { touched with
      cellBestGraphDistance :=
        touched.cellBestGraphDistance.modify cell.toNat (·.minimum candidate.2)
      blockBestGraphDistance :=
        touched.blockBestGraphDistance.modify block.toNat (·.minimum candidate.2)
      cellEvidenceScratch := touched.cellEvidenceScratch ++ [cell]
      blockEvidenceScratch := touched.blockEvidenceScratch ++ [block] }

def supportCell (config : EvidenceConfig) (evidence : CellEvidence) (cell : UInt32) :
    CellEvidence :=
  let touched := evidence.touchCell cell
  let counted :=
    { touched with cellSupportCounts := touched.cellSupportCounts.modify cell.toNat (· + 1) }
  if counted.cellSupportCounts[cell.toNat]? = some config.cellSupport then
    { counted with cellCandidateCreated := counted.cellCandidateCreated.set cell.toNat true }
  else counted

def supportBlock (evidence : CellEvidence) (block : UInt32) : CellEvidence :=
  let touched := evidence.touchBlock block
  let listed :=
    if touched.blockSupportCounts[block.toNat]? = some 0 then
      { touched with supportedBlockScratch := touched.supportedBlockScratch ++ [block] }
    else touched
  { listed with blockSupportCounts := listed.blockSupportCounts.modify block.toNat (· + 1) }

section

variable (config : EvidenceConfig) (evidence : CellEvidence) (cell : UInt32)
include config evidence cell

@[simp]
theorem supportCell_cellSupportCounts : (evidence.supportCell config cell).cellSupportCounts =
      evidence.cellSupportCounts.modify cell.toNat (· + 1) := by
  simp only [supportCell]
  split <;> simp

@[simp]
theorem supportCell_blockSupportCounts :
    (evidence.supportCell config cell).blockSupportCounts = evidence.blockSupportCounts := by
  simp only [supportCell]
  split <;> simp

@[simp]
theorem supportCell_cellBestGraphDistance :
    (evidence.supportCell config cell).cellBestGraphDistance = evidence.cellBestGraphDistance := by
  simp only [supportCell]
  split <;> simp

@[simp]
theorem supportCell_blockBestGraphDistance :
    (evidence.supportCell config cell).blockBestGraphDistance = evidence.blockBestGraphDistance := by
  simp only [supportCell]
  split <;> simp

@[simp]
theorem supportCell_blockEvidenceScratch :
    (evidence.supportCell config cell).blockEvidenceScratch = evidence.blockEvidenceScratch := by
  simp only [supportCell]
  split <;> simp

end

section

variable (evidence : CellEvidence) (block : UInt32)
include evidence block

@[simp]
theorem supportBlock_blockSupportCounts :
    (evidence.supportBlock block).blockSupportCounts =
      evidence.blockSupportCounts.modify block.toNat (· + 1) := by
  simp only [supportBlock]
  split <;> simp

@[simp]
theorem supportBlock_cellSupportCounts :
    (evidence.supportBlock block).cellSupportCounts = evidence.cellSupportCounts := by
  simp only [supportBlock]
  split <;> simp

@[simp]
theorem supportBlock_cellBestGraphDistance :
    (evidence.supportBlock block).cellBestGraphDistance = evidence.cellBestGraphDistance := by
  simp only [supportBlock]
  split <;> simp

@[simp]
theorem supportBlock_blockBestGraphDistance :
    (evidence.supportBlock block).blockBestGraphDistance = evidence.blockBestGraphDistance := by
  simp only [supportBlock]
  split <;> simp

end

/-- `std::sort`, `std::unique` and `erase`. -/
def sortedUnique (values : List UInt32) : List UInt32 := (values.insertionSort (· ≤ ·)).dedup

/-- Counts the support of the Cells and Blocks that were collected. -/
def settle (config : EvidenceConfig) (collected : CellEvidence) : CellEvidence :=
  let cells := sortedUnique collected.cellEvidenceScratch
  let supported := cells.foldl (supportCell config) { collected with cellEvidenceScratch := cells }
  let blocks := sortedUnique supported.blockEvidenceScratch
  blocks.foldl supportBlock { supported with blockEvidenceScratch := blocks }

/-- The source's own Cell and Block are collected first. -/
def collectSource (resident : ResidentIndex) (evidence : CellEvidence) (sourceNode : UInt32) :
    CellEvidence :=
  { evidence with
    cellEvidenceScratch := [resident.nodeCell sourceNode]
    blockEvidenceScratch := [resident.nodeBlock sourceNode] }

/-- The evidence of a source that is not passed over. -/
def gather (resident : ResidentIndex) (config : EvidenceConfig) (evidence : CellEvidence)
    (sourceNode : UInt32) (candidates : List (UInt32 × Single)) : CellEvidence :=
  settle config <| candidates.foldl (observeCandidate resident)
    (evidence.collectSource resident sourceNode)

/-- `observe_base_candidates`. -/
def observeBaseCandidates (resident : ResidentIndex) (config : EvidenceConfig)
    (evidence : CellEvidence) (sourceNode : UInt32) (candidates : List (UInt32 × Single)) :
    CellEvidence :=
  if evidence.acceptsCellEvidence config = false ∨
      resident.index.pointCount.toNat ≤ sourceNode.toNat ∨
      sourceNode ∈ evidence.observedCellEvidenceSources then evidence
  else
    let observed :=
      { evidence with
        observedCellEvidenceSources := insert sourceNode evidence.observedCellEvidenceSources }
    if resident.graphOnly (resident.nodeCommunity sourceNode) then observed
    else gather resident config observed sourceNode candidates

/-! ## Candidates of the source's own Cell and Block -/

section Own

variable {resident : ResidentIndex} {config : EvidenceConfig} {cell block : UInt32}

/-- The candidate says no more than the source does. -/
structure Own (resident : ResidentIndex) (cellBest blockBest : List Single) (cell block : UInt32)
    (candidate : UInt32 × Single) : Prop where
  ownCell : resident.nodeCell candidate.1 = cell
  ownBlock : resident.nodeBlock candidate.1 = block
  cellDistance : ∀ best ∈ cellBest[cell.toNat]?, ¬ candidate.2 < best
  blockDistance : ∀ best ∈ blockBest[block.toNat]?, ¬ candidate.2 < best

theorem touchCell_touchCell (evidence : CellEvidence) (cell : UInt32) :
    (evidence.touchCell cell).touchCell cell = evidence.touchCell cell := by
  by_cases hflag : evidence.touchedCellFlags[cell.toNat]? = some false
  · have hbound := (List.getElem_of_getElem? hflag).1
    have htouched : (evidence.touchCell cell).touchedCellFlags[cell.toNat]? = some true := by
      rw [touchCell, if_pos hflag]
      exact List.getElem?_set_self hbound
    rw [touchCell, if_neg (by rw [htouched]; simp)]
  · rw [touchCell, touchCell, if_neg hflag, if_neg hflag]

theorem touchBlock_touchBlock (evidence : CellEvidence) (block : UInt32) :
    (evidence.touchBlock block).touchBlock block = evidence.touchBlock block := by
  by_cases hflag : evidence.touchedBlockFlags[block.toNat]? = some false
  · have hbound := (List.getElem_of_getElem? hflag).1
    have htouched : (evidence.touchBlock block).touchedBlockFlags[block.toNat]? = some true := by
      rw [touchBlock, if_pos hflag]
      exact List.getElem?_set_self hbound
    rw [touchBlock, if_neg (by rw [htouched]; simp)]
  · rw [touchBlock, touchBlock, if_neg hflag, if_neg hflag]

theorem supportCell_touchBlock (config : EvidenceConfig) (evidence : CellEvidence)
    (cell block : UInt32) :
    (evidence.touchBlock block).supportCell config cell =
      (evidence.supportCell config cell).touchBlock block := by
  by_cases hcell : evidence.touchedCellFlags[cell.toNat]? = some false <;>
    by_cases hblock : evidence.touchedBlockFlags[block.toNat]? = some false <;>
    by_cases hcount : (evidence.cellSupportCounts.modify cell.toNat (· + 1))[cell.toNat]? =
      some config.cellSupport <;>
    simp only [supportCell, touchCell, touchBlock, hcell, hblock, hcount, if_true, if_false]

theorem supportBlock_touchBlock (evidence : CellEvidence) (block : UInt32) :
    (evidence.touchBlock block).supportBlock block = evidence.supportBlock block := by
  rw [supportBlock, supportBlock, touchBlock_touchBlock]

theorem supportCell_touchCell (config : EvidenceConfig) (evidence : CellEvidence)
    (cell : UInt32) :
    (evidence.touchCell cell).supportCell config cell = evidence.supportCell config cell := by
  rw [supportCell, supportCell, touchCell_touchCell]

theorem sortedUnique_own {values : List UInt32} {value : UInt32} (hvalues : values ≠ [])
    (hown : ∀ other ∈ values, other = value) : sortedUnique values = [value] := by
  have hmem : ∀ other, other ∈ sortedUnique values ↔ other ∈ values := fun other => by
    rw [sortedUnique, List.mem_dedup, List.mem_insertionSort]
  have hnodup : (sortedUnique values).Nodup := List.nodup_dedup _
  obtain ⟨first, hfirst⟩ := List.exists_mem_of_ne_nil values hvalues
  cases hunique : sortedUnique values with
  | nil =>
    rw [← hmem, hunique] at hfirst
    cases hfirst
  | cons head rest =>
    rw [hunique] at hmem hnodup
    obtain ⟨hrest, -⟩ := List.nodup_cons.mp hnodup
    obtain rfl := hown head ((hmem head).mp List.mem_cons_self)
    cases rest with
    | nil => rfl
    | cons second rest =>
      have hsecond := hown second ((hmem second).mp (by simp))
      exact absurd (hsecond ▸ List.mem_cons_self) hrest

theorem modify_eq_self {values : List Single} {place : Nat} {distance : Single}
    (hnearer : ∀ best ∈ values[place]?, ¬ distance < best) :
    values.modify place (·.minimum distance) = values := by
  apply List.ext_getElem?
  intro index
  rw [List.getElem?_modify]
  split
  next hplace =>
    subst hplace
    cases hbest : values[place]? with
    | none => rfl
    | some best => exact congrArg some (if_neg (hnearer best hbest))
  next => cases values[index]? <;> rfl

theorem touch_scratch (evidence : CellEvidence) (cell block : UInt32) (cells blocks : List UInt32) :
    { (evidence.touchCell cell).touchBlock block with
      cellEvidenceScratch := cells, blockEvidenceScratch := blocks } =
    (({ evidence with
        cellEvidenceScratch := cells, blockEvidenceScratch := blocks } : CellEvidence).touchCell
      cell).touchBlock block := by
  by_cases hcell : evidence.touchedCellFlags[cell.toNat]? = some false <;>
    by_cases hblock : evidence.touchedBlockFlags[block.toNat]? = some false <;>
    simp only [touchCell, touchBlock, hcell, hblock, if_true, if_false]

theorem supportCell_blocks (config : EvidenceConfig) (evidence : CellEvidence) (cell : UInt32)
    (blocks : List UInt32) :
    { evidence.supportCell config cell with blockEvidenceScratch := blocks } =
      ({ evidence with blockEvidenceScratch := blocks } : CellEvidence).supportCell config cell := by
  by_cases hcell : evidence.touchedCellFlags[cell.toNat]? = some false <;>
    by_cases hcount : (evidence.cellSupportCounts.modify cell.toNat (· + 1))[cell.toNat]? =
      some config.cellSupport <;>
    simp only [supportCell, touchCell, hcell, hcount, if_true, if_false]

/-- The own Cell and Block are all that was collected. -/
structure Collected (evidence : CellEvidence) (cell block : UInt32) : Prop where
  cells : evidence.cellEvidenceScratch ≠ []
  ownCells : ∀ other ∈ evidence.cellEvidenceScratch, other = cell
  blocks : evidence.blockEvidenceScratch ≠ []
  ownBlocks : ∀ other ∈ evidence.blockEvidenceScratch, other = block

variable {evidence : CellEvidence}

theorem settle_collected (hcollected : evidence.Collected cell block) :
    settle config evidence = supportBlock
      (supportCell config
        { evidence with cellEvidenceScratch := [cell], blockEvidenceScratch := [block] } cell)
      block := by
  have hcells := sortedUnique_own hcollected.cells hcollected.ownCells
  have hblocks := sortedUnique_own hcollected.blocks hcollected.ownBlocks
  simp only [settle, hcells, List.foldl_cons, List.foldl_nil, supportCell_blockEvidenceScratch,
    hblocks]
  rw [supportCell_blocks]

theorem observeCandidate_of_counts (evidence : CellEvidence) {candidate : UInt32 × Single}
    (hcounts : Counts resident candidate) :
    observeCandidate resident evidence candidate =
      { (evidence.touchCell (resident.nodeCell candidate.1)).touchBlock
          (resident.nodeBlock candidate.1) with
        cellBestGraphDistance := evidence.cellBestGraphDistance.modify
          (resident.nodeCell candidate.1).toNat (·.minimum candidate.2)
        blockBestGraphDistance := evidence.blockBestGraphDistance.modify
          (resident.nodeBlock candidate.1).toNat (·.minimum candidate.2)
        cellEvidenceScratch := evidence.cellEvidenceScratch ++ [resident.nodeCell candidate.1]
        blockEvidenceScratch :=
          evidence.blockEvidenceScratch ++ [resident.nodeBlock candidate.1] } := by
  rw [observeCandidate, if_neg (not_not.mpr hcounts)]
  simp

/-- A candidate that is the source's own changes only what the source changes as well. -/
theorem settle_observeCandidate (config : EvidenceConfig) {candidate : UInt32 × Single}
    (hcollected : evidence.Collected cell block) (hcounts : Counts resident candidate)
    (hown : Own resident evidence.cellBestGraphDistance evidence.blockBestGraphDistance cell block
      candidate) :
    settle config (observeCandidate resident evidence candidate) = settle config evidence ∧
      (observeCandidate resident evidence candidate).Collected cell block ∧
      (observeCandidate resident evidence candidate).cellBestGraphDistance =
        evidence.cellBestGraphDistance ∧
      (observeCandidate resident evidence candidate).blockBestGraphDistance =
        evidence.blockBestGraphDistance := by
  obtain ⟨rfl, rfl, hcellDistance, hblockDistance⟩ := hown
  have hnext := observeCandidate_of_counts evidence hcounts
  rw [modify_eq_self hcellDistance, modify_eq_self hblockDistance] at hnext
  have hmore : (observeCandidate resident evidence candidate).Collected
      (resident.nodeCell candidate.1) (resident.nodeBlock candidate.1) := by
    rw [hnext]
    constructor
    case cells => simp
    case blocks => simp
    case ownCells =>
      intro other hother
      rcases List.mem_append.mp hother with hold | hnew
      · exact hcollected.ownCells other hold
      · exact List.mem_singleton.mp hnew
    case ownBlocks =>
      intro other hother
      rcases List.mem_append.mp hother with hold | hnew
      · exact hcollected.ownBlocks other hold
      · exact List.mem_singleton.mp hnew
  refine ⟨?_, hmore, by rw [hnext], by rw [hnext]⟩
  rw [settle_collected hmore, settle_collected hcollected]
  have htouched : ({ observeCandidate resident evidence candidate with
      cellEvidenceScratch := [resident.nodeCell candidate.1]
      blockEvidenceScratch := [resident.nodeBlock candidate.1] } : CellEvidence) =
    (({ evidence with
        cellEvidenceScratch := [resident.nodeCell candidate.1]
        blockEvidenceScratch := [resident.nodeBlock candidate.1] } : CellEvidence).touchCell
      (resident.nodeCell candidate.1)).touchBlock (resident.nodeBlock candidate.1) := by
    rw [← touch_scratch, hnext]
    simp
  rw [htouched, supportCell_touchBlock, supportCell_touchCell, supportBlock_touchBlock]

theorem settle_foldl {candidates : List (UInt32 × Single)}
    (hcollected : evidence.Collected cell block)
    (hown : ∀ candidate ∈ candidates, Counts resident candidate →
      Own resident evidence.cellBestGraphDistance evidence.blockBestGraphDistance cell block
        candidate) :
    settle config (candidates.foldl (observeCandidate resident) evidence) =
      settle config evidence := by
  induction candidates generalizing evidence with
  | nil => rfl
  | cons candidate candidates ih =>
    obtain ⟨hfirst, hrest⟩ := List.forall_mem_cons.mp hown
    rw [List.foldl_cons]
    by_cases hcounts : Counts resident candidate
    · obtain ⟨hsettle, hmore, hcells, hblocks⟩ :=
        settle_observeCandidate config hcollected hcounts (hfirst hcounts)
      rw [ih hmore (by rwa [hcells, hblocks]), hsettle]
    · rw [observeCandidate, if_pos hcounts]
      exact ih hcollected hrest

end Own

/-! ## What candidates change -/

section Changes

variable {resident : ResidentIndex} {config : EvidenceConfig}

theorem foldl_supportCell (cells : List UInt32) (evidence : CellEvidence) :
    (cells.foldl (supportCell config) evidence).cellSupportCounts =
        cells.foldl (fun counts cell => counts.modify cell.toNat (· + 1))
          evidence.cellSupportCounts ∧
      (cells.foldl (supportCell config) evidence).blockSupportCounts =
        evidence.blockSupportCounts ∧
      (cells.foldl (supportCell config) evidence).cellBestGraphDistance =
        evidence.cellBestGraphDistance ∧
      (cells.foldl (supportCell config) evidence).blockBestGraphDistance =
        evidence.blockBestGraphDistance ∧
      (cells.foldl (supportCell config) evidence).blockEvidenceScratch =
        evidence.blockEvidenceScratch := by
  induction cells generalizing evidence with
  | nil => exact ⟨rfl, rfl, rfl, rfl, rfl⟩
  | cons cell cells ih => simpa using ih (evidence.supportCell config cell)

theorem foldl_supportBlock (blocks : List UInt32) (evidence : CellEvidence) :
    (blocks.foldl supportBlock evidence).blockSupportCounts =
        blocks.foldl (fun counts block => counts.modify block.toNat (· + 1))
          evidence.blockSupportCounts ∧
      (blocks.foldl supportBlock evidence).cellSupportCounts = evidence.cellSupportCounts ∧
      (blocks.foldl supportBlock evidence).cellBestGraphDistance =
        evidence.cellBestGraphDistance ∧
      (blocks.foldl supportBlock evidence).blockBestGraphDistance =
        evidence.blockBestGraphDistance := by
  induction blocks generalizing evidence with
  | nil => exact ⟨rfl, rfl, rfl, rfl⟩
  | cons block blocks ih => simpa using ih (evidence.supportBlock block)

theorem foldl_modify {values : List UInt32} (hnodup : values.Nodup) (counts : List UInt32)
    (place : UInt32) :
    (values.foldl (fun counts value => counts.modify value.toNat (· + 1)) counts)[place.toNat]? =
      counts[place.toNat]?.map fun count => if place ∈ values then count + 1 else count := by
  induction values generalizing counts with
  | nil => simp
  | cons value values ih =>
    obtain ⟨hvalue, hnodup⟩ := List.nodup_cons.mp hnodup
    rw [List.foldl_cons, ih hnodup]
    by_cases hsame : value = place
    · subst hsame
      rw [List.getElem?_modify_eq, Option.map_eq_map, Option.map_map]
      simp [hvalue, Function.comp_def]
    · have hplaces : value.toNat ≠ place.toNat := fun heq => hsame (UInt32.toNat_inj.mp heq)
      simp [hplaces, Ne.symm hsame]

theorem settle_changes (config : EvidenceConfig) (evidence : CellEvidence) :
    (∀ cell : UInt32, (settle config evidence).cellSupportCounts[cell.toNat]? =
        evidence.cellSupportCounts[cell.toNat]?.map fun count =>
          if cell ∈ evidence.cellEvidenceScratch then count + 1 else count) ∧
      (∀ block : UInt32, (settle config evidence).blockSupportCounts[block.toNat]? =
        evidence.blockSupportCounts[block.toNat]?.map fun count =>
          if block ∈ evidence.blockEvidenceScratch then count + 1 else count) ∧
      (settle config evidence).cellBestGraphDistance = evidence.cellBestGraphDistance ∧
      (settle config evidence).blockBestGraphDistance = evidence.blockBestGraphDistance := by
  have hnodup : ∀ values, (sortedUnique values).Nodup := fun values => List.nodup_dedup _
  have hmem : ∀ values value, value ∈ sortedUnique values ↔ value ∈ values := fun values value => by
    rw [sortedUnique, List.mem_dedup, List.mem_insertionSort]
  refine ⟨fun cell => ?_, fun block => ?_, ?_, ?_⟩
  · simp only [settle, foldl_supportCell, foldl_supportBlock, foldl_modify (hnodup _), hmem]
  · simp only [settle, foldl_supportCell, foldl_supportBlock, foldl_modify (hnodup _), hmem]
  · simp only [settle, foldl_supportCell, foldl_supportBlock]
  · simp only [settle, foldl_supportCell, foldl_supportBlock]

/-- The candidate's Cell and Block were collected, and no best distance is above its own. -/
structure Noted (evidence : CellEvidence) (resident : ResidentIndex)
    (candidate : UInt32 × Single) : Prop where
  cell : resident.nodeCell candidate.1 ∈ evidence.cellEvidenceScratch
  block : resident.nodeBlock candidate.1 ∈ evidence.blockEvidenceScratch
  cellDistance : ∀ best ∈
    evidence.cellBestGraphDistance[(resident.nodeCell candidate.1).toNat]?, ¬ candidate.2 < best
  blockDistance : ∀ best ∈
    evidence.blockBestGraphDistance[(resident.nodeBlock candidate.1).toNat]?, ¬ candidate.2 < best

theorem not_lt_minimum_right (best distance : Single) : ¬ distance < best.minimum distance := by
  unfold Single.minimum
  split
  · exact Single.lt_irrefl distance
  next hfarther => exact hfarther

theorem not_lt_minimum {best distance other : Single} (hnearer : ¬ distance < best) :
    ¬ distance < best.minimum other := by
  unfold Single.minimum
  split
  next hother => exact fun hless => hnearer (Single.lt_trans hless hother)
  · exact hnearer

theorem not_lt_modify {values : List Single} {place other : Nat} {distance value : Single}
    (hnearer : other = place → value = distance ∨ ∀ best ∈ values[place]?, ¬ distance < best)
    (hbefore : other ≠ place → ∀ best ∈ values[place]?, ¬ distance < best) :
    ∀ best ∈ (values.modify other (·.minimum value))[place]?, ¬ distance < best := by
  intro best hbest
  rw [List.getElem?_modify, Option.mem_def, Option.map_eq_map, Option.map_eq_some_iff] at hbest
  obtain ⟨old, hold, rfl⟩ := hbest
  split
  next hplace =>
    rcases hnearer hplace with rfl | hnearer
    · exact not_lt_minimum_right old value
    · exact not_lt_minimum (hnearer old hold)
  next hplace => exact hbefore hplace old hold

variable {candidate : UInt32 × Single} {evidence : CellEvidence}
    {candidates : List (UInt32 × Single)}

theorem observeCandidate_noted (evidence : CellEvidence) (hcounts : Counts resident candidate) :
    (observeCandidate resident evidence candidate).Noted resident candidate := by
  rw [observeCandidate_of_counts evidence hcounts]
  constructor
  case cell => simp
  case block => simp
  case cellDistance => exact not_lt_modify (fun _ => .inl rfl) (absurd rfl)
  case blockDistance => exact not_lt_modify (fun _ => .inl rfl) (absurd rfl)

theorem Noted.observeCandidate {other : UInt32 × Single}
    (hnoted : evidence.Noted resident candidate) :
    (observeCandidate resident evidence other).Noted resident candidate := by
  by_cases hcounts : Counts resident other
  · rw [observeCandidate_of_counts evidence hcounts]
    constructor
    case cell => exact List.mem_append_left _ hnoted.cell
    case block => exact List.mem_append_left _ hnoted.block
    case cellDistance =>
      exact not_lt_modify (fun _ => .inr hnoted.cellDistance) fun _ => hnoted.cellDistance
    case blockDistance =>
      exact not_lt_modify (fun _ => .inr hnoted.blockDistance) fun _ => hnoted.blockDistance
  · rw [CellEvidence.observeCandidate, if_pos hcounts]
    exact hnoted

theorem Noted.foldl (candidates : List (UInt32 × Single))
    (hnoted : evidence.Noted resident candidate) :
    (candidates.foldl (CellEvidence.observeCandidate resident) evidence).Noted resident
      candidate := by
  induction candidates generalizing evidence with
  | nil => exact hnoted
  | cons other candidates ih => exact ih hnoted.observeCandidate

theorem foldl_noted (evidence : CellEvidence) (hcandidate : candidate ∈ candidates)
    (hcounts : Counts resident candidate) :
    (candidates.foldl (observeCandidate resident) evidence).Noted resident candidate := by
  induction candidates generalizing evidence with
  | nil => cases hcandidate
  | cons first candidates ih =>
    rcases List.mem_cons.mp hcandidate with rfl | hlater
    · exact (observeCandidate_noted evidence hcounts).foldl candidates
    · exact ih _ hlater

theorem foldl_observeCandidate (resident : ResidentIndex) (candidates : List (UInt32 × Single))
    (evidence : CellEvidence) :
    (candidates.foldl (observeCandidate resident) evidence).cellSupportCounts =
        evidence.cellSupportCounts ∧
      (candidates.foldl (observeCandidate resident) evidence).blockSupportCounts =
        evidence.blockSupportCounts := by
  induction candidates generalizing evidence with
  | nil => exact ⟨rfl, rfl⟩
  | cons candidate candidates ih =>
    rw [List.foldl_cons, (ih _).1, (ih _).2]
    by_cases hcounts : Counts resident candidate
    · rw [observeCandidate_of_counts evidence hcounts]
      simp
    · rw [observeCandidate, if_pos hcounts]
      exact ⟨rfl, rfl⟩

/-- The arrays have a place for each Cell and Block, as the start of a query leaves them. -/
structure Sized (evidence : CellEvidence) (index : Index) : Prop where
  cells : evidence.cellSupportCounts.length = index.cells.length
  blocks : evidence.blockSupportCounts.length = index.blocks.length

theorem counted_ne {counts : List UInt32} {place : Nat} {grows stays : Prop} [Decidable grows]
    [Decidable stays] (hplace : place < counts.length) (hgrows : grows) (hstays : ¬ stays) :
    counts[place]?.map (fun count => if grows then count + 1 else count) ≠
      counts[place]?.map (fun count => if stays then count + 1 else count) := by
  rw [List.getElem?_eq_getElem hplace]
  simp [hgrows, hstays]

theorem gather_eq_iff {source : UInt32} (hsized : evidence.Sized resident.index) :
    gather resident config evidence source candidates = gather resident config evidence source [] ↔
      ∀ candidate ∈ candidates, Counts resident candidate →
        Own resident evidence.cellBestGraphDistance evidence.blockBestGraphDistance
          (resident.nodeCell source) (resident.nodeBlock source) candidate := by
  constructor
  · intro hsame candidate hcandidate hcounts
    have hnoted := foldl_noted (evidence.collectSource resident source) hcandidate hcounts
    obtain ⟨hcellSupport, hblockSupport⟩ := foldl_observeCandidate resident candidates
      (evidence.collectSource resident source)
    have hall := settle_changes config
      (candidates.foldl (observeCandidate resident) (evidence.collectSource resident source))
    have hown := settle_changes config (evidence.collectSource resident source)
    rw [gather, gather, List.foldl_nil] at hsame
    rw [hsame, hcellSupport, hblockSupport] at hall
    obtain ⟨hcells, hblocks, hcellBest, hblockBest⟩ := hall
    obtain ⟨hownCells, hownBlocks, hownCellBest, hownBlockBest⟩ := hown
    have hcell := resident.nodeCell_lt hcounts.1
    have hblock := resident.nodeBlock_lt hcounts.1
    rw [← hsized.cells] at hcell
    rw [← hsized.blocks] at hblock
    have hsameCell : resident.nodeCell candidate.1 = resident.nodeCell source := by
      by_contra hother
      exact counted_ne hcell hnoted.cell (List.mem_singleton.not.mpr hother)
        ((hcells _).symm.trans (hownCells _))
    have hsameBlock : resident.nodeBlock candidate.1 = resident.nodeBlock source := by
      by_contra hother
      exact counted_ne hblock hnoted.block (List.mem_singleton.not.mpr hother)
        ((hblocks _).symm.trans (hownBlocks _))
    have hcellDistance := hnoted.cellDistance
    have hblockDistance := hnoted.blockDistance
    rw [← hcellBest, hownCellBest, hsameCell] at hcellDistance
    rw [← hblockBest, hownBlockBest, hsameBlock] at hblockDistance
    exact ⟨hsameCell, hsameBlock, hcellDistance, hblockDistance⟩
  · intro hown
    have hcollected : (evidence.collectSource resident source).Collected
        (resident.nodeCell source) (resident.nodeBlock source) :=
      ⟨List.cons_ne_nil _ _, fun _ => List.mem_singleton.mp, List.cons_ne_nil _ _,
        fun _ => List.mem_singleton.mp⟩
    exact settle_foldl hcollected hown

def PassesOver (resident : ResidentIndex) (config : EvidenceConfig) (evidence : CellEvidence)
    (sourceNode : UInt32) : Prop :=
  evidence.acceptsCellEvidence config = false ∨
    resident.index.pointCount.toNat ≤ sourceNode.toNat ∨
    sourceNode ∈ evidence.observedCellEvidenceSources ∨
    resident.graphOnly (resident.nodeCommunity sourceNode) = true

theorem observeBaseCandidates_eq_iff {source : UInt32}
    (hsized : evidence.acceptsCellEvidence config = true → evidence.Sized resident.index) :
    observeBaseCandidates resident config evidence source candidates =
        observeBaseCandidates resident config evidence source [] ↔
      PassesOver resident config evidence source ∨
        ∀ candidate ∈ candidates, Counts resident candidate →
          Own resident evidence.cellBestGraphDistance evidence.blockBestGraphDistance
            (resident.nodeCell source) (resident.nodeBlock source) candidate := by
  unfold observeBaseCandidates PassesOver
  by_cases hgate : evidence.acceptsCellEvidence config = false ∨
      resident.index.pointCount.toNat ≤ source.toNat ∨
      source ∈ evidence.observedCellEvidenceSources
  · simp only [if_pos hgate, true_iff]
    exact .inl (hgate.imp_right fun hrest => hrest.imp_right .inl)
  · rw [if_neg hgate, if_neg hgate]
    by_cases hgraphOnly : resident.graphOnly (resident.nodeCommunity source) = true
    · simp [hgraphOnly]
    · have hobserved : Sized { evidence with
          observedCellEvidenceSources := insert source evidence.observedCellEvidenceSources }
            resident.index := by
        obtain ⟨hcells, hblocks⟩ := hsized (by simpa using (not_or.mp hgate).1)
        exact ⟨hcells, hblocks⟩
      have hopen : ¬ (evidence.acceptsCellEvidence config = false ∨
          resident.index.pointCount.toNat ≤ source.toNat ∨
          source ∈ evidence.observedCellEvidenceSources ∨
          resident.graphOnly (resident.nodeCommunity source) = true) := by
        simpa [hgraphOnly] using hgate
      dsimp only
      rw [if_neg hgraphOnly, if_neg hgraphOnly, gather_eq_iff hobserved, or_iff_right hopen]

end Changes

end CellEvidence

end SkipCell.Search

import SkipCell.Foundation.AssocMap
import SkipCell.IoIndex.Artifacts
import SkipCell.Search.CellNodes

/-! # Correcting the selected Cells by their neighbors

A bounded walk over the Cell adjacency starts at each of the leading selected Cells, and
counts which other Cells its edges lead to. The Cells with the best support and then the
nearest to the query are scored and join the selected ones.
-/

namespace SkipCell.Search

open Foundation Sidecar

/-- `UINT32_MAX`, for no Cell. -/
def noCell : UInt32 := .ofNat invalidId

/-- The arrays of `io_cell_adjacency_index_t` that `neighbors` reads. -/
structure CellAdjacencyIndex where
  cellCount : UInt64
  offsets : List UInt64
  adjacency : List UInt32

def CellAdjacencyIndex.neighbors (cells : CellAdjacencyIndex) (cellId : UInt32) :
    Except Error (List UInt32) := do
  reject (cells.cellCount.toNat ≤ cellId.toNat)
    (.logicError "Cell adjacency Cell ID is out of range")
  let first ← element .outOfBounds cells.offsets cellId.toNat
  let last ← element .outOfBounds cells.offsets (cellId.toNat + 1)
  slice cells.adjacency first.toNat (last - first).toNat

/-- The fields of `community_polar_candidate_batch_t` by which a terminal batch is scored. -/
structure CandidateBatch where
  origin : CandidateOrigin := .baseEdge
  packetRecordBegin : UInt64 := 2 ^ 64 - 1
  packetRecordCount : UInt64 := 0
  nodeIds : List UInt32

/-- A search over a valid index. The lookups of the codes are given by what they return. -/
structure CommunityPolarSearch extends ResidentIndex where
  queryDistanceSquared : List Single → List Single → Single
  batchDistances : CandidateBatch → List Single
  cellTerminalDistanceScale : Single

namespace CommunityPolarSearch

variable (search : CommunityPolarSearch)

def cellNodeIds (cellId : UInt32) : List UInt32 := search.packets.cellNodeIds search.index cellId

def cellQueryDistanceSquared (query : List Single) (cellId : UInt32) : Single :=
  let index := search.index
  let dimension := index.dimension.toNat
  if index.cells.length ≤ cellId.toNat ∨ query.length ≠ dimension ∨
      index.directionAxes.length ≠ index.cells.length * dimension then .infinity
  else
    search.queryDistanceSquared query
      ((index.directionAxes.drop (cellId.toNat * dimension)).take dimension)

end CommunityPolarSearch

/-- The settings of `configure_cell_adj_correction`, and `enable_cell_batch_search_`. -/
structure CellAdjConfig where
  enableCellBatchSearch : Bool := false
  enableCellAdjCorrection : Bool := false
  cellAdjCandidateCells : UInt32 := 0
  cellAdjSupportShortlist : UInt32 := 0
  cellAdjExpansionCells : UInt32 := 0
  cellAdjMinSearchListSize : UInt32 := 0
  cellAdjMaxSearchListSize : UInt32 := 0
  cellAdjacencyIndex : Option CellAdjacencyIndex := none

/-- The buffers of a query that the correction changes. -/
structure TerminalState where
  cellBatchSelectedCells : List UInt32 := []
  terminalCellResults : List (UInt32 × Single) := []
  deriving DecidableEq

/-! ## Support -/

abbrev Support := AssocMap UInt32 UInt32

/-- Each turn over a hash table visits its entries in some order. -/
structure IterationOrder where
  visit : List (UInt32 × UInt32) → List (UInt32 × UInt32)
  perm : ∀ entries, (visit entries).Perm entries

def Support.visited (support : Support) (order : IterationOrder) : List (UInt32 × UInt32) :=
  order.visit (support.entries.map fun entry => (entry.1, entry.2))

/-- `std::tuple` compares a distance, then its rank or support, then the Cell. -/
def KeyLess (left right : Single × UInt32 × UInt32) : Prop :=
  left.1 < right.1 ∨ left.1 ≤ right.1 ∧ right.1 ≤ left.1 ∧
    (left.2.1 < right.2.1 ∨ left.2.1 = right.2.1 ∧ left.2.2 < right.2.2)

instance (left right : Single × UInt32 × UInt32) : Decidable (KeyLess left right) :=
  inferInstanceAs (Decidable (_ ∨ _))

/-- `next_key` and `next_cell`. -/
structure NextCell where
  nextKey : Single × UInt32 × UInt32 := (.infinity, noCell, noCell)
  nextCell : UInt32 := noCell

/-- The support and the expanded Cells, which all walks share. -/
structure Walks where
  support : Support := ∅
  expandedCells : List UInt32 := []

/-- One edge of the Cell that is expanded. -/
def considerNeighbor (selected expanded : List UInt32) (distance : UInt32 → Single) (rank : Nat)
    (targetCell : UInt32) (state : Support × NextCell) : Support × NextCell :=
  if targetCell ∈ selected then state
  else
    let rank := UInt32.ofNat rank
    let support :=
      match state.1.lookup targetCell with
      | none => state.1.insert targetCell rank
      | some found => state.1.insert targetCell (if rank < found then rank else found)
    let key := (distance targetCell, rank, targetCell)
    if targetCell ∉ expanded ∧ KeyLess key state.2.nextKey then
      (support, { nextKey := key, nextCell := targetCell })
    else (support, state.2)

/-- The walk from a Cell with the expansions that remain. -/
def walkFrom (cells : CellAdjacencyIndex) (selected : List UInt32) (distance : UInt32 → Single) :
    Nat → UInt32 → Walks → Except Error Walks
  | 0, _, walks => .ok walks
  | expansions + 1, sourceCell, walks => do
    let expandedCells := walks.expandedCells ++ [sourceCell]
    let neighbors ← cells.neighbors sourceCell
    let (support, next) ← scan32
      (fun rank targetCell state =>
        .ok (considerNeighbor selected expandedCells distance rank targetCell state))
      neighbors (walks.support, {})
    if next.nextCell = noCell then .ok { support, expandedCells }
    else walkFrom cells selected distance expansions next.nextCell { support, expandedCells }

/-- The expansions of one source, which share the configured number. -/
def expansionBudget (expansionCells sourceCellCount source : Nat) : Nat :=
  expansionCells / sourceCellCount + if source < expansionCells % sourceCellCount then 1 else 0

/-- The walks over a Cell adjacency: the support by the best rank, and the Cells whose
edges were read. -/
def supportFromAdjacency (cells : CellAdjacencyIndex) (expansionCells : Nat)
    (selected : List UInt32) (distance : UInt32 → Single) : Except Error Walks :=
  let sourceCellCount := min expansionCells selected.length
  scan (fun source sourceCell => walkFrom cells selected distance
      (expansionBudget expansionCells sourceCellCount source) sourceCell) 0
    (selected.take sourceCellCount) {}

/-- One edge of a node of a source Cell. -/
def countNeighbor (index : Index) (selected : List UInt32) (sourceCell neighbor : UInt32)
    (support : Support) : Except Error Support := do
  let targetCell ← cellId index neighbor
  if targetCell = sourceCell ∨ targetCell ∈ selected then .ok support
  else
    let count := (support.lookup targetCell).getD 0
    .ok (support.insert targetCell (if count = .ofNat invalidId then count else count + 1))

/-- Without a Cell adjacency the edges of all nodes of the source Cells are counted. -/
def supportFromTopology (search : CommunityPolarSearch) (topology : IoIndex.LoadedIndex)
    (expansionCells : Nat) (selected : List UInt32) : Except Error Walks := do
  let sources := selected.take (min expansionCells selected.length)
  let support ← scan (fun _ sourceCell => scan (fun _ (sourceNode : UInt32) support => do
      let neighbors ← topology.neighbors sourceNode.toNat
      scan (fun _ => countNeighbor search.index selected sourceCell) 0 neighbors support) 0
    (search.cellNodeIds sourceCell)) 0 sources ∅
  .ok { support, expandedCells := sources }

def collectSupport (search : CommunityPolarSearch) (config : CellAdjConfig)
    (topology : IoIndex.LoadedIndex) (query : List Single) (selected : List UInt32) :
    Except Error Walks :=
  let expansionCells := config.cellAdjExpansionCells.toNat
  match config.cellAdjacencyIndex with
  | some cells =>
    supportFromAdjacency cells expansionCells selected (search.cellQueryDistanceSquared query)
  | none => supportFromTopology search topology expansionCells selected

/-- `support_ranked` before it is sorted. -/
def supportRanked (config : CellAdjConfig) (order : IterationOrder) (support : Support) :
    List (UInt32 × UInt32) :=
  match config.cellAdjacencyIndex with
  | some _ => (support.visited order).map fun (cell, rank) => (rank, cell)
  | none => (support.visited order).map fun (cell, count) => (.ofNat invalidId - count, cell)

/-! ## Candidates -/

/-- `std::pair` of a support and a Cell. -/
def SupportBefore (left right : UInt32 × UInt32) : Prop :=
  left.1 < right.1 ∨ left.1 = right.1 ∧ left.2 ≤ right.2

instance (left right : UInt32 × UInt32) : Decidable (SupportBefore left right) :=
  inferInstanceAs (Decidable (_ ∨ _))

/-- The front of `support_ranked` after `std::partial_sort`. -/
def supportShortlist (shortlist : Nat) (supportRanked : List (UInt32 × UInt32)) :
    List (UInt32 × UInt32) :=
  (supportRanked.insertionSort SupportBefore).take shortlist

/-- The Cells of the shortlist, the nearest to the query first. -/
def rankCells (distance : UInt32 → Single) (shortlist : List (UInt32 × UInt32)) : List UInt32 :=
  let ranked := shortlist.map fun (support, cell) => (distance cell, support, cell)
  (ranked.insertionSort fun left right => ¬ KeyLess right left).map fun (_, _, cell) => cell

def pushAbsent (cells : List UInt32) (cell : UInt32) : List UInt32 :=
  if cell ∈ cells then cells else cells ++ [cell]

/-- `score_terminal_cell_batch`. -/
def scoreTerminalCellBatch (search : CommunityPolarSearch) (config : CellAdjConfig)
    (batch : CandidateBatch) (state : TerminalState) : Except Error TerminalState :=
  match batch.origin, batch.nodeIds with
  | .polarCell, first :: _ => do
    let selectedCell ← cellId search.index first
    let selected :=
      if (config.enableCellBatchSearch || config.enableCellAdjCorrection) ∧
          selectedCell ≠ noCell then
        pushAbsent state.cellBatchSelectedCells selectedCell
      else state.cellBatchSelectedCells
    reject (512 < batch.nodeIds.length)
      (.runtimeError "Terminal Cell batch exceeds PQ scratch capacity")
    let distances := (search.batchDistances batch).map (· * search.cellTerminalDistanceScale)
    .ok
      { cellBatchSelectedCells := selected
        terminalCellResults := state.terminalCellResults ++ batch.nodeIds.zip distances }
  | _, _ => .ok state

def correctionBatch (search : CommunityPolarSearch) (cell : UInt32) : CandidateBatch :=
  let nodes := search.cellNodeIds cell
  { origin := .polarCell, packetRecordCount := .ofNat nodes.length, nodeIds := nodes }

/-- What the correction leaves, with the Cells whose edges it read and those it scored. -/
structure CellAdjOutcome where
  state : TerminalState
  sourceCells : List UInt32 := []
  correctedCells : List UInt32 := []

/-- `score_cell_adj_candidates`. -/
def scoreCellAdjCandidates (search : CommunityPolarSearch) (config : CellAdjConfig)
    (topology : IoIndex.LoadedIndex) (order : IterationOrder) (query : List Single)
    (searchListSize : Nat) (state : TerminalState) : Except Error CellAdjOutcome :=
  let selected := state.cellBatchSelectedCells
  if config.enableCellAdjCorrection = false ∨ selected = [] ∨
      searchListSize < config.cellAdjMinSearchListSize.toNat ∨
      config.cellAdjMaxSearchListSize.toNat < searchListSize then
    .ok { state }
  else do
    let walks ← collectSupport search config topology query selected
    let ranked := rankCells (search.cellQueryDistanceSquared query)
      (supportShortlist config.cellAdjSupportShortlist.toNat
        (supportRanked config order walks.support))
    let correctedCells := ranked.take config.cellAdjCandidateCells.toNat
    let state ← scan (fun _ cell => scoreTerminalCellBatch search config
      (correctionBatch search cell)) 0 correctedCells state
    .ok
      { state :=
          { state with
            cellBatchSelectedCells := correctedCells.foldl pushAbsent state.cellBatchSelectedCells }
        sourceCells := walks.expandedCells
        correctedCells }

theorem sum_expansionBudget_range (expansionCells sourceCellCount sources : Nat) :
    ((List.range sources).map (expansionBudget expansionCells sourceCellCount)).sum =
      sources * (expansionCells / sourceCellCount) +
        min sources (expansionCells % sourceCellCount) := by
  induction sources with
  | zero => simp
  | succ sources ih =>
    rw [List.range_succ, List.map_append, List.sum_append, ih, List.map_singleton,
      List.sum_singleton, expansionBudget, Nat.succ_mul]
    split
    all_goals omega

theorem sum_expansionBudget {expansionCells sourceCellCount : Nat}
    (hsources : 0 < sourceCellCount) :
    ((List.range sourceCellCount).map (expansionBudget expansionCells sourceCellCount)).sum =
      expansionCells := by
  rw [sum_expansionBudget_range, Nat.min_eq_right (Nat.mod_lt _ hsources).le]
  exact Nat.div_add_mod expansionCells sourceCellCount

variable {selected : List UInt32} {search : CommunityPolarSearch} {topology : IoIndex.LoadedIndex}

theorem walkFrom_length {cells : CellAdjacencyIndex} {distance : UInt32 → Single} {expansions : Nat}
    {sourceCell : UInt32} {walks last : Walks}
    (hwalk : walkFrom cells selected distance expansions sourceCell walks = .ok last) :
    last.expandedCells.length ≤ walks.expandedCells.length + expansions := by
  induction expansions generalizing sourceCell walks with
  | zero =>
    obtain rfl := Except.ok.inj hwalk
    exact Nat.le_refl _
  | succ expansions ih =>
    simp only [walkFrom, bind_ok] at hwalk
    obtain ⟨neighbors, -, ⟨support, next⟩, -, hwalk⟩ := hwalk
    split at hwalk
    · obtain rfl := Except.ok.inj hwalk
      simp only [List.length_append, List.length_singleton]
      omega
    · have hlater := ih hwalk
      simp only [List.length_append, List.length_singleton] at hlater
      omega

theorem supportFromAdjacency_length {cells : CellAdjacencyIndex} {expansionCells : Nat}
    {distance : UInt32 → Single} {walks : Walks}
    (hwalks : supportFromAdjacency cells expansionCells selected distance = .ok walks) :
    walks.expandedCells.length ≤ expansionCells := by
  rcases Nat.eq_zero_or_pos (min expansionCells selected.length) with hnone | hsources
  · simp only [supportFromAdjacency, hnone, List.take_zero] at hwalks
    obtain rfl := Except.ok.inj hwalks
    exact Nat.zero_le _
  · have hspent := scan_invariant
      (motive := fun source walks => walks.expandedCells.length ≤
        ((List.range source).map
          (expansionBudget expansionCells (min expansionCells selected.length))).sum)
      hwalks (Nat.zero_le _) (by
        intro source sourceCell walks next _ hspent hwalk
        rw [Nat.zero_add] at hspent hwalk ⊢
        rw [List.range_succ, List.map_append, List.sum_append]
        exact (walkFrom_length hwalk).trans (Nat.add_le_add_right hspent _))
    rwa [Nat.zero_add, List.length_take, Nat.min_eq_left (Nat.min_le_right _ _),
      sum_expansionBudget hsources] at hspent

theorem supportFromTopology_length {expansionCells : Nat} {walks : Walks}
    (hwalks : supportFromTopology search topology expansionCells selected = .ok walks) :
    walks.expandedCells.length ≤ expansionCells := by
  simp only [supportFromTopology, bind_ok, Except.ok.injEq] at hwalks
  obtain ⟨support, -, rfl⟩ := hwalks
  rw [List.length_take]
  omega

instance : Std.Total SupportBefore where
  total left right := by
    simp only [SupportBefore, UInt32.lt_iff_toNat_lt, UInt32.le_iff_toNat_le, ← UInt32.toNat_inj]
    omega

instance : Std.Antisymm SupportBefore where
  antisymm left right hleft hright := by
    simp only [SupportBefore, UInt32.lt_iff_toNat_lt, UInt32.le_iff_toNat_le,
      ← UInt32.toNat_inj] at hleft hright
    apply Prod.ext
    all_goals
      rw [← UInt32.toNat_inj]
      omega

instance : IsTrans (UInt32 × UInt32) SupportBefore where
  trans first second third hfirst hsecond := by
    simp only [SupportBefore, UInt32.lt_iff_toNat_lt, UInt32.le_iff_toNat_le,
      ← UInt32.toNat_inj] at hfirst hsecond ⊢
    omega

theorem supportShortlist_perm {first second : List (UInt32 × UInt32)} (hperm : first.Perm second)
    (shortlist : Nat) : supportShortlist shortlist first = supportShortlist shortlist second := by
  have hsame : first.insertionSort SupportBefore = second.insertionSort SupportBefore :=
    List.Perm.eq_of_pairwise' (List.pairwise_insertionSort SupportBefore first)
      (List.pairwise_insertionSort SupportBefore second)
      ((List.perm_insertionSort _ first).trans
        (hperm.trans (List.perm_insertionSort _ second).symm))
  rw [supportShortlist, supportShortlist, hsame]

theorem supportRanked_perm (config : CellAdjConfig) (first second : IterationOrder)
    (support : Support) :
    (supportRanked config first support).Perm (supportRanked config second support) := by
  have hvisited : (support.visited first).Perm (support.visited second) :=
    (first.perm _).trans (second.perm _).symm
  unfold supportRanked
  split
  · exact hvisited.map _
  · exact hvisited.map _

theorem scoreCellAdjCandidates_order (search : CommunityPolarSearch) (config : CellAdjConfig)
    (topology : IoIndex.LoadedIndex) (first second : IterationOrder) (query : List Single)
    (searchListSize : Nat) (state : TerminalState) :
    scoreCellAdjCandidates search config topology first query searchListSize state =
      scoreCellAdjCandidates search config topology second query searchListSize state := by
  unfold scoreCellAdjCandidates
  apply if_congr Iff.rfl rfl
  refine bind_congr fun walks => ?_
  rw [supportShortlist_perm (supportRanked_perm config first second walks.support)]

/-! ## The selected Cells -/

/-- The Cells that were appended are candidates, none twice. -/
def Appended (candidates selected now : List UInt32) : Prop :=
  ∃ added, now = selected ++ added ∧ added.Nodup ∧ (∀ cell ∈ added, cell ∉ selected) ∧
    added ⊆ candidates

namespace Appended

variable {candidates selected now : List UInt32}

theorem refl (candidates selected : List UInt32) : Appended candidates selected selected :=
  ⟨[], (List.append_nil _).symm, List.nodup_nil, nofun, List.nil_subset _⟩

theorem pushAbsent {cell : UInt32} (happended : Appended candidates selected now)
    (hcell : cell ∈ candidates) : Appended candidates selected (pushAbsent now cell) := by
  unfold Search.pushAbsent
  split
  · exact happended
  next habsent =>
    obtain ⟨added, rfl, hnodup, hnew, hsubset⟩ := happended
    rw [List.mem_append, not_or] at habsent
    refine ⟨added ++ [cell], List.append_assoc _ _ _, ?_, ?_, ?_⟩
    · exact List.nodup_append.mpr ⟨hnodup, List.nodup_singleton cell, fun other hother last hlast =>
        by
          rw [List.mem_singleton.mp hlast]
          rintro rfl
          exact habsent.2 hother⟩
    · intro other hother
      rcases List.mem_append.mp hother with hother | hlast
      · exact hnew other hother
      · rw [List.mem_singleton.mp hlast]
        exact habsent.1
    · exact List.append_subset.mpr ⟨hsubset, fun other hother => by
        rwa [List.mem_singleton.mp hother]⟩

theorem foldl {cells : List UInt32} (happended : Appended candidates selected now)
    (hcells : cells ⊆ candidates) :
    Appended candidates selected (cells.foldl Search.pushAbsent now) := by
  induction cells generalizing now with
  | nil => exact happended
  | cons cell cells ih =>
    obtain ⟨hcell, hcells⟩ := List.cons_subset.mp hcells
    exact ih (happended.pushAbsent hcell) hcells

theorem scoreTerminalCellBatch {search : CommunityPolarSearch} {config : CellAdjConfig}
    {cell : UInt32} {state next : TerminalState}
    (happended : Appended candidates selected state.cellBatchSelectedCells)
    (hcell : cell ∈ candidates)
    (hscored : scoreTerminalCellBatch search config (correctionBatch search cell) state =
      .ok next) : Appended candidates selected next.cellBatchSelectedCells := by
  unfold Search.scoreTerminalCellBatch at hscored
  split at hscored
  next first rest _ hnodes =>
    have hfirst : cellId search.index first = .ok cell :=
      PacketNodes.cellId_cellNodeIds search.valid search.loaded hnodes
    simp only [hfirst, bind_ok, Except.ok.injEq, exists_eq_left', reject_ok] at hscored
    obtain ⟨_, -, rfl⟩ := hscored
    dsimp only
    split
    · exact happended.pushAbsent hcell
    · exact happended
  next =>
    obtain rfl := Except.ok.inj hscored
    exact happended

end Appended

theorem collectSupport_length {config : CellAdjConfig} {query : List Single} {walks : Walks}
    (hwalks : collectSupport search config topology query selected = .ok walks) :
    walks.expandedCells.length ≤ config.cellAdjExpansionCells.toNat := by
  unfold collectSupport at hwalks
  split at hwalks
  · exact supportFromAdjacency_length hwalks
  · exact supportFromTopology_length hwalks

/-- The configured bounds hold of what the correction has done. -/
structure CellAdjBounds (config : CellAdjConfig) (before : TerminalState)
    (outcome : CellAdjOutcome) : Prop where
  sources : outcome.sourceCells.length ≤ config.cellAdjExpansionCells.toNat
  appended : ∃ added,
    outcome.state.cellBatchSelectedCells = before.cellBatchSelectedCells ++ added ∧
      added.length ≤ config.cellAdjCandidateCells.toNat ∧ added.Nodup ∧
      ∀ cell ∈ added, cell ∉ before.cellBatchSelectedCells

theorem scoreCellAdjCandidates_bounds {config : CellAdjConfig} {order : IterationOrder}
    {query : List Single} {searchListSize : Nat} {state : TerminalState} {outcome : CellAdjOutcome}
    (hscored : scoreCellAdjCandidates search config topology order query searchListSize state =
      .ok outcome) : CellAdjBounds config state outcome := by
  unfold scoreCellAdjCandidates at hscored
  dsimp only at hscored
  split at hscored
  · obtain rfl := Except.ok.inj hscored
    exact ⟨Nat.zero_le _, [], (List.append_nil _).symm, Nat.zero_le _, List.nodup_nil, nofun⟩
  · simp only [bind_ok, Except.ok.injEq] at hscored
    obtain ⟨walks, hwalks, last, hloop, rfl⟩ := hscored
    refine ⟨collectSupport_length hwalks, ?_⟩
    have hcount := List.length_take_le config.cellAdjCandidateCells.toNat
      (rankCells (search.cellQueryDistanceSquared query)
        (supportShortlist config.cellAdjSupportShortlist.toNat
          (supportRanked config order walks.support)))
    generalize List.take config.cellAdjCandidateCells.toNat _ = correctedCells at hloop hcount ⊢
    have hscanned := scan_invariant
      (motive := fun _ (now : TerminalState) =>
        Appended correctedCells state.cellBatchSelectedCells now.cellBatchSelectedCells)
      hloop (.refl _ _) fun _ _ _ _ hcell happended hbody =>
        happended.scoreTerminalCellBatch (List.mem_of_getElem? hcell) hbody
    obtain ⟨added, hadded, hnodup, hnew, hsubset⟩ := hscanned.foldl (List.Subset.refl _)
    exact ⟨added, hadded, (hnodup.subperm hsubset).length_le.trans hcount, hnodup, hnew⟩

/-- For every selected list and every order of the hash table: the budgets of the sources
are the configured number, the bounds hold, and another order has the same outcome. -/
theorem cellAdjCorrection_bounded (search : CommunityPolarSearch) (config : CellAdjConfig)
    (topology : IoIndex.LoadedIndex) (order : IterationOrder) (query : List Single)
    (searchListSize : Nat) (state : TerminalState) :
    (state.cellBatchSelectedCells ≠ [] →
      ((List.range (min config.cellAdjExpansionCells.toNat
          state.cellBatchSelectedCells.length)).map
        (expansionBudget config.cellAdjExpansionCells.toNat
          (min config.cellAdjExpansionCells.toNat
            state.cellBatchSelectedCells.length))).sum = config.cellAdjExpansionCells.toNat) ∧
      (∀ outcome, scoreCellAdjCandidates search config topology order query searchListSize state =
        .ok outcome → CellAdjBounds config state outcome) ∧
      ∀ other, scoreCellAdjCandidates search config topology other query searchListSize state =
        scoreCellAdjCandidates search config topology order query searchListSize state := by
  refine ⟨fun hselected => ?_, fun outcome => scoreCellAdjCandidates_bounds, fun other =>
    scoreCellAdjCandidates_order search config topology other order query searchListSize state⟩
  have hlength := List.length_pos_iff.mpr hselected
  rcases Nat.eq_zero_or_pos config.cellAdjExpansionCells.toNat with hzero | hexpansions
  · rw [hzero, Nat.zero_min]
    rfl
  · exact sum_expansionBudget (by omega)

def twoCells : CommunityPolarSearch where
  index := twoNodes
  packets := { nodeToBlock := [0, 1], packetNodeIds := [0, 1] }
  valid := twoNodes_valid
  loaded := by decide +kernel
  queryDistanceSquared := fun _ _ => .zero
  batchDistances := fun batch => batch.nodeIds.map fun _ => .one
  cellTerminalDistanceScale := .one

def edgeToSecond : CellAdjConfig where
  enableCellAdjCorrection := true
  cellAdjCandidateCells := 1
  cellAdjSupportShortlist := 1
  cellAdjExpansionCells := 2
  cellAdjMinSearchListSize := 1
  cellAdjMaxSearchListSize := 10
  cellAdjacencyIndex := some ⟨2, [0, 1, 1], [1]⟩

def noTopology : IoIndex.LoadedIndex where
  pointCount := 0
  dimension := 1
  maxDegree := 0
  edgeCount := 0
  vectorPageCount := 0
  vectorLayout := .originalId
  neighborOffsets := [0]
  adjacency := .whole []
  vectorLocations := []
  cellPageRanges := []
  nodePrefetchPages := []
  communityPolarFingerprint := {}
  gatewayPrefetchHints := []

/-- The second Cell joins the first, and no third is expanded. -/
theorem cellAdjCorrection_bounded_second :
    ∃ outcome, scoreCellAdjCandidates twoCells edgeToSecond noTopology ⟨id, fun _ => .refl _⟩
        [.zero] 5 ⟨[0], []⟩ = .ok outcome ∧
      outcome.state.cellBatchSelectedCells = [0, 1] ∧ outcome.sourceCells.length ≤ 2 := by
  have hrun : ∃ outcome, scoreCellAdjCandidates twoCells edgeToSecond noTopology
      ⟨id, fun _ => .refl _⟩ [.zero] 5 ⟨[0], []⟩ = .ok outcome ∧
        outcome.state.cellBatchSelectedCells = [0, 1] :=
    exists_ok (by decide +kernel)
  obtain ⟨outcome, hscored, hselected⟩ := hrun
  have hbounds := (cellAdjCorrection_bounded twoCells edgeToSecond noTopology ⟨id, fun _ => .refl _⟩
    [.zero] 5 ⟨[0], []⟩).2.1 outcome hscored
  exact ⟨outcome, hscored, hselected, hbounds.sources⟩

end SkipCell.Search

import SkipCell.Foundation.AssocMap
import SkipCell.Search.CellEvidence
import SkipCell.Search.NeighborQueue
import SkipCell.Search.Visited

/-! # Expanding a Base node

The neighbors of a node that is expanded are scored. The ones that were not visited become
candidates and give evidence for their Cells and Blocks, the others are marked as reached.
With `enable_cell_pq_filter_visited` the neighbors are marked as visited before they are
scored, so that only the new ones are.
-/

namespace SkipCell.Search

open Foundation Sidecar

namespace NeighborQueue

/-- `candidate_threshold`. -/
def candidateThreshold (queue : NeighborQueue) : Single :=
  if queue.items.length < queue.capacity then .infinity
  else (queue.items.getLast?.map (·.distance)).getD .infinity

end NeighborQueue

structure Expansion where
  candidateQueue : NeighborQueue
  visited : Finset UInt32
  macroOrigins : AssocMap UInt32 CandidateOrigin
  macroBlockOrdinals : AssocMap UInt32 UInt32
  evidence : CellEvidence

structure ExpansionConfig extends EvidenceConfig where
  useHybrid : Bool := true
  forcedTerminalTree : Bool := false
  enableHybridGraphHooks : Bool := true
  cellValueTelemetry : Bool := false

namespace Expansion

def markBaseReached (config : ExpansionConfig) (state : Expansion) (node : UInt32) : Expansion :=
  if config.useHybrid ∧ ¬ config.forcedTerminalTree ∧ config.enableHybridGraphHooks then
    { state with
      macroOrigins := state.macroOrigins.erase node
      macroBlockOrdinals :=
        if config.cellValueTelemetry then state.macroBlockOrdinals.erase node
        else state.macroBlockOrdinals }
  else state

section Expand

variable (resident : ResidentIndex) (config : ExpansionConfig) (distance : UInt32 → Single)

/-- `record_base_candidates` returns before it looks at a neighbor. -/
def RecordsNothing (evidence : CellEvidence) : Prop :=
  ¬ config.useHybrid ∨ config.forcedTerminalTree ∨ config.sourceCellBatching ∨
    evidence.acceptsCellEvidence config.toEvidenceConfig = false

instance (evidence : CellEvidence) : Decidable (RecordsNothing config evidence) :=
  inferInstanceAs (Decidable (_ ∨ _))

def evidenceNodes (state : Expansion) (neighbors : List UInt32) : List (UInt32 × Single) :=
  (neighbors.map fun node => (node, distance node)).filter fun candidate =>
    decide (candidate.1 ∉ state.visited ∧
      ¬ state.candidateQueue.candidateThreshold < candidate.2)

def recordBaseCandidates (state : Expansion) (sourceNode : UInt32) (neighbors : List UInt32) :
    Expansion :=
  if RecordsNothing config state.evidence then state
  else
    { state with
      evidence := state.evidence.observeBaseCandidates resident config.toEvidenceConfig sourceNode
        (evidenceNodes distance state neighbors) }

def insertCandidate (state : Expansion) (node : UInt32) : Expansion :=
  { state with candidateQueue := state.candidateQueue.insert ⟨node, distance node, false⟩ }

def markVisited : List UInt32 → Expansion → Expansion × List UInt32
  | [], state => (state, [])
  | node :: neighbors, state =>
    if node ∈ state.visited then markVisited neighbors (state.markBaseReached config node)
    else
      let (next, unvisited) :=
        markVisited neighbors { state with visited := insert node state.visited }
      (next, node :: unvisited)

/-- The branch with `enable_cell_pq_filter_visited`. -/
def expandFiltered (state : Expansion) (sourceNode : UInt32) (neighbors : List UInt32) :
    Expansion :=
  let (marked, unvisited) := markVisited config neighbors state
  unvisited.foldl (insertCandidate distance)
    (recordBaseCandidates resident config distance marked sourceNode unvisited)

/-- One turn of the loop of the other branch. -/
def scoreNeighbor (state : Expansion) (node : UInt32) : Expansion :=
  if node ∈ state.visited then state.markBaseReached config node
  else { state with visited := insert node state.visited }.insertCandidate distance node

/-- The branch without the filter. -/
def expandPlain (state : Expansion) (sourceNode : UInt32) (neighbors : List UInt32) : Expansion :=
  neighbors.foldl (scoreNeighbor config distance)
    (recordBaseCandidates resident config distance state sourceNode neighbors)

end Expand

section Branches

variable {resident : ResidentIndex} {config : ExpansionConfig} {distance : UInt32 → Single}

theorem markVisited_spec (config : ExpansionConfig) (neighbors : List UInt32)
    (state : Expansion) :
    (markVisited config neighbors state).1.candidateQueue = state.candidateQueue ∧
      (markVisited config neighbors state).1.evidence = state.evidence ∧
      state.visited ⊆ (markVisited config neighbors state).1.visited ∧
      ∀ node ∈ (markVisited config neighbors state).2,
        node ∈ (markVisited config neighbors state).1.visited := by
  induction neighbors generalizing state with
  | nil => exact ⟨rfl, rfl, Finset.Subset.refl _, nofun⟩
  | cons node neighbors ih =>
    rw [markVisited]
    split
    · have hreached : (state.markBaseReached config node).candidateQueue = state.candidateQueue ∧
          (state.markBaseReached config node).evidence = state.evidence ∧
          (state.markBaseReached config node).visited = state.visited := by
        unfold markBaseReached
        split <;> exact ⟨rfl, rfl, rfl⟩
      obtain ⟨hqueue, hevidence, hvisited, hlisted⟩ := ih (state.markBaseReached config node)
      rw [hreached.1] at hqueue
      rw [hreached.2.1] at hevidence
      rw [hreached.2.2] at hvisited
      exact ⟨hqueue, hevidence, hvisited, hlisted⟩
    · obtain ⟨hqueue, hevidence, hvisited, hlisted⟩ :=
        ih { state with visited := insert node state.visited }
      refine ⟨hqueue, hevidence, (Finset.subset_insert _ _).trans hvisited, fun other hother => ?_⟩
      rcases List.mem_cons.mp hother with rfl | hlater
      · exact hvisited (Finset.mem_insert_self _ _)
      · exact hlisted other hlater

/-- The same state with another queue and other evidence. -/
def withResults (state : Expansion) (queue : NeighborQueue) (evidence : CellEvidence) : Expansion :=
  { state with candidateQueue := queue, evidence := evidence }

theorem markBaseReached_withResults (state : Expansion) (queue : NeighborQueue)
    (evidence : CellEvidence) (node : UInt32) :
    (state.withResults queue evidence).markBaseReached config node =
      (state.markBaseReached config node).withResults queue evidence := by
  unfold markBaseReached
  split <;> rfl

theorem foldl_scoreNeighbor (neighbors : List UInt32) (state : Expansion) (queue : NeighborQueue)
    (evidence : CellEvidence) :
    neighbors.foldl (scoreNeighbor config distance) (state.withResults queue evidence) =
      (markVisited config neighbors state).2.foldl (insertCandidate distance)
        ((markVisited config neighbors state).1.withResults queue evidence) := by
  induction neighbors generalizing state queue with
  | nil => rfl
  | cons node neighbors ih =>
    rw [List.foldl_cons, markVisited, scoreNeighbor]
    by_cases hvisited : node ∈ state.visited
    · have hresults : node ∈ (state.withResults queue evidence).visited := hvisited
      rw [if_pos hvisited, if_pos hresults, markBaseReached_withResults]
      exact ih (state.markBaseReached config node) queue
    · have hresults : node ∉ (state.withResults queue evidence).visited := hvisited
      rw [if_neg hvisited, if_neg hresults]
      exact ih { state with visited := insert node state.visited }
        (queue.insert ⟨node, distance node, false⟩)

theorem foldl_insertCandidate (nodes : List UInt32) (state : Expansion) (queue : NeighborQueue)
    (evidence : CellEvidence) :
    nodes.foldl (insertCandidate distance) (state.withResults queue evidence) =
      state.withResults
        (nodes.foldl (fun queue node => queue.insert ⟨node, distance node, false⟩) queue)
        evidence := by
  induction nodes generalizing queue with
  | nil => rfl
  | cons node nodes ih => exact ih (queue.insert ⟨node, distance node, false⟩)

theorem recordBaseCandidates_eq (state : Expansion) (sourceNode : UInt32)
    (neighbors : List UInt32) :
    recordBaseCandidates resident config distance state sourceNode neighbors =
      state.withResults state.candidateQueue
        (recordBaseCandidates resident config distance state sourceNode neighbors).evidence := by
  unfold recordBaseCandidates
  split <;> rfl

theorem recordBaseCandidates_marked (state : Expansion) (sourceNode : UInt32)
    (neighbors : List UInt32) :
    (recordBaseCandidates resident config distance (markVisited config neighbors state).1 sourceNode
        (markVisited config neighbors state).2).evidence =
      (recordBaseCandidates resident config distance state sourceNode []).evidence := by
  obtain ⟨-, hevidence, -, hlisted⟩ := markVisited_spec config neighbors state
  have hnone : evidenceNodes distance (markVisited config neighbors state).1
      (markVisited config neighbors state).2 = [] := by
    refine List.filter_eq_nil_iff.mpr fun candidate hcandidate => ?_
    obtain ⟨node, hnode, rfl⟩ := List.mem_map.mp hcandidate
    simp [hlisted node hnode]
  unfold recordBaseCandidates
  rw [hevidence, hnone]
  split
  · exact hevidence
  · rfl

/-- Both branches have the same queue, visited nodes and origins. -/
theorem expand_eq (resident : ResidentIndex) (config : ExpansionConfig)
    (distance : UInt32 → Single) (state : Expansion) (sourceNode : UInt32)
    (neighbors : List UInt32) : ∃ next : Expansion,
      expandFiltered resident config distance state sourceNode neighbors =
          next.withResults next.candidateQueue
            (recordBaseCandidates resident config distance state sourceNode []).evidence ∧
        expandPlain resident config distance state sourceNode neighbors =
          next.withResults next.candidateQueue
            (recordBaseCandidates resident config distance state sourceNode neighbors).evidence := by
  have hqueue := (markVisited_spec config neighbors state).1
  refine ⟨(markVisited config neighbors state).1.withResults
    ((markVisited config neighbors state).2.foldl
      (fun queue node => queue.insert ⟨node, distance node, false⟩) state.candidateQueue)
    state.evidence, ?_, ?_⟩
  · have hfiltered : expandFiltered resident config distance state sourceNode neighbors =
        (markVisited config neighbors state).2.foldl (insertCandidate distance)
          (recordBaseCandidates resident config distance (markVisited config neighbors state).1
            sourceNode (markVisited config neighbors state).2) := rfl
    rw [hfiltered, recordBaseCandidates_eq (markVisited config neighbors state).1,
      foldl_insertCandidate, recordBaseCandidates_marked, hqueue]
    rfl
  · rw [expandPlain, recordBaseCandidates_eq, foldl_scoreNeighbor, foldl_insertCandidate]
    rfl

/-- No neighbor that the plain branch would note says more than the source does. -/
def AddsNothing (resident : ResidentIndex) (config : ExpansionConfig) (distance : UInt32 → Single)
    (state : Expansion) (sourceNode : UInt32) (neighbors : List UInt32) : Prop :=
  RecordsNothing config state.evidence ∨
    CellEvidence.PassesOver resident config.toEvidenceConfig state.evidence sourceNode ∨
    ∀ node ∈ neighbors, node ∉ state.visited →
      ¬ state.candidateQueue.candidateThreshold < distance node →
      CellEvidence.Counts resident (node, distance node) →
        CellEvidence.Own resident state.evidence.cellBestGraphDistance
          state.evidence.blockBestGraphDistance (resident.nodeCell sourceNode)
          (resident.nodeBlock sourceNode) (node, distance node)

theorem recordBaseCandidates_eq_iff {state : Expansion} {sourceNode : UInt32}
    {neighbors : List UInt32}
    (hsized : state.evidence.acceptsCellEvidence config.toEvidenceConfig = true →
      state.evidence.Sized resident.index) :
    (recordBaseCandidates resident config distance state sourceNode neighbors).evidence =
        (recordBaseCandidates resident config distance state sourceNode []).evidence ↔
      AddsNothing resident config distance state sourceNode neighbors := by
  unfold recordBaseCandidates AddsNothing
  by_cases hnothing : RecordsNothing config state.evidence
  · simp [hnothing]
  · have hnodes : ∀ property : UInt32 × Single → Prop,
        (∀ candidate ∈ evidenceNodes distance state neighbors, property candidate) ↔
          ∀ node ∈ neighbors, node ∉ state.visited →
            ¬ state.candidateQueue.candidateThreshold < distance node →
              property (node, distance node) := by
      intro property
      simp [evidenceNodes]
    rw [if_neg hnothing, if_neg hnothing, or_iff_right hnothing, ← hnodes fun candidate =>
      CellEvidence.Counts resident candidate → CellEvidence.Own resident
        state.evidence.cellBestGraphDistance state.evidence.blockBestGraphDistance
        (resident.nodeCell sourceNode) (resident.nodeBlock sourceNode) candidate]
    exact CellEvidence.observeBaseCandidates_eq_iff hsized

end Branches

/-- For every index, configuration, distance, state and list of neighbors: the filter
changes the evidence alone, and nothing exactly where the neighbors add nothing. The bits
answer as the hash set does over every sequence of queries. -/
theorem expandFiltered_eq_iff (resident : ResidentIndex) (config : ExpansionConfig)
    (distance : UInt32 → Single) (state : Expansion) (sourceNode : UInt32)
    (neighbors : List UInt32)
    (hsized : state.evidence.acceptsCellEvidence config.toEvidenceConfig = true →
      state.evidence.Sized resident.index) :
    (expandFiltered resident config distance state sourceNode neighbors =
        expandPlain resident config distance state sourceNode neighbors ↔
      AddsNothing resident config distance state sourceNode neighbors) ∧
    { expandFiltered resident config distance state sourceNode neighbors with
        evidence := (expandPlain resident config distance state sourceNode neighbors).evidence } =
      expandPlain resident config distance state sourceNode neighbors ∧
    ∀ queries, DenseVisited.run queries {} =
      .ok (queries.map fun query => answersHash query.calls ∅) := by
  obtain ⟨next, hfiltered, hplain⟩ :=
    expand_eq resident config distance state sourceNode neighbors
  refine ⟨?_, ?_, fun queries => DenseVisited.run_eq DenseVisited.logged_nothing⟩
  · rw [hfiltered, hplain, ← recordBaseCandidates_eq_iff hsized]
    constructor
    · exact fun hsame => (congrArg Expansion.evidence hsame).symm
    · exact fun hsame => congrArg (next.withResults next.candidateQueue) hsame.symm
  · rw [hfiltered, hplain]
    rfl

/-! A valid index with two Cells, of which neither is for the graph only, and a query that
expands the first node. -/

def openCells : Index :=
  { twoNodes with
    communities :=
      [⟨0, 1, 5, 0, 0, 1, 0, 0, .zero, false, 0, 1, 0, 1⟩,
        ⟨1, 1, 5, 0, 1, 0, 1, 1, .zero, false, 1, 1, 1, 1⟩] }

def openResident : ResidentIndex where
  index := openCells
  packets := { nodeToBlock := [0, 1], packetNodeIds := [0, 1] }
  valid := by decide +kernel
  loaded := by decide +kernel

def begunExpansion : Expansion where
  candidateQueue := { capacity := 2 }
  visited := {0}
  macroOrigins := ∅
  macroBlockOrdinals := ∅
  evidence :=
    { cellCandidateCreated := [false, false]
      cellSupportCounts := [0, 0]
      blockSupportCounts := [0, 0]
      cellBestGraphDistance := [.infinity, .infinity]
      blockBestGraphDistance := [.infinity, .infinity]
      touchedCellFlags := [false, false]
      touchedBlockFlags := [false, false] }

/-- The second node is new. The filter keeps its Cell from being supported. -/
theorem expandFiltered_refuted :
    (expandFiltered openResident {} (fun _ => .one) begunExpansion 0 [1]).evidence.cellSupportCounts =
        [1, 0] ∧
      (expandPlain openResident {} (fun _ => .one) begunExpansion 0 [1]).evidence.cellSupportCounts =
        [1, 1] := by
  decide +kernel

/-- Where the only neighbor was visited before, both branches agree. -/
theorem expandFiltered_eq_iff_visited :
    expandFiltered openResident {} (fun _ => .one) begunExpansion 0 [0] =
      expandPlain openResident {} (fun _ => .one) begunExpansion 0 [0] := by
  have hsized : begunExpansion.evidence.Sized openResident.index := ⟨by decide, by decide⟩
  refine (expandFiltered_eq_iff openResident {} (fun _ => .one) begunExpansion 0 [0]
    fun _ => hsized).1.mpr (.inr (.inr fun node hnode hunvisited => ?_))
  rw [List.mem_singleton.mp hnode] at hunvisited
  exact absurd (Finset.mem_singleton_self 0) hunvisited

end Expansion

end SkipCell.Search

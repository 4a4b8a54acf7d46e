import SkipCell.Foundation.BudgetedSearch
import SkipCell.Sidecar.Validate

/-! # Entries from the MemGraph

Some Base nodes are kept in memory with edges to their nearest among them. A query scores
four anchors and what they lead to, the best first and up to a budget, and starts at the
best of the scored nodes.
-/

namespace SkipCell.Search

open Foundation Sidecar

/-- The members that `configure_memgraph` fills. An edge is the place of its target in
`memgraph_nodes_`. -/
structure MemGraph where
  memgraphNodes : List UInt32 := []
  memgraphEntryCandidates : UInt32 := 0
  memgraphDegree : UInt32 := 0
  memgraphAdjacency : List UInt32 := []
  deriving DecidableEq

/-- A distance and an id in the order that `std::pair` and `neighbor_t` have. -/
def DistanceBefore (left right : Single × UInt32) : Prop :=
  left.1 < right.1 ∨ left.1 ≤ right.1 ∧ right.1 ≤ left.1 ∧ left.2 ≤ right.2

instance (left right : Single × UInt32) : Decidable (DistanceBefore left right) :=
  inferInstanceAs (Decidable (_ ∨ _))

/-- The places of the nearest other nodes, ties in the order of their Base ids. -/
def nearestLocals (distance : UInt32 → UInt32 → Single) (nodes : List UInt32) (degree : Nat)
    (source : UInt32) (node : Nat) : List UInt32 :=
  let candidates := (nodes.zipIdx.filter fun (_, target) => target ≠ node).map
    fun (targetNode, target) => ((distance source targetNode, targetNode), target)
  ((candidates.insertionSort fun left right => DistanceBefore left.1 right.1).take degree).map
    fun (_, target) => UInt32.ofNat target

/-- `configure_memgraph`, with the distance between the vectors that the codes of two Base
nodes stand for. -/
def configureMemgraph (isLoaded : Bool) (numPoints : Nat)
    (distance : UInt32 → UInt32 → Single) (nodes : List UInt32) (entryCandidates : UInt32) :
    Except Error MemGraph := do
  reject (isLoaded = false)
    (.runtimeError "MemGraph configuration requires a loaded PQ index")
  reject (nodes ≠ [] ∧ entryCandidates = 0 ∨ nodes.length < entryCandidates.toNat)
    (.runtimeError "MemGraph entry-candidate count is invalid")
  reject ((∃ node ∈ nodes, numPoints ≤ node.toNat) ∨ ¬ nodes.Nodup)
    (.runtimeError "MemGraph nodes must be unique valid Base IDs")
  let degree := if 1 < nodes.length then min 16 (nodes.length - 1) else 0
  .ok
    { memgraphNodes := nodes
      memgraphEntryCandidates := entryCandidates
      memgraphDegree := .ofNat degree
      memgraphAdjacency := nodes.zipIdx.flatMap fun (source, node) =>
        nearestLocals distance nodes degree source node }

/-! ## The scan of a query -/

/-- `memgraph_seen`, `memgraph_scores` and `memgraph_frontier`, the top of the queue first. -/
structure MemGraphScan where
  memgraphSeen : List Bool
  memgraphScores : List (UInt32 × Single) := []
  memgraphFrontier : List (Single × UInt32) := []

namespace MemGraph

variable (graph : MemGraph) (queryDistance : UInt32 → Single)

/-- The product of two numbers of 32 bits starts over. -/
def scoreBudget : Nat :=
  min graph.memgraphNodes.length (max 64 (graph.memgraphEntryCandidates.toNat * 32 % 2 ^ 32))

def anchors : List UInt32 :=
  let anchorCount := min 4 graph.memgraphNodes.length
  (List.range anchorCount).map fun anchor =>
    .ofNat (anchor * graph.memgraphNodes.length / anchorCount)

/-- Marks a place, and puts it into the batch when it was not seen before. -/
def markSeen (place : UInt32) (seen : List Bool) (batch : List UInt32) :
    Except Error (List Bool × List UInt32) := do
  let mark ← element .outOfBounds seen place.toNat
  .ok (if mark then (seen, batch) else (seen.set place.toNat true, batch ++ [place]))

/-- `score_memgraph_batch` for one place of the batch. -/
def scoreLocal (place : UInt32) (scan : MemGraphScan) : Except Error MemGraphScan := do
  let node ← element .outOfBounds graph.memgraphNodes place.toNat
  .ok
    { scan with
      memgraphScores := scan.memgraphScores ++ [(node, queryDistance node)]
      memgraphFrontier :=
        scan.memgraphFrontier.orderedInsert DistanceBefore (queryDistance node, place) }

def scoreBatch (batch : List UInt32) (state : MemGraphScan) : Except Error MemGraphScan :=
  scan (fun _ => graph.scoreLocal queryDistance) 0 batch state

/-- The loop over the edges that remain, while the batch has room. -/
def collectEdges (place : UInt32) (room : Nat) :
    List Nat → List Bool × List UInt32 → Except Error (List Bool × List UInt32)
  | [], marked => .ok marked
  | edge :: edges, marked =>
    if room ≤ marked.2.length then .ok marked
    else do
      let neighbor ← element .outOfBounds graph.memgraphAdjacency
        ((place.toNat * graph.memgraphDegree.toNat + edge) % 2 ^ 32)
      let marked ← markSeen neighbor marked.1 marked.2
      collectEdges place room edges marked

/-- The loop over the frontier; the fuel bounds its turns. -/
def expandFrontier : Nat → MemGraphScan → Except Error MemGraphScan
  | 0, _ => .error .endless
  | fuel + 1, scan =>
    match scan.memgraphFrontier with
    | [] => .ok scan
    | (_, place) :: frontier =>
      if graph.scoreBudget ≤ scan.memgraphScores.length then .ok scan
      else do
        let (seen, batch) ← graph.collectEdges place
          (graph.scoreBudget - scan.memgraphScores.length)
          (List.range graph.memgraphDegree.toNat) (scan.memgraphSeen, [])
        let scan ← graph.scoreBatch queryDistance batch
          { scan with memgraphSeen := seen, memgraphFrontier := frontier }
        expandFrontier fuel scan

/-- The scored nodes. -/
def scanMemgraph : Except Error (List (UInt32 × Single)) :=
  if graph.memgraphNodes = [] then .ok []
  else do
    let (seen, batch) ← scan (fun _ place marked => markSeen place marked.1 marked.2) 0 graph.anchors
      (List.replicate graph.memgraphNodes.length false, [])
    let state ← graph.scoreBatch queryDistance batch { memgraphSeen := seen }
    let state ← graph.expandFrontier queryDistance (graph.memgraphNodes.length + 1) state
    .ok state.memgraphScores

/-- The `std::partial_sort` and the loop over its front, which the source does unchecked. -/
def bestScores (scores : List (UInt32 × Single)) : Except Error (List (UInt32 × Single)) := do
  reject (scores.length < graph.memgraphEntryCandidates.toNat) .outOfBounds
  .ok ((scores.insertionSort fun left right => DistanceBefore left.swap right.swap).take
    graph.memgraphEntryCandidates.toNat)

end MemGraph

/-! ## Well-formed graphs -/

namespace MemGraph

/-- The Base id at a place. -/
def node (graph : MemGraph) (place : UInt32) : UInt32 :=
  graph.memgraphNodes.getD place.toNat 0

/-- Where the scan finds an edge of a place to lead. -/
def target (graph : MemGraph) (place : UInt32) (edge : Nat) : Option UInt32 :=
  graph.memgraphAdjacency[(place.toNat * graph.memgraphDegree.toNat + edge) % 2 ^ 32]?

/-- The places that the scan finds next to a place. -/
def neighbors (graph : MemGraph) (place : UInt32) : List UInt32 :=
  (List.range graph.memgraphDegree.toNat).filterMap (graph.target place)

/-- What `configure_memgraph` promises of its arrays. -/
structure Formed (graph : MemGraph) : Prop where
  nodup : graph.memgraphNodes.Nodup
  length : graph.memgraphNodes.length ≤ 2 ^ 32
  entries : graph.memgraphEntryCandidates.toNat ≤ graph.memgraphNodes.length
  adjacency : graph.memgraphAdjacency.length =
    graph.memgraphNodes.length * graph.memgraphDegree.toNat
  targets : ∀ target ∈ graph.memgraphAdjacency, target.toNat < graph.memgraphNodes.length

end MemGraph

theorem length_le_of_nodup {values : List UInt32} (hnodup : values.Nodup) :
    values.length ≤ 2 ^ 32 := by
  have hmapped : (values.map UInt32.toNat).Nodup :=
    hnodup.map fun left right hsame => UInt32.toNat_inj.mp hsame
  have hbounded : values.map UInt32.toNat ⊆ List.range (2 ^ 32) := by
    intro value hvalue
    obtain ⟨found, -, rfl⟩ := List.mem_map.mp hvalue
    exact List.mem_range.mpr found.toNat_lt
  have hle := (hmapped.subperm hbounded).length_le
  rwa [List.length_map, List.length_range] at hle

variable {distance : UInt32 → UInt32 → Single} {nodes : List UInt32}

theorem length_nearestLocals {degree node : Nat} (source : UInt32)
    (hdegree : degree ≤ nodes.length - 1) (hnode : node < nodes.length) :
    (nearestLocals distance nodes degree source node).length = degree := by
  have hplace : (nodes.zipIdx.map Prod.snd).count node = 1 := by
    rw [List.zipIdx_map_snd]
    exact List.count_eq_one_of_mem List.nodup_range' (List.mem_range'_1.mpr (by omega))
  have hself : nodes.zipIdx.countP (fun entry => decide (entry.2 = node)) = 1 := by
    rw [← hplace, List.count, List.countP_map]
    rfl
  have hsplit := List.length_eq_countP_add_countP (fun entry => decide (entry.2 = node))
    (l := nodes.zipIdx)
  rw [hself, List.length_zipIdx] at hsplit
  have hothers : (nodes.zipIdx.filter fun entry => decide (entry.2 ≠ node)).length =
      nodes.length - 1 := by
    rw [← List.countP_eq_length_filter]
    simp only [decide_not, decide_eq_true_eq] at hsplit ⊢
    omega
  simp only [nearestLocals, List.length_map, List.length_take, List.length_insertionSort]
  omega

theorem nearestLocals_bounded {degree node : Nat} {source target : UInt32}
    (hlength : nodes.length ≤ 2 ^ 32)
    (htarget : target ∈ nearestLocals distance nodes degree source node) :
    target.toNat < nodes.length := by
  obtain ⟨⟨key, place⟩, hplace, rfl⟩ := List.mem_map.mp htarget
  have hcandidate := (List.mem_insertionSort _).mp (List.mem_of_mem_take hplace)
  obtain ⟨⟨found, index⟩, hfound, hsame⟩ := List.mem_map.mp hcandidate
  obtain ⟨hindex, -⟩ := List.mem_zipIdx' (List.mem_of_mem_filter hfound)
  obtain ⟨-, rfl⟩ := Prod.mk.inj hsame
  exact (UInt32.toNat_ofNat_of_lt' (hindex.trans_le hlength)).trans_lt hindex

theorem formed_of_configure {isLoaded : Bool} {numPoints : Nat} {entryCandidates : UInt32}
    {graph : MemGraph}
    (hconfigured : configureMemgraph isLoaded numPoints distance nodes entryCandidates =
      .ok graph) : graph.Formed := by
  simp only [configureMemgraph, bind_ok, reject_ok, not_or, not_not, not_lt,
    Except.ok.injEq] at hconfigured
  obtain ⟨_, -, _, ⟨-, hentries⟩, _, ⟨-, hnodup⟩, rfl⟩ := hconfigured
  have hlength := length_le_of_nodup hnodup
  have hdegree : (if 1 < nodes.length then min 16 (nodes.length - 1) else 0) ≤
      nodes.length - 1 := by
    split
    all_goals omega
  have hsmall : (if 1 < nodes.length then min 16 (nodes.length - 1) else 0) < 2 ^ 32 := by
    split
    all_goals omega
  generalize (if 1 < nodes.length then min 16 (nodes.length - 1) else 0) = degree at hdegree hsmall
  constructor
  case nodup => exact hnodup
  case length => exact hlength
  case entries => exact hentries
  case adjacency =>
    rw [UInt32.toNat_ofNat_of_lt' hsmall, List.length_flatMap]
    have hrows : nodes.zipIdx.map (fun entry =>
        (nearestLocals distance nodes degree entry.1 entry.2).length) =
        nodes.zipIdx.map fun _ => degree := by
      refine List.map_congr_left fun entry hentry => ?_
      exact length_nearestLocals entry.1 hdegree (List.mem_zipIdx' hentry).1
    rw [hrows]
    simp
  case targets =>
    intro target htarget
    obtain ⟨entry, -, hrow⟩ := List.mem_flatMap.mp htarget
    exact nearestLocals_bounded hlength hrow

/-! ## Marks -/

namespace MemGraph

variable {graph : MemGraph} {queryDistance : UInt32 → Single}

/-- The marks are those of the places in a list. -/
structure Marks (graph : MemGraph) (seen : List Bool) (found : List UInt32) : Prop where
  length : seen.length = graph.memgraphNodes.length
  mark : ∀ place : UInt32, place.toNat < graph.memgraphNodes.length →
    seen[place.toNat]? = some (decide (place ∈ found))

theorem Marks.initial (graph : MemGraph) :
    graph.Marks (List.replicate graph.memgraphNodes.length false) [] where
  length := List.length_replicate
  mark place hplace := by
    rw [List.getElem?_replicate, if_pos hplace]
    rfl

variable {found batch : List UInt32} {place : UInt32}

theorem Marks.set {seen : List Bool} (hmarks : graph.Marks seen found)
    (hplace : place.toNat < graph.memgraphNodes.length) :
    graph.Marks (seen.set place.toNat true) (found ++ [place]) where
  length := List.length_set.trans hmarks.length
  mark other hother := by
    by_cases hsame : place = other
    · subst hsame
      rw [List.getElem?_set_self (hmarks.length ▸ hplace)]
      simp
    · have hplaces : place.toNat ≠ other.toNat := fun heq => hsame (UInt32.toNat_inj.mp heq)
      rw [List.getElem?_set_ne hplaces, hmarks.mark other hother]
      simp [Ne.symm hsame]

theorem admit_eq {seen : List Bool} (hmarks : graph.Marks seen (found ++ batch))
    (hplace : place.toNat < graph.memgraphNodes.length) :
    ∃ marked, markSeen place seen batch = .ok (marked,
        if place ∈ found ++ batch then batch else batch ++ [place]) ∧
      graph.Marks marked (found ++ if place ∈ found ++ batch then batch else batch ++ [place]) := by
  have hmark := hmarks.mark place hplace
  simp only [markSeen, element, hmark, bind, Except.bind, decide_eq_true_eq]
  by_cases hfound : place ∈ found ++ batch
  · simp only [if_pos hfound]
    exact ⟨seen, rfl, hmarks⟩
  · simp only [if_neg hfound]
    refine ⟨_, rfl, ?_⟩
    rw [← List.append_assoc]
    exact hmarks.set hplace

theorem Formed.edge (hformed : graph.Formed) {edge : Nat}
    (hplace : place.toNat < graph.memgraphNodes.length)
    (hedge : edge < graph.memgraphDegree.toNat) :
    ∃ target, graph.target place edge = some target ∧
      target.toNat < graph.memgraphNodes.length := by
  have hrow : (place.toNat + 1) * graph.memgraphDegree.toNat ≤ graph.memgraphAdjacency.length := by
    rw [hformed.adjacency]
    exact Nat.mul_le_mul_right _ hplace
  have hbound : (place.toNat * graph.memgraphDegree.toNat + edge) % 2 ^ 32 <
      graph.memgraphAdjacency.length := by
    refine (Nat.mod_le _ _).trans_lt ?_
    rw [Nat.succ_mul] at hrow
    omega
  exact ⟨_, List.getElem?_eq_getElem hbound, hformed.targets _ (List.getElem_mem hbound)⟩

/-- The batch of an expansion holds the new neighbors that there is room for. -/
theorem collectEdges_eq (hformed : graph.Formed) (hplace : place.toNat < graph.memgraphNodes.length)
    (room : Nat) {edges : List Nat} (hedges : ∀ edge ∈ edges, edge < graph.memgraphDegree.toNat)
    {seen : List Bool} (hmarks : graph.Marks seen (found ++ batch)) :
    ∃ marked fresh, fresh = takeUnseen (room - batch.length) (found ++ batch)
        (edges.filterMap (graph.target place)) ∧
      graph.collectEdges place room edges (seen, batch) = .ok (marked, batch ++ fresh) ∧
      graph.Marks marked (found ++ (batch ++ fresh)) := by
  induction edges generalizing seen batch with
  | nil =>
    refine ⟨seen, [], ?_, by rw [List.append_nil]; rfl, by rwa [List.append_nil]⟩
    cases room - batch.length <;> rfl
  | cons edge edges ih =>
    obtain ⟨hedge, hedges⟩ := List.forall_mem_cons.mp hedges
    obtain ⟨target, htarget, hbounded⟩ := hformed.edge hplace hedge
    rcases Nat.lt_or_ge batch.length room with hroom | hfull
    · obtain ⟨marked, hadmit, hadmitted⟩ := admit_eq hmarks hbounded
      have hlookup : element Error.outOfBounds graph.memgraphAdjacency
          ((place.toNat * graph.memgraphDegree.toNat + edge) % 2 ^ 32) = .ok target :=
        element_eq_ok.mpr htarget
      obtain ⟨rest, hrest⟩ : ∃ rest, room - batch.length = rest + 1 :=
        ⟨room - batch.length - 1, by omega⟩
      simp only [collectEdges, if_neg (Nat.not_le.mpr hroom), hlookup, hadmit, bind, Except.bind,
        List.filterMap_cons_some htarget, hrest, takeUnseen]
      by_cases hfound : target ∈ found ++ batch
      · simp only [if_pos hfound] at hadmitted ⊢
        rw [← hrest]
        exact ih hedges hadmitted
      · simp only [if_neg hfound] at hadmitted ⊢
        obtain ⟨last, fresh, hfresh, hcollect, hlast⟩ := ih hedges hadmitted
        refine ⟨last, target :: fresh, ?_, ?_, ?_⟩
        · have hless : room - (batch ++ [target]).length = rest := by
            rw [List.length_append, List.length_singleton]
            omega
          rw [hfresh, hless]
          refine congrArg (target :: ·) (takeUnseen_congr (fun node => ?_) _ _)
          simp only [List.mem_append, List.mem_cons, List.not_mem_nil, or_false]
          tauto
        · rw [hcollect, List.append_assoc, List.singleton_append]
        · rwa [List.append_assoc, List.singleton_append] at hlast
    · refine ⟨seen, [], ?_, ?_, by rwa [List.append_nil]⟩
      · rw [Nat.sub_eq_zero_of_le hfull, takeUnseen]
      · rw [collectEdges, if_pos hfull, List.append_nil]

theorem scoreBatch_eq (queryDistance : UInt32 → Single) (state : MemGraphScan)
    (hbatch : ∀ place ∈ batch, place.toNat < graph.memgraphNodes.length) :
    ∃ frontier, graph.scoreBatch queryDistance batch state = .ok
        { state with
          memgraphScores := state.memgraphScores ++
            batch.map fun place => (graph.node place, queryDistance (graph.node place))
          memgraphFrontier := frontier } ∧
      (frontier.map Prod.snd).Perm (state.memgraphFrontier.map Prod.snd ++ batch) := by
  induction batch generalizing state with
  | nil =>
    refine ⟨state.memgraphFrontier, ?_, by rw [List.append_nil]⟩
    rw [List.map_nil, List.append_nil]
    rfl
  | cons place batch ih =>
    obtain ⟨hplace, hbatch⟩ := List.forall_mem_cons.mp hbatch
    have hnode : graph.memgraphNodes[place.toNat]? = some (graph.node place) := by
      rw [node, List.getD_eq_getElem?_getD, List.getElem?_eq_getElem hplace]
      rfl
    obtain ⟨frontier, hscored, hfrontier⟩ := ih
      { state with
        memgraphScores :=
          state.memgraphScores ++ [(graph.node place, queryDistance (graph.node place))]
        memgraphFrontier := state.memgraphFrontier.orderedInsert DistanceBefore
          (queryDistance (graph.node place), place) } hbatch
    refine ⟨frontier, ?_, hfrontier.trans ?_⟩
    · rw [List.map_cons, List.append_cons]
      refine bind_ok.mpr ⟨_, ?_, (scan_position 1 0 batch _).trans hscored⟩
      simp only [scoreLocal, element, hnode, bind, Except.bind]
    · have hinserted := (List.perm_orderedInsert DistanceBefore
        (queryDistance (graph.node place), place) state.memgraphFrontier).map Prod.snd
      refine (hinserted.append_right batch).trans ?_
      rw [List.map_cons, List.cons_append]
      exact List.perm_middle.symm

/-! ## The scan -/

/-- The places that a scan has found, in the order of their scores. -/
structure Progress (graph : MemGraph) (queryDistance : UInt32 → Single) (found : List UInt32)
    (state : MemGraphScan) : Prop where
  bounded : ∀ place ∈ found, place.toNat < graph.memgraphNodes.length
  marks : graph.Marks state.memgraphSeen found
  scores : state.memgraphScores =
    found.map fun place => (graph.node place, queryDistance (graph.node place))
  frontier : state.memgraphFrontier.map Prod.snd ⊆ found
  searched : Searched graph.neighbors graph.anchors graph.scoreBudget found
    (state.memgraphFrontier.map Prod.snd)

theorem Progress.length {state : MemGraphScan}
    (hprogress : graph.Progress queryDistance found state) :
    state.memgraphScores.length = found.length := by
  rw [hprogress.scores, List.length_map]

section

variable (hformed : graph.Formed)
include hformed

theorem neighbors_bounded {place target : UInt32} (htarget : target ∈ graph.neighbors place) :
    target.toNat < graph.memgraphNodes.length := by
  obtain ⟨edge, -, hfound⟩ := List.mem_filterMap.mp htarget
  exact hformed.targets target (List.mem_of_getElem? hfound)

/-- The top of the frontier is expanded. -/
theorem Progress.expand {found : List UInt32} {state : MemGraphScan}
    (hprogress : graph.Progress queryDistance found state) {distance : Single} {place : UInt32}
    {frontier : List (Single × UInt32)}
    (hfrontier : state.memgraphFrontier = (distance, place) :: frontier) :
    ∃ marked fresh next, graph.collectEdges place
        (graph.scoreBudget - state.memgraphScores.length) (List.range graph.memgraphDegree.toNat)
        (state.memgraphSeen, []) = .ok (marked, fresh) ∧
      graph.scoreBatch queryDistance fresh
        { state with memgraphSeen := marked, memgraphFrontier := frontier } = .ok next ∧
      graph.Progress queryDistance (found ++ fresh) next ∧
      next.memgraphFrontier.length = frontier.length + fresh.length := by
  have hplaces := hprogress.frontier
  have hsearched := hprogress.searched
  rw [hfrontier, List.map_cons] at hplaces hsearched
  obtain ⟨hplace, hrest⟩ := List.cons_subset.mp hplaces
  have hseen : graph.Marks state.memgraphSeen (found ++ []) := by
    rw [List.append_nil]
    exact hprogress.marks
  obtain ⟨marked, fresh, hfresh, hcollect, hmarks⟩ := collectEdges_eq hformed
    (hprogress.bounded place hplace) (graph.scoreBudget - state.memgraphScores.length)
    (fun edge hedge => List.mem_range.mp hedge) hseen
  rw [List.append_nil, List.length_nil, Nat.sub_zero, hprogress.length] at hfresh
  rw [List.nil_append] at hcollect hmarks
  have hneighbors : ∀ target ∈ fresh, target.toNat < graph.memgraphNodes.length := by
    intro target htarget
    rw [hfresh] at htarget
    exact neighbors_bounded hformed (mem_of_mem_takeUnseen htarget).1
  obtain ⟨later, hscored, hlater⟩ := scoreBatch_eq queryDistance
    { state with memgraphSeen := marked, memgraphFrontier := frontier } hneighbors
  refine ⟨marked, fresh, _, hcollect, hscored, ?_, ?_⟩
  · constructor
    case bounded =>
      intro other hother
      rcases List.mem_append.mp hother with hold | hnew
      · exact hprogress.bounded other hold
      · exact hneighbors other hnew
    case marks => exact hmarks
    case scores =>
      dsimp only
      rw [hprogress.scores, List.map_append]
    case frontier =>
      intro other hother
      rcases List.mem_append.mp (hlater.mem_iff.mp hother) with hold | hnew
      · exact List.mem_append_left _ (hrest hold)
      · exact List.mem_append_right _ hnew
    case searched =>
      rw [hfresh] at hlater ⊢
      refine hsearched.expand hplace (fun other hother => ?_) (fun other hother => ?_)
      · rcases List.mem_cons.mp hother with rfl | hold
        · exact Or.inl rfl
        · exact Or.inr (hlater.mem_iff.mpr (List.mem_append_left _ hold))
      · exact hlater.mem_iff.mpr (List.mem_append_right _ hother)
  · have hlength := hlater.length_eq
    rwa [List.length_append, List.length_map, List.length_map] at hlength

theorem expandFrontier_progress {fuel : Nat} {found : List UInt32} {state : MemGraphScan}
    (hprogress : graph.Progress queryDistance found state)
    (hfuel : state.memgraphFrontier.length + (graph.memgraphNodes.length - found.length) < fuel) :
    ∃ last places, graph.expandFrontier queryDistance fuel state = .ok last ∧
      graph.Progress queryDistance places last ∧
      (last.memgraphFrontier = [] ∨ graph.scoreBudget ≤ last.memgraphScores.length) := by
  induction fuel generalizing found state with
  | zero => exact absurd hfuel (Nat.not_lt_zero _)
  | succ fuel ih =>
    rw [expandFrontier]
    cases hfrontier : state.memgraphFrontier with
    | nil => exact ⟨state, found, rfl, hprogress, Or.inl hfrontier⟩
    | cons top frontier =>
      rcases Nat.lt_or_ge state.memgraphScores.length graph.scoreBudget with hroom | hused
      · obtain ⟨marked, fresh, next, hcollect, hscored, hnext, hlength⟩ :=
          hprogress.expand hformed hfrontier
        have hfound := hnext.searched.bounded
        have hbudget : graph.scoreBudget ≤ graph.memgraphNodes.length := Nat.min_le_left _ _
        rw [List.length_append] at hfound
        rw [hfrontier, List.length_cons] at hfuel
        obtain ⟨last, places, hexpanded, hlast, hended⟩ := ih hnext (by
          rw [hlength, List.length_append]
          omega)
        refine ⟨last, places, ?_, hlast, hended⟩
        simp only [if_neg (Nat.not_le.mpr hroom)]
        exact bind_ok.mpr ⟨_, hcollect, bind_ok.mpr ⟨next, hscored, hexpanded⟩⟩
      · exact ⟨state, found, if_pos hused, hprogress, Or.inr hused⟩

theorem anchors_bounded {place : UInt32} (hplace : place ∈ graph.anchors) :
    place.toNat < graph.memgraphNodes.length := by
  obtain ⟨anchor, hanchor, rfl⟩ := List.mem_map.mp hplace
  have hcount := List.mem_range.mp hanchor
  have hbound : anchor * graph.memgraphNodes.length / min 4 graph.memgraphNodes.length <
      graph.memgraphNodes.length := by
    apply Nat.div_lt_of_lt_mul
    exact Nat.mul_lt_mul_of_pos_right hcount (by omega)
  exact (UInt32.toNat_ofNat_of_lt' (hbound.trans_le hformed.length)).trans_lt hbound

theorem admit_anchors :
    ∃ marked batch, scan (fun _ place marked => markSeen place marked.1 marked.2) 0 graph.anchors
        (List.replicate graph.memgraphNodes.length false, []) = .ok (marked, batch) ∧
      graph.Marks marked batch ∧ batch.Nodup ∧ ∀ place, place ∈ batch ↔ place ∈ graph.anchors := by
  have hscanned : ∃ last, scan (fun _ place marked => markSeen place marked.1 marked.2) 0 graph.anchors
        (List.replicate graph.memgraphNodes.length false, []) = .ok last ∧
      graph.Marks last.1 last.2 ∧ last.2.Nodup ∧
        ∀ place, place ∈ last.2 ↔ place ∈ graph.anchors.take (0 + graph.anchors.length) := by
    refine scan_total
      (motive := fun position (marked : List Bool × List UInt32) =>
        graph.Marks marked.1 marked.2 ∧ marked.2.Nodup ∧
          ∀ place, place ∈ marked.2 ↔ place ∈ graph.anchors.take position)
      ⟨.initial graph, List.nodup_nil, fun place => by rw [List.take_zero]⟩ ?_
    rintro index place ⟨seen, batch⟩ hplace ⟨hmarks, hnodup, hmem⟩
    rw [Nat.zero_add] at hmem
    have hbounded := anchors_bounded hformed (List.mem_of_getElem? hplace)
    have htake : ∀ other, other ∈ graph.anchors.take (0 + index + 1) ↔
        other ∈ graph.anchors.take index ∨ other = place := by
      intro other
      rw [Nat.zero_add, List.take_add_one, hplace, List.mem_append]
      simp
    have hnothing : graph.Marks seen ([] ++ batch) := hmarks
    obtain ⟨marked, hadmit, hmarked⟩ := admit_eq hnothing hbounded
    rw [List.nil_append] at hadmit hmarked
    refine ⟨_, hadmit, hmarked, ?_, fun other => ?_⟩
    · dsimp only
      split
      · exact hnodup
      next hnew => exact List.nodup_append.mpr ⟨hnodup, List.nodup_singleton _, by grind⟩
    · rw [htake, ← hmem]
      dsimp only
      split
      · grind
      · rw [List.mem_append, List.mem_singleton]
  obtain ⟨⟨marked, batch⟩, hscan, hmarks, hnodup, hmem⟩ := hscanned
  rw [Nat.zero_add, List.take_length] at hmem
  exact ⟨marked, batch, hscan, hmarks, hnodup, hmem⟩

theorem scanMemgraph_progress (hnodes : graph.memgraphNodes ≠ []) (queryDistance : UInt32 →
    Single) :
    ∃ last places, graph.scanMemgraph queryDistance = .ok last.memgraphScores ∧
      graph.Progress queryDistance places last ∧
      (last.memgraphFrontier = [] ∨ graph.scoreBudget ≤ last.memgraphScores.length) := by
  obtain ⟨marked, batch, hadmit, hmarks, hnodup, hmem⟩ := admit_anchors hformed
  have hbounded : ∀ place ∈ batch, place.toNat < graph.memgraphNodes.length := fun place hplace =>
    anchors_bounded hformed ((hmem place).mp hplace)
  have hlength : batch.length ≤ graph.scoreBudget := by
    have hle := (hnodup.subperm fun place hplace => (hmem place).mp hplace).length_le
    rw [anchors, List.length_map, List.length_range] at hle
    rw [scoreBudget]
    omega
  obtain ⟨frontier, hscored, hfrontier⟩ := scoreBatch_eq queryDistance
    { memgraphSeen := marked } hbounded
  rw [List.map_nil, List.nil_append] at hfrontier
  have hprogress : graph.Progress queryDistance batch
      { memgraphSeen := marked
        memgraphScores := [] ++
          batch.map fun place => (graph.node place, queryDistance (graph.node place))
        memgraphFrontier := frontier } :=
    { bounded := hbounded
      marks := hmarks
      scores := List.nil_append _
      frontier := fun place hplace => hfrontier.mem_iff.mp hplace
      searched := .start hnodup hmem hlength fun place hplace => hfrontier.mem_iff.mpr hplace }
  have hpending : frontier.length = batch.length := by
    rw [← hfrontier.length_eq, List.length_map]
  have hbudget : graph.scoreBudget ≤ graph.memgraphNodes.length := Nat.min_le_left _ _
  have hfuel : frontier.length + (graph.memgraphNodes.length - batch.length) <
      graph.memgraphNodes.length + 1 := by omega
  obtain ⟨last, places, hexpanded, hlast, hended⟩ :=
    expandFrontier_progress hformed hprogress hfuel
  refine ⟨last, places, ?_, hlast, hended⟩
  rw [scanMemgraph, if_neg hnodes]
  exact bind_ok.mpr ⟨_, hadmit, bind_ok.mpr ⟨_, hscored, bind_ok.mpr ⟨last, hexpanded, rfl⟩⟩⟩

end

/-- The places that a path leads to from an anchor. -/
def ReachedPlaces (graph : MemGraph) : Set UInt32 := ReachedFrom graph.neighbors graph.anchors

theorem reachedPlaces_finite (graph : MemGraph) : graph.ReachedPlaces.Finite := by
  have : Finite UInt32 := .of_injective UInt32.toFin fun left right hsame =>
    UInt32.toFin_inj.mp hsame
  exact Set.toFinite _

theorem Progress.nodup {state : MemGraphScan} (hformed : graph.Formed)
    (hprogress : graph.Progress queryDistance found state) :
    (state.memgraphScores.map Prod.fst).Nodup := by
  rw [hprogress.scores, List.map_map]
  refine hprogress.searched.nodup.map_on fun left hleft right hright hsame => ?_
  have hleft := hprogress.bounded left hleft
  have hright := hprogress.bounded right hright
  simp only [Function.comp_apply, node, List.getD_eq_getElem?_getD,
    List.getElem?_eq_getElem hleft, List.getElem?_eq_getElem hright, Option.getD_some] at hsame
  exact UInt32.toNat_inj.mp ((hformed.nodup.getElem_inj_iff).mp hsame)

/-- The scan scores enough distinct nodes, and the loops over the best stay among them. -/
def EntersInside (graph : MemGraph) (queryDistance : UInt32 → Single) : Prop :=
  ∃ scores entries, graph.scanMemgraph queryDistance = .ok scores ∧
    (scores.map Prod.fst).Nodup ∧ graph.memgraphEntryCandidates.toNat ≤ scores.length ∧
      graph.bestScores scores = .ok entries

end MemGraph

/-- The entries are among the scores exactly when the budget, whose product has 32 bits,
allows so many and the anchors reach so many. -/
theorem memgraph_entries_iff {isLoaded : Bool} {numPoints : Nat}
    {distance : UInt32 → UInt32 → Single} {nodes : List UInt32} {entryCandidates : UInt32}
    {graph : MemGraph}
    (hconfigured : configureMemgraph isLoaded numPoints distance nodes entryCandidates =
      .ok graph) (queryDistance : UInt32 → Single) :
    graph.EntersInside queryDistance ↔
      graph.memgraphEntryCandidates.toNat ≤
          max 64 (graph.memgraphEntryCandidates.toNat * 32 % 2 ^ 32) ∧
        graph.memgraphEntryCandidates.toNat ≤ graph.ReachedPlaces.ncard := by
  have hformed := formed_of_configure hconfigured
  have hentries := hformed.entries
  have hscored : ∃ scores, graph.scanMemgraph queryDistance = .ok scores ∧
      (scores.map Prod.fst).Nodup ∧
      scores.length = min graph.scoreBudget graph.ReachedPlaces.ncard := by
    by_cases hnodes : graph.memgraphNodes = []
    · refine ⟨[], if_pos hnodes, List.nodup_nil, ?_⟩
      rw [MemGraph.scoreBudget, hnodes]
      simp
    · obtain ⟨last, places, hscan, hprogress, hended⟩ :=
        MemGraph.scanMemgraph_progress hformed hnodes queryDistance
      refine ⟨last.memgraphScores, hscan, hprogress.nodup hformed, ?_⟩
      rw [hprogress.length] at hended ⊢
      refine hprogress.searched.length_eq ?_ graph.reachedPlaces_finite
      exact hended.imp_left fun hnone => by rw [hnone, List.map_nil]
  obtain ⟨scores, hscan, hnodup, hlength⟩ := hscored
  rw [MemGraph.scoreBudget] at hlength
  constructor
  · rintro ⟨found, entries, hfound, -, henough, -⟩
    obtain rfl := Except.ok.inj (hscan.symm.trans hfound)
    omega
  · rintro ⟨hbudget, hreached⟩
    have henough : graph.memgraphEntryCandidates.toNat ≤ scores.length := by omega
    have hbest : ∃ entries, graph.bestScores scores = .ok entries :=
      ⟨_, bind_ok.mpr ⟨(), reject_ok.mpr (Nat.not_lt.mpr henough), rfl⟩⟩
    obtain ⟨entries, hbest⟩ := hbest
    exact ⟨scores, entries, hscan, hnodup, henough, hbest⟩

/-- Seventeen of eighteen nodes have one code, and the last has another. -/
def outlier (source target : UInt32) : Single :=
  if source = 17 ∨ target = 17 then .one else .zero

def outlierLength : Except Error (MemGraph × Nat) := do
  let graph ← configureMemgraph true 18 outlier ((List.range 18).map UInt32.ofNat) 18
  let scores ← graph.scanMemgraph (outlier 0)
  .ok (graph, scores.length)

/-- No node has the last among its sixteen nearest, and no anchor is there. -/
theorem memgraph_entries_refuted :
    ∃ graph, configureMemgraph true 18 outlier ((List.range 18).map UInt32.ofNat) 18 = .ok graph ∧
      ¬ graph.EntersInside (outlier 0) := by
  have hrun : ∃ outcome, outlierLength = .ok outcome ∧ outcome.2 = 17 ∧
      outcome.1.memgraphEntryCandidates = 18 := exists_ok (by decide +kernel)
  obtain ⟨⟨graph, length⟩, hrun, hlength, hentries⟩ := hrun
  simp only [outlierLength, bind_ok, Except.ok.injEq] at hrun
  obtain ⟨_, hconfigured, scores, hscan, hpair⟩ := hrun
  obtain ⟨rfl, rfl⟩ := Prod.mk.inj hpair
  refine ⟨_, hconfigured, ?_⟩
  rintro ⟨found, entries, hfound, -, henough, -⟩
  obtain rfl := Except.ok.inj (hscan.symm.trans hfound)
  dsimp only at hlength hentries
  rw [hentries, hlength] at henough
  exact absurd henough (by decide)

/-- Two nodes that are next to each other. -/
def pairOfNodes : MemGraph where
  memgraphNodes := [4, 7]
  memgraphEntryCandidates := 2
  memgraphDegree := 1
  memgraphAdjacency := [1, 0]

theorem memgraph_entries_pair : 2 ≤ pairOfNodes.ReachedPlaces.ncard := by
  have hconfigured : configureMemgraph true 8 (fun _ _ => .zero) [4, 7] 2 = .ok pairOfNodes := by
    decide +kernel
  have hinside : pairOfNodes.EntersInside fun _ => .zero :=
    ⟨[(4, .zero), (7, .zero)], [(4, .zero), (7, .zero)], by decide +kernel, by decide,
      by decide, by decide +kernel⟩
  exact ((memgraph_entries_iff hconfigured fun _ => .zero).mp hinside).2

end SkipCell.Search

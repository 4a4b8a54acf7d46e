import SkipCell.Build.Symmetrised

/-! # Both paths build the same graph

Where the path for short lists takes the graph, it builds what the general path builds; it takes
no graph with an empty or a long list, or with a distance that cannot be ranked.
-/

namespace SkipCell.Build

open Foundation Sidecar

/-- The neighbors of a node, with the weights of the edges. -/
def PartitionGraph.row (graph : PartitionGraph) (node : Nat) : List (Nat × Nat) :=
  let rowBegin := graph.offsets.getD node 0
  let degree := graph.offsets.getD (node + 1) 0 - rowBegin
  (subspan graph.neighbors rowBegin degree).zip (subspan graph.edgeWeights rowBegin degree)

/-- The result is the graph of the arcs, made undirected. -/
structure Symmetrises (size : Nat) (targets : Nat → List Nat) (result : PartitionGraph) : Prop where
  offsets : result.offsets.length = size + 1 ∧ result.offsets[0]? = some 0 ∧
    result.offsets[size]? = some result.neighbors.length
  weights : result.edgeWeights.length = result.neighbors.length
  nodeWeights : result.nodeWeights = List.replicate size 1
  loopless : ∀ node < size, ∀ edge ∈ result.row node, edge.1 ≠ node
  ascending : ∀ node < size, (result.row node).Pairwise fun first second => first.1 < second.1
  symmetric : ∀ node < size, ∀ other < size, ∀ weight,
    (other, weight) ∈ result.row node ↔ (node, weight) ∈ result.row other
  edges : ∀ node < size, ∀ other weight, (other, weight) ∈ result.row node ↔
    other < size ∧ 0 < weight ∧ weight = directions targets node other

section Result

variable {size : Nat} {targets : Nat → List Nat}

theorem getElem?_symmetricDegrees {node : Nat} (hnode : node < size) :
    (symmetricDegrees size targets)[node]? = some (symmetricRow size targets node).length := by
  rw [symmetricDegrees, List.getElem?_map, List.getElem?_range hnode]
  rfl

theorem length_symmetricDegrees (size : Nat) (targets : Nat → List Nat) :
    (symmetricDegrees size targets).length = size := by
  rw [symmetricDegrees, List.length_map, List.length_range]

theorem length_symmetricEdges (size : Nat) (targets : Nat → List Nat) :
    (symmetricEdges size targets).length =
      rowStart (fun node => (symmetricRow size targets node).length) size :=
  length_flatMap_rows fun _ _ => rfl

theorem subspan_map {α β : Type} (convert : α → β) (values : List α) (start count : Nat) :
    subspan (values.map convert) start count = (subspan values start count).map convert := by
  rw [subspan, subspan, List.map_take, List.map_drop]

theorem zip_fst_snd {α β : Type} (pairs : List (α × β)) :
    (pairs.map Prod.fst).zip (pairs.map Prod.snd) = pairs := by
  induction pairs with
  | nil => rfl
  | cons pair pairs ih => rw [List.map_cons, List.map_cons, List.zip_cons_cons, ih]

theorem symmetrised_symmetrises (harcs : Arcs size targets) {edgeIdLimit directed undirected : Nat}
    {offsets : List Nat}
    (hoffsets : adjacencyOffsets edgeIdLimit (symmetricDegrees size targets) = .ok offsets) :
    Symmetrises size targets (symmetrised size targets directed undirected offsets) := by
  have hcount := length_symmetricDegrees size targets
  obtain ⟨hlength, hstarts⟩ := @runningOffsets_spec _ _
    (fun node => (symmetricRow size targets node).length) _ _ _
    (fun row hrow => getElem?_symmetricDegrees (hcount ▸ hrow)) hoffsets
  rw [hcount] at hlength hstarts
  have hstart : ∀ row ≤ size, offsets.getD row 0 =
      rowStart (fun node => (symmetricRow size targets node).length) row := by
    intro row hrow
    rw [List.getD_eq_getElem?_getD, hstarts row hrow, Nat.zero_add, Option.getD_some]
  have hrow : ∀ node < size,
      (symmetrised size targets directed undirected offsets).row node =
        symmetricRow size targets node := by
    intro node hnode
    simp only [PartitionGraph.row, symmetrised]
    rw [subspan_map, subspan_map, zip_fst_snd, hstart node (Nat.le_of_lt hnode),
      hstart (node + 1) hnode, rowStart, Nat.add_sub_cancel_left]
    exact rowOf_flatMap (fun _ _ => rfl) hnode
  have hedges : ∀ node < size, ∀ other weight,
      (other, weight) ∈ (symmetrised size targets directed undirected offsets).row node ↔
        other < size ∧ 0 < weight ∧ weight = directions targets node other := by
    intro node hnode other weight
    rw [hrow node hnode, mem_symmetricRow]
  refine ⟨⟨hlength, ?_, ?_⟩, ?_, rfl, ?_, ?_, ?_, hedges⟩
  · exact hstarts 0 (Nat.zero_le _)
  · change offsets[size]? = some ((symmetricEdges size targets).map Prod.fst).length
    rw [hstarts size (Nat.le_refl _), List.length_map, length_symmetricEdges, Nat.zero_add]
  · exact (List.length_map _).trans (List.length_map _).symm
  · intro node hnode edge hedge hself
    obtain ⟨-, hpositive, hweight⟩ := (hedges node hnode edge.1 edge.2).mp hedge
    rw [hself, directions_self harcs hnode] at hweight
    omega
  · intro node hnode
    rw [hrow node hnode]
    exact symmetricRow_pairwise size targets node
  · intro node hnode other hother weight
    rw [hedges node hnode, hedges other hother, directions_comm]
    exact ⟨fun hedge => ⟨hnode, hedge.2⟩, fun hedge => ⟨hother, hedge.2⟩⟩

theorem connectPairs_symmetrises (harcs : Arcs size targets) {pairs : List WeightedPair}
    (hpairs : IsPairs size targets pairs) {edgeIdLimit directed : Nat} {sorting : LoopOrder size}
    {result : PartitionGraph}
    (hresult : connectPairs edgeIdLimit sorting directed pairs = .ok result) :
    Symmetrises size targets result := by
  rw [connectPairs_eq hpairs harcs, bind_ok] at hresult
  obtain ⟨offsets, hoffsets, hresult⟩ := hresult
  obtain rfl := Except.ok.inj hresult
  exact symmetrised_symmetrises harcs hoffsets

theorem connectPairs_congr (harcs : Arcs size targets) {pairs others : List WeightedPair}
    (hpairs : IsPairs size targets pairs) (hothers : IsPairs size targets others)
    (edgeIdLimit directed : Nat) (sorting otherSorting : LoopOrder size) :
    connectPairs edgeIdLimit sorting directed pairs =
      connectPairs edgeIdLimit otherSorting directed others := by
  rw [connectPairs_eq hpairs harcs, connectPairs_eq hothers harcs, (hpairs.perm hothers).length_eq]

end Result

section Paths

variable {graph : GraphView} {projection : PartitionProjection} {degree : UInt32}

/-- The number of the arcs of the Base graph. -/
def GraphView.arcCount (graph : GraphView) (nodes : Nat) : Nat :=
  rowStart (fun node => (graph.neighbors node).length) nodes

theorem arcs_projected (hproper : ∀ node < graph.pointCount, graph.Proper node) (degree : Nat) :
    Arcs graph.pointCount (graph.projected degree) :=
  ⟨fun node hnode => projected_pairwise (hproper node hnode) degree,
    fun node hnode _ htarget => projected_inside (hproper node hnode) htarget⟩

theorem GraphView.Proper.length_le {node : Nat} (hproper : graph.Proper node) :
    (graph.neighbors node).length ≤ graph.pointCount := by
  have hsubperm : (graph.neighbors node).Subperm (List.range graph.pointCount) :=
    hproper.nodup.subperm fun target htarget =>
      List.mem_range.mpr (hproper.inside target htarget).1
  simpa using hsubperm.length_le

section

variable (hdegree : projectionDegree projection = .ok degree) (hsmall : graph.pointCount < 2 ^ 32)
  (hproper : ∀ node < graph.pointCount, graph.Proper node)
  (hranked : ∀ node < graph.pointCount, degree.toNat < (graph.neighbors node).length →
    ∀ target ∈ graph.neighbors node, ¬ graph.BadDistance node target)
include hdegree hsmall hproper hranked

theorem collectKeys_ok :
    scan (fun _ => collectKeys graph projection) 0 (List.range graph.pointCount) ([], 0) =
      .ok (arcKeys graph.pointCount (graph.projected degree.toNat),
        graph.arcCount graph.pointCount) := by
  have hstep : ∀ (index node : Nat) (state : List Nat × Nat),
      (List.range graph.pointCount)[index]? = some node →
      state = (arcKeys (0 + index) (graph.projected degree.toNat), graph.arcCount (0 + index)) →
      ∃ next, collectKeys graph projection node state = .ok next ∧ next =
        (arcKeys (0 + index + 1) (graph.projected degree.toNat),
          graph.arcCount (0 + index + 1)) := by
    intro index node state hvalue hstate
    have hnode : index < graph.pointCount := by
      have hless := (List.getElem_of_getElem? hvalue).1
      rwa [List.length_range] at hless
    rw [List.getElem?_range hnode] at hvalue
    obtain rfl := Option.some.inj hvalue
    rw [Nat.zero_add] at hstate ⊢
    have hlengths : ∀ row < index + 1, (graph.neighbors row).length ≤ graph.pointCount :=
      fun row hrow => (hproper row (by omega)).length_le
    have htotal : graph.arcCount (index + 1) ≤ (index + 1) * graph.pointCount :=
      rowStart_le hlengths
    have hsquare : (index + 1) * graph.pointCount < 2 ^ 32 * 2 ^ 32 :=
      Nat.mul_lt_mul'' (by omega) hsmall
    have hsplit : graph.arcCount (index + 1) =
        graph.arcCount index + (graph.neighbors index).length := rfl
    refine ⟨_, ?_, rfl⟩
    simp only [collectKeys, bind_ok, uniqueNeighbors_eq_ok,
      projectedNeighbors_eq_ok hdegree, checkedAdd_eq_ok]
    refine ⟨_, ⟨hproper index hnode, rfl⟩, _, ⟨?_, rfl⟩, _,
      ⟨hproper index hnode, hranked index hnode, rfl⟩, ?_⟩
    · rw [hstate, (sortIds_perm _).length_eq]
      change graph.arcCount index + (graph.neighbors index).length < 2 ^ 64
      omega
    · rw [hstate, (sortIds_perm _).length_eq, arcKeys, arcKeys, List.range_succ,
        List.flatMap_append, List.flatMap_singleton]
      rfl
  obtain ⟨last, hscan, hlast⟩ := @scan_total _ _ _ (fun _ => collectKeys graph projection)
    (fun nodes state => state =
      (arcKeys nodes (graph.projected degree.toNat), graph.arcCount nodes))
    (List.range graph.pointCount) 0 ([], 0) rfl hstep
  rw [hscan, hlast, List.length_range, Nat.zero_add]

theorem keySorted_eq (edgeIdLimit : Nat) :
    ∃ pairs, IsPairs graph.pointCount (graph.projected degree.toNat) pairs ∧
      buildKeySortedPartitionGraph edgeIdLimit graph projection =
        connectPairs edgeIdLimit (.ascending graph.pointCount) (graph.arcCount graph.pointCount)
          pairs := by
  have hkeys := collectKeys_ok hdegree hsmall hproper hranked
  obtain ⟨pairs, hmapped, hpairs⟩ :=
    keyPairs_isPairs (arcs_projected hproper degree.toNat) hsmall
  refine ⟨pairs, hpairs, ?_⟩
  rw [buildKeySortedPartitionGraph, hkeys]
  change ((runLengths _).mapM pairOfRun >>= _) = _
  rw [hmapped]
  rfl

end

theorem proper_of_keySorted {edgeIdLimit : Nat} {result : PartitionGraph}
    (hdegree : projectionDegree projection = .ok degree)
    (hresult : buildKeySortedPartitionGraph edgeIdLimit graph projection = .ok result) {node : Nat}
    (hnode : node < graph.pointCount) : graph.Proper node ∧
      (degree.toNat < (graph.neighbors node).length →
        ∀ target ∈ graph.neighbors node, ¬ graph.BadDistance node target) := by
  rw [buildKeySortedPartitionGraph, bind_ok] at hresult
  obtain ⟨collected, hscan, -⟩ := hresult
  obtain ⟨before, after, hbody⟩ := scan_accepts hscan (List.getElem?_range hnode)
  simp only [collectKeys, bind_ok, uniqueNeighbors_eq_ok, projectedNeighbors_eq_ok hdegree] at hbody
  obtain ⟨_, ⟨hproper, -⟩, _, -, _, ⟨-, hranked, -⟩, -⟩ := hbody
  exact ⟨hproper, hranked⟩

/-- What the nodes are after the projection of short lists. -/
def projectedRows (graph : GraphView) (degree : Nat) : List ProjectedNode :=
  (List.range graph.pointCount).map (projectNode graph degree)

theorem getElem?_projectedRows {degree node : Nat} (hnode : node < graph.pointCount) :
    (projectedRows graph degree)[node]? = some (projectNode graph degree node) := by
  rw [projectedRows, List.getElem?_map, List.getElem?_range hnode]
  rfl

theorem find?_projectedRows (degree : Nat) :
    ((projectedRows graph degree).find? fun row => row.invalid ≠ 0) = none ↔
      ∀ node < graph.pointCount, graph.Proper node ∧ graph.Short node := by
  simp only [List.find?_eq_none, projectedRows, List.mem_map, List.mem_range, decide_eq_true_iff,
    not_not]
  constructor
  · exact fun hvalid node hnode => projectNode_marked (hvalid _ ⟨node, hnode, rfl⟩)
  · rintro hnodes _ ⟨node, hnode, rfl⟩
    rw [projectNode_valid (hnodes node hnode).1 (hnodes node hnode).2]

section Taken

variable (hnodes : ∀ node < graph.pointCount, graph.Proper node ∧ graph.Short node)
include hnodes

theorem targetsOf_projectedRows (degree : Nat) {node : Nat} (hnode : node < graph.pointCount) :
    targetsOf (projectedRows graph degree) node = graph.projected degree node := by
  rw [targetsOf, List.getD_eq_getElem?_getD, getElem?_projectedRows hnode, Option.getD_some,
    projectNode_valid (hnodes node hnode).1 (hnodes node hnode).2]

theorem arcs_projectedRows (degree : Nat) :
    Arcs graph.pointCount (targetsOf (projectedRows graph degree)) := by
  have harcs := arcs_projected (fun node hnode => (hnodes node hnode).1) degree
  constructor
  · intro node hnode
    rw [targetsOf_projectedRows hnodes degree hnode]
    exact harcs.sorted node hnode
  · intro node hnode
    rw [targetsOf_projectedRows hnodes degree hnode]
    exact harcs.inside node hnode

theorem isPairs_projectedRows {degree : Nat} {pairs : List WeightedPair}
    (hpairs : IsPairs graph.pointCount (targetsOf (projectedRows graph degree)) pairs) :
    IsPairs graph.pointCount (graph.projected degree) pairs := by
  refine ⟨hpairs.nodup, fun pair => ?_⟩
  rw [hpairs.mem]
  refine and_congr_right fun hless => and_congr_right fun hright => ?_
  rw [directions, directions, targetsOf_projectedRows hnodes degree hright,
    targetsOf_projectedRows hnodes degree (hless.trans hright)]

theorem baseDegrees_ok (hsmall : graph.pointCount < 2 ^ 32) (degree : Nat) :
    scan (fun _ degree sum => checkedAdd sum degree "directed Base edges") 0
      ((projectedRows graph degree).map ProjectedNode.baseDegree) 0 =
        .ok (graph.arcCount graph.pointCount) := by
  have hlength : ((projectedRows graph degree).map ProjectedNode.baseDegree).length =
      graph.pointCount := by
    rw [projectedRows, List.length_map, List.length_map, List.length_range]
  have hstep : ∀ (index value sum : Nat),
      ((projectedRows graph degree).map ProjectedNode.baseDegree)[index]? = some value →
      sum = graph.arcCount (0 + index) →
      ∃ next, checkedAdd sum value "directed Base edges" = .ok next ∧
        next = graph.arcCount (0 + index + 1) := by
    intro index value sum hvalue hsum
    have hnode : index < graph.pointCount := by
      rw [← hlength]
      exact (List.getElem_of_getElem? hvalue).1
    rw [List.getElem?_map, getElem?_projectedRows hnode, Option.map_some,
      projectNode_valid (hnodes index hnode).1 (hnodes index hnode).2] at hvalue
    have hdegree : (graph.neighbors index).length = value := Option.some.inj hvalue
    rw [Nat.zero_add] at hsum ⊢
    have hsplit : graph.arcCount (index + 1) =
        graph.arcCount index + (graph.neighbors index).length := rfl
    have htotal : graph.arcCount (index + 1) ≤ (index + 1) * maxGraphDegree :=
      rowStart_le fun row hrow => (hnodes row (by omega)).2.bounded
    rw [maxGraphDegree] at htotal
    refine ⟨_, checkedAdd_eq_ok.mpr ⟨?_, rfl⟩, ?_⟩
    · omega
    · rw [hsum, hsplit, hdegree]
  obtain ⟨last, hscan, hlast⟩ := @scan_total _ _ _
    (fun _ degree sum => checkedAdd sum degree "directed Base edges")
    (fun nodes sum => sum = graph.arcCount nodes)
    ((projectedRows graph degree).map ProjectedNode.baseDegree) 0 0 rfl hstep
  rw [hscan, hlast, hlength, Nat.zero_add]

theorem pairTargets_le (degree : Nat) {node : Nat} (hnode : node < graph.pointCount) :
    (pairTargets (projectedRows graph degree) node).length ≤ maxGraphDegree := by
  have hsublist : (pairTargets (projectedRows graph degree) node).length ≤
      (graph.projected degree node).length := by
    rw [← targetsOf_projectedRows hnodes degree hnode]
    exact List.length_filter_le _ _
  exact hsublist.trans ((projected_subperm graph degree node).length_le.trans
    (hnodes node hnode).2.bounded)

theorem bounded_eq (hdegree : projectionDegree projection = .ok degree)
    (hsmall : graph.pointCount < 2 ^ 32) (edgeIdLimit : Nat)
    (loops : PartitionLoops graph.pointCount) :
    ∃ pairs, IsPairs graph.pointCount (graph.projected degree.toNat) pairs ∧
      buildBoundedPartitionGraph edgeIdLimit graph projection loops =
        connectPairs edgeIdLimit loops.sorting (graph.arcCount graph.pointCount) pairs := by
  set rows := projectedRows graph degree.toNat with hrows
  set width : Nat → Nat := fun node => (pairTargets rows node).length with hwidth
  have hlength : ((List.range graph.pointCount).map width).length = graph.pointCount := by
    rw [List.length_map, List.length_range]
  have hwidths : ∀ row < ((List.range graph.pointCount).map width).length,
      ((List.range graph.pointCount).map width)[row]? = some (width row) := by
    intro row hrow
    rw [hlength] at hrow
    rw [List.getElem?_map, List.getElem?_range hrow]
    rfl
  have htotal : rowStart width graph.pointCount ≤ graph.pointCount * maxGraphDegree :=
    rowStart_le fun node hnode => pairTargets_le hnodes degree.toNat hnode
  rw [maxGraphDegree] at htotal
  obtain ⟨offsets, hoffsets⟩ := @runningOffsets_ok (fun _ => .ok ()) "bounded projection pairs"
    width _ 0 hwidths (by rw [hlength]; omega) fun _ _ => rfl
  obtain ⟨hcount, hstarts⟩ := runningOffsets_spec hwidths hoffsets
  rw [hlength] at hcount hstarts
  have hlast : offsets.getLastD 0 = rowStart width graph.pointCount := by
    rw [List.getLastD_eq_getLast?, List.getLast?_eq_getElem?, hcount, Nat.add_sub_cancel,
      hstarts _ (Nat.le_refl _), Nat.zero_add, Option.getD_some]
  refine ⟨(List.range graph.pointCount).flatMap fun node =>
    (pairTargets rows node).map (makePair rows node),
    isPairs_projectedRows hnodes (boundedPairs_isPairs (arcs_projectedRows hnodes degree.toNat)), ?_⟩
  have hmultiply : checkedMultiply graph.pointCount degree.toNat "bounded projection targets" =
      .ok (graph.pointCount * degree.toNat) := by
    rw [checkedMultiply_eq_ok]
    have hlimit : graph.pointCount * degree.toNat < 2 ^ 32 * 2 ^ 32 :=
      Nat.mul_lt_mul'' hsmall degree.toNat_lt
    exact ⟨by omega, rfl⟩
  have hprojected : parallelFor loops.projection.val
      (fun node rows => rows.set node (projectNode graph degree.toNat node))
      (List.replicate graph.pointCount {}) = rows :=
    parallelFor_set loops.projection _ List.length_replicate
  have hfind : (rows.find? fun row => row.invalid ≠ 0) = none := (find?_projectedRows _).mpr hnodes
  have hcounts : parallelFor loops.pairCounts.val
      (fun node counts => counts.set node (pairTargets rows node).length)
      (List.replicate graph.pointCount 0) = (List.range graph.pointCount).map width :=
    parallelFor_set loops.pairCounts _ List.length_replicate
  have hpairs : parallelFor loops.pairs.val (fun node pairs => patch pairs (offsets.getD node 0)
      ((pairTargets rows node).map (makePair rows node)))
      (List.replicate (offsets.getLastD 0) ⟨0, 0, 0⟩) =
        (List.range graph.pointCount).flatMap fun node =>
          (pairTargets rows node).map (makePair rows node) := by
    rw [parallelFor_congr loops.pairs fun node hnode pairs => by
      rw [List.getD_eq_getElem?_getD, hstarts node (Nat.le_of_lt hnode), Nat.zero_add,
        Option.getD_some]]
    have hslots : (List.replicate (offsets.getLastD 0) (⟨0, 0, 0⟩ : WeightedPair)).length =
        rowStart width graph.pointCount := by
      rw [List.length_replicate, hlast]
    exact @parallelFor_patch _ width _ _ loops.pairs
      (fun node _ => (pairTargets rows node).map (makePair rows node))
      (fun node _ _ _ => List.length_map _) hslots
  have hsum : scan (fun _ degree sum => checkedAdd sum degree "directed Base edges") 0
      (rows.map ProjectedNode.baseDegree) 0 = .ok (graph.arcCount graph.pointCount) :=
    baseDegrees_ok hnodes hsmall degree.toNat
  simp only [buildBoundedPartitionGraph, hdegree, hmultiply, hprojected, hfind, hcounts, hoffsets,
    hpairs, hsum, bind, Except.bind]

end Taken

theorem nodes_of_bounded {edgeIdLimit : Nat} {loops : PartitionLoops graph.pointCount}
    {result : PartitionGraph} (hdegree : projectionDegree projection = .ok degree)
    (hresult : buildBoundedPartitionGraph edgeIdLimit graph projection loops = .ok result) :
    ∀ node < graph.pointCount, graph.Proper node ∧ graph.Short node := by
  have hprojected : parallelFor loops.projection.val
      (fun node rows => rows.set node (projectNode graph degree.toNat node))
      (List.replicate graph.pointCount {}) = projectedRows graph degree.toNat :=
    parallelFor_set loops.projection _ List.length_replicate
  simp only [buildBoundedPartitionGraph, bind_ok, hdegree, Except.ok.injEq] at hresult
  obtain ⟨_, rfl, _, -, hresult⟩ := hresult
  rw [hprojected] at hresult
  refine (find?_projectedRows degree.toNat).mp ?_
  cases hfind : (projectedRows graph degree.toNat).find? fun row => row.invalid ≠ 0 with
  | none => rfl
  | some row =>
    rw [hfind] at hresult
    cases hresult

section

variable (hdegree : projectionDegree projection = .ok degree) (hsmall : graph.pointCount < 2 ^ 32)
include hdegree hsmall

theorem keySorted_symmetrises {edgeIdLimit : Nat} {result : PartitionGraph}
    (hresult : buildKeySortedPartitionGraph edgeIdLimit graph projection = .ok result) :
    Symmetrises graph.pointCount (graph.projected degree.toNat) result := by
  have hchecked := fun node hnode => @proper_of_keySorted _ _ _ _ _ hdegree hresult node hnode
  have hproper : ∀ node < graph.pointCount, graph.Proper node :=
    fun node hnode => (hchecked node hnode).1
  obtain ⟨pairs, hpairs, hbuilt⟩ := keySorted_eq hdegree hsmall hproper
    (fun node hnode => (hchecked node hnode).2) edgeIdLimit
  rw [hbuilt] at hresult
  exact connectPairs_symmetrises (arcs_projected hproper _) hpairs hresult

theorem keySorted_total (hproper : ∀ node < graph.pointCount, graph.Proper node)
    (hranked : ∀ node < graph.pointCount, degree.toNat < (graph.neighbors node).length →
      ∀ target ∈ graph.neighbors node, ¬ graph.BadDistance node target)
    {edgeIdLimit : Nat} (hwide : edgeIdLimit < 2 ^ 64)
    (hedges : (symmetricEdges graph.pointCount (graph.projected degree.toNat)).length ≤
      edgeIdLimit) :
    ∃ result, buildKeySortedPartitionGraph edgeIdLimit graph projection = .ok result := by
  obtain ⟨pairs, hpairs, hbuilt⟩ := keySorted_eq hdegree hsmall hproper hranked edgeIdLimit
  have hcount := length_symmetricDegrees graph.pointCount (graph.projected degree.toNat)
  rw [length_symmetricEdges] at hedges
  obtain ⟨offsets, hoffsets⟩ := @runningOffsets_ok
    (fun next => reject (edgeIdLimit < next)
      (.invalidArgument "Community partition adjacency exceeds KaMinPar EdgeID"))
    "partition adjacency" _ _ 0
    (fun row hrow => getElem?_symmetricDegrees (hcount ▸ hrow)) (by rw [hcount]; omega)
    fun next hnext => by
      rw [hcount] at hnext
      rw [reject_ok]
      omega
  rw [hbuilt, connectPairs_eq hpairs (arcs_projected hproper _)]
  exact ⟨_, bind_ok.mpr ⟨offsets, hoffsets, rfl⟩⟩

theorem bounded_iff (edgeIdLimit : Nat) (loops : PartitionLoops graph.pointCount)
    (result : PartitionGraph) :
    buildBoundedPartitionGraph edgeIdLimit graph projection loops = .ok result ↔
      (∀ node < graph.pointCount, graph.Short node) ∧
        buildKeySortedPartitionGraph edgeIdLimit graph projection = .ok result := by
  have hsame : ∀ hnodes : ∀ node < graph.pointCount, graph.Proper node ∧ graph.Short node,
      buildBoundedPartitionGraph edgeIdLimit graph projection loops =
        buildKeySortedPartitionGraph edgeIdLimit graph projection := by
    intro hnodes
    have hproper : ∀ node < graph.pointCount, graph.Proper node :=
      fun node hnode => (hnodes node hnode).1
    obtain ⟨pairs, hpairs, hbounded⟩ := bounded_eq hnodes hdegree hsmall edgeIdLimit loops
    obtain ⟨others, hothers, hgeneral⟩ := keySorted_eq hdegree hsmall hproper
      (fun node hnode _ => (hnodes node hnode).2.ranked) edgeIdLimit
    rw [hbounded, hgeneral]
    exact connectPairs_congr (arcs_projected hproper _) hpairs hothers _ _ _ _
  constructor
  · intro hbounded
    have hnodes := nodes_of_bounded hdegree hbounded
    exact ⟨fun node hnode => (hnodes node hnode).2, hsame hnodes ▸ hbounded⟩
  · rintro ⟨hshort, hgeneral⟩
    have hnodes : ∀ node < graph.pointCount, graph.Proper node ∧ graph.Short node :=
      fun node hnode => ⟨(proper_of_keySorted hdegree hgeneral hnode).1, hshort node hnode⟩
    rwa [hsame hnodes]

end

/-- Both paths build the projected graph, made undirected, but the path for short lists takes no
graph with an empty or a long list, or with a distance that cannot be ranked. -/
theorem partitionGraph_paths (hdegree : projectionDegree projection = .ok degree)
    (hsmall : graph.pointCount < 2 ^ 32) (edgeIdLimit : Nat)
    (loops : PartitionLoops graph.pointCount) :
    (∀ result, buildBoundedPartitionGraph edgeIdLimit graph projection loops = .ok result ↔
      (∀ node < graph.pointCount, graph.Short node) ∧
        buildKeySortedPartitionGraph edgeIdLimit graph projection = .ok result) ∧
    (∀ result, buildPartitionGraph edgeIdLimit graph projection loops = .ok result →
      buildKeySortedPartitionGraph edgeIdLimit graph projection = .ok result) ∧
    (∀ result, buildKeySortedPartitionGraph edgeIdLimit graph projection = .ok result →
      Symmetrises graph.pointCount (graph.projected degree.toNat) result) ∧
    (edgeIdLimit < 2 ^ 64 →
      (symmetricEdges graph.pointCount (graph.projected degree.toNat)).length ≤ edgeIdLimit →
      (∀ node < graph.pointCount, graph.Proper node ∧
        (degree.toNat < (graph.neighbors node).length →
          ∀ target ∈ graph.neighbors node, ¬ graph.BadDistance node target)) →
      ∃ result, buildKeySortedPartitionGraph edgeIdLimit graph projection = .ok result) := by
  have hbounded := bounded_iff hdegree hsmall edgeIdLimit loops
  refine ⟨hbounded, fun result hresult => ?_, fun result hresult => ?_, ?_⟩
  · simp only [buildPartitionGraph, bind_ok] at hresult
    obtain ⟨_, -, hresult⟩ := hresult
    split at hresult
    · exact ((hbounded result).mp hresult).2
    · exact hresult
  · exact keySorted_symmetrises hdegree hsmall hresult
  · intro hwide hedges hnodes
    exact keySorted_total hdegree hsmall (fun node hnode => (hnodes node hnode).1)
      (fun node hnode => (hnodes node hnode).2) hwide hedges

end Paths

/-- Three nodes, one without a list. -/
def looseGraph : GraphView where
  lists := [[1, 2], [0], []]
  squaredDistance _ _ := .one

def ascendingLoops (size : Nat) : PartitionLoops size where
  projection := .ascending size
  pairCounts := .ascending size
  pairs := .ascending size
  sorting := .ascending size

/-- The general path builds the graph with an empty list, and the path for short lists does
not. -/
theorem looseGraph_refused :
    buildKeySortedPartitionGraph 100 looseGraph .localVamanaK8 = .ok
      { offsets := [0, 2, 3, 4], neighbors := [1, 2, 0, 0], nodeWeights := [1, 1, 1]
        edgeWeights := [2, 1, 2, 1], directedEdgeCount := 3, undirectedEdgeCount := 2 } ∧
    buildBoundedPartitionGraph 100 looseGraph .localVamanaK8 (ascendingLoops 3) =
      .error (.invalidArgument "Base Vamana contains an invalid or duplicate directed edge") := by
  decide +kernel

/-- Two nodes with an arc in both directions, and a third with an arc in one. -/
def closedGraph : GraphView where
  lists := [[1, 2], [0], [1]]
  squaredDistance _ _ := .one

theorem partitionGraph_paths_closed :
    (∀ result, buildBoundedPartitionGraph 100 closedGraph .localVamanaK8 (ascendingLoops 3) =
        .ok result ↔ (∀ node < closedGraph.pointCount, closedGraph.Short node) ∧
        buildKeySortedPartitionGraph 100 closedGraph .localVamanaK8 = .ok result) ∧
    (∀ result, buildPartitionGraph 100 closedGraph .localVamanaK8 (ascendingLoops 3) = .ok result →
      buildKeySortedPartitionGraph 100 closedGraph .localVamanaK8 = .ok result) ∧
    (∀ result, buildKeySortedPartitionGraph 100 closedGraph .localVamanaK8 = .ok result →
      Symmetrises closedGraph.pointCount (closedGraph.projected 8) result) ∧
    ∃ result, buildKeySortedPartitionGraph 100 closedGraph .localVamanaK8 = .ok result := by
  obtain ⟨hbounded, hpath, hresult, htotal⟩ := @partitionGraph_paths closedGraph .localVamanaK8 8
    rfl (by decide) 100 (ascendingLoops 3)
  refine ⟨hbounded, hpath, hresult, htotal (by decide) (by decide +kernel) fun node hnode => ?_⟩
  have hproper : ∀ node < 3, (closedGraph.neighbors node).Nodup ∧
      ∀ target ∈ closedGraph.neighbors node, target < 3 ∧ target ≠ node := by decide
  have hshort : ∀ node < 3, ¬ 8 < (closedGraph.neighbors node).length := by decide
  exact ⟨⟨(hproper node hnode).1, (hproper node hnode).2⟩,
    fun hlong => absurd hlong (hshort node hnode)⟩

end SkipCell.Build

import SkipCell.Build.GraphLocal
import SkipCell.Foundation.CompressedRows
import SkipCell.Foundation.Shortlist

/-! # Gateways between Communities

The arcs from a Community to another are the gateways to it; some of their targets are kept. With
a profile of targets all arcs are collected and sorted. Without one every worker keeps a
shortlist for each pair of Communities, and the shortlists are merged.
-/

namespace SkipCell.Build

open Foundation Sidecar

/-- `left == right`: the values are equal, and not NaN. -/
def SameDouble (left right : Double) : Prop := left ≤ right ∧ right ≤ left

instance (left right : Double) : Decidable (SameDouble left right) :=
  inferInstanceAs (Decidable (_ ∧ _))

def minusOne : Double := ⟨0xBFF0000000000000⟩

/-- The part of `rcni_node_importance_t` that is read. -/
structure NodeRecord where
  nodeId : UInt32
  normalizedImportance : Double

/-- `importance_by_node`. -/
def importanceByNode (records : List NodeRecord) (pointCount : Nat) :
    Except Error (List Double) := do
  reject (records.length ≠ pointCount)
    (.invalidArgument "Community construction requires one RCNI record per Base node")
  let values ← scan (fun _ record values => do
      reject (pointCount ≤ record.nodeId.toNat ∨
          .zero ≤ values.getD record.nodeId.toNat .zero ∨
          record.normalizedImportance.isFinite = false ∨ record.normalizedImportance < .zero)
        (.invalidArgument "Community construction received invalid RCNI records")
      .ok (values.set record.nodeId.toNat record.normalizedImportance)) 0 records
    (List.replicate records.length minusOne)
  reject (∃ value ∈ values, SameDouble value minusOne)
    (.invalidArgument "Community construction RCNI records have missing node IDs")
  .ok values

structure Importance where
  values : List Double
  finite : ∀ value ∈ values, value.isFinite = true

def Importance.at (importance : Importance) (node : Nat) : Double :=
  importance.values.getD node .zero

def BetterTarget (importance : Importance) (left right : Nat) : Prop :=
  if SameDouble (importance.at left) (importance.at right) then left < right
  else importance.at right < importance.at left

instance (importance : Importance) : DecidableRel (BetterTarget importance) :=
  fun _ _ => inferInstanceAs (Decidable (ite _ _ _))

structure CrossArc where
  sourceCommunity : Nat
  targetCommunity : Nat
  sourceNode : Nat
  targetNode : Nat
  deriving DecidableEq

structure GatewayCandidate where
  sourceNode : Nat
  targetNode : Nat
  importance : Double
  hasDirection : Bool
  direction : List Single

def kPolarDefaultEpsilon : Single := ⟨0x2B8CBCCC⟩

/-- `compute_unit_direction`: the direction, unless the point is the pole. -/
def computeUnitDirection (point pole : List Single) : Bool × List Single :=
  let radius := computeRadius point pole
  if radius ≤ kPolarDefaultEpsilon then (false, point.map fun _ => .zero)
  else (true, List.zipWith (fun value origin => (value - origin) / radius) point pole)

/-- What a pair of Communities is chosen from. -/
structure GatewayView where
  index : Index
  vectors : List Single
  importance : Importance

namespace GatewayView

variable (view : GatewayView)

def candidate (targetCommunity : Nat) (entry : Nat × Nat) : GatewayCandidate :=
  let direction := computeUnitDirection
    (vectorRow view.vectors view.index.dimension (.ofNat entry.2))
    (poleRow view.index (.ofNat targetCommunity))
  { sourceNode := entry.1
    targetNode := entry.2
    importance := view.importance.at entry.2
    hasDirection := direction.1
    direction := direction.2 }

end GatewayView

/-- The least source of each target. Arcs to one target lie together. -/
def targetEntries (arcs : List CrossArc) : List (Nat × Nat) :=
  (arcs.splitBy fun left right => left.targetNode = right.targetNode).filterMap fun run =>
    match run with
    | [] => none
    | first :: rest =>
      some ((rest.map CrossArc.sourceNode).foldl min first.sourceNode, first.targetNode)

def CandidateBefore (left right : GatewayCandidate) : Prop :=
  if SameDouble left.importance right.importance then left.targetNode < right.targetNode
  else right.importance < left.importance

instance : DecidableRel CandidateBefore := fun _ _ => inferInstanceAs (Decidable (ite _ _ _))

def directionDot (left right : List Single) : Double :=
  (left.zip right).foldl (fun dot (value, other) => dot + value.toDouble * other.toDouble) .zero

/-- `std::clamp` to the cosines. -/
def clampDot (dot : Double) : Double :=
  if dot < minusOne then minusOne else if .one < dot then .one else dot

/-- How far the direction of a candidate is from those that were selected. -/
def separation (candidates : List GatewayCandidate) (selected : List Nat)
    (candidate : GatewayCandidate) : Double :=
  let chosen := (selected.filterMap fun position => candidates[position]?).filter
    GatewayCandidate.hasDirection
  if candidate.hasDirection = false ∨ chosen.isEmpty = true then .zero
  else
    .one - chosen.foldl (fun maximumDot other =>
      let dot := clampDot (directionDot candidate.direction other.direction)
      if maximumDot < dot then dot else maximumDot) minusOne

/-- The candidate that is best so far, with its place and its separation. -/
structure BestGateway where
  position : Nat
  candidate : GatewayCandidate
  separation : Double

/-- Whether a candidate replaces the best one. -/
def Improves (best : Option BestGateway) (candidate : GatewayCandidate) (separation : Double) :
    Prop :=
  match best with
  | none => minusOne < separation ∨ SameDouble separation minusOne
  | some best =>
    best.separation < separation ∨
      SameDouble separation best.separation ∧
        (best.candidate.importance < candidate.importance ∨
          SameDouble candidate.importance best.candidate.importance ∧
            candidate.targetNode < best.candidate.targetNode)

instance (best : Option BestGateway) (candidate : GatewayCandidate) (separation : Double) :
    Decidable (Improves best candidate separation) := by
  unfold Improves
  cases best <;> exact inferInstance

def bestGateway (candidates : List GatewayCandidate) (pool : Nat) (selected : List Nat) :
    Option BestGateway :=
  ((candidates.take pool).zipIdx).foldl (fun best (candidate, position) =>
      let separation := separation candidates selected candidate
      if position ∉ selected ∧ Improves best candidate separation then
        some ⟨position, candidate, separation⟩
      else best) none

/-- As many Gateways as are still missing. -/
def fillGateways (candidates : List GatewayCandidate) (pool : Nat) :
    Nat → List Nat → Except Error (List Nat)
  | 0, selected => .ok selected
  | missing + 1, selected =>
    match bestGateway candidates pool selected with
    | none => .error (.logicError "Gateway selection could not fill its bounded shortlist")
    | some best => fillGateways candidates pool missing (selected ++ [best.position])

def selectProfiled (candidates : List GatewayCandidate) (profiledTargets : List Nat) :
    Except Error (List Nat) :=
  scan (fun _ target selected =>
      match candidates.findIdx? fun candidate => candidate.targetNode = target with
      | none =>
        .error (.invalidArgument "Gateway selection CSV names a node outside its superedge")
      | some position => do
        reject (position ∈ selected)
          (.invalidArgument "Gateway selection CSV repeats a target node")
        .ok (selected ++ [position])) 0 profiledTargets []

/-- The choice from the sorted candidates. -/
def chooseGateways (config : BuildConfig) (candidates : List GatewayCandidate)
    (profiledTargets : List Nat) : Except Error (List Gateway) := do
  let selectedCount := min config.gatewayCount.toNat candidates.length
  let profiled ← selectProfiled candidates profiledTargets
  let selected := if profiled.isEmpty = true ∧ selectedCount ≠ 0 then [0] else profiled
  let filled ← fillGateways candidates (min config.gatewayShortlist.toNat candidates.length)
    (selectedCount - selected.length) selected
  .ok ((filled.filterMap fun position => candidates[position]?).map fun candidate =>
    ⟨.ofNat candidate.sourceNode, .ofNat candidate.targetNode, 0⟩)

/-- `select_gateways`. -/
def selectGateways (view : GatewayView) (arcs : List CrossArc) (targetCommunity : Nat)
    (profiledTargets : List Nat) : Except Error (List Gateway) :=
  let candidates := (targetEntries arcs).map (view.candidate targetCommunity)
  chooseGateways view.index.config
    (candidates.insertionSort fun left right => ¬ CandidateBefore right left) profiledTargets

/-- The edges with their Gateways, as far as they are known. -/
structure SuperEdges where
  communityEdges : List Edge
  gateways : List Gateway
  deriving DecidableEq

def appendEdge (view : GatewayView) (source target : Nat) (count : UInt64) (arcs : List CrossArc)
    (profiledTargets : List Nat) (edges : SuperEdges) : Except Error SuperEdges := do
  let gateways ← selectGateways view arcs target profiledTargets
  .ok
    { communityEdges := edges.communityEdges ++
        [{ sourceCommunity := .ofNat source
           targetCommunity := .ofNat target
           directedCrossEdgeCount := count
           gatewayBegin := .ofNat edges.gateways.length
           gatewayCount := .ofNat gateways.length }]
      gateways := edges.gateways ++ gateways }

/-- What the construction writes. -/
structure GatewayTables where
  communities : List Community
  edges : SuperEdges

/-- A linked graph in memory: its arcs can be counted. -/
structure ArcGraph extends PostLinkGraph where
  addressable : neighbors.flatten.length < 2 ^ 64

def communityOf (nodeToCommunity : List UInt32) (node : Nat) : Nat :=
  (nodeToCommunity.getD node 0).toNat

def arcsOf (graph : ArcGraph) (nodes : List Nat) : List (Nat × Nat) :=
  nodes.flatMap fun source => (graph.adjacency source).map fun target => (source, target)

def ArcBefore (left right : CrossArc) : Prop :=
  left.targetNode < right.targetNode ∨ left.targetNode = right.targetNode ∧
    left.sourceNode ≤ right.sourceNode

instance : DecidableRel ArcBefore := fun _ _ => inferInstanceAs (Decidable (_ ∨ _))

structure PairAccumulator where
  edgeCount : UInt64 := 0
  shortlist : List (Nat × Nat) := []
  deriving DecidableEq

/-- What a worker has counted, for each Community and for each pair of them. -/
structure WorkerArcs where
  internal : List UInt64
  pairs : List PairAccumulator

/-- `consider_gateway`. The validated limit is not zero, so there is a last entry. -/
def considerGateway (view : GatewayView) (shortlist : List (Nat × Nat)) (candidate : Nat × Nat) :
    List (Nat × Nat) :=
  considerEntry (BetterTarget view.importance) view.index.config.gatewayShortlist.toNat shortlist
    candidate

def visitArc (view : GatewayView) (state : WorkerArcs) (arc : Nat × Nat) : WorkerArcs :=
  let sourceCommunity := communityOf view.index.nodeToCommunity arc.1
  let targetCommunity := communityOf view.index.nodeToCommunity arc.2
  if sourceCommunity = targetCommunity then
    { state with internal := state.internal.modify sourceCommunity (· + 1) }
  else
    { state with
      pairs := state.pairs.modify
        (sourceCommunity * view.index.config.communityCount.toNat + targetCommunity)
        fun pair =>
          { edgeCount := pair.edgeCount + 1, shortlist := considerGateway view pair.shortlist arc } }

def workerNodes (threadCount pointCount worker : Nat) : List Nat :=
  List.range' worker ((pointCount - worker + threadCount - 1) / threadCount) threadCount

def workerArcs (view : GatewayView) (graph : ArcGraph) (threadCount worker : Nat) : WorkerArcs :=
  let communityCount := view.index.config.communityCount.toNat
  (arcsOf graph (workerNodes threadCount graph.pointCount worker)).foldl (visitArc view)
    { internal := List.replicate communityCount 0
      pairs := List.replicate (communityCount * communityCount) {} }

def addCount (left right : UInt64) (context : String) : Except Error UInt64 := do
  let sum ← checkedAdd left.toNat right.toNat context
  .ok (.ofNat sum)

def addInternal (workers : List WorkerArcs) (community : Nat) (tables : GatewayTables) :
    Except Error GatewayTables := do
  let record ← element .outOfBounds tables.communities community
  let total ← scan (fun _ (worker : WorkerArcs) count =>
      addCount count (worker.internal.getD community 0) "internal directed Community edges") 0
    workers record.internalDirectedEdgeCount
  .ok { tables with
    communities := tables.communities.set community
      { record with internalDirectedEdgeCount := total } }

/-- The total and the shortlist of a pair, from all workers. -/
def mergeWorkers (view : GatewayView) (workers : List WorkerArcs) (pair : Nat) :
    Except Error (UInt64 × List (Nat × Nat)) :=
  scan (fun _ (worker : WorkerArcs) (count, shortlist) => do
      let total ← addCount count (worker.pairs.getD pair {}).edgeCount
        "directed cross-Community edges"
      .ok (total,
        (worker.pairs.getD pair {}).shortlist.foldl (considerGateway view) shortlist)) 0 workers
    (0, [])

def addOutgoing (source : Nat) (count : UInt64) (communities : List Community) :
    Except Error (List Community) := do
  let record ← element .outOfBounds communities source
  let total ← addCount record.outgoingDirectedEdgeCount count "outgoing directed Community edges"
  .ok (communities.set source { record with outgoingDirectedEdgeCount := total })

def addIncoming (target : Nat) (count : UInt64) (communities : List Community) :
    Except Error (List Community) := do
  let record ← element .outOfBounds communities target
  let total ← addCount record.incomingDirectedEdgeCount count "incoming directed Community edges"
  .ok (communities.set target { record with incomingDirectedEdgeCount := total })

def mergePair (view : GatewayView) (workers : List WorkerArcs) (source target : Nat)
    (tables : GatewayTables) : Except Error GatewayTables :=
  if source = target then .ok tables
  else do
    let (count, shortlist) ←
      mergeWorkers view workers (source * view.index.config.communityCount.toNat + target)
    if count = 0 then .ok tables
    else do
      let outgoing ← addOutgoing source count tables.communities
      let communities ← addIncoming target count outgoing
      let arcs := (shortlist.map fun entry => (⟨source, target, entry.1, entry.2⟩ : CrossArc))
      let edges ← appendEdge view source target count (arcs.insertionSort ArcBefore) []
        tables.edges
      .ok { communities, edges }

/-- The construction without a profile. The threads take the workers in some order. -/
def boundedGateways (view : GatewayView) (graph : ArcGraph) {threadCount : Nat}
    (order : LoopOrder threadCount) (tables : GatewayTables) : Except Error GatewayTables := do
  let communityCount := view.index.config.communityCount.toNat
  let workers := parallelFor order.val
    (fun worker workers => workers.set worker (workerArcs view graph threadCount worker))
    (List.replicate threadCount { internal := [], pairs := [] })
  let counted ← scan (fun _ => addInternal workers) 0 (List.range communityCount) tables
  scan (fun _ source => scan (fun _ => mergePair view workers source) 0
    (List.range communityCount)) 0 (List.range communityCount) counted

/-- `gateway_selection`. -/
abbrev GatewayProfile := List ((Nat × Nat) × List Nat)

def collectArc (nodeToCommunity : List UInt32) (state : List Community × List CrossArc)
    (arc : Nat × Nat) : List Community × List CrossArc :=
  let sourceCommunity := communityOf nodeToCommunity arc.1
  let targetCommunity := communityOf nodeToCommunity arc.2
  if sourceCommunity = targetCommunity then
    (state.1.modify sourceCommunity fun record =>
      { record with internalDirectedEdgeCount := record.internalDirectedEdgeCount + 1 }, state.2)
  else
    ((state.1.modify sourceCommunity fun record =>
        { record with outgoingDirectedEdgeCount := record.outgoingDirectedEdgeCount + 1 }).modify
      targetCommunity fun record =>
        { record with incomingDirectedEdgeCount := record.incomingDirectedEdgeCount + 1 },
      state.2 ++ [⟨sourceCommunity, targetCommunity, arc.1, arc.2⟩])

def CrossArc.pair (arc : CrossArc) : Nat × Nat := (arc.sourceCommunity, arc.targetCommunity)

/-- The order of the arcs, by pairs of Communities and then by nodes. -/
def CrossArcBefore (left right : CrossArc) : Prop :=
  left.sourceCommunity < right.sourceCommunity ∨ left.sourceCommunity = right.sourceCommunity ∧
    (left.targetCommunity < right.targetCommunity ∨
      left.targetCommunity = right.targetCommunity ∧ ArcBefore left right)

instance : DecidableRel CrossArcBefore := fun _ _ => inferInstanceAs (Decidable (_ ∨ _))

/-- The arcs of one pair of Communities become an edge. -/
def appendRun (view : GatewayView) (profile : GatewayProfile) (run : List CrossArc)
    (edges : SuperEdges) : Except Error SuperEdges :=
  match run with
  | [] => .ok edges
  | first :: rest =>
    appendEdge view first.sourceCommunity first.targetCommunity (.ofNat (first :: rest).length)
      (first :: rest) ((profile.lookup first.pair).getD []) edges

/-- The construction from all arcs. -/
def completeGateways (view : GatewayView) (graph : ArcGraph) (profile : GatewayProfile)
    (tables : GatewayTables) : Except Error GatewayTables := do
  let (communities, arcs) := (arcsOf graph (List.range graph.pointCount)).foldl
    (collectArc view.index.nodeToCommunity) (tables.communities, [])
  let runs := (arcs.insertionSort CrossArcBefore).splitBy fun left right => left.pair = right.pair
  let edges ← scan (fun _ => appendRun view profile) 0 runs tables.edges
  .ok { communities, edges }

end SkipCell.Build

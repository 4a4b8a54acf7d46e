import SkipCell.Foundation.Transition
import SkipCell.Search.Config
import SkipCell.Sidecar.Validate

/-! # Community expansion

`has_community_work`, `expand_next_community` and `record_gateway_scores`, under the budgets of
the Communities and of the gateways.
-/

namespace SkipCell.Search

open Foundation Sidecar

/-- `community_polar_query_state_t`, as far as the expansion of Communities reads it. -/
structure CommunityState where
  reachableCommunities : List Bool
  expandedCommunities : List Bool
  observedBaseSources : List UInt32 := []
  communityRoutingScores : List Single
  communityLowerBounds : List Single
  communityExpansions : UInt32 := 0
  gatewayScores : UInt32 := 0

structure GatewayProposal where
  gateway : Nat
  sourceCommunity : UInt32
  targetCommunity : UInt32
  sourceNode : UInt32
  targetNode : UInt32

structure GatewayBatch where
  objectId : Nat
  lowerBoundSquared : Single
  nodeIds : List UInt32
  gatewayProposals : List GatewayProposal

/-- What the loop over the targets of an expansion changes. -/
structure GatewayScratch where
  reachable : List Bool
  lowerBoundSquared : Single := .infinity
  nodes : List UInt32 := []
  proposals : List GatewayProposal := []

/-- The loop ends when there are as many nodes as remain. -/
def visitTargets (remaining : Nat) (visit : Nat → GatewayScratch → GatewayScratch) :
    List Nat → GatewayScratch → GatewayScratch
  | [], scratch => scratch
  | target :: targets, scratch =>
    let scratch := visit target scratch
    if scratch.nodes.length = remaining then scratch
    else visitTargets remaining visit targets scratch

namespace CommunityState

variable (index : Index) (config : SearchConfig) (frontierCells : UInt32)

def needsCommunityState : Bool :=
  config.communitySkip || config.gatewayLandingCellHandoff || !config.cellDeferHierarchyRouting ||
    frontierCells != 0

/-- The distances from the query are given. -/
def beginQuery (routingScores lowerBounds : List Single) : CommunityState :=
  let communities :=
    if needsCommunityState config frontierCells then
      List.replicate index.communities.length false
    else []
  let entry := (index.nodeToCommunity.getD index.entryPointId.toNat 0).toNat
  { reachableCommunities :=
      if config.gatewayLandingCellHandoff then communities.set entry true else communities
    expandedCommunities := communities
    communityRoutingScores := routingScores
    communityLowerBounds := lowerBounds }

variable (state : CommunityState)

/-- What it keeps for the Cells is left out. -/
def observeBaseExpansion (sourceNode : UInt32) : CommunityState :=
  if !needsCommunityState config frontierCells then state
  else if index.pointCount.toNat ≤ sourceNode.toNat ∨ sourceNode ∈ state.observedBaseSources then
    state
  else
    let community := (index.nodeToCommunity.getD sourceNode.toNat 0).toNat
    { state with
      observedBaseSources := sourceNode :: state.observedBaseSources
      reachableCommunities := state.reachableCommunities.set community true }

def waits (community : Nat) : Bool :=
  state.reachableCommunities.getD community false && !state.expandedCommunities.getD community false

def hasCommunityWork : Bool :=
  config.communitySkip && decide (state.communityExpansions < config.communityExpansionBudget) &&
    decide (state.gatewayScores < config.gatewayScoreBudget) &&
    (List.range index.communities.length).any state.waits

/-- The order of `std::tie` on the routing score and the id. -/
def before (left right : Nat) : Bool :=
  let leftScore := state.communityRoutingScores.getD left .zero
  let rightScore := state.communityRoutingScores.getD right .zero
  decide (leftScore < rightScore) || !decide (rightScore < leftScore) && decide (left < right)

def nextCommunity : Option Nat :=
  (List.range index.communities.length).foldl (fun source community =>
    if state.waits community = true ∧ source.all (state.before community) = true then some community
    else source) none

/-- A target is reached, with the gateways that it offers. -/
def reach (target : Nat) (nodes : List UInt32) (proposals : List GatewayProposal)
    (scratch : GatewayScratch) : GatewayScratch where
  reachable := scratch.reachable.set target true
  lowerBoundSquared :=
    scratch.lowerBoundSquared.minimum (state.communityLowerBounds.getD target .zero)
  nodes := scratch.nodes ++ nodes
  proposals := scratch.proposals ++ proposals

def visitHub (target : Nat) (scratch : GatewayScratch) : GatewayScratch :=
  match index.communities[target]? with
  | none => scratch
  | some community => state.reach target [community.navigationHubId] [] scratch

def visitEdge (remaining : Nat) (edgeId : Nat) (scratch : GatewayScratch) : GatewayScratch :=
  match index.communityEdges[edgeId]? with
  | none => scratch
  | some edge =>
    let gateways := (List.range' edge.gatewayBegin.toNat edge.gatewayCount.toNat).take
      (remaining - scratch.nodes.length)
    let records := gateways.filterMap fun gateway =>
      index.gateways[gateway]?.map fun record => (gateway, record)
    state.reach edge.targetCommunity.toNat (records.map (·.2.targetNode))
      (records.map fun (gateway, record) =>
        { gateway
          sourceCommunity := edge.sourceCommunity
          targetCommunity := edge.targetCommunity
          sourceNode := record.sourceNode
          targetNode := record.targetNode }) scratch

def hubTargets (source : Nat) : List Nat :=
  ((List.range index.communities.length).filter (· ≠ source)).mergeSort fun left right =>
    !state.before right left

def edgeTargets (source : Nat) : List Nat :=
  let target := fun edgeId => (index.communityEdges[edgeId]?.elim 0 (·.targetCommunity)).toNat
  let first := (index.communityEdgeOffsets.getD source 0).toNat
  let last := (index.communityEdgeOffsets.getD (source + 1) 0).toNat
  (List.range' first (last - first)).mergeSort fun left right =>
    !(state.before (target right) (target left) ||
      !state.before (target left) (target right) && decide (right < left))

def expandingCommunity : Option Nat :=
  if state.hasCommunityWork index config then state.nextCommunity index else none

def remainingGateways : Nat :=
  min (config.gatewayScoreBudget.toNat - state.gatewayScores.toNat) config.gatewayScoreBatchCap.toNat

def gatewayScratch (source : Nat) : GatewayScratch :=
  let remaining := state.remainingGateways config
  let scratch : GatewayScratch := { reachable := state.reachableCommunities }
  if config.communityHubClique then
    visitTargets remaining (state.visitHub index) (state.hubTargets index source) scratch
  else
    visitTargets remaining (state.visitEdge index remaining) (state.edgeTargets index source) scratch

def expandNextCommunity : Option GatewayBatch × CommunityState :=
  match state.expandingCommunity index config with
  | none => (none, state)
  | some source =>
    let scratch := state.gatewayScratch index config source
    let batch : GatewayBatch :=
      { objectId := source
        lowerBoundSquared := scratch.lowerBoundSquared
        nodeIds := scratch.nodes
        gatewayProposals := scratch.proposals }
    (if scratch.nodes = [] then none else some batch,
      { state with
        reachableCommunities := scratch.reachable
        expandedCommunities := state.expandedCommunities.set source true
        communityExpansions := state.communityExpansions + 1 })

def recordGatewayScores (count : UInt32) : CommunityState :=
  let scores := state.gatewayScores + count
  { state with
    gatewayScores :=
      if scores < config.gatewayScoreBudget then scores else config.gatewayScoreBudget }

end CommunityState

inductive CommunityEvent
  | observeBaseExpansion (sourceNode : UInt32)
  | expandNextCommunity
  | recordGatewayScores (count : UInt32)

/-- A query with the Communities that it has expanded, and how many gateways were returned and
recorded so far. Those of the last batch are pending until a count of them is recorded. -/
structure CommunityRun where
  state : CommunityState
  expanded : List Nat := []
  returned : Nat := 0
  recorded : Nat := 0
  pending : Nat := 0

namespace CommunityRun

variable (index : Index) (config : SearchConfig) (frontierCells : UInt32) (run : CommunityRun)

def perform : CommunityEvent → CommunityRun
  | .observeBaseExpansion sourceNode =>
    { run with state := run.state.observeBaseExpansion index config frontierCells sourceNode }
  | .expandNextCommunity =>
    let outcome := run.state.expandNextCommunity index config
    let count := outcome.1.elim 0 (·.nodeIds.length)
    { run with
      state := outcome.2
      expanded := (run.state.expandingCommunity index config).toList ++ run.expanded
      returned := run.returned + count
      pending := count }
  | .recordGatewayScores count =>
    { run with
      state := run.state.recordGatewayScores config count
      recorded := run.recorded + count.toNat
      pending := 0 }

/-- Of a batch, only its nodes are recorded, those that the query has not seen, and once. -/
def Permitted : CommunityEvent → Prop
  | .recordGatewayScores count => count.toNat ≤ run.pending
  | _ => True

end CommunityRun

def communityRuns (index : Index) (config : SearchConfig) (frontierCells : UInt32) :
    Transition CommunityRun CommunityEvent :=
  .guarded (fun run => ∃ routingScores lowerBounds,
      run = { state := .beginQuery index config frontierCells routingScores lowerBounds })
    CommunityRun.Permitted (CommunityRun.perform index config frontierCells)

theorem length_visitTargets {remaining : Nat} {visit : Nat → GatewayScratch → GatewayScratch}
    (hvisit : ∀ target scratch, scratch.nodes.length < remaining →
      (visit target scratch).nodes.length ≤ remaining) (targets : List Nat)
    {scratch : GatewayScratch} (hroom : scratch.nodes.length < remaining) :
    (visitTargets remaining visit targets scratch).nodes.length ≤ remaining := by
  induction targets generalizing scratch with
  | nil => exact hroom.le
  | cons target targets ih =>
    have hbound := hvisit target scratch hroom
    rw [visitTargets]
    split
    next => exact hbound
    next hmore => exact ih (lt_of_le_of_ne hbound hmore)

namespace CommunityState

variable {index : Index} {config : SearchConfig} {state : CommunityState} {source : Nat}

theorem length_visitHub (target : Nat) (scratch : GatewayScratch) :
    (state.visitHub index target scratch).nodes.length ≤ scratch.nodes.length + 1 := by
  unfold visitHub
  split
  next => exact Nat.le_succ _
  next => simp [reach]

theorem length_visitEdge {remaining : Nat} (edgeId : Nat) {scratch : GatewayScratch}
    (hroom : scratch.nodes.length < remaining) :
    (state.visitEdge index remaining edgeId scratch).nodes.length ≤ remaining := by
  unfold visitEdge
  split
  next => exact hroom.le
  next edge _ =>
    have htaken := List.length_filterMap_le
      (fun gateway => index.gateways[gateway]?.map fun record => (gateway, record))
      ((List.range' edge.gatewayBegin.toNat edge.gatewayCount.toNat).take
        (remaining - scratch.nodes.length))
    rw [List.length_take] at htaken
    simp only [reach, List.length_append, List.length_map]
    omega

theorem length_gatewayScratch (hroom : 0 < state.remainingGateways config) (source : Nat) :
    (state.gatewayScratch index config source).nodes.length ≤ state.remainingGateways config := by
  unfold gatewayScratch
  split
  · refine length_visitTargets (fun target scratch hscratch => ?_) _ hroom
    exact (length_visitHub target scratch).trans hscratch
  · exact length_visitTargets (fun edgeId scratch => length_visitEdge edgeId) _ hroom

theorem nextCommunity_waits : ∀ source ∈ state.nextCommunity index,
    source < index.communities.length ∧ state.waits source = true := by
  unfold nextCommunity
  refine List.foldlRecOn (motive := fun chosen : Option Nat => ∀ source ∈ chosen,
    source < index.communities.length ∧ state.waits source = true) _ _ nofun ?_
  intro chosen hchosen community hcommunity
  split
  next hwaits =>
    intro source hsource
    obtain rfl := Option.some.inj hsource
    exact ⟨List.mem_range.mp hcommunity, hwaits.1⟩
  next => exact hchosen

/-- What holds where a Community is expanded. -/
structure Expandable (index : Index) (config : SearchConfig) (state : CommunityState)
    (source : Nat) : Prop where
  skips : config.communitySkip = true
  inside : source < index.communities.length
  fresh : state.expandedCommunities.getD source false = false
  expansions : state.communityExpansions < config.communityExpansionBudget
  scores : state.gatewayScores < config.gatewayScoreBudget

theorem expandable (hsource : state.expandingCommunity index config = some source) :
    Expandable index config state source := by
  obtain ⟨hwork, hnext⟩ := Option.ite_none_right_eq_some.mp hsource
  simp only [hasCommunityWork, Bool.and_eq_true, decide_eq_true_eq] at hwork
  obtain ⟨⟨⟨hskip, hexpansions⟩, hscores⟩, -⟩ := hwork
  obtain ⟨hinside, hwaits⟩ := nextCommunity_waits source hnext
  rw [waits, Bool.and_eq_true, Bool.not_eq_true'] at hwaits
  exact ⟨hskip, hinside, hwaits.2, hexpansions, hscores⟩

theorem length_batch (hcap : config.communitySkip = true → config.gatewayScoreBatchCap ≠ 0) :
    (state.expandNextCommunity index config).1.elim 0 (·.nodeIds.length) ≤
      config.gatewayScoreBudget.toNat - state.gatewayScores.toNat := by
  unfold expandNextCommunity
  split
  next => exact Nat.zero_le _
  next source hsource =>
    have hexpandable := expandable hsource
    have hscores := UInt32.lt_iff_toNat_lt.mp hexpandable.scores
    have hpositive : 0 < config.gatewayScoreBatchCap.toNat :=
      Nat.pos_of_ne_zero fun hzero => hcap hexpandable.skips (UInt32.toNat_inj.mp hzero)
    have hroom : 0 < state.remainingGateways config := by
      unfold remainingGateways
      omega
    dsimp only
    split
    · exact Nat.zero_le _
    · exact (length_gatewayScratch hroom source).trans (Nat.min_le_left _ _)

end CommunityState

namespace CommunityRun

variable {index : Index} {config : SearchConfig} {frontierCells : UInt32} {run : CommunityRun}

/-- The log of a run is what the state has marked and counted. -/
structure Bounded (index : Index) (config : SearchConfig) (run : CommunityRun) : Prop where
  distinct : run.expanded.Nodup
  marked : ∀ community ∈ run.expanded,
    run.state.expandedCommunities.getD community false = true
  sized : config.communitySkip = true →
    run.state.expandedCommunities.length = index.communities.length
  counted : run.state.communityExpansions.toNat = run.expanded.length
  budget : run.expanded.length ≤ config.communityExpansionBudget.toNat
  scores : run.state.gatewayScores.toNat = run.recorded
  room : run.recorded + run.pending ≤ config.gatewayScoreBudget.toNat

theorem Bounded.expand (hrun : Bounded index config run)
    (hcap : config.communitySkip = true → config.gatewayScoreBatchCap ≠ 0) :
    Bounded index config (run.perform index config frontierCells .expandNextCommunity) := by
  have hbatch := @CommunityState.length_batch index config run.state hcap
  have hroom := hrun.room
  rw [hrun.scores] at hbatch
  unfold perform
  cases hsource : run.state.expandingCommunity index config with
  | none =>
    rw [CommunityState.expandNextCommunity, hsource]
    exact { hrun with room := (Nat.le_add_right _ _).trans hroom }
  | some source =>
    have hexpandable := CommunityState.expandable hsource
    have hbudget := UInt32.lt_iff_toNat_lt.mp hexpandable.expansions
    have hlimit := config.communityExpansionBudget.toNat_lt
    rw [hrun.counted] at hbudget
    simp only [CommunityState.expandNextCommunity, hsource] at hbatch ⊢
    refine ⟨List.nodup_cons.mpr ⟨fun hmem => ?_, hrun.distinct⟩, fun community hmem => ?_,
      fun hskip => List.length_set.trans (hrun.sized hskip), ?_, hbudget, hrun.scores, ?_⟩
    · cases hexpandable.fresh.symm.trans (hrun.marked source hmem)
    · have hsize := hrun.sized hexpandable.skips ▸ hexpandable.inside
      rw [List.getD_eq_getElem?_getD, List.getElem?_set]
      by_cases hsame : source = community
      · simp [← hsame, hsize]
      · have hold := (List.mem_cons.mp hmem).resolve_left (Ne.symm hsame)
        simpa [hsame] using hrun.marked community hold
    · rw [UInt32.toNat_add, hrun.counted]
      exact Nat.mod_eq_of_lt (by simp only [UInt32.toNat_one]; omega)
    · exact (Nat.add_le_add_left hbatch run.recorded).trans (by omega)

theorem recordGatewayScores_le (state : CommunityState) (count : UInt32) :
    (state.recordGatewayScores config count).gatewayScores ≤ config.gatewayScoreBudget := by
  rw [CommunityState.recordGatewayScores]
  dsimp only
  split
  next hless => exact UInt32.le_of_lt hless
  next => exact UInt32.le_refl _

theorem Bounded.record (hrun : Bounded index config run) {count : UInt32}
    (hcount : count.toNat ≤ run.pending) :
    Bounded index config (run.perform index config frontierCells (.recordGatewayScores count)) := by
  have hroom := hrun.room
  have hlimit := config.gatewayScoreBudget.toNat_lt
  have hsum : (run.state.gatewayScores + count).toNat = run.recorded + count.toNat := by
    rw [UInt32.toNat_add, hrun.scores]
    exact Nat.mod_eq_of_lt (by omega)
  refine { hrun with scores := ?_, room := ?_ }
  · simp only [perform, CommunityState.recordGatewayScores]
    split
    next => exact hsum
    next hmore =>
      rw [UInt32.lt_iff_toNat_lt, hsum] at hmore
      omega
  · simp only [perform]
    omega

theorem cap_of_valid (hvalid : config.validate = .ok ()) (hskip : config.communitySkip = true) :
    config.gatewayScoreBatchCap ≠ 0 := by
  obtain ⟨-, -, hvalid⟩ := bind_ok.mp hvalid
  split at hvalid
  · obtain ⟨_, hoperators, -⟩ := bind_ok.mp hvalid
    simp only [SearchConfig.validateOperators, bind_ok, reject_ok, exists_const] at hoperators
    exact fun hzero => hoperators.2.1 ⟨hskip, .inr (.inr hzero)⟩
  · exact absurd (.inl hskip) (reject_ok.mp hvalid)

theorem bounded_of_reachable (hvalid : config.validate = .ok ())
    (hreach : (communityRuns index config frontierCells).Reachable run) :
    Bounded index config run := by
  refine hreach.invariant ?_ ?_
  · rintro run ⟨routingScores, lowerBounds, rfl⟩
    refine ⟨.nil, nofun, fun hskip => ?_, rfl, Nat.zero_le _, rfl, Nat.zero_le _⟩
    simp [CommunityState.beginQuery, CommunityState.needsCommunityState, hskip]
  · rintro run event next hrun ⟨hpermitted, rfl⟩
    cases event with
    | observeBaseExpansion sourceNode =>
      rw [perform, CommunityState.observeBaseExpansion]
      split
      next => exact hrun
      next => split <;> exact { hrun with }
    | expandNextCommunity => exact hrun.expand (cap_of_valid hvalid)
    | recordGatewayScores count => exact hrun.record hpermitted

/-- In a run, no Community is expanded twice, and neither the expansions nor the recorded gateways
go over their budgets. A batch holds no more gateways than what is left of theirs. -/
theorem communityRun_bounded (hvalid : config.validate = .ok ())
    (hreach : (communityRuns index config frontierCells).Reachable run) :
    run.expanded.Nodup ∧ run.expanded.length ≤ config.communityExpansionBudget.toNat ∧
      run.recorded + run.pending ≤ config.gatewayScoreBudget.toNat ∧
      run.state.gatewayScores.toNat = run.recorded ∧
      (∀ batch next, run.state.expandNextCommunity index config = (some batch, next) →
        batch.nodeIds.length ≤ config.gatewayScoreBudget.toNat - run.recorded) ∧
      ∀ count, (run.state.recordGatewayScores config count).gatewayScores ≤
        config.gatewayScoreBudget := by
  have hrun := bounded_of_reachable hvalid hreach
  refine ⟨hrun.distinct, hrun.budget, hrun.room, hrun.scores, fun batch next hbatch => ?_,
    recordGatewayScores_le run.state⟩
  have hlength := @CommunityState.length_batch index config run.state (cap_of_valid hvalid)
  rwa [hbatch, hrun.scores] at hlength

/-- One gateway may be scored. -/
def oneGateway : SearchConfig :=
  { mode := .hybrid, communitySkip := true, communityHubClique := true, gatewayScoreBudget := 1 }

def beginTwoNodes : CommunityRun :=
  { state := .beginQuery twoNodes oneGateway 0 [.zero, .one] [.zero, .zero] }

/-- The query has seen the hub of the other Community, and scores no gateway. -/
def seenHubs : List CommunityEvent :=
  [.observeBaseExpansion 0, .expandNextCommunity, .recordGatewayScores 0, .expandNextCommunity]

theorem reachable_seenHubs : (communityRuns twoNodes oneGateway 0).Reachable
    (seenHubs.foldl (perform twoNodes oneGateway 0) beginTwoNodes) :=
  Transition.reachable_of_permitted ⟨_, _, rfl⟩ (by simp [seenHubs, Transition.PermittedRun, Permitted])

theorem communityRun_bounded_seenHubs :
    (seenHubs.foldl (perform twoNodes oneGateway 0) beginTwoNodes).expanded.Nodup :=
  (communityRun_bounded (by decide +kernel) reachable_seenHubs).1

/-- As many gateways are returned as there are Communities. -/
theorem returned_seenHubs : oneGateway.validate = .ok () ∧
    validateLoadedIndex twoNodes = .ok () ∧
    ∃ run, (communityRuns twoNodes oneGateway 0).Reachable run ∧ run.returned = 2 ∧
      oneGateway.gatewayScoreBudget = 1 :=
  ⟨by decide +kernel, twoNodes_valid, _, reachable_seenHubs, by decide +kernel, rfl⟩

end CommunityRun

end SkipCell.Search

import SkipCell.Sidecar.Validate

/-! # Checks that do not look at some parts

Most checks of an index read neither the Community edges and their Gateways nor the settings that
only steer a build. So an index stays accepted when these are exchanged, as far as what is left of
the checks accepts them.
-/

namespace SkipCell.Sidecar

open Foundation

/-- Two configurations with the settings that the checks of the arrays read. -/
structure SameSettings (config other : BuildConfig) : Prop where
  communityCount : other.communityCount = config.communityCount
  gatewayCount : other.gatewayCount = config.gatewayCount
  polarDirectionCount : other.polarDirectionCount = config.polarDirectionCount
  cellTargetSize : other.cellTargetSize = config.cellTargetSize
  blockTargetSize : other.blockTargetSize = config.blockTargetSize
  cellPartition : other.cellPartition = config.cellPartition
  adaptive : other.adaptiveMultiCapacity = config.adaptiveMultiCapacity
  vectorBytes : config.adaptiveMultiCapacity = true →
    other.adaptiveVectorBytes = config.adaptiveVectorBytes

/-- The settings that the checks of the Cells read. -/
structure SameLayout (config other : BuildConfig) : Prop where
  communityCount : other.communityCount = config.communityCount
  polarDirectionCount : other.polarDirectionCount = config.polarDirectionCount
  cellTargetSize : other.cellTargetSize = config.cellTargetSize
  blockTargetSize : other.blockTargetSize = config.blockTargetSize
  cellPartition : other.cellPartition = config.cellPartition
  adaptive : other.adaptiveMultiCapacity = config.adaptiveMultiCapacity
  vectorBytes : config.adaptiveMultiCapacity = true →
    other.adaptiveVectorBytes = config.adaptiveVectorBytes

theorem SameSettings.layout {config other : BuildConfig} (hsame : SameSettings config other) :
    SameLayout config other :=
  ⟨hsame.communityCount, hsame.polarDirectionCount, hsame.cellTargetSize, hsame.blockTargetSize,
    hsame.cellPartition, hsame.adaptive, hsame.vectorBytes⟩

/-- Other edges between the Communities, and other settings. -/
abbrev Index.rerouted (index : Index) (config : BuildConfig) (edges : List Edge)
    (gateways : List Gateway) : Index :=
  { index with config := config, communityEdges := edges, gateways := gateways }

section Rerouted

variable {index : Index} {config : BuildConfig} {edges : List Edge} {gateways : List Gateway}

theorem checkRadius_rerouted (nodeId : Nat) (radius : Single) (cells : List Nat) :
    checkRadius (index.rerouted config edges gateways) nodeId radius cells =
      checkRadius index nodeId radius cells := by
  induction cells with
  | nil => rfl
  | cons cell cells ih =>
    unfold checkRadius
    rw [ih]

theorem visit_rerouted (community fuel nodeId : Nat) (state : VisitState) :
    visit (index.rerouted config edges gateways) community fuel nodeId state =
      visit index community fuel nodeId state := by
  induction fuel generalizing nodeId state with
  | zero => rfl
  | succ fuel ih =>
    have hself : (fun child state =>
          visit (index.rerouted config edges gateways) community fuel child state) =
        fun child state => visit index community fuel child state := by
      funext child state
      exact ih child state
    unfold visit
    simp only [hself, checkRadius_rerouted]
    rfl

theorem visitRoot_rerouted : visitRoot (index.rerouted config edges gateways) = visitRoot index := by
  funext community record state
  unfold visitRoot
  simp only [visit_rerouted]

section

variable (hsame : SameLayout index.config config)
include hsame

theorem validateCellHierarchy_rerouted :
    validateCellHierarchy (index.rerouted config edges gateways) = validateCellHierarchy index := by
  unfold validateCellHierarchy
  simp only [visitRoot_rerouted, hsame.cellPartition]
  rfl

theorem checkGlobals_rerouted (hedges : edges.length = index.communityEdges.length) :
    checkGlobals (index.rerouted config edges gateways) = checkGlobals index := by
  have hvectors : checkVectorBytes (index.rerouted config edges gateways) =
      checkVectorBytes index := by
    unfold checkVectorBytes
    by_cases hadaptive : index.config.adaptiveMultiCapacity = true
    · simp only [hsame.adaptive, hsame.vectorBytes hadaptive]
    · simp only [hsame.adaptive, hadaptive]
      rfl
  have hcentroids : checkCentroids (index.rerouted config edges gateways) =
      checkCentroids index := by
    unfold checkCentroids
    simp only [hsame.cellPartition]
  unfold checkGlobals
  simp only [hvectors, hcentroids, hsame.communityCount, hedges]
  rfl

theorem checkSector_rerouted :
    checkSector (index.rerouted config edges gateways) = checkSector index := by
  funext sectorToCommunity sectorId record cursor
  unfold checkSector
  simp only [hsame.polarDirectionCount]

theorem checkCell_rerouted :
    checkCell (index.rerouted config edges gateways) = checkCell index := by
  funext cellToCommunity cellToSector cell record cursor
  unfold checkCell
  simp only [hsame.adaptive, hsame.cellTargetSize]

theorem checkBlock_rerouted :
    checkBlock (index.rerouted config edges gateways) = checkBlock index := by
  funext blockToCell block record cursor
  unfold checkBlock
  simp only [hsame.blockTargetSize]

theorem checkPacket_rerouted :
    checkPacket (index.rerouted config edges gateways) = checkPacket index := by
  funext packetToCell packet seen
  unfold checkPacket
  simp only [hsame.cellPartition]
  rfl

theorem validateLoadedIndex_rerouted (hconfig : validateBuildConfig config = .ok ())
    (hlength : edges.length = index.communityEdges.length)
    (hedges : scan (fun source (_ : Community) next => checkSourceEdges (index.rerouted config
      edges gateways) source next) 0 index.communities 0 = .ok gateways.length)
    (hvalid : validateLoadedIndex index = .ok ()) :
    validateLoadedIndex (index.rerouted config edges gateways) = .ok () := by
  unfold validateLoadedIndex at hvalid ⊢
  simp only [checkGlobals_rerouted hsame hlength, checkSector_rerouted hsame,
    checkCell_rerouted hsame, checkBlock_rerouted hsame, checkPacket_rerouted hsame,
    validateCellHierarchy_rerouted hsame, hsame.adaptive, hconfig, hedges]
  simp only [bind_ok] at hvalid ⊢
  obtain ⟨_, -, _, hglobals, membership, hmembers, ranges, hcommunities, _, hranges, _, -, _, -,
    hrest⟩ := hvalid
  exact ⟨(), trivial, (), hglobals, membership, hmembers, ranges, hcommunities, (), hranges,
    _, rfl, (), reject_ok.mpr (not_not.mpr rfl), hrest⟩

end

end Rerouted

section SameSettings

variable {index : Index} {config : BuildConfig}

theorem checkSourceEdges_config (hsame : SameSettings index.config config) :
    checkSourceEdges { index with config := config } = checkSourceEdges index := by
  have hedge : checkEdge { index with config := config } = checkEdge index := by
    funext source edgeId state
    unfold checkEdge
    simp only [hsame.gatewayCount]
    rfl
  funext source expectedGateway
  unfold checkSourceEdges
  rw [hedge]

theorem validateLoadedIndex_config (hsame : SameSettings index.config config)
    (hconfig : validateBuildConfig config = .ok ())
    (hvalid : validateLoadedIndex index = .ok ()) :
    validateLoadedIndex { index with config := config } = .ok () := by
  obtain ⟨accepted⟩ := accepted_of_valid hvalid
  refine @validateLoadedIndex_rerouted index config index.communityEdges index.gateways hsame.layout
    hconfig rfl ?_ hvalid
  have hedges := accepted.edges
  rw [← checkSourceEdges_config hsame] at hedges
  exact hedges

end SameSettings

end SkipCell.Sidecar

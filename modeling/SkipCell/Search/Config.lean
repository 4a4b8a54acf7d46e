import SkipCell.Foundation.Checks
import SkipCell.Foundation.Ieee

/-! # The configuration of the Hybrid search

`validate_community_polar_search_config`, check by check, and what an accepted
configuration satisfies. The fields that neither the validator nor the functions
modelled with it read are left out.
-/

namespace SkipCell.Search

open Foundation

inductive SearchMode
  | baseline
  | hybrid
  deriving DecidableEq

/-- `community_polar_search_config_t`, with its defaults. -/
structure SearchConfig where
  mode : SearchMode := .baseline
  communitySkip : Bool := false
  communityHubClique : Bool := false
  communityPqApproachHops : UInt32 := 0
  cellExpansion : Bool := false
  communityExpansionBudget : UInt32 := 4
  gatewayScoreBudget : UInt32 := 32
  gatewayScoreBatchCap : UInt32 := 0xFFFFFFFF
  cellBlockBudget : UInt32 := 4
  cellSupport : UInt32 := 2
  cellInsertCap : UInt32 := 32
  cellMinSearchListSize : UInt32 := 20
  cellMinCompetitiveCount : UInt32 := 1
  cellMinCompetitiveFraction : Single := .zero
  /-- The single nearest to 0.8. -/
  cellEvidenceThresholdRatio : Single := ⟨0x3F4CCCCD⟩
  cellCandidateThresholdRatio : Single := .one
  cellInsertFraction : Single := .one
  /-- 0.5. -/
  graphGuardFraction : Single := ⟨0x3F000000⟩
  cellWholeCellScan : Bool := false
  cellCentroidRouting : Bool := false
  gatewayLandingCellHandoff : Bool := false
  cellRoutingCommunityBudget : UInt32 := 1
  cellRoutingCellBudget : UInt32 := 2
  cellTerminalConvergence : Bool := false
  cellTerminalApproachHops : UInt32 := 4
  cellTerminalLAwareApproach : Bool := false
  cellTerminalApproachBaseHops : UInt32 := 2
  cellTerminalApproachLDivisor : UInt32 := 5
  cellTerminalLowLStitchMaxL : UInt32 := 0
  cellTerminalLowLStitchExtraHops : UInt32 := 0
  cellTerminalRefineHops : UInt32 := 0
  cellTerminalLAwareRefine : Bool := false
  cellTerminalRefineBaseHops : UInt32 := 0
  cellTerminalRefineLDivisor : UInt32 := 25
  cellTerminalDistanceScale : Single := .one
  cellTerminalStitchPromoteCells : Bool := false
  cellTerminalStitchCellBudget : UInt32 := 4
  cellTerminalStitchMinSupport : UInt32 := 2
  cellTerminalLAwareForest : Bool := false
  cellTerminalForestBaseCells : UInt32 := 1
  cellTerminalForestLDivisor : UInt32 := 10
  cellTerminalLowLForestMaxL : UInt32 := 0
  cellTerminalLowLForestExtraCells : UInt32 := 0
  cellTerminalHighLForestMinL : UInt32 := 0
  cellTerminalHighLForestCellCap : UInt32 := 0
  cellTerminalHighLForestCapLDivisor : UInt32 := 0
  cellTerminalGlobalForestRouting : Bool := false
  cellTerminalRoutePath : String := ""
  cellHierarchicalRouting : Bool := false
  cellHierarchyBranching : UInt32 := 8
  cellHierarchyLeafSize : UInt32 := 16
  cellHierarchyProbeBudget : UInt32 := 16
  cellHierarchyRequirePersisted : Bool := false
  cellHierarchyGraphGuidedRouting : Bool := false
  cellDeferHierarchyRouting : Bool := false
  cellValueTelemetry : Bool := false
  gatewayValueTelemetry : Bool := false
  fastQueryDistance : Bool := false
  sourceCellBatching : Bool := false

namespace SearchConfig

def isHybrid (config : SearchConfig) : Bool := config.mode == .hybrid

/-- A fraction that must be finite and in [0, 1]. -/
def checkFraction (value : Single) (message : String) : Except String Unit :=
  reject (value.isFinite = false ∨ value < .zero ∨ .one < value) message

/-- A ratio that must be finite and in (0, 1]. -/
def checkRatio (value : Single) (message : String) : Except String Unit :=
  reject (value.isFinite = false ∨ value ≤ .zero ∨ .one < value) message

/-- The checks of the fractions, which every mode passes. -/
def validateFractions (config : SearchConfig) : Except String Unit := do
  checkFraction config.graphGuardFraction "Graph guard fraction must be finite and within [0, 1]"
  checkFraction config.cellMinCompetitiveFraction
    "Cell minimum competitive fraction must be finite and in [0, 1]"
  checkRatio config.cellCandidateThresholdRatio
    "Cell candidate threshold ratio must be finite and in (0, 1]"
  checkRatio config.cellEvidenceThresholdRatio
    "Cell evidence threshold ratio must be finite and in (0, 1]"
  checkRatio config.cellInsertFraction "Cell insert fraction must be finite and in (0, 1]"

def validateOperators (config : SearchConfig) : Except String Unit := do
  reject (config.communitySkip = false ∧ config.cellExpansion = false)
    "Hybrid mode requires Community Skip or Cell Expansion"
  reject (config.communitySkip = true ∧ (config.communityExpansionBudget = 0 ∨
      config.gatewayScoreBudget = 0 ∨ config.gatewayScoreBatchCap = 0))
    "Community Skip requires positive Community and Gateway budgets"
  reject (config.communityHubClique = true ∧ config.communitySkip = false)
    "Community Hub Clique requires Community Skip"
  reject (config.communityPqApproachHops ≠ 0 ∧ config.communitySkip = false)
    "Community PQ approach hops require Community Skip"
  reject (config.cellExpansion = true ∧ (config.cellBlockBudget = 0 ∨ config.cellSupport = 0 ∨
      config.cellInsertCap = 0 ∨ config.cellMinCompetitiveCount = 0))
    "Cell Expansion requires positive Block, support, and insert caps"
  reject (config.cellCentroidRouting = true ∧ (config.cellExpansion = false ∨
      config.cellWholeCellScan = false ∨ config.cellRoutingCommunityBudget = 0 ∨
      config.cellRoutingCellBudget = 0 ∨ config.cellBlockBudget < config.cellRoutingCellBudget))
    "Cell centroid routing requires whole-Cell expansion and compatible positive budgets"
  reject (config.gatewayLandingCellHandoff = true ∧ (config.communitySkip = false ∨
      config.cellExpansion = false ∨ config.cellWholeCellScan = false ∨
      config.cellRoutingCellBudget = 0 ∨ config.cellBlockBudget < config.cellRoutingCellBudget))
    "Gateway Landing-Cell handoff requires Community Skip and compatible whole-Cell budgets"

def validateTerminal (config : SearchConfig) : Except String Unit := do
  reject (config.cellTerminalConvergence = true ∧ (config.cellExpansion = false ∨
      config.cellWholeCellScan = false ∨ config.cellCentroidRouting = false))
    "Terminal Cell convergence requires centroid-routed whole-Cell expansion"
  reject (config.cellTerminalLAwareApproach = true ∧ (config.cellTerminalConvergence = false ∨
      config.cellTerminalApproachHops = 0 ∨ config.cellTerminalApproachLDivisor = 0 ∨
      config.cellTerminalApproachHops < config.cellTerminalApproachBaseHops))
    ("L-aware terminal approach requires terminal convergence, a positive hop cap/divisor, " ++
      "and base hops no larger than the cap")
  reject (decide (config.cellTerminalLowLStitchMaxL = 0) ≠
      decide (config.cellTerminalLowLStitchExtraHops = 0))
    "Low-L terminal stitching requires both a positive L threshold and extra-hop budget"
  reject (config.cellTerminalLAwareForest = true ∧ (config.cellTerminalConvergence = false ∨
      config.cellTerminalForestBaseCells = 0 ∨ config.cellTerminalForestLDivisor = 0 ∨
      config.cellRoutingCellBudget < config.cellTerminalForestBaseCells))
    ("L-aware terminal Cell forest requires terminal convergence, positive base/divisor, " ++
      "and base Cells no larger than the routed Cell cap")
  reject (decide (config.cellTerminalLowLForestMaxL = 0) ≠
        decide (config.cellTerminalLowLForestExtraCells = 0) ∨
      config.cellTerminalLowLForestExtraCells ≠ 0 ∧ config.cellTerminalLAwareForest = false)
    "Low-L terminal forest expansion requires an L-aware forest, threshold, and extra Cells"
  reject (decide (config.cellTerminalHighLForestMinL = 0) ≠
        decide (config.cellTerminalHighLForestCellCap = 0) ∨
      (config.cellTerminalHighLForestCellCap ≠ 0 ∧ (config.cellTerminalLAwareForest = false ∨
        config.cellRoutingCellBudget < config.cellTerminalHighLForestCellCap)) ∨
      (config.cellTerminalHighLForestCapLDivisor ≠ 0 ∧ config.cellTerminalHighLForestMinL = 0))
    "High-L terminal forest cap requires an L-aware forest, threshold, and valid Cell cap"
  reject (config.cellTerminalLAwareRefine = true ∧ (config.cellTerminalConvergence = false ∨
      config.cellTerminalRefineLDivisor = 0 ∨
      config.cellTerminalRefineHops < config.cellTerminalRefineBaseHops))
    ("L-aware terminal refinement requires terminal convergence, a positive divisor, and " ++
      "base hops no larger than the refinement cap")
  reject (config.cellTerminalStitchPromoteCells = true ∧ (config.cellTerminalConvergence = false ∨
      config.cellTerminalStitchCellBudget = 0 ∨ config.cellTerminalStitchMinSupport = 0))
    ("Terminal graph stitching promotion requires terminal convergence and positive Cell " ++
      "budget/support")
  reject (config.cellTerminalDistanceScale.isFinite = false ∨
      config.cellTerminalDistanceScale ≤ .zero)
    "Terminal Cell distance scale must be finite and positive"
  reject (config.cellTerminalRoutePath ≠ "" ∧ config.cellTerminalConvergence = false)
    "Terminal Cell route profile requires terminal convergence"
  reject (config.cellTerminalGlobalForestRouting = true ∧
      (config.cellTerminalConvergence = false ∨ config.cellHierarchicalRouting = false ∨
        config.cellDeferHierarchyRouting = false))
    "Global terminal forest routing requires deferred hierarchical terminal convergence"

/-- The probes that the routed Cells need, added as `uint64_t`. -/
def minimumProbeBudget (config : SearchConfig) : Nat :=
  (config.cellRoutingCellBudget.toNat + config.cellHierarchyLeafSize.toNat - 1) /
    config.cellHierarchyLeafSize.toNat

def validateHierarchy (config : SearchConfig) : Except String Unit := do
  reject (config.cellHierarchicalRouting = true ∧ (config.cellCentroidRouting = false ∨
      config.cellHierarchyBranching < 2 ∨ config.cellHierarchyLeafSize = 0 ∨
      config.cellHierarchyProbeBudget = 0))
    ("Hierarchical Cell routing requires centroid routing, branching >= 2, and positive " ++
      "leaf/probe budgets")
  reject (config.cellHierarchicalRouting = true ∧
      config.cellHierarchyProbeBudget.toNat < config.minimumProbeBudget)
    "Hierarchical Cell probe budget cannot cover the requested routed Cell budget"
  reject (config.cellHierarchyRequirePersisted = true ∧ config.cellHierarchicalRouting = false)
    "Persisted Cell hierarchy requirement requires hierarchical routing"
  reject (config.cellHierarchyGraphGuidedRouting = true ∧ config.cellHierarchicalRouting = false)
    "Graph-guided Cell routing requires hierarchical Cell routing"

def validate (config : SearchConfig) : Except String Unit := do
  config.validateFractions
  if config.isHybrid then do
    config.validateOperators
    config.validateTerminal
    config.validateHierarchy
  else
    reject (config.communitySkip = true ∨ config.communityHubClique = true ∨
        config.cellExpansion = true)
      "Community and Cell operators require hybrid mode"

theorem validate_hybrid {config : SearchConfig} (hhybrid : config.isHybrid = true) :
    config.validate = .ok () ↔ config.validateFractions = .ok () ∧
      config.validateOperators = .ok () ∧ config.validateTerminal = .ok () ∧
      config.validateHierarchy = .ok () := by
  simp [validate, hhybrid, Unique.exists_iff]

end SearchConfig

end SkipCell.Search

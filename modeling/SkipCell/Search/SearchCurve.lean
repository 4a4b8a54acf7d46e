import SkipCell.Search.Config

/-! # The configurations of a search curve

`execute_search_curve` checks a request and rewrites its configurations before it
loads anything: the L-aware policy drops the Hybrid search, a forced tree, the
telemetry outputs and the PQ traversal set switches, and below the activation
threshold the Cell operators are switched off. What it derives is validated again
when the sidecar is loaded.
-/

namespace SkipCell.Search

open Foundation

/-- The fields of `io_optimization_config_t` that the rewrites read or write. -/
structure IoConfig where
  enableTopologyVector : Bool := false
  enableLruCache : Bool := false
  lruCachePages : UInt64 := 0
  enableCellPageBatch : Bool := false
  enableCellBatchSearch : Bool := false
  enableCellPqTraversal : Bool := false
  cellPqRefineCandidates : UInt32 := 0
  cellPqRefinePrefetchHop : UInt32 := 0
  enableResidentU8Refinement : Bool := false
  enableCellPqDenseVisited : Bool := false
  enableCellPqFilterVisited : Bool := false
  enableCellPqDecodedU8 : Bool := false
  enableCompressedPqTraversal : Bool := false
  enableLAwareSearch : Bool := false
  lAwareDecodedMaxL : UInt32 := 100
  enableForcedCellTreeSearch : Bool := false
  enableOnlineCellAdaptation : Bool := false

/-- The fields of `diskann_search_config_t` that the checks read. -/
structure DiskannSearchConfig where
  indexPathPrefix : String
  queryPath : String
  groundTruthPath : String := ""
  nodeVisitOutputPath : String := ""
  cellOracleOutputPath : String := ""
  cellValueOutputPath : String := ""
  gatewayValueOutputPath : String := ""
  baseTraceOutputPath : String := ""
  residentU8RefinementPath : String := ""
  topK : UInt32 := 10
  searchListSize : UInt32 := 100
  beamWidth : UInt32 := 4
  numThreads : UInt32 := 0
  warmupQueryCount : UInt32 := 0
  cacheState : String := "warm"

namespace DiskannSearchConfig

/-- `validate_config`; `isRegularFile` answers for the file system. -/
def validate (isRegularFile : String → Bool) (config : DiskannSearchConfig) :
    Except String Unit := do
  reject (config.indexPathPrefix = "") "DiskANN search index prefix must not be empty"
  reject (config.queryPath = "" ∨ isRegularFile config.queryPath = false)
    ("DiskANN query file does not exist: " ++ config.queryPath)
  reject (config.groundTruthPath ≠ "" ∧ isRegularFile config.groundTruthPath = false)
    ("DiskANN ground-truth file does not exist: " ++ config.groundTruthPath)
  reject (config.topK = 0 ∨ config.searchListSize < config.topK)
    "DiskANN search requires 0 < top_k <= search_list_size"
  reject (config.beamWidth = 0) "DiskANN search beam width must be positive"
  reject (config.cacheState ≠ "warm" ∧ config.cacheState ≠ "cold")
    "DiskANN search cache state must be 'warm' or 'cold'"

def perQueryOutput (config : DiskannSearchConfig) : Bool :=
  config.nodeVisitOutputPath != "" || config.cellOracleOutputPath != "" ||
    config.cellValueOutputPath != "" || config.gatewayValueOutputPath != "" ||
    config.baseTraceOutputPath != ""

end DiskannSearchConfig

/-- The points of a curve: list sizes, or thread counts or cache sizes at one
list size. -/
structure CurvePoints where
  searchListSizes : List UInt32
  threadCounts : List UInt32 := []
  cachePageCounts : List UInt64 := []

namespace CurvePoints

def pointCount (points : CurvePoints) : Nat :=
  if points.threadCounts ≠ [] then points.threadCounts.length
  else if points.cachePageCounts ≠ [] then points.cachePageCounts.length
  else points.searchListSizes.length

def configAt (points : CurvePoints) (config : DiskannSearchConfig) (front : UInt32) (point : Nat) :
    DiskannSearchConfig :=
  { config with
    searchListSize :=
      if points.threadCounts ≠ [] ∨ points.cachePageCounts ≠ [] then front
      else points.searchListSizes.getD point front
    numThreads :=
      if points.threadCounts ≠ [] then points.threadCounts.getD point config.numThreads
      else config.numThreads }

def validate (points : CurvePoints) (io : Option IoConfig) : Except String Unit := do
  reject (points.searchListSizes = [])
    "DiskANN search curve requires at least one search-list size"
  reject (points.threadCounts ≠ [] ∧ points.cachePageCounts ≠ [])
    "DiskANN thread and cache curves are mutually exclusive"
  reject (points.threadCounts ≠ [] ∧ points.searchListSizes.length ≠ 1)
    "DiskANN thread curve requires exactly one search-list size"
  reject (points.cachePageCounts ≠ [] ∧ points.searchListSizes.length ≠ 1)
    "DiskANN cache curve requires exactly one search-list size"
  reject (¬ points.searchListSizes.Nodup)
    "DiskANN search curve requires unique search-list sizes"
  reject (¬ points.threadCounts.Nodup) "DiskANN thread curve requires unique thread counts"
  reject (0 ∈ points.threadCounts) "DiskANN thread curve requires positive thread counts"
  reject (¬ points.cachePageCounts.Nodup) "DiskANN cache curve requires unique cache capacities"
  reject (0 ∈ points.cachePageCounts) "DiskANN cache curve requires positive page capacities"
  reject (points.cachePageCounts ≠ [] ∧
      (io.all fun io => !io.enableTopologyVector || !io.enableLruCache) = true)
    "DiskANN cache curve requires topology/vector search with LRU enabled"

end CurvePoints

/-! ## The rewrites -/

def IoConfig.lAware (io : IoConfig) : IoConfig :=
  let io :=
    { io with
      enableCellPqDecodedU8 := !io.enableCompressedPqTraversal
      enableCellPqDenseVisited := true
      enableCellPqFilterVisited := true
      enableCellBatchSearch := false }
  if io.cellPqRefineCandidates = 0 then
    { io with
      cellPqRefinePrefetchHop := 0
      enableCellPageBatch := false
      enableLruCache := false
      lruCachePages := 0 }
  else io

def IoConfig.forcedTree (io : IoConfig) : IoConfig :=
  { io with
    enableCellPqDecodedU8 := !io.enableCompressedPqTraversal
    enableCellPqDenseVisited := true
    enableCellPqFilterVisited := true }

namespace SearchConfig

def forcedTree (config : SearchConfig) : SearchConfig :=
  { config with
    fastQueryDistance := true
    sourceCellBatching := true
    cellDeferHierarchyRouting := true }

def pqTraversal (config : SearchConfig) : SearchConfig :=
  { config with fastQueryDistance := true, sourceCellBatching := true }

/-- The gate below the activation threshold. -/
def withoutCells (config : SearchConfig) : SearchConfig :=
  { config with cellExpansion := false, cellWholeCellScan := false, cellCentroidRouting := false }

end SearchConfig

def rewriteIf (condition : Bool) (rewrite : SearchConfig → SearchConfig) (hybrid : SearchConfig) :
    SearchConfig :=
  if condition then rewrite hybrid else hybrid

/-- The switches that the request sets in a Hybrid configuration, in their order. -/
def rewriteHybrid (forcedTree pqTraversal : Bool) (config : DiskannSearchConfig)
    (hybrid : SearchConfig) : SearchConfig :=
  let hybrid := rewriteIf forcedTree SearchConfig.forcedTree hybrid
  let hybrid := rewriteIf (config.cellValueOutputPath != "")
    (fun hybrid => { hybrid with cellValueTelemetry := true }) hybrid
  let hybrid := rewriteIf (config.gatewayValueOutputPath != "")
    (fun hybrid => { hybrid with gatewayValueTelemetry := true }) hybrid
  rewriteIf pqTraversal SearchConfig.pqTraversal hybrid

/-- The gate is applied to a configuration with Cell expansion at one list size
below its threshold. -/
def GateApplies (hybrid : SearchConfig) (observeOnly : Bool) (points : CurvePoints) : Prop :=
  points.searchListSizes.length = 1 ∧ observeOnly = false ∧ hybrid.cellExpansion = true ∧
    points.searchListSizes.headD 0 < hybrid.cellMinSearchListSize

instance (hybrid : SearchConfig) (observeOnly : Bool) (points : CurvePoints) :
    Decidable (GateApplies hybrid observeOnly points) :=
  inferInstanceAs (Decidable (_ ∧ _ ∧ _ ∧ _))

/-- Below the threshold the search goes on without Cells, or without Hybrid
operators where there are no others. -/
def gateHybrid (observeOnly : Bool) (points : CurvePoints) (hybrid : SearchConfig) :
    Option SearchConfig :=
  if GateApplies hybrid observeOnly points then
    if hybrid.communitySkip then some hybrid.withoutCells else none
  else some hybrid

/-- The list sizes that a threshold splits. -/
def crosses (searchListSizes : List UInt32) (front : UInt32) (below : UInt32 → Bool) : Bool :=
  searchListSizes.any fun value => below value != below front

/-- The checks and rewrites of `execute_search_curve` before it opens a reader. -/
def deriveConfigs (isRegularFile : String → Bool) (inputConfig : DiskannSearchConfig)
    (hybrid : Option SearchConfig) (io : Option IoConfig) (observeOnly : Bool)
    (points : CurvePoints) : Except String (Option SearchConfig × Option IoConfig) := do
  points.validate io
  let front := points.searchListSizes.headD 0
  discard <| (List.range points.pointCount).mapM fun point =>
    (points.configAt inputConfig front point).validate isRegularFile
  reject (1 < points.pointCount ∧ inputConfig.perQueryOutput = true)
    "Multi-point search excludes per-query telemetry outputs"
  reject (1 < points.pointCount ∧ io.any (·.enableOnlineCellAdaptation) = true)
    "Multi-point search excludes online Cell adaptation"
  let config := { inputConfig with searchListSize := front }
  config.validate isRegularFile
  reject (config.warmupQueryCount ≠ 0 ∧ io.any (·.enableOnlineCellAdaptation) = true)
    "In-process warmup cannot be combined with online Cell adaptation"
  reject ((io.any fun io => io.enableLAwareSearch &&
      crosses points.searchListSizes front (fun value => decide (value ≤ io.lAwareDecodedMaxL))) =
        true)
    "Multi-L search cannot cross the L-aware policy threshold"
  reject ((hybrid.any fun hybrid => hybrid.cellExpansion &&
      crosses points.searchListSizes front
        (fun value => decide (hybrid.cellMinSearchListSize ≤ value)) && !hybrid.communitySkip) =
        true)
    "Multi-L Cell-only search cannot cross the Cell activation threshold"
  let lAware := !observeOnly && io.any fun io =>
    io.enableLAwareSearch && decide (config.searchListSize ≤ io.lAwareDecodedMaxL)
  let io := if lAware then io.map IoConfig.lAware else io
  let hybrid := if lAware then none else hybrid
  let forcedTree := !observeOnly && io.any (·.enableForcedCellTreeSearch)
  let io := if forcedTree then io.map IoConfig.forcedTree else io
  reject (io.any (·.enableResidentU8Refinement) = true ∧ config.residentU8RefinementPath = "")
    "Resident uint8 refinement requires an explicit artifact path"
  let pqTraversal := !observeOnly && io.any (·.enableCellPqTraversal)
  let hybrid := hybrid.map (rewriteHybrid forcedTree pqTraversal config)
  return (hybrid.bind (gateHybrid observeOnly points), io)

/-! ## What the rewrites keep -/

namespace SearchConfig

variable {config derived : SearchConfig}

/-- A configuration with switches set that the validator reads only as required
ones: deferred routing, telemetry, fast distances and batching. -/
def Switched (config derived : SearchConfig) : Prop :=
  ∃ defers value gateway fast batching : Bool,
    (config.cellDeferHierarchyRouting = true → defers = true) ∧
      derived =
        { config with
          cellDeferHierarchyRouting := defers
          cellValueTelemetry := value
          gatewayValueTelemetry := gateway
          fastQueryDistance := fast
          sourceCellBatching := batching }

theorem Switched.refl (config : SearchConfig) : Switched config config :=
  ⟨_, _, _, _, _, id, rfl⟩

theorem Switched.trans {middle : SearchConfig} (hfirst : Switched config middle)
    (hsecond : Switched middle derived) : Switched config derived := by
  obtain ⟨defers, value, gateway, fast, batching, hdefers, rfl⟩ := hfirst
  obtain ⟨defers', value', gateway', fast', batching', hdefers', rfl⟩ := hsecond
  exact ⟨defers', value', gateway', fast', batching', fun h => hdefers' (hdefers h), rfl⟩

theorem switched_forcedTree (config : SearchConfig) : Switched config config.forcedTree :=
  ⟨true, _, _, true, true, fun _ => rfl, rfl⟩

theorem switched_pqTraversal (config : SearchConfig) : Switched config config.pqTraversal :=
  ⟨_, _, _, true, true, id, rfl⟩

theorem Switched.validateTerminal (hswitched : Switched config derived)
    (hvalid : config.validateTerminal = .ok ()) : derived.validateTerminal = .ok () := by
  obtain ⟨defers, value, gateway, fast, batching, hdefers, rfl⟩ := hswitched
  simp only [SearchConfig.validateTerminal, bind_ok, reject_ok, exists_const] at hvalid ⊢
  obtain ⟨hconvergence, happroach, hstitch, hforest, hlow, hhigh, hrefine, hpromote, hscale, hroute,
    hglobal⟩ := hvalid
  refine ⟨hconvergence, happroach, hstitch, hforest, hlow, hhigh, hrefine, hpromote, hscale, hroute,
    ?_⟩
  rintro ⟨hrouting, hmissing | hmissing | hmissing⟩
  · exact hglobal ⟨hrouting, .inl hmissing⟩
  · exact hglobal ⟨hrouting, .inr (.inl hmissing)⟩
  · refine hglobal ⟨hrouting, .inr (.inr ?_)⟩
    cases hold : config.cellDeferHierarchyRouting with
    | false => rfl
    | true => exact absurd (hdefers hold) (by simp [hmissing])

theorem Switched.validate (hswitched : Switched config derived)
    (hhybrid : config.isHybrid = true) (hvalid : config.validate = .ok ()) :
    derived.isHybrid = true ∧ derived.validate = .ok () := by
  obtain ⟨hfractions, hoperators, hterminal, hhierarchy⟩ := (validate_hybrid hhybrid).mp hvalid
  have hderived := hswitched.validateTerminal hterminal
  obtain ⟨defers, value, gateway, fast, batching, hdefers, rfl⟩ := hswitched
  exact ⟨hhybrid, (validate_hybrid (by exact hhybrid)).mpr
    ⟨hfractions, hoperators, hderived, hhierarchy⟩⟩

def NeedsCells (config : SearchConfig) : Prop :=
  config.gatewayLandingCellHandoff = true ∨ config.cellTerminalConvergence = true ∨
    config.cellHierarchicalRouting = true

instance (config : SearchConfig) : Decidable config.NeedsCells :=
  inferInstanceAs (Decidable (_ ∨ _ ∨ _))

theorem withoutCells_operators (hskip : config.communitySkip = true)
    (hvalid : config.validateOperators = .ok ()) :
    config.withoutCells.validateOperators = .ok () ↔
      config.gatewayLandingCellHandoff = false := by
  simp only [validateOperators, bind_ok, reject_ok, exists_const] at hvalid ⊢
  simp only [withoutCells]
  obtain ⟨-, hcommunity, hclique, happroach, -, -, -⟩ := hvalid
  constructor
  · rintro ⟨-, -, -, -, -, -, hhandoff⟩
    simpa using hhandoff
  · intro hhandoff
    exact ⟨by simp [hskip], hcommunity, hclique, happroach, by simp, by simp, by simp [hhandoff]⟩

theorem withoutCells_terminal (hvalid : config.validateTerminal = .ok ()) :
    config.withoutCells.validateTerminal = .ok () ↔ config.cellTerminalConvergence = false := by
  simp only [SearchConfig.validateTerminal, bind_ok, reject_ok, exists_const] at hvalid ⊢
  simp only [withoutCells]
  obtain ⟨-, happroach, hstitch, hforest, hlow, hhigh, hrefine, hpromote, hscale, hroute,
    hglobal⟩ := hvalid
  constructor
  · rintro ⟨hconvergence, -⟩
    simpa using hconvergence
  · intro hconvergence
    exact ⟨by simp [hconvergence], happroach, hstitch, hforest, hlow, hhigh, hrefine, hpromote,
      hscale, hroute, hglobal⟩

theorem withoutCells_hierarchy (hvalid : config.validateHierarchy = .ok ()) :
    config.withoutCells.validateHierarchy = .ok () ↔ config.cellHierarchicalRouting = false := by
  simp only [validateHierarchy, bind_ok, reject_ok, exists_const] at hvalid ⊢
  simp only [withoutCells]
  obtain ⟨-, -, hpersisted, hguided⟩ := hvalid
  constructor
  · rintro ⟨hrouting, -⟩
    simpa using hrouting
  · intro hrouting
    exact ⟨by simp [hrouting], by simp [hrouting], hpersisted, hguided⟩

theorem withoutCells_validate (hhybrid : config.isHybrid = true)
    (hskip : config.communitySkip = true) (hvalid : config.validate = .ok ()) :
    config.withoutCells.validate = .ok () ↔ ¬ config.NeedsCells := by
  obtain ⟨hfractions, hoperators, hterminal, hhierarchy⟩ := (validate_hybrid hhybrid).mp hvalid
  rw [validate_hybrid (show config.withoutCells.isHybrid = true from hhybrid),
    withoutCells_operators hskip hoperators, withoutCells_terminal hterminal,
    withoutCells_hierarchy hhierarchy]
  have hsame : config.withoutCells.validateFractions = .ok () := hfractions
  simp [NeedsCells, hsame]

end SearchConfig

/-! ## The derived configuration -/

theorem switched_rewriteIf {hybrid config : SearchConfig} (hswitched : hybrid.Switched config)
    (condition : Bool) {rewrite : SearchConfig → SearchConfig}
    (hrewrite : ∀ config : SearchConfig, config.Switched (rewrite config)) :
    hybrid.Switched (rewriteIf condition rewrite config) := by
  unfold rewriteIf
  split
  · exact hswitched.trans (hrewrite config)
  · exact hswitched

theorem switched_rewriteHybrid (forcedTree pqTraversal : Bool) (config : DiskannSearchConfig)
    (hybrid : SearchConfig) : hybrid.Switched (rewriteHybrid forcedTree pqTraversal config hybrid) := by
  have hvalue : ∀ hybrid : SearchConfig,
      hybrid.Switched { hybrid with cellValueTelemetry := true } :=
    fun hybrid => ⟨_, true, _, _, _, id, rfl⟩
  have hgateway : ∀ hybrid : SearchConfig,
      hybrid.Switched { hybrid with gatewayValueTelemetry := true } :=
    fun hybrid => ⟨_, _, true, _, _, id, rfl⟩
  have hforced := switched_rewriteIf (.refl hybrid) forcedTree SearchConfig.switched_forcedTree
  have htelemetry := switched_rewriteIf
    (switched_rewriteIf hforced (config.cellValueOutputPath != "") hvalue)
    (config.gatewayValueOutputPath != "") hgateway
  exact switched_rewriteIf htelemetry pqTraversal SearchConfig.switched_pqTraversal

variable {isRegularFile : String → Bool} {inputConfig : DiskannSearchConfig}
  {hybrid derived : SearchConfig} {io io' : Option IoConfig} {observeOnly : Bool}
  {points : CurvePoints}

theorem derived_of_deriveConfigs (hderive : deriveConfigs isRegularFile inputConfig (some hybrid) io
      observeOnly points = .ok (some derived, io')) :
    ∃ config, hybrid.Switched config ∧ gateHybrid observeOnly points config = some derived := by
  simp only [deriveConfigs, bind_ok] at hderive
  obtain ⟨-, -, -, -, -, -, -, -, -, -, -, -, -, -, -, -, -, -, hreturn⟩ := hderive
  have hgated := congrArg Prod.fst (Except.ok.inj hreturn)
  obtain ⟨config, hconfig, hderived⟩ := Option.bind_eq_some_iff.mp hgated
  split at hconfig
  · cases hconfig
  · obtain ⟨before, hbefore, rfl⟩ := Option.map_eq_some_iff.mp hconfig
    obtain rfl := Option.some.inj hbefore
    exact ⟨_, switched_rewriteHybrid _ _ _ _, hderived⟩

/-- Whether the gate applies, and what needs the Cells, is told by the given
configuration: no switch changes it. -/
theorem gate_of_switched {config : SearchConfig} (hswitched : hybrid.Switched config) :
    (GateApplies config observeOnly points ↔ GateApplies hybrid observeOnly points) ∧
      (config.NeedsCells ↔ hybrid.NeedsCells) := by
  obtain ⟨defers, value, gateway, fast, batching, -, rfl⟩ := hswitched
  exact ⟨.rfl, .rfl⟩

/-- A Hybrid configuration that a request derives from an accepted one is
accepted unless the gate takes the Cells away from an operator that needs them. -/
theorem derived_valid_iff (hhybrid : hybrid.isHybrid = true) (hvalid : hybrid.validate = .ok ())
    (hderive : deriveConfigs isRegularFile inputConfig (some hybrid) io observeOnly points =
      .ok (some derived, io')) :
    derived.validate = .ok () ↔
      ¬ (GateApplies hybrid observeOnly points ∧ hybrid.NeedsCells) := by
  obtain ⟨config, hswitched, hgate⟩ := derived_of_deriveConfigs hderive
  obtain ⟨hmode, haccepted⟩ := hswitched.validate hhybrid hvalid
  obtain ⟨happlies, hneeds⟩ :
      (GateApplies config observeOnly points ↔ GateApplies hybrid observeOnly points) ∧
        (config.NeedsCells ↔ hybrid.NeedsCells) :=
    gate_of_switched hswitched
  rw [← happlies, ← hneeds]
  unfold gateHybrid at hgate
  split at hgate
  · next hgated =>
      split at hgate
      · next hskip =>
          obtain rfl := Option.some.inj hgate
          rw [SearchConfig.withoutCells_validate hmode hskip haccepted]
          simp [hgated]
      · cases hgate
  · next hgated =>
      obtain rfl := Option.some.inj hgate
      simp [hgated, haccepted]

def terminalSearch : SearchConfig where
  mode := .hybrid
  communitySkip := true
  cellExpansion := true
  cellWholeCellScan := true
  cellCentroidRouting := true
  cellTerminalConvergence := true

def plainRequest : DiskannSearchConfig where
  indexPathPrefix := "index"
  queryPath := "query"

/-- Below the default threshold of 20 the gate leaves terminal convergence
without the Cells, and the derived configuration is rejected. -/
theorem derived_valid_refuted : terminalSearch.isHybrid = true ∧ terminalSearch.validate = .ok () ∧
    ∃ derived, deriveConfigs (fun _ => true) plainRequest (some terminalSearch) none false
        { searchListSizes := [10] } = .ok (some derived, none) ∧
      derived.validate =
        .error "Terminal Cell convergence requires centroid-routed whole-Cell expansion" := by
  refine ⟨by decide, by decide +kernel, terminalSearch.withoutCells, ?_, by decide +kernel⟩
  rfl

/-- At the threshold the same search keeps its Cells. -/
theorem derived_valid_atThreshold : terminalSearch.validate = .ok () ↔
    ¬ (GateApplies terminalSearch false { searchListSizes := [20] } ∧
      terminalSearch.NeedsCells) :=
  @derived_valid_iff (fun _ => true) plainRequest terminalSearch terminalSearch none none false
    { searchListSizes := [20] } (by decide) (by decide +kernel) rfl

end SkipCell.Search

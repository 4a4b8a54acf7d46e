import SkipCell.Foundation.Checks
import SkipCell.Foundation.Ieee

/-! # The Community-Polar index

The records of the sidecar, in the field widths that the file has, and the build
configuration with its validator. Sizes and sums are natural numbers; where the
source checks for an overflow of `uint64_t`, so does the model.
-/

namespace SkipCell.Sidecar

open Foundation

/-- The exceptions of the source. The last two mark what it leaves undefined: an
access out of bounds, and a 32-bit loop counter whose bound it never reaches. -/
inductive Error
  | invalidArgument (what : String)
  | runtimeError (what : String)
  | logicError (what : String)
  | outOfBounds
  | endless
  deriving DecidableEq

def checkedAdd (left right : Nat) (context : String) : Except Error Nat :=
  if 2 ^ 64 ≤ left + right then .error (.invalidArgument (context ++ " overflows uint64"))
  else .ok (left + right)

def checkedMultiply (left right : Nat) (context : String) : Except Error Nat :=
  if 2 ^ 64 ≤ left * right then .error (.invalidArgument (context ++ " overflows uint64"))
  else .ok (left * right)

@[simp]
theorem checkedAdd_eq_ok {left right sum : Nat} {context : String} :
    checkedAdd left right context = .ok sum ↔ left + right < 2 ^ 64 ∧ left + right = sum := by
  unfold checkedAdd
  split <;> simp only [reduceCtorEq, false_iff, Except.ok.injEq] <;> omega

@[simp]
theorem checkedMultiply_eq_ok {left right product : Nat} {context : String} :
    checkedMultiply left right context = .ok product ↔
      left * right < 2 ^ 64 ∧ left * right = product := by
  unfold checkedMultiply
  split <;> simp only [reduceCtorEq, false_iff, Except.ok.injEq] <;> omega

/-- A loop over an array that counts with a `uint32_t`. -/
abbrev scan32 {α State : Type} : (Nat → α → State → Except Error State) → List α → State →
    Except Error State :=
  scanCounted (2 ^ 32) .endless

/-- A value that a cast from the file did not find among the enumerators. -/
inductive PartitionQuality
  | fast
  | quality
  | other (raw : UInt32)
  deriving DecidableEq

inductive PartitionProjection
  | fullReciprocalVamana
  | localVamanaK8
  | localVamanaK16
  | other (raw : UInt32)
  deriving DecidableEq

inductive CellPartition
  | polarRadial
  | graphLocal
  | convergenceCoaccess
  | globalGeometric
  | globalGraphLocal
  | other (raw : UInt32)
  deriving DecidableEq

namespace PartitionQuality

def toRaw : PartitionQuality → UInt32
  | fast => 0
  | quality => 1
  | other raw => raw

def ofRaw (raw : UInt32) : PartitionQuality :=
  if raw = 0 then fast else if raw = 1 then quality else other raw

end PartitionQuality

namespace PartitionProjection

def toRaw : PartitionProjection → UInt32
  | fullReciprocalVamana => 0
  | localVamanaK8 => 1
  | localVamanaK16 => 2
  | other raw => raw

def ofRaw (raw : UInt32) : PartitionProjection :=
  if raw = 0 then fullReciprocalVamana
  else if raw = 1 then localVamanaK8
  else if raw = 2 then localVamanaK16
  else other raw

end PartitionProjection

namespace CellPartition

def toRaw : CellPartition → UInt32
  | polarRadial => 0
  | graphLocal => 1
  | convergenceCoaccess => 2
  | globalGeometric => 3
  | globalGraphLocal => 4
  | other raw => raw

def ofRaw (raw : UInt32) : CellPartition :=
  if raw = 0 then polarRadial
  else if raw = 1 then graphLocal
  else if raw = 2 then convergenceCoaccess
  else if raw = 3 then globalGeometric
  else if raw = 4 then globalGraphLocal
  else other raw

/-- The partitions whose Cells may hold nodes of several Communities. -/
def isGlobal (partition : CellPartition) : Prop :=
  partition = globalGeometric ∨ partition = globalGraphLocal

instance (partition : CellPartition) : Decidable partition.isGlobal :=
  inferInstanceAs (Decidable (_ ∨ _))

end CellPartition

/-- `community_polar_build_config_t`. The defaults of the ratios are 0.05, 1.25,
1.25, 0.15, 0.50, 0.50 and 0.10. -/
structure BuildConfig where
  communityCount : UInt32 := 0
  communityImbalance : Double := ⟨0x3FA999999999999A⟩
  partitionQuality : PartitionQuality := .fast
  partitionProjection : PartitionProjection := .fullReciprocalVamana
  partitionThreads : UInt32 := 0
  partitionSeed : Int32 := 0
  gatewayCount : UInt32 := 8
  gatewayShortlist : UInt32 := 32
  polarDirectionCount : UInt32 := 16
  cellTargetSize : UInt32 := 256
  blockTargetSize : UInt32 := 64
  sphericalKmeansIterations : UInt32 := 20
  cellPartition : CellPartition := .polarRadial
  buildContiguousCellHierarchy : Bool := false
  cellHierarchyBranching : UInt32 := 4
  cellHierarchyLeafSize : UInt32 := 16
  adaptiveMultiCapacity : Bool := false
  adaptivePolicyVersion : UInt32 := 0
  adaptivePageBytes : UInt32 := 4096
  adaptiveVectorBytes : UInt32 := 0
  adaptiveLruPages : UInt64 := 0
  adaptiveMaximumNormalizedRmsRadius : Double := ⟨0x3FF4000000000000⟩
  adaptiveMaximumNormalizedP95Radius : Double := ⟨0x3FF4000000000000⟩
  adaptiveMaximumSplitGain : Double := ⟨0x3FC3333333333333⟩
  adaptiveMinimumCentroidRadiusOverlap : Double := ⟨0x3FE0000000000000⟩
  adaptiveMinimumTrainCrossChildCoaccess : Double := ⟨0x3FE0000000000000⟩
  adaptiveMaximumUnseenPqIncrease : Double := ⟨0x3FB999999999999A⟩
  convergenceCellProfilePath : String := ""
  convergenceCellHierarchyPath : String := ""
  convergenceCellCapacityPath : String := ""
  gatewaySelectionPath : String := ""
  gatewaySelectionSourcePath : String := ""

def projectionDegree : PartitionProjection → Except Error UInt32
  | .fullReciprocalVamana => .ok (2 ^ 32 - 1)
  | .localVamanaK8 => .ok 8
  | .localVamanaK16 => .ok 16
  | .other _ => .error (.invalidArgument "Community partition projection is invalid")

def BuildConfig.policyThresholds (config : BuildConfig) : List Double :=
  [config.adaptiveMaximumNormalizedRmsRadius, config.adaptiveMaximumNormalizedP95Radius,
    config.adaptiveMaximumSplitGain, config.adaptiveMinimumCentroidRadiusOverlap,
    config.adaptiveMinimumTrainCrossChildCoaccess, config.adaptiveMaximumUnseenPqIncrease]

def validateBuildConfig (config : BuildConfig) : Except Error Unit := do
  reject (config.communityCount = 0)
    (.invalidArgument "Community count must be greater than zero")
  reject (config.communityImbalance.isFinite = false ∨ config.communityImbalance < .zero ∨
      .one ≤ config.communityImbalance)
    (.invalidArgument "Community imbalance must be finite and within [0, 1)")
  reject (config.partitionQuality ≠ .fast ∧ config.partitionQuality ≠ .quality)
    (.invalidArgument "Community partition quality is invalid")
  let _ ← projectionDegree config.partitionProjection
  reject (config.cellPartition ≠ .polarRadial ∧ config.cellPartition ≠ .graphLocal ∧
      config.cellPartition ≠ .convergenceCoaccess ∧ config.cellPartition ≠ .globalGeometric ∧
      config.cellPartition ≠ .globalGraphLocal)
    (.invalidArgument "Community Cell partition is invalid")
  reject (config.gatewayCount = 0 ∨ config.gatewayShortlist < config.gatewayCount)
    (.invalidArgument "Gateway shortlist must be at least the positive Gateway count")
  reject (config.polarDirectionCount ≠ 16 ∧ config.polarDirectionCount ≠ 32 ∧
      config.polarDirectionCount ≠ 64)
    (.invalidArgument "Polar direction count must be 16, 32, or 64")
  reject (config.cellTargetSize = 0 ∨ config.blockTargetSize = 0 ∨
      config.sphericalKmeansIterations = 0)
    (.invalidArgument "Cell, Block, and Spherical K-means sizes must be positive")
  reject (config.gatewaySelectionSourcePath ≠ "" ∧ config.gatewaySelectionPath = "")
    (.invalidArgument "Gateway selection source requires a selection CSV")
  reject (config.convergenceCellHierarchyPath ≠ "" ∧
      (config.cellPartition ≠ .globalGeometric ∨ config.convergenceCellProfilePath = ""))
    (.invalidArgument "A convergence Cell hierarchy requires a global-geometric Cell profile")
  reject (config.cellHierarchyBranching < 2 ∨ config.cellHierarchyLeafSize = 0 ∨
      config.buildContiguousCellHierarchy = true ∧
        (config.convergenceCellHierarchyPath ≠ "" ∨ config.cellPartition = .polarRadial))
    (.invalidArgument "Contiguous Cell hierarchy build policy is invalid")
  if config.adaptiveMultiCapacity = false then
    reject (config.adaptivePolicyVersion ≠ 0 ∨ config.convergenceCellCapacityPath ≠ "")
      (.invalidArgument "Adaptive capacity policy fields require adaptive multi-capacity Cells")
  else
    reject (config.cellPartition ≠ .globalGeometric ∨ config.cellTargetSize ≠ 128 ∨
        config.adaptivePolicyVersion ≠ 1 ∨ config.adaptivePageBytes ≠ 4096 ∨
        config.adaptiveVectorBytes = 0 ∨
        (∃ value ∈ config.policyThresholds, value.isFinite = false ∨ value < .zero) ∨
        .one < config.adaptiveMinimumCentroidRadiusOverlap ∨
        .one < config.adaptiveMinimumTrainCrossChildCoaccess)
      (.invalidArgument "Adaptive multi-capacity Cell policy is invalid")

def isAdaptiveCapacityClass (capacity : UInt32) : Prop :=
  capacity = 16 ∨ capacity = 32 ∨ capacity = 64 ∨ capacity = 128

instance (capacity : UInt32) : Decidable (isAdaptiveCapacityClass capacity) :=
  inferInstanceAs (Decidable (_ ∨ _))

structure Fingerprint where
  sizeBytes : UInt64 := 0
  fnv1aHash : UInt64 := 0
  deriving DecidableEq

structure Community where
  communityId : UInt32
  nodeCount : UInt64
  packetBytes : UInt64
  internalDirectedEdgeCount : UInt64 := 0
  incomingDirectedEdgeCount : UInt64 := 0
  outgoingDirectedEdgeCount : UInt64 := 0
  minimumNodeId : UInt32
  navigationHubId : UInt32
  radius : Single := .zero
  graphOnly : Bool := false
  sectorBegin : UInt64
  sectorCount : UInt32
  cellBegin : UInt64
  cellCount : UInt32
  deriving DecidableEq

structure Edge where
  sourceCommunity : UInt32
  targetCommunity : UInt32
  directedCrossEdgeCount : UInt64
  gatewayBegin : UInt64
  gatewayCount : UInt32
  deriving DecidableEq

structure Gateway where
  sourceNode : UInt32
  targetNode : UInt32
  packetRecordIndex : UInt64
  deriving DecidableEq

structure Sector where
  communityId : UInt32
  sectorId : UInt32
  nodeCount : UInt64
  axisIndex : UInt64
  minimumRadius : Single := .zero
  maximumRadius : Single := .zero
  maximumAngle : Single := .zero
  cellBegin : UInt64
  cellCount : UInt32

structure Cell where
  cellId : UInt32
  communityId : UInt32
  sectorId : UInt32
  radialCellId : UInt32
  nodeCount : UInt64
  capacityClass : UInt32
  minimumRadius : Single := .zero
  maximumRadius : Single := .zero
  maximumAngle : Single := .zero
  blockBegin : UInt64
  blockCount : UInt32

structure Block where
  blockId : UInt32
  cellId : UInt32
  nodeCount : UInt32
  packetRecordBegin : UInt64
  minimumRadius : Single := .zero
  maximumRadius : Single := .zero
  maximumAngle : Single := .zero
  maximumPqReconstructionError : Single := .zero

structure CellHierarchyNode where
  nodeId : UInt32
  childBegin : UInt32
  childCount : UInt32
  descendantNodeCount : UInt64
  radius : Single := .zero
  childrenAreCells : Bool

structure Index where
  config : BuildConfig
  pointCount : UInt64
  dimension : UInt32
  entryPointId : UInt32 := 0
  pqCodeWidth : UInt32
  directedBaseEdgeCount : UInt64 := 0
  undirectedPartitionEdgeCount : UInt64 := 0
  weightedEdgeCut : UInt64 := 0
  baseIndexFingerprint : Fingerprint := {}
  pqFingerprint : Fingerprint := {}
  nodeToCommunity : List UInt32
  nodeToCell : List UInt32
  nodeToPacketRecord : List UInt64
  communities : List Community
  communityPoles : List Single
  communityEdgeOffsets : List UInt64
  communityEdges : List Edge := []
  gateways : List Gateway := []
  directionAxes : List Single := []
  sectors : List Sector
  cells : List Cell
  blocks : List Block
  cellHierarchyNodes : List CellHierarchyNode := []
  cellHierarchyRoots : List UInt32 := []
  cellHierarchyChildren : List UInt32 := []
  cellHierarchyCentroids : List Single := []
  packetPayload : List UInt8

end SkipCell.Sidecar

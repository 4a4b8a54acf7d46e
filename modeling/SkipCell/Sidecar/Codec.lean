import SkipCell.Foundation.ByteReader
import SkipCell.Sidecar.Validate

/-! # The sidecar file

The writer and the loader of the source, each spelling the layout for itself: a
fixed header of 96 bytes, a directory of 18 entries, and the sections behind it.
-/

namespace SkipCell.Sidecar

open Foundation

def kCommunityPolarMagic : UInt64 := 0x0058444950434C50

def kCommunityPolarVersion : UInt32 := 7

def kAdaptiveCapacitySidecarVersion : UInt32 := 6

def kFixedCapacitySidecarVersion : UInt32 := 5

def kCommunityPolarMinimumVersion : UInt32 := 1

def kEndianMarker : UInt32 := 0x01020304

def kLegacySectionCount : Nat := 14

def kSectionCount : Nat := 18

def kFixedHeaderSize : Nat := 96

def kSectionEntrySize : Nat := 32

/-- The files of the system end before `2 ^ 63` bytes, the range of `streamoff`. -/
def fileSizeLimit : Nat := 2 ^ 63

def appendU32Le (value : UInt32) : List UInt8 := encodeLittle 4 value.toNat

def appendU64Le (value : UInt64) : List UInt8 := encodeLittle 8 value.toNat

def appendI32Le (value : Int32) : List UInt8 := appendU32Le value.toUInt32

def appendFloatLe (value : Single) : List UInt8 := appendU32Le value.bits

def appendDoubleLe (value : Double) : List UInt8 := appendU64Le value.bits

def appendBool (value : Bool) : List UInt8 := appendU32Le (if value then 1 else 0)

abbrev Reader := ByteReader Error

def truncated : Error := .runtimeError "Community-Polar sidecar is truncated"

def readU32Le : Reader UInt32 := UInt32.ofNat <$> readWord truncated 4

def readU64Le : Reader UInt64 := UInt64.ofNat <$> readWord truncated 8

def readI32Le : Reader Int32 := UInt32.toInt32 <$> readU32Le

def readFloatLe : Reader Single := Single.mk <$> readU32Le

def readDoubleLe : Reader Double := Double.mk <$> readU64Le

/-- A flag that the loader requires to be zero or one. -/
def readStrictBool (failure : Error) : Reader Bool := do
  let raw ← readU32Le
  if 1 < raw then throw failure else pure (raw != 0)

/-! ## Sections -/

inductive SectionId
  | config
  | nodeToCommunity
  | nodeToCell
  | nodeToPacket
  | communities
  | communityPoles
  | communityEdgeOffsets
  | communityEdges
  | gateways
  | directionAxes
  | sectors
  | cells
  | blocks
  | packets
  | cellHierarchyNodes
  | cellHierarchyRoots
  | cellHierarchyChildren
  | cellHierarchyCentroids
  deriving DecidableEq

namespace SectionId

/-- The sections in the order of their numbers, which start at one. -/
def all : List SectionId :=
  [config, nodeToCommunity, nodeToCell, nodeToPacket, communities, communityPoles,
    communityEdgeOffsets, communityEdges, gateways, directionAxes, sectors, cells, blocks, packets,
    cellHierarchyNodes, cellHierarchyRoots, cellHierarchyChildren, cellHierarchyCentroids]

def toRaw (id : SectionId) : Nat := all.idxOf id + 1

def ofRaw (raw : Nat) : Option SectionId := if raw = 0 then none else all[raw - 1]?

end SectionId

structure SerializedSection where
  id : SectionId
  recordCount : Nat
  bytes : List UInt8

def configBytes (index : Index) (version : UInt32) : List UInt8 :=
  [appendU32Le index.config.communityCount,
    appendDoubleLe index.config.communityImbalance,
    appendU32Le index.config.partitionQuality.toRaw,
    appendU32Le index.config.partitionThreads,
    appendI32Le index.config.partitionSeed,
    appendU32Le index.config.gatewayCount,
    appendU32Le index.config.gatewayShortlist,
    appendU32Le index.config.polarDirectionCount,
    appendU32Le index.config.cellTargetSize,
    appendU32Le index.config.blockTargetSize,
    appendU32Le index.config.sphericalKmeansIterations,
    appendU32Le index.entryPointId,
    appendU64Le index.directedBaseEdgeCount,
    appendU64Le index.undirectedPartitionEdgeCount,
    appendU64Le index.weightedEdgeCut,
    appendU32Le index.config.partitionProjection.toRaw,
    appendU32Le index.config.cellPartition.toRaw,
    if 6 ≤ version then
      [appendBool index.config.adaptiveMultiCapacity,
        appendU32Le index.config.adaptivePolicyVersion,
        appendU32Le index.config.adaptivePageBytes,
        appendU32Le index.config.adaptiveVectorBytes,
        appendU64Le index.config.adaptiveLruPages,
        appendDoubleLe index.config.adaptiveMaximumNormalizedRmsRadius,
        appendDoubleLe index.config.adaptiveMaximumNormalizedP95Radius,
        appendDoubleLe index.config.adaptiveMaximumSplitGain,
        appendDoubleLe index.config.adaptiveMinimumCentroidRadiusOverlap,
        appendDoubleLe index.config.adaptiveMinimumTrainCrossChildCoaccess,
        appendDoubleLe index.config.adaptiveMaximumUnseenPqIncrease].flatten
    else []].flatten

def communityBytes (community : Community) : List UInt8 :=
  [appendU32Le community.communityId,
    appendU64Le community.nodeCount,
    appendU64Le community.packetBytes,
    appendU64Le community.internalDirectedEdgeCount,
    appendU64Le community.incomingDirectedEdgeCount,
    appendU64Le community.outgoingDirectedEdgeCount,
    appendU32Le community.minimumNodeId,
    appendU32Le community.navigationHubId,
    appendFloatLe community.radius,
    appendBool community.graphOnly,
    appendU64Le community.sectorBegin,
    appendU32Le community.sectorCount,
    appendU64Le community.cellBegin,
    appendU32Le community.cellCount].flatten

def edgeBytes (edge : Edge) : List UInt8 :=
  [appendU32Le edge.sourceCommunity,
    appendU32Le edge.targetCommunity,
    appendU64Le edge.directedCrossEdgeCount,
    appendU64Le edge.gatewayBegin,
    appendU32Le edge.gatewayCount].flatten

def gatewayBytes (gateway : Gateway) : List UInt8 :=
  [appendU32Le gateway.sourceNode,
    appendU32Le gateway.targetNode,
    appendU64Le gateway.packetRecordIndex].flatten

def sectorBytes (sector : Sector) : List UInt8 :=
  [appendU32Le sector.communityId,
    appendU32Le sector.sectorId,
    appendU64Le sector.nodeCount,
    appendU64Le sector.axisIndex,
    appendFloatLe sector.minimumRadius,
    appendFloatLe sector.maximumRadius,
    appendFloatLe sector.maximumAngle,
    appendU64Le sector.cellBegin,
    appendU32Le sector.cellCount].flatten

def cellBytes (version : UInt32) (cell : Cell) : List UInt8 :=
  [appendU32Le cell.cellId,
    appendU32Le cell.communityId,
    appendU32Le cell.sectorId,
    appendU32Le cell.radialCellId,
    appendU64Le cell.nodeCount,
    if 6 ≤ version then appendU32Le cell.capacityClass else [],
    appendFloatLe cell.minimumRadius,
    appendFloatLe cell.maximumRadius,
    appendFloatLe cell.maximumAngle,
    appendU64Le cell.blockBegin,
    appendU32Le cell.blockCount].flatten

def blockBytes (block : Block) : List UInt8 :=
  [appendU32Le block.blockId,
    appendU32Le block.cellId,
    appendU32Le block.nodeCount,
    appendU64Le block.packetRecordBegin,
    appendFloatLe block.minimumRadius,
    appendFloatLe block.maximumRadius,
    appendFloatLe block.maximumAngle,
    appendFloatLe block.maximumPqReconstructionError].flatten

def cellHierarchyNodeBytes (node : CellHierarchyNode) : List UInt8 :=
  [appendU32Le node.nodeId,
    appendU32Le node.childBegin,
    appendU32Le node.childCount,
    appendU64Le node.descendantNodeCount,
    appendFloatLe node.radius,
    appendBool node.childrenAreCells].flatten

def makeSection {α : Type} (id : SectionId) (values : List α) (append : α → List UInt8) :
    SerializedSection :=
  ⟨id, values.length, values.flatMap append⟩

def makeSections (index : Index) (version : UInt32) : List SerializedSection :=
  [⟨.config, 1, configBytes index version⟩,
    makeSection .nodeToCommunity index.nodeToCommunity appendU32Le,
    makeSection .nodeToCell index.nodeToCell appendU32Le,
    makeSection .nodeToPacket index.nodeToPacketRecord appendU64Le,
    makeSection .communities index.communities communityBytes,
    makeSection .communityPoles index.communityPoles appendFloatLe,
    makeSection .communityEdgeOffsets index.communityEdgeOffsets appendU64Le,
    makeSection .communityEdges index.communityEdges edgeBytes,
    makeSection .gateways index.gateways gatewayBytes,
    makeSection .directionAxes index.directionAxes appendFloatLe,
    makeSection .sectors index.sectors sectorBytes,
    makeSection .cells index.cells (cellBytes version),
    makeSection .blocks index.blocks blockBytes,
    ⟨.packets, index.pointCount.toNat, index.packetPayload⟩,
    makeSection .cellHierarchyNodes index.cellHierarchyNodes cellHierarchyNodeBytes,
    makeSection .cellHierarchyRoots index.cellHierarchyRoots appendU32Le,
    makeSection .cellHierarchyChildren index.cellHierarchyChildren appendU32Le,
    makeSection .cellHierarchyCentroids index.cellHierarchyCentroids appendFloatLe]

/-! ## Writing -/

structure DirectoryEntry where
  id : SectionId
  offset : Nat
  length : Nat
  recordCount : Nat

/-- The directory of sections laid out from `offset`, and the end of the last. -/
def makeDirectory : Nat → List SerializedSection → Except Error (List DirectoryEntry × Nat)
  | offset, [] => .ok ([], offset)
  | offset, current :: sections => do
    let next ← checkedAdd offset current.bytes.length "Community-Polar file bytes"
    let (directory, total) ← makeDirectory next sections
    .ok (⟨current.id, offset, current.bytes.length, current.recordCount⟩ :: directory, total)

def entryBytes (entry : DirectoryEntry) : List UInt8 :=
  [appendU32Le (.ofNat entry.id.toRaw),
    appendU32Le 0,
    appendU64Le (.ofNat entry.offset),
    appendU64Le (.ofNat entry.length),
    appendU64Le (.ofNat entry.recordCount)].flatten

structure Header where
  magic : UInt64 := kCommunityPolarMagic
  version : UInt32
  headerSize : UInt32 := .ofNat (kFixedHeaderSize + kSectionCount * kSectionEntrySize)
  endian : UInt32 := kEndianMarker
  sectionCount : UInt32 := .ofNat kSectionCount
  pointCount : UInt64
  dimension : UInt32
  pqCodeWidth : UInt32
  bodyHash : UInt64
  baseIndexFingerprint : Fingerprint
  pqFingerprint : Fingerprint
  bodySize : UInt64

def fixedHeaderBytes (header : Header) : List UInt8 :=
  [appendU64Le header.magic,
    appendU32Le header.version,
    appendU32Le header.headerSize,
    appendU32Le header.endian,
    appendU32Le header.sectionCount,
    appendU64Le header.pointCount,
    appendU32Le header.dimension,
    appendU32Le header.pqCodeWidth,
    appendU64Le header.bodyHash,
    appendU64Le header.baseIndexFingerprint.sizeBytes,
    appendU64Le header.baseIndexFingerprint.fnv1aHash,
    appendU64Le header.pqFingerprint.sizeBytes,
    appendU64Le header.pqFingerprint.fnv1aHash,
    appendU64Le header.bodySize].flatten

/-- The header, filled up with zeros, and the directory. -/
def headerBytes (header : Header) (directory : List DirectoryEntry) : List UInt8 :=
  let fixed := fixedHeaderBytes header
  fixed ++ List.replicate (kFixedHeaderSize - fixed.length) 0 ++ directory.flatMap entryBytes

def sidecarVersion (config : BuildConfig) : UInt32 :=
  if config.cellPartition = .globalGraphLocal then kCommunityPolarVersion
  else if config.adaptiveMultiCapacity then kAdaptiveCapacitySidecarVersion
  else kFixedCapacitySidecarVersion

/-- The bytes that `write_community_polar_index` publishes. A file that would pass
the size limit fails to be written. -/
def writeIndex (index : Index) : Except Error (List UInt8) := do
  validateLoadedIndex index
  let version := sidecarVersion index.config
  let sections := makeSections index version
  let headerSize := kFixedHeaderSize + kSectionCount * kSectionEntrySize
  let (directory, total) ← makeDirectory headerSize sections
  let header : Header :=
    { version := version, pointCount := index.pointCount, dimension := index.dimension
      pqCodeWidth := index.pqCodeWidth
      bodyHash := sections.foldl (fun hash current => fnvBytes hash current.bytes) fnvOffsetBasis
      baseIndexFingerprint := index.baseIndexFingerprint, pqFingerprint := index.pqFingerprint
      bodySize := .ofNat (total - headerSize) }
  reject (fileSizeLimit ≤ total) (.runtimeError "failed to write Community-Polar sidecar")
  .ok (headerBytes header directory ++ sections.flatMap SerializedSection.bytes)

/-! ## Loading -/

def readHeader : Reader Header := do
  let magic ← readU64Le
  let version ← readU32Le
  let headerSize ← readU32Le
  let endian ← readU32Le
  let sectionCount ← readU32Le
  let pointCount ← readU64Le
  let dimension ← readU32Le
  let pqCodeWidth ← readU32Le
  let bodyHash ← readU64Le
  let baseSize ← readU64Le
  let baseHash ← readU64Le
  let pqSize ← readU64Le
  let pqHash ← readU64Le
  let bodySize ← readU64Le
  pure { magic := magic, version := version, headerSize := headerSize, endian := endian
         sectionCount := sectionCount, pointCount := pointCount, dimension := dimension
         pqCodeWidth := pqCodeWidth, bodyHash := bodyHash
         baseIndexFingerprint := ⟨baseSize, baseHash⟩, pqFingerprint := ⟨pqSize, pqHash⟩
         bodySize := bodySize }

/-- A directory entry as it stands in the file. -/
structure RawEntry where
  rawId : UInt32
  offset : UInt64
  length : UInt64
  recordCount : UInt64

def readEntry : Reader RawEntry := do
  let rawId ← readU32Le
  let _ ← readU32Le
  let offset ← readU64Le
  let length ← readU64Le
  let recordCount ← readU64Le
  pure ⟨rawId, offset, length, recordCount⟩

/-- Checks the entries in order: every section once, and no gap between them. -/
def checkDirectory (sectionCount fileSize : Nat) :
    List RawEntry → Nat → List SectionId → Except Error (List DirectoryEntry × Nat)
  | [], expectedOffset, _ => .ok ([], expectedOffset)
  | entry :: entries, expectedOffset, seen =>
    match SectionId.ofRaw entry.rawId.toNat with
    | none => .error (.runtimeError "Community-Polar section directory is invalid")
    | some id => do
      reject (sectionCount < entry.rawId.toNat ∨ id ∈ seen ∨
          entry.offset.toNat ≠ expectedOffset ∨ fileSize < entry.offset.toNat ∨
          fileSize - entry.offset.toNat < entry.length.toNat)
        (.runtimeError "Community-Polar section directory is invalid")
      let next ← checkedAdd entry.offset.toNat entry.length.toNat
        "Community-Polar section directory"
      let (directory, total) ← checkDirectory sectionCount fileSize entries next (id :: seen)
      .ok (⟨id, entry.offset.toNat, entry.length.toNat, entry.recordCount.toNat⟩ :: directory,
        total)

def findSection (directory : List DirectoryEntry) (id : SectionId) :
    Except Error DirectoryEntry :=
  match directory.find? fun entry => entry.id = id with
  | some entry => .ok entry
  | none => .error (.runtimeError "Community-Polar sidecar is missing a required section")

def sectionBytes (file : List UInt8) (entry : DirectoryEntry) : Except Error (List UInt8) :=
  if file.length < entry.offset ∨ file.length - entry.offset < entry.length then
    .error (.runtimeError "Community-Polar section lies outside the file")
  else .ok ((file.drop entry.offset).take entry.length)

def readScalarSection {α : Type} (file : List UInt8) (directory : List DirectoryEntry)
    (id : SectionId) (scalarSize : Nat) (reader : Reader α) : Except Error (List α) := do
  let entry ← findSection directory id
  let bytes ← sectionBytes file entry
  let expected ← checkedMultiply entry.recordCount scalarSize "Community-Polar scalar section"
  reject (expected ≠ bytes.length)
    (.runtimeError "Community-Polar scalar section has an invalid length")
  let (values, _) ← readMany reader entry.recordCount bytes
  .ok values

def readRecordSection {α : Type} (file : List UInt8) (directory : List DirectoryEntry)
    (id : SectionId) (reader : Reader α) (trailing : String) : Except Error (List α) := do
  let entry ← findSection directory id
  let bytes ← sectionBytes file entry
  readAll (readMany reader entry.recordCount) (.runtimeError trailing) bytes

structure ConfigSection where
  config : BuildConfig
  entryPointId : UInt32
  directedBaseEdgeCount : UInt64
  undirectedPartitionEdgeCount : UInt64
  weightedEdgeCut : UInt64

def readAdaptiveConfig (config : BuildConfig) : Reader BuildConfig := do
  let adaptiveMultiCapacity ← readStrictBool
    (.runtimeError "Community-Polar adaptive capacity flag is invalid")
  let adaptivePolicyVersion ← readU32Le
  let adaptivePageBytes ← readU32Le
  let adaptiveVectorBytes ← readU32Le
  let adaptiveLruPages ← readU64Le
  let adaptiveMaximumNormalizedRmsRadius ← readDoubleLe
  let adaptiveMaximumNormalizedP95Radius ← readDoubleLe
  let adaptiveMaximumSplitGain ← readDoubleLe
  let adaptiveMinimumCentroidRadiusOverlap ← readDoubleLe
  let adaptiveMinimumTrainCrossChildCoaccess ← readDoubleLe
  let adaptiveMaximumUnseenPqIncrease ← readDoubleLe
  pure { config with
    adaptiveMultiCapacity := adaptiveMultiCapacity
    adaptivePolicyVersion := adaptivePolicyVersion
    adaptivePageBytes := adaptivePageBytes
    adaptiveVectorBytes := adaptiveVectorBytes
    adaptiveLruPages := adaptiveLruPages
    adaptiveMaximumNormalizedRmsRadius := adaptiveMaximumNormalizedRmsRadius
    adaptiveMaximumNormalizedP95Radius := adaptiveMaximumNormalizedP95Radius
    adaptiveMaximumSplitGain := adaptiveMaximumSplitGain
    adaptiveMinimumCentroidRadiusOverlap := adaptiveMinimumCentroidRadiusOverlap
    adaptiveMinimumTrainCrossChildCoaccess := adaptiveMinimumTrainCrossChildCoaccess
    adaptiveMaximumUnseenPqIncrease := adaptiveMaximumUnseenPqIncrease }

def readConfigSection (version : UInt32) : Reader ConfigSection := do
  let communityCount ← readU32Le
  let communityImbalance ← readDoubleLe
  let partitionQuality ← readU32Le
  let partitionThreads ← readU32Le
  let partitionSeed ← readI32Le
  let gatewayCount ← readU32Le
  let gatewayShortlist ← readU32Le
  let polarDirectionCount ← readU32Le
  let cellTargetSize ← readU32Le
  let blockTargetSize ← readU32Le
  let sphericalKmeansIterations ← readU32Le
  let entryPointId ← readU32Le
  let directedBaseEdgeCount ← readU64Le
  let undirectedPartitionEdgeCount ← readU64Le
  let weightedEdgeCut ← readU64Le
  let partitionProjection ←
    if 2 ≤ version then PartitionProjection.ofRaw <$> readU32Le else pure .fullReciprocalVamana
  let cellPartition ←
    if 3 ≤ version then CellPartition.ofRaw <$> readU32Le else pure .polarRadial
  let config : BuildConfig :=
    { communityCount := communityCount, communityImbalance := communityImbalance
      partitionQuality := .ofRaw partitionQuality, partitionProjection := partitionProjection
      partitionThreads := partitionThreads, partitionSeed := partitionSeed
      gatewayCount := gatewayCount, gatewayShortlist := gatewayShortlist
      polarDirectionCount := polarDirectionCount, cellTargetSize := cellTargetSize
      blockTargetSize := blockTargetSize, sphericalKmeansIterations := sphericalKmeansIterations
      cellPartition := cellPartition }
  let config ← if 6 ≤ version then readAdaptiveConfig config else pure config
  pure ⟨config, entryPointId, directedBaseEdgeCount, undirectedPartitionEdgeCount, weightedEdgeCut⟩

def readCommunity : Reader Community := do
  let communityId ← readU32Le
  let nodeCount ← readU64Le
  let packetBytes ← readU64Le
  let internalDirectedEdgeCount ← readU64Le
  let incomingDirectedEdgeCount ← readU64Le
  let outgoingDirectedEdgeCount ← readU64Le
  let minimumNodeId ← readU32Le
  let navigationHubId ← readU32Le
  let radius ← readFloatLe
  let graphOnly ← readU32Le
  let sectorBegin ← readU64Le
  let sectorCount ← readU32Le
  let cellBegin ← readU64Le
  let cellCount ← readU32Le
  pure ⟨communityId, nodeCount, packetBytes, internalDirectedEdgeCount, incomingDirectedEdgeCount,
    outgoingDirectedEdgeCount, minimumNodeId, navigationHubId, radius, graphOnly != 0, sectorBegin,
    sectorCount, cellBegin, cellCount⟩

def readEdge : Reader Edge := do
  let sourceCommunity ← readU32Le
  let targetCommunity ← readU32Le
  let directedCrossEdgeCount ← readU64Le
  let gatewayBegin ← readU64Le
  let gatewayCount ← readU32Le
  pure ⟨sourceCommunity, targetCommunity, directedCrossEdgeCount, gatewayBegin, gatewayCount⟩

def readGateway : Reader Gateway := do
  let sourceNode ← readU32Le
  let targetNode ← readU32Le
  let packetRecordIndex ← readU64Le
  pure ⟨sourceNode, targetNode, packetRecordIndex⟩

def readSector : Reader Sector := do
  let communityId ← readU32Le
  let sectorId ← readU32Le
  let nodeCount ← readU64Le
  let axisIndex ← readU64Le
  let minimumRadius ← readFloatLe
  let maximumRadius ← readFloatLe
  let maximumAngle ← readFloatLe
  let cellBegin ← readU64Le
  let cellCount ← readU32Le
  pure ⟨communityId, sectorId, nodeCount, axisIndex, minimumRadius, maximumRadius, maximumAngle,
    cellBegin, cellCount⟩

def readCell (version cellTargetSize : UInt32) : Reader Cell := do
  let cellId ← readU32Le
  let communityId ← readU32Le
  let sectorId ← readU32Le
  let radialCellId ← readU32Le
  let nodeCount ← readU64Le
  let capacityClass ← if 6 ≤ version then readU32Le else pure cellTargetSize
  let minimumRadius ← readFloatLe
  let maximumRadius ← readFloatLe
  let maximumAngle ← readFloatLe
  let blockBegin ← readU64Le
  let blockCount ← readU32Le
  pure ⟨cellId, communityId, sectorId, radialCellId, nodeCount, capacityClass, minimumRadius,
    maximumRadius, maximumAngle, blockBegin, blockCount⟩

def readBlock : Reader Block := do
  let blockId ← readU32Le
  let cellId ← readU32Le
  let nodeCount ← readU32Le
  let packetRecordBegin ← readU64Le
  let minimumRadius ← readFloatLe
  let maximumRadius ← readFloatLe
  let maximumAngle ← readFloatLe
  let maximumPqReconstructionError ← readFloatLe
  pure ⟨blockId, cellId, nodeCount, packetRecordBegin, minimumRadius, maximumRadius, maximumAngle,
    maximumPqReconstructionError⟩

def readCellHierarchyNode : Reader CellHierarchyNode := do
  let nodeId ← readU32Le
  let childBegin ← readU32Le
  let childCount ← readU32Le
  let descendantNodeCount ← readU64Le
  let radius ← readFloatLe
  let childrenAreCells ← readStrictBool
    (.runtimeError "Community-Polar Cell hierarchy node kind is invalid")
  pure ⟨nodeId, childBegin, childCount, descendantNodeCount, radius, childrenAreCells⟩

/-- Version 5 brought the hierarchy sections. -/
def expectedSectionCount (version : UInt32) : Nat :=
  if 5 ≤ version then kSectionCount else kLegacySectionCount

/-- The header and the checked directory of a file. -/
def loadDirectory (file : List UInt8) : Except Error (Header × List DirectoryEntry) := do
  reject (fileSizeLimit ≤ file.length) (.runtimeError "Community-Polar sidecar size is invalid")
  let (header, _) ← readHeader file
  let sectionCount := expectedSectionCount header.version
  let headerSize := kFixedHeaderSize + sectionCount * kSectionEntrySize
  reject (header.magic ≠ kCommunityPolarMagic ∨ header.version < kCommunityPolarMinimumVersion ∨
      kCommunityPolarVersion < header.version ∨ header.endian ≠ kEndianMarker ∨
      header.sectionCount.toNat ≠ sectionCount ∨ header.headerSize.toNat ≠ headerSize ∨
      file.length < headerSize ∨ header.bodySize.toNat ≠ file.length - headerSize)
    (.runtimeError "Community-Polar sidecar header is incompatible or corrupt")
  let (entries, _) ← readMany readEntry sectionCount (file.drop kFixedHeaderSize)
  let (directory, total) ← checkDirectory sectionCount file.length entries headerSize []
  reject (total ≠ file.length ∨
      fnvBytes fnvOffsetBasis (file.drop headerSize) ≠ header.bodyHash)
    (.runtimeError "Community-Polar sidecar checksum or section coverage is invalid")
  .ok (header, directory)

/-- The hierarchy sections, empty before version 5. -/
structure HierarchySections where
  nodes : List CellHierarchyNode := []
  roots : List UInt32 := []
  children : List UInt32 := []
  centroids : List Single := []

def loadHierarchy (file : List UInt8) (directory : List DirectoryEntry) (version : UInt32) :
    Except Error HierarchySections :=
  if 5 ≤ version then do
    let nodes ← readRecordSection file directory .cellHierarchyNodes readCellHierarchyNode
      "Community-Polar Cell hierarchy nodes have trailing bytes"
    let roots ← readScalarSection file directory .cellHierarchyRoots 4 readU32Le
    let children ← readScalarSection file directory .cellHierarchyChildren 4 readU32Le
    let centroids ← readScalarSection file directory .cellHierarchyCentroids 4 readFloatLe
    .ok ⟨nodes, roots, children, centroids⟩
  else .ok {}

def loadConfigSection (file : List UInt8) (directory : List DirectoryEntry) (version : UInt32) :
    Except Error ConfigSection := do
  let entry ← findSection directory .config
  let bytes ← sectionBytes file entry
  let invalid := .runtimeError "Community-Polar config section has an invalid length"
  let config ← readAll (readConfigSection version) invalid bytes
  reject (entry.recordCount ≠ 1) invalid
  .ok config

def loadIndex (file : List UInt8) : Except Error Index := do
  let (header, directory) ← loadDirectory file
  let version := header.version
  let fields ← loadConfigSection file directory version
  let nodeToCommunity ← readScalarSection file directory .nodeToCommunity 4 readU32Le
  let nodeToCell ← readScalarSection file directory .nodeToCell 4 readU32Le
  let nodeToPacketRecord ← readScalarSection file directory .nodeToPacket 8 readU64Le
  let communityPoles ← readScalarSection file directory .communityPoles 4 readFloatLe
  let communityEdgeOffsets ← readScalarSection file directory .communityEdgeOffsets 8 readU64Le
  let directionAxes ← readScalarSection file directory .directionAxes 4 readFloatLe
  let communities ← readRecordSection file directory .communities readCommunity
    "Community-Polar Community section has trailing bytes"
  let communityEdges ← readRecordSection file directory .communityEdges readEdge
    "Community-Polar edge section has trailing bytes"
  let gateways ← readRecordSection file directory .gateways readGateway
    "Community-Polar Gateway section has trailing bytes"
  let sectors ← readRecordSection file directory .sectors readSector
    "Community-Polar Sector section has trailing bytes"
  let cells ← readRecordSection file directory .cells
    (readCell version fields.config.cellTargetSize)
    "Community-Polar Cell section has trailing bytes"
  let blocks ← readRecordSection file directory .blocks readBlock
    "Community-Polar Block section has trailing bytes"
  let packetsEntry ← findSection directory .packets
  let packetPayload ← sectionBytes file packetsEntry
  reject (packetsEntry.recordCount ≠ header.pointCount.toNat)
    (.runtimeError "Community-Polar packet record count is invalid")
  let hierarchy ← loadHierarchy file directory version
  let index : Index :=
    { config := fields.config, pointCount := header.pointCount, dimension := header.dimension
      entryPointId := fields.entryPointId, pqCodeWidth := header.pqCodeWidth
      directedBaseEdgeCount := fields.directedBaseEdgeCount
      undirectedPartitionEdgeCount := fields.undirectedPartitionEdgeCount
      weightedEdgeCut := fields.weightedEdgeCut
      baseIndexFingerprint := header.baseIndexFingerprint, pqFingerprint := header.pqFingerprint
      nodeToCommunity := nodeToCommunity, nodeToCell := nodeToCell
      nodeToPacketRecord := nodeToPacketRecord, communities := communities
      communityPoles := communityPoles, communityEdgeOffsets := communityEdgeOffsets
      communityEdges := communityEdges, gateways := gateways, directionAxes := directionAxes
      sectors := sectors, cells := cells, blocks := blocks
      cellHierarchyNodes := hierarchy.nodes, cellHierarchyRoots := hierarchy.roots
      cellHierarchyChildren := hierarchy.children
      cellHierarchyCentroids := hierarchy.centroids, packetPayload := packetPayload }
  validateLoadedIndex index
  .ok index

end SkipCell.Sidecar

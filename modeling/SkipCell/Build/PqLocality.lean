import SkipCell.Foundation.Subspan
import SkipCell.Sidecar.Codec

/-! # Cells of a PQ-locality profile

`repack_pq_locality_cells_impl`. The profile file orders all nodes and cuts the order into Cells.
The packets are moved into this order, and the first Community becomes the owner of all Cells.
-/

namespace SkipCell.Build

open Foundation Sidecar

def kPqLocalityMagic : List UInt8 := "PLCPQLOC".toUTF8.toList

def kPqLocalityVersion : UInt32 := 1

def kPqLocalityHeaderSize : UInt32 := 52

/-- `std::numeric_limits<float>::max()`. -/
def largestFloat : Single := ⟨0x7F7FFFFF⟩

/-- An entry of the table, after eight shifts. -/
def crc32Entry (index : UInt32) : UInt32 :=
  (List.range 8).foldl
    (fun value _ => (value >>> 1) ^^^ (if value &&& 1 ≠ 0 then 0xEDB88320 else 0)) index

def crc32Bytes (bytes : List UInt8) : UInt32 :=
  bytes.foldl
    (fun checksum value =>
      crc32Entry ((checksum ^^^ value.toUInt32) &&& 0xFF) ^^^ (checksum >>> 8))
    0xFFFFFFFF ^^^ 0xFFFFFFFF

structure PqLocalityHeader where
  version : UInt32
  headerSize : UInt32
  endian : UInt32
  targetSize : UInt32
  dimension : UInt32
  pointCount : UInt64
  cellCount : UInt64
  checksum : UInt64

/-- The fields behind the magic. -/
def readPqLocalityHeader : Reader PqLocalityHeader := do
  let version ← readU32Le
  let headerSize ← readU32Le
  let endian ← readU32Le
  let targetSize ← readU32Le
  let dimension ← readU32Le
  let pointCount ← readU64Le
  let cellCount ← readU64Le
  let checksum ← readU64Le
  pure { version, headerSize, endian, targetSize, dimension, pointCount, cellCount, checksum }

structure PqLocalityProfile where
  cellOffsets : List UInt64
  orderedNodes : List UInt32
  cellCentroids : List Single

def pqLocalityPayloadBytes (header : PqLocalityHeader) : Except Error Nat := do
  let offsetBytes ← checkedMultiply (header.cellCount + 1).toNat 8 "PQ-locality Cell offsets"
  let nodeBytes ← checkedMultiply header.pointCount.toNat 4 "PQ-locality Cell node order"
  let centroids ← checkedMultiply header.cellCount.toNat header.dimension.toNat
    "PQ-locality centroids"
  let centroidBytes ← checkedMultiply centroids 4 "PQ-locality centroid bytes"
  let offsetsAndNodes ← checkedAdd offsetBytes nodeBytes "PQ-locality payload"
  checkedAdd offsetsAndNodes centroidBytes "PQ-locality payload"

/-- The target size of the profile suits the configuration. -/
def targetIsCompatible (config : BuildConfig) (targetSize : UInt32) : Prop :=
  if config.adaptiveMultiCapacity then targetSize ≤ config.cellTargetSize
  else targetSize = config.cellTargetSize

instance (config : BuildConfig) (targetSize : UInt32) :
    Decidable (targetIsCompatible config targetSize) := by
  unfold targetIsCompatible
  exact inferInstance

/-- Reads the node order. `seen` has a mark for each node that came before. -/
def readOrderedNodes : Nat → List Bool → Reader (List UInt32)
  | 0, _ => pure []
  | count + 1, seen => do
    let node ← readU32Le
    if seen[node.toNat]? = some false then
      let nodes ← readOrderedNodes count (seen.set node.toNat true)
      pure (node :: nodes)
    else throw (.invalidArgument "PQ-locality Cell profile violates one-owner coverage")

def readFiniteFloat : Reader Single := do
  let value ← readFloatLe
  if value.isFinite then pure value
  else throw (.invalidArgument "PQ-locality Cell profile contains a non-finite centroid")

/-- The Cell offsets, which begin at zero, end at the point count and grow. -/
def readCellOffsets (pointCount cellCount : UInt64) : Reader (List UInt64) := do
  let cellOffsets ← readMany readU64Le (cellCount.toNat + 1)
  if cellOffsets.head? ≠ some 0 ∨ cellOffsets.getLast? ≠ some pointCount ∨
      ¬ cellOffsets.IsChain (· ≤ ·) ∨ ¬ cellOffsets.IsChain (· ≠ ·) then
    throw (.invalidArgument "PQ-locality Cell offsets do not cover nonempty Cells")
  else pure cellOffsets

def readPqLocalityPayload (header : PqLocalityHeader) : Reader PqLocalityProfile := do
  let cellOffsets ← readCellOffsets header.pointCount header.cellCount
  let orderedNodes ← readOrderedNodes header.pointCount.toNat
    (List.replicate header.pointCount.toNat false)
  let cellCentroids ← readMany readFiniteFloat (header.cellCount.toNat * header.dimension.toNat)
  pure { cellOffsets, orderedNodes, cellCentroids }

/-- Reads the profile for an index and a configuration. -/
def loadPqLocalityProfile (index : Index) (config : BuildConfig) (file : List UInt8) :
    Except Error PqLocalityProfile := do
  reject (file.length < kPqLocalityHeaderSize.toNat ∨ file.take 8 ≠ kPqLocalityMagic)
    (.invalidArgument "PQ-locality Cell profile header is truncated or invalid")
  let (header, _) ← readPqLocalityHeader ((file.take kPqLocalityHeaderSize.toNat).drop 8)
  let payloadBytes ← pqLocalityPayloadBytes header
  let incompatible := .invalidArgument "PQ-locality Cell profile metadata is incompatible"
  reject (header.version ≠ kPqLocalityVersion ∨ header.headerSize ≠ kPqLocalityHeaderSize ∨
    header.endian ≠ kEndianMarker ∨ ¬ targetIsCompatible config header.targetSize ∨
    header.dimension ≠ index.dimension ∨ header.pointCount ≠ index.pointCount ∨
    header.cellCount = 0 ∨ 2 ^ 32 - 1 < header.cellCount.toNat) incompatible
  let fileBytes ← checkedAdd header.headerSize.toNat payloadBytes "PQ-locality file bytes"
  reject (file.length ≠ fileBytes) incompatible
  let payload := file.drop kPqLocalityHeaderSize.toNat
  reject ((crc32Bytes payload).toUInt64 ≠ header.checksum)
    (.invalidArgument "PQ-locality Cell profile checksum is invalid")
  readAll (readPqLocalityPayload header)
    (.invalidArgument "PQ-locality Cell profile contains trailing bytes") payload

/-- The arrays that the loops over Cells, Blocks and packets fill. -/
structure PqRepack where
  cells : List Cell := []
  blocks : List Block := []
  packet : Nat := 0
  nodeToCell : List UInt32
  nodeToPacketRecord : List UInt64
  packetPayload : List UInt8

/-- One turn of the loop over the positions of a Block. -/
def movePacket (source : Index) (cellId node : UInt32) (state : PqRepack) :
    Except Error PqRepack := do
  let sourcePacket ← element .outOfBounds source.nodeToPacketRecord node.toNat
  reject (source.pointCount ≤ sourcePacket)
    (.invalidArgument "PQ-locality source packet mapping is out of range")
  let record := subspan source.packetPayload (sourcePacket.toNat * source.recordBytes)
    source.recordBytes
  let nodeToCell ← assign .outOfBounds state.nodeToCell node.toNat cellId
  let nodeToPacketRecord ←
    assign .outOfBounds state.nodeToPacketRecord node.toNat (.ofNat state.packet)
  .ok { state with
    nodeToCell, nodeToPacketRecord
    packetPayload := patch state.packetPayload (state.packet * source.recordBytes) record
    packet := state.packet + 1 }

/-- The loop over the Blocks of a Cell. It does not end if Blocks may hold no node. -/
def appendLocalityBlocks (source : Index) (config : BuildConfig) (radius : Single)
    (cellId : UInt32) (orderedNodes : List UInt32) (last : Nat) :
    Nat → Nat → PqRepack → Except Error PqRepack
  | 0, _, _ => .error .endless
  | fuel + 1, blockBegin, state =>
    if last ≤ blockBegin then .ok state
    else do
      let blockEnd := min last (blockBegin + config.blockTargetSize.toNat)
      let block : Block :=
        { blockId := .ofNat state.blocks.length
          cellId
          nodeCount := .ofNat (blockEnd - blockBegin)
          packetRecordBegin := .ofNat state.packet
          minimumRadius := .zero
          maximumRadius := radius
          maximumAngle := pi
          maximumPqReconstructionError := largestFloat }
      let moved ← scan (fun _ => movePacket source cellId) 0
        (subspan orderedNodes blockBegin (blockEnd - blockBegin)) state
      appendLocalityBlocks source config radius cellId orderedNodes last fuel
        (blockBegin + config.blockTargetSize.toNat) { moved with blocks := moved.blocks ++ [block] }

/-- One turn of the loop over the Cells. -/
def appendLocalityCell (source : Index) (config : BuildConfig) (radius : Single)
    (orderedNodes : List UInt32) (cellId : Nat) (range : UInt64 × UInt64) (state : PqRepack) :
    Except Error PqRepack := do
  let (first, last) := range
  reject (config.cellTargetSize.toNat < last.toNat - first.toNat)
    (.invalidArgument "PQ-locality Cell exceeds the requested capacity")
  let filled ← appendLocalityBlocks source config radius (.ofNat cellId) orderedNodes last.toNat
    (last.toNat - first.toNat + 1) first.toNat state
  let cell : Cell :=
    { cellId := .ofNat cellId
      communityId := 0
      sectorId := kPoleSectorId
      radialCellId := .ofNat cellId
      nodeCount := last - first
      capacityClass := config.cellTargetSize
      minimumRadius := .zero
      maximumRadius := radius
      maximumAngle := pi
      blockBegin := .ofNat state.blocks.length
      blockCount := .ofNat (filled.blocks.length - state.blocks.length) }
  .ok { filled with cells := filled.cells ++ [cell] }

/-- The settings of the repacked index, without the paths of its inputs. -/
def repackedConfig (config : BuildConfig) : BuildConfig :=
  { config with
    convergenceCellProfilePath := ""
    convergenceCellHierarchyPath := ""
    convergenceCellCapacityPath := "" }

/-- The first Community owns all Cells, and the others none. -/
def ownCells (cellCount : Nat) (community : Nat) (record : Community) : Community :=
  if community = 0 then
    { record with sectorBegin := 0, sectorCount := 1, cellBegin := 0, cellCount := .ofNat cellCount }
  else
    { record with
      sectorBegin := 1, sectorCount := 0, cellBegin := .ofNat cellCount, cellCount := 0 }

def poleSector (pointCount : UInt64) (radius : Single) (cellCount : Nat) : Sector where
  communityId := 0
  sectorId := kPoleSectorId
  nodeCount := pointCount
  axisIndex := kInvalidAxisIndex
  minimumRadius := .zero
  maximumRadius := radius
  maximumAngle := pi
  cellBegin := 0
  cellCount := .ofNat cellCount

/-- A Gateway with the new packet of its target. -/
def locateGateway (nodeToPacketRecord : List UInt64) (gateway : Gateway) :
    Except Error Gateway := do
  let packet ← element .outOfBounds nodeToPacketRecord gateway.targetNode.toNat
  .ok { gateway with packetRecordIndex := packet }

def repackPqLocalityProfile (source : Index) (config : BuildConfig)
    (profile : PqLocalityProfile) : Except Error Index := do
  let pointCount := source.pointCount.toNat
  let packetBytes ← checkedMultiply pointCount source.recordBytes "source Community-Polar packets"
  reject (source.packetPayload.length ≠ packetBytes ∨
      source.nodeToPacketRecord.length ≠ pointCount)
    (.invalidArgument "PQ-locality source sidecar packet directory is invalid")
  let cellCount := profile.cellOffsets.length - 1
  let owner ← element .outOfBounds source.communities 0
  let arrays ← scan (appendLocalityCell source config owner.radius profile.orderedNodes) 0
    (profile.cellOffsets.zip (profile.cellOffsets.drop 1))
    { nodeToCell := List.replicate pointCount (2 ^ 32 - 1)
      nodeToPacketRecord := List.replicate pointCount (2 ^ 64 - 1)
      packetPayload := List.replicate packetBytes 0 }
  let gateways ← source.gateways.mapM (locateGateway arrays.nodeToPacketRecord)
  .ok { source with
    config := repackedConfig config
    nodeToCell := arrays.nodeToCell
    nodeToPacketRecord := arrays.nodeToPacketRecord
    communities := source.communities.mapIdx (ownCells cellCount)
    gateways := gateways
    directionAxes := profile.cellCentroids
    sectors := [poleSector source.pointCount owner.radius cellCount]
    cells := arrays.cells
    blocks := arrays.blocks
    cellHierarchyNodes := []
    cellHierarchyRoots := []
    cellHierarchyChildren := []
    cellHierarchyCentroids := []
    packetPayload := arrays.packetPayload }

/-- `repack_pq_locality_cells_impl`, with what `files` holds. -/
def repackPqLocalityCellsImpl (files : String → Option (List UInt8)) (source : Index)
    (profilePath : String) (config : BuildConfig) : Except Error Index := do
  reject (config.cellPartition ≠ .globalGeometric ∨ config.cellTargetSize = 0 ∨
      config.blockTargetSize = 0 ∨ profilePath = "")
    (.invalidArgument "PQ-locality Cell repack configuration is invalid")
  match files profilePath with
  | none =>
    .error (.invalidArgument ("Failed to open PQ-locality Cell profile: " ++ profilePath))
  | some file => do
    let profile ← loadPqLocalityProfile source config file
    repackPqLocalityProfile source config profile

end SkipCell.Build

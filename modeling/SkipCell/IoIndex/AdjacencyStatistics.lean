import SkipCell.Foundation.GroupVarint
import SkipCell.IoIndex.Artifacts

/-! # The group varint adjacency artifact

A second encoding of the adjacency lists of a topology artifact. `build` writes it and
`verify` decodes it again, list by list, against the topology. A record is the degree
of a node, in the order-preserving mode the positions of its sorted neighbors in the
list, and the sorted neighbors.
-/

namespace SkipCell.IoIndex.AdjacencyStatistics

open Foundation Sidecar

structure RawHeader where
  headerBytes : UInt32
  pointCount : UInt64
  edgeCount : UInt64
  maximumDegree : UInt32
  encoding : UInt32
  offsets : TopologySection
  adjacency : TopologySection

/-- `raw_topology_view_t`. -/
structure RawTopology extends RawHeader where
  file : List UInt8

/-- The header of a file of `size` bytes. -/
def readRawHeader (size : Nat) : Reader RawHeader := do
  let magic ← readU64 "raw topology magic"
  rejectRead (magic ≠ kTopologyMagic) "statistics input is not an IO topology artifact"
  let version ← readU32 "raw topology version"
  rejectRead (version < 4 ∨ 6 < version) "unsupported raw IO topology version or byte order"
  let endian ← readU32 "raw topology byte-order marker"
  rejectRead (endian ≠ kEndianMarker) "unsupported raw IO topology version or byte order"
  let headerBytes ← readU32 "raw topology header size"
  rejectRead (version = 4 ∧ headerBytes ≠ 256 ∨ 5 ≤ version ∧ headerBytes ≠ 320 ∨
    size < headerBytes.toNat) "invalid raw IO topology header"
  let pageSize ← readU32 "raw topology page size"
  rejectRead (pageSize.toNat ≠ kIoVectorPageSize) "invalid raw IO topology header"
  let pointCount ← readU64 "raw topology point count"
  let _dimension ← readU64 "raw topology dimension"
  let maximumDegree ← readU32 "raw topology maximum degree"
  let encoding ← readU32 "raw topology encoding"
  let _layout ← readU32 "raw topology vector layout"
  let edgeCount ← readU64 "raw topology edge count"
  let _vectorPageCount ← readU64 "raw topology vector page count"
  let _cellCount ← readU64 "raw topology Cell count"
  let _base ← readFingerprint "raw topology Base size" "raw topology Base checksum"
  let _vectors ← readFingerprint "raw topology vector size" "raw topology vector checksum"
  let offsets ← readSection "raw topology offsets offset" "raw topology offsets size"
    "raw topology offsets checksum"
  let adjacency ← readSection "raw topology adjacency offset" "raw topology adjacency size"
    "raw topology adjacency checksum"
  pure { headerBytes, pointCount, edgeCount, maximumDegree, encoding, offsets, adjacency }

namespace RawTopology

def rawOffset (topology : RawTopology) (node : Nat) : Except Error UInt64 := do
  let cursor := topology.offsets.offset.toNat + node * 8
  let (offset, _) ← readU64 "raw topology neighbor offset" (topology.file.drop cursor)
  .ok offset

def rawNeighbor (topology : RawTopology) (edge : Nat) : Except Error UInt32 := do
  let cursor := topology.adjacency.offset.toNat + edge * 4
  let (target, _) ← readU32 "raw topology adjacency target" (topology.file.drop cursor)
  .ok target

def edges (topology : RawTopology) (node : Nat) : Except Error (List Nat) := do
  let first ← topology.rawOffset node
  let last ← topology.rawOffset (node + 1)
  .ok (List.range' first.toNat (last.toNat - first.toNat))

/-- The list of a node, as the topology has it. -/
def neighbors (topology : RawTopology) (node : Nat) : Except Error (List UInt32) := do
  let edges ← topology.edges node
  edges.mapM topology.rawNeighbor

def checkSections (topology : RawTopology) : Except Error Unit := do
  let offsetCount ← addChecked topology.pointCount.toNat 1 "raw topology offset count"
  let expectedOffsets ← multiplyChecked offsetCount 8 "raw topology offset bytes"
  let expectedAdjacency ← multiplyChecked topology.edgeCount.toNat 4
    "raw topology adjacency bytes"
  reject (topology.pointCount = 0 ∨ topology.maximumDegree = 0 ∨ topology.encoding ≠ 0 ∨
      topology.offsets.offset.toNat ≠ topology.headerBytes.toNat ∨
      topology.offsets.bytes.toNat ≠ expectedOffsets ∨
      topology.adjacency.offset ≠ topology.offsets.offset + topology.offsets.bytes ∨
      topology.adjacency.bytes.toNat ≠ expectedAdjacency ∨
      topology.file.length < topology.adjacency.offset.toNat ∨
      topology.file.length - topology.adjacency.offset.toNat < topology.adjacency.bytes.toNat)
    (.runtimeError "statistics input requires compatible raw-U32 topology")

/-- The offsets begin at zero, end at the number of edges, and give no list that is too
long. -/
def checkOffsets (topology : RawTopology) : Except Error Unit := do
  let nodes := topology.pointCount.toNat
  let first ← topology.rawOffset 0
  let last ← topology.rawOffset nodes
  reject (first ≠ 0 ∨ last ≠ topology.edgeCount)
    (.runtimeError "raw IO topology offsets do not cover adjacency")
  let _ ← scan (fun node _ (previous : UInt64) => do
      let next ← topology.rawOffset (node + 1)
      reject (next < previous ∨ topology.maximumDegree.toNat < next.toNat - previous.toNat)
        (.runtimeError "raw IO topology degree exceeds its declared bound")
      .ok next)
    0 (List.range nodes) 0
  .ok ()

end RawTopology

/-- `std::span::subspan`. The sum of an offset and a size can have wrapped around. -/
def sectionBytes (place : TopologySection) (file : List UInt8) : Except Error (List UInt8) := do
  reject (file.length < place.offset.toNat + place.bytes.toNat) .outOfBounds
  .ok (place.read file)

def parseRawTopology (file : List UInt8) : Except Error RawTopology := do
  reject (file.length < 256) (.runtimeError "truncated raw IO topology header")
  let (header, _) ← readRawHeader file.length file
  let topology : RawTopology := { header with file }
  topology.checkSections
  let offsets ← sectionBytes topology.offsets file
  let adjacency ← sectionBytes topology.adjacency file
  reject (checksumBytes offsets ≠ topology.offsets.checksum ∨
      checksumBytes adjacency ≠ topology.adjacency.checksum)
    (.runtimeError "raw IO topology adjacency checksum mismatch")
  topology.checkOffsets
  .ok topology

/-- The bits of a position in a list of so many neighbors. -/
def permutationBits (degree : Nat) : Nat := if degree ≤ 1 then 0 else (degree - 1).log2 + 1

def permutationSize (degree : Nat) : Nat := (degree * permutationBits degree + 7) / 8

/-- `append_packed_permutation`. -/
def packedPermutation (ordered : List (UInt32 × UInt8)) (bits : Nat) : List UInt8 :=
  if bits = 0 then []
  else
    packFields bits 0 (List.replicate ((ordered.length * bits + 7) / 8) 0) (ordered.map Prod.snd)

def readPackedPermutation (bytes : List UInt8) (index bits : Nat) : UInt8 :=
  if bits = 0 then 0 else unpackField bits bytes index

/-- The neighbors of a node with their positions, in the order of `std::pair`. -/
def orderedNeighbors (neighbors : List UInt32) : List (UInt32 × UInt8) :=
  let indexed := neighbors.mapIdx fun position target => (target, UInt8.ofNat position)
  indexed.mergeSort fun left right =>
    decide (left.1 < right.1 ∨ left.1 = right.1 ∧ left.2 ≤ right.2)

/-- What the payload has of a node. -/
def recordBytes (preserve : Bool) (neighbors : List UInt32) : List UInt8 :=
  let ordered := orderedNeighbors neighbors
  let bits := permutationBits neighbors.length
  UInt8.ofNat neighbors.length ::
    (if preserve then packedPermutation ordered bits else []) ++
    encodeGroupVarint (ordered.map Prod.fst)

def kStatisticsMagic : UInt64 := 0x5441545356474C50

def kStatisticsVersion : UInt32 := 1

def kStatisticsHeaderBytes : Nat := 192

def kGroupvarintDeltaCodec : UInt32 := 1

def kStatisticsOnlyFlag : UInt32 := 1

def kSortedAdjacencyFlag : UInt32 := 2

def kPreservesNeighborOrderFlag : UInt32 := 4

/-- `statistics_header_t`. -/
structure StatisticsHeader where
  flags : UInt32 := kStatisticsOnlyFlag ||| kSortedAdjacencyFlag
  pointCount : UInt64 := 0
  edgeCount : UInt64 := 0
  maximumDegree : UInt32 := 0
  sourceTopology : Fingerprint := {}
  rawAdjacencyBytes : UInt64 := 0
  sourceAdjacencyChecksum : UInt64 := 0
  offsets : TopologySection := { offset := .ofNat kStatisticsHeaderBytes }
  payload : TopologySection := {}
  permutationBytes : UInt64 := 0

def StatisticsHeader.preservesOrder (header : StatisticsHeader) : Bool :=
  header.flags &&& kPreservesNeighborOrderFlag ≠ 0

def statisticsHeaderFields (header : StatisticsHeader) : List UInt8 :=
  [appendU64Le kStatisticsMagic,
    appendU32Le kStatisticsVersion,
    appendU32Le kEndianMarker,
    appendU32Le (.ofNat kStatisticsHeaderBytes),
    appendU32Le kGroupvarintDeltaCodec,
    appendU32Le header.flags,
    appendU32Le 0,
    appendU64Le header.pointCount,
    appendU64Le header.edgeCount,
    appendU32Le header.maximumDegree,
    appendU32Le 0,
    appendU64Le header.sourceTopology.sizeBytes,
    appendU64Le header.sourceTopology.fnv1aHash,
    appendU64Le header.rawAdjacencyBytes,
    appendU64Le header.sourceAdjacencyChecksum,
    appendU64Le header.offsets.offset,
    appendU64Le header.offsets.bytes,
    appendU64Le header.offsets.checksum,
    appendU64Le header.payload.offset,
    appendU64Le header.payload.bytes,
    appendU64Le header.payload.checksum,
    appendU64Le header.permutationBytes].flatten

def serializeStatisticsHeader (header : StatisticsHeader) : List UInt8 :=
  let fields := statisticsHeaderFields header
  fields ++ List.replicate (kStatisticsHeaderBytes - fields.length) 0

def readStatisticsHeader : Reader StatisticsHeader := do
  let invalid := "invalid GroupVarint statistics artifact identity"
  let magic ← readU64 "statistics magic"
  rejectRead (magic ≠ kStatisticsMagic) invalid
  let version ← readU32 "statistics version"
  rejectRead (version ≠ kStatisticsVersion) invalid
  let endian ← readU32 "statistics byte-order marker"
  rejectRead (endian ≠ kEndianMarker) invalid
  let headerBytes ← readU32 "statistics header size"
  rejectRead (headerBytes.toNat ≠ kStatisticsHeaderBytes) invalid
  let codec ← readU32 "statistics codec"
  rejectRead (codec ≠ kGroupvarintDeltaCodec) invalid
  let flags ← readU32 "statistics flags"
  let _reserved ← readU32 "statistics reserved field"
  let pointCount ← readU64 "statistics point count"
  let edgeCount ← readU64 "statistics edge count"
  let maximumDegree ← readU32 "statistics maximum degree"
  let _reserved ← readU32 "statistics reserved field"
  let sourceTopology ← readFingerprint "statistics source topology size"
    "statistics source topology checksum"
  let rawAdjacencyBytes ← readU64 "statistics raw adjacency size"
  let sourceAdjacencyChecksum ← readU64 "statistics source adjacency checksum"
  let offsets ← readSection "statistics offsets offset" "statistics offsets size"
    "statistics offsets checksum"
  let payload ← readSection "statistics payload offset" "statistics payload size"
    "statistics payload checksum"
  let permutationBytes ← readU64 "statistics permutation bytes"
  pure
    { flags, pointCount, edgeCount, maximumDegree, sourceTopology, rawAdjacencyBytes
      sourceAdjacencyChecksum, offsets, payload, permutationBytes }

def parseStatisticsHeader (file : List UInt8) : Except Error StatisticsHeader := do
  reject (file.length < kStatisticsHeaderBytes)
    (.runtimeError "truncated GroupVarint statistics header")
  let (header, _) ← readStatisticsHeader file
  .ok header

/-- `io_adjacency_statistics_result_t`. -/
structure StatisticsResult where
  pointCount : UInt64
  edgeCount : UInt64
  maximumDegree : UInt32
  rawAdjacencyBytes : UInt64
  compressedOffsetBytes : UInt64
  compressedPayloadBytes : UInt64
  permutationBytes : UInt64
  artifactBytes : UInt64
  buildPeakPayloadBytes : UInt64
  artifactChecksum : UInt64
  preservesNeighborOrder : Bool

def makeResult (header : StatisticsHeader) (artifact : List UInt8) : StatisticsResult where
  pointCount := header.pointCount
  edgeCount := header.edgeCount
  maximumDegree := header.maximumDegree
  rawAdjacencyBytes := header.rawAdjacencyBytes
  compressedOffsetBytes := header.offsets.bytes
  compressedPayloadBytes := header.payload.bytes
  permutationBytes := header.permutationBytes
  artifactBytes := .ofNat artifact.length
  buildPeakPayloadBytes := header.offsets.bytes + header.payload.bytes
  artifactChecksum := checksumBytes artifact
  preservesNeighborOrder := header.preservesOrder

/-- Where the record of a node begins and ends. -/
def recordRange (offsets : List UInt8) (node : Nat) : Except Error (UInt64 × UInt64) := do
  let (first, rest) ← readU64 "GroupVarint record offset" (offsets.drop (node * 8))
  let (last, _) ← readU64 "GroupVarint record end" rest
  .ok (first, last)

def readDegree : Reader Nat := readWord (.runtimeError "truncated GroupVarint degree") 1

def groupFailures : GroupFailures Error where
  tag := .runtimeError "truncated GroupVarint tag"
  value := .runtimeError "truncated GroupVarint value"
  overflow := .runtimeError "GroupVarint delta reconstruction overflows"

/-- The packed permutation and the sorted neighbors that follow the degree. -/
def readBody (preserves : Bool) (degree : Nat) (body : List UInt8) :
    Except Error (List UInt8 × List UInt32) := do
  let size := if preserves then permutationSize degree else 0
  reject (body.length < size) (.runtimeError "truncated GroupVarint permutation")
  let sorted ← readAll (readGroupVarint groupFailures degree)
    (.runtimeError "GroupVarint record has trailing bytes") (body.drop size)
  .ok (body.take size, sorted)

/-- Puts a neighbor where the permutation has it, which must be a place without one. -/
def restoreStep (permutation : List UInt8) (degree index : Nat) (value : UInt32)
    (state : List UInt32 × List Bool) : Except Error (List UInt32 × List Bool) := do
  let position := (readPackedPermutation permutation index (permutationBits degree)).toNat
  reject (degree ≤ position ∨ state.2[position]? ≠ some false)
    (.runtimeError "GroupVarint permutation is invalid")
  .ok (state.1.set position value, state.2.set position true)

def restore (permutation : List UInt8) (degree : Nat) (sorted : List UInt32) :
    Except Error (List UInt32) := do
  let (restored, _) ← scan (restoreStep permutation degree) 0 sorted
    (List.replicate degree 0, List.replicate degree false)
  .ok restored

/-- Replays the record of a node, behind the record before it. -/
def verifyNode (topology : RawTopology) (preserves : Bool) (offsets payload : List UInt8)
    (node : Nat) (state : UInt64 × Nat) : Except Error (UInt64 × Nat) := do
  let (first, last) ← recordRange offsets node
  reject (first ≠ state.1 ∨ last < first ∨ payload.length < last.toNat)
    (.runtimeError "GroupVarint record offsets are invalid")
  let (degree, body) ← readDegree (subspan payload first.toNat (last.toNat - first.toNat))
  let edges ← topology.edges node
  reject (degree ≠ edges.length) (.runtimeError "GroupVarint degree does not match raw topology")
  let (permutation, sorted) ← readBody preserves degree body
  let expected ← edges.mapM topology.rawNeighbor
  if preserves then
    let restored ← restore permutation degree sorted
    reject (restored ≠ expected) (.runtimeError "GroupVarint order-preserving replay mismatch")
  else
    reject (sorted ≠ expected.mergeSort (decide <| · ≤ ·))
      (.runtimeError "GroupVarint sorted-adjacency replay mismatch")
  .ok (last, state.2 + permutation.length)

def requiredFlags : UInt32 := kStatisticsOnlyFlag ||| kSortedAdjacencyFlag

def checkMetadata (topology : RawTopology) (header : StatisticsHeader) (artifact : List UInt8) :
    Except Error Unit := do
  let offsetCount ← addChecked header.pointCount.toNat 1 "GroupVarint offset count"
  let expectedOffsets ← multiplyChecked offsetCount 8 "GroupVarint offset bytes"
  reject (header.flags &&& requiredFlags ≠ requiredFlags ∨
      header.flags &&& ~~~(requiredFlags ||| kPreservesNeighborOrderFlag) ≠ 0 ∨
      header.pointCount ≠ topology.pointCount ∨ header.edgeCount ≠ topology.edgeCount ∨
      header.maximumDegree ≠ topology.maximumDegree ∨
      header.sourceTopology ≠ fingerprintFile topology.file ∨
      header.rawAdjacencyBytes ≠ topology.adjacency.bytes ∨
      header.sourceAdjacencyChecksum ≠ topology.adjacency.checksum ∨
      header.offsets.offset.toNat ≠ kStatisticsHeaderBytes ∨
      header.offsets.bytes.toNat ≠ expectedOffsets ∨
      header.payload.offset ≠ header.offsets.offset + header.offsets.bytes ∨
      artifact.length < header.payload.offset.toNat ∨
      artifact.length - header.payload.offset.toNat < header.payload.bytes.toNat ∨
      header.payload.offset + header.payload.bytes ≠ .ofNat artifact.length)
    (.runtimeError "GroupVarint statistics metadata does not match raw topology")

def verify (raw artifact : List UInt8) : Except Error StatisticsResult := do
  let topology ← parseRawTopology raw
  let header ← parseStatisticsHeader artifact
  checkMetadata topology header artifact
  let offsets ← sectionBytes header.offsets artifact
  let payload ← sectionBytes header.payload artifact
  reject (checksumBytes offsets ≠ header.offsets.checksum ∨
      checksumBytes payload ≠ header.payload.checksum)
    (.runtimeError "GroupVarint statistics section checksum mismatch")
  let nodes := header.pointCount.toNat
  let (recordEnd, permutationBytes) ←
    scan (fun node _ => verifyNode topology header.preservesOrder offsets payload node) 0
      (List.range nodes) (0, 0)
  let (last, _) ← readU64 "GroupVarint final offset" (offsets.drop (nodes * 8))
  reject (last.toNat ≠ payload.length ∨ recordEnd.toNat ≠ payload.length ∨
      UInt64.ofNat permutationBytes ≠ header.permutationBytes)
    (.runtimeError "GroupVarint statistics coverage is incomplete")
  .ok (makeResult header artifact)

/-- The list of a node of an artifact, by the steps of the verifier. -/
def decodeNode (artifact : List UInt8) (node : Nat) : Except Error (List UInt32) := do
  let header ← parseStatisticsHeader artifact
  let offsets ← sectionBytes header.offsets artifact
  let payload ← sectionBytes header.payload artifact
  let (first, last) ← recordRange offsets node
  let (degree, body) ← readDegree (subspan payload first.toNat (last.toNat - first.toNat))
  let (permutation, sorted) ← readBody header.preservesOrder degree body
  if header.preservesOrder then restore permutation degree sorted else .ok sorted

def checkedNeighbors (topology : RawTopology) (node : Nat) : Except Error (List UInt32) := do
  let edges ← topology.edges node
  edges.mapM fun edge => do
    let target ← topology.rawNeighbor edge
    reject (topology.pointCount.toNat ≤ target.toNat)
      (.runtimeError ("raw IO topology adjacency target " ++ toString target.toNat ++ " at node " ++
        toString node ++ " edge " ++ toString edge ++ " is out of range for " ++
        toString topology.pointCount.toNat ++ " points"))
    .ok target

/-- Where the record of each node begins, and where the last ends. -/
def recordOffsets (records : List (List UInt8)) : List UInt64 :=
  (records.scanl (fun offset record => offset + record.length) 0).map .ofNat

def permutationBytes (preserve : Bool) (lists : List (List UInt32)) : Nat :=
  if preserve then (lists.map fun list => permutationSize list.length).sum else 0

def statisticsHeader (topology : RawTopology) (preserve : Bool) (lists : List (List UInt32)) :
    StatisticsHeader :=
  let records := lists.map (recordBytes preserve)
  let offsetBytes := serializeU64 (recordOffsets records)
  { flags := if preserve then requiredFlags ||| kPreservesNeighborOrderFlag else requiredFlags
    pointCount := topology.pointCount
    edgeCount := topology.edgeCount
    maximumDegree := topology.maximumDegree
    sourceTopology := fingerprintFile topology.file
    rawAdjacencyBytes := topology.adjacency.bytes
    sourceAdjacencyChecksum := topology.adjacency.checksum
    offsets := placeSection kStatisticsHeaderBytes offsetBytes
    payload := placeSection (kStatisticsHeaderBytes + offsetBytes.length) records.flatten
    permutationBytes := .ofNat (permutationBytes preserve lists) }

/-- The three parts of the file. -/
def artifactBytes (topology : RawTopology) (preserve : Bool) (lists : List (List UInt32)) :
    List UInt8 :=
  let records := lists.map (recordBytes preserve)
  serializeStatisticsHeader (statisticsHeader topology preserve lists) ++
    serializeU64 (recordOffsets records) ++ records.flatten

/-- What is written is renamed to its path only after it was verified. -/
def build (raw : List UInt8) (preserve : Bool) : Except Error (List UInt8 × StatisticsResult) := do
  let topology ← parseRawTopology raw
  reject (255 < topology.maximumDegree.toNat)
    (.runtimeError "GroupVarint statistics format supports maximum degree 255")
  let lists ← (List.range topology.pointCount.toNat).mapM (checkedNeighbors topology)
  let offsetBytes := (lists.length + 1) * 8
  let _ ← addChecked kStatisticsHeaderBytes offsetBytes "GroupVarint payload offset"
  let artifact := artifactBytes topology preserve lists
  -- A longer file cannot be written.
  reject (fileSizeLimit ≤ artifact.length)
    (.runtimeError "failed writing GroupVarint statistics artifact")
  let result ← verify raw artifact
  .ok (artifact, result)

end SkipCell.IoIndex.AdjacencyStatistics

import SkipCell.IoIndex.Topology

/-! # Building and loading the artifacts

`build` turns a Base index, and for the Cell layouts a Community-Polar sidecar, into
the bytes of the vector and topology artifacts. `load` checks the artifacts again,
field by field, before it returns the index.
-/

namespace SkipCell.IoIndex

open Foundation Sidecar

structure BuildInput where
  disk : List UInt8
  pqCompressed : List UInt8 := []
  communityPolar : List UInt8 := []
  encoding : AdjacencyEncoding := .rawU32
  layout : VectorLayout := .originalId
  buildPrefetchHints : Bool := true
  /-- What `read_normalized_rcni` returns, where a path is given. -/
  normalizedRcni : Option (List Double) := none

/-- `compress_adjacency`, in a build of the library that has the codec. -/
abbrev Compress := List UInt64 → List UInt32 → List UInt64 × List UInt8

def validateCommunityPolarArtifacts (index : Index) (disk pqCompressed : List UInt8) :
    Except Error Unit :=
  reject (fingerprintFile disk ≠ index.baseIndexFingerprint ∨
      fingerprintFile pqCompressed ≠ index.pqFingerprint)
    (.runtimeError "Community-Polar sidecar does not match its Base or PQ artifact")

def openSidecar (input : BuildInput) (metadata : DiskLayoutMetadata) : Except Error Index := do
  let index ← loadIndex input.communityPolar
  validateCommunityPolarArtifacts index input.disk input.pqCompressed
  reject (index.pointCount ≠ metadata.pointCount ∨
      index.dimension.toNat ≠ metadata.dimension.toNat ∨ index.cells = [])
    (.runtimeError "Community-Polar sidecar shape is incompatible with IO-2 layout")
  .ok index

/-- The sidecar, for the layouts that have one. -/
def openIndex (input : BuildInput) (metadata : DiskLayoutMetadata) :
    Except Error (Option Index) :=
  if input.layout.isCell then some <$> openSidecar input metadata else .ok none

def trimmedNodes (input : BuildInput) (index : Option Index) : List UInt32 :=
  match index, input.normalizedRcni with
  | some index, some rcni => trimLowRcni index rcni
  | _, _ => []

def adjacencyLists (input : BuildInput) (index : Option Index) (records : List BaseRecord) :
    List (List UInt32) :=
  let trimmed := trimmedNodes input index
  records.mapIdx fun node record =>
    trimmedNeighbors (input.normalizedRcni.getD []) trimmed node record.neighbors

/-- What a build computes before it writes the topology. -/
structure BuildContents where
  metadata : DiskLayoutMetadata
  /-- The adjacency list of each node. -/
  lists : List (List UInt32)
  placed : PlacedVectors
  prefetchPages : List UInt64
  gatewayHints : List GatewayPrefetchHint
  base : Fingerprint
  communityPolar : Fingerprint := {}

structure Artifacts where
  contents : BuildContents
  vectors : List UInt8
  topology : List UInt8

def checkOptions (input : BuildInput) (compress : Option Compress) : Except Error Unit := do
  reject (input.encoding ≠ .rawU32 ∧ input.encoding ≠ .pforDelta)
    (.runtimeError "unsupported IO adjacency encoding")
  reject (input.encoding = .pforDelta ∧ compress.isNone = true)
    (.runtimeError "PForDelta adjacency is unavailable in this build")
  reject (input.layout ≠ .originalId ∧ input.layout.isCell = false)
    (.runtimeError "unsupported IO vector layout")
  reject (input.normalizedRcni.isSome = true ∧ input.layout = .originalId)
    (.runtimeError "low-RCNI Hub-clique trim requires a Cell layout and sidecar")

/-- The vectors of the records, in the order of the ids, and where they are placed. -/
def placeVectors (layout : VectorLayout) (metadata : DiskLayoutMetadata) (index : Option Index)
    (records : List BaseRecord) (lists : List (List UInt32)) : Except Error PlacedVectors := do
  let vectors ← records.mapM (storedVector layout metadata)
  let width := vectorBytes layout metadata
  match index with
  | none => .ok (placeOriginal width vectors)
  | some index =>
    let hasEdge := fun source target => decide (target ∈ lists.getD source.toNat [])
    placeCells index layout hasEdge width vectors

def buildContents (input : BuildInput) (compress : Option Compress) :
    Except Error BuildContents := do
  checkOptions input compress
  let metadata ← readDiskLayoutMetadata input.disk
  let _ ← multiplyChecked metadata.dimension.toNat 4 "source vector bytes"
  let width := vectorBytes input.layout metadata
  reject (width = 0 ∨ kIoVectorPageSize < width)
    (.runtimeError "IO-1 requires one complete vector to fit in a 4-KiB page")
  let _ ← multiplyChecked metadata.pointCount.toNat width "raw-vector spool size"
  let index ← openIndex input metadata
  let records ← metadata.readRecords input.disk
  let lists := adjacencyLists input index records
  let placed ← placeVectors input.layout metadata index records lists
  let gatewayHints ← match index with
    | some index =>
      if input.buildPrefetchHints then
        index.gateways.mapM
          (gatewayHint index (cellTransitions index lists) placed.writer.locations
            placed.cellRanges)
      else .ok []
    | none => .ok []
  .ok
    { metadata
      lists
      placed
      prefetchPages :=
        if input.buildPrefetchHints then
          (List.range metadata.pointCount.toNat).map (prefetchPage lists placed.writer.locations)
        else List.replicate metadata.pointCount.toNat kNoIoPrefetchPage
      gatewayHints
      base := match index with
        | some index => index.baseIndexFingerprint
        | none => fingerprintFile input.disk
      communityPolar := match index with
        | some _ => fingerprintFile input.communityPolar
        | none => {} }

/-- The stored offsets and the bytes of the adjacency section. -/
def encodeAdjacency (encoding : AdjacencyEncoding) (compress : Option Compress)
    (lists : List (List UInt32)) : List UInt64 × List UInt8 :=
  match encoding, compress with
  | .pforDelta, some compress => compress (neighborOffsets lists) lists.flatten
  | _, _ => (neighborOffsets lists, serializeU32 lists.flatten)

def placeSection (offset : Nat) (bytes : List UInt8) : TopologySection :=
  ⟨.ofNat offset, .ofNat bytes.length, checksumBytes bytes⟩

def build (input : BuildInput) (compress : Option Compress) : Except Error Artifacts := do
  let contents ← buildContents input compress
  let writer := contents.placed.writer
  let vectorFileSize ← multiplyChecked writer.pagesWritten kIoVectorPageSize "vector artifact size"
  reject (writer.vectors.length ≠ vectorFileSize)
    (.runtimeError "IO-1 vector artifact size accounting failed")
  let (storedOffsets, adjacencyBytes) := encodeAdjacency input.encoding compress contents.lists
  let offsetBytes := serializeU64 storedOffsets
  let directoryBytes := writer.locations.flatMap locationBytes
  let cellDirectoryBytes := contents.placed.cellRanges.flatMap cellRangeBytes
  let prefetchDirectoryBytes := serializeU64 contents.prefetchPages
  let gatewayDirectoryBytes := contents.gatewayHints.flatMap gatewayHintBytes
  let adjacencyOffset ← addChecked kTopologyHeaderBytes offsetBytes.length
    "adjacency section offset"
  let directoryOffset ← addChecked adjacencyOffset adjacencyBytes.length "directory section offset"
  let cellDirectoryOffset ← addChecked directoryOffset directoryBytes.length
    "Cell directory section offset"
  let prefetchDirectoryOffset ← addChecked cellDirectoryOffset cellDirectoryBytes.length
    "prefetch directory section offset"
  let gatewayDirectoryOffset ← addChecked prefetchDirectoryOffset prefetchDirectoryBytes.length
    "Gateway directory section offset"
  let header : TopologyHeader :=
    { version := if input.layout = .cellU8 then kTopologyVersion else kTopologyVersionV5
      pointCount := contents.metadata.pointCount
      dimension := contents.metadata.dimension
      maxDegree := contents.metadata.maxDegree
      encoding := input.encoding
      layout := input.layout
      edgeCount := .ofNat contents.lists.flatten.length
      vectorPageCount := .ofNat writer.pagesWritten
      cellCount := .ofNat contents.placed.cellRanges.length
      base := contents.base
      vectors := ⟨.ofNat vectorFileSize, writer.vectorChecksum⟩
      offsets := placeSection kTopologyHeaderBytes offsetBytes
      adjacency := placeSection adjacencyOffset adjacencyBytes
      directory := placeSection directoryOffset directoryBytes
      cellDirectory := placeSection cellDirectoryOffset cellDirectoryBytes
      prefetchDirectory := placeSection prefetchDirectoryOffset prefetchDirectoryBytes
      communityPolar := contents.communityPolar
      gatewayCount := .ofNat contents.gatewayHints.length
      gatewayDirectory := placeSection gatewayDirectoryOffset gatewayDirectoryBytes }
  let topology := serializeHeader header ++ offsetBytes ++ adjacencyBytes ++ directoryBytes ++
    cellDirectoryBytes ++ prefetchDirectoryBytes ++ gatewayDirectoryBytes
  let topologySize ← addChecked gatewayDirectoryOffset gatewayDirectoryBytes.length
    "topology artifact size"
  reject (topology.length ≠ topologySize)
    (.runtimeError "IO-1 topology artifact size accounting failed")
  -- A longer file cannot be written.
  reject (fileSizeLimit ≤ writer.vectors.length ∨ fileSizeLimit ≤ topology.length)
    (.runtimeError "failed writing IO-1 topology artifact")
  .ok { contents, vectors := writer.vectors, topology }

def readU32 (description : String) : Reader UInt32 :=
  UInt32.ofNat <$> readWord (.runtimeError ("truncated " ++ description)) 4

def readU64 (description : String) : Reader UInt64 :=
  UInt64.ofNat <$> readWord (.runtimeError ("truncated " ++ description)) 8

/-- A check between two reads. -/
def rejectRead (condition : Prop) [Decidable condition] (message : String) : Reader Unit :=
  if condition then throw (.runtimeError message) else pure ()

def readSection (offset size checksum : String) : Reader TopologySection := do
  let offset ← readU64 offset
  let bytes ← readU64 size
  let checksum ← readU64 checksum
  pure ⟨offset, bytes, checksum⟩

def readFingerprint (size checksum : String) : Reader Fingerprint := do
  let size ← readU64 size
  let checksum ← readU64 checksum
  pure ⟨size, checksum⟩

def readGatewayFields (version : UInt32) : Reader (Fingerprint × UInt64 × TopologySection) := do
  if kTopologyVersionV5 ≤ version then
    let communityPolar ← readFingerprint "Community-Polar size" "Community-Polar checksum"
    let gatewayCount ← readU64 "Gateway hint count"
    let gatewayDirectory ← readSection "Gateway directory offset" "Gateway directory size"
      "Gateway directory checksum"
    pure (communityPolar, gatewayCount, gatewayDirectory)
  else pure ({}, 0, {})

/-- The header of a file of `size` bytes. -/
def readTopologyHeader (size : Nat) : Reader TopologyHeader := do
  let magic ← readU64 "topology magic"
  rejectRead (magic ≠ kTopologyMagic) "invalid IO topology magic"
  let version ← readU32 "topology version"
  rejectRead (version ≠ kTopologyVersionV4 ∧ version ≠ kTopologyVersionV5 ∧
    version ≠ kTopologyVersion) "unsupported IO topology version"
  let endian ← readU32 "byte-order marker"
  rejectRead (endian ≠ kEndianMarker) "invalid IO topology byte-order marker"
  let headerBytes ← readU32 "header size"
  let expected := if version = kTopologyVersionV4 then kTopologyV4HeaderBytes
    else kTopologyHeaderBytes
  rejectRead (headerBytes.toNat ≠ expected ∨ size < headerBytes.toNat)
    "invalid IO topology header or page size"
  let pageSize ← readU32 "vector page size"
  rejectRead (pageSize.toNat ≠ kIoVectorPageSize) "invalid IO topology header or page size"
  let pointCount ← readU64 "point count"
  let dimension ← readU64 "dimension"
  let maxDegree ← readU32 "maximum degree"
  let encoding ← readU32 "adjacency encoding"
  let layout ← readU32 "vector layout"
  let edgeCount ← readU64 "edge count"
  let vectorPageCount ← readU64 "vector page count"
  let cellCount ← readU64 "Cell count"
  let base ← readFingerprint "Base size" "Base checksum"
  let vectors ← readFingerprint "vector size" "vector checksum"
  let offsets ← readSection "offset section offset" "offset section size" "offset checksum"
  let adjacency ← readSection "adjacency section offset" "adjacency section size"
    "adjacency checksum"
  let directory ← readSection "directory section offset" "directory section size"
    "directory checksum"
  let cellDirectory ← readSection "Cell directory offset" "Cell directory size"
    "Cell directory checksum"
  let prefetchDirectory ← readSection "prefetch directory offset" "prefetch directory size"
    "prefetch directory checksum"
  let (communityPolar, gatewayCount, gatewayDirectory) ← readGatewayFields version
  pure
    { version, headerBytes, pointCount, dimension, maxDegree, encoding := .ofRaw encoding
      layout := .ofRaw layout, edgeCount, vectorPageCount, cellCount, base, vectors, offsets
      adjacency, directory, cellDirectory, prefetchDirectory, communityPolar, gatewayCount
      gatewayDirectory }

def parseHeader (file : List UInt8) : Except Error TopologyHeader := do
  reject (file.length < kTopologyV4HeaderBytes) (.runtimeError "truncated IO topology header")
  let (header, rest) ← readTopologyHeader file.length file
  let cursor := file.length - rest.length
  reject (∃ byte ∈ (file.take header.headerBytes.toNat).drop cursor, byte ≠ 0)
    (.runtimeError "IO topology header reserved bytes are nonzero")
  .ok header

/-- Where the adjacency is after loading: in memory, or in the file, to be read page
by page. -/
inductive LoadedAdjacency
  | whole (adjacency : List UInt32)
  | paged (file : List UInt8) (adjacencyFileOffset : Nat)
  deriving DecidableEq

/-- What `load` returns. -/
structure LoadedIndex where
  pointCount : UInt64
  dimension : UInt64
  maxDegree : UInt32
  edgeCount : UInt64
  vectorPageCount : UInt64
  vectorLayout : VectorLayout
  neighborOffsets : List UInt64
  adjacency : LoadedAdjacency
  vectorLocations : List VectorLocation
  cellPageRanges : List CellPageRange
  nodePrefetchPages : List UInt64
  communityPolarFingerprint : Fingerprint
  gatewayPrefetchHints : List GatewayPrefetchHint

def checkPayload (header : TopologyHeader) : Except Error Unit := do
  reject (header.pointCount = 0 ∨ header.dimension = 0 ∨
      header.encoding ≠ .rawU32 ∧ header.encoding ≠ .pforDelta ∨
      header.layout ≠ .originalId ∧ header.layout.isCell = false ∨
      header.layout = .cellU8 ∧ header.version ≠ kTopologyVersion ∨
      header.layout = .originalId ∧ header.cellCount ≠ 0 ∨
      header.layout.isCell = true ∧ header.cellCount = 0)
    (.runtimeError "unsupported or empty IO topology payload")
  reject (header.gatewayCount ≠ 0 ∧ (header.version < kTopologyVersionV5 ∨ header.cellCount = 0 ∨
      header.communityPolar.sizeBytes = 0))
    (.runtimeError "IO Gateway hints require a bound Cell sidecar")

/-- The sections follow one another, and have the sizes that the counts ask for. -/
def checkSections (header : TopologyHeader) (fileSize : Nat) : Except Error Unit := do
  let offsetsCount ← addChecked header.pointCount.toNat 1 "offset count"
  let expectedOffsetsBytes ← multiplyChecked offsetsCount 8 "offset section size"
  let expectedRawAdjacencyBytes ← multiplyChecked header.edgeCount.toNat 4 "adjacency section size"
  let expectedDirectoryBytes ← multiplyChecked header.pointCount.toNat 12 "directory section size"
  let expectedCellDirectoryBytes ← multiplyChecked header.cellCount.toNat 20
    "Cell directory section size"
  let expectedPrefetchDirectoryBytes ← multiplyChecked header.pointCount.toNat 8
    "prefetch directory section size"
  let expectedGatewayDirectoryBytes ← multiplyChecked header.gatewayCount.toNat 64
    "Gateway directory section size"
  let expectedAdjacencyOffset ← addChecked header.offsets.offset.toNat header.offsets.bytes.toNat
    "adjacency section offset"
  let expectedDirectoryOffset ← addChecked header.adjacency.offset.toNat
    header.adjacency.bytes.toNat "directory section offset"
  let expectedCellDirectoryOffset ← addChecked header.directory.offset.toNat
    header.directory.bytes.toNat "Cell directory offset"
  let expectedPrefetchDirectoryOffset ← addChecked header.cellDirectory.offset.toNat
    header.cellDirectory.bytes.toNat "prefetch directory offset"
  let expectedGatewayDirectoryOffset ← addChecked header.prefetchDirectory.offset.toNat
    header.prefetchDirectory.bytes.toNat "Gateway directory offset"
  let expectedFileSize ←
    if header.version = kTopologyVersionV4 then .ok expectedGatewayDirectoryOffset
    else
      addChecked expectedGatewayDirectoryOffset header.gatewayDirectory.bytes.toNat
        "IO topology file size"
  reject (header.offsets.offset.toNat ≠ header.headerBytes.toNat ∨
      header.offsets.bytes.toNat ≠ expectedOffsetsBytes ∨
      header.adjacency.offset.toNat ≠ expectedAdjacencyOffset ∨
      header.encoding = .rawU32 ∧ header.adjacency.bytes.toNat ≠ expectedRawAdjacencyBytes ∨
      header.directory.offset.toNat ≠ expectedDirectoryOffset ∨
      header.directory.bytes.toNat ≠ expectedDirectoryBytes ∨
      header.cellDirectory.offset.toNat ≠ expectedCellDirectoryOffset ∨
      header.cellDirectory.bytes.toNat ≠ expectedCellDirectoryBytes ∨
      header.prefetchDirectory.offset.toNat ≠ expectedPrefetchDirectoryOffset ∨
      header.prefetchDirectory.bytes.toNat ≠ expectedPrefetchDirectoryBytes ∨
      kTopologyVersionV5 ≤ header.version ∧
        (header.gatewayDirectory.offset.toNat ≠ expectedGatewayDirectoryOffset ∨
          header.gatewayDirectory.bytes.toNat ≠ expectedGatewayDirectoryBytes) ∨
      expectedFileSize ≠ fileSize)
    (.runtimeError "invalid IO topology section offsets or file size")

def TopologySection.read (place : TopologySection) (file : List UInt8) : List UInt8 :=
  subspan file place.offset.toNat place.bytes.toNat

def gatewaySection (header : TopologyHeader) (file : List UInt8) : List UInt8 :=
  if header.version < kTopologyVersionV5 then [] else header.gatewayDirectory.read file

/-- Checks the adjacency in the file, and returns its checksum. -/
def validateRawAdjacencyRange (header : TopologyHeader) (file : List UInt8) :
    Except Error UInt64 := do
  let bytes ← multiplyChecked header.edgeCount.toNat 4 "adjacency validation size"
  let adjacency := subspan file header.adjacency.offset.toNat bytes
  reject (adjacency.length < bytes) (.runtimeError "paged topology adjacency is truncated")
  let (targets, _) ← readMany (readU32 "adjacency target") header.edgeCount.toNat adjacency
  reject (∃ target ∈ targets, header.pointCount.toNat ≤ target.toNat)
    (.runtimeError "paged topology adjacency target is out of range")
  .ok (checksumBytes adjacency)

def checkChecksums (header : TopologyHeader) (file : List UInt8) (adjacencyChecksum : UInt64) :
    Except Error Unit :=
  reject (checksumBytes (header.offsets.read file) ≠ header.offsets.checksum ∨
      adjacencyChecksum ≠ header.adjacency.checksum ∨
      checksumBytes (header.directory.read file) ≠ header.directory.checksum ∨
      checksumBytes (header.cellDirectory.read file) ≠ header.cellDirectory.checksum ∨
      checksumBytes (header.prefetchDirectory.read file) ≠ header.prefetchDirectory.checksum ∨
      kTopologyVersionV5 ≤ header.version ∧
        checksumBytes (gatewaySection header file) ≠ header.gatewayDirectory.checksum)
    (.runtimeError "IO topology section checksum mismatch")

/-- The fingerprints of the Base index and, unless only the topology is wanted, of the
vector artifact. -/
def checkFingerprints (header : TopologyHeader) (disk vectors : List UInt8)
    (topologyOnly : Bool) : Except Error Unit := do
  reject (fingerprintFile disk ≠ header.base)
    (.runtimeError "IO topology Base fingerprint mismatch")
  let mismatch : Error := .runtimeError "IO vector artifact fingerprint or size mismatch"
  let vectorFileSize ← multiplyChecked header.vectorPageCount.toNat kIoVectorPageSize
    "vector artifact size"
  reject (header.vectors.sizeBytes.toNat ≠ vectorFileSize) mismatch
  reject (topologyOnly = false ∧ fingerprintFile vectors ≠ header.vectors) mismatch

/-- The lists end at the number of edges and are not too long. -/
def checkNeighborOffsets (header : TopologyHeader) (offsets : List UInt64) :
    Except Error Unit := do
  reject (offsets.getLast? ≠ some header.edgeCount)
    (.runtimeError "IO topology neighbor offsets do not cover adjacency")
  reject (∃ pair ∈ offsets.zip offsets.tail, pair.2 < pair.1 ∨
      header.maxDegree.toNat < pair.2.toNat - pair.1.toNat)
    (.runtimeError "IO topology neighbor offsets are invalid")

def readAdjacency (header : TopologyHeader) (bytes : List UInt8) : Except Error (List UInt32) := do
  let (adjacency, _) ← readMany (readU32 "adjacency target") header.edgeCount.toNat bytes
  reject (∃ target ∈ adjacency, header.pointCount.toNat ≤ target.toNat)
    (.runtimeError "IO topology adjacency target is out of range")
  .ok adjacency

def readLocation : Reader VectorLocation := do
  let pageId ← readU64 "vector page ID"
  let pageOffset ← readU32 "vector page offset"
  pure ⟨pageId, pageOffset⟩

/-- `alignof(float)`. -/
def floatAlignment : Nat := 4

def readLocations (header : TopologyHeader) (bytes : List UInt8) :
    Except Error (List VectorLocation) := do
  let width ←
    if header.layout = .cellU8 then .ok header.dimension.toNat
    else multiplyChecked header.dimension.toNat 4 "vector size"
  let (locations, _) ← readMany readLocation header.pointCount.toNat bytes
  reject (∃ location ∈ locations, header.vectorPageCount ≤ location.pageId ∨
      location.pageOffset.toNat % floatAlignment ≠ 0 ∨
      kIoVectorPageSize < location.pageOffset.toNat ∨
      kIoVectorPageSize - location.pageOffset.toNat < width)
    (.runtimeError "IO vector directory entry is out of range")
  .ok locations

def readCellRange : Reader CellPageRange := do
  let firstPage ← readU64 "Cell first page"
  let pageCount ← readU32 "Cell page count"
  let nodeCount ← readU32 "Cell node count"
  let chunkSizeBytes ← readU32 "Cell Chunk size"
  pure ⟨firstPage, pageCount, nodeCount, chunkSizeBytes⟩

def checkCellRange (header : TopologyHeader) (_ : Nat) (range : CellPageRange)
    (covered : Nat × Nat) : Except Error (Nat × Nat) := do
  let chunk := range.chunkSizeBytes.toNat
  reject (range.firstPage.toNat ≠ covered.1 ∨ header.vectorPageCount ≤ range.firstPage ∨
      range.pageCount = 0 ∨ range.nodeCount = 0 ∨
      header.vectorPageCount.toNat - range.firstPage.toNat < range.pageCount.toNat ∨
      chunk ∉ chunkClasses ∨
      header.layout ≠ .cellChunks ∧ chunk ≠ kIoVectorPageSize ∨
      header.layout = .cellChunks ∧ range.pageCount.toNat % (chunk / kIoVectorPageSize) ≠ 0)
    (.runtimeError "IO Cell page directory is invalid")
  let pages ← addChecked range.firstPage.toNat range.pageCount.toNat "Cell page range"
  let nodes ← addChecked covered.2 range.nodeCount.toNat "Cell node coverage"
  .ok (pages, nodes)

def readCellRanges (header : TopologyHeader) (bytes : List UInt8) :
    Except Error (List CellPageRange) := do
  let (ranges, _) ← readMany readCellRange header.cellCount.toNat bytes
  let covered ← scan (checkCellRange header) 0 ranges (0, 0)
  reject (header.layout.isCell = true ∧ covered ≠
      (header.vectorPageCount.toNat, header.pointCount.toNat))
    (.runtimeError "IO Cell page directory does not cover the vector layout")
  .ok ranges

def readPrefetchPages (header : TopologyHeader) (bytes : List UInt8) :
    Except Error (List UInt64) := do
  let (pages, _) ← readMany (readU64 "node prefetch page") header.pointCount.toNat bytes
  reject (∃ page ∈ pages, page ≠ kNoIoPrefetchPage ∧ header.vectorPageCount ≤ page)
    (.runtimeError "IO node prefetch page is out of range")
  .ok pages

def readGatewayHint : Reader GatewayPrefetchHint := do
  let targetNode ← readU32 "Gateway target node"
  let landingCell ← readU32 "Gateway landing Cell"
  let firstCell ← readU32 "successor Cell"
  let secondCell ← readU32 "successor Cell"
  let landingNodePage ← readU64 "landing-node page"
  let landingCellFirstPage ← readU64 "landing-Cell first page"
  let firstPage ← readU64 "successor first page"
  let secondPage ← readU64 "successor first page"
  let firstCount ← readU32 "transition count"
  let secondCount ← readU32 "transition count"
  let outgoingTransitionCount ← readU32 "outgoing transition count"
  let reserved ← readU32 "reserved field"
  pure ⟨targetNode, landingCell, (firstCell, secondCell), landingNodePage, landingCellFirstPage,
    (firstPage, secondPage), (firstCount, secondCount), outgoingTransitionCount, reserved⟩

def checkSuccessor (header : TopologyHeader) (ranges : List CellPageRange) (cell : UInt32)
    (firstPage : UInt64) (count : UInt32) : Except Error Unit :=
  let absent := cell = 2 ^ 32 - 1
  reject ((absent ↔ ¬ firstPage = kNoIoPrefetchPage) ∨
      ¬ absent ∧ (header.cellCount.toNat ≤ cell.toNat ∨ header.vectorPageCount ≤ firstPage ∨
        ranges[cell.toNat]?.map CellPageRange.firstPage ≠ some firstPage ∨ count = 0))
    (.runtimeError "IO Gateway successor hint is invalid")

def checkGatewayHint (header : TopologyHeader) (locations : List VectorLocation)
    (ranges : List CellPageRange) (hint : GatewayPrefetchHint) : Except Error Unit := do
  reject (header.pointCount.toNat ≤ hint.targetNode.toNat ∨
      header.cellCount.toNat ≤ hint.landingCell.toNat ∨
      header.vectorPageCount ≤ hint.landingNodePage ∨
      header.vectorPageCount ≤ hint.landingCellFirstPage ∨ hint.reserved ≠ 0)
    (.runtimeError "IO Gateway prefetch hint is out of range")
  let range ← element .outOfBounds ranges hint.landingCell.toNat
  let location ← element .outOfBounds locations hint.targetNode.toNat
  reject (hint.landingNodePage ≠ location.pageId ∨
      hint.landingCellFirstPage ≠ range.firstPage ∨ hint.landingNodePage < range.firstPage ∨
      range.firstPage.toNat + range.pageCount.toNat ≤ hint.landingNodePage.toNat ∨
      hint.outgoingTransitionCount < hint.transitionCounts.1 ∨
      hint.outgoingTransitionCount < hint.transitionCounts.2)
    (.runtimeError "IO Gateway landing-page hint is inconsistent")
  checkSuccessor header ranges hint.successorCells.1 hint.successorFirstPages.1
    hint.transitionCounts.1
  checkSuccessor header ranges hint.successorCells.2 hint.successorFirstPages.2
    hint.transitionCounts.2

def readGatewayHints (header : TopologyHeader) (locations : List VectorLocation)
    (ranges : List CellPageRange) (bytes : List UInt8) :
    Except Error (List GatewayPrefetchHint) := do
  let (hints, _) ← readMany readGatewayHint header.gatewayCount.toNat bytes
  let _ ← hints.mapM (checkGatewayHint header locations ranges)
  .ok hints

/-- The header, of which the paged mode reads no more than it needs. -/
def loadHeader (topology : List UInt8) (paged : Bool) (cachePages : Nat) :
    Except Error TopologyHeader := do
  let header ←
    if paged then do
      reject (topology.length < kTopologyHeaderBytes)
        (.runtimeError "failed to read artifact section")
      parseHeader (topology.take kTopologyHeaderBytes)
    else parseHeader topology
  reject (paged = true ∧ (cachePages = 0 ∨ header.encoding ≠ .rawU32))
    (.runtimeError "paged topology requires a positive cache and raw uint32 adjacency")
  reject (paged = false ∧ cachePages ≠ 0)
    (.runtimeError "topology cache capacity requires paged topology")
  .ok header

def load (disk topology vectors : List UInt8) (topologyOnly paged : Bool) (cachePages : Nat) :
    Except Error LoadedIndex := do
  let header ← loadHeader topology paged cachePages
  checkPayload header
  checkSections header topology.length
  let adjacencyChecksum ←
    if paged then validateRawAdjacencyRange header topology
    else .ok (checksumBytes (header.adjacency.read topology))
  checkChecksums header topology adjacencyChecksum
  checkFingerprints header disk vectors topologyOnly
  let (offsets, _) ← readMany (readU64 "neighbor offset") (header.pointCount.toNat + 1)
    (header.offsets.read topology)
  reject (offsets.head? ≠ some 0)
    (.runtimeError "IO topology neighbor offsets do not start at zero")
  reject (header.encoding ≠ .rawU32) (.runtimeError "PForDelta topology is unavailable in this build")
  checkNeighborOffsets header offsets
  let adjacency ←
    if paged then .ok (.paged topology header.adjacency.offset.toNat)
    else .whole <$> readAdjacency header (header.adjacency.read topology)
  let locations ← readLocations header (header.directory.read topology)
  let ranges ← readCellRanges header (header.cellDirectory.read topology)
  let prefetchPages ← readPrefetchPages header (header.prefetchDirectory.read topology)
  let hints ← readGatewayHints header locations ranges (gatewaySection header topology)
  .ok
    { pointCount := header.pointCount
      dimension := header.dimension
      maxDegree := header.maxDegree
      edgeCount := header.edgeCount
      vectorPageCount := header.vectorPageCount
      vectorLayout := header.layout
      neighborOffsets := offsets
      adjacency
      vectorLocations := locations
      cellPageRanges := ranges
      nodePrefetchPages := prefetchPages
      communityPolarFingerprint := header.communityPolar
      gatewayPrefetchHints := hints }

def copyPaged (file : List UInt8) (absolute remaining : Nat) : Except Error (List UInt8) :=
  if remaining = 0 then .ok []
  else do
    let page := absolute / kIoVectorPageSize
    let pageOffset := absolute % kIoVectorPageSize
    let count := min remaining (kIoVectorPageSize - pageOffset)
    reject (file.length < (page + 1) * kIoVectorPageSize)
      (.runtimeError "paged topology read failed or was truncated")
    let rest ← copyPaged file (absolute + count) (remaining - count)
    .ok (subspan (subspan file (page * kIoVectorPageSize) kIoVectorPageSize) pageOffset count ++
      rest)
termination_by remaining
decreasing_by
  have hoffset : absolute % kIoVectorPageSize < kIoVectorPageSize := Nat.mod_lt _ (by decide)
  omega

namespace LoadedIndex

variable (index : LoadedIndex)

def neighbors (node : Nat) : Except Error (List UInt32) := do
  let first ← element .outOfBounds index.neighborOffsets node
  let last ← element .outOfBounds index.neighborOffsets (node + 1)
  let degree := last.toNat - first.toNat
  match index.adjacency with
  | .whole adjacency => .ok (subspan adjacency first.toNat degree)
  | .paged file adjacencyFileOffset => do
    let bytes ← copyPaged file (adjacencyFileOffset + first.toNat * 4) (degree * 4)
    let (targets, _) ← readMany (readU32 "adjacency target") degree bytes
    .ok targets

def vectorLocation (node : Nat) : Option VectorLocation := index.vectorLocations[node]?

def nodePrefetchPage (node : Nat) : Option UInt64 := index.nodePrefetchPages[node]?

def gatewayPrefetchHint (gateway : Nat) : Option GatewayPrefetchHint :=
  index.gatewayPrefetchHints[gateway]?

end LoadedIndex

end SkipCell.IoIndex

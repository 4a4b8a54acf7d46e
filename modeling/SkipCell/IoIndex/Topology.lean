import SkipCell.IoIndex.VectorPages

/-! # The topology artifact

The adjacency lists of the Base index, trimmed where a ranking of the nodes is given,
and what the build derives from them and the vector pages: a page to fetch ahead for
every node, and for every Gateway the pages behind its landing Cell.
-/

namespace SkipCell.IoIndex

open Foundation Sidecar

/-- `std::tie(rcni[left], left) < std::tie(rcni[right], right)`. -/
def rcniLess (rcni : List Double) (left right : UInt32) : Bool :=
  match rcni[left.toNat]?, rcni[right.toNat]? with
  | some leftScore, some rightScore =>
    leftScore < rightScore || !decide (rightScore < leftScore) && left < right
  | _, _ => false

/-- The nodes of the lower half of each Community. -/
def trimLowRcni (index : Index) (rcni : List Double) : List UInt32 :=
  (List.range index.communities.length).flatMap fun community =>
    let members := (List.range index.pointCount.toNat).map UInt32.ofNat |>.filter fun node =>
      index.nodeToCommunity[node.toNat]?.map UInt32.toNat = some community
    let ordered := members.mergeSort fun left right => !rcniLess rcni right left
    ordered.take (members.length / 2)

def removedNeighbor (rcni : List Double) : List UInt32 → Nat
  | [] => 0
  | first :: neighbors =>
    (neighbors.zipIdx 1).foldl (fun (removed : Nat × UInt32) (target, position) =>
      if rcniLess rcni target removed.2 then (position, target) else removed) (0, first) |>.1

/-- The adjacency list that the artifact has for a record. -/
def trimmedNeighbors (rcni : List Double) (trimmed : List UInt32) (node : Nat)
    (neighbors : List UInt32) : List UInt32 :=
  if UInt32.ofNat node ∈ trimmed ∧ neighbors ≠ [] then
    neighbors.eraseIdx (removedNeighbor rcni neighbors)
  else neighbors

/-- Where the list of each node begins, and where the last ends. -/
def neighborOffsets (lists : List (List UInt32)) : List UInt64 :=
  (lists.scanl (fun offset list => offset + list.length) 0).map .ofNat

def kNoIoPrefetchPage : UInt64 := 2 ^ 64 - 1

def countPage : List (UInt64 × Nat) → UInt64 → List (UInt64 × Nat)
  | [], page => [(page, 1)]
  | (found, count) :: counts, page =>
    if found = page then (found, count + 1) :: counts
    else (found, count) :: countPage counts page

/-- `std::max_element` by the count, and by the smaller page among equal counts. -/
def mostFrequent : List (UInt64 × Nat) → UInt64
  | [] => kNoIoPrefetchPage
  | first :: counts =>
    (counts.foldl (fun best entry =>
      if best.2 < entry.2 ∨ best.2 = entry.2 ∧ entry.1 < best.1 then entry else best) first).1

def pageOf (locations : List VectorLocation) (node : Nat) : Option UInt64 :=
  locations[node]?.map VectorLocation.pageId

/-- The page, other than its own, that most of the nodes two steps away are on. -/
def prefetchPage (lists : List (List UInt32)) (locations : List VectorLocation) (node : Nat) :
    UInt64 :=
  let direct := (lists.getD node []).take 8
  let second := direct.flatMap fun middle => (lists.getD middle.toNat []).take 8
  let pages := second.filterMap fun target => pageOf locations target.toNat
  let others := pages.filter fun page => pageOf locations node ≠ some page
  mostFrequent (others.foldl countPage [])

/-- `io_gateway_prefetch_hint_t`. -/
structure GatewayPrefetchHint where
  targetNode : UInt32 := 0
  landingCell : UInt32 := 0
  successorCells : UInt32 × UInt32 := (2 ^ 32 - 1, 2 ^ 32 - 1)
  landingNodePage : UInt64 := kNoIoPrefetchPage
  landingCellFirstPage : UInt64 := kNoIoPrefetchPage
  successorFirstPages : UInt64 × UInt64 := (kNoIoPrefetchPage, kNoIoPrefetchPage)
  transitionCounts : UInt32 × UInt32 := (0, 0)
  outgoingTransitionCount : UInt32 := 0
  reserved : UInt32 := 0
  deriving DecidableEq

/-- The Cells at the two ends of every edge between Cells. -/
def cellTransitions (index : Index) (lists : List (List UInt32)) : List (UInt32 × UInt32) :=
  lists.zipIdx.flatMap fun (neighbors, node) =>
    neighbors.filterMap fun target =>
      match index.nodeToCell[node]?, cellOf index target with
      | some sourceCell, some targetCell =>
        if sourceCell = targetCell then none else some (sourceCell, targetCell)
      | _, _ => none

/-- A counter of 32 bits that stops at its largest value. -/
def saturate (count : Nat) : UInt32 := .ofNat (min count (2 ^ 32 - 1))

/-- The Cells that edges lead to from a Cell, the most frequent first, with their counts. -/
def successors (transitions : List (UInt32 × UInt32)) (cell : UInt32) : List (UInt32 × UInt32) :=
  let targets := (transitions.filter (·.1 = cell)).map Prod.snd
  let counted := targets.dedup.map fun target => (target, saturate (targets.count target))
  counted.mergeSort fun left right =>
    decide (right.2 < left.2 ∨ left.2 = right.2 ∧ left.1 ≤ right.1)

def firstPageOf (ranges : List CellPageRange) (cell : UInt32) : UInt64 :=
  if cell = 2 ^ 32 - 1 then kNoIoPrefetchPage
  else match ranges[cell.toNat]? with
    | some range => range.firstPage
    | none => kNoIoPrefetchPage

/-- `transition_summary_t`, as it is written to the hint of a Gateway. -/
def gatewayHint (index : Index) (transitions : List (UInt32 × UInt32))
    (locations : List VectorLocation) (ranges : List CellPageRange) (gateway : Gateway) :
    Except Error GatewayPrefetchHint := do
  let landingCell ← element .outOfBounds index.nodeToCell gateway.targetNode.toNat
  let location ← element .outOfBounds locations gateway.targetNode.toNat
  let range ← element .outOfBounds ranges landingCell.toNat
  let counted := successors transitions landingCell
  let first := counted.getD 0 (2 ^ 32 - 1, 0)
  let second := counted.getD 1 (2 ^ 32 - 1, 0)
  .ok
    { targetNode := gateway.targetNode
      landingCell
      successorCells := (first.1, second.1)
      landingNodePage := location.pageId
      landingCellFirstPage := range.firstPage
      successorFirstPages := (firstPageOf ranges first.1, firstPageOf ranges second.1)
      transitionCounts := (first.2, second.2)
      outgoingTransitionCount := saturate (counted.map fun entry => entry.2.toNat).sum }

def serializeU64 (values : List UInt64) : List UInt8 := values.flatMap appendU64Le

def serializeU32 (values : List UInt32) : List UInt8 := values.flatMap appendU32Le

def locationBytes (location : VectorLocation) : List UInt8 :=
  [appendU64Le location.pageId, appendU32Le location.pageOffset].flatten

def cellRangeBytes (range : CellPageRange) : List UInt8 :=
  [appendU64Le range.firstPage,
    appendU32Le range.pageCount,
    appendU32Le range.nodeCount,
    appendU32Le range.chunkSizeBytes].flatten

def gatewayHintBytes (hint : GatewayPrefetchHint) : List UInt8 :=
  [appendU32Le hint.targetNode,
    appendU32Le hint.landingCell,
    appendU32Le hint.successorCells.1,
    appendU32Le hint.successorCells.2,
    appendU64Le hint.landingNodePage,
    appendU64Le hint.landingCellFirstPage,
    appendU64Le hint.successorFirstPages.1,
    appendU64Le hint.successorFirstPages.2,
    appendU32Le hint.transitionCounts.1,
    appendU32Le hint.transitionCounts.2,
    appendU32Le hint.outgoingTransitionCount,
    appendU32Le hint.reserved].flatten

/-- `io_adjacency_encoding_t`. -/
inductive AdjacencyEncoding
  | rawU32
  | pforDelta
  | other (raw : UInt32)
  deriving DecidableEq

namespace AdjacencyEncoding

def toRaw : AdjacencyEncoding → UInt32
  | rawU32 => 0
  | pforDelta => 1
  | other raw => raw

def ofRaw (raw : UInt32) : AdjacencyEncoding :=
  if raw = 0 then rawU32 else if raw = 1 then pforDelta else other raw

end AdjacencyEncoding

def kTopologyMagic : UInt64 := 0x31504F544F494C50

def kTopologyVersionV4 : UInt32 := 4

def kTopologyVersionV5 : UInt32 := 5

def kTopologyVersion : UInt32 := 6

def kTopologyV4HeaderBytes : Nat := 256

def kTopologyHeaderBytes : Nat := 320

/-- The place of a section in the artifact, and its checksum. -/
structure TopologySection where
  offset : UInt64 := 0
  bytes : UInt64 := 0
  checksum : UInt64 := 0
  deriving DecidableEq

/-- `topology_header_t`. -/
structure TopologyHeader where
  version : UInt32 := kTopologyVersion
  headerBytes : UInt32 := .ofNat kTopologyHeaderBytes
  pointCount : UInt64
  dimension : UInt64
  maxDegree : UInt32
  encoding : AdjacencyEncoding
  layout : VectorLayout
  edgeCount : UInt64
  vectorPageCount : UInt64
  cellCount : UInt64
  base : Fingerprint
  vectors : Fingerprint
  offsets : TopologySection
  adjacency : TopologySection
  directory : TopologySection
  cellDirectory : TopologySection
  prefetchDirectory : TopologySection
  communityPolar : Fingerprint := {}
  gatewayCount : UInt64 := 0
  gatewayDirectory : TopologySection := {}
  deriving DecidableEq

def sectionFields (place : TopologySection) : List UInt8 :=
  [appendU64Le place.offset, appendU64Le place.bytes, appendU64Le place.checksum].flatten

def fingerprintFields (fingerprint : Fingerprint) : List UInt8 :=
  [appendU64Le fingerprint.sizeBytes, appendU64Le fingerprint.fnv1aHash].flatten

/-- The fields of the header. Whatever version it names, the size is that of the
versions with Gateway hints. -/
def headerFields (header : TopologyHeader) : List UInt8 :=
  [appendU64Le kTopologyMagic,
    appendU32Le header.version,
    appendU32Le kEndianMarker,
    appendU32Le (.ofNat kTopologyHeaderBytes),
    appendU32Le (.ofNat kIoVectorPageSize),
    appendU64Le header.pointCount,
    appendU64Le header.dimension,
    appendU32Le header.maxDegree,
    appendU32Le header.encoding.toRaw,
    appendU32Le header.layout.toRaw,
    appendU64Le header.edgeCount,
    appendU64Le header.vectorPageCount,
    appendU64Le header.cellCount,
    fingerprintFields header.base,
    fingerprintFields header.vectors,
    sectionFields header.offsets,
    sectionFields header.adjacency,
    sectionFields header.directory,
    sectionFields header.cellDirectory,
    sectionFields header.prefetchDirectory,
    fingerprintFields header.communityPolar,
    appendU64Le header.gatewayCount,
    sectionFields header.gatewayDirectory].flatten

def serializeHeader (header : TopologyHeader) : List UInt8 :=
  let fields := headerFields header
  fields ++ List.replicate (kTopologyHeaderBytes - fields.length) 0

def checksumBytes (bytes : List UInt8) : UInt64 := fnvBytes fnvOffsetBasis bytes

def fingerprintFile (file : List UInt8) : Fingerprint :=
  ⟨.ofNat file.length, checksumBytes file⟩

end SkipCell.IoIndex

import SkipCell.IoIndex.BaseDisk

/-! # The vector artifact

Vectors are placed in pages of 4 KiB, none across a page boundary: in the order of
their ids, or Cell by Cell so that every Cell begins a page of its own. A Cell may be
padded to whole chunks, or its nodes reordered so that neighbors share pages.
-/

namespace SkipCell.IoIndex

open Foundation Sidecar

def kIoVectorPageSize : Nat := 4096

/-- `io_vector_layout_t`. -/
inductive VectorLayout
  | originalId
  | cell4k
  | cellChunks
  | cellWeighted4k
  | cellU8
  | other (raw : UInt32)
  deriving DecidableEq

namespace VectorLayout

def toRaw : VectorLayout → UInt32
  | originalId => 0
  | cell4k => 1
  | cellChunks => 2
  | cellWeighted4k => 3
  | cellU8 => 4
  | other raw => raw

def ofRaw (raw : UInt32) : VectorLayout :=
  if raw = 0 then originalId
  else if raw = 1 then cell4k
  else if raw = 2 then cellChunks
  else if raw = 3 then cellWeighted4k
  else if raw = 4 then cellU8
  else other raw

def isCell (layout : VectorLayout) : Bool :=
  layout = cell4k || layout = cellChunks || layout = cellWeighted4k || layout = cellU8

end VectorLayout

/-- `io_vector_location_t`. -/
structure VectorLocation where
  pageId : UInt64 := 0
  pageOffset : UInt32 := 0
  deriving DecidableEq

/-- `io_cell_page_range_t`. -/
structure CellPageRange where
  firstPage : UInt64 := 0
  pageCount : UInt32 := 0
  nodeCount : UInt32 := 0
  chunkSizeBytes : UInt32 := .ofNat kIoVectorPageSize
  deriving DecidableEq

def integralByte (value : Single) : Option UInt8 :=
  let number := FloatFormat.single.toRat value.bits.toNat
  if value.isFinite = true ∧ 0 ≤ number ∧ number ≤ 255 ∧ number.den = 1 then
    some (.ofNat number.num.toNat)
  else none

/-- The coordinates of a vector as the Cell-u8 layout stores them. -/
def convertU8 : Nat → List UInt8 → Except Error (List UInt8)
  | 0, _ => .ok []
  | dimension + 1, bytes =>
    match integralByte ⟨.ofNat (decodeLittle (bytes.take 4))⟩ with
    | none => .error
        (.runtimeError "Cell-u8 layout requires integral Base coordinates in [0, 255]")
    | some byte => do
      let converted ← convertU8 dimension (bytes.drop 4)
      .ok (byte :: converted)

def storedVector (layout : VectorLayout) (metadata : DiskLayoutMetadata) (record : BaseRecord) :
    Except Error (List UInt8) :=
  if layout = .cellU8 then convertU8 metadata.dimension.toNat record.vector
  else .ok record.vector

def vectorBytes (layout : VectorLayout) (metadata : DiskLayoutMetadata) : Nat :=
  if layout = .cellU8 then metadata.dimension.toNat else metadata.sourceVectorBytes

/-- The output of the build: the page that is being filled and the pages behind it. -/
structure PageWriter where
  vectors : List UInt8 := []
  outputPage : List UInt8 := List.replicate kIoVectorPageSize 0
  outputSlot : Nat := 0
  pagesWritten : Nat := 0
  vectorChecksum : UInt64 := fnvOffsetBasis
  locations : List VectorLocation

namespace PageWriter

def writePage (writer : PageWriter) : PageWriter :=
  { writer with
    vectors := writer.vectors ++ writer.outputPage
    vectorChecksum := fnvBytes writer.vectorChecksum writer.outputPage
    pagesWritten := writer.pagesWritten + 1 }

def flushPage (writer : PageWriter) : PageWriter :=
  if writer.outputSlot = 0 then writer
  else
    { writer.writePage with
      outputPage := List.replicate kIoVectorPageSize 0
      outputSlot := 0 }

def appendPaddingPage (writer : PageWriter) : Except Error PageWriter :=
  if writer.outputSlot ≠ 0 then
    .error (.runtimeError "cannot append Chunk padding into a partial vector page")
  else .ok writer.writePage

/-- Appends padding pages until there are `count` more. -/
def appendPadding : Nat → PageWriter → Except Error PageWriter
  | 0, writer => .ok writer
  | count + 1, writer => do
    let writer ← writer.appendPaddingPage
    appendPadding count writer

def appendVector (vectorBytes vectorsPerPage : Nat) (writer : PageWriter) (nodeId : Nat)
    (vector : List UInt8) : PageWriter :=
  let outputOffset := writer.outputSlot * vectorBytes
  let placed :=
    { writer with
      locations := writer.locations.set nodeId ⟨.ofNat writer.pagesWritten, .ofNat outputOffset⟩
      outputPage := patch writer.outputPage outputOffset vector
      outputSlot := writer.outputSlot + 1 }
  if placed.outputSlot = vectorsPerPage then placed.flushPage else placed

end PageWriter

def placementOrder (index : Index) (pointCount : Nat) : Except Error (List UInt32) := do
  let unset : UInt32 := 2 ^ 32 - 1
  let order ← scan (fun node packet order => do
      reject (pointCount ≤ packet.toNat ∨ order[packet.toNat]? ≠ some unset)
        (.runtimeError "Community-Polar packet order is not a complete permutation")
      .ok (order.set packet.toNat (.ofNat node)))
    0 index.nodeToPacketRecord (List.replicate pointCount unset)
  reject (unset ∈ order)
    (.runtimeError "Community-Polar packet order does not cover every Base node")
  .ok order

def cellOf (index : Index) (node : UInt32) : Option UInt32 := index.nodeToCell[node.toNat]?

/-- How often the candidate and the nodes of the last page are neighbors. An edge in
both directions counts four times. -/
def affinity (hasEdge : UInt32 → UInt32 → Bool) (context : List UInt32) (candidate : UInt32) :
    Nat :=
  (context.map fun placed =>
    let forward := hasEdge placed candidate
    let reverse := hasEdge candidate placed
    forward.toNat + reverse.toNat + (forward && reverse).toNat * 2).sum

/-- The candidate with the highest score, and among these the least. -/
def bestCandidate (score : UInt32 → Nat) (candidates : List UInt32) (first : UInt32) : UInt32 :=
  (candidates.foldl (fun (best, bestScore) candidate =>
    if bestScore < score candidate ∨ score candidate = bestScore ∧ candidate < best then
      (candidate, score candidate)
    else (best, bestScore)) (first, 0)).1

/-- Places one remaining node after the other. -/
def orderRemaining (hasEdge : UInt32 → UInt32 → Bool) (vectorsPerPage : Nat) :
    Nat → List UInt32 → List UInt32 → List UInt32
  | count + 1, first :: remaining, ordered =>
    let context := ordered.drop (ordered.length - vectorsPerPage)
    let best := bestCandidate (affinity hasEdge context) (first :: remaining) first
    orderRemaining hasEdge vectorsPerPage count ((first :: remaining).erase best)
      (ordered ++ [best])
  | _, _, ordered => ordered

def orderCell (hasEdge : UInt32 → UInt32 → Bool) (vectorsPerPage : Nat) (nodes : List UInt32) :
    List UInt32 :=
  let remaining := nodes.mergeSort fun left right => decide (left ≤ right)
  orderRemaining hasEdge vectorsPerPage remaining.length remaining []

def weightedOrder (index : Index) (hasEdge : UInt32 → UInt32 → Bool) (vectorsPerPage : Nat)
    (order : List UInt32) : List UInt32 :=
  (order.splitBy fun left right => cellOf index left == cellOf index right).flatMap
    (orderCell hasEdge vectorsPerPage)

def chunkClasses : List Nat := [4096, 65536, 524288, 2097152]

/-- The least class that holds the Cell, or the last. -/
def chunkBytes : List Nat → Nat → Nat
  | [], _ => kIoVectorPageSize
  | [last], _ => last
  | size :: next :: sizes, cellVectorBytes =>
    if size < cellVectorBytes then chunkBytes (next :: sizes) cellVectorBytes else size

structure Placement where
  writer : PageWriter
  /-- The nodes behind `placement_cursor`. -/
  remaining : List UInt32
  cellRanges : List CellPageRange := []

/-- Reads a vector back from the spool and appends it. -/
def placeNode (spool : List UInt8) (vectorBytes vectorsPerPage : Nat) (writer : PageWriter)
    (node : UInt32) : Except Error PageWriter := do
  let sourceOffset := node.toNat * vectorBytes
  reject (spool.length < sourceOffset + vectorBytes)
    (.runtimeError "failed reading bounded raw-vector spool")
  .ok (writer.appendVector vectorBytes vectorsPerPage node.toNat
    (subspan spool sourceOffset vectorBytes))

def placeCell (index : Index) (layout : VectorLayout) (spool : List UInt8)
    (vectorBytes vectorsPerPage cellId : Nat) (cell : Cell) (placement : Placement) :
    Except Error Placement := do
  let firstPage := placement.writer.pagesWritten
  let cellVectorBytes ← multiplyChecked cell.nodeCount.toNat vectorBytes "Cell vector bytes"
  let chunkSize :=
    if layout = .cellChunks then chunkBytes chunkClasses cellVectorBytes else kIoVectorPageSize
  let inCell := fun node => (cellOf index node).map UInt32.toNat = some cellId
  let nodes := placement.remaining.takeWhile (inCell ·)
  let writer ← nodes.foldlM (placeNode spool vectorBytes vectorsPerPage) placement.writer
  let writer := writer.flushPage
  let usefulPages := writer.pagesWritten - firstPage
  let writer ←
    if layout = .cellChunks then do
      let pagesPerChunk := chunkSize / kIoVectorPageSize
      let chunks := (usefulPages + pagesPerChunk - 1) / pagesPerChunk
      let allocatedPages ← multiplyChecked chunks pagesPerChunk "Cell Chunk pages"
      PageWriter.appendPadding (allocatedPages - usefulPages) writer
    else .ok writer
  let pageCount := writer.pagesWritten - firstPage
  reject (nodes.length % 2 ^ 32 ≠ cell.nodeCount.toNat ∨ pageCount = 0 ∨ 2 ^ 32 ≤ pageCount)
    (.runtimeError "IO-2 Cell placement does not cover its declared nodes")
  .ok
    { writer
      remaining := placement.remaining.dropWhile (inCell ·)
      cellRanges := placement.cellRanges ++
        [⟨.ofNat firstPage, .ofNat pageCount, .ofNat nodes.length, .ofNat chunkSize⟩] }

structure PlacedVectors where
  writer : PageWriter
  cellRanges : List CellPageRange
  /-- The nodes in the order of their slots. -/
  order : List UInt32

/-- The vector artifact of a Cell layout. -/
def placeCells (index : Index) (layout : VectorLayout) (hasEdge : UInt32 → UInt32 → Bool)
    (vectorBytes : Nat) (vectors : List (List UInt8)) : Except Error PlacedVectors := do
  let vectorsPerPage := kIoVectorPageSize / vectorBytes
  let order ← placementOrder index vectors.length
  let spool := vectors.flatten
  let spoolBytes ← multiplyChecked vectors.length vectorBytes "raw-vector spool size"
  reject (spool.length ≠ spoolBytes) (.runtimeError "raw-vector spool size accounting failed")
  let order :=
    if layout = .cellWeighted4k then weightedOrder index hasEdge vectorsPerPage order else order
  let placement ← scan (placeCell index layout spool vectorBytes vectorsPerPage) 0 index.cells
    { writer := { locations := List.replicate vectors.length {} }, remaining := order }
  reject (placement.remaining ≠ [])
    (.runtimeError "IO-2 Cell placement does not cover all nodes")
  .ok ⟨placement.writer, placement.cellRanges, order⟩

/-- The vector artifact of the layout by id. -/
def placeOriginal (vectorBytes : Nat) (vectors : List (List UInt8)) : PlacedVectors :=
  let vectorsPerPage := kIoVectorPageSize / vectorBytes
  let writer := vectors.zipIdx.foldl (fun writer (vector, node) =>
      PageWriter.appendVector vectorBytes vectorsPerPage writer node vector)
    { locations := List.replicate vectors.length {} }
  ⟨writer.flushPage, [], (List.range vectors.length).map .ofNat⟩

end SkipCell.IoIndex

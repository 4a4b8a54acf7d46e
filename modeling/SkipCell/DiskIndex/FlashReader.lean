import SkipCell.DiskIndex.Layout

/-! # Reading nodes from the disk index

`load` checks the metadata against the shapes that the PQ files give, and `readNodes` reads
the sectors of nodes: the layout without an IO topology.
-/

namespace SkipCell.DiskIndex

open Foundation IoIndex

def maxGraphDegree : Nat := 512

/-- The fields of the metadata sector up to `reorderExists`, which both readers read. -/
structure DiskMetadata where
  rows : Nat
  columns : Nat
  points : Nat
  dimensions : Nat
  medoid : Nat
  maxNodeLen : Nat
  nodesPerSector : Nat
  frozenPoints : Nat
  frozenLocation : Nat
  reorderExists : Nat

def readMetadata {Failure : Type} (truncated : Failure) : ByteReader Failure DiskMetadata := do
  let rows ← readWord truncated 4
  let columns ← readWord truncated 4
  let points ← readWord truncated 8
  let dimensions ← readWord truncated 8
  let medoid ← readWord truncated 8
  let maxNodeLen ← readWord truncated 8
  let nodesPerSector ← readWord truncated 8
  let frozenPoints ← readWord truncated 8
  let frozenLocation ← readWord truncated 8
  let reorderExists ← readWord truncated 8
  pure ⟨rows, columns, points, dimensions, medoid, maxNodeLen, nodesPerSector, frozenPoints,
    frozenLocation, reorderExists⟩

/-- What the PQ files say: the compressed vectors, the pivots, and the pivots of the disk PQ
where that file exists. -/
structure PqShape where
  numPoints : Nat
  dataDim : Nat
  diskPqNumChunks : Option Nat

namespace PqShape

variable (shape : PqShape)

def diskBytesPerPoint : Nat :=
  match shape.diskPqNumChunks with
  | some chunks => chunks
  | none => shape.dataDim * 4

def expectedDiskDimensions : Nat := shape.diskPqNumChunks.getD shape.dataDim

end PqShape

/-- The members of the source that `load` sets from the metadata. -/
structure FlashIndex where
  diskBytesPerPoint : Nat
  maxNodeLen : Nat
  nodesPerSector : Nat
  maxDegree : Nat
  numFrozenPoints : Nat
  frozenLocation : Nat
  medoid : Nat
  deriving DecidableEq

def truncatedMetadata : Error := .diskannException "Truncated disk index metadata"

/-- What follows where reorder data exists. -/
def checkReorder (shape : PqShape) (metadata : DiskMetadata) (rest : List UInt8) :
    Except Error Unit :=
  if metadata.reorderExists ≠ 0 then do
    reject (shape.diskPqNumChunks = none)
      (.diskannException "Reorder data requires a disk-PQ index")
    let (_, rest) ← readWord truncatedMetadata 8 rest
    let (dimensions, rest) ← readWord truncatedMetadata 8 rest
    let (vectorsPerSector, _) ← readWord truncatedMetadata 8 rest
    reject (dimensions ≠ shape.dataDim ∨ vectorsPerSector = 0)
      (.diskannException "Invalid reorder metadata")
  else .ok ()

def load (shape : PqShape) (disk : List UInt8) : Except Error FlashIndex := do
  let (metadata, rest) ← readMetadata truncatedMetadata disk
  reject (metadata.columns ≠ 1 ∨ metadata.rows < 9 ∨ metadata.points ≠ shape.numPoints)
    (.diskannException "Disk index metadata does not match compressed vectors")
  reject (metadata.dimensions ≠ shape.expectedDiskDimensions ∨ 2 ^ 32 ≤ shape.numPoints ∨
      shape.numPoints ≤ metadata.medoid)
    (.diskannException "Disk index dimensions or identifier range are invalid")
  reject (metadata.maxNodeLen ≤ shape.diskBytesPerPoint + 4)
    (.diskannException "Invalid disk node length")
  let maxDegree := (metadata.maxNodeLen - shape.diskBytesPerPoint) / 4 - 1
  reject (maxGraphDegree < maxDegree)
    (.diskannException "Disk index degree exceeds supported maximum")
  checkReorder shape metadata rest
  .ok
    { diskBytesPerPoint := shape.diskBytesPerPoint
      maxNodeLen := metadata.maxNodeLen
      nodesPerSector := metadata.nodesPerSector
      maxDegree
      numFrozenPoints := metadata.frozenPoints
      frozenLocation := if metadata.frozenPoints = 1 then metadata.frozenLocation else 0
      medoid := metadata.medoid }

structure FlashNode where
  coords : List UInt8
  neighbors : List UInt32

namespace FlashIndex

variable (index : FlashIndex)

def getNodeSector (node : Nat) : Nat :=
  1 + if 0 < index.nodesPerSector then node / index.nodesPerSector
    else node * divRoundUp index.maxNodeLen sectorLen

def numSectors : Nat :=
  if 0 < index.nodesPerSector then 1 else divRoundUp index.maxNodeLen sectorLen

def offsetToNode (node : Nat) : Nat :=
  if index.nodesPerSector = 0 then 0 else node % index.nodesPerSector * index.maxNodeLen

/-- Where the record of a node begins in the file. -/
def nodeStart (node : Nat) : Nat := index.getNodeSector node * sectorLen + index.offsetToNode node

/-- A node in its buffer. What the buffer does not hold is out of bounds. -/
def parseNode (nodeBuffer : List UInt8) : Except Error FlashNode := do
  let (coords, rest) ← readBytes nodeBuffer
  let (numNeighbors, rest) ← readWord .outOfBounds 4 rest
  reject (index.maxDegree < numNeighbors)
    (.diskannException "Disk node degree exceeds index metadata")
  let (neighbors, _) ← readMany (UInt32.ofNat <$> readWord .outOfBounds 4) numNeighbors rest
  .ok ⟨coords, neighbors⟩
where
  readBytes (nodeBuffer : List UInt8) : Except Error (List UInt8 × List UInt8) :=
    if nodeBuffer.length < index.diskBytesPerPoint then .error .outOfBounds
    else .ok (nodeBuffer.take index.diskBytesPerPoint, nodeBuffer.drop index.diskBytesPerPoint)

/-- The sectors of a node, which a read past the end of the file leaves undefined. -/
def readSectors (disk : List UInt8) (node : Nat) : Except Error (List UInt8) :=
  if disk.length < (index.getNodeSector node + index.numSectors) * sectorLen then
    .error .outOfBounds
  else
    .ok (subspan disk (index.getNodeSector node * sectorLen) (index.numSectors * sectorLen))

def readNode (disk : List UInt8) (node : UInt32) : Except Error FlashNode := do
  let buffer ← index.readSectors disk node.toNat
  index.parseNode (buffer.drop (index.offsetToNode node.toNat))

def readNodes (disk : List UInt8) (nodes : List UInt32) : Except Error (List FlashNode) :=
  nodes.mapM (index.readNode disk)

end FlashIndex

end SkipCell.DiskIndex

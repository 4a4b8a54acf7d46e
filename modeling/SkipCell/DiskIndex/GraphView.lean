import SkipCell.DiskIndex.FlashReader

/-! # The graph of the disk index

`loadGraph` is the reader of `disk_post_link_graph_view_t`, which takes the whole adjacency
from the disk index and the vectors from elsewhere.
-/

namespace SkipCell.DiskIndex

open Foundation IoIndex
open Sidecar (checkedMultiply)

/-- What `load_graph` is called with: the shape of the vectors, and whether the pivots of a
disk PQ exist. -/
structure GraphShape where
  pointCount : Nat
  dimension : Nat
  diskPq : Bool

def GraphShape.diskBytesPerPoint (shape : GraphShape) (dimensions : Nat) :
    Except Sidecar.Error Nat :=
  if shape.diskPq then .ok dimensions
  else checkedMultiply dimensions 4 "disk vector bytes"

/-- The neighbors of every node, which the source keeps one list behind the other. -/
structure GraphView where
  entryPointId : Nat
  neighbors : List (List UInt32)
  deriving DecidableEq

/-- The neighbors in the record at the front of `record`. -/
def appendNode (pointCount diskBytesPerPoint maxDegree : Nat) (record : List UInt8) :
    Except Sidecar.Error (List UInt32) := do
  let (degree, rest) ← readWord .outOfBounds 4 (record.drop diskBytesPerPoint)
  reject (degree = 0 ∨ maxDegree < degree)
    (.runtimeError "sidecar-only disk index node degree is invalid")
  let (neighbors, _) ← readMany (UInt32.ofNat <$> readWord .outOfBounds 4) degree rest
  reject (∃ neighbor ∈ neighbors, pointCount ≤ neighbor.toNat)
    (.runtimeError "sidecar-only disk index neighbor ID is invalid")
  .ok neighbors

/-- The next `count` bytes of the file, from `start` on. -/
def readGraph (disk : List UInt8) (start count : Nat) : Except Sidecar.Error (List UInt8) :=
  if disk.length < start + count then
    .error (.runtimeError "sidecar-only disk index graph is truncated")
  else .ok (subspan disk start count)

/-- The record of a node. The source reads a sector once for all of its nodes. -/
def graphRecord (nodesPerSector maxNodeLen : Nat) (disk : List UInt8) (node : Nat) :
    Except Sidecar.Error (List UInt8) := do
  if nodesPerSector ≠ 0 then
    let sector ← readGraph disk (sectorLen + node / nodesPerSector * sectorLen) sectorLen
    .ok (sector.drop (node % nodesPerSector * maxNodeLen))
  else
    let sectorsPerNode := (maxNodeLen + sectorLen - 1) % 2 ^ 64 / sectorLen
    let bytes ← checkedMultiply sectorsPerNode sectorLen "disk node sectors"
    readGraph disk (sectorLen + node * bytes) bytes

def checkNodesPerSector (metadata : DiskMetadata) : Except Sidecar.Error Unit :=
  if metadata.nodesPerSector ≠ 0 then do
    let held ← checkedMultiply metadata.nodesPerSector metadata.maxNodeLen "nodes per sector"
    reject (sectorLen < held) (.runtimeError "sidecar-only disk index graph width is invalid")
  else .ok ()

def loadGraph (shape : GraphShape) (disk : List UInt8) : Except Sidecar.Error GraphView := do
  let (metadata, _) ← readMetadata
    (.runtimeError "sidecar-only disk index metadata is truncated") disk
  reject (metadata.rows < 9 ∨ metadata.columns ≠ 1 ∨ metadata.points ≠ shape.pointCount ∨
      shape.pointCount ≤ metadata.medoid ∨ 1 < metadata.frozenPoints ∨ metadata.maxNodeLen = 0)
    (.runtimeError "sidecar-only disk index metadata is incompatible")
  let diskBytesPerPoint ← shape.diskBytesPerPoint metadata.dimensions
  let headBytes := (diskBytesPerPoint + 4) % 2 ^ 64
  reject (shape.diskPq = false ∧ metadata.dimensions ≠ shape.dimension ∨
      metadata.maxNodeLen ≤ headBytes)
    (.runtimeError "sidecar-only disk index record layout is incompatible")
  let maxDegree := (metadata.maxNodeLen - headBytes) / 4
  reject (maxDegree = 0 ∨ maxGraphDegree < maxDegree)
    (.runtimeError "sidecar-only disk index graph width is invalid")
  checkNodesPerSector metadata
  let _ ← checkedMultiply shape.pointCount maxDegree "sidecar-only graph reserve"
  let neighbors ← (List.range shape.pointCount).mapM fun node => do
    let record ← graphRecord metadata.nodesPerSector metadata.maxNodeLen disk node
    appendNode shape.pointCount diskBytesPerPoint maxDegree record
  .ok ⟨metadata.medoid, neighbors⟩

end SkipCell.DiskIndex

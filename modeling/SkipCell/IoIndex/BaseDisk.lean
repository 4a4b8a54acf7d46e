import SkipCell.Foundation.Subspan
import SkipCell.Sidecar.Codec

/-! # The Base index on disk

A metadata sector, then fixed-width node records of a vector and an adjacency list,
several to a sector or one to several sectors. The topology and vector artifacts
are built from these records.
-/

namespace SkipCell.IoIndex

open Foundation Sidecar

def sectorLen : Nat := 4096

def addChecked (left right : Nat) (description : String) : Except Error Nat :=
  if 2 ^ 64 ≤ left + right then .error (.runtimeError (description ++ " overflows uint64"))
  else .ok (left + right)

def multiplyChecked (left right : Nat) (description : String) : Except Error Nat :=
  if 2 ^ 64 ≤ left * right then .error (.runtimeError (description ++ " overflows uint64"))
  else .ok (left * right)

@[simp]
theorem addChecked_eq_ok {left right sum : Nat} {description : String} :
    addChecked left right description = .ok sum ↔ left + right < 2 ^ 64 ∧ left + right = sum := by
  unfold addChecked
  split <;> simp only [reduceCtorEq, false_iff, Except.ok.injEq] <;> omega

@[simp]
theorem multiplyChecked_eq_ok {left right product : Nat} {description : String} :
    multiplyChecked left right description = .ok product ↔
      left * right < 2 ^ 64 ∧ left * right = product := by
  unfold multiplyChecked
  split <;> simp only [reduceCtorEq, false_iff, Except.ok.injEq] <;> omega

/-- `disk_layout_metadata_t`. -/
structure DiskLayoutMetadata where
  pointCount : UInt64
  dimension : UInt64
  maxNodeLen : UInt64
  nodesPerSector : UInt64
  maxDegree : UInt32

def truncatedMetadata : Error := .runtimeError "truncated Base disk metadata"

def readNative (width : Nat) : Reader Nat := readWord truncatedMetadata width

def readDiskLayoutMetadata (disk : List UInt8) : Except Error DiskLayoutMetadata := do
  let (rows, bytes) ← readNative 4 disk
  let (columns, bytes) ← readNative 4 bytes
  let (pointCount, bytes) ← readNative 8 bytes
  let (dimension, bytes) ← readNative 8 bytes
  let (medoid, bytes) ← readNative 8 bytes
  let (maxNodeLen, bytes) ← readNative 8 bytes
  let (nodesPerSector, bytes) ← readNative 8 bytes
  let (_, bytes) ← readNative 8 bytes
  let (_, bytes) ← readNative 8 bytes
  let (reorderExists, bytes) ← readNative 8 bytes
  reject (rows < 9 ∨ columns ≠ 1 ∨ pointCount = 0 ∨ dimension = 0 ∨ pointCount ≤ medoid ∨
      reorderExists ≠ 0)
    (.runtimeError "unsupported Base disk metadata for IO-1 layout")
  if rows = 9 then
    let (declaredFileSize, _) ← readNative 8 bytes
    reject (declaredFileSize ≠ disk.length)
      (.runtimeError "Base disk index size disagrees with metadata")
  let vectorBytes ← multiplyChecked dimension 4 "vector size"
  let width : UInt64 := .ofNat maxNodeLen
  let vectorWidth : UInt64 := .ofNat vectorBytes
  reject (width ≤ vectorWidth + 4 ∨ (width - vectorWidth) % 4 ≠ 0)
    (.runtimeError "invalid Base disk record width")
  let degree := (width - vectorWidth) / 4 - 1
  reject (2 ^ 32 ≤ degree.toNat) (.runtimeError "Base maximum degree exceeds uint32")
  .ok ⟨.ofNat pointCount, .ofNat dimension, width, .ofNat nodesPerSector, .ofNat degree.toNat⟩

structure BaseRecord where
  vector : List UInt8
  neighbors : List UInt32

namespace DiskLayoutMetadata

variable (metadata : DiskLayoutMetadata)

def sourceVectorBytes : Nat := 4 * metadata.dimension.toNat

/-- Reads a record at the front of `bytes`, which is all of the buffer behind it. -/
def parseRecord (bytes : List UInt8) : Except Error BaseRecord := do
  let width := metadata.sourceVectorBytes
  reject (bytes.length < width) .outOfBounds
  let (degree, rest) ← readWord Error.outOfBounds 4 (bytes.drop width)
  reject (metadata.maxDegree.toNat < degree)
    (.runtimeError "Base record degree exceeds metadata")
  let (neighbors, _) ← readMany (UInt32.ofNat <$> readWord Error.outOfBounds 4) degree rest
  reject (∃ target ∈ neighbors, metadata.pointCount.toNat ≤ target.toNat)
    (.runtimeError "Base adjacency endpoint exceeds point count")
  .ok ⟨bytes.take width, neighbors⟩

def readSectors (disk : List UInt8) (first count : Nat) (truncated : String) :
    Except Error (List UInt8) := do
  reject (disk.length < (first + count) * sectorLen) (.runtimeError truncated)
  .ok (subspan disk (first * sectorLen) (count * sectorLen))

def readRecord (disk : List UInt8) (node : Nat) : Except Error BaseRecord := do
  if metadata.nodesPerSector ≠ 0 then
    let nodesPerSector := metadata.nodesPerSector.toNat
    let sector ← readSectors disk (node / nodesPerSector + 1) 1 "truncated Base node sector"
    metadata.parseRecord (sector.drop (node % nodesPerSector * metadata.maxNodeLen.toNat))
  else
    let sectorsPerNode := ((metadata.maxNodeLen + .ofNat sectorLen - 1) / .ofNat sectorLen).toNat
    let record ← readSectors disk (1 + node * sectorsPerNode) sectorsPerNode
      "truncated Base multi-sector node record"
    metadata.parseRecord record

/-- The records of all nodes. The vectors that the source allocates for them do not
have more than `2 ^ 60 - 1` elements. -/
def readRecords (disk : List UInt8) : Except Error (List BaseRecord) := do
  reject (2 ^ 60 ≤ metadata.pointCount.toNat + 1)
    (.runtimeError "cannot create std::vector larger than max_size()")
  reject (metadata.nodesPerSector ≠ 0 ∧
      .ofNat sectorLen < metadata.maxNodeLen * metadata.nodesPerSector)
    (.runtimeError "Base nodes-per-sector metadata exceeds one sector")
  (List.range metadata.pointCount.toNat).mapM fun node => metadata.readRecord disk node

end DiskLayoutMetadata

structure BaseRecord.Fits (record : BaseRecord) (metadata : DiskLayoutMetadata) : Prop where
  vector : record.vector.length = metadata.sourceVectorBytes
  degree : record.neighbors.length ≤ metadata.maxDegree.toNat
  targets : ∀ target ∈ record.neighbors, target.toNat < metadata.pointCount.toNat

variable {metadata : DiskLayoutMetadata}

theorem parseRecord_fits {bytes : List UInt8} {record : BaseRecord}
    (hparse : metadata.parseRecord bytes = .ok record) : record.Fits metadata := by
  unfold DiskLayoutMetadata.parseRecord at hparse
  simp only [bind_ok, reject_ok] at hparse
  obtain ⟨-, hlong, ⟨degree, rest⟩, -, -, hdegree, ⟨neighbors, last⟩, hmany, -, htargets, hrecord⟩ :=
    hparse
  obtain rfl := Except.ok.inj hrecord
  refine ⟨?_, ?_, ?_⟩
  · rw [List.length_take]
    omega
  · rw [length_readMany hmany]
    exact Nat.le_of_not_lt hdegree
  · intro target htarget
    exact Nat.lt_of_not_le fun hle => htargets ⟨target, htarget, hle⟩

theorem readRecord_fits {disk : List UInt8} {node : Nat} {record : BaseRecord}
    (hread : metadata.readRecord disk node = .ok record) :
    record.Fits metadata := by
  unfold DiskLayoutMetadata.readRecord at hread
  split at hread
  all_goals
    obtain ⟨_, -, hparse⟩ := bind_ok.mp hread
    exact parseRecord_fits hparse

theorem readRecords_eq_ok {disk : List UInt8} {records : List BaseRecord}
    (hread : metadata.readRecords disk = .ok records) :
    metadata.pointCount.toNat + 1 < 2 ^ 60 ∧ records.length = metadata.pointCount.toNat ∧
      ∀ node record, records[node]? = some record → metadata.readRecord disk node = .ok record := by
  unfold DiskLayoutMetadata.readRecords at hread
  simp only [bind_ok, reject_ok, mapM_eq_ok] at hread
  obtain ⟨-, hsize, -, -, hall⟩ := hread
  refine ⟨Nat.lt_of_not_le hsize, ?_, ?_⟩
  · rw [← hall.length_eq, List.length_range]
  · intro node record hrecord
    obtain ⟨hnode, rfl⟩ := List.getElem_of_getElem? hrecord
    have hrange : node < (List.range metadata.pointCount.toNat).length := by
      rwa [hall.length_eq]
    have hone := List.forall₂_iff_get.mp hall
    have hget := hone.2 node hrange hnode
    simpa using hget

end SkipCell.IoIndex

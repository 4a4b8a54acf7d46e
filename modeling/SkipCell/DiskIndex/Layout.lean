import SkipCell.Foundation.Sectors
import SkipCell.IoIndex.BaseDisk

/-! # The disk layout

`createDiskLayout` merges the Base vectors and the in-memory Vamana graph into the disk
index: a metadata sector, then a record of each node.
-/

namespace SkipCell.DiskIndex

open Foundation IoIndex

/-- The exceptions of the source, an assertion that fails, a write that the file system
refuses, and an access outside of a buffer or a file. -/
inductive Error
  | diskannException (what : String)
  | assertionFailed (what : String)
  | writeFailed
  | outOfBounds
  deriving DecidableEq

/-- `cached_ifstream_t::read`, without its cache. The source adds the state of the cache
to the message. -/
def readCached (width : Nat) : ByteReader Error (List UInt8) := fun bytes =>
  if bytes.length < width then .error (.diskannException "Reading beyond end of file\n")
  else .ok (bytes.take width, bytes.drop width)

/-- A read of a stream that raises no exception, into a buffer of zeros. -/
def readZeroed (width : Nat) (bytes : List UInt8) : List UInt8 × List UInt8 :=
  (padTo 0 width (bytes.take width), bytes.drop width)

/-- The element types of the Base vectors. -/
inductive Element
  | float
  | uint8

def Element.size : Element → Nat
  | .float => 4
  | .uint8 => 1

structure LayoutHeader where
  npts : Nat
  ndims : Nat
  width : Nat
  medoid : Nat
  frozenNum : Nat

namespace LayoutHeader

variable (header : LayoutHeader) (element : Element)

def maxNodeLen : Nat := (header.width + 1) * 4 + header.ndims * element.size

def layout : RecordLayout where
  sector := sectorLen
  width := header.maxNodeLen element
  sector_pos := by decide
  width_pos := by
    unfold maxNodeLen
    omega

def frozenLoc : Nat := if header.frozenNum = 1 then header.medoid else 0

def diskIndexFileSize : Nat :=
  ((header.layout element).sectorCount header.npts + 1) * sectorLen

/-- `output_file_meta`, where no reorder data is appended. -/
def outputFileMeta : List Nat :=
  [header.npts, header.ndims, header.medoid, header.maxNodeLen element,
    (header.layout element).perSector, header.frozenNum, header.frozenLoc, 0,
    header.diskIndexFileSize element]

/-- What `save_bin` writes over the front of the file. -/
def metadataBytes : List UInt8 :=
  encodeLittle 4 (header.outputFileMeta element).length ++ encodeLittle 4 1 ++
    (header.outputFileMeta element).flatMap (encodeLittle 8)

end LayoutHeader

/-- What is left of the two inputs. -/
structure Cursors where
  base : List UInt8
  graph : List UInt8

/-- The degree and the neighbors of a node. Neighbors from the width on are passed over. -/
def readNeighborhood (assertions : Bool) (width : Nat) (graph : List UInt8) :
    Except Error (List UInt8 × List UInt8) := do
  let (count, graph) := readZeroed 4 graph
  let nnbrs := decodeLittle count
  reject (assertions ∧ nnbrs = 0) (.assertionFailed "nnbrs > 0")
  reject (assertions ∧ width < nnbrs) (.assertionFailed "nnbrs <= width_u32")
  let kept := min nnbrs width
  let (nhood, graph) := readZeroed (kept * 4) graph
  .ok (encodeLittle 4 kept ++ nhood, graph.drop ((nnbrs - width) * 4))

def writeNode (assertions : Bool) (element : Element) (header : LayoutHeader)
    (cursors : Cursors) : Except Error (List UInt8 × Cursors) := do
  let (neighborhood, graph) ← readNeighborhood assertions header.width cursors.graph
  let (coords, base) ← readCached (element.size * header.ndims) cursors.base
  .ok (padTo 0 (header.maxNodeLen element) (coords ++ neighborhood), ⟨base, graph⟩)

def writeNodes (assertions : Bool) (element : Element) (header : LayoutHeader) :
    Nat → Cursors → Except Error (List (List UInt8))
  | 0, _ => .ok []
  | count + 1, cursors => do
    let (record, cursors) ← writeNode assertions element header cursors
    let records ← writeNodes assertions element header count cursors
    .ok (record :: records)

/-- The metadata sector and the sectors of the records. -/
def diskFile (element : Element) (header : LayoutHeader) (records : List (List UInt8)) :
    List UInt8 :=
  padTo 0 sectorLen (header.metadataBytes element) ++
    ((header.layout element).rows 0 records).flatten

/-- Whether assertions are checked depends on the build. No file reaches a size of
`fileSizeLimit`. -/
def createDiskLayout (assertions : Bool) (element : Element) (base graph : List UInt8) :
    Except Error (List UInt8) := do
  let (npts, base) ← readCached 4 base
  let (ndims, base) ← readCached 4 base
  let (indexFileSize, rest) ← readWord .outOfBounds 8 graph
  reject (indexFileSize ≠ graph.length)
    (.diskannException ("Vamana vamana_index_t file size does not match expected size per " ++
      "meta-data. file size from file: " ++ toString indexFileSize ++ " actual file size: " ++
      toString graph.length ++ "\n"))
  let (width, rest) ← readWord .outOfBounds 4 rest
  let (medoid, rest) ← readWord .outOfBounds 4 rest
  let (frozenNum, rest) := readZeroed 8 rest
  let header : LayoutHeader :=
    { npts := decodeLittle npts
      ndims := decodeLittle ndims
      width, medoid
      frozenNum := decodeLittle frozenNum }
  let records ← writeNodes assertions element header header.npts ⟨base, rest⟩
  reject (Sidecar.fileSizeLimit ≤ header.diskIndexFileSize element) .writeFailed
  .ok (diskFile element header records)

end SkipCell.DiskIndex

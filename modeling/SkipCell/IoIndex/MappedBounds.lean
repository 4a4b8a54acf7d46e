import SkipCell.IoIndex.BoundedReaders
import SkipCell.IoIndex.GlobalGraphCells

/-! # Bounds of the mapped artifact

The Cells of a mapped topology are grown from a file of which only the header was checked. All
that is read is inside the file if the two arrays are. The check compares the size of the
adjacency with a product that starts over at `2 ^ 64`, and a file that is too small for its
edges can pass it.
-/

namespace SkipCell.IoIndex

open Foundation Sidecar Build

variable {file : List UInt8} {header : TopologyHeader} {targetSize : UInt32}

/-- The header of the file passes the check of its sizes. -/
structure Admitted (file : List UInt8) (targetSize : UInt32) (header : TopologyHeader) : Prop where
  target : targetSize ≠ 0
  parsed : parseHeader (file.take (min file.length kTopologyHeaderBytes)) = .ok header
  compatible : ¬ Incompatible file header

end SkipCell.IoIndex

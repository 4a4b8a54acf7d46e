import SkipCell.DiskIndex.CachedIo
import SkipCell.DiskIndex.EntryPoints

/-! # Adding a file to a single-file index

`addNewFileToSingleIndex` opens the index for writing, which empties it, before it compares the
size of the index with the metadata.
-/

namespace SkipCell.DiskIndex

open Foundation

/-- The new file stands behind the old index, the metadata tells where it begins and ends, and the
old components are as they were. -/
structure Appended (index new final : List UInt8) (metadata : List Nat) : Prop where
  begins : metadata.getLast? = some index.length
  recorded : loadBin 8 final =
    .ok (metadata.length + 1, 1, metadata ++ [index.length + new.length])
  component : subspan final index.length new.length = new
  others : ∀ first last, [first, last] <:+: metadata →
    subspan final first (last - first) = subspan index first (last - first)

end SkipCell.DiskIndex

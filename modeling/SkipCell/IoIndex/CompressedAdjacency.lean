import SkipCell.IoIndex.StatisticsRecords

/-! # The compressed adjacency section

The encoding of the adjacency in a build that has the PForDelta codec. The record of a node
has the sorted neighbors, as the codec compresses them, and for each of them the position in
the list that it came from. A position is stored in one byte.
-/

namespace SkipCell.IoIndex.PForDelta

open Foundation Sidecar AdjacencyStatistics

/-- The codec `s4-bp128-d1`. -/
structure Codec where
  encodeArray : List UInt32 → List UInt32
  /-- The values that are recovered, with room for so many. -/
  decodeArray : List UInt32 → Nat → List UInt32

/-- Whole blocks of a sorted sequence are recovered, and their words fit into the buffer. -/
structure Codec.Lossless (codec : Codec) : Prop where
  decode_encode : ∀ values : List UInt32, values.Pairwise (· ≤ ·) → 128 ∣ values.length →
    codec.decodeArray (codec.encodeArray values) values.length = values
  length_encode : ∀ values : List UInt32,
    (codec.encodeArray values).length ≤ 2 * values.length + 1024 + 32

def paddedLength (degree : Nat) : Nat := if degree = 0 then 0 else (degree + 127) / 128 * 128

/-- The sorted neighbors, and the last of them again up to the end of the block. -/
def codecInput (ordered : List (UInt32 × UInt8)) : List UInt32 :=
  let last := (ordered.getLast?.map Prod.fst).getD 0
  ordered.map Prod.fst ++ List.replicate (paddedLength ordered.length - ordered.length) last

/-- Zeros up to the next whole word. -/
def alignOutput (output : List UInt8) : List UInt8 :=
  output ++ List.replicate ((4 - output.length % 4) % 4) 0

def appendRecord (codec : Codec) (output : List UInt8) (neighbors : List UInt32) : List UInt8 :=
  let ordered := orderedNeighbors neighbors
  let compressed := if neighbors.length = 0 then [] else codec.encodeArray (codecInput ordered)
  let header := appendU32Le (.ofNat neighbors.length) ++ appendU32Le (.ofNat compressed.length)
  alignOutput (output ++ (header ++ ordered.map Prod.snd)) ++ compressed.flatMap appendU32Le

/-- Appends the record of a node, and where it begins. -/
def compressNode (codec : Codec) (edgeOffsets : List Nat) (adjacency : List UInt32)
    (state : List Nat × List UInt8) (node : Nat) : List Nat × List UInt8 :=
  let first := edgeOffsets.getD node 0
  let last := edgeOffsets.getD (node + 1) 0
  (state.1 ++ [state.2.length],
    appendRecord codec state.2 (subspan adjacency first (last - first)))

/-- `compress_adjacency`. Offsets are sizes of vectors. -/
def compressAdjacency (codec : Codec) (edgeOffsets : List Nat) (adjacency : List UInt32) :
    List Nat × List UInt8 :=
  let nodes := List.range (edgeOffsets.length - 1)
  let (byteOffsets, output) := nodes.foldl (compressNode codec edgeOffsets adjacency) ([], [])
  (byteOffsets ++ [output.length], output)

/-- The padded length, in 32 bits. -/
def paddedDegree (degree : UInt32) : Nat :=
  if degree = 0 then 0 else ((degree + 127) / 128 * 128).toNat

def alignedCursor (cursor : Nat) : Nat := (cursor + 3) / 4 * 4

def decodeSorted (codec : Codec) (compressed : List UInt32) (degree : UInt32) :
    Except Error (List UInt32) :=
  if degree = 0 then .ok []
  else do
    let sorted := codec.decodeArray compressed (paddedDegree degree)
    reject (sorted.length < degree.toNat)
      (.runtimeError "PForDelta decode returned too few values")
    .ok sorted

def duplicates : Error := .runtimeError "PForDelta permutation contains duplicates"

def decompressRecord (codec : Codec) (maxDegree : UInt32) (record : List UInt8) :
    Except Error (List UInt32) := do
  let (degree, rest) ← readU32 "PForDelta degree" record
  let (compressedWords, rest) ← readU32 "PForDelta word count" rest
  reject (maxDegree < degree ∨ record.length < 8 + degree.toNat)
    (.runtimeError "PForDelta degree or permutation is invalid")
  let permutation := (rest.take degree.toNat).map UInt8.toNat
  reject (∃ position ∈ permutation, degree.toNat ≤ position)
    (.runtimeError "PForDelta permutation is out of range")
  let cursor := alignedCursor (8 + degree.toNat)
  reject ((record.length - cursor) / 4 < compressedWords.toNat ∨
      cursor + compressedWords.toNat * 4 ≠ record.length)
    (.runtimeError "PForDelta compressed payload size is invalid")
  let (compressed, _) ← readMany (readU32 "PForDelta word") compressedWords.toNat
    (record.drop cursor)
  let sorted ← decodeSorted codec compressed degree
  let (neighbors, _) ← putAll duplicates (sorted.zip permutation)
    (List.replicate degree.toNat 0, List.replicate degree.toNat false)
  .ok neighbors

def decompressNode (codec : Codec) (byteOffsets : List Nat) (bytes : List UInt8)
    (maxDegree : UInt32) (node : Nat) (state : List Nat × List UInt32) :
    Except Error (List Nat × List UInt32) := do
  let first := byteOffsets.getD node 0
  let last := byteOffsets.getD (node + 1) 0
  reject (last < first ∨ bytes.length < last)
    (.runtimeError "PForDelta byte offsets are invalid")
  let neighbors ← decompressRecord codec maxDegree (subspan bytes first (last - first))
  .ok (state.1 ++ [state.2.length], state.2 ++ neighbors)

/-- `decompress_adjacency`, with the offsets that it assigns. -/
def decompressAdjacency (codec : Codec) (byteOffsets : List Nat) (bytes : List UInt8)
    (expectedEdges : Nat) (maxDegree : UInt32) : Except Error (List Nat × List UInt32) := do
  let nodes := List.range (byteOffsets.length - 1)
  let (edgeOffsets, output) ← scan
    (fun _ node => decompressNode codec byteOffsets bytes maxDegree node) 0 nodes ([], [])
  reject (output.length ≠ expectedEdges) (.runtimeError "PForDelta edge count mismatch")
  .ok (edgeOffsets ++ [output.length], output)

end SkipCell.IoIndex.PForDelta

import SkipCell.DiskIndex.Layout

/-! # Merging the indexes of shards

`mergeShards` reads the indexes of the shards in step, node by node, and writes the union of a
node's lists into one index. Filters are left out.
-/

namespace SkipCell.DiskIndex

open Foundation IoIndex
open Sidecar (appendU32Le)

/-- `std::shuffle` with a generator of random numbers. -/
structure Shuffler (Engine : Type) where
  shuffle : Engine → List UInt32 → List UInt32 × Engine
  perm : ∀ engine list, (shuffle engine list).1.Perm list

structure ShardFiles where
  idmap : List UInt8
  vamana : List UInt8

structure MergedFiles where
  vamana : List UInt8
  medoids : List UInt8

def readU32 : ByteReader Error UInt32 :=
  (fun bytes => UInt32.ofNat (decodeLittle bytes)) <$> readCached 4

/-- The list of a node. The source takes its words in one read. -/
def readNhood : ByteReader Error (List UInt32) := do
  let shardNnbrs ← readU32
  readMany readU32 shardNnbrs.toNat

/-- The words that a stream without exceptions reads. -/
def readIds (count : Nat) (bytes : List UInt8) : List UInt32 :=
  (List.range count).map fun index =>
    UInt32.ofNat (decodeLittle (subspan bytes (index * 4) 4))

def readIdmap (file : List UInt8) : Except Error (List UInt32) := do
  let (npts, rest) := readZeroed 4 file
  let npts := decodeLittle npts
  let (dim, rest) := readZeroed 4 rest
  -- the message forgets the four bytes of a point
  reject (decodeLittle dim ≠ 1 ∨ file.length ≠ npts * 4 + 2 * 4)
    (.diskannException ("Error reading idmap file. Check if the file is bin file with " ++
      "1 dimensional data. Actual: " ++ toString file.length ++ ", expected: " ++
      toString (npts + 2 * 4) ++ "\n"))
  .ok (readIds npts rest)

/-- The medoid of a shard under its global id, and what is left of its index. -/
def readMedoid (assertions : Bool) (idmap : List UInt32) (reader : List UInt8) :
    Except Error (UInt32 × List UInt8) := do
  let (medoid, reader) ← readU32 reader
  let (frozen, reader) ← readCached 8 reader
  reject (assertions ∧ decodeLittle frozen ≠ 0)
    (.assertionFailed "vamana_index_frozen == false")
  let medoid ← element .outOfBounds idmap medoid.toNat
  .ok (medoid, reader)

/-- The largest id of all, and one more. -/
def countNodes (idmaps : List (List UInt32)) : Nat :=
  (idmaps.flatten.map UInt32.toNat).foldl max 0 + 1

def nodeShards (idmaps : List (List UInt32)) : List (UInt32 × UInt32) :=
  idmaps.zipIdx.flatMap fun (idmap, shard) => idmap.map fun id => (id, UInt32.ofNat shard)

def NodeBefore (left right : UInt32 × UInt32) : Prop :=
  toLex (left.1.toNat, left.2.toNat) ≤ toLex (right.1.toNat, right.2.toNat)

instance : DecidableRel NodeBefore := fun left right =>
  inferInstanceAs (Decidable (toLex (left.1.toNat, left.2.toNat) ≤
    toLex (right.1.toNat, right.2.toNat)))

structure MergeState (Engine : Type) where
  engine : Engine
  written : List UInt8
  mergedIndexSize : Nat
  nhoodSet : List Bool
  finalNhood : List UInt32
  curId : UInt32

variable {Engine : Type} (shuffler : Shuffler Engine) (assertions : Bool) (maxDegree : UInt32)

/-- Writes the list of `cur_id`, and forgets it. -/
def writeNhood (state : MergeState Engine) : MergeState Engine :=
  let (shuffled, engine) := shuffler.shuffle state.engine state.finalNhood
  let nnbrs := UInt32.ofNat (min shuffled.length maxDegree.toNat)
  { state with
    engine
    written := state.written ++
      (appendU32Le nnbrs ++ (shuffled.take nnbrs.toNat).flatMap appendU32Le)
    mergedIndexSize := state.mergedIndexSize + (4 + nnbrs.toNat * 4)
    nhoodSet := shuffled.foldl (fun set p => set.set p.toNat false) state.nhoodSet
    finalNhood := [] }

/-- Adds a neighbor under its global id. -/
def addNeighbor (idmap : List UInt32) (state : MergeState Engine) (neighbor : UInt32) :
    Except Error (MergeState Engine) := do
  let id ← element .outOfBounds idmap neighbor.toNat
  let present ← element .outOfBounds state.nhoodSet id.toNat
  if present then .ok state
  else .ok { state with
    nhoodSet := state.nhoodSet.set id.toNat true
    finalNhood := state.finalNhood ++ [id] }

/-- Moves on to a node, unless it is the same one as before. -/
def enterNode (node : UInt32) (state : MergeState Engine) : MergeState Engine :=
  if state.curId < node then { writeNhood shuffler maxDegree state with curId := node } else state

/-- One pair of a node and a shard. -/
def mergeNode (idmaps : List (List UInt32)) (loop : List (List UInt8) × MergeState Engine)
    (idShard : UInt32 × UInt32) : Except Error (List (List UInt8) × MergeState Engine) := do
  let state := enterNode shuffler maxDegree idShard.1 loop.2
  let reader ← element .outOfBounds loop.1 idShard.2.toNat
  let (shardNhood, reader) ← readNhood reader
  let idmap ← element .outOfBounds idmaps idShard.2.toNat
  let state ← shardNhood.foldlM (addNeighbor idmap) state
  .ok (loop.1.set idShard.2.toNat reader, state)

/-- The size of the index is written once more when it is known. -/
def finish (state : MergeState Engine) : List UInt8 :=
  let state := writeNhood shuffler maxDegree state
  patch state.written 0 (encodeLittle 8 state.mergedIndexSize)

/-- Size, maximum degree, medoid and number of frozen points. -/
def vamanaMetadataSize : Nat := 8 + 4 + 4 + 8

def mergeShards (engine : Engine) (shards : List ShardFiles) : Except Error MergedFiles := do
  let idmaps ← shards.mapM fun shard => readIdmap shard.idmap
  let nnodes := countNodes idmaps
  let nodeShard := (nodeShards idmaps).insertionSort NodeBefore
  let readers ← shards.mapM fun shard => do
    let (_, reader) ← readCached 8 shard.vamana
    .ok reader
  let readers ← readers.mapM fun reader => do
    let (_, reader) ← readU32 reader
    .ok reader
  let headers ← (idmaps.zip readers).mapM fun (idmap, reader) => readMedoid assertions idmap reader
  let medoids := headers.map Prod.fst
  let state : MergeState Engine :=
    { engine
      written := encodeLittle 8 vamanaMetadataSize ++ (appendU32Le maxDegree ++
        (medoids.getLast?.toList.flatMap appendU32Le ++ encodeLittle 8 0))
      mergedIndexSize := vamanaMetadataSize
      nhoodSet := List.replicate nnodes false
      finalNhood := []
      curId := 0 }
  let (_, state) ← nodeShard.foldlM (mergeNode shuffler maxDegree idmaps)
    (headers.map Prod.snd, state)
  .ok
    { vamana := finish shuffler maxDegree state
      medoids := encodeLittle 4 shards.length ++ (encodeLittle 4 1 ++
        medoids.flatMap appendU32Le) }

end SkipCell.DiskIndex

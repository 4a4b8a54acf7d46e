import SkipCell.Cache.Pool
import SkipCell.Foundation.ByteFile
import SkipCell.Foundation.ByteReader
import SkipCell.Foundation.SlotPool

/-! # The chunk store

Four files of chunks of one size each, and a metadata file. A chunk id names the
file in its two high bits and the chunk in the others. Every operation returns the
state it leaves with its result, so that a throwing call keeps what it did before.
-/

namespace SkipCell.Storage

open Foundation Cache

abbrev ChunkId := UInt64

namespace DiskManager

inductive Error
  | outOfRange (what : String)
  | invalidArgument (what : String)
  | runtimeError (what : String)
  | overflowError (what : String)

def chunkTypes : List ChunkType := [.chunk4kb, .chunk64kb, .chunk512kb, .chunk2mb]

def chunkSize : ChunkType → Nat
  | .chunk4kb => 4 * 1024
  | .chunk64kb => 64 * 1024
  | .chunk512kb => 512 * 1024
  | .chunk2mb => 2 * 1024 * 1024

def makeChunkId (type : ChunkType) (chunkNo : Nat) : Except Error ChunkId :=
  match Cache.makeChunkId type chunkNo with
  | .ok chunkId => .ok (.ofNat chunkId)
  | .error _ => .error (.outOfRange "chunk number exceeds chunk id capacity")

def chunkType (chunkId : ChunkId) : Except Error ChunkType :=
  match chunkId.toNat >>> kChunkNoBits with
  | 0 => .ok .chunk4kb
  | 1 => .ok .chunk64kb
  | 2 => .ok .chunk512kb
  | 3 => .ok .chunk2mb
  | _ => .error (.outOfRange "invalid encoded chunk type")

def chunkNo (chunkId : ChunkId) : Nat := chunkId.toNat &&& kChunkNoMask

structure PageAddr where
  type : ChunkType
  chunkNo : Nat
  offset : Nat
  size : Nat

def decodeChunkId (chunkId : ChunkId) : Except Error PageAddr := do
  let type ← chunkType chunkId
  let chunkNo := chunkNo chunkId
  let size := chunkSize type
  reject ((2 ^ 64 - 1) / size < chunkNo) (.overflowError "chunk offset overflows uint64_t")
  .ok ⟨type, chunkNo, chunkNo * size, size⟩

/-- The members of the manager and the contents of its files. `slots` holds
`chunk_counts` and `free_lists_`. -/
structure State where
  slots : ChunkType → SlotPool
  freeCounts : ChunkType → Nat
  hugePageEnabled : UInt8
  metaFile : List UInt8
  chunkFiles : ChunkType → ByteFile

abbrev Call (Value : Type) := State × Except Error Value

/-- A file of another size; what it gains is zero. -/
def resizeFile (file : ByteFile) (size : Nat) : ByteFile where
  size := size
  byteAt position := if position < file.size then file.byteAt position else 0

/-- `posix_fallocate`, which never shrinks a file, or else `ftruncate`. Neither
takes a size beyond the range of `off_t`, and the first does not take zero. -/
def reserveFileSpace (file : ByteFile) (bytes : Nat) (fallocates : Bool) :
    Except Error ByteFile :=
  if 2 ^ 63 ≤ bytes then .error (.runtimeError "ftruncate failed")
  else if fallocates = true ∧ bytes ≠ 0 then .ok (resizeFile file (max file.size bytes))
  else .ok (resizeFile file bytes)

/-- A free chunk is reused; otherwise the file grows by one chunk. The counter is
raised before the file grows. -/
def allocateChunk (state : State) (type : ChunkType) (fallocates : Bool) : Call ChunkId :=
  let (chunkNo, slots) := (state.slots type).take
  let taken := { state with slots := Function.update state.slots type slots }
  if (state.slots type).free ≠ [] then
    ({ taken with freeCounts := Function.update state.freeCounts type slots.free.length },
      makeChunkId type chunkNo)
  else
    let requiredSize := (chunkNo + 1) * chunkSize type % 2 ^ 64
    match reserveFileSpace (state.chunkFiles type) requiredSize fallocates with
    | .error error => (taken, .error error)
    | .ok file =>
      ({ taken with chunkFiles := Function.update state.chunkFiles type file },
        makeChunkId type chunkNo)

def validateChunkId (state : State) (chunkId : ChunkId) : Except Error Unit := do
  let type ← chunkType chunkId
  let chunkNo := chunkNo chunkId
  reject ((state.slots type).count ≤ chunkNo) (.outOfRange "chunk id is outside allocated range")
  reject (chunkNo ∈ (state.slots type).free)
    (.runtimeError "chunk id points to a deleted chunk")

def deleteChunk (state : State) (chunkId : ChunkId) : Call Unit :=
  let checked := do
    validateChunkId state chunkId
    chunkType chunkId
  match checked with
  | .error error => (state, .error error)
  | .ok type =>
    let slots := (state.slots type).release (chunkNo chunkId)
    ({ state with
        slots := Function.update state.slots type slots
        freeCounts := Function.update state.freeCounts type slots.free.length }, .ok ())

/-- `data` is empty where the source is given a null pointer. The rest of the chunk
is filled with zeros. -/
def writeChunk (state : State) (chunkId : ChunkId) (data : Option (List UInt8)) : Call Unit :=
  match data with
  | none => (state, .error (.invalidArgument "write_chunk data is null"))
  | some bytes =>
    let checked := do
      validateChunkId state chunkId
      let addr ← decodeChunkId chunkId
      reject (addr.size < bytes.length) (.invalidArgument "write size exceeds chunk size")
      .ok addr
    match checked with
    | .error error => (state, .error error)
    | .ok addr =>
      let padded := bytes ++ List.replicate (addr.size - bytes.length) 0
      let file := (state.chunkFiles addr.type).write addr.offset padded
      ({ state with chunkFiles := Function.update state.chunkFiles addr.type file }, .ok ())

def writeNewChunk (state : State) (type : ChunkType) (data : Option (List UInt8))
    (fallocates : Bool) : Call ChunkId :=
  match allocateChunk state type fallocates with
  | (state, .error error) => (state, .error error)
  | (state, .ok chunkId) =>
    match writeChunk state chunkId data with
    | (state, .ok ()) => (state, .ok chunkId)
    | (state, .error error) =>
      match deleteChunk state chunkId with
      | (state, .ok ()) => (state, .error error)
      | (state, .error other) => (state, .error other)

/-- What `pread` finds of a range before the end of the file. -/
def readUpTo (file : ByteFile) (offset count : Nat) : List UInt8 :=
  (List.range (min count (file.size - offset))).map fun index => file.byteAt (offset + index)

/-- The bytes of a chunk, with zeros behind the end of the file. -/
def loadChunk (state : State) (chunkId : ChunkId) : Except Error (List UInt8) := do
  validateChunkId state chunkId
  let addr ← decodeChunkId chunkId
  let bytes := readUpTo (state.chunkFiles addr.type) addr.offset addr.size
  .ok (bytes ++ List.replicate (addr.size - bytes.length) 0)

def kMagic : Nat := 0x5247434D44574342

def kVersion : Nat := 1

def kChunkLevels : Nat := 4

/-- `sizeof(disk_manager_meta_t)`. -/
def metaSize : Nat := 88

/-- The record in memory: its fields and seven bytes that nothing reads. -/
def metaRecord (state : State) : List UInt8 :=
  [encodeLittle 8 kMagic, encodeLittle 4 kVersion, encodeLittle 4 kChunkLevels,
    chunkTypes.flatMap fun type => encodeLittle 8 (state.slots type).count,
    chunkTypes.flatMap fun type => encodeLittle 8 (state.freeCounts type),
    [state.hugePageEnabled], List.replicate 7 0].flatten

def freeListBytes (free : List Nat) : List UInt8 := free.flatMap (encodeLittle 8)

/-- Writes the record and the free lists over the start of the file, and cuts it there. -/
def flushMeta (state : State) : State :=
  let counted := { state with freeCounts := fun type => (state.slots type).free.length }
  let metaBytes :=
    metaSize + (chunkTypes.map fun type => (state.slots type).free.length * 8).sum
  let bytes := metaRecord counted ++
    chunkTypes.flatMap fun type => freeListBytes (state.slots type).free
  { counted with metaFile := (bytes ++ state.metaFile.drop bytes.length).take metaBytes }

structure Meta where
  magic : Nat
  version : Nat
  chunkLevels : Nat
  chunkCounts : List Nat
  freeCounts : List Nat
  hugePageEnabled : UInt8

def unreadable : Error := .runtimeError "failed to read disk manager metadata"

def readMeta : ByteReader Error Meta := do
  let magic ← readWord unreadable 8
  let version ← readWord unreadable 4
  let chunkLevels ← readWord unreadable 4
  let chunkCounts ← readMany (readWord unreadable 8) kChunkLevels
  let freeCounts ← readMany (readWord unreadable 8) kChunkLevels
  let hugePageEnabled ← UInt8.ofNat <$> readWord unreadable 1
  let _ ← readWord unreadable 7
  pure ⟨magic, version, chunkLevels, chunkCounts, freeCounts, hugePageEnabled⟩

/-- One free list, whose numbers lie below the number of chunks. -/
def loadFreeList (chunkCount freeCount : Nat) : ByteReader Error (List Nat) := do
  let free ← readMany (readWord (.runtimeError "failed to read free chunk list") 8) freeCount
  if free.any fun no => decide (chunkCount ≤ no) then
    throw (.runtimeError "invalid free chunk number in metadata")
  else pure free

/-- The pools of the four types, as the metadata file has them. -/
def loadSlots (read : Meta) : List ChunkType → ByteReader Error (List SlotPool)
  | [] => pure []
  | type :: types => do
    let count := read.chunkCounts.getD type.index 0
    let free ← loadFreeList count (read.freeCounts.getD type.index 0)
    let others ← loadSlots read types
    pure (⟨count, free⟩ :: others)

/-- A file that is too short for the record stands for a new store. -/
def loadMeta (state : State) : Except Error State :=
  if state.metaFile.length < metaSize then
    .ok (flushMeta { state with
      slots := fun _ => {}
      freeCounts := fun _ => 0
      hugePageEnabled := 0 })
  else do
    let (read, rest) ← readMeta state.metaFile
    reject (read.magic ≠ kMagic ∨ read.version ≠ kVersion ∨ read.chunkLevels ≠ kChunkLevels)
      (.runtimeError "invalid disk manager metadata")
    let (slots, _) ← loadSlots read chunkTypes rest
    .ok { state with
      slots := fun type => slots.getD type.index {}
      freeCounts := fun type => (slots.getD type.index {}).free.length
      hugePageEnabled := read.hugePageEnabled }

inductive HugePagePolicy
  | disabled | prefer | require
  deriving DecidableEq

def configureHugePageHint (state : State) (policy : HugePagePolicy) (available : Bool) :
    Call Unit :=
  if policy = .disabled then ({ state with hugePageEnabled := 0 }, .ok ())
  else if available = false ∧ policy = .require then
    (state, .error (.runtimeError "2MB huge page support is not available on this platform"))
  else ({ state with hugePageEnabled := if available then 1 else 0 }, .ok ())

/-- `open` without `truncate`, on the files as they are. A manager whose metadata
cannot be read is not used any more. -/
def openFiles (metaFile : List UInt8) (chunkFiles : ChunkType → ByteFile)
    (policy : HugePagePolicy) (available : Bool) : Call Unit :=
  let closed : State := ⟨fun _ => {}, fun _ => 0, 0, metaFile, chunkFiles⟩
  match loadMeta closed with
  | .error error => (closed, .error error)
  | .ok loaded => configureHugePageHint loaded policy available

/-- `close` and `open` again; nothing but the files survives. -/
def reopen (state : State) (policy : HugePagePolicy) (available : Bool) : Call Unit :=
  let closed := flushMeta state
  openFiles closed.metaFile closed.chunkFiles policy available

end DiskManager

end SkipCell.Storage

import SkipCell.Storage.ChunkStore

/-! # The chunk store on a device that refuses

Each call is given what the device makes of its accesses: whether a file opens, grows
and closes, how many bytes of a write are taken before one is refused, and whether
they reach the disk. A call on a device that refuses nothing is the call of the store.
-/

namespace SkipCell.Storage.DiskManager

open Foundation Cache

structure Device where
  opens : Bool
  fallocates : Bool
  /-- The size up to which a `posix_fallocate` that fails has grown the file. -/
  grown : Nat
  truncates : Bool
  closes : Bool
  /-- The bytes that are taken before a write fails. -/
  room : Nat
  syncs : Bool

/-- A stream on a chunk file after `seekp`; a stream that is not good takes nothing. -/
structure Stream where
  file : ByteFile
  position : Nat
  room : Nat
  good : Bool

def Stream.write (stream : Stream) (bytes : List UInt8) : Stream :=
  if stream.good then
    let taken := bytes.take stream.room
    { file := stream.file.store stream.position taken
      position := stream.position + taken.length
      room := stream.room - taken.length
      good := decide (bytes.length ≤ stream.room) }
  else stream

def zeroPageSize : Nat := 4096

/-- The zeros behind the data, page by page. Nobody looks at the stream afterwards. -/
def Stream.writeZeros (stream : Stream) (remaining : Nat) : Stream :=
  if remaining = 0 then stream
  else
    (stream.write (List.replicate (min remaining zeroPageSize) 0)).writeZeros
      (remaining - min remaining zeroPageSize)
termination_by remaining
decreasing_by
  have hpage : 0 < zeroPageSize := by decide
  omega

def checkWrite (state : State) (chunkId : ChunkId) (bytes : List UInt8) : Except Error PageAddr := do
  validateChunkId state chunkId
  let addr ← decodeChunkId chunkId
  reject (addr.size < bytes.length) (.invalidArgument "write size exceeds chunk size")
  .ok addr

namespace Device

variable (device : Device)

/-- A file whose space cannot be allocated is still given its size. -/
def reserveFileSpace (file : ByteFile) (bytes : Nat) : ByteFile × Except Error Unit :=
  let close (file : ByteFile) : ByteFile × Except Error Unit :=
    (file, if device.closes then .ok () else .error (.runtimeError "close failed"))
  if device.opens = false then (file, .error (.runtimeError "open failed"))
  else if 2 ^ 63 ≤ bytes then (file, .error (.runtimeError "ftruncate failed"))
  else if bytes ≠ 0 ∧ device.fallocates = true then close (resizeFile file (max file.size bytes))
  else
    let partly := resizeFile file (max file.size (min bytes device.grown))
    if device.truncates then close (resizeFile partly bytes)
    else (partly, .error (.runtimeError "ftruncate failed"))

def allocateChunk (state : State) (type : ChunkType) : Call ChunkId :=
  let (chunkNo, slots) := (state.slots type).take
  let taken := { state with slots := Function.update state.slots type slots }
  if (state.slots type).free ≠ [] then
    ({ taken with freeCounts := Function.update state.freeCounts type slots.free.length },
      makeChunkId type chunkNo)
  else
    let requiredSize := (chunkNo + 1) * chunkSize type % 2 ^ 64
    let (file, reserved) := device.reserveFileSpace (state.chunkFiles type) requiredSize
    let grown := { taken with chunkFiles := Function.update state.chunkFiles type file }
    match reserved with
    | .error error => (grown, .error error)
    | .ok () => (grown, makeChunkId type chunkNo)

/-- The data and the zeros behind it. `seekp` takes no offset beyond the range of
`streamoff`, and only the write of the data is checked. -/
def writeBytes (syncOnWrite : Bool) (file : ByteFile) (addr : PageAddr) (bytes : List UInt8) :
    ByteFile × Except Error Unit :=
  let opened : Stream := ⟨file, addr.offset, device.room, decide (addr.offset < 2 ^ 63)⟩
  let written := opened.write bytes
  if written.good = false then (written.file, .error (.runtimeError "failed to write chunk"))
  else
    let filled :=
      if bytes.length < addr.size then written.writeZeros (addr.size - bytes.length) else written
    (filled.file,
      if syncOnWrite && !device.syncs then .error (.runtimeError "sync failed") else .ok ())

def writeChunk (syncOnWrite : Bool) (state : State) (chunkId : ChunkId)
    (data : Option (List UInt8)) : Call Unit :=
  match data with
  | none => (state, .error (.invalidArgument "write_chunk data is null"))
  | some bytes =>
    match checkWrite state chunkId bytes with
    | .error error => (state, .error error)
    | .ok addr =>
      let (file, result) :=
        device.writeBytes syncOnWrite (state.chunkFiles addr.type) addr bytes
      ({ state with chunkFiles := Function.update state.chunkFiles addr.type file }, result)

def writeNewChunk (syncOnWrite : Bool) (state : State) (type : ChunkType)
    (data : Option (List UInt8)) : Call ChunkId :=
  match device.allocateChunk state type with
  | (state, .error error) => (state, .error error)
  | (state, .ok chunkId) =>
    match device.writeChunk syncOnWrite state chunkId data with
    | (state, .ok ()) => (state, .ok chunkId)
    | (state, .error error) =>
      match deleteChunk state chunkId with
      | (state, .ok ()) => (state, .error error)
      | (state, .error other) => (state, .error other)

end Device

end SkipCell.Storage.DiskManager

import SkipCell.Foundation.AssocMap

/-! # The LRU page cache

The state of one replacement domain and its mutex-atomic operations. Every
operation returns the state it leaves together with its result, so that a
throwing call keeps the updates made before the throw. `reserve` is one
iteration of its loop; it answers `waiting` where the source releases the lock
until the page has left the in-flight table.
-/

namespace SkipCell.Cache

open Foundation

/-- Page numbers are `uint64_t` in the source. -/
abbrev PageId := Nat

abbrev FrameId := Nat

inductive ChunkType
  | chunk4kb | chunk64kb | chunk512kb | chunk2mb
  deriving DecidableEq

def ChunkType.index : ChunkType → Nat
  | .chunk4kb => 0
  | .chunk64kb => 1
  | .chunk512kb => 2
  | .chunk2mb => 3

inductive ChunkState
  | free | resident
  deriving DecidableEq

/-- The control body of a frame, as far as the cache reads and writes it. -/
structure Chunk where
  chunkId : Nat
  pinCount : Nat
  state : ChunkState

inductive Error
  | logicError (what : String)
  | outOfRange (what : String)
  /-- The source would dereference the end iterator of the resident table. -/
  | danglingLruPosition
  deriving DecidableEq

def Error.prefetchUnderflow : Error := .logicError "LRU unused-prefetch count underflow"

def kChunkNoBits : Nat := 62

def kChunkNoMask : Nat := 2 ^ kChunkNoBits - 1

/-- A chunk number with a bit above the mask is refused. -/
def makeChunkId (type : ChunkType) (chunkNo : Nat) : Except Error Nat :=
  if kChunkNoMask < chunkNo then
    .error (.outOfRange "chunk number exceeds chunk id capacity")
  else
    .ok ((type.index <<< kChunkNoBits) ||| chunkNo)

inductive ReservationState
  | hit | load | bypass
  deriving DecidableEq

inductive Access
  | demand | prefetch | gatewayPrefetch
  deriving DecidableEq

def Access.isPrefetch (access : Access) : Bool := access != .demand

/-- A reservation; `frame` is empty where the source stores a null pointer. -/
structure Reservation where
  state : ReservationState
  pageId : PageId
  frame : Option FrameId
  coalesced : Bool
  evicted : Bool
  access : Access
  prefetchedHit : Bool
  deriving DecidableEq

def Reservation.bypass (pageId : PageId) (access : Access) (coalesced : Bool) : Reservation where
  state := .bypass
  pageId := pageId
  frame := none
  coalesced := coalesced
  evicted := false
  access := access
  prefetchedHit := false

structure Stats where
  demandHits : Nat := 0
  prefetchHits : Nat := 0
  prefetchMisses : Nat := 0
  prefetchUsed : Nat := 0
  prefetchPollutionEvictions : Nat := 0
  prefetchAdmissionRejections : Nat := 0
  prefetchDemandEvictions : Nat := 0
  misses : Nat := 0
  coalescedMisses : Nat := 0
  evictions : Nat := 0
  pinnedVictimFailures : Nat := 0
  failedLoads : Nat := 0

/-- A resident page; its position in the recency list is the page's own place there. -/
structure ResidentEntry where
  frame : FrameId
  prefetchedUnused : Bool
  deriving DecidableEq

/-- The members of the pool. The last element of `freeFrames` is the next one
taken, and the head of `lru` is the most recently used page. -/
structure Pool where
  capacityPages : Nat
  chunkType : ChunkType
  chunks : FrameId → Chunk
  freeFrames : List FrameId
  resident : AssocMap PageId ResidentEntry
  loading : AssocMap PageId FrameId
  lru : List PageId
  prefetchedUnusedCount : Nat
  prefetchAdmissionCredit : Bool
  stats : Stats

namespace Pool

/-- The constructor: every frame is free and bound to its own chunk number. -/
def init (capacityPages : Nat) (chunkType : ChunkType) : Pool where
  capacityPages := capacityPages
  chunkType := chunkType
  chunks frame := ⟨(chunkType.index <<< kChunkNoBits) ||| frame, 0, .free⟩
  freeFrames := List.range capacityPages
  resident := ∅
  loading := ∅
  lru := []
  prefetchedUnusedCount := 0
  prefetchAdmissionCredit := true
  stats := {}

def pinCount (pool : Pool) (frame : FrameId) : Nat := (pool.chunks frame).pinCount

def setChunk (pool : Pool) (frame : FrameId) (update : Chunk → Chunk) : Pool :=
  { pool with chunks := fun other =>
      if other = frame then update (pool.chunks other) else pool.chunks other }

def incPinCount (pool : Pool) (frame : FrameId) : Pool :=
  pool.setChunk frame fun chunk => { chunk with pinCount := chunk.pinCount + 1 }

def decPinCount (pool : Pool) (frame : FrameId) : Pool :=
  pool.setChunk frame fun chunk => { chunk with pinCount := chunk.pinCount - 1 }

def setChunkState (pool : Pool) (frame : FrameId) (state : ChunkState) : Pool :=
  pool.setChunk frame fun chunk => { chunk with state := state }

/-- A mutex-atomic call: the state it leaves and what it returns or throws. -/
abbrev Call (Value : Type) := Pool × Except Error Value

/-- Pins a resident page for a caller; a demand access also makes it the most
recent page and settles its unused-prefetch flag. -/
def hitResident (pool : Pool) (pageId : PageId) (entry : ResidentEntry) (access : Access)
    (coalesced : Bool) : Call Reservation :=
  let pool := pool.incPinCount entry.frame
  let reservation : Reservation :=
    { state := .hit, pageId := pageId, frame := some entry.frame, coalesced := coalesced,
      evicted := false, access := access,
      prefetchedHit := access == .demand && entry.prefetchedUnused }
  if access = .demand then
    let pool :=
      { pool with
        lru := pageId :: pool.lru.erase pageId
        stats.demandHits := pool.stats.demandHits + 1 }
    if entry.prefetchedUnused then
      let pool :=
        { pool with
          resident := pool.resident.insert pageId { entry with prefetchedUnused := false } }
      if pool.prefetchedUnusedCount = 0 then
        (pool, .error .prefetchUnderflow)
      else
        ({ pool with
            prefetchedUnusedCount := pool.prefetchedUnusedCount - 1
            prefetchAdmissionCredit := true
            stats.prefetchUsed := pool.stats.prefetchUsed + 1 }, .ok reservation)
    else
      (pool, .ok reservation)
  else
    ({ pool with stats.prefetchHits := pool.stats.prefetchHits + 1 }, .ok reservation)

/-- The first page of the walk that is not pinned and, where required, is an
unused prefetch. -/
def findVictim (pool : Pool) (requireUnusedPrefetch : Bool) :
    List PageId → Except Error (Option (PageId × ResidentEntry))
  | [] => .ok none
  | pageId :: rest =>
    match pool.resident.lookup pageId with
    | none => .error .danglingLruPosition
    | some entry =>
      if pool.pinCount entry.frame ≠ 0 ∨
          (requireUnusedPrefetch = true ∧ entry.prefetchedUnused = false) then
        findVictim pool requireUnusedPrefetch rest
      else
        .ok (some (pageId, entry))

/-- Drops a victim from the recency list and the resident table. -/
def evict (pool : Pool) (pageId : PageId) (entry : ResidentEntry) : Call FrameId :=
  let drop (pool : Pool) : Call FrameId :=
    ({ pool with
        lru := pool.lru.erase pageId
        resident := pool.resident.erase pageId
        stats.evictions := pool.stats.evictions + 1 }, .ok entry.frame)
  if entry.prefetchedUnused then
    if pool.prefetchedUnusedCount = 0 then
      (pool, .error .prefetchUnderflow)
    else
      drop { pool with
        prefetchedUnusedCount := pool.prefetchedUnusedCount - 1
        stats.prefetchPollutionEvictions := pool.stats.prefetchPollutionEvictions + 1 }
  else
    drop pool

/-- The walk goes from the least recently used page to the most recent one. -/
def selectVictim (pool : Pool) (requireUnusedPrefetch : Bool) : Call (Option FrameId) :=
  match pool.findVictim requireUnusedPrefetch pool.lru.reverse with
  | .error error => (pool, .error error)
  | .ok none => (pool, .ok none)
  | .ok (some (pageId, entry)) =>
    match pool.evict pageId entry with
    | (pool, .error error) => (pool, .error error)
    | (pool, .ok frame) => (pool, .ok (some frame))

/-- A prefetch replaces an unused prefetch first, and a demand page only for the
gateway or on credit. -/
def selectPrefetchVictim (pool : Pool) (access : Access) : Call (Option FrameId) :=
  let attempt :=
    if pool.prefetchedUnusedCount ≠ 0 then pool.selectVictim true else (pool, .ok none)
  match attempt with
  | (pool, .error error) => (pool, .error error)
  | (pool, .ok (some frame)) => (pool, .ok (some frame))
  | (pool, .ok none) =>
    if access = .gatewayPrefetch ∨ pool.prefetchAdmissionCredit = true then
      match pool.selectVictim false with
      | (pool, .error error) => (pool, .error error)
      | (pool, .ok none) => (pool, .ok none)
      | (pool, .ok (some frame)) =>
        ({ pool with
            prefetchAdmissionCredit :=
              if access = .prefetch then false else pool.prefetchAdmissionCredit
            stats.prefetchDemandEvictions := pool.stats.prefetchDemandEvictions + 1 },
          .ok (some frame))
    else
      (pool, .ok none)

/-- A frame for a new load and whether a page was evicted for it. -/
def acquireFrame (pool : Pool) (access : Access) : Call (Option FrameId × Bool) :=
  match pool.freeFrames.getLast? with
  | some frame => ({ pool with freeFrames := pool.freeFrames.dropLast }, .ok (some frame, false))
  | none =>
    match if access.isPrefetch then pool.selectPrefetchVictim access
        else pool.selectVictim false with
    | (pool, .error error) => (pool, .error error)
    | (pool, .ok frame) => (pool, .ok (frame, frame.isSome))

/-- Binds an acquired frame to the page and enters it in the in-flight table. A
page number that does not fit a chunk id throws before either happens. -/
def beginLoad (pool : Pool) (pageId : PageId) (frame : FrameId) (access : Access)
    (coalesced evicted : Bool) : Call Reservation :=
  match makeChunkId pool.chunkType pageId with
  | .error error => (pool, .error error)
  | .ok chunkId =>
    let pool := pool.setChunk frame fun chunk =>
      { chunkId := chunkId, pinCount := chunk.pinCount + 1, state := .free }
    ({ pool with loading := AssocMap.emplace pageId frame pool.loading },
      .ok { state := .load, pageId := pageId, frame := some frame, coalesced := coalesced,
            evicted := evicted, access := access, prefetchedHit := false })

/-- What an iteration of the reservation loop ends with. -/
inductive Progress
  | finished (reservation : Reservation)
  | waiting
  deriving DecidableEq

/-- A miss on a page that nobody is loading. -/
def reserveMiss (pool : Pool) (pageId : PageId) (access : Access) (coalesced : Bool) :
    Call Reservation :=
  let pool :=
    if access.isPrefetch then
      { pool with stats.prefetchMisses := pool.stats.prefetchMisses + 1 }
    else
      { pool with stats.misses := pool.stats.misses + 1 }
  if pool.capacityPages = 0 then
    (pool, .ok (.bypass pageId access coalesced))
  else
    match pool.acquireFrame access with
    | (pool, .error error) => (pool, .error error)
    | (pool, .ok (none, _)) =>
      let pool :=
        if access.isPrefetch then
          { pool with
            stats.prefetchAdmissionRejections := pool.stats.prefetchAdmissionRejections + 1 }
        else
          { pool with stats.pinnedVictimFailures := pool.stats.pinnedVictimFailures + 1 }
      (pool, .ok (.bypass pageId access coalesced))
    | (pool, .ok (some frame, evicted)) => pool.beginLoad pageId frame access coalesced evicted

/-- One iteration of the loop of `reserve_locked`. A caller that waited comes
back with `coalesced` set. -/
def reserveLocked (pool : Pool) (pageId : PageId) (access : Access) (waitForInflight : Bool)
    (coalesced : Bool) : Call Progress :=
  match pool.resident.lookup pageId with
  | some entry =>
    match pool.hitResident pageId entry access coalesced with
    | (pool, .error error) => (pool, .error error)
    | (pool, .ok reservation) => (pool, .ok (.finished reservation))
  | none =>
    if pageId ∈ pool.loading then
      let pool := { pool with stats.coalescedMisses := pool.stats.coalescedMisses + 1 }
      if waitForInflight then
        (pool, .ok .waiting)
      else
        (pool, .ok (.finished (.bypass pageId access true)))
    else
      match pool.reserveMiss pageId access coalesced with
      | (pool, .error error) => (pool, .error error)
      | (pool, .ok reservation) => (pool, .ok (.finished reservation))

/-- Pins a resident page, and bypasses the cache for any other page. -/
def tryReserveHit (pool : Pool) (pageId : PageId) (access : Access) : Call Reservation :=
  match pool.resident.lookup pageId with
  | none => (pool, .ok (.bypass pageId access false))
  | some entry => pool.hitResident pageId entry access false

/-- Exposes a loaded page: a demand load enters as the most recent page, a
prefetched one as the least recent. -/
def publishLoaded (pool : Pool) (pageId : PageId) (frame : FrameId) (access : Access) : Pool :=
  let pool := pool.setChunkState frame .resident
  { pool with
    lru := if access.isPrefetch then pool.lru ++ [pageId] else pageId :: pool.lru
    resident := AssocMap.emplace pageId ⟨frame, access.isPrefetch⟩ pool.resident
    prefetchedUnusedCount :=
      if access.isPrefetch then pool.prefetchedUnusedCount + 1 else pool.prefetchedUnusedCount }

/-- Returns the frame of a failed load to the free frames. -/
def rollBack (pool : Pool) (frame : FrameId) : Pool :=
  let pool := (pool.setChunkState frame .free).decPinCount frame
  { pool with
    freeFrames := pool.freeFrames ++ [frame]
    stats.failedLoads := pool.stats.failedLoads + 1 }

def publish (pool : Pool) (reservation : Reservation) (success : Bool) : Call Unit :=
  match reservation.state, reservation.frame with
  | .load, some frame =>
    if pool.loading.lookup reservation.pageId = some frame then
      let pool := { pool with loading := pool.loading.erase reservation.pageId }
      if success then
        (pool.publishLoaded reservation.pageId frame reservation.access, .ok ())
      else
        (pool.rollBack frame, .ok ())
    else
      (pool, .error (.logicError "LRU publication does not match an in-flight page"))
  | _, _ => (pool, .ok ())

def release (pool : Pool) (reservation : Reservation) : Call Unit :=
  match reservation.frame with
  | none => (pool, .ok ())
  | some frame =>
    if reservation.state = .bypass then
      (pool, .ok ())
    else if pool.pinCount frame = 0 then
      (pool, .error (.logicError "LRU frame pin count underflow"))
    else
      (pool.decPinCount frame, .ok ())

/-- The walk of `clear` over the resident table. It has already freed the chunk
states before the first pinned frame when it throws there. -/
def clearResident (pool : Pool) : List (Sigma fun _ : PageId => ResidentEntry) → Call Unit
  | [] => (pool, .ok ())
  | ⟨_, entry⟩ :: rest =>
    if pool.pinCount entry.frame ≠ 0 then
      (pool, .error (.logicError "cannot clear LRU while a resident page is pinned"))
    else
      clearResident (pool.setChunkState entry.frame .free) rest

def clear (pool : Pool) : Call Unit :=
  if pool.loading.entries ≠ [] then
    (pool, .error (.logicError "cannot clear LRU while page loads are in flight"))
  else
    match pool.clearResident pool.resident.entries with
    | (pool, .error error) => (pool, .error error)
    | (pool, .ok ()) =>
      ({ pool with
          resident := ∅
          lru := []
          freeFrames := List.range pool.capacityPages
          prefetchedUnusedCount := 0
          prefetchAdmissionCredit := true
          stats := {} }, .ok ())

end Pool

end SkipCell.Cache

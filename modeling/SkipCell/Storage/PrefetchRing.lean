import SkipCell.Foundation.Transition

/-! # The io_uring reader

One ring context serves the demand reads and the prefetches of a thread. The kernel
may complete operations in any order, at any moment and with any result; every turn
of a loop that takes a completion is a step of its own. An exception leaves the
rings as they are and loses the local variables of the call.
-/

namespace SkipCell.Storage

open Foundation

/-- `aligned_read_t`. -/
structure Request where
  offset : UInt64
  len : UInt64
  buffer : Nat
  deriving DecidableEq

/-- A submission queue entry. The `serial` tells operations apart that carry the
same user data. -/
structure Operation where
  serial : Nat
  request : Request
  userData : UInt64
  deriving DecidableEq

structure Completion where
  operation : Operation
  result : Int
  deriving DecidableEq

/-- The depth of the ring, as the constructor accepts it; the kernel makes the
submission queue at least as long. -/
structure Depth where
  queueDepth : Nat
  submissionEntries : Nat
  depth_pos : 0 < queueDepth
  depth_le : queueDepth ≤ 4096
  depth_le_entries : queueDepth ≤ submissionEntries

def sectorLen : Int := 4096

def prefetchTagMask : UInt64 := 0x8000000000000000

def isPrefetchTag (tag : UInt64) : Bool := tag &&& prefetchTagMask != 0

def decodePrefetchTag (tag : UInt64) : UInt64 := tag &&& ~~~prefetchTagMask

def Operation.isPrefetch (operation : Operation) : Bool := isPrefetchTag operation.userData

/-- The batches of a call of `read` that are over. -/
structure Read where
  requests : List Request
  batchBegin : Nat := 0
  finished : List Operation := []
  deriving DecidableEq

/-- Where the thread stands. `counted` lists the completions that
`demand_completions` counts. -/
inductive Phase
  | idle
  | capacity (call : Read)
  | demand (call : Read) (batch : List Operation) (counted : List Completion)
      (demandCompletions : Nat)
  | returned (call : Read)
  | polling (tags : List UInt64)
  | completing (tags : List UInt64)
  deriving DecidableEq

/-- The ring context. `accepted` lists every operation that the kernel took,
`consumed` every completion marked as seen, and `handedOut` the tags that
`poll_prefetches` and `complete_prefetches` returned. -/
structure State where
  serials : Nat := 0
  unsubmitted : List Operation := []
  inFlight : List Operation := []
  completions : List Completion := []
  pendingPrefetches : Nat := 0
  readyPrefetchTags : List UInt64 := []
  phase : Phase := .idle
  accepted : List Operation := []
  consumed : List Completion := []
  handedOut : List UInt64 := []

/-- `submitted` is what `io_uring_submit` returns, `stale` the user data that a
submission entry holds before it is set. -/
inductive Action
  | complete (position : Nat) (result : Int)
  | submitPrefetch (request : Request) (tag : UInt64) (stale : UInt64) (submitted : Int)
  | read (requests : List Request)
  | submitBatch (submitted : Int)
  | wait (failed : Bool)
  | pollPrefetches
  | completePrefetches
  | peek (found : Bool)
  | finish

namespace State

/-- An exception. -/
def throw (state : State) : State := { state with phase := .idle }

/-- `io_uring_get_sqe` and what is written to the entry. -/
def prepare (state : State) (request : Request) (userData : UInt64) : State :=
  { state with
    serials := state.serials + 1
    unsubmitted := state.unsubmitted ++ [⟨state.serials, request, userData⟩] }

/-- The kernel takes the first `count` entries. -/
def submit (state : State) (count : Nat) : State :=
  { state with
    unsubmitted := state.unsubmitted.drop count
    inFlight := state.inFlight ++ state.unsubmitted.take count
    accepted := state.accepted ++ state.unsubmitted.take count }

/-- `io_uring_cqe_seen`. -/
def seen (state : State) (event : Completion) (rest : List Completion) : State :=
  { state with completions := rest, consumed := state.consumed ++ [event] }

/-- A prefetch was counted as complete and its tag is ready. -/
def ready (state : State) (event : Completion) : State :=
  { state with
    pendingPrefetches := state.pendingPrefetches - 1
    readyPrefetchTags :=
      state.readyPrefetchTags ++ [decodePrefetchTag event.operation.userData] }

end State

def batchOperations (serials : Nat) (requests : List Request) (batchBegin batchSize : Nat) :
    List Operation :=
  ((requests.drop batchBegin).take batchSize).mapIdx fun operation request =>
    ⟨serials + operation, request, .ofNat operation⟩

variable (ring : Depth)

def batchSize (state : State) (call : Read) : Nat :=
  min (ring.queueDepth - state.pendingPrefetches) (call.requests.length - call.batchBegin)

/-- The length that the completion of a batch's entry must report. -/
def expected (call : Read) (size : Nat) (tag : UInt64) : Nat :=
  if tag.toNat < size then
    match call.requests[call.batchBegin + tag.toNat]? with
    | some request => request.len.toNat
    | none => 2 ^ 64 - 1
  else 2 ^ 64 - 1

def performSubmitPrefetch (state : State) (request : Request) (tag stale : UInt64)
    (submitted : Int) : State :=
  if ring.queueDepth ≤ state.pendingPrefetches then state.throw
  else if ring.submissionEntries ≤ state.unsubmitted.length then state.throw
  -- The tag is checked when the entry is already taken.
  else if isPrefetchTag tag then (state.prepare request stale).throw
  else
    let next := (state.prepare request (tag ||| prefetchTagMask)).submit submitted.toNat
    if submitted = 1 then { next with pendingPrefetches := next.pendingPrefetches + 1 }
    else next.throw

def performSubmitBatch (state : State) (call : Read) (submitted : Int) : State :=
  let size := batchSize ring state call
  let batch := batchOperations state.serials call.requests call.batchBegin size
  let room := ring.submissionEntries - state.unsubmitted.length
  if room < size then
    { state with
      serials := state.serials + room
      unsubmitted := state.unsubmitted ++ batch.take room }.throw
  else
    let next := { state with
      serials := state.serials + size
      unsubmitted := state.unsubmitted ++ batch }.submit submitted.toNat
    if submitted = size then { next with phase := .demand call batch [] 0 } else next.throw

/-- A completion taken while a read waits for room in the ring. -/
def receiveCapacity (state : State) (event : Completion) : State :=
  if !event.operation.isPrefetch || event.result != sectorLen then state.throw
  else state.ready event

/-- A completion taken while a read waits for its batch. -/
def receiveDemand (state : State) (call : Read) (batch : List Operation)
    (counted : List Completion) (demandCompletions : Nat) (event : Completion) : State :=
  if event.operation.isPrefetch then
    if state.pendingPrefetches = 0 || event.result != sectorLen then state.throw
    else state.ready event
  else if event.result < 0 ∨
      event.result.toNat ≠ expected call batch.length event.operation.userData then state.throw
  else
    { state with
      phase := .demand call batch (counted ++ [event]) (demandCompletions + 1) }

/-- A completion taken by `poll_prefetches` or `complete_prefetches`; `phase` says
which of them goes on with the longer list of tags. -/
def receivePrefetch (state : State) (phase : List UInt64 → Phase) (tags : List UInt64)
    (event : Completion) : State :=
  if !event.operation.isPrefetch || event.result != sectorLen then state.throw
  else
    { state with
      pendingPrefetches := state.pendingPrefetches - 1
      phase := phase (tags ++ [decodePrefetchTag event.operation.userData]) }

def receive (state : State) (event : Completion) : State :=
  match state.phase with
  | .capacity _ => receiveCapacity state event
  | .demand call batch counted demandCompletions =>
    receiveDemand state call batch counted demandCompletions event
  | .polling tags => receivePrefetch state .polling tags event
  | .completing tags => receivePrefetch state .completing tags event
  | .idle | .returned _ => state

/-- `io_uring_wait_cqe`, or a successful `io_uring_peek_cqe`, and what follows. -/
def take (state : State) : State :=
  match state.completions with
  | [] => state
  | event :: rest => receive (state.seen event rest) event

/-- The loop the thread is in ends. -/
def finish (state : State) : State :=
  match state.phase with
  | .idle => state
  | .capacity call => { state with phase := .returned call }
  | .demand call batch _ _ =>
    { state with
      phase := .capacity
        { call with
          batchBegin := call.batchBegin + batch.length
          finished := call.finished ++ batch } }
  | .returned _ => { state with phase := .idle }
  | .polling tags | .completing tags =>
    { state with phase := .idle, handedOut := state.handedOut ++ tags }

/-- A loop of the current call waits for a completion. -/
def waiting (state : State) : Bool :=
  match state.phase with
  | .capacity call =>
    call.batchBegin < call.requests.length && ring.queueDepth ≤ state.pendingPrefetches
  | .demand _ batch _ demandCompletions => demandCompletions < batch.length
  | .completing _ => state.pendingPrefetches != 0
  | .idle | .returned _ | .polling _ => false

/-- The loop of the current call is over. -/
def finished (state : State) : Bool :=
  match state.phase with
  | .idle => false
  | .capacity call => call.requests.length ≤ call.batchBegin
  | .demand _ batch _ demandCompletions => batch.length ≤ demandCompletions
  | .returned _ => true
  | .polling _ | .completing _ => state.pendingPrefetches == 0

def permitted (state : State) : Action → Prop
  | .complete position _ => position < state.inFlight.length
  | .submitPrefetch _ _ _ submitted =>
    state.phase = .idle ∧ submitted.toNat ≤ state.unsubmitted.length + 1
  | .read _ | .pollPrefetches | .completePrefetches => state.phase = .idle
  | .submitBatch submitted =>
    match state.phase with
    | .capacity call =>
      call.batchBegin < call.requests.length ∧
        state.pendingPrefetches < ring.queueDepth ∧
        submitted.toNat ≤ state.unsubmitted.length + batchSize ring state call
    | _ => False
  | .wait failed =>
    waiting ring state = true ∧ (failed = true ∨ state.completions.isEmpty = false)
  | .peek found =>
    match state.phase with
    | .polling _ =>
      state.pendingPrefetches ≠ 0 ∧ (found = true → state.completions.isEmpty = false)
    | _ => False
  | .finish => finished state = true

instance (state : State) (action : Action) : Decidable (permitted ring state action) := by
  cases action <;> unfold permitted <;> (repeat' split) <;> infer_instance

def perform (state : State) : Action → State
  | .complete position result =>
    match state.inFlight[position]? with
    | none => state
    | some operation =>
      { state with
        inFlight := state.inFlight.eraseIdx position
        completions := state.completions ++ [⟨operation, result⟩] }
  | .submitPrefetch request tag stale submitted =>
    performSubmitPrefetch ring state request tag stale submitted
  | .read requests => { state with phase := .capacity { requests } }
  | .submitBatch submitted =>
    match state.phase with
    | .capacity call => performSubmitBatch ring state call submitted
    | _ => state
  | .wait failed => if failed then state.throw else take state
  | .pollPrefetches =>
    { state with phase := .polling state.readyPrefetchTags, readyPrefetchTags := [] }
  | .completePrefetches =>
    { state with phase := .completing state.readyPrefetchTags, readyPrefetchTags := [] }
  | .peek found => if found then take state else finish state
  | .finish => finish state

/-- All runs of one ring context from its registration on. -/
def system : Transition State Action :=
  Transition.guarded (fun state => state = {}) (permitted ring) (perform ring)

end SkipCell.Storage

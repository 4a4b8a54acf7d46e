import SkipCell.Storage.PrefetchRing

/-! # Accounting of completions

As long as no call ends while operations of its own are under way, every
completion that a call takes is its own or that of a prefetch, and the counters of
the ring context are exact after any sequence of calls.
-/

namespace SkipCell.Storage

open Foundation

/-- The accepted operations whose completion was not taken. -/
def State.unconsumed (state : State) : List Operation :=
  state.accepted.filter fun operation => operation ∉ state.consumed.map Completion.operation

/-- The tags that a call has collected and not yet returned. -/
def Phase.collected : Phase → List UInt64
  | .polling tags | .completing tags => tags
  | .idle | .capacity _ | .demand _ _ _ _ | .returned _ => []

def tagsOf (events : List Completion) : List UInt64 :=
  (events.filter (·.operation.isPrefetch)).map fun event =>
    decodePrefetchTag event.operation.userData

def CompletedIn (events : List Completion) (operation : Operation) : Prop :=
  ∃ event ∈ events, event.operation = operation ∧
    event.result = (operation.request.len.toNat : Int)

structure Accounted (state : State) : Prop where
  /-- `pending_prefetches` counts the prefetches whose completion was not taken. -/
  pending : state.pendingPrefetches = state.unconsumed.countP Operation.isPrefetch
  /-- Each tag of a completion that was taken was handed out once, or will be. -/
  handedOut : (state.handedOut ++ state.readyPrefetchTags ++ state.phase.collected).Perm
    (tagsOf state.consumed)
  /-- A read that returns has had all its requests completed in full. -/
  returned : ∀ call, state.phase = .returned call →
    call.finished.map Operation.request = call.requests ∧
      ∀ operation ∈ call.finished, CompletedIn state.consumed operation
  /-- What a read counts are completions of its own batch. -/
  counted : ∀ call batch counted demandCompletions,
    state.phase = .demand call batch counted demandCompletions →
      ∀ event ∈ counted, event.operation ∈ batch

/-- The completion of a prefetch that is taken is full; a demand read that failed is
the last operation of its batch. -/
def SafeEvent (state : State) : Prop :=
  match state.completions with
  | [] => True
  | event :: rest =>
    if event.operation.isPrefetch then event.result = sectorLen
    else
      match state.phase with
      | .demand call batch _ _ =>
        event.result = (expected call batch.length event.operation.userData : Int) ∨
          ∀ operation ∈ state.inFlight ++ rest.map Completion.operation,
            operation.isPrefetch = true
      | _ => True

instance (state : State) : Decidable (SafeEvent state) := by
  delta SafeEvent
  rcases state.completions with _ | _ <;> rcases state.phase with _ | _ | _ | _ | _ | _ <;>
    dsimp only <;> infer_instance

/-- Every submission is accepted as a whole, waiting only fails where no call has
anything to lose, and no prefetch has a tag that does not fit. -/
def safe (ring : Depth) (state : State) : Action → Prop
  | .submitPrefetch _ tag _ submitted =>
    ring.queueDepth ≤ state.pendingPrefetches ∨ isPrefetchTag tag = false ∧ submitted = 1
  | .submitBatch submitted =>
    match state.phase with
    | .capacity call => submitted = (batchSize ring state call : Int)
    | _ => True
  | .wait true =>
    match state.phase with
    | .demand _ _ _ _ => False
    | phase => phase.collected = []
  | .wait false | .peek true => SafeEvent state
  | _ => True

instance (ring : Depth) (state : State) (action : Action) :
    Decidable (safe ring state action) := by
  delta safe
  rcases action with _ | _ | _ | _ | ⟨_ | _⟩ | _ | _ | ⟨_ | _⟩ | _ <;>
    rcases state.phase with _ | _ | _ | _ | _ | _ <;> dsimp only <;> infer_instance

theorem toBitVec_prefetchTagMask : prefetchTagMask.toBitVec = BitVec.twoPow 64 63 := rfl

theorem isPrefetchTag_eq (tag : UInt64) : isPrefetchTag tag = tag.toBitVec.getLsbD 63 := by
  rw [isPrefetchTag, Bool.eq_iff_iff, bne_iff_ne, ne_eq, ← UInt64.toBitVec_inj, UInt64.toBitVec_and,
    toBitVec_prefetchTagMask, BitVec.and_twoPow]
  cases tag.toBitVec.getLsbD 63 with
  | false => simp
  | true => decide

theorem isPrefetchTag_encode (tag : UInt64) : isPrefetchTag (tag ||| prefetchTagMask) = true := by
  rw [isPrefetchTag_eq, UInt64.toBitVec_or, toBitVec_prefetchTagMask, BitVec.getLsbD_or,
    BitVec.getLsbD_twoPow]
  simp

theorem isPrefetchTag_position {position : Nat} (hposition : position < 4096) :
    isPrefetchTag (.ofNat position) = false := by
  rw [isPrefetchTag_eq, UInt64.toBitVec_ofNat', BitVec.getLsbD_ofNat]
  rw [Nat.testBit_lt_two_pow (by omega), Bool.and_false]

/-! ## The operations under way -/

/-- What the kernel took and no call has taken back. -/
def State.outstanding (state : State) : List Operation :=
  state.inFlight ++ state.completions.map Completion.operation

/-- The books of the ring, whatever call is going on. -/
structure Ledger (state : State) : Prop where
  unsubmitted : state.unsubmitted = []
  accepted : state.accepted.Perm
    (state.outstanding ++ state.consumed.map Completion.operation)
  distinct : (state.accepted.map Operation.serial).Nodup
  below : ∀ operation ∈ state.accepted, operation.serial < state.serials
  pending : state.pendingPrefetches = state.outstanding.countP Operation.isPrefetch

/-- Only a read in its demand loop has operations of its own under way: those of its
batch that it has not counted. -/
def Demanded (ring : Depth) (consumed : List Completion) (outstanding : List Operation) :
    Phase → Prop
  | .demand call batch counted demandCompletions =>
    batch.Perm (counted.map Completion.operation ++
      outstanding.filter fun operation => !operation.isPrefetch) ∧
    counted.length = demandCompletions ∧
    (∀ event ∈ counted, event ∈ consumed ∧
      event.result = (event.operation.request.len.toNat : Int)) ∧
    batch.map Operation.request = (call.requests.drop call.batchBegin).take batch.length ∧
    (∀ (position : Nat) (operation : Operation), batch[position]? = some operation →
      operation.userData = .ofNat position) ∧
    batch.length ≤ ring.queueDepth
  | _ => ∀ operation ∈ outstanding, operation.isPrefetch = true

/-- The batches that are over were completed in full. -/
def Read.Sound (consumed : List Completion) (call : Read) : Prop :=
  call.batchBegin ≤ call.requests.length ∧
    call.finished.map Operation.request = call.requests.take call.batchBegin ∧
    ∀ operation ∈ call.finished, CompletedIn consumed operation

def ReadSound (consumed : List Completion) : Phase → Prop
  | .capacity call | .demand call _ _ _ => call.Sound consumed
  | .returned call => call.Sound consumed ∧ call.requests.length ≤ call.batchBegin
  | .idle | .polling _ | .completing _ => True

structure Consistent (ring : Depth) (state : State) : Prop where
  ledger : Ledger state
  handedOut : (state.handedOut ++ state.readyPrefetchTags ++ state.phase.collected).Perm
    (tagsOf state.consumed)
  demanded : Demanded ring state.consumed state.outstanding state.phase
  sound : ReadSound state.consumed state.phase

theorem CompletedIn.mono {events more : List Completion} {operation : Operation}
    (hcompleted : CompletedIn events operation) (hsubset : events ⊆ more) :
    CompletedIn more operation := by
  obtain ⟨event, hevent, hrest⟩ := hcompleted
  exact ⟨event, hsubset hevent, hrest⟩

theorem ReadSound.mono {consumed more : List Completion} {phase : Phase}
    (hsound : ReadSound consumed phase) (hsubset : consumed ⊆ more) : ReadSound more phase := by
  have hread : ∀ call : Read, call.Sound consumed → call.Sound more :=
    fun call ⟨hbegin, hrequests, hfinished⟩ =>
      ⟨hbegin, hrequests, fun operation hmem => (hfinished operation hmem).mono hsubset⟩
  cases phase with
  | capacity call => exact hread call hsound
  | demand call batch counted demandCompletions => exact hread call hsound
  | returned call => exact ⟨hread call hsound.1, hsound.2⟩
  | idle => trivial
  | polling tags => trivial
  | completing tags => trivial

theorem Demanded.mono {ring : Depth} {consumed more : List Completion}
    {outstanding other : List Operation} {phase : Phase}
    (hdemanded : Demanded ring consumed outstanding phase) (hsubset : consumed ⊆ more)
    (hperm : (other.filter fun operation => !operation.isPrefetch).Perm
      (outstanding.filter fun operation => !operation.isPrefetch)) :
    Demanded ring more other phase := by
  have hprefetches : (∀ operation ∈ outstanding, operation.isPrefetch = true) →
      ∀ operation ∈ other, operation.isPrefetch = true := by
    intro hall operation hmem
    by_contra hdemand
    have hfiltered : operation ∈ outstanding.filter fun operation => !operation.isPrefetch :=
      hperm.mem_iff.mp (List.mem_filter.mpr ⟨hmem, by simpa using hdemand⟩)
    exact hdemand (hall operation (List.mem_filter.mp hfiltered).1)
  cases phase with
  | demand call batch counted demandCompletions =>
    obtain ⟨hbatch, hlength, hcounted, hrest⟩ := hdemanded
    exact ⟨hbatch.trans (hperm.symm.append_left _), hlength,
      fun event hevent => ⟨hsubset (hcounted event hevent).1, (hcounted event hevent).2⟩, hrest⟩
  | idle => exact hprefetches hdemanded
  | capacity call => exact hprefetches hdemanded
  | returned call => exact hprefetches hdemanded
  | polling tags => exact hprefetches hdemanded
  | completing tags => exact hprefetches hdemanded

theorem Ledger.unconsumed_perm {state : State} (hledger : Ledger state) :
    state.unconsumed.Perm state.outstanding := by
  have hdistinct := List.Nodup.of_map _ hledger.distinct
  have hnodup := hledger.accepted.nodup_iff.mp hdistinct
  obtain ⟨-, -, hdisjoint⟩ := List.nodup_append.mp hnodup
  have hkept : ∀ operation ∈ state.outstanding,
      decide (operation ∉ state.consumed.map Completion.operation) = true := by
    intro operation hoperation
    rw [decide_eq_true_iff]
    intro hconsumed
    exact hdisjoint operation hoperation operation hconsumed rfl
  have hdropped : (state.consumed.map Completion.operation).filter
      (fun operation => operation ∉ state.consumed.map Completion.operation) = [] := by
    rw [List.filter_eq_nil_iff]
    simp
  have hfiltered := hledger.accepted.filter
    fun operation => operation ∉ state.consumed.map Completion.operation
  rwa [List.filter_append, hdropped, List.append_nil, List.filter_eq_self.mpr hkept] at hfiltered

theorem Consistent.accounted {ring : Depth} {state : State} (hconsistent : Consistent ring state) :
    Accounted state where
  pending := by
    rw [hconsistent.ledger.unconsumed_perm.countP_eq]
    exact hconsistent.ledger.pending
  handedOut := hconsistent.handedOut
  returned := by
    intro call hphase
    obtain ⟨⟨hbegin, hrequests, hfinished⟩, hover⟩ : ReadSound state.consumed (.returned call) := by
      rw [← hphase]
      exact hconsistent.sound
    rw [List.take_of_length_le hover] at hrequests
    exact ⟨hrequests, hfinished⟩
  counted := by
    intro call batch counted demandCompletions hphase event hevent
    have hdemanded := hconsistent.demanded
    rw [hphase] at hdemanded
    apply hdemanded.1.mem_iff.mpr
    exact List.mem_append_left _ (List.mem_map_of_mem hevent)

/-! ## Steps that take no completion -/

section Steps

variable {ring : Depth} {state : State}

theorem Consistent.moved (hconsistent : Consistent ring state) {inFlight : List Operation}
    {completions : List Completion}
    (hperm : (inFlight ++ completions.map Completion.operation).Perm state.outstanding) :
    Consistent ring { state with inFlight, completions } where
  ledger :=
    { hconsistent.ledger with
      accepted := hconsistent.ledger.accepted.trans (hperm.symm.append_right _)
      pending := hconsistent.ledger.pending.trans (hperm.countP_eq _).symm }
  handedOut := hconsistent.handedOut
  demanded := hconsistent.demanded.mono (List.Subset.refl _) (hperm.filter _)
  sound := hconsistent.sound

theorem Consistent.goTo (hconsistent : Consistent ring state) (phase : Phase)
    (tags handedOut : List UInt64)
    (htags : (handedOut ++ tags ++ phase.collected).Perm
      (state.handedOut ++ state.readyPrefetchTags ++ state.phase.collected))
    (hdemanded : Demanded ring state.consumed state.outstanding phase)
    (hsound : ReadSound state.consumed phase) :
    Consistent ring { state with phase, handedOut, readyPrefetchTags := tags } where
  ledger := { hconsistent.ledger with }
  handedOut := htags.trans hconsistent.handedOut
  demanded := hdemanded
  sound := hsound

/-- Without own operations under way, an exception leaves the books in order, unless
it loses tags. -/
theorem Consistent.throw (hconsistent : Consistent ring state)
    (hprefetches : ∀ operation ∈ state.outstanding, operation.isPrefetch = true)
    (hcollected : state.phase.collected = []) : Consistent ring state.throw := by
  refine hconsistent.goTo .idle _ _ ?_ hprefetches trivial
  rw [hcollected]
  rfl

theorem Ledger.accept (hledger : Ledger state) {batch : List Operation} {serials : Nat}
    (hdistinct : (batch.map Operation.serial).Nodup)
    (hfresh : ∀ operation ∈ batch,
      state.serials ≤ operation.serial ∧ operation.serial < serials)
    (hserials : state.serials ≤ serials) :
    Ledger { state with
      serials
      inFlight := state.inFlight ++ batch
      accepted := state.accepted ++ batch
      pendingPrefetches := state.pendingPrefetches + batch.countP Operation.isPrefetch } where
  unsubmitted := hledger.unsubmitted
  accepted := by
    have hmove : (state.outstanding ++ state.consumed.map Completion.operation ++ batch).Perm
        (state.inFlight ++ batch ++ state.completions.map Completion.operation ++
          state.consumed.map Completion.operation) := by
      rw [State.outstanding, List.append_assoc, List.append_assoc, List.append_assoc,
        List.append_assoc]
      apply List.Perm.append_left
      rw [← List.append_assoc]
      exact List.perm_append_comm
    exact (hledger.accepted.append_right batch).trans hmove
  distinct := by
    rw [List.map_append]
    apply List.nodup_append.mpr
    refine ⟨hledger.distinct, hdistinct, ?_⟩
    intro old hold new hnew heq
    obtain ⟨operation, hoperation, rfl⟩ := List.mem_map.mp hold
    obtain ⟨added, hadded, rfl⟩ := List.mem_map.mp hnew
    have hbelow := hledger.below operation hoperation
    have hfrom := (hfresh added hadded).1
    omega
  below := by
    intro operation hoperation
    rcases List.mem_append.mp hoperation with hold | hnew
    · exact Nat.lt_of_lt_of_le (hledger.below operation hold) hserials
    · exact (hfresh operation hnew).2
  pending := by
    change state.pendingPrefetches + batch.countP Operation.isPrefetch =
      (state.inFlight ++ batch ++ state.completions.map Completion.operation).countP _
    have hpending := hledger.pending
    rw [State.outstanding, List.countP_append] at hpending
    rw [List.countP_append, List.countP_append]
    omega

/-- The call submits operations and stands where it waits for them. -/
theorem Consistent.accept (hconsistent : Consistent ring state) {batch : List Operation}
    {serials : Nat} {phase : Phase} (hdistinct : (batch.map Operation.serial).Nodup)
    (hfresh : ∀ operation ∈ batch,
      state.serials ≤ operation.serial ∧ operation.serial < serials)
    (hserials : state.serials ≤ serials) (hcollected : phase.collected = state.phase.collected)
    (hdemanded : Demanded ring state.consumed (state.outstanding ++ batch) phase)
    (hsound : ReadSound state.consumed phase) :
    Consistent ring { state with
      serials
      phase
      inFlight := state.inFlight ++ batch
      accepted := state.accepted ++ batch
      pendingPrefetches := state.pendingPrefetches + batch.countP Operation.isPrefetch } where
  ledger := { hconsistent.ledger.accept hdistinct hfresh hserials with }
  handedOut := by
    rw [hcollected]
    exact hconsistent.handedOut
  demanded := by
    apply hdemanded.mono (List.Subset.refl _)
    apply List.Perm.filter
    change (state.inFlight ++ batch ++ state.completions.map Completion.operation).Perm
      (state.inFlight ++ state.completions.map Completion.operation ++ batch)
    rw [List.append_assoc, List.append_assoc]
    exact List.perm_append_comm.append_left _
  sound := hsound

theorem room (ring : Depth) : ¬ ring.submissionEntries ≤ 0 := by
  have := ring.depth_pos
  have := ring.depth_le_entries
  omega

theorem Consistent.submitPrefetch (hconsistent : Consistent ring state) (hidle : state.phase = .idle)
    {request : Request} {tag stale : UInt64} {submitted : Int}
    (hsafe : safe ring state (.submitPrefetch request tag stale submitted)) :
    Consistent ring (performSubmitPrefetch ring state request tag stale submitted) := by
  have hprefetches : ∀ operation ∈ state.outstanding, operation.isPrefetch = true := by
    have hdemanded := hconsistent.demanded
    rwa [hidle] at hdemanded
  unfold performSubmitPrefetch
  rw [hconsistent.ledger.unsubmitted, List.length_nil, if_neg (room ring)]
  split
  next => exact hconsistent.throw hprefetches (by rw [hidle]; rfl)
  next hfull =>
    obtain ⟨htag, rfl⟩ := hsafe.resolve_left hfull
    rw [if_neg (by rw [htag]; nofun), if_pos rfl]
    set operation : Operation := ⟨state.serials, request, tag ||| prefetchTagMask⟩ with hoperation
    have hprefetch : operation.isPrefetch = true := isPrefetchTag_encode tag
    have hadded : ∀ other ∈ state.outstanding ++ [operation], other.isPrefetch = true := by
      intro other hother
      rcases List.mem_append.mp hother with hold | hnew
      · exact hprefetches other hold
      · obtain rfl := List.mem_singleton.mp hnew
        exact hprefetch
    have haccepted : Consistent ring { state with
        serials := state.serials + 1
        phase := .idle
        inFlight := state.inFlight ++ [operation]
        accepted := state.accepted ++ [operation]
        pendingPrefetches := state.pendingPrefetches + [operation].countP Operation.isPrefetch } :=
      hconsistent.accept (List.nodup_singleton _) (by simp [hoperation]) (Nat.le_succ _)
        (by rw [hidle]) hadded trivial
    rw [List.countP_singleton, hprefetch] at haccepted
    convert haccepted using 1
    simp only [State.submit, State.prepare, hconsistent.ledger.unsubmitted, hidle]
    rfl

section Batch

variable (serials : Nat) (requests : List Request) (batchBegin size : Nat)

theorem length_batchOperations :
    (batchOperations serials requests batchBegin size).length =
      min size (requests.length - batchBegin) := by
  rw [batchOperations, List.length_mapIdx, List.length_take, List.length_drop]

theorem getElem?_batchOperations {position : Nat} {operation : Operation}
    (hoperation : (batchOperations serials requests batchBegin size)[position]? =
      some operation) :
    position < size ∧ operation.serial = serials + position ∧
      operation.userData = .ofNat position := by
  rw [batchOperations, List.getElem?_mapIdx, Option.map_eq_some_iff] at hoperation
  obtain ⟨request, hrequest, rfl⟩ := hoperation
  obtain ⟨hposition, -⟩ := List.getElem_of_getElem? hrequest
  rw [List.length_take] at hposition
  exact ⟨by omega, rfl, rfl⟩

theorem requests_batchOperations :
    (batchOperations serials requests batchBegin size).map Operation.request =
      (requests.drop batchBegin).take size := by
  apply List.ext_getElem?
  intro position
  rw [batchOperations, List.getElem?_map, List.getElem?_mapIdx]
  cases ((requests.drop batchBegin).take size)[position]? with
  | none => rfl
  | some request => rfl

theorem distinct_batchOperations :
    ((batchOperations serials requests batchBegin size).map Operation.serial).Nodup := by
  rw [List.nodup_iff_getElem?_ne_getElem?]
  intro first second hlt hsecond heq
  rw [List.length_map] at hsecond
  have hlater := List.getElem?_eq_getElem hsecond
  have hearlier := List.getElem?_eq_getElem (Nat.lt_trans hlt hsecond)
  rw [List.getElem?_map, List.getElem?_map, hlater, hearlier] at heq
  have hserials := Option.some.inj heq
  rw [(getElem?_batchOperations _ _ _ _ hlater).2.1,
    (getElem?_batchOperations _ _ _ _ hearlier).2.1] at hserials
  omega

end Batch

theorem Consistent.submitBatch (hconsistent : Consistent ring state) {call : Read}
    {submitted : Int} (hphase : state.phase = .capacity call)
    (hsubmitted : submitted = (batchSize ring state call : Int)) :
    Consistent ring (performSubmitBatch ring state call submitted) := by
  have hdemanded := hconsistent.demanded
  have hsound := hconsistent.sound
  rw [hphase] at hdemanded hsound
  set size := batchSize ring state call with hsize
  have hdepth : size ≤ ring.queueDepth := by
    rw [hsize, batchSize]
    omega
  have hremain : size ≤ call.requests.length - call.batchBegin := by
    rw [hsize, batchSize]
    omega
  set batch := batchOperations state.serials call.requests call.batchBegin size with hbatch
  have hlength : batch.length = size := by
    rw [hbatch, length_batchOperations]
    omega
  have hdemand : ∀ operation ∈ batch, operation.isPrefetch = false := by
    intro operation hoperation
    obtain ⟨position, hposition⟩ := List.getElem?_of_mem hoperation
    obtain ⟨hlt, -, hdata⟩ := getElem?_batchOperations _ _ _ _ hposition
    have hbound := ring.depth_le
    rw [Operation.isPrefetch, hdata, isPrefetchTag_position (by omega)]
  have hfresh : ∀ operation ∈ batch,
      state.serials ≤ operation.serial ∧ operation.serial < state.serials + size := by
    intro operation hoperation
    obtain ⟨position, hposition⟩ := List.getElem?_of_mem hoperation
    obtain ⟨hlt, hserial, -⟩ := getElem?_batchOperations _ _ _ _ hposition
    omega
  have hown : (state.outstanding ++ batch).filter (fun operation => !operation.isPrefetch) =
      batch := by
    rw [List.filter_append, List.filter_eq_nil_iff.mpr, List.nil_append, List.filter_eq_self.mpr]
    · intro operation hoperation
      rw [hdemand operation hoperation]
      rfl
    · intro operation hoperation
      rw [hdemanded operation hoperation]
      nofun
  have haccepted : Consistent ring { state with
      serials := state.serials + size
      phase := .demand call batch [] 0
      inFlight := state.inFlight ++ batch
      accepted := state.accepted ++ batch
      pendingPrefetches := state.pendingPrefetches + batch.countP Operation.isPrefetch } := by
    apply hconsistent.accept (distinct_batchOperations _ _ _ _) hfresh (Nat.le_add_right _ _)
    · rw [hphase]
      rfl
    · refine ⟨?_, rfl, List.forall_mem_nil _, ?_, ?_, ?_⟩
      · rw [hown]
        rfl
      · rw [hlength]
        exact requests_batchOperations _ _ _ _
      · intro position operation hposition
        exact (getElem?_batchOperations _ _ _ _ hposition).2.2
      · rw [hlength]
        exact hdepth
    · exact hsound
  have hnone : batch.countP Operation.isPrefetch = 0 := by
    rw [List.countP_eq_zero]
    intro operation hoperation
    rw [hdemand operation hoperation]
    nofun
  unfold performSubmitBatch
  rw [hconsistent.ledger.unsubmitted, List.length_nil, Nat.sub_zero, if_neg, if_pos hsubmitted]
  · rw [hnone] at haccepted
    convert haccepted using 1
    simp only [State.submit, hconsistent.ledger.unsubmitted, List.nil_append]
    rw [hsubmitted, Int.toNat_natCast, ← hlength, List.take_length, List.drop_length]
    rw [hlength]
    rfl
  · have := ring.depth_le_entries
    omega

/-! ## Steps that take a completion -/

section Take

variable {event : Completion} {rest : List Completion}

theorem outstanding_seen (hcompletions : state.completions = event :: rest) :
    state.outstanding.Perm (event.operation :: (state.seen event rest).outstanding) := by
  rw [State.outstanding, hcompletions, List.map_cons]
  exact List.perm_middle

theorem tagsOf_append_prefetch {events : List Completion}
    (hprefetch : event.operation.isPrefetch = true) :
    tagsOf (events ++ [event]) = tagsOf events ++ [decodePrefetchTag event.operation.userData] := by
  rw [tagsOf, List.filter_append, List.map_append, List.filter_singleton, hprefetch]
  rfl

theorem tagsOf_append_demand {events : List Completion}
    (hdemand : event.operation.isPrefetch = false) : tagsOf (events ++ [event]) = tagsOf events := by
  rw [tagsOf, List.filter_append, List.map_append, List.filter_singleton, hdemand]
  exact List.append_nil _

theorem Ledger.seen (hledger : Ledger state) (hcompletions : state.completions = event :: rest) :
    Ledger { state.seen event rest with
      pendingPrefetches :=
        state.pendingPrefetches - [event.operation].countP Operation.isPrefetch } where
  unsubmitted := hledger.unsubmitted
  accepted := by
    change state.accepted.Perm ((state.seen event rest).outstanding ++
      (state.consumed ++ [event]).map Completion.operation)
    rw [List.map_append, ← List.append_assoc]
    refine (hledger.accepted.trans ((outstanding_seen hcompletions).append_right _)).trans ?_
    exact (List.perm_append_singleton _ _).symm
  distinct := hledger.distinct
  below := hledger.below
  pending := by
    change state.pendingPrefetches - [event.operation].countP Operation.isPrefetch =
      (state.seen event rest).outstanding.countP Operation.isPrefetch
    rw [hledger.pending, (outstanding_seen hcompletions).countP_eq, ← List.singleton_append,
      List.countP_append, Nat.add_sub_cancel_left]

section

variable (hconsistent : Consistent ring state) (hcompletions : state.completions = event :: rest)
include hconsistent hcompletions

theorem Consistent.prefetched (hprefetch : event.operation.isPrefetch = true) (phase : Phase)
    (tags : List UInt64)
    (htags : (state.handedOut ++ tags ++ phase.collected).Perm (state.handedOut ++
      state.readyPrefetchTags ++ state.phase.collected ++ [decodePrefetchTag
        event.operation.userData]))
    (hdemanded : Demanded ring state.consumed state.outstanding phase)
    (hsound : ReadSound state.consumed phase) :
    Consistent ring { state.seen event rest with
      pendingPrefetches := state.pendingPrefetches - 1
      readyPrefetchTags := tags
      phase } where
  ledger := by
    have hledger := hconsistent.ledger.seen hcompletions
    rw [List.countP_singleton, hprefetch] at hledger
    exact { hledger with }
  handedOut := by
    change (state.handedOut ++ tags ++ phase.collected).Perm (tagsOf (state.consumed ++ [event]))
    rw [tagsOf_append_prefetch hprefetch]
    exact htags.trans (hconsistent.handedOut.append_right _)
  demanded := by
    apply hdemanded.mono (List.subset_append_left _ _)
    have hperm := (outstanding_seen hcompletions).filter fun operation => !operation.isPrefetch
    rw [List.filter_cons_of_neg (by rw [hprefetch]; nofun)] at hperm
    exact hperm.symm
  sound := hsound.mono (List.subset_append_left _ _)

theorem Consistent.readied (hprefetch : event.operation.isPrefetch = true)
    (hcollected : state.phase.collected = []) :
    Consistent ring ((state.seen event rest).ready event) := by
  refine hconsistent.prefetched hcompletions hprefetch state.phase _ ?_ hconsistent.demanded
    hconsistent.sound
  rw [hcollected, List.append_nil, List.append_nil, List.append_assoc]
  exact List.Perm.refl _

theorem Consistent.demandSeen (hdemand : event.operation.isPrefetch = false) {phase : Phase}
    (hcollected : phase.collected = state.phase.collected)
    (hdemanded : Demanded ring (state.consumed ++ [event]) (state.seen event rest).outstanding
      phase)
    (hsound : ReadSound state.consumed phase) :
    Consistent ring { state.seen event rest with phase } where
  ledger := by
    have hledger := hconsistent.ledger.seen hcompletions
    rw [List.countP_singleton, hdemand] at hledger
    exact { hledger with }
  handedOut := by
    change (state.handedOut ++ state.readyPrefetchTags ++ phase.collected).Perm
      (tagsOf (state.consumed ++ [event]))
    rw [tagsOf_append_demand hdemand, hcollected]
    exact hconsistent.handedOut
  demanded := hdemanded
  sound := hsound.mono (List.subset_append_left _ _)

end

theorem expected_own {call : Read} {batch : List Operation} {operation : Operation}
    (hoperation : operation ∈ batch)
    (hrequests : batch.map Operation.request =
      (call.requests.drop call.batchBegin).take batch.length)
    (hdata : ∀ (position : Nat) (operation : Operation), batch[position]? = some operation →
      operation.userData = .ofNat position)
    (hdepth : batch.length ≤ ring.queueDepth) :
    expected call batch.length operation.userData = operation.request.len.toNat := by
  obtain ⟨position, hposition⟩ := List.getElem?_of_mem hoperation
  obtain ⟨hlt, -⟩ := List.getElem_of_getElem? hposition
  have hbound := ring.depth_le
  have hrequest := congrArg (·[position]?) hrequests
  simp only [List.getElem?_map, hposition, Option.map_some, List.getElem?_take, if_pos hlt,
    List.getElem?_drop] at hrequest
  have hword : operation.userData.toNat = position := by
    rw [hdata position operation hposition, UInt64.toNat_ofNat', Nat.mod_eq_of_lt (by omega)]
  rw [expected, hword, if_pos hlt, ← hrequest]

theorem Consistent.takeDemand (hconsistent : Consistent ring state)
    (hcompletions : state.completions = event :: rest) (hsafe : SafeEvent state)
    {call : Read} {batch : List Operation} {counted : List Completion} {demandCompletions : Nat}
    (hphase : state.phase = .demand call batch counted demandCompletions) :
    Consistent ring (receiveDemand (state.seen event rest) call batch counted demandCompletions
      event) := by
  have hdemanded := hconsistent.demanded
  have hsound := hconsistent.sound
  unfold SafeEvent at hsafe
  rw [hphase] at hdemanded hsound
  rw [hcompletions] at hsafe
  simp only [hphase] at hsafe
  unfold receiveDemand
  cases hprefetch : event.operation.isPrefetch with
  | true =>
    have hpending : (state.seen event rest).pendingPrefetches ≠ 0 := by
      change state.pendingPrefetches ≠ 0
      rw [hconsistent.ledger.pending, (outstanding_seen hcompletions).countP_eq,
        List.countP_cons_of_pos hprefetch]
      exact Nat.succ_ne_zero _
    rw [if_pos rfl, if_neg]
    · exact hconsistent.readied hcompletions hprefetch (by rw [hphase]; rfl)
    · rw [if_pos hprefetch] at hsafe
      simp [hpending, hsafe]
  | false =>
    obtain ⟨hbatch, hlength, hcounted, hrequests, hdata, hdepth⟩ := hdemanded
    have hseen := (outstanding_seen hcompletions).filter fun operation => !operation.isPrefetch
    rw [List.filter_cons_of_pos (by rw [hprefetch]; rfl)] at hseen
    have hown : event.operation ∈ batch :=
      hbatch.mem_iff.mpr (List.mem_append_right _ (hseen.mem_iff.mpr List.mem_cons_self))
    have hexpected := expected_own hown hrequests hdata hdepth
    rw [if_neg nofun]
    split
    next hfailed =>
      -- The last operation of the batch failed; nothing of this read is left.
      have hprefetches := hsafe
      rw [if_neg (by rw [hprefetch]; nofun)] at hprefetches
      apply hconsistent.demandSeen hcompletions hprefetch
      · rw [hphase]
        rfl
      · apply hprefetches.resolve_left
        omega
      · trivial
    next hfull =>
      apply hconsistent.demandSeen hcompletions hprefetch
      · rw [hphase]
        rfl
      · refine ⟨?_, ?_, ?_, hrequests, hdata, hdepth⟩
        · rw [List.map_append, List.append_assoc]
          exact hbatch.trans (hseen.append_left _)
        · rw [List.length_append, hlength]
          rfl
        · intro taken htaken
          rcases List.mem_append.mp htaken with hold | hnew
          · exact ⟨List.mem_append_left _ (hcounted taken hold).1, (hcounted taken hold).2⟩
          · obtain rfl := List.mem_singleton.mp hnew
            refine ⟨List.mem_append_right _ hnew, ?_⟩
            omega
      · exact hsound

theorem prefetch_of_all (hcompletions : state.completions = event :: rest)
    (hprefetches : ∀ operation ∈ state.outstanding, operation.isPrefetch = true)
    (hsafe : SafeEvent state) :
    event.operation.isPrefetch = true ∧ event.result = sectorLen := by
  have hprefetch : event.operation.isPrefetch = true :=
    hprefetches _ ((outstanding_seen hcompletions).mem_iff.mpr List.mem_cons_self)
  refine ⟨hprefetch, ?_⟩
  unfold SafeEvent at hsafe
  rw [hcompletions] at hsafe
  simpa only [hprefetch, if_true] using hsafe

theorem Consistent.receivePrefetch (hconsistent : Consistent ring state)
    (hcompletions : state.completions = event :: rest) (hsafe : SafeEvent state)
    (phase : List UInt64 → Phase) (tags : List UInt64)
    (hcollected : ∀ tags, (phase tags).collected = tags)
    (hplain : ∀ tags, Demanded ring state.consumed state.outstanding (phase tags) ↔
      ∀ operation ∈ state.outstanding, operation.isPrefetch = true)
    (hsound : ∀ tags, ReadSound state.consumed (phase tags)) (hphase : state.phase = phase tags) :
    Consistent ring (receivePrefetch (state.seen event rest) phase tags event) := by
  have hdemanded := hconsistent.demanded
  rw [hphase, hplain] at hdemanded
  obtain ⟨hprefetch, hfull⟩ := prefetch_of_all hcompletions hdemanded hsafe
  unfold Storage.receivePrefetch
  rw [if_neg (by simp [hprefetch, hfull])]
  refine hconsistent.prefetched hcompletions hprefetch _ _ ?_ ((hplain _).mpr hdemanded) (hsound _)
  rw [hphase, hcollected, hcollected, ← List.append_assoc]
  exact List.Perm.refl _

theorem Consistent.take (hconsistent : Consistent ring state) (hsafe : SafeEvent state)
    (hidle : state.phase ≠ .idle) (hreturned : ∀ call, state.phase ≠ .returned call) :
    Consistent ring (take state) := by
  unfold Storage.take
  split
  next => exact hconsistent
  next event rest hcompletions =>
    unfold receive
    cases hphase : state.phase with
    | idle => exact absurd hphase hidle
    | returned call => exact absurd hphase (hreturned call)
    | demand call batch counted demandCompletions =>
      have hnext := hconsistent.takeDemand hcompletions hsafe hphase
      simpa only [State.seen, hphase] using hnext
    | capacity call =>
      have hdemanded := hconsistent.demanded
      rw [hphase] at hdemanded
      obtain ⟨hprefetch, hfull⟩ := prefetch_of_all hcompletions hdemanded hsafe
      have hnext := hconsistent.readied hcompletions hprefetch (by rw [hphase]; rfl)
      simpa only [State.seen, hphase, receiveCapacity, hprefetch, hfull, Bool.not_true,
        bne_self_eq_false, Bool.or_false, Bool.false_eq_true, if_false] using hnext
    | polling tags =>
      have hnext := hconsistent.receivePrefetch hcompletions hsafe .polling tags
        (fun _ => rfl) (fun _ => Iff.rfl) (fun _ => trivial) hphase
      simpa only [State.seen, hphase] using hnext
    | completing tags =>
      have hnext := hconsistent.receivePrefetch hcompletions hsafe .completing tags
        (fun _ => rfl) (fun _ => Iff.rfl) (fun _ => trivial) hphase
      simpa only [State.seen, hphase] using hnext

end Take

theorem Consistent.complete (hconsistent : Consistent ring state) (position : Nat) (result : Int) :
    Consistent ring (perform ring state (.complete position result)) := by
  rw [perform]
  split
  next => exact hconsistent
  next operation hoperation =>
    apply hconsistent.moved
    obtain ⟨hposition, hget⟩ := List.getElem_of_getElem? hoperation
    have htaken := List.getElem_cons_eraseIdx_perm hposition
    rw [hget] at htaken
    rw [List.map_append, ← List.append_assoc]
    refine (List.perm_append_singleton _ _).trans ?_
    exact htaken.append_right _

theorem Consistent.finish (hconsistent : Consistent ring state)
    (hfinished : finished state = true ∨ ∃ tags, state.phase = .polling tags) :
    Consistent ring (finish state) := by
  have hdemanded := hconsistent.demanded
  have hsound := hconsistent.sound
  unfold Storage.finish
  cases hphase : state.phase with
  | idle => exact hconsistent
  | capacity call =>
    rw [hphase] at hdemanded hsound
    have hover : call.requests.length ≤ call.batchBegin := by
      rcases hfinished with hfinished | ⟨tags, hpolling⟩
      · simpa only [finished, hphase, decide_eq_true_eq] using hfinished
      · rw [hphase] at hpolling
        cases hpolling
    refine hconsistent.goTo (.returned call) _ _ ?_ hdemanded ⟨hsound, hover⟩
    rw [hphase]
    exact List.Perm.refl _
  | demand call batch counted demandCompletions =>
    rw [hphase] at hdemanded hsound
    have hover : batch.length ≤ demandCompletions := by
      rcases hfinished with hfinished | ⟨tags, hpolling⟩
      · simpa only [finished, hphase, decide_eq_true_eq] using hfinished
      · rw [hphase] at hpolling
        cases hpolling
    obtain ⟨hbatch, hlength, hcounted, hrequests, -, -⟩ := hdemanded
    obtain ⟨hbegin, hbefore, hfinished⟩ := hsound
    -- Every operation of the batch was counted, so none of them is under way.
    have hnone : state.outstanding.filter (fun operation => !operation.isPrefetch) = [] := by
      have hcount := hbatch.length_eq
      rw [List.length_append, List.length_map] at hcount
      apply List.eq_nil_of_length_eq_zero
      omega
    rw [hnone, List.append_nil] at hbatch
    have hsize := congrArg List.length hrequests
    rw [List.length_map, List.length_take, List.length_drop] at hsize
    refine hconsistent.goTo (.capacity _) _ _ ?_ ?_ ⟨?_, ?_, ?_⟩
    · rw [hphase]
      exact List.Perm.refl _
    · intro operation hoperation
      have hkept := List.filter_eq_nil_iff.mp hnone operation hoperation
      simpa using hkept
    · change call.batchBegin + batch.length ≤ call.requests.length
      omega
    · rw [List.map_append, hbefore, hrequests, List.take_add]
    · intro operation hoperation
      rcases List.mem_append.mp hoperation with hold | hnew
      · exact hfinished operation hold
      · obtain ⟨event, hevent, rfl⟩ := List.mem_map.mp (hbatch.mem_iff.mp hnew)
        exact ⟨event, (hcounted event hevent).1, rfl, (hcounted event hevent).2⟩
  | returned call =>
    rw [hphase] at hdemanded
    refine hconsistent.goTo .idle _ _ ?_ hdemanded trivial
    rw [hphase]
    exact List.Perm.refl _
  | polling tags =>
    rw [hphase] at hdemanded
    refine hconsistent.goTo .idle _ _ ?_ hdemanded trivial
    rw [hphase]
    simp only [Phase.collected, List.append_nil, List.append_assoc]
    exact List.perm_append_comm.append_left _
  | completing tags =>
    rw [hphase] at hdemanded
    refine hconsistent.goTo .idle _ _ ?_ hdemanded trivial
    rw [hphase]
    simp only [Phase.collected, List.append_nil, List.append_assoc]
    exact List.perm_append_comm.append_left _

theorem Consistent.step (hconsistent : Consistent ring state) {action : Action}
    (hpermitted : permitted ring state action) (hsafe : safe ring state action) :
    Consistent ring (perform ring state action) := by
  cases action with
  | complete position result => exact hconsistent.complete position result
  | submitPrefetch request tag stale submitted =>
    exact hconsistent.submitPrefetch hpermitted.1 hsafe
  | read requests =>
    have hdemanded := hconsistent.demanded
    rw [hpermitted] at hdemanded
    refine hconsistent.goTo (.capacity { requests }) _ _ ?_ hdemanded
      ⟨Nat.zero_le _, rfl, List.forall_mem_nil _⟩
    rw [hpermitted]
    exact List.Perm.refl _
  | submitBatch submitted =>
    rw [perform]
    split
    next call hphase =>
      simp only [safe, hphase] at hsafe
      exact hconsistent.submitBatch hphase hsafe
    next => exact hconsistent
  | wait failed =>
    have hwaiting := hpermitted.1
    cases failed with
    | false =>
      apply hconsistent.take hsafe
      · intro hidle
        simp [waiting, hidle] at hwaiting
      · intro call hreturned
        simp [waiting, hreturned] at hwaiting
    | true =>
      have hdemanded := hconsistent.demanded
      unfold safe at hsafe
      cases hphase : state.phase with
      | demand call batch counted demandCompletions => simp [hphase] at hsafe
      | idle =>
        rw [hphase] at hdemanded
        exact hconsistent.throw hdemanded (by rw [hphase]; rfl)
      | capacity call =>
        rw [hphase] at hdemanded
        exact hconsistent.throw hdemanded (by rw [hphase]; rfl)
      | returned call =>
        rw [hphase] at hdemanded
        exact hconsistent.throw hdemanded (by rw [hphase]; rfl)
      | polling tags =>
        rw [hphase] at hdemanded
        simp only [hphase] at hsafe
        exact hconsistent.throw hdemanded (by rw [hphase]; exact hsafe)
      | completing tags =>
        rw [hphase] at hdemanded
        simp only [hphase] at hsafe
        exact hconsistent.throw hdemanded (by rw [hphase]; exact hsafe)
  | pollPrefetches =>
    have hdemanded := hconsistent.demanded
    rw [hpermitted] at hdemanded
    refine hconsistent.goTo (.polling _) _ _ ?_ hdemanded trivial
    rw [hpermitted]
    simp [Phase.collected]
  | completePrefetches =>
    have hdemanded := hconsistent.demanded
    rw [hpermitted] at hdemanded
    refine hconsistent.goTo (.completing _) _ _ ?_ hdemanded trivial
    rw [hpermitted]
    simp [Phase.collected]
  | peek found =>
    obtain ⟨tags, hphase⟩ : ∃ tags, state.phase = .polling tags := by
      simp only [permitted] at hpermitted
      split at hpermitted
      next tags hphase => exact ⟨tags, hphase⟩
      next => cases hpermitted
    cases found with
    | false => exact hconsistent.finish (Or.inr ⟨tags, hphase⟩)
    | true =>
      apply hconsistent.take hsafe
      · simp [hphase]
      · simp [hphase]
  | finish => exact hconsistent.finish (Or.inl hpermitted)

theorem consistent_start (ring : Depth) : Consistent ring {} where
  ledger :=
    { unsubmitted := rfl
      accepted := List.Perm.nil
      distinct := List.nodup_nil
      below := List.forall_mem_nil _
      pending := rfl }
  handedOut := List.Perm.nil
  demanded := List.forall_mem_nil _
  sound := trivial

/-- In every run of safe steps the counters and tags are exact, and a read that
returns has read everything. -/
theorem accounted_of_safe (ring : Depth) {state : State}
    (hreach : ((system ring).restrict (safe ring)).Reachable state) : Accounted state := by
  have hconsistent : Consistent ring state := by
    apply hreach.invariant
    · rintro start rfl
      exact consistent_start ring
    · rintro before action after hbefore ⟨hsafe, hpermitted, rfl⟩
      exact hbefore.step hpermitted hsafe
  exact hconsistent.accounted

end Steps

/-- A ring of depth 4. -/
def smallRing : Depth := ⟨4, 4, by decide, by decide, by decide⟩

def sector (position : Nat) : Request := ⟨.ofNat (4096 * position), 4096, position⟩

/-- A prefetch completes while a read waits, and is handed out after a read whose last
operation failed. -/
def mixedCalls : List Action :=
  [.submitPrefetch (sector 9) 5 0 1, .read [sector 0, sector 1], .submitBatch 2,
    .complete 0 4096, .complete 1 4096, .wait false, .wait false, .complete 0 (-5), .wait false,
    .completePrefetches, .finish]

theorem accounted_of_safe_mixedCalls :
    Accounted (mixedCalls.foldl (perform smallRing) {}) := by
  apply accounted_of_safe smallRing
  refine Transition.reachable_restrict_of_permitted ?_ ?_
  · rfl
  · decide +kernel

/-- The second of two demand reads fails first; the first completes when the call has
already ended, and is counted for the next call. -/
def leftover : List Action :=
  [.read [sector 0, sector 1], .submitBatch 2, .complete 1 (-5), .wait false, .complete 0 4096,
    .read [sector 2], .submitBatch 1, .wait false, .finish, .finish]

theorem leftover_counted :
    ∃ state : State, (system smallRing).Reachable state ∧ ¬ Accounted state ∧
      ∃ call, state.phase = .returned call ∧ call.requests = [sector 2] ∧
        (∀ event ∈ state.consumed, event.operation.request ≠ sector 2) := by
  have hphase : ∃ call, (leftover.foldl (perform smallRing) {}).phase = .returned call ∧
      call.requests = [sector 2] ∧ (∀ operation ∈ call.finished, operation.request = sector 2) ∧
      call.finished ≠ [] := ⟨⟨[sector 2], 1, [⟨2, sector 2, 0⟩]⟩, by decide +kernel⟩
  obtain ⟨call, hreturned, hrequests, hown, hsome⟩ := hphase
  have hunread : ∀ event ∈ (leftover.foldl (perform smallRing) {}).consumed,
      event.operation.request ≠ sector 2 := by decide +kernel
  refine ⟨_, ?_, ?_, call, hreturned, hrequests, hunread⟩
  · refine Transition.reachable_of_permitted ?_ ?_
    · rfl
    · decide +kernel
  · intro haccounted
    obtain ⟨operation, hoperation⟩ := List.exists_mem_of_ne_nil _ hsome
    obtain ⟨event, hevent, rfl, -⟩ := (haccounted.returned call hreturned).2 operation hoperation
    exact hunread event hevent (hown _ hoperation)

end SkipCell.Storage

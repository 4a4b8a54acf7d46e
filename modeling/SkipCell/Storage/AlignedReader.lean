import SkipCell.Foundation.Checks

/-! # The libaio reader

A read goes in batches to the Base file and then to the overlay; each batch is
submitted and its events are awaited by their number. The kernel answers each
batch as it likes: it accepts some of the operations and delivers events of any
operations that are in flight, with any result.
-/

namespace SkipCell.Storage

open Foundation

/-- `aligned_read_t`: a range of a file and the buffer it is read into. -/
structure AlignedRead where
  offset : Nat
  len : Nat
  buf : Nat
  deriving DecidableEq

/-- The two files that a reader has open. -/
inductive Descriptor
  | base
  | overlay
  deriving DecidableEq

structure AlignedFileReader where
  fileOpen : Bool := true
  /-- The virtual offset of the overlay, where one is open. -/
  overlayVirtualOffset : Option Nat := none

/-- A control block that has been submitted; the token tells it apart from every
other. -/
structure IoOperation where
  token : Nat
  file : Descriptor
  request : AlignedRead
  deriving DecidableEq

/-- `io_event`: the number of bytes read, or a negative error. -/
structure IoEvent where
  operation : IoOperation
  result : Int

/-- A native context: the operations whose events have not been collected. -/
structure IoContext where
  inFlight : List IoOperation := []
  nextToken : Nat := 0
  deriving DecidableEq

/-- What the two system calls of a batch answer: the number of accepted operations
or a negative error, and the delivered events or a negative error. -/
structure BatchAnswer where
  submitted : Int
  completed : Except Nat (List IoEvent)

/-- What `io_getevents` returns; the errors are the negative numbers. -/
def BatchAnswer.completedCount (answer : BatchAnswer) : Int :=
  match answer.completed with
  | .ok events => events.length
  | .error code => Int.negSucc code

def BatchAnswer.events (answer : BatchAnswer) : List IoEvent :=
  match answer.completed with
  | .ok events => events
  | .error _ => []

def IoContext.submit (context : IoContext) (operations : List IoOperation) (submitted : Int) :
    IoContext where
  inFlight := context.inFlight ++ operations.take submitted.toNat
  nextToken := context.nextToken + operations.length

def IoContext.collect (context : IoContext) (events : List IoEvent) : IoContext :=
  { context with inFlight := context.inFlight.diff (events.map IoEvent.operation) }

def kMaxEvents : Nat := 1024

structure Batch where
  file : Descriptor
  requests : List AlignedRead
  deriving DecidableEq

/-- The batches of `execute_io`. -/
def batchesOf (file : Descriptor) (requests : List AlignedRead) : List Batch :=
  (List.range ((requests.length + kMaxEvents - 1) / kMaxEvents)).map fun batch =>
    ⟨file, (requests.drop (batch * kMaxEvents)).take kMaxEvents⟩

/-- The control blocks of a batch, numbered from `token`. -/
def Batch.operations (batch : Batch) (token : Nat) : List IoOperation :=
  batch.requests.mapIdx fun operation request => ⟨token + operation, batch.file, request⟩

/-- `libaio_error`, without the C library's text of a negative result. -/
def libaioError (operation : String) (result : Int) : String :=
  operation ++ " failed; returned " ++ toString result

/-- The loop of `execute_io`, with the kernel's answer for each batch. -/
def executeIo (kernel : Nat → BatchAnswer) :
    Nat → List Batch → IoContext → IoContext × Except String Unit
  | _, [], context => (context, .ok ())
  | position, batch :: batches, context =>
    let operations := batch.operations context.nextToken
    let answer := kernel position
    let context := context.submit operations answer.submitted
    if answer.submitted ≠ operations.length then
      (context, .error (libaioError "io_submit()" answer.submitted ++ "; expected " ++
        toString operations.length))
    else
      let context := context.collect answer.events
      if answer.completedCount ≠ operations.length then
        (context, .error (libaioError "io_getevents()" answer.completedCount ++ "; expected " ++
          toString operations.length))
      else
        executeIo kernel (position + 1) batches context

namespace AlignedFileReader

/-- The requests of each file; one that reaches over the boundary is refused. -/
def route (virtualOffset : Nat) : List AlignedRead →
    Except String (List AlignedRead × List AlignedRead)
  | [] => .ok ([], [])
  | request :: requests =>
    if virtualOffset ≤ request.offset then do
      let (base, overlay) ← route virtualOffset requests
      .ok (base, { request with offset := request.offset - virtualOffset } :: overlay)
    else if virtualOffset - request.offset < request.len then
      .error "Aligned read crosses the Base/overlay boundary"
    else do
      let (base, overlay) ← route virtualOffset requests
      .ok (request :: base, overlay)

/-- The batches of a call of `read`, in the order of their submission. -/
def batches (reader : AlignedFileReader) (requests : List AlignedRead) :
    Except String (List Batch) := do
  reject (reader.fileOpen = false) "Libaio reader has no open disk index"
  match reader.overlayVirtualOffset with
  | none => .ok (batchesOf .base requests)
  | some virtualOffset => do
    let (base, overlay) ← route virtualOffset requests
    .ok (batchesOf .base base ++ batchesOf .overlay overlay)

def read (reader : AlignedFileReader) (kernel : Nat → BatchAnswer) (requests : List AlignedRead)
    (context : IoContext) : IoContext × Except String Unit :=
  match reader.batches requests with
  | .error message => (context, .error message)
  | .ok batches => executeIo kernel 0 batches context

end AlignedFileReader

/-- The operations of the batches, numbered from `token`. -/
def operationsOf : List Batch → Nat → List IoOperation
  | [], _ => []
  | batch :: batches, token =>
    batch.operations token ++ operationsOf batches (token + batch.requests.length)

/-- The events that the kernel delivers for batches counted from `position`. -/
def eventsOf (kernel : Nat → BatchAnswer) : Nat → List Batch → List IoEvent
  | _, [] => []
  | position, _ :: batches => (kernel position).events ++ eventsOf kernel (position + 1) batches

/-- In every batch the kernel accepts and delivers as many as the batch has. -/
def CountsMatch (kernel : Nat → BatchAnswer) : Nat → List Batch → Prop
  | _, [] => True
  | position, batch :: batches =>
    ((kernel position).submitted = batch.requests.length ∧
      (kernel position).completedCount = batch.requests.length) ∧
      CountsMatch kernel (position + 1) batches

/-- What the kernel promises for each batch that it is asked for the events of: an
event is of an operation in flight, and of each at most once. -/
def KernelLegal (kernel : Nat → BatchAnswer) : Nat → List Batch → IoContext → Prop
  | _, [], _ => True
  | position, batch :: batches, context =>
    let answer := kernel position
    let submitted := context.submit (batch.operations context.nextToken) answer.submitted
    answer.submitted = batch.requests.length →
      (answer.events.map IoEvent.operation).Subperm submitted.inFlight ∧
        (answer.completedCount = batch.requests.length →
          KernelLegal kernel (position + 1) batches (submitted.collect answer.events))

/-- The tokens of a context are below its next one and distinct. -/
structure IoContext.Fresh (context : IoContext) : Prop where
  below : ∀ operation ∈ context.inFlight, operation.token < context.nextToken
  nodup : context.inFlight.Nodup

def IoEvent.Full (event : IoEvent) : Prop := event.result = event.operation.request.len

instance (event : IoEvent) : Decidable event.Full := inferInstanceAs (Decidable (_ = _))

/-! ## Counting -/

@[simp]
theorem length_operations (batch : Batch) (token : Nat) :
    (batch.operations token).length = batch.requests.length := by
  simp [Batch.operations]

variable {kernel : Nat → BatchAnswer} {position token : Nat} {batches : List Batch}
    {context : IoContext}

theorem executeIo_ok :
    (executeIo kernel position batches context).2 = .ok () ↔
      CountsMatch kernel position batches := by
  induction batches generalizing position context with
  | nil => simp [executeIo, CountsMatch]
  | cons batch batches ih =>
    simp only [executeIo, CountsMatch, length_operations]
    split
    · next hsubmit => simp [hsubmit]
    · next hsubmit =>
        split
        · next hcomplete => simp [hcomplete]
        · next hcomplete =>
            rw [ih]
            simp [not_not.mp hsubmit, not_not.mp hcomplete]

theorem token_of_mem_operations {batch : Batch} {operation : IoOperation}
    (hmem : operation ∈ batch.operations token) :
    token ≤ operation.token ∧ operation.token < token + batch.requests.length := by
  obtain ⟨index, hindex, rfl⟩ := List.mem_mapIdx.mp hmem
  exact ⟨Nat.le_add_right _ _, by simpa using hindex⟩

theorem token_of_mem_operationsOf {operation : IoOperation}
    (hmem : operation ∈ operationsOf batches token) : token ≤ operation.token := by
  induction batches generalizing token with
  | nil => cases hmem
  | cons batch batches ih =>
    simp only [operationsOf, List.mem_append] at hmem
    rcases hmem with hmem | hmem
    · exact (token_of_mem_operations hmem).1
    · exact Nat.le_trans (Nat.le_add_right _ _) (ih hmem)

theorem nodup_operations (batch : Batch) (token : Nat) : (batch.operations token).Nodup := by
  refine List.nodup_iff_getElem?_ne_getElem?.mpr fun first second hlt hbound heq => ?_
  simp only [length_operations] at hbound
  have hfirst : first < batch.requests.length := Nat.lt_trans hlt hbound
  simp only [Batch.operations, List.getElem?_mapIdx, List.getElem?_eq_getElem hfirst,
    List.getElem?_eq_getElem hbound, Option.map_some, Option.some.injEq, IoOperation.mk.injEq]
    at heq
  omega

theorem nodup_operationsOf (batches : List Batch) (token : Nat) :
    (operationsOf batches token).Nodup := by
  induction batches generalizing token with
  | nil => exact List.nodup_nil
  | cons batch batches ih =>
    refine List.nodup_append.mpr ⟨nodup_operations batch token, ih _, ?_⟩
    rintro first hfirst second hsecond rfl
    have hbound := (token_of_mem_operations hfirst).2
    have hlater := token_of_mem_operationsOf hsecond
    omega

theorem map_operations (batch : Batch) (token : Nat) :
    (batch.operations token).map (fun operation => (operation.file, operation.request)) =
      batch.requests.map fun request => (batch.file, request) := by
  rw [Batch.operations]
  refine List.ext_getElem (by simp) fun index hfirst hsecond => ?_
  simp

theorem map_operationsOf (batches : List Batch) (token : Nat) :
    (operationsOf batches token).map (fun operation => (operation.file, operation.request)) =
      batches.flatMap fun batch => batch.requests.map fun request => (batch.file, request) := by
  induction batches generalizing token with
  | nil => rfl
  | cons batch batches ih =>
    rw [operationsOf, List.map_append, map_operations, ih, List.flatMap_cons]

theorem flatMap_batchesOf (file : Descriptor) (requests : List AlignedRead) :
    ((batchesOf file requests).flatMap fun batch => batch.requests.map fun request =>
      (batch.file, request)) = requests.map fun request => (file, request) := by
  have hchunks : ∀ count : Nat,
      ((List.range count).map fun batch =>
        (requests.drop (batch * kMaxEvents)).take kMaxEvents).flatten =
        requests.take (count * kMaxEvents) := by
    intro count
    induction count with
    | zero => simp
    | succ count ih =>
      rw [List.range_succ, List.map_append, List.flatten_append, ih, Nat.succ_mul, List.take_add]
      simp
  have hall : requests.length ≤ (requests.length + kMaxEvents - 1) / kMaxEvents * kMaxEvents := by
    have := Nat.div_add_mod (requests.length + kMaxEvents - 1) kMaxEvents
    have hmod := Nat.mod_lt (requests.length + kMaxEvents - 1) (show 0 < kMaxEvents by decide)
    rw [Nat.mul_comm] at this
    omega
  have hflatten := hchunks ((requests.length + kMaxEvents - 1) / kMaxEvents)
  rw [List.take_of_length_le hall] at hflatten
  rw [batchesOf, List.flatMap_map]
  conv => rhs; rw [← hflatten, List.map_flatten, List.map_map]
  rw [List.flatMap_def]
  rfl

namespace AlignedFileReader

/-- Where a request goes. -/
def routed (reader : AlignedFileReader) (request : AlignedRead) : Descriptor × AlignedRead :=
  match reader.overlayVirtualOffset with
  | none => (.base, request)
  | some virtualOffset =>
    if virtualOffset ≤ request.offset then
      (.overlay, { request with offset := request.offset - virtualOffset })
    else (.base, request)

theorem route_perm {virtualOffset : Nat} {requests base overlay : List AlignedRead}
    (hroute : route virtualOffset requests = .ok (base, overlay)) :
    (base.map (fun request => (Descriptor.base, request)) ++
      overlay.map (fun request => (Descriptor.overlay, request))).Perm
      (requests.map (routed { overlayVirtualOffset := some virtualOffset })) := by
  induction requests generalizing base overlay with
  | nil =>
    obtain ⟨rfl, rfl⟩ := Prod.mk.inj (Except.ok.inj hroute)
    exact .refl _
  | cons request requests ih =>
    unfold route at hroute
    split at hroute
    · next hoverlay =>
        obtain ⟨⟨restBase, restOverlay⟩, hrest, hpair⟩ := bind_ok.mp hroute
        obtain ⟨rfl, rfl⟩ := Prod.mk.inj (Except.ok.inj hpair)
        simp only [List.map_cons, routed, hoverlay, if_true]
        exact List.perm_middle.trans ((ih hrest).cons _)
    · next hbase =>
        split at hroute
        · cases hroute
        · obtain ⟨⟨restBase, restOverlay⟩, hrest, hpair⟩ := bind_ok.mp hroute
          obtain ⟨rfl, rfl⟩ := Prod.mk.inj (Except.ok.inj hpair)
          simp only [List.map_cons, routed, hbase, if_false, List.cons_append]
          exact (ih hrest).cons _

theorem exists_route {virtualOffset : Nat} {requests : List AlignedRead}
    (hfiles : ∀ request ∈ requests,
      request.offset + request.len ≤ virtualOffset ∨ virtualOffset ≤ request.offset) :
    ∃ files, route virtualOffset requests = .ok files := by
  induction requests with
  | nil => exact ⟨_, rfl⟩
  | cons request requests ih =>
    obtain ⟨hfirst, hrest⟩ := List.forall_mem_cons.mp hfiles
    obtain ⟨⟨base, overlay⟩, hroute⟩ := ih hrest
    unfold route
    split
    · exact ⟨_, bind_ok.mpr ⟨_, hroute, rfl⟩⟩
    · rw [if_neg (by omega)]
      exact ⟨_, bind_ok.mpr ⟨_, hroute, rfl⟩⟩

theorem operations_perm {reader : AlignedFileReader} {requests : List AlignedRead}
    {batches : List Batch} (hbatches : reader.batches requests = .ok batches)
    (token : Nat) :
    ((operationsOf batches token).map fun operation =>
      (operation.file, operation.request)).Perm (requests.map reader.routed) := by
  obtain ⟨fileOpen, overlayVirtualOffset⟩ := reader
  simp only [AlignedFileReader.batches, bind_ok, reject_ok] at hbatches
  obtain ⟨-, -, hbatches⟩ := hbatches
  rw [map_operationsOf]
  cases overlayVirtualOffset with
  | none =>
    obtain rfl := Except.ok.inj hbatches
    rw [flatMap_batchesOf]
    exact .refl _
  | some virtualOffset =>
    obtain ⟨⟨base, overlay⟩, hroute, hpair⟩ := bind_ok.mp hbatches
    obtain rfl := Except.ok.inj hpair
    rw [List.flatMap_append, flatMap_batchesOf, flatMap_batchesOf]
    exact route_perm hroute

end AlignedFileReader

/-- Over batches that go through, what is delivered and what stays in flight is
what was in flight and what the batches submit. -/
theorem delivered_perm (hcounts : CountsMatch kernel position batches)
    (hlegal : KernelLegal kernel position batches context) :
    ((eventsOf kernel position batches).map IoEvent.operation ++
      (executeIo kernel position batches context).1.inFlight).Perm
      (context.inFlight ++ operationsOf batches context.nextToken) := by
  induction batches generalizing position context with
  | nil => simp [eventsOf, executeIo, operationsOf]
  | cons batch batches ih =>
    obtain ⟨⟨hsubmitted, hcompleted⟩, hcounts⟩ := hcounts
    obtain ⟨hsubperm, hlegal⟩ := hlegal hsubmitted
    have hrest := ih hcounts (hlegal hcompleted)
    have hdiff := List.subperm_append_diff_self_of_count_le (List.subperm_ext_iff.mp hsubperm)
    have htake : (batch.operations context.nextToken).take (kernel position).submitted.toNat =
        batch.operations context.nextToken := by
      rw [hsubmitted]
      exact List.take_of_length_le (by simp)
    have hinFlight : (context.submit (batch.operations context.nextToken)
        (kernel position).submitted).inFlight =
        context.inFlight ++ batch.operations context.nextToken := by
      rw [IoContext.submit, htake]
    have hstep : executeIo kernel position (batch :: batches) context =
        executeIo kernel (position + 1) batches ((context.submit
          (batch.operations context.nextToken) (kernel position).submitted).collect
            (kernel position).events) := by
      simp only [executeIo, length_operations, hsubmitted, hcompleted, ne_eq, not_true_eq_false,
        if_false]
    have hnext : ((context.submit (batch.operations context.nextToken)
        (kernel position).submitted).collect (kernel position).events).nextToken =
        context.nextToken + batch.requests.length := by
      simp [IoContext.submit, IoContext.collect]
    rw [hstep, eventsOf, operationsOf, List.map_append, List.append_assoc, ← List.append_assoc
      context.inFlight, ← hinFlight]
    rw [hnext] at hrest
    refine (hrest.append_left _).trans ?_
    rw [← List.append_assoc]
    exact hdiff.append_right _

theorem length_eventsOf (token : Nat) (hcounts : CountsMatch kernel position batches) :
    (eventsOf kernel position batches).length = (operationsOf batches token).length := by
  induction batches generalizing position token with
  | nil => rfl
  | cons batch batches ih =>
    obtain ⟨⟨-, hcompleted⟩, hcounts⟩ := hcounts
    have hlength : (kernel position).events.length = batch.requests.length := by
      unfold BatchAnswer.completedCount at hcompleted
      unfold BatchAnswer.events
      split at hcompleted <;> omega
    rw [eventsOf, operationsOf, List.length_append, List.length_append, length_operations, hlength,
      ih _ hcounts]

/-- Each event of a call is of an operation in flight or of the call, and no two
are of one operation. -/
theorem delivered_subperm (hcounts : CountsMatch kernel 0 batches)
    (hlegal : KernelLegal kernel 0 batches context) :
    ((eventsOf kernel 0 batches).map IoEvent.operation).Subperm
      (context.inFlight ++ operationsOf batches context.nextToken) :=
  (List.sublist_append_left _ _).subperm.trans (delivered_perm hcounts hlegal).subperm

theorem IoContext.Fresh.submit (hfresh : context.Fresh) (batch : Batch) (submitted : Int) :
    (context.submit (batch.operations context.nextToken) submitted).Fresh where
  below := by
    intro operation hmem
    simp only [IoContext.submit, length_operations]
    rcases List.mem_append.mp hmem with hold | hnew
    · exact Nat.lt_of_lt_of_le (hfresh.below operation hold) (Nat.le_add_right _ _)
    · exact (token_of_mem_operations (List.mem_of_mem_take hnew)).2
  nodup := by
    refine List.nodup_append.mpr ⟨hfresh.nodup,
      (nodup_operations batch context.nextToken).sublist (List.take_sublist _ _), ?_⟩
    intro first hold second hnew heq
    have hbelow := hfresh.below first hold
    have habove := (token_of_mem_operations (List.mem_of_mem_take hnew)).1
    rw [heq] at hbelow
    omega

theorem IoContext.Fresh.collect (hfresh : context.Fresh) (events : List IoEvent) :
    (context.collect events).Fresh where
  below := fun operation hmem => hfresh.below operation ((List.diff_sublist _ _).subset hmem)
  nodup := hfresh.nodup.sublist (List.diff_sublist _ _)

theorem IoContext.Fresh.executeIo (hfresh : context.Fresh) :
    (executeIo kernel position batches context).1.Fresh := by
  induction batches generalizing position context with
  | nil => exact hfresh
  | cons batch batches ih =>
    simp only [Storage.executeIo]
    split
    · exact hfresh.submit batch _
    · split
      · exact (hfresh.submit batch _).collect _
      · exact ih ((hfresh.submit batch _).collect _)

theorem nodup_inFlight_append (hfresh : context.Fresh) (batches : List Batch) :
    (context.inFlight ++ operationsOf batches context.nextToken).Nodup := by
  refine List.nodup_append.mpr ⟨hfresh.nodup, nodup_operationsOf _ _, ?_⟩
  intro operation hold other hnew heq
  have hbelow := hfresh.below operation hold
  have habove := token_of_mem_operationsOf hnew
  rw [heq] at hbelow
  omega

/-! ## A read in full -/

namespace AlignedFileReader

/-- If a call returns normally, each of its requests has an operation of its own,
and the kernel has delivered an event that tells it was read in full. -/
def ReadInFull (reader : AlignedFileReader) (kernel : Nat → BatchAnswer)
    (requests : List AlignedRead) (context : IoContext) : Prop :=
  (reader.read kernel requests context).2 = .ok () →
    ∃ (batches : List Batch) (operations : List IoOperation),
      reader.batches requests = .ok batches ∧ operations.Nodup ∧
      (operations.map fun operation => (operation.file, operation.request)).Perm
        (requests.map reader.routed) ∧
      ∀ operation ∈ operations, context.nextToken ≤ operation.token ∧
        ∃ event ∈ eventsOf kernel 0 batches, event.operation = operation ∧ event.Full

/-- Every event that the kernel delivers to the call is of one of its own
operations and reports the whole length. -/
def OwnFullEvents (kernel : Nat → BatchAnswer) (batches : List Batch) (context : IoContext) :
    Prop :=
  ∀ event ∈ eventsOf kernel 0 batches, context.nextToken ≤ event.operation.token ∧ event.Full

variable {reader : AlignedFileReader} {kernel : Nat → BatchAnswer} {requests : List AlignedRead}
  {context : IoContext}

section

variable {batches : List Batch} (hbatches : reader.batches requests = .ok batches)
include hbatches

theorem read_ok :
    (reader.read kernel requests context).2 = .ok () ↔ CountsMatch kernel 0 batches := by
  rw [read, hbatches]
  exact executeIo_ok

theorem readInFull_of_events (hfresh : context.Fresh)
    (hlegal : KernelLegal kernel 0 batches context)
    (hevents : CountsMatch kernel 0 batches → OwnFullEvents kernel batches context) :
    reader.ReadInFull kernel requests context := by
  intro hok
  have hcounts := (read_ok hbatches).mp hok
  have hown := hevents hcounts
  have hsubperm := delivered_subperm hcounts hlegal
  have hsubset : (eventsOf kernel 0 batches).map IoEvent.operation ⊆
      operationsOf batches context.nextToken := by
    intro operation hmem
    obtain ⟨event, hevent, rfl⟩ := List.mem_map.mp hmem
    refine (List.mem_append.mp (hsubperm.subset hmem)).resolve_left fun hold => ?_
    have hbelow := hfresh.below _ hold
    have := (hown event hevent).1
    omega
  have hnodup : ((eventsOf kernel 0 batches).map IoEvent.operation).Nodup := by
    obtain ⟨middle, hperm, hsublist⟩ := hsubperm
    exact hperm.nodup_iff.mp (hsublist.nodup (nodup_inFlight_append hfresh batches))
  have hperm := (hnodup.subperm hsubset).perm_of_length_le
    (Nat.le_of_eq (by rw [List.length_map, length_eventsOf context.nextToken hcounts]))
  refine ⟨batches, operationsOf batches context.nextToken, hbatches, nodup_operationsOf _ _,
    operations_perm hbatches _, fun operation hmem => ⟨token_of_mem_operationsOf hmem, ?_⟩⟩
  obtain ⟨event, hevent, rfl⟩ := List.mem_map.mp (hperm.mem_iff.mpr hmem)
  exact ⟨event, hevent, rfl, (hown event hevent).2⟩

theorem events_of_readInFull (hfull : reader.ReadInFull kernel requests context)
    (hcounts : CountsMatch kernel 0 batches) :
    OwnFullEvents kernel batches context := by
  obtain ⟨found, operations, hfound, hnodup, hperm, heach⟩ := hfull ((read_ok hbatches).mpr hcounts)
  obtain rfl := Except.ok.inj (hbatches.symm.trans hfound)
  have hsubset : operations ⊆ (eventsOf kernel 0 batches).map IoEvent.operation := by
    intro operation hmem
    obtain ⟨-, event, hevent, rfl, -⟩ := heach operation hmem
    exact List.mem_map_of_mem hevent
  have hlength : operations.length = (eventsOf kernel 0 batches).length := by
    have hcount := hperm.length_eq
    have hplaced := (operations_perm hbatches context.nextToken).length_eq
    rw [List.length_map, List.length_map] at hcount hplaced
    rw [length_eventsOf context.nextToken hcounts, hplaced, hcount]
  have hall := (hnodup.subperm hsubset).perm_of_length_le
    (Nat.le_of_eq (by rw [List.length_map, hlength]))
  intro event hevent
  have hmem := hall.mem_iff.mpr (List.mem_map_of_mem hevent)
  obtain ⟨htoken, other, hother, hsame, hfullOther⟩ := heach _ hmem
  have heq : other = event :=
    List.inj_on_of_nodup_map (hall.nodup_iff.mp hnodup) hother hevent hsame
  exact ⟨htoken, heq ▸ hfullOther⟩

end

/-- The kernel keeps its promise in a call. -/
def Legal (reader : AlignedFileReader) (kernel : Nat → BatchAnswer)
    (requests : List AlignedRead) (context : IoContext) : Prop :=
  ∀ batches, reader.batches requests = .ok batches → KernelLegal kernel 0 batches context

/-- The contexts that calls of readers leave, failed ones included. -/
inductive Reached : IoContext → Prop
  | setup : Reached {}
  | read (reader : AlignedFileReader) (kernel : Nat → BatchAnswer) (requests : List AlignedRead)
      {context : IoContext} : Reached context → reader.Legal kernel requests context →
      Reached (reader.read kernel requests context).1

theorem Reached.fresh (hreached : Reached context) : context.Fresh := by
  induction hreached with
  | setup => exact ⟨fun operation hmem => (List.not_mem_nil hmem).elim, List.nodup_nil⟩
  | read reader kernel requests _ _ ih =>
    unfold AlignedFileReader.read
    split
    · exact ih
    · exact ih.executeIo

/-- A call returns normally only after a read in full if and only if it is refused,
a count of the kernel differs, or the events are of its own operations and of full
length: the results themselves are not looked at. -/
theorem readInFull_iff (hreached : Reached context) (hlegal : reader.Legal kernel requests context) :
    reader.ReadInFull kernel requests context ↔
      ∀ batches, reader.batches requests = .ok batches → CountsMatch kernel 0 batches →
        OwnFullEvents kernel batches context := by
  constructor
  · intro hfull batches hbatches hcounts
    exact events_of_readInFull hbatches hfull hcounts
  · intro hevents
    cases hbatches : reader.batches requests with
    | error message =>
      intro hok
      rw [read, hbatches] at hok
      cases hok
    | ok batches =>
      exact readInFull_of_events hbatches hreached.fresh (hlegal batches hbatches)
        (hevents batches hbatches)

/-! Two calls that go wrong: a block reports an error, and the event of a block that a
failed batch left in flight is taken for that of a later one. -/

def firstPageOperation (token : Nat) : IoOperation := ⟨token, .base, ⟨0, 4096, 0⟩⟩

theorem legal_one {answer : BatchAnswer}
    (hsubperm : (answer.events.map IoEvent.operation).Subperm
      (context.inFlight ++ [firstPageOperation context.nextToken])) :
    Legal {} (fun _ => answer) [⟨0, 4096, 0⟩] context := by
  intro batches hbatches
  obtain rfl := Except.ok.inj hbatches
  intro hsubmitted
  have hone : answer.submitted.toNat = 1 := by
    rw [hsubmitted]
    rfl
  refine ⟨?_, fun _ => trivial⟩
  have hinFlight : (context.submit ((Batch.mk .base [⟨0, 4096, 0⟩]).operations context.nextToken)
      answer.submitted).inFlight =
      context.inFlight ++ [firstPageOperation context.nextToken] := by
    simp [IoContext.submit, hone, Batch.operations, firstPageOperation]
  exact hinFlight ▸ hsubperm

theorem own_of_readInFull_one {event : IoEvent}
    (hfull : AlignedFileReader.ReadInFull {} (fun _ => ⟨1, .ok [event]⟩) [⟨0, 4096, 0⟩] context) :
    context.nextToken ≤ event.operation.token ∧ event.Full := by
  have hbatches : AlignedFileReader.batches {} [⟨0, 4096, 0⟩] = .ok [⟨.base, [⟨0, 4096, 0⟩]⟩] := rfl
  exact events_of_readInFull hbatches hfull ⟨⟨rfl, rfl⟩, trivial⟩ event List.mem_cons_self

theorem read_partly :
    (AlignedFileReader.read {} (fun _ => ⟨1, .error 0⟩) [⟨0, 4096, 0⟩, ⟨4096, 4096, 4096⟩] {}).1 =
      ⟨[firstPageOperation 0], 2⟩ := by
  decide +kernel

theorem legal_partly :
    Legal {} (fun _ => ⟨1, .error 0⟩) [⟨0, 4096, 0⟩, ⟨4096, 4096, 4096⟩] {} := by
  intro batches hbatches
  have hcut : batchesOf .base [⟨0, 4096, 0⟩, ⟨4096, 4096, 4096⟩] =
      [⟨.base, [⟨0, 4096, 0⟩, ⟨4096, 4096, 4096⟩]⟩] := by
    decide +kernel
  obtain rfl := Except.ok.inj hbatches
  rw [hcut]
  intro hsubmitted
  cases hsubmitted

theorem readInFull_refuted :
    let failed : BatchAnswer := ⟨1, .ok [⟨firstPageOperation 0, -5⟩]⟩
    let partly : BatchAnswer := ⟨1, .error 0⟩
    let stale : BatchAnswer := ⟨1, .ok [⟨firstPageOperation 0, 4096⟩]⟩
    let request : AlignedRead := ⟨0, 4096, 0⟩
    let reader : AlignedFileReader := {}
    let left := (reader.read (fun _ => partly) [request, ⟨4096, 4096, 4096⟩] {}).1
    (Reached {} ∧ reader.Legal (fun _ => failed) [request] {} ∧
        ¬ reader.ReadInFull (fun _ => failed) [request] {}) ∧
      (Reached left ∧ reader.Legal (fun _ => stale) [request] left ∧
        ¬ reader.ReadInFull (fun _ => stale) [request] left) := by
  intro failed partly stale request reader left
  have hleft : left = ⟨[firstPageOperation 0], 2⟩ := read_partly
  refine ⟨⟨.setup, legal_one (.refl _), fun hfull => ?_⟩,
    .read reader _ _ .setup legal_partly, legal_one ?_, fun hfull => ?_⟩
  · exact absurd (own_of_readInFull_one hfull).2 (by decide)
  · rw [hleft]
    exact (List.sublist_append_left [firstPageOperation 0] _).subperm
  · have hown := own_of_readInFull_one hfull
    rw [hleft] at hown
    exact absurd hown.1 (by decide)

theorem readInFull_firstPage :
    AlignedFileReader.ReadInFull {} (fun _ => ⟨1, .ok [⟨firstPageOperation 0, 4096⟩]⟩)
      [⟨0, 4096, 0⟩] {} := by
  refine (readInFull_iff .setup (legal_one (.refl _))).mpr fun batches hbatches _ => ?_
  obtain rfl := Except.ok.inj hbatches
  intro event hevent
  obtain rfl := List.mem_singleton.mp hevent
  exact ⟨Nat.zero_le _, rfl⟩

end AlignedFileReader

end SkipCell.Storage

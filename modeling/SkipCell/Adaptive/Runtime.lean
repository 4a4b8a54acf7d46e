import SkipCell.Adaptive.Snapshot
import SkipCell.Foundation.ByteCodec
import SkipCell.Foundation.ByteFile
import SkipCell.Foundation.GroupTable
import SkipCell.Foundation.Ieee

/-! # The adaptive Cell runtime

Counters of observed merge candidates, the current snapshot, and the two ways to
build a replacement view: over contiguous pages, or by copying vectors to new
pages of an overlay file. An operation returns the state it leaves even when it
throws. Page numbers and counters are natural numbers; node counts are added
modulo `2 ^ 32` as in the source.
-/

namespace SkipCell.Adaptive

open Foundation

def kIoVectorPageSize : Nat := 4096

/-- The ratios default to the doubles nearest to 0.90, 0.10 and 0.10. -/
structure Config where
  enabled : Bool
  minimumJointObservations : Nat := 1000
  minimumCoaccessRatio : Double := ⟨0x3FECCCCCCCCCCCCD⟩
  maximumPageIncrease : Double := ⟨0x3FB999999999999A⟩
  maximumUnseenIncrease : Double := ⟨0x3FB999999999999A⟩
  maximumSuccessfulPublishes : Nat := 2 ^ 32 - 1

structure MergeCandidate where
  leftCell : CellId
  rightCell : CellId

structure Counters where
  parentObservations : Nat := 0
  jointObservations : Nat := 0
  fixedPages : Nat := 0
  mergedPages : Nat := 0
  fixedUnseen : Nat := 0
  mergedUnseen : Nat := 0
  deriving DecidableEq

/-- The Base vectors: a location for each node, and the file they are read from. -/
structure BaseIndex where
  vectorLocations : List VectorLocation
  vectorPageCount : Nat
  vectorFile : ByteFile

def BaseIndex.vectorLocation (base : BaseIndex) (nodeId : NodeId) : Except Error VectorLocation :=
  match base.vectorLocations[nodeId]? with
  | some location => .ok location
  | none => .error (.outOfRange "IO vector node ID is out of range")

structure Physical where
  baseIndex : BaseIndex
  vectorBytes : Nat
  cellNodes : List (List NodeId)
  nodeToCell : List (Option CellId) := []

structure Runtime where
  config : Config
  candidates : List MergeCandidate
  counters : List Counters
  snapshot : Snapshot
  finalSnapshot : Option Snapshot := none
  observations : Nat := 0
  publishAttempts : Nat := 0
  successfulPublishes : Nat := 0
  physicalGenerations : Nat := 0
  checksumFailures : Nat := 0
  physical : Option Physical
  overlay : ByteFile := .zeros 0
  nextOverlayPage : Nat := 0

def capacityForPopulation (population : Nat) : Except Error Nat :=
  match [16, 32, 64, 128, 256, 512].find? fun capacity => population ≤ capacity with
  | some capacity => .ok capacity
  | none => .error (.invalidArgument "Online adaptive Cell population exceeds Cell-512")

def relativeIncrease (merged fixed : Nat) : Double :=
  if fixed = 0 then
    if merged = 0 then .zero else .infinity
  else
    .ofNat merged / .ofNat fixed - .one

/-! ## Construction -/

/-- One view for each fixed Cell, numbered from `cell`. -/
def initialViews (cell : CellId) : List CellPageRange → Except Error (List View)
  | [] => .ok []
  | range :: ranges =>
    if range.nodeCount = 0 ∨ range.pageCount = 0 then
      .error (.invalidArgument "Online adaptive Cell runtime requires nonempty page ranges")
    else
      match capacityForPopulation range.nodeCount, initialViews (cell + 1) ranges with
      | .ok capacityClass, .ok views =>
        .ok ({ viewId := cell, generation := 0, capacityClass := capacityClass,
               nodeCount := range.nodeCount, physicalPayloadReady := true,
               logicalCellIds := [cell],
               pageRuns := [⟨range.firstPage, range.pageCount⟩] } :: views)
      | .error error, _ => .error error
      | _, .error error => .error error

def Config.invalid (config : Config) : Bool :=
  config.minimumJointObservations == 0 || !config.minimumCoaccessRatio.isFinite ||
    !config.maximumPageIncrease.isFinite || !config.maximumUnseenIncrease.isFinite ||
    config.minimumCoaccessRatio < .zero || .one < config.minimumCoaccessRatio ||
    config.maximumPageIncrease < .zero || config.maximumUnseenIncrease < .zero

/-- `initialize` of the source, for both constructors. -/
def initializeRuntime (fixedCells : List CellPageRange) (candidates : List MergeCandidate)
    (config : Config) (physical : Option Physical) : Except Error Runtime :=
  if fixedCells = [] ∨ config.invalid = true then
    .error (.invalidArgument "Online adaptive Cell runtime configuration is invalid")
  else
    match initialViews 0 fixedCells with
    | .error error => .error error
    | .ok views =>
      if candidates.any fun candidate => fixedCells.length ≤ candidate.leftCell ||
          fixedCells.length ≤ candidate.rightCell ||
          candidate.leftCell == candidate.rightCell then
        .error (.invalidArgument "Online adaptive Cell merge candidate is invalid")
      else
        .ok { config := config, candidates := candidates,
              counters := candidates.map fun _ => {},
              snapshot := ⟨0, views, [], [], fun _ => 0⟩, physical := physical }

/-- Records a Cell as the owner of its nodes, each of which must be free. -/
def assignNodes (cell : CellId) :
    List NodeId → List (Option CellId) → Except Error (List (Option CellId))
  | [], owners => .ok owners
  | node :: nodes, owners =>
    match owners[node]? with
    | some none => assignNodes cell nodes (owners.set node (some cell))
    | _ => .error (.invalidArgument "Online adaptive Cell membership is not one-owner complete")

def locationBefore (base : BaseIndex) (left right : NodeId) : Prop :=
  let leftLocation := base.vectorLocations.getD left ⟨0, 0⟩
  let rightLocation := base.vectorLocations.getD right ⟨0, 0⟩
  leftLocation.pageId < rightLocation.pageId ∨ leftLocation.pageId = rightLocation.pageId ∧
    (leftLocation.pageOffset < rightLocation.pageOffset ∨
      leftLocation.pageOffset = rightLocation.pageOffset ∧ left ≤ right)

instance (base : BaseIndex) : DecidableRel (locationBefore base) := fun _ _ =>
  inferInstanceAs (Decidable (_ ∨ _))

/-- Checks the members of every Cell, sorts them by Base location and records
their owner. The sort reads the location of every node it compares. -/
def ownCells (base : BaseIndex) (cell : CellId) :
    List (List NodeId) → List CellPageRange → List (Option CellId) →
      Except Error (List (List NodeId) × List (Option CellId))
  | nodes :: cellNodes, range :: ranges, owners =>
    if nodes.length ≠ range.nodeCount then
      .error (.invalidArgument "Online adaptive Cell membership count is invalid")
    else if 2 ≤ nodes.length ∧ nodes.any (base.vectorLocations.length ≤ ·) then
      .error (.outOfRange "IO vector node ID is out of range")
    else
      let sorted := nodes.insertionSort (locationBefore base)
      match assignNodes cell sorted owners with
      | .error error => .error error
      | .ok owners =>
        match ownCells base (cell + 1) cellNodes ranges owners with
        | .error error => .error error
        | .ok (sortedCells, owners) => .ok (sorted :: sortedCells, owners)
  | _, _, owners => .ok ([], owners)

def createPhysical (fixedCells : List CellPageRange) (candidates : List MergeCandidate)
    (config : Config) (base : BaseIndex) (vectorBytes : Nat) (cellNodes : List (List NodeId)) :
    Except Error Runtime :=
  if vectorBytes = 0 ∨ kIoVectorPageSize < vectorBytes ∨ cellNodes.length ≠ fixedCells.length then
    .error (.invalidArgument "Online adaptive Cell physical configuration is invalid")
  else
    match ownCells base 0 cellNodes fixedCells (base.vectorLocations.map fun _ => none) with
    | .error error => .error error
    | .ok (sortedCells, owners) =>
      if none ∈ owners then
        .error (.invalidArgument "Online adaptive Cell membership is incomplete")
      else
        initializeRuntime fixedCells candidates config
          (some ⟨base, vectorBytes, sortedCells, owners⟩)

namespace Runtime

structure MergeProfile where
  coaccessRatio : Double
  pageIncrease : Double
  unseenIncrease : Double
  eligible : Bool

def acceptsObservations (runtime : Runtime) : Bool :=
  runtime.config.enabled &&
    decide (runtime.successfulPublishes < runtime.config.maximumSuccessfulPublishes)

def observe (runtime : Runtime) (candidate : Nat) (leftLoaded rightLoaded : Bool)
    (fixedPages mergedPages fixedUnseen mergedUnseen : Nat) : Runtime :=
  if !runtime.config.enabled || (!leftLoaded && !rightLoaded) then
    runtime
  else
    match runtime.counters[candidate]? with
    | none => runtime
    | some counters =>
      { runtime with
        observations := runtime.observations + 1
        counters := runtime.counters.set candidate
          { parentObservations := counters.parentObservations + 1
            jointObservations :=
              counters.jointObservations + if leftLoaded && rightLoaded then 1 else 0
            fixedPages := counters.fixedPages + fixedPages
            mergedPages := counters.mergedPages + mergedPages
            fixedUnseen := counters.fixedUnseen + fixedUnseen
            mergedUnseen := counters.mergedUnseen + mergedUnseen } }

def profile (config : Config) (counters : Counters) : MergeProfile :=
  let coaccessRatio :=
    if counters.parentObservations = 0 then .zero
    else .ofNat counters.jointObservations / .ofNat counters.parentObservations
  let pageIncrease := relativeIncrease counters.mergedPages counters.fixedPages
  let unseenIncrease := relativeIncrease counters.mergedUnseen counters.fixedUnseen
  { coaccessRatio := coaccessRatio
    pageIncrease := pageIncrease
    unseenIncrease := unseenIncrease
    eligible := config.enabled &&
      decide (config.minimumJointObservations ≤ counters.jointObservations) &&
      decide (config.minimumCoaccessRatio ≤ coaccessRatio) &&
      decide (pageIncrease ≤ config.maximumPageIncrease) &&
      decide (unseenIncrease ≤ config.maximumUnseenIncrease) }

def eligible (runtime : Runtime) (candidate : Nat) : Bool :=
  match runtime.counters[candidate]? with
  | some counters => (profile runtime.config counters).eligible
  | none => false

/-! ## Publication -/

/-- The sum of two `uint32_t` node counts. -/
def addNodeCounts (left right : View) : Nat := (left.nodeCount + right.nodeCount) % 2 ^ 32

/-- Sorted, and without the repetitions that a sorted list keeps side by side. -/
def sortUnique (cells : List CellId) : List CellId := (cells.insertionSort (· ≤ ·)).dedup

def mergedCells (left right : View) : List CellId :=
  sortUnique (left.logicalCellIds ++ right.logicalCellIds)

/-- A replacement that moves vectors must list each of its nodes once, in order. -/
def directoryRejected (replacement : View) : Prop :=
  (replacement.vectorNodes ≠ [] ∨ replacement.vectorLocations ≠ []) ∧
    (replacement.vectorNodes.length ≠ replacement.nodeCount ∨
      replacement.vectorLocations.length ≠ replacement.vectorNodes.length ∨
      replacement.payloadChecksum = 0 ∨ replacement.directoryChecksum = 0 ∨
      ¬ replacement.vectorNodes.IsChain (· ≤ ·) ∨ ¬ replacement.vectorNodes.IsChain (· ≠ ·))

instance (replacement : View) : Decidable (directoryRejected replacement) :=
  inferInstanceAs (Decidable (_ ∧ _))

/-- The snapshot after `current` in which the Cells of a replacement map to it. -/
def successor (current : Snapshot) (replacement : View) : Snapshot :=
  let directory := SortedMap.setAll (replacement.vectorNodes.zip replacement.vectorLocations)
    (SortedMap.setAll current.directory [])
  { generation := current.generation + 1
    cells := GroupTable.assign replacement.logicalCellIds replacement current.cells
    overrideNodes := directory.map Prod.fst
    overrideLocations := directory.map Prod.snd
    overrideFilter := filterOf (directory.map Prod.fst) }

/-- The checks of a publication against the current snapshot. -/
def admits (current : Snapshot) (pair : MergeCandidate) (replacement : View) :
    Except Error Bool :=
  match current.cell pair.leftCell, current.cell pair.rightCell with
  | .ok left, .ok right =>
    if left.viewId = right.viewId ∨ replacement.physicalPayloadReady = false ∨
        replacement.generation ≠ current.generation + 1 ∨ replacement.pageRuns.length ≠ 1 ∨
        replacement.nodeCount ≠ addNodeCounts left right then
      .ok false
    else
      match capacityForPopulation replacement.nodeCount with
      | .error error => .error error
      | .ok capacityClass =>
        .ok (decide (replacement.capacityClass = capacityClass ∧
          replacement.logicalCellIds = mergedCells left right ∧
          ¬ directoryRejected replacement ∧
          ∀ cell ∈ replacement.logicalCellIds, cell < current.cells.length))
  | .error error, _ => .error error
  | _, .error error => .error error

/-- Installs an admitted snapshot. Between two calls the exchange cannot fail. -/
def install (runtime : Runtime) (replacement : View) : Runtime :=
  let next := successor runtime.snapshot replacement
  { runtime with
    snapshot := next
    successfulPublishes := runtime.successfulPublishes + 1
    finalSnapshot :=
      if runtime.config.maximumSuccessfulPublishes ≤ runtime.successfulPublishes + 1 then some next
      else runtime.finalSnapshot
    physicalGenerations :=
      if replacement.vectorNodes = [] then runtime.physicalGenerations
      else runtime.physicalGenerations + 1 }

def tryPublish (runtime : Runtime) (candidate : Nat) (replacement : Option View)
    (forceExperimentalOperation : Bool) : Runtime × Except Error Bool :=
  match runtime.candidates[candidate]?, replacement with
  | some pair, some replacement =>
    if !runtime.acceptsObservations ||
        (!forceExperimentalOperation && !runtime.eligible candidate) then
      (runtime, .ok false)
    else
      let runtime := { runtime with publishAttempts := runtime.publishAttempts + 1 }
      match admits runtime.snapshot pair replacement with
      | .error error => (runtime, .error error)
      | .ok false => (runtime, .ok false)
      | .ok true => (runtime.install replacement, .ok true)
  | _, _ => (runtime, .ok false)

/-! ## Replacements -/

def replacementViewId (generation : Nat) (pair : MergeCandidate) : Nat :=
  ((generation + 1) <<< 32 % 2 ^ 64) ||| min pair.leftCell pair.rightCell

/-- Two Cells on adjacent single page runs become one Cell on their union. -/
def makeContiguousReplacement (runtime : Runtime) (pair : MergeCandidate) :
    Except Error (Option View) :=
  let current := runtime.snapshot
  match current.cell pair.leftCell, current.cell pair.rightCell with
  | .ok left, .ok right =>
    match left.pageRuns, right.pageRuns with
    | [leftRun], [rightRun] =>
      if left.viewId = right.viewId ∨
          (leftRun.firstPage + leftRun.pageCount ≠ rightRun.firstPage ∧
            rightRun.firstPage + rightRun.pageCount ≠ leftRun.firstPage) then
        .ok none
      else
        let nodeCount := addNodeCounts left right
        match capacityForPopulation nodeCount with
        | .error error => .error error
        | .ok capacityClass =>
          .ok (some
            { viewId := replacementViewId current.generation pair
              generation := current.generation + 1
              capacityClass := capacityClass
              nodeCount := nodeCount
              physicalPayloadReady := true
              logicalCellIds := mergedCells left right
              pageRuns := [⟨min leftRun.firstPage rightRun.firstPage,
                leftRun.pageCount + rightRun.pageCount⟩] })
    | _, _ => .ok none
  | .error error, _ => .error error
  | _, .error error => .error error

/-- The nodes of the merged Cells, Cell by Cell. -/
def packNodes (cellNodes : List (List NodeId)) : List CellId → Option (List NodeId)
  | [] => some []
  | cell :: cells =>
    match cellNodes[cell]?, packNodes cellNodes cells with
    | some nodes, some rest => some (nodes ++ rest)
    | _, _ => none

/-- The bytes at a location: pages from the Base page count on are overlay pages. -/
def readLocation (runtime : Runtime) (physical : Physical) (location : VectorLocation) :
    Option (List UInt8) :=
  let base := physical.baseIndex
  if base.vectorPageCount ≤ location.pageId then
    runtime.overlay.read
      ((location.pageId - base.vectorPageCount) * kIoVectorPageSize + location.pageOffset)
      physical.vectorBytes
  else
    base.vectorFile.read (location.pageId * kIoVectorPageSize + location.pageOffset)
      physical.vectorBytes

def bytesAt (runtime : Runtime) (location : VectorLocation) : Option (List UInt8) :=
  runtime.physical.bind fun physical => runtime.readLocation physical location

/-- The owner of a node, or nothing where the source answers `UINT32_MAX`. -/
def logicalCell (runtime : Runtime) (nodeId : NodeId) : Option CellId :=
  runtime.physical.bind fun physical => (physical.nodeToCell[nodeId]?).join

def slotPage (vectorBytes ordinal : Nat) : Nat := ordinal / (kIoVectorPageSize / vectorBytes)

def slotOffset (vectorBytes ordinal : Nat) : Nat :=
  ordinal % (kIoVectorPageSize / vectorBytes) * vectorBytes

/-- Copies vectors into consecutive slots of the payload, and lists where each
one will be. -/
def packVectors (runtime : Runtime) (physical : Physical) (firstPage : Nat) (ordinal : Nat) :
    List NodeId → ByteFile → Except Error (ByteFile × SortedMap NodeId VectorLocation)
  | [], payload => .ok (payload, [])
  | node :: nodes, payload =>
    match physical.baseIndex.vectorLocation node with
    | .error error => .error error
    | .ok fallback =>
      match runtime.readLocation physical (runtime.snapshot.vectorLocation node fallback) with
      | none => .error (.runtimeError "Adaptive Cell physical read failed")
      | some bytes =>
        let page := slotPage physical.vectorBytes ordinal
        let offset := slotOffset physical.vectorBytes ordinal
        match runtime.packVectors physical firstPage (ordinal + 1) nodes
            (payload.write (page * kIoVectorPageSize + offset) bytes) with
        | .error error => .error error
        | .ok (payload, directory) =>
          .ok (payload, (node, ⟨firstPage + page, offset⟩) :: directory)

def directoryBytes (directory : SortedMap NodeId VectorLocation) : List UInt8 :=
  directory.flatMap fun entry =>
    encodeLittle 4 entry.1 ++ encodeLittle 8 entry.2.pageId ++ encodeLittle 4 entry.2.pageOffset

/-- How the storage behaves during a build: it completes, or the build ends in
an error after some bytes of the payload have reached the overlay. -/
inductive Io
  | completes
  | stopsAfter (bytes : Nat)

/-- Writes packed nodes to pages that no earlier build was given. The pages stay
taken when the build fails afterwards. -/
def writeReplacement (runtime : Runtime) (physical : Physical) (pair : MergeCandidate)
    (logicalCells : List CellId) (packed : List NodeId) (io : Io) :
    Runtime × Except Error (Option View) :=
  let vectorsPerPage := kIoVectorPageSize / physical.vectorBytes
  let pageCount := (packed.length + vectorsPerPage - 1) / vectorsPerPage
  let localFirstPage := runtime.nextOverlayPage
  let firstPage := physical.baseIndex.vectorPageCount + localFirstPage
  let runtime := { runtime with nextOverlayPage := localFirstPage + pageCount }
  match runtime.packVectors physical firstPage 0 packed (.zeros (pageCount * kIoVectorPageSize)) with
  | .error error => (runtime, .error error)
  | .ok (payload, directory) =>
    let position := localFirstPage * kIoVectorPageSize
    match io with
    | .stopsAfter bytes =>
      ({ runtime with overlay := runtime.overlay.write position (payload.contents.take bytes) },
        .error (.runtimeError "Adaptive Cell physical write failed"))
    | .completes =>
      let runtime := { runtime with overlay := runtime.overlay.write position payload.contents }
      let payloadChecksum := fnvBytes fnvOffsetBasis payload.contents
      match runtime.overlay.read position payload.size with
      | none => (runtime, .error (.runtimeError "Adaptive Cell physical read failed"))
      | some verified =>
        if payloadChecksum ≠ fnvBytes fnvOffsetBasis verified then
          ({ runtime with checksumFailures := runtime.checksumFailures + 1 },
            .error (.runtimeError "Adaptive Cell overlay checksum verification failed"))
        else
          let directory := directory.insertionSort fun first second => first.1 ≤ second.1
          match capacityForPopulation packed.length with
          | .error error => (runtime, .error error)
          | .ok capacityClass =>
            (runtime, .ok (some
              { viewId := replacementViewId runtime.snapshot.generation pair
                generation := runtime.snapshot.generation + 1
                capacityClass := capacityClass
                nodeCount := packed.length
                physicalPayloadReady := true
                logicalCellIds := logicalCells
                pageRuns := [⟨firstPage, pageCount⟩]
                vectorNodes := directory.map Prod.fst
                vectorLocations := directory.map Prod.snd
                payloadChecksum := payloadChecksum
                directoryChecksum := fnvBytes fnvOffsetBasis (directoryBytes directory) }))

def makePhysicalReplacement (runtime : Runtime) (pair : MergeCandidate) (io : Io) :
    Runtime × Except Error (Option View) :=
  match runtime.physical with
  | none => (runtime, runtime.makeContiguousReplacement pair)
  | some physical =>
    match runtime.snapshot.cell pair.leftCell, runtime.snapshot.cell pair.rightCell with
    | .ok left, .ok right =>
      if left.viewId = right.viewId then
        (runtime, .ok none)
      else
        let logicalCells := mergedCells left right
        match packNodes physical.cellNodes logicalCells with
        | none => (runtime, .ok none)
        | some packed =>
          if packed.length ≠ addNodeCounts left right ∨
              kIoVectorPageSize / physical.vectorBytes = 0 then
            (runtime, .ok none)
          else
            runtime.writeReplacement physical pair logicalCells packed io
    | .error error, _ => (runtime, .error error)
    | _, .error error => (runtime, .error error)

end Runtime

end SkipCell.Adaptive

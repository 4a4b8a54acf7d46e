import SkipCell.Adaptive.Runtime
import SkipCell.Foundation.Transition

/-! # The threads of the adaptive Cell runtime

Callers publish and report queries while the background thread builds and
publishes replacements and a destructor may stop it. Every load, store, exchange
or update of an atomic object and every notification is a step of its own; what
lies between two of them touches only the thread's own data and belongs to the
step before. Orders other than sequential consistency are left out.
-/

namespace SkipCell.Adaptive

open Foundation

/-- The two switches of the configuration that only the background thread and
the observers read. -/
structure BackgroundConfig where
  backgroundPublish : Bool := false
  forceFirstObservedModification : Bool := false

/-- What the threads share. A snapshot object is told apart from every other by
its number, which `snapshotObject` gives for the current one. -/
structure Shared where
  runtime : Runtime
  background : BackgroundConfig
  snapshotObject : Nat := 0
  publishConflicts : Nat := 0
  pending : List Bool
  stopBackground : Bool := false
  backgroundActive : Nat := 0
  forcedModificationQueued : Bool := false
  forcedCandidate : Option Nat := none

inductive CounterField
  | parentObservations
  | jointObservations
  | fixedPages
  | mergedPages
  | fixedUnseen
  | mergedUnseen
  deriving DecidableEq

namespace Counters

def get (counters : Counters) : CounterField → Nat
  | .parentObservations => counters.parentObservations
  | .jointObservations => counters.jointObservations
  | .fixedPages => counters.fixedPages
  | .mergedPages => counters.mergedPages
  | .fixedUnseen => counters.fixedUnseen
  | .mergedUnseen => counters.mergedUnseen

def set (counters : Counters) (field : CounterField) (value : Nat) : Counters :=
  match field with
  | .parentObservations => { counters with parentObservations := value }
  | .jointObservations => { counters with jointObservations := value }
  | .fixedPages => { counters with fixedPages := value }
  | .mergedPages => { counters with mergedPages := value }
  | .fixedUnseen => { counters with fixedUnseen := value }
  | .mergedUnseen => { counters with mergedUnseen := value }

end Counters

/-- The loads of `profile`, in its order. -/
def profileFields : List CounterField :=
  [.parentObservations, .jointObservations, .fixedPages, .mergedPages, .fixedUnseen, .mergedUnseen]

/-- The updates of `observe`, in its order. -/
def observeUpdates (leftLoaded rightLoaded : Bool)
    (fixedPages mergedPages fixedUnseen mergedUnseen : Nat) : List (CounterField × Nat) :=
  [(.jointObservations, if leftLoaded && rightLoaded then 1 else 0), (.fixedPages, fixedPages),
    (.mergedPages, mergedPages), (.fixedUnseen, fixedUnseen), (.mergedUnseen, mergedUnseen),
    (.parentObservations, 1)]

namespace Shared

def counter (shared : Shared) (candidate : Nat) (field : CounterField) : Nat :=
  (shared.runtime.counters.getD candidate {}).get field

/-- A `fetch_add` on one counter of a candidate. -/
def addCounter (shared : Shared) (candidate : Nat) (field : CounterField) (amount : Nat) : Shared :=
  { shared with
    runtime.counters := shared.runtime.counters.modify candidate fun counters =>
      counters.set field (counters.get field + amount) }

end Shared

/-! ## Publication -/

structure PublishCall where
  candidate : Nat
  replacement : Option View
  forceExperimentalOperation : Bool

/-- Where a call of `try_publish` stands: the atomic operation it does next. -/
inductive PublishPhase
  | loadLimit (call : PublishCall)
  | profile (call : PublishCall) (field : CounterField) (fields : List CounterField)
      (loaded : Counters)
  | countAttempt (call : PublishCall)
  | acquire (call : PublishCall)
  | exchange (replacement : View) (current : Nat) (desired : Snapshot)
  | countConflict
  | countSuccess (replacement : View) (desired : Snapshot)
  | storeFinal (replacement : View) (desired : Snapshot)
  | countPhysical
  | returned (result : Except Error Bool)

def PublishPhase.finished : PublishPhase → Bool
  | .returned _ => true
  | _ => false

/-- After the publication is counted, and stored where it is the last one. -/
def PublishPhase.published (replacement : View) : PublishPhase :=
  if replacement.vectorNodes = [] then .returned (.ok true) else .countPhysical

/-- One atomic operation of `try_publish`. -/
def Shared.publishStep (shared : Shared) : PublishPhase → Shared × PublishPhase
  | .loadLimit call =>
    match shared.runtime.candidates[call.candidate]?, call.replacement with
    | some _, some _ =>
      if !shared.runtime.acceptsObservations then
        (shared, .returned (.ok false))
      else if call.forceExperimentalOperation then
        (shared, .countAttempt call)
      else
        (shared, .profile call .parentObservations profileFields.tail {})
    | _, _ => (shared, .returned (.ok false))
  | .profile call field fields loaded =>
    let loaded := loaded.set field (shared.counter call.candidate field)
    match fields with
    | field :: fields => (shared, .profile call field fields loaded)
    | [] =>
      if (Runtime.profile shared.runtime.config loaded).eligible then
        (shared, .countAttempt call)
      else
        (shared, .returned (.ok false))
  | .countAttempt call =>
    ({ shared with runtime.publishAttempts := shared.runtime.publishAttempts + 1 },
      .acquire call)
  | .acquire call =>
    match shared.runtime.candidates[call.candidate]?, call.replacement with
    | some pair, some replacement =>
      match Runtime.admits shared.runtime.snapshot pair replacement with
      | .error error => (shared, .returned (.error error))
      | .ok false => (shared, .returned (.ok false))
      | .ok true =>
        (shared, .exchange replacement shared.snapshotObject
          (Runtime.successor shared.runtime.snapshot replacement))
    | _, _ => (shared, .returned (.ok false))
  | .exchange replacement current desired =>
    if shared.snapshotObject = current then
      ({ shared with
          runtime.snapshot := desired
          snapshotObject := shared.snapshotObject + 1 },
        .countSuccess replacement desired)
    else
      (shared, .countConflict)
  | .countConflict =>
    ({ shared with publishConflicts := shared.publishConflicts + 1 }, .returned (.ok false))
  | .countSuccess replacement desired =>
    let successful := shared.runtime.successfulPublishes + 1
    ({ shared with runtime.successfulPublishes := successful },
      if shared.runtime.config.maximumSuccessfulPublishes ≤ successful then
        .storeFinal replacement desired
      else .published replacement)
  | .storeFinal replacement desired =>
    ({ shared with runtime.finalSnapshot := some desired }, .published replacement)
  | .countPhysical =>
    ({ shared with runtime.physicalGenerations := shared.runtime.physicalGenerations + 1 },
      .returned (.ok true))
  | .returned result => (shared, .returned result)

/-! ## Observation -/

/-- A query being observed: its loaded Cells, the candidate at hand and those
still to come. -/
structure Observation where
  loadedCells : List CellId
  candidate : Nat
  rest : List Nat
  deriving DecidableEq

/-- Where a call of `observe_query` stands. It has no result; an exception
leaves a `noexcept` function and ends the process. -/
inductive ObservePhase
  | loadLimit (loadedCells : List CellId)
  | exchangeForced (query : Observation)
  | storeForced (query : Observation)
  | setForcedPending (query : Observation)
  | notifyForced (query : Observation)
  | loadLimitAgain (query : Observation)
  | acquire (query : Observation) (leftLoaded rightLoaded : Bool)
  | addCounter (query : Observation) (update : CounterField × Nat)
      (updates : List (CounterField × Nat))
  | countObservation (query : Observation)
  | profile (query : Observation) (field : CounterField) (fields : List CounterField)
      (loaded : Counters)
  | setPending (query : Observation)
  | notify (query : Observation)
  | returned
  | terminated

def ObservePhase.finished : ObservePhase → Bool
  | .returned => true
  | .terminated => true
  | _ => false

/-- The loop goes on with the next candidate, if there is one. -/
def Observation.next (query : Observation) : ObservePhase :=
  match query.rest with
  | [] => .returned
  | candidate :: rest => .loadLimitAgain ⟨query.loadedCells, candidate, rest⟩

namespace Shared

def candidatesByCell (shared : Shared) (cell : CellId) : List Nat :=
  (List.range shared.runtime.candidates.length).filter fun candidate =>
    match shared.runtime.candidates[candidate]? with
    | some pair => pair.leftCell == cell || pair.rightCell == cell
    | none => false

def queryCandidates (shared : Shared) (loadedCells : List CellId) : List Nat :=
  Runtime.sortUnique (loadedCells.flatMap shared.candidatesByCell)

/-- The pages of a view, added as `uint32_t`. -/
def pageCount (view : View) : Nat :=
  (view.pageRuns.map PageRun.pageCount).sum % 2 ^ 32

/-- What `observe` is called with for a pair of views. -/
def updatesOf (left right : View) (leftLoaded rightLoaded : Bool) : List (CounterField × Nat) :=
  observeUpdates leftLoaded rightLoaded
    (((if leftLoaded then pageCount left else 0) + if rightLoaded then pageCount right else 0)
      % 2 ^ 32)
    ((pageCount left + pageCount right) % 2 ^ 32)
    (((if leftLoaded then left.nodeCount else 0) + if rightLoaded then right.nodeCount else 0)
      % 2 ^ 32)
    (Runtime.addNodeCounts left right)

/-- One atomic operation of `observe_query`. -/
def observeStep (shared : Shared) : ObservePhase → Shared × ObservePhase
  | .loadLimit loadedCells =>
    if !shared.runtime.acceptsObservations || loadedCells.isEmpty then
      (shared, .returned)
    else
      match shared.queryCandidates loadedCells with
      | [] => (shared, .returned)
      | candidate :: rest =>
        let query : Observation := ⟨loadedCells, candidate, rest⟩
        (shared, if shared.background.forceFirstObservedModification then .exchangeForced query
          else .loadLimitAgain query)
  | .exchangeForced query =>
    ({ shared with forcedModificationQueued := true },
      if shared.forcedModificationQueued then .loadLimitAgain query else .storeForced query)
  | .storeForced query =>
    ({ shared with forcedCandidate := some query.candidate }, .setForcedPending query)
  | .setForcedPending query =>
    ({ shared with pending := shared.pending.set query.candidate true }, .notifyForced query)
  | .notifyForced query => (shared, .loadLimitAgain query)
  | .loadLimitAgain query =>
    match shared.runtime.candidates[query.candidate]? with
    | some pair =>
      let leftLoaded := decide (pair.leftCell ∈ query.loadedCells)
      let rightLoaded := decide (pair.rightCell ∈ query.loadedCells)
      if !shared.runtime.acceptsObservations then
        (shared, .returned)
      else if !leftLoaded && !rightLoaded then
        (shared, query.next)
      else
        (shared, .acquire query leftLoaded rightLoaded)
    | none => (shared, .returned)
  | .acquire query leftLoaded rightLoaded =>
    match shared.runtime.candidates[query.candidate]? with
    | none => (shared, .terminated)
    | some pair =>
      match shared.runtime.snapshot.cell pair.leftCell,
          shared.runtime.snapshot.cell pair.rightCell with
      | .ok left, .ok right =>
        if left.viewId = right.viewId then
          (shared, query.next)
        else
          match updatesOf left right leftLoaded rightLoaded with
          | update :: updates => (shared, .addCounter query update updates)
          | [] => (shared, .countObservation query)
      | _, _ => (shared, .terminated)
  | .addCounter query update updates =>
    (shared.addCounter query.candidate update.1 update.2,
      match updates with
      | update :: updates => .addCounter query update updates
      | [] => .countObservation query)
  | .countObservation query =>
    ({ shared with runtime.observations := shared.runtime.observations + 1 },
      if shared.background.backgroundPublish then
        .profile query .parentObservations profileFields.tail {}
      else query.next)
  | .profile query field fields loaded =>
    let loaded := loaded.set field (shared.counter query.candidate field)
    (shared, match fields with
      | field :: fields => .profile query field fields loaded
      | [] =>
        if (Runtime.profile shared.runtime.config loaded).eligible then .setPending query
        else query.next)
  | .setPending query =>
    ({ shared with pending := shared.pending.set query.candidate true }, .notify query)
  | .notify query => (shared, query.next)
  | .returned => (shared, .returned)
  | .terminated => (shared, .terminated)

end Shared

/-- The call sends its notification next. -/
def ObservePhase.notifies : ObservePhase → Bool
  | .notifyForced _ => true
  | .notify _ => true
  | _ => false

/-! ## The background thread and the destructor -/

/-- Where `background_loop` stands. The wait holds the mutex from its first load
to `enterWait`, which releases it and falls asleep in one operation; no other
thread here takes the mutex. -/
inductive BackgroundPhase
  | absent
  | loadStop
  | predicateStop
  | predicatePending (candidate : Nat)
  | enterWait
  | asleep
  | exchangePending (candidate : Nat)
  | addActive (candidate : Nat)
  | build (candidate : Nat)
  | loadForced (candidate : Nat) (replacement : View)
  | publish (candidate : Nat)
  | removeActive (candidate : Nat)
  | notifyAll (candidate : Nat)
  | stopped
  deriving DecidableEq

/-- A notification wakes the thread if it sleeps; it then evaluates the
predicate of its wait again. -/
def BackgroundPhase.notified : BackgroundPhase → BackgroundPhase
  | .asleep => .predicateStop
  | phase => phase

inductive DestructorPhase
  | storeStop
  | notifyAll
  | join
  | returned
  deriving DecidableEq

namespace Shared

/-- The next turn of the loop over the candidates, or the loop around it. -/
def nextTurn (shared : Shared) (candidate : Nat) : BackgroundPhase :=
  if candidate + 1 < shared.runtime.candidates.length then .exchangePending (candidate + 1)
  else .loadStop

/-- The predicate of the wait goes on with a candidate, or has found nothing. -/
def nextPredicate (shared : Shared) (candidate : Nat) : BackgroundPhase :=
  if candidate < shared.runtime.candidates.length then .predicatePending candidate else .enterWait

/-- The wait is over and the loop over the candidates starts. -/
def startTurns (shared : Shared) : BackgroundPhase :=
  if 0 < shared.runtime.candidates.length then .exchangePending 0 else .loadStop

end Shared

/-- The phases of every thread; the publisher `none` is the background thread. -/
structure Threads (Caller : Type) where
  shared : Shared
  publishers : Option Caller → PublishPhase := fun _ => .returned (.ok false)
  observers : Caller → ObservePhase := fun _ => .returned
  background : BackgroundPhase
  destructor : DestructorPhase := .storeStop

inductive ThreadAction (Caller : Type)
  /-- A caller calls `try_publish` or `observe_query`. -/
  | callPublish (caller : Caller) (call : PublishCall)
  | callObserve (caller : Caller) (loadedCells : List CellId)
  /-- A thread does its next atomic operation. -/
  | publish (publisher : Option Caller)
  | observe (caller : Caller)
  | background (io : Runtime.Io)
  | destroy
  /-- The wait of the background thread ends without a notification. -/
  | wakeSpuriously

namespace Threads

variable {Caller : Type} [DecidableEq Caller]

/-- The constructor starts the background thread where it is wanted. -/
def start (runtime : Runtime) (background : BackgroundConfig) : Threads Caller where
  shared :=
    { runtime := runtime, background := background,
      pending := runtime.candidates.map fun _ => false }
  background :=
    if runtime.config.enabled && background.backgroundPublish && !runtime.candidates.isEmpty then
      .loadStop
    else .absent

def setBackground (threads : Threads Caller) (shared : Shared) (phase : BackgroundPhase) :
    Threads Caller :=
  { threads with shared := shared, background := phase }

/-- One atomic operation of `background_loop`. A build reads the snapshot once;
the files it writes are the thread's own. -/
def backgroundStep (threads : Threads Caller) (io : Runtime.Io) : Threads Caller :=
  let shared := threads.shared
  match threads.background with
  | .absent => threads
  | .loadStop =>
    threads.setBackground shared (if shared.stopBackground then .stopped else .predicateStop)
  | .predicateStop =>
    threads.setBackground shared
      (if shared.stopBackground then shared.startTurns else shared.nextPredicate 0)
  | .predicatePending candidate =>
    threads.setBackground shared
      (if shared.pending.getD candidate false then shared.startTurns
        else shared.nextPredicate (candidate + 1))
  | .enterWait => threads.setBackground shared .asleep
  | .asleep => threads
  | .exchangePending candidate =>
    threads.setBackground { shared with pending := shared.pending.set candidate false }
      (if shared.pending.getD candidate false then .addActive candidate
        else shared.nextTurn candidate)
  | .addActive candidate =>
    threads.setBackground { shared with backgroundActive := shared.backgroundActive + 1 }
      (.build candidate)
  | .build candidate =>
    match shared.runtime.candidates[candidate]? with
    | none => threads.setBackground shared (.removeActive candidate)
    | some pair =>
      match shared.runtime.makePhysicalReplacement pair io with
      | (runtime, .ok (some replacement)) =>
        threads.setBackground { shared with runtime := runtime }
          (.loadForced candidate replacement)
      | (runtime, _) =>
        threads.setBackground { shared with runtime := runtime } (.removeActive candidate)
  | .loadForced candidate replacement =>
    { threads.setBackground shared (.publish candidate) with
      publishers := Function.update threads.publishers none
        (.loadLimit ⟨candidate, some replacement,
          decide (shared.forcedCandidate = some candidate)⟩) }
  | .publish candidate => threads.setBackground shared (.removeActive candidate)
  | .removeActive candidate =>
    threads.setBackground { shared with backgroundActive := shared.backgroundActive - 1 }
      (.notifyAll candidate)
  | .notifyAll candidate => threads.setBackground shared (shared.nextTurn candidate)
  | .stopped => threads

/-- One operation of the destructor. Closing the files comes after the join. -/
def destroyStep (threads : Threads Caller) : Threads Caller :=
  match threads.destructor with
  | .storeStop =>
    { threads with
      shared := { threads.shared with stopBackground := true }, destructor := .notifyAll }
  | .notifyAll =>
    { threads with background := threads.background.notified, destructor := .join }
  | .join => { threads with destructor := .returned }
  | .returned => threads

def publisherStep (threads : Threads Caller) (publisher : Option Caller) : Threads Caller :=
  let next := threads.shared.publishStep (threads.publishers publisher)
  { threads with
    shared := next.1, publishers := Function.update threads.publishers publisher next.2 }

def observerStep (threads : Threads Caller) (caller : Caller) : Threads Caller :=
  let next := threads.shared.observeStep (threads.observers caller)
  { threads with
    shared := next.1
    observers := Function.update threads.observers caller next.2
    background :=
      if (threads.observers caller).notifies then threads.background.notified
      else threads.background }

def perform (threads : Threads Caller) : ThreadAction Caller → Threads Caller
  | .callPublish caller call =>
    { threads with
      publishers := Function.update threads.publishers (some caller) (.loadLimit call) }
  | .callObserve caller loadedCells =>
    { threads with observers := Function.update threads.observers caller (.loadLimit loadedCells) }
  | .publish publisher => threads.publisherStep publisher
  | .observe caller => threads.observerStep caller
  | .background io => threads.backgroundStep io
  | .destroy => threads.destroyStep
  | .wakeSpuriously => { threads with background := threads.background.notified }

/-- The background thread waits for no other: it does not sleep, and a
publication of its own has returned. -/
def backgroundMoves (threads : Threads Caller) : Prop :=
  match threads.background with
  | .absent => False
  | .asleep => False
  | .stopped => False
  | .publish _ => (threads.publishers none).finished = true
  | _ => True

instance (threads : Threads Caller) : Decidable threads.backgroundMoves := by
  unfold backgroundMoves
  split <;> infer_instance

/-- A caller makes one call at a time, and a thread that has returned is done. -/
def Permitted (threads : Threads Caller) : ThreadAction Caller → Prop
  | .callPublish caller _ =>
    (threads.publishers (some caller)).finished = true ∧
      (threads.observers caller).finished = true
  | .callObserve caller _ =>
    (threads.publishers (some caller)).finished = true ∧
      (threads.observers caller).finished = true
  | .publish publisher => (threads.publishers publisher).finished = false
  | .observe caller => (threads.observers caller).finished = false
  | .background _ => threads.backgroundMoves
  | .destroy =>
    threads.destructor ≠ .returned ∧
      (threads.destructor = .join →
        threads.background = .absent ∨ threads.background = .stopped)
  | .wakeSpuriously => threads.background = .asleep

instance (threads : Threads Caller) : (action : ThreadAction Caller) →
    Decidable (threads.Permitted action)
  | .callPublish _ _ => inferInstanceAs (Decidable (_ ∧ _))
  | .callObserve _ _ => inferInstanceAs (Decidable (_ ∧ _))
  | .publish _ => inferInstanceAs (Decidable (_ = _))
  | .observe _ => inferInstanceAs (Decidable (_ = _))
  | .background _ => inferInstanceAs (Decidable (backgroundMoves _))
  | .destroy => inferInstanceAs (Decidable (_ ∧ _))
  | .wakeSpuriously => inferInstanceAs (Decidable (_ = _))

/-- The runs of every interleaving, from what a constructor returns. -/
def transition (fixedCells : List CellPageRange) (candidates : List MergeCandidate)
    (config : Config) (physical : Option Physical) (background : BackgroundConfig) :
    Transition (Threads Caller) (ThreadAction Caller) :=
  .guarded
    (fun threads => ∃ runtime,
      initializeRuntime fixedCells candidates config physical = .ok runtime ∧
        threads = start runtime background)
    Permitted perform

end Threads

end SkipCell.Adaptive

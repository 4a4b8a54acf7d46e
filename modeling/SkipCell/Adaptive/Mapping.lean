import SkipCell.Adaptive.Runtime
import SkipCell.Foundation.Transition

/-! # The mapping table over publications

A session is a runtime together with the replacements built so far. Replacements
may be built and published in any order, for any candidate, and after others
have been published in between. The snapshot's table stays a partition of the
logical Cells, whatever is accepted.
-/

namespace SkipCell.Adaptive

open Foundation GroupTable

/-! ## Initial views -/

theorem capacityForPopulation_bound {population capacity : Nat}
    (hcapacity : capacityForPopulation population = .ok capacity) : population ≤ 512 := by
  unfold capacityForPopulation at hcapacity
  split at hcapacity
  · next found hfound =>
      have hmem := List.mem_of_find?_eq_some hfound
      have hfits : population ≤ found := by simpa using List.find?_some hfound
      simp only [List.mem_cons, List.mem_nil_iff, or_false] at hmem
      omega
  · cases hcapacity

/-- The view of the fixed Cell `cell`. -/
structure IsInitialView (cell : CellId) (range : CellPageRange) (view : View) : Prop where
  viewId : view.viewId = cell
  logicalCellIds : view.logicalCellIds = [cell]
  nodeCount : view.nodeCount = range.nodeCount
  bounded : view.nodeCount ≤ 512
  pageRuns : view.pageRuns = [⟨range.firstPage, range.pageCount⟩]
  vectorNodes : view.vectorNodes = []

theorem initialViews_spec {cell : CellId} {ranges : List CellPageRange} {views : List View}
    (hviews : initialViews cell ranges = .ok views) :
    views.length = ranges.length ∧ ∀ index view, views[index]? = some view →
      ∃ range, ranges[index]? = some range ∧ IsInitialView (cell + index) range view := by
  induction ranges generalizing cell views with
  | nil =>
    obtain rfl := Except.ok.inj hviews
    exact ⟨rfl, fun index view hview => by simp at hview⟩
  | cons range ranges ih =>
    unfold initialViews at hviews
    split at hviews
    · cases hviews
    · cases hcapacity : capacityForPopulation range.nodeCount with
      | error error => simp [hcapacity] at hviews
      | ok capacityClass =>
        cases hrest : initialViews (cell + 1) ranges with
        | error error => simp [hcapacity, hrest] at hviews
        | ok rest =>
          rw [hcapacity, hrest] at hviews
          obtain rfl := Except.ok.inj hviews
          obtain ⟨hlength, hspec⟩ := ih hrest
          refine ⟨by simp [hlength], fun index view hview => ?_⟩
          cases index with
          | zero =>
            obtain rfl := Option.some.inj hview
            exact ⟨range, rfl, rfl, rfl, rfl, capacityForPopulation_bound hcapacity, rfl, rfl⟩
          | succ index =>
            obtain ⟨found, hfound, hinitial⟩ := hspec index view hview
            rw [Nat.add_right_comm] at hinitial
            exact ⟨found, hfound, hinitial⟩

section

variable {ranges : List CellPageRange} {views : List View}
  (hviews : initialViews 0 ranges = .ok views)
include hviews

theorem initialViews_partitions : Partitions View.logicalCellIds views := by
  obtain ⟨-, hspec⟩ := initialViews_spec hviews
  intro cell view hview
  obtain ⟨range, -, hinitial⟩ := hspec cell view hview
  rw [hinitial.logicalCellIds, Nat.zero_add]
  refine ⟨List.mem_singleton_self cell, fun other hother => ?_⟩
  rw [List.mem_singleton.mp hother, hview]

theorem initialViews_nodup : views.Nodup := by
  obtain ⟨-, hspec⟩ := initialViews_spec hviews
  rw [List.nodup_iff_getElem?_ne_getElem?]
  intro first second hlt hsecond heq
  have hview := List.getElem?_eq_getElem hsecond
  obtain ⟨_, -, hleft⟩ := hspec first _ (heq.trans hview)
  obtain ⟨_, -, hright⟩ := hspec second _ hview
  have hsame := hleft.viewId.symm.trans hright.viewId
  omega

theorem initialViews_totalWeight :
    totalWeight View.nodeCount views = (ranges.map CellPageRange.nodeCount).sum := by
  obtain ⟨hlength, hspec⟩ := initialViews_spec hviews
  rw [totalWeight, List.sum_toFinset _ (initialViews_nodup hviews)]
  congr 1
  refine List.ext_getElem? fun index => ?_
  rw [List.getElem?_map, List.getElem?_map]
  cases hview : views[index]? with
  | none =>
    rw [List.getElem?_eq_none_iff.mpr (hlength ▸ List.getElem?_eq_none_iff.mp hview)]
    rfl
  | some view =>
    obtain ⟨range, hrange, hinitial⟩ := hspec index view hview
    rw [hrange]
    exact congrArg some hinitial.nodeCount

end

/-- What a constructor that returns has set up. -/
structure Created (fixedCells : List CellPageRange) (candidates : List MergeCandidate)
    (config : Config) (physical : Option Physical) (runtime : Runtime) : Prop where
  config : runtime.config = config
  candidates : runtime.candidates = candidates
  physical : runtime.physical = physical
  views : initialViews 0 fixedCells = .ok runtime.snapshot.cells
  generation : runtime.snapshot.generation = 0
  overrideNodes : runtime.snapshot.overrideNodes = []
  overrideLocations : runtime.snapshot.overrideLocations = []
  successfulPublishes : runtime.successfulPublishes = 0
  nextOverlayPage : runtime.nextOverlayPage = 0

theorem created_of_initializeRuntime {fixedCells : List CellPageRange}
    {candidates : List MergeCandidate} {config : Config} {physical : Option Physical} {runtime : Runtime}
    (hcreate : initializeRuntime fixedCells candidates config physical = .ok runtime) :
    Created fixedCells candidates config physical runtime := by
  unfold initializeRuntime at hcreate
  split at hcreate
  · cases hcreate
  · split at hcreate
    · cases hcreate
    · next views hviews =>
        split at hcreate
        · cases hcreate
        · obtain rfl := Except.ok.inj hcreate
          exact ⟨rfl, rfl, rfl, hviews, rfl, rfl, rfl, rfl, rfl⟩

/-! ## Publication -/

namespace Runtime

variable {runtime : Runtime} {current : Snapshot} {pair : MergeCandidate} {replacement : View}

theorem mem_mergedCells {left right : View} {cell : CellId} :
    cell ∈ mergedCells left right ↔ cell ∈ left.logicalCellIds ∨ cell ∈ right.logicalCellIds := by
  simp [mergedCells, sortUnique, List.mem_insertionSort]

structure Admitted (current : Snapshot) (pair : MergeCandidate) (replacement : View)
    (left right : View) : Prop where
  leftCell : current.cells[pair.leftCell]? = some left
  rightCell : current.cells[pair.rightCell]? = some right
  apart : left.viewId ≠ right.viewId
  generation : replacement.generation = current.generation + 1
  nodeCount : replacement.nodeCount = addNodeCounts left right
  bounded : replacement.nodeCount ≤ 512
  cells : replacement.logicalCellIds = mergedCells left right
  directory : ¬ directoryRejected replacement

theorem cells_of_cell {cell : CellId} {view : View} (hcell : current.cell cell = .ok view) :
    current.cells[cell]? = some view := by
  unfold Snapshot.cell at hcell
  split at hcell
  · next found hfound => rw [hfound, Except.ok.inj hcell]
  · cases hcell

theorem admitted_of_admits (hadmits : admits current pair replacement = .ok true) :
    ∃ left right, Admitted current pair replacement left right := by
  unfold admits at hadmits
  cases hleft : current.cell pair.leftCell with
  | error error => simp [hleft] at hadmits
  | ok left =>
    cases hright : current.cell pair.rightCell with
    | error error => simp [hleft, hright] at hadmits
    | ok right =>
      simp only [hleft, hright] at hadmits
      split at hadmits
      · cases hadmits
      · next hchecks =>
          simp only [not_or, not_not] at hchecks
          obtain ⟨hapart, -, hgeneration, -, hcount⟩ := hchecks
          cases hcapacity : capacityForPopulation replacement.nodeCount with
          | error error => simp [hcapacity] at hadmits
          | ok capacityClass =>
            simp only [hcapacity] at hadmits
            obtain ⟨-, hcells, hdirectory, -⟩ := of_decide_eq_true (Except.ok.inj hadmits)
            exact ⟨left, right, cells_of_cell hleft, cells_of_cell hright, hapart,
              hgeneration, hcount, capacityForPopulation_bound hcapacity, hcells, hdirectory⟩

/-- A publication either installs an admitted replacement or leaves the snapshot
and the count of publications as they were. -/
theorem tryPublish_cases (runtime : Runtime) (candidate : Nat) (replacement : Option View)
    (force : Bool) :
    (∃ pair view left right, runtime.candidates[candidate]? = some pair ∧
      replacement = some view ∧ runtime.acceptsObservations = true ∧
      Admitted runtime.snapshot pair view left right ∧
      runtime.tryPublish candidate replacement force =
        ({ runtime with publishAttempts := runtime.publishAttempts + 1 }.install view, .ok true)) ∨
    ∃ attempts result, result ≠ .ok true ∧
      runtime.tryPublish candidate replacement force =
        ({ runtime with publishAttempts := attempts }, result) := by
  unfold tryPublish
  split
  · next pair view hpair =>
      split
      · exact .inr ⟨runtime.publishAttempts, .ok false, by simp, rfl⟩
      · next hgate =>
          have haccepts : runtime.acceptsObservations = true := by
            simp only [Bool.or_eq_true, not_or, Bool.not_eq_true, Bool.not_eq_false'] at hgate
            exact hgate.1
          cases hadmits : admits runtime.snapshot pair view with
          | error error =>
            simp only [hadmits]
            exact .inr ⟨_, .error error, by simp, rfl⟩
          | ok admitted =>
            cases admitted with
            | false =>
              simp only [hadmits]
              exact .inr ⟨_, .ok false, by simp, rfl⟩
            | true =>
              obtain ⟨left, right, hadmitted⟩ := admitted_of_admits hadmits
              simp only [hadmits]
              exact .inl ⟨pair, view, left, right, hpair, rfl, haccepts, hadmitted, rfl⟩
  · exact .inr ⟨runtime.publishAttempts, .ok false, by simp, rfl⟩

/-- The table of a mapping: a partition of the logical Cells whose views hold
all the nodes, each within the largest capacity. -/
structure TableOk (nodes : Nat) (cells : List View) : Prop where
  partitions : Partitions View.logicalCellIds cells
  nodes : totalWeight View.nodeCount cells = nodes
  bounded : ∀ view ∈ cells, view.nodeCount ≤ 512

theorem TableOk.of_initialViews {ranges : List CellPageRange} {views : List View}
    (hviews : initialViews 0 ranges = .ok views) :
    TableOk (ranges.map CellPageRange.nodeCount).sum views where
  partitions := initialViews_partitions hviews
  nodes := initialViews_totalWeight hviews
  bounded := by
    intro view hview
    obtain ⟨index, hindex⟩ := List.mem_iff_getElem?.mp hview
    obtain ⟨range, -, hinitial⟩ := (initialViews_spec hviews).2 index view hindex
    exact hinitial.bounded

theorem TableOk.successor {nodes : Nat} (htable : TableOk nodes current.cells) {left right : View}
    (hadmitted : Admitted current pair replacement left right) :
    TableOk nodes (successor current replacement).cells := by
  have hmembers : ∀ cell, cell ∈ replacement.logicalCellIds ↔
      cell ∈ left.logicalCellIds ∨ cell ∈ right.logicalCellIds := by
    intro cell
    rw [hadmitted.cells, mem_mergedCells]
  have hne : left ≠ right := fun heq => hadmitted.apart (congrArg View.viewId heq)
  have hweight : replacement.nodeCount = left.nodeCount + right.nodeCount := by
    have hleft := htable.bounded left (List.mem_of_getElem? hadmitted.leftCell)
    have hright := htable.bounded right (List.mem_of_getElem? hadmitted.rightCell)
    rw [hadmitted.nodeCount, addNodeCounts]
    omega
  refine ⟨htable.partitions.merge hadmitted.leftCell hadmitted.rightCell hmembers, ?_, ?_⟩
  · rw [← htable.nodes]
    exact htable.partitions.totalWeight_merge hadmitted.leftCell hadmitted.rightCell hmembers hne hweight
  · intro view hview
    obtain ⟨cell, hcell⟩ := List.mem_iff_getElem?.mp hview
    rw [Runtime.successor] at hcell
    simp only [htable.partitions.getElem?_merge hadmitted.leftCell hadmitted.rightCell hmembers] at hcell
    split at hcell
    · rw [← Option.some.inj hcell]
      exact hadmitted.bounded
    · exact htable.bounded view (List.mem_of_getElem? hcell)

/-- A build touches the overlay, its page counter and the failure counter only. -/
structure BuildFrame (runtime next : Runtime) : Prop where
  config : next.config = runtime.config
  candidates : next.candidates = runtime.candidates
  snapshot : next.snapshot = runtime.snapshot
  successfulPublishes : next.successfulPublishes = runtime.successfulPublishes
  physical : next.physical = runtime.physical

theorem writeReplacement_fields (runtime : Runtime) (physical : Physical) (pair : MergeCandidate)
    (logicalCells : List CellId) (packed : List NodeId) (io : Io) :
    ∃ overlay nextOverlayPage checksumFailures,
      (runtime.writeReplacement physical pair logicalCells packed io).1 =
        { runtime with
          overlay := overlay, nextOverlayPage := nextOverlayPage,
          checksumFailures := checksumFailures } := by
  unfold writeReplacement
  simp only
  split
  · exact ⟨_, _, _, rfl⟩
  · split
    · exact ⟨_, _, _, rfl⟩
    · split
      · exact ⟨_, _, _, rfl⟩
      · split
        · exact ⟨_, _, _, rfl⟩
        · split <;> exact ⟨_, _, _, rfl⟩

theorem makePhysicalReplacement_fields (runtime : Runtime) (pair : MergeCandidate) (io : Io) :
    ∃ overlay nextOverlayPage checksumFailures,
      (runtime.makePhysicalReplacement pair io).1 =
        { runtime with
          overlay := overlay, nextOverlayPage := nextOverlayPage,
          checksumFailures := checksumFailures } := by
  unfold makePhysicalReplacement
  split
  · exact ⟨_, _, _, rfl⟩
  · split
    · split
      · exact ⟨_, _, _, rfl⟩
      · simp only
        split
        · exact ⟨_, _, _, rfl⟩
        · split
          · exact ⟨_, _, _, rfl⟩
          · exact writeReplacement_fields _ _ _ _ _ _
    · exact ⟨_, _, _, rfl⟩
    · exact ⟨_, _, _, rfl⟩

theorem makePhysicalReplacement_frame (runtime : Runtime) (pair : MergeCandidate) (io : Io) :
    BuildFrame runtime (runtime.makePhysicalReplacement pair io).1 := by
  obtain ⟨overlay, nextOverlayPage, checksumFailures, hnext⟩ :=
    makePhysicalReplacement_fields runtime pair io
  rw [hnext]
  exact ⟨rfl, rfl, rfl, rfl, rfl⟩

theorem observe_frame (runtime : Runtime) (candidate : Nat) (leftLoaded rightLoaded : Bool)
    (fixedPages mergedPages fixedUnseen mergedUnseen : Nat) :
    ∃ observations counters, runtime.observe candidate leftLoaded rightLoaded fixedPages
      mergedPages fixedUnseen mergedUnseen =
        { runtime with observations := observations, counters := counters } := by
  unfold observe
  split
  · exact ⟨_, _, rfl⟩
  · split <;> exact ⟨_, _, rfl⟩

end Runtime

/-! ## Sessions -/

/-- A runtime, the replacements its builds have returned, and the snapshots it
has published, newest first. -/
structure Session where
  runtime : Runtime
  built : List View
  published : List Snapshot
  successes : Nat

inductive Action
  | observe (candidate : Nat) (leftLoaded rightLoaded : Bool)
      (fixedPages mergedPages fixedUnseen mergedUnseen : Nat)
  | buildContiguous (candidate : Nat)
  | buildPhysical (candidate : Nat) (io : Runtime.Io)
  | publish (candidate : Nat) (replacement : Option View) (force : Bool)

namespace Session

def start (runtime : Runtime) : Session := ⟨runtime, [], [runtime.snapshot], 0⟩

def addBuilt (session : Session) : Except Error (Option View) → Session
  | .ok (some view) => { session with built := view :: session.built }
  | _ => session

def perform (session : Session) : Action → Session
  | .observe candidate leftLoaded rightLoaded fixedPages mergedPages fixedUnseen mergedUnseen =>
    { session with
      runtime := session.runtime.observe candidate leftLoaded rightLoaded fixedPages
        mergedPages fixedUnseen mergedUnseen }
  | .buildContiguous candidate =>
    match session.runtime.candidates[candidate]? with
    | none => session
    | some pair => session.addBuilt (session.runtime.makeContiguousReplacement pair)
  | .buildPhysical candidate io =>
    match session.runtime.candidates[candidate]? with
    | none => session
    | some pair =>
      let (runtime, result) := session.runtime.makePhysicalReplacement pair io
      { session with runtime := runtime }.addBuilt result
  | .publish candidate replacement force =>
    match session.runtime.tryPublish candidate replacement force with
    | (runtime, .ok true) =>
      { session with
        runtime := runtime
        published := runtime.snapshot :: session.published
        successes := session.successes + 1 }
    | (runtime, _) => { session with runtime := runtime }

/-- A publication takes nothing or a replacement that some build returned, no
matter how many publications ago. -/
def Permitted (session : Session) : Action → Prop
  | .publish _ (some view) _ => view ∈ session.built
  | _ => True

instance (session : Session) : (action : Action) → Decidable (session.Permitted action)
  | .publish _ (some _) _ => inferInstanceAs (Decidable (_ ∈ _))
  | .publish _ none _ => inferInstanceAs (Decidable True)
  | .observe _ _ _ _ _ _ _ => inferInstanceAs (Decidable True)
  | .buildContiguous _ => inferInstanceAs (Decidable True)
  | .buildPhysical _ _ => inferInstanceAs (Decidable True)

def transition (runtime : Runtime) : Transition Session Action :=
  .guarded (· = start runtime) Permitted perform

/-- The mapping table of a session and its count of publications. -/
structure Mapped (fixedCells : List CellPageRange) (config : Config) (session : Session) :
    Prop where
  sameConfig : session.runtime.config = config
  length : session.runtime.snapshot.cells.length = fixedCells.length
  table : Runtime.TableOk (fixedCells.map CellPageRange.nodeCount).sum
    session.runtime.snapshot.cells
  generation : session.runtime.snapshot.generation = session.successes
  counter : session.runtime.successfulPublishes = session.successes
  limit : session.successes ≤ config.maximumSuccessfulPublishes

namespace Mapped

variable {fixedCells : List CellPageRange} {candidates : List MergeCandidate} {config : Config}
  {physical : Option Physical} {runtime : Runtime} {session : Session}

theorem start (hcreated : Created fixedCells candidates config physical runtime) :
    Mapped fixedCells config (Session.start runtime) where
  sameConfig := hcreated.config
  length := (initialViews_spec hcreated.views).1
  table := .of_initialViews hcreated.views
  generation := hcreated.generation
  counter := hcreated.successfulPublishes
  limit := Nat.zero_le _

@[simp]
theorem runtime_addBuilt (session : Session) (result : Except Error (Option View)) :
    (session.addBuilt result).runtime = session.runtime := by
  unfold addBuilt
  split <;> rfl

@[simp]
theorem successes_addBuilt (session : Session) (result : Except Error (Option View)) :
    (session.addBuilt result).successes = session.successes := by
  unfold addBuilt
  split <;> rfl

theorem of_frame (hmapped : Mapped fixedCells config session) {next : Session}
    (hframe : Runtime.BuildFrame session.runtime next.runtime)
    (hsuccesses : next.successes = session.successes) : Mapped fixedCells config next where
  sameConfig := hframe.config.trans hmapped.sameConfig
  length := by rw [hframe.snapshot, hmapped.length]
  table := by
    rw [hframe.snapshot]
    exact hmapped.table
  generation := by rw [hframe.snapshot, hsuccesses, hmapped.generation]
  counter := by rw [hframe.successfulPublishes, hsuccesses, hmapped.counter]
  limit := hsuccesses ▸ hmapped.limit

theorem publish_step (hmapped : Mapped fixedCells config session) (candidate : Nat)
    (replacement : Option View) (force : Bool) :
    Mapped fixedCells config (session.perform (.publish candidate replacement force)) := by
  rcases session.runtime.tryPublish_cases candidate replacement force with
    ⟨pair, view, left, right, -, -, haccepts, hadmitted, hcall⟩ | ⟨attempts, result, hresult, hcall⟩
  · simp only [perform, hcall]
    refine ⟨hmapped.sameConfig, ?_, hmapped.table.successor hadmitted, ?_, ?_, ?_⟩
    · simp [Runtime.install, Runtime.successor, hmapped.length]
    · simp [Runtime.install, Runtime.successor, hmapped.generation]
    · simp [Runtime.install, hmapped.counter]
    · simp only [Runtime.acceptsObservations, Bool.and_eq_true, decide_eq_true_eq, hmapped.sameConfig,
        hmapped.counter] at haccepts
      exact haccepts.2
  · simp only [perform, hcall]
    exact hmapped.of_frame ⟨rfl, rfl, rfl, rfl, rfl⟩ rfl

theorem perform_step (hmapped : Mapped fixedCells config session) (action : Action) :
    Mapped fixedCells config (session.perform action) := by
  cases action with
  | observe candidate leftLoaded rightLoaded fixedPages mergedPages fixedUnseen mergedUnseen =>
    obtain ⟨observations, counters, hframe⟩ := session.runtime.observe_frame candidate leftLoaded
      rightLoaded fixedPages mergedPages fixedUnseen mergedUnseen
    rw [perform, hframe]
    exact hmapped.of_frame ⟨rfl, rfl, rfl, rfl, rfl⟩ rfl
  | buildContiguous candidate =>
    simp only [perform]
    split
    · exact hmapped
    · exact hmapped.of_frame (by rw [runtime_addBuilt]; exact ⟨rfl, rfl, rfl, rfl, rfl⟩)
        (successes_addBuilt _ _)
  | buildPhysical candidate io =>
    simp only [perform]
    split
    · exact hmapped
    · next pair _ =>
        refine hmapped.of_frame ?_ (successes_addBuilt _ _)
        rw [runtime_addBuilt]
        exact session.runtime.makePhysicalReplacement_frame pair io
  | publish candidate replacement force => exact hmapped.publish_step candidate replacement force

end Mapped

/-- The current snapshot partitions the logical Cells, and its generation counts
the publications. -/
structure MappingTable (fixedCells : List CellPageRange) (config : Config) (session : Session) :
    Prop where
  mapped : ∀ cell < fixedCells.length, ∃ view, session.runtime.snapshot.cells[cell]? = some view ∧
    cell ∈ view.logicalCellIds
  closed : ∀ (cell : CellId) (view : View), session.runtime.snapshot.cells[cell]? = some view →
    ∀ other ∈ view.logicalCellIds, session.runtime.snapshot.cells[other]? = some view
  nodes : ∑ view ∈ session.runtime.snapshot.cells.toFinset, view.nodeCount =
    (fixedCells.map CellPageRange.nodeCount).sum
  generation : session.runtime.snapshot.generation = session.successes
  limit : session.successes ≤ config.maximumSuccessfulPublishes

theorem Mapped.mappingTable {fixedCells : List CellPageRange} {config : Config} {session : Session}
    (hmapped : Mapped fixedCells config session) : MappingTable fixedCells config session where
  mapped := by
    intro cell hcell
    rw [← hmapped.length] at hcell
    have hview := List.getElem?_eq_getElem hcell
    exact ⟨_, hview, (hmapped.table.partitions cell _ hview).1⟩
  closed := fun cell view hview => (hmapped.table.partitions cell view hview).2
  nodes := hmapped.table.nodes
  generation := hmapped.generation
  limit := hmapped.limit

/-- Every snapshot of every session partitions the logical Cells, and a
publication that is refused leaves the snapshot alone. -/
theorem mapping_table {fixedCells : List CellPageRange} {candidates : List MergeCandidate}
    {config : Config} {physical : Option Physical} {runtime : Runtime}
    (hcreate : initializeRuntime fixedCells candidates config physical = .ok runtime)
    {session : Session} (hreach : (transition runtime).Reachable session) :
    MappingTable fixedCells config session ∧
      ∀ candidate replacement force,
        (session.runtime.tryPublish candidate replacement force).2 = .ok false →
        (session.runtime.tryPublish candidate replacement force).1.snapshot =
          session.runtime.snapshot := by
  have hmapped : Mapped fixedCells config session := by
    refine hreach.invariant ?_ ?_
    · rintro _ rfl
      exact .start (created_of_initializeRuntime hcreate)
    · rintro state action _ hstate ⟨-, rfl⟩
      exact hstate.perform_step action
  refine ⟨hmapped.mappingTable, fun candidate replacement force hfalse => ?_⟩
  rcases session.runtime.tryPublish_cases candidate replacement force with
    ⟨pair, view, left, right, -, -, -, -, hcall⟩ | ⟨attempts, result, -, hcall⟩
  · rw [hcall] at hfalse
    cases hfalse
  · rw [hcall]

/-- Three Cells on adjacent pages, of which the first two are merged; the
replacement of the other pair, built before, has become stale. -/
def threeCells : List CellPageRange := [⟨0, 4, 30⟩, ⟨4, 4, 31⟩, ⟨8, 4, 20⟩]

def staleMerge : List Action :=
  [.buildContiguous 0, .buildContiguous 1,
    .publish 0 (some ⟨2 ^ 32, 1, 64, 61, true, [0, 1], [⟨0, 8⟩], [], [], 0, 0⟩) true,
    .publish 1 (some ⟨2 ^ 32 + 1, 1, 64, 51, true, [1, 2], [⟨4, 8⟩], [], [], 0, 0⟩) true]

def threeCellRuntime : Runtime :=
  (initializeRuntime threeCells [⟨0, 1⟩, ⟨1, 2⟩] { enabled := true } none).toOption.get (by decide)

theorem mapping_table_staleMerge :
    MappingTable threeCells { enabled := true } (staleMerge.foldl perform (start threeCellRuntime)) ∧
      ∀ candidate replacement force,
        ((staleMerge.foldl perform (start threeCellRuntime)).runtime.tryPublish candidate
          replacement force).2 = .ok false →
        ((staleMerge.foldl perform (start threeCellRuntime)).runtime.tryPublish candidate
          replacement force).1.snapshot =
          (staleMerge.foldl perform (start threeCellRuntime)).runtime.snapshot :=
  mapping_table (show initializeRuntime threeCells [⟨0, 1⟩, ⟨1, 2⟩] { enabled := true } none =
      .ok threeCellRuntime from rfl) (Transition.reachable_of_permitted rfl (by decide))

end Session

end SkipCell.Adaptive

import SkipCell.Foundation.AssocMap
import SkipCell.Vamana.Pruning

/-! # Linking a static index

A static index links its loaded points and then its frozen ones, each from the candidates of a
search that starts at an entry point. Without frozen points the entry point is the medoid of all
slots of the data store, loaded or not.
-/

namespace SkipCell.Vamana

open Foundation

universe uDistance uFactor uLabel

variable {Distance : Type uDistance} {Factor : Type uFactor} {Label : Type uLabel}
  [LinearOrder Distance] [LinearOrder Factor] [DecidableEq Label]

/-- The binary search of `neighbor_priority_queue_t::insert`, which finds nothing where it meets
the same id. The fuel bounds the halvings. -/
def insertPlace (items : List (Candidate Nat Distance)) (neighbor : Candidate Nat Distance) :
    Nat → Nat → Nat → Option Nat
  | 0, lo, _ => some lo
  | fuel + 1, lo, hi =>
    if lo < hi then
      match items[(lo + hi) / 2]? with
      | none => some lo
      | some other =>
        if neighbor.Before other then insertPlace items neighbor fuel lo ((lo + hi) / 2)
        else if other.id = neighbor.id then none
        else insertPlace items neighbor fuel ((lo + hi) / 2 + 1) hi
    else some lo

/-- `neighbor_priority_queue_t::insert`. -/
def priorityQueueInsert (queue : CandidateQueue Nat Distance) (id : Nat) (distance : Distance) :
    CandidateQueue Nat Distance :=
  let neighbor : Candidate Nat Distance := ⟨id, distance, false⟩
  if queue.items.length = queue.capacity ∧ ∃ last ∈ queue.items.getLast?, last.Before neighbor then
    queue
  else
    match insertPlace queue.items neighbor (queue.items.length + 1) 0 queue.items.length with
    | none => queue
    | some lo => queue.insertAt id distance lo

theorem insertPlace_le {items : List (Candidate Nat Distance)} {neighbor : Candidate Nat Distance}
    {fuel lo hi place : Nat} (hle : lo ≤ hi)
    (hplace : insertPlace items neighbor fuel lo hi = some place) : place ≤ hi := by
  induction fuel generalizing lo hi with
  | zero => exact Option.some.inj hplace ▸ hle
  | succ fuel ih =>
    rw [insertPlace] at hplace
    split at hplace
    · split at hplace
      · exact Option.some.inj hplace ▸ hle
      · split at hplace
        · exact (ih (by omega) hplace).trans (by omega)
        · split at hplace
          · cases hplace
          · exact ih (by omega) hplace
    · exact Option.some.inj hplace ▸ hle

theorem priorityQueueInsert_cases (queue : CandidateQueue Nat Distance) (id : Nat)
    (distance : Distance) :
    priorityQueueInsert queue id distance = queue ∨ ∃ place ≤ queue.items.length,
      priorityQueueInsert queue id distance = queue.insertAt id distance place := by
  rw [priorityQueueInsert]
  split
  · exact .inl rfl
  · split
    · exact .inl rfl
    · next place hplace => exact .inr ⟨place, insertPlace_le (Nat.zero_le _) hplace, rfl⟩

structure StaticConfig (Distance : Type uDistance) (Factor : Type uFactor) (Label : Type uLabel)
    [LinearOrder Distance] [LinearOrder Factor] extends Space Distance Factor Label where
  maxPoints : Nat
  numFrozenPts : Nat
  indexingRange : Nat
  indexingQueueSize : Nat
  indexingMaxC : Nat
  filterIndexingQueueSize : Nat
  indexingAlpha : FiniteAlpha floats
  /-- `distances` of `calculate_medoid`, for all slots of the data store. -/
  fromCenter : Nat → Distance
  /-- `pq_data_store_->get_distance` from the vector of a location. -/
  queryDistance : Nat → Nat → Distance
  useUniversalLabel : Bool
  universalLabel : Label
  /-- `labels_`, in the order in which it is gone through. -/
  labels : List Label
  /-- The values of `rand()`. -/
  draws : Nat → Nat

structure StaticIndex (Distance : Type uDistance) (Factor : Type uFactor) (Label : Type uLabel)
    [LinearOrder Distance] [LinearOrder Factor] extends StaticConfig Distance Factor Label where
  nd : Nat
  nd_pos : 0 < nd
  nd_le : nd ≤ maxPoints

/-- The checks of `build` on the number of points. -/
def StaticConfig.load (config : StaticConfig Distance Factor Label)
    (fileNumPoints numPointsToLoad : Nat) : Except String (StaticIndex Distance Factor Label) :=
  if hzero : numPointsToLoad = 0 then .error "Do not call build with 0 points"
  else if hmany : config.maxPoints < fileNumPoints then
    .error (s!"ERROR: Driver requests loading {numPointsToLoad} points and file has " ++
      s!"{fileNumPoints} points, but index can support only {config.maxPoints} points as " ++
      "specified in constructor.\n")
  else if hfew : fileNumPoints < numPointsToLoad then
    .error (s!"ERROR: Driver requests loading {numPointsToLoad} points and file has only " ++
      s!"{fileNumPoints} points.\n")
  else
    .ok
      { config with
        nd := numPointsToLoad
        nd_pos := Nat.pos_of_ne_zero hzero
        nd_le := (Nat.not_lt.mp hfew).trans (Nat.not_lt.mp hmany) }

namespace StaticIndex

variable (index : StaticIndex Distance Factor Label)

/-- The number of slots of the data store. -/
def capacity : Nat := index.maxPoints + index.numFrozenPts

/-- `min_idx` and `min_dist` after one more slot. -/
def nearerSlot (best : Nat × Distance) (slot : Nat) : Nat × Distance :=
  if index.fromCenter slot < best.2 then (slot, index.fromCenter slot) else best

def calculateMedoid : Nat :=
  ((List.range' 1 (index.capacity - 1)).foldl index.nearerSlot (0, index.fromCenter 0)).1

/-- `label_to_points` of a label. -/
def labelToPoints (wanted : Label) : List Nat :=
  (List.range index.nd).flatMap fun point =>
    ((index.locationToLabels point).filter fun label =>
      if label = index.universalLabel then wanted ∈ index.labels else label = wanted).map
        fun _ => point

/-- What is kept from one candidate to the next: `best_medoid_count`, `best_medoid`,
`medoid_counts_` and how many values were drawn. -/
structure Drawing where
  bestCount : Nat
  bestMedoid : Nat := 0
  medoidCounts : AssocMap Nat Nat
  drawn : Nat

def drawCandidate (labeledPoints : List Nat) (drawing : Drawing) : Drawing :=
  let candidate := labeledPoints.getD (index.draws drawing.drawn % labeledPoints.length) 0
  let count := (drawing.medoidCounts.lookup candidate).getD 0
  let counts :=
    if candidate ∈ drawing.medoidCounts then drawing.medoidCounts
    else drawing.medoidCounts.insert candidate 0
  if count < drawing.bestCount then
    { bestCount := count, bestMedoid := candidate, medoidCounts := counts,
      drawn := drawing.drawn + 1 }
  else { drawing with medoidCounts := counts, drawn := drawing.drawn + 1 }

/-- The start of one label, out of 25 candidates. -/
def drawStart (state : AssocMap Label Nat × AssocMap Nat Nat × Nat) (label : Label) :
    AssocMap Label Nat × AssocMap Nat Nat × Nat :=
  let drawing := (index.drawCandidate (index.labelToPoints label))^[25]
    { bestCount := 2 ^ 32 - 1, medoidCounts := state.2.1, drawn := state.2.2 }
  (state.1.insert label drawing.bestMedoid,
    drawing.medoidCounts.insert drawing.bestMedoid
      ((drawing.medoidCounts.lookup drawing.bestMedoid).getD 0 + 1), drawing.drawn)

/-- `label_to_start_id_` after `build_filtered_index`. -/
def labelToStartId : AssocMap Label Nat := (index.labels.foldl index.drawStart (∅, ∅, 0)).1

/-- `detect_common_filters` of a location that is linked; labels are sorted there. -/
def detectCommonFilters (point : Nat) (incoming : List Label) : Bool :=
  incoming.any (fun label => decide (label ∈ index.locationToLabels point)) ||
    (index.useUniversalLabel &&
      decide (index.universalLabel ∈ incoming ∨
        index.universalLabel ∈ index.locationToLabels point))

/-- The entry point of `link_impl`. -/
def start : Nat := if 0 < index.numFrozenPts then index.maxPoints else index.calculateMedoid

def frozenPoints : List Nat := List.range' index.maxPoints index.numFrozenPts

def getInitIds : List Nat := index.start :: index.frozenPoints.filter fun frozen => frozen ≠ index.start

/-- The search of `iterate_to_fixed_point` around a location, over the points that it accepts.
No node is expanded twice, so that `expanded_nodes` never holds one already. -/
def bestFirst (accepts : Nat → Bool) (graph : Nat → List Nat) (location : Nat) :
    BestFirst Nat Distance where
  distance := index.queryDistance location
  neighbors := graph
  insert := priorityQueueInsert
  unseen visited nodes := nodes.filter fun id => accepts id && decide (id ∉ visited)

/-- The expanded candidates. As many expansions as there are slots leave nothing to expand. -/
def iterateToFixedPoint (accepts : Nat → Bool) (graph : Nat → List Nat) (location size : Nat)
    (initIds : List Nat) : List (Candidate Nat Distance) :=
  ((index.bestFirst accepts graph location).run size index.capacity
    (unseenNodes [] (initIds.filter accepts))).pool

/-- The candidates of `search_for_point_and_prune`; a filtered index adds those of a search over
common labels. -/
def searchForPoint (graph : Nat → List Nat) (location : Nat) : List (Candidate Nat Distance) :=
  let unfiltered := index.iterateToFixedPoint (fun _ => true) graph location
    index.indexingQueueSize index.getInitIds
  if index.filteredIndex then
    let incoming := index.locationToLabels location
    let filtered := index.iterateToFixedPoint (fun id => index.detectCommonFilters id incoming)
      graph location index.filterIndexingQueueSize
      (incoming.map fun label => (index.labelToStartId.lookup label).getD 0)
    (filtered ++ unfiltered.filter fun candidate =>
      !filtered.any fun other => decide (¬ other.Before candidate ∧ ¬ candidate.Before other)).insertionSort
        Candidate.Before
  else unfiltered

/-- The two places of `link_impl` at which lists are pruned, and `inter_insert`. -/
def linking : Linking Nat Distance where
  degree := index.indexingRange
  slack := index.floats.slack index.indexingRange
  distance := index.getDistance
  search := index.searchForPoint
  prune location pool :=
    index.pruneNeighbors location pool index.indexingRange index.indexingMaxC
      index.indexingAlpha.toAlpha

def visitOrder : List Nat := List.range index.nd ++ index.frozenPoints

/-- The links of some nodes of a new index, one after the other. -/
def linkNodes (nodes : List Nat) : Nat → List Nat := nodes.foldl index.linking.linkNode fun _ => []

def cleanUpNodes (nodes : List Nat) (graph : Nat → List Nat) : Nat → List Nat :=
  nodes.foldl index.linking.cleanUp graph

/-- `link_impl`, without its assertions. -/
def link : Nat → List Nat := index.cleanUpNodes index.visitOrder (index.linkNodes index.visitOrder)

variable {index}

omit [DecidableEq Label] in
theorem foldl_nearerSlot (count : Nat) :
    let best := (List.range' 1 count).foldl index.nearerSlot (0, index.fromCenter 0)
    best.2 = index.fromCenter best.1 ∧ best.1 ≤ count ∧
      (∀ slot ≤ count, best.2 ≤ index.fromCenter slot) ∧
      ∀ slot < best.1, best.2 < index.fromCenter slot := by
  induction count with
  | zero => simp
  | succ count ih =>
    have hlast : 1 + 1 * count = count + 1 := by omega
    rw [List.range'_concat, List.foldl_append, List.foldl_cons, List.foldl_nil, hlast]
    obtain ⟨hsame, hle, hleast, hfirst⟩ := ih
    generalize (List.range' 1 count).foldl index.nearerSlot _ = best at hsame hle hleast hfirst ⊢
    rw [nearerSlot]
    split
    · next hnearer =>
        refine ⟨rfl, le_rfl, fun slot hslot => ?_, fun slot hslot => ?_⟩
        · rcases Nat.le_succ_iff.mp hslot with hold | rfl
          · exact hnearer.le.trans (hleast slot hold)
          · exact le_rfl
        · exact hnearer.trans_le (hleast slot (Nat.le_of_lt_succ hslot))
    · next hfar =>
        refine ⟨hsame, hle.trans (Nat.le_succ _), fun slot hslot => ?_, hfirst⟩
        rcases Nat.le_succ_iff.mp hslot with hold | rfl
        · exact hleast slot hold
        · exact not_lt.mp hfar

omit [DecidableEq Label] in
theorem nd_le_capacity (index : StaticIndex Distance Factor Label) : index.nd ≤ index.capacity :=
  index.nd_le.trans (Nat.le_add_right _ _)

omit [DecidableEq Label] in
theorem calculateMedoid_spec (index : StaticIndex Distance Factor Label) :
    index.calculateMedoid < index.capacity ∧
      (∀ slot < index.capacity, index.fromCenter index.calculateMedoid ≤ index.fromCenter slot) ∧
      ∀ slot < index.calculateMedoid,
        index.fromCenter index.calculateMedoid < index.fromCenter slot := by
  have hcapacity := index.nd_pos.trans_le index.nd_le_capacity
  obtain ⟨hsame, hle, hleast, hfirst⟩ := @foldl_nearerSlot _ _ _ _ _ index (index.capacity - 1)
  rw [hsame] at hleast hfirst
  rw [calculateMedoid]
  exact ⟨by omega, fun slot hslot => hleast slot (by omega), hfirst⟩

omit [DecidableEq Label] in
/-- The medoid is loaded exactly when some loaded point is as near to the center as every slot
behind the loaded ones. -/
theorem calculateMedoid_lt_iff (index : StaticIndex Distance Factor Label) :
    index.calculateMedoid < index.nd ↔ ∃ point < index.nd, ∀ slot, index.nd ≤ slot →
      slot < index.capacity → index.fromCenter point ≤ index.fromCenter slot := by
  obtain ⟨hlt, hleast, hfirst⟩ := index.calculateMedoid_spec
  constructor
  · intro hloaded
    exact ⟨_, hloaded, fun slot _ hslot => hleast slot hslot⟩
  · rintro ⟨point, hpoint, hnearest⟩
    by_contra hunloaded
    have hbehind := Nat.not_lt.mp hunloaded
    exact ((hfirst point (hpoint.trans_le hbehind)).trans_le (hnearest _ hbehind hlt)).false

theorem labelToPoints_lt {wanted : Label} {point : Nat}
    (hpoint : point ∈ index.labelToPoints wanted) : point < index.nd := by
  obtain ⟨other, hother, hmem⟩ := List.mem_flatMap.mp hpoint
  obtain ⟨_, _, rfl⟩ := List.mem_map.mp hmem
  exact List.mem_range.mp hother

omit [DecidableEq Label] in
theorem drawCandidate_lt {labeledPoints : List Nat} (hpoints : ∀ point ∈ labeledPoints, point < index.nd)
    {drawing : Drawing} (hdrawing : drawing.bestMedoid < index.nd) :
    (index.drawCandidate labeledPoints drawing).bestMedoid < index.nd := by
  unfold drawCandidate
  extract_lets candidate count counts
  have hcandidate : candidate < index.nd := by
    simp only [candidate]
    rw [List.getD_eq_getElem?_getD]
    cases hpoint : labeledPoints[index.draws drawing.drawn % labeledPoints.length]? with
    | none => exact index.nd_pos
    | some point => exact hpoints point (List.mem_of_getElem? hpoint)
  split
  · exact hcandidate
  · exact hdrawing

theorem labelToStartId_lt (index : StaticIndex Distance Factor Label) (label : Label) :
    (index.labelToStartId.lookup label).getD 0 < index.nd := by
  refine List.foldlRecOn (motive := fun state : AssocMap Label Nat × AssocMap Nat Nat × Nat =>
    (state.1.lookup label).getD 0 < index.nd) _ _ (by simpa using index.nd_pos) ?_
  intro state hstate other _
  unfold drawStart
  extract_lets drawing
  have hdrawing : drawing.bestMedoid < index.nd := by
    simp only [drawing]
    refine Function.Iterate.rec (fun drawing : Drawing => drawing.bestMedoid < index.nd) ?_ ?_ 25
    · exact index.nd_pos
    · intro drawing hdrawing
      exact drawCandidate_lt (fun point hpoint => labelToPoints_lt hpoint) hdrawing
  by_cases hsame : label = other
  · subst hsame
    simpa using hdrawing
  · simpa [AList.lookup_insert_ne hsame] using hstate

variable {graph : Nat → List Nat} {valid : Nat → Prop}

omit [DecidableEq Label] in
theorem bestFirst_lawful (index : StaticIndex Distance Factor Label) (accepts : Nat → Bool)
    (graph : Nat → List Nat) (location : Nat) : (index.bestFirst accepts graph location).Lawful where
  insert queue id distance _ := priorityQueueInsert_cases queue id distance
  unseen visited nodes hnodup := by
    refine ⟨hnodup.filter _, fun id hid => ?_⟩
    simp only [bestFirst, List.mem_filter, Bool.and_eq_true, decide_eq_true_eq] at hid
    exact ⟨hid.1, hid.2.2⟩

omit [DecidableEq Label] in
theorem iterateToFixedPoint_spec (index : StaticIndex Distance Factor Label)
    (hgraph : ∀ node, valid node → (graph node).Nodup ∧ ∀ neighbor ∈ graph node, valid neighbor)
    {initIds : List Nat} (hinit : ∀ id ∈ initIds, valid id) (accepts : Nat → Bool)
    (location size : Nat) :
    ((index.iterateToFixedPoint accepts graph location size initIds).map Candidate.id).Nodup ∧
      ∀ candidate ∈ index.iterateToFixedPoint accepts graph location size initIds,
        valid candidate.id ∧ candidate.distance = index.queryDistance location candidate.id := by
  obtain ⟨hnodup, hmem⟩ := unseenNodes_spec [] (initIds.filter accepts)
  have hsearching : BestFirst.Searching valid ((index.bestFirst accepts graph location).run size
      index.capacity (unseenNodes [] (initIds.filter accepts))) :=
    BestFirst.run_searching (index.bestFirst_lawful accepts graph location) _ _ hnodup
      (fun id hid => hinit id (List.mem_of_mem_filter (hmem id hid).1)) hgraph
  have hmeasured := @BestFirst.Measured.run _ _ _ (index.bestFirst accepts graph location)
    (by
      intro queue id distance item hitem
      rcases priorityQueueInsert_cases queue id distance with hsame | ⟨place, -, hinsert⟩
      · exact .inl (by rwa [← hsame])
      · exact CandidateQueue.mem_insertAt (by rwa [← hinsert]))
    size index.capacity (unseenNodes [] (initIds.filter accepts))
  exact ⟨hsearching.pool, fun candidate hcandidate =>
    ⟨hsearching.valid _ (hsearching.poolSeen candidate hcandidate),
      hmeasured.pool candidate hcandidate⟩⟩

omit [DecidableEq Label] in
theorem iterateToFixedPoint_finished (index : StaticIndex Distance Factor Label)
    (hgraph : ∀ node < index.capacity, (graph node).Nodup ∧
      ∀ neighbor ∈ graph node, neighbor < index.capacity)
    {initIds : List Nat} (hinit : ∀ id ∈ initIds, id < index.capacity) (accepts : Nat → Bool)
    (location size : Nat) :
    BestFirst.Finished ((index.bestFirst accepts graph location).run size index.capacity
      (unseenNodes [] (initIds.filter accepts))) := by
  obtain ⟨hnodup, hmem⟩ := unseenNodes_spec [] (initIds.filter accepts)
  have hfinished := BestFirst.run_finished (index.bestFirst_lawful accepts graph location) size
    (Finset.range index.capacity) hnodup
    (fun id hid => Finset.mem_range.mpr (hinit id (List.mem_of_mem_filter (hmem id hid).1)))
    fun id hid => by simpa [bestFirst] using hgraph id (Finset.mem_range.mp hid)
  rwa [Finset.card_range] at hfinished

/-- A loaded or frozen point. -/
def Accepted (index : StaticIndex Distance Factor Label) (id : Nat) : Prop :=
  id < index.nd ∨ id ∈ index.frozenPoints

instance (index : StaticIndex Distance Factor Label) : DecidablePred index.Accepted :=
  fun _ => inferInstanceAs (Decidable (_ ∨ _))

/-- Points that hold the start, the loaded and the frozen points. -/
structure Covers (index : StaticIndex Distance Factor Label) (valid : Nat → Prop) : Prop where
  start : valid index.start
  loaded : ∀ id < index.nd, valid id
  frozen : ∀ id ∈ index.frozenPoints, valid id

omit [DecidableEq Label] in
theorem covers_accepted (hstart : index.Accepted index.start) : index.Covers index.Accepted :=
  ⟨hstart, fun _ => .inl, fun _ => .inr⟩

theorem searchForPoint_spec (hcovers : index.Covers valid)
    (hgraph : ∀ node, valid node → (graph node).Nodup ∧ ∀ neighbor ∈ graph node, valid neighbor)
    (location : Nat) :
    ((index.searchForPoint graph location).map Candidate.id).Nodup ∧
      ∀ candidate ∈ index.searchForPoint graph location, valid candidate.id ∧
        candidate.distance = index.queryDistance location candidate.id := by
  have hinit : ∀ id ∈ index.getInitIds, valid id := by
    intro id hid
    rcases List.mem_cons.mp hid with rfl | hfrozen
    · exact hcovers.start
    · exact hcovers.frozen id (List.mem_of_mem_filter hfrozen)
  have hlabels : ∀ id ∈ (index.locationToLabels location).map fun label =>
      (index.labelToStartId.lookup label).getD 0, valid id := by
    intro id hid
    obtain ⟨label, -, rfl⟩ := List.mem_map.mp hid
    exact hcovers.loaded _ (index.labelToStartId_lt label)
  obtain ⟨hunfiltered, hunfilteredMem⟩ := index.iterateToFixedPoint_spec hgraph hinit
    (fun _ => true) location index.indexingQueueSize
  obtain ⟨hfiltered, hfilteredMem⟩ := index.iterateToFixedPoint_spec hgraph hlabels
    (fun id => index.detectCommonFilters id (index.locationToLabels location)) location
    index.filterIndexingQueueSize
  unfold searchForPoint
  extract_lets unfiltered incoming filtered
  split
  · constructor
    · refine ((List.perm_insertionSort _ _).map _).nodup_iff.mpr ?_
      rw [List.map_append]
      refine List.nodup_append.mpr ⟨hfiltered, hunfiltered.sublist (List.filter_sublist.map _), ?_⟩
      rintro id hfirst _ hlast rfl
      obtain ⟨other, hother, rfl⟩ := List.mem_map.mp hfirst
      obtain ⟨candidate, hcandidate, hsame⟩ := List.mem_map.mp hlast
      rw [List.mem_filter] at hcandidate
      -- Both searches are around the same location.
      have hdistance : other.distance = candidate.distance := by
        rw [(hfilteredMem other hother).2, (hunfilteredMem candidate hcandidate.1).2, hsame]
      have hkept : ∀ other ∈ filtered, ¬ other.Before candidate → candidate.Before other := by
        simpa using hcandidate.2
      exact Candidate.not_before_of_eq hsame hdistance.symm
        (hkept other hother (Candidate.not_before_of_eq hsame.symm hdistance))
    · intro candidate hcandidate
      rcases List.mem_append.mp ((List.mem_insertionSort _).mp hcandidate) with hmem | hmem
      · exact hfilteredMem candidate hmem
      · exact hunfilteredMem candidate (List.mem_of_mem_filter hmem)
  · exact ⟨hunfiltered, hunfilteredMem⟩

theorem linking_lawful (hcovers : index.Covers valid) : index.linking.Lawful valid where
  search graph hgraph location _ := by
    obtain ⟨hnodup, hmem⟩ := searchForPoint_spec hcovers hgraph location
    exact ⟨hnodup, fun candidate hcandidate => (hmem candidate hcandidate).1⟩
  prune location _ hnodup := Space.pruneNeighbors_spec index.indexingAlpha hnodup location
    index.indexingRange index.indexingMaxC

omit [DecidableEq Label] in
theorem mem_visitOrder {node : Nat} : node ∈ index.visitOrder ↔ index.Accepted node := by
  rw [visitOrder, List.mem_append, List.mem_range, Accepted]

theorem ordered_linkNodes (hstart : index.Accepted index.start) {nodes : List Nat}
    (hnodes : ∀ node ∈ nodes, index.Accepted node) :
    index.linking.Ordered index.Accepted (index.linkNodes nodes) :=
  Linking.Ordered.linkNodes (linking_lawful (covers_accepted hstart))
    (fun _ => ⟨.nil, by simp, by simp, Nat.zero_le _⟩) hnodes

/-- The start and all neighbors are loaded or frozen points after every search, reverse edge and
selection, and at the end the lists are of the degree that is asked for. -/
structure Linked (index : StaticIndex Distance Factor Label) : Prop where
  start : index.Accepted index.start
  linking : ∀ before node after, index.visitOrder = before ++ node :: after → ∀ done rest,
    index.linking.searchAndPrune (index.linkNodes before) node = done ++ rest →
    index.linking.Ordered index.Accepted (index.linking.interInsert node done
      (Function.update (index.linkNodes before) node
        (index.linking.searchAndPrune (index.linkNodes before) node)))
  cleanUp : ∀ before after, index.visitOrder = before ++ after →
    index.linking.Ordered index.Accepted
      (index.cleanUpNodes before (index.linkNodes index.visitOrder))
  lists : ∀ node, index.Accepted node →
    Linking.Listed index.Accepted index.indexingRange node (index.link node)

omit [DecidableEq Label] in
theorem accepted_start_iff (index : StaticIndex Distance Factor Label) :
    index.Accepted index.start ↔ 0 < index.numFrozenPts ∨ ∃ point < index.nd, ∀ slot,
      index.nd ≤ slot → slot < index.maxPoints → index.fromCenter point ≤ index.fromCenter slot := by
  rw [start]
  split
  · next hfrozen => exact iff_of_true (.inr (by simpa [frozenPoints] using hfrozen)) (.inl hfrozen)
  · next hnone =>
      have hzero : index.numFrozenPts = 0 := Nat.eq_zero_of_not_pos hnone
      have hcapacity : index.capacity = index.maxPoints := by rw [capacity, hzero, Nat.add_zero]
      rw [Accepted, frozenPoints, hzero, calculateMedoid_lt_iff, hcapacity]
      simp

/-- A static index is linked among its own points exactly when there are frozen points or some
loaded point is as near to the center of all slots as every slot behind the loaded ones. -/
theorem linked_iff (index : StaticIndex Distance Factor Label) :
    index.Linked ↔ 0 < index.numFrozenPts ∨ ∃ point < index.nd, ∀ slot,
      index.nd ≤ slot → slot < index.maxPoints → index.fromCenter point ≤ index.fromCenter slot := by
  rw [← accepted_start_iff]
  refine ⟨Linked.start, fun hstart => ?_⟩
  have hlawful := linking_lawful (covers_accepted hstart)
  have hlinked := ordered_linkNodes hstart fun node => mem_visitOrder.mp
  obtain ⟨hordered, hshort⟩ := hlinked.cleanUps hlawful index.visitOrder
  constructor
  case start => exact hstart
  case linking =>
    intro before node after horder done rest hneighbors
    have haccepted : ∀ other ∈ before ++ node :: after, index.Accepted other := fun other hother =>
      mem_visitOrder.mp (horder ▸ hother)
    have hbefore := ordered_linkNodes hstart fun other hother =>
      haccepted other (List.mem_append_left _ hother)
    exact hbefore.partlyLinked hlawful (haccepted node (by simp)) hneighbors
  case cleanUp => exact fun before _ _ => (hlinked.cleanUps hlawful before).1
  case lists =>
    intro node hnode
    exact ⟨(hordered node).nodup, (hordered node).noLoop, (hordered node).valid,
      hshort node (mem_visitOrder.mpr hnode)⟩

/-- Points at `1` and `-1` on a line in an index for three points: the empty slot is at their
center. -/
def twoOfThree : StaticIndex Nat Nat Unit where
  floats :=
    { zeroDistance := 0
      maxDistance := 1000
      zero := 0
      one := 10
      max := 1000
      divide := fun dist djk => 10 * dist / djk
      slack := fun range => 13 * range / 10
      eps := fun curAlpha => curAlpha
      outweighs := fun _ _ _ => false }
  distMetric := .l2
  getDistance first second := [[0, 4, 1], [4, 0, 1], [1, 1, 0]].getD first [] |>.getD second 0
  pqDist := false
  filteredIndex := false
  locationToLabels _ := []
  labelledLocations := 0
  saturateGraph := false
  maxPoints := 3
  numFrozenPts := 0
  indexingRange := 2
  indexingQueueSize := 2
  indexingMaxC := 10
  filterIndexingQueueSize := 0
  indexingAlpha := ⟨⟨12, [10, 12]⟩, by decide⟩
  fromCenter slot := [1, 1, 0].getD slot 0
  queryDistance first second := [[0, 4, 1], [4, 0, 1], [1, 1, 0]].getD first [] |>.getD second 0
  useUniversalLabel := false
  universalLabel := ()
  labels := []
  draws _ := 0
  nd := 2
  nd_pos := by decide
  nd_le := by decide

/-- The empty slot is the entry point, and a neighbor of both points. -/
theorem not_linked_twoOfThree :
    ¬ twoOfThree.Linked ∧ twoOfThree.start = 2 ∧ 2 ∈ twoOfThree.link 0 ∧ 2 ∈ twoOfThree.link 1 := by
  refine ⟨fun hlinked => ?_, by decide +kernel, by decide +kernel, by decide +kernel⟩
  exact absurd hlinked.start (by decide +kernel)

theorem iterateToFixedPoint_finished_twoOfThree :
    BestFirst.Finished ((twoOfThree.bestFirst (fun _ => true) (fun _ => []) 0).run 2 3
      (unseenNodes [] ([2].filter fun _ => true))) :=
  iterateToFixedPoint_finished twoOfThree (by simp) (by decide) (fun _ => true) 0 2

end StaticIndex

end SkipCell.Vamana

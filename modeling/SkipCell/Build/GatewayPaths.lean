import SkipCell.Build.GatewayChoice

/-! # The shortlists find the Gateways of all arcs

Every worker sees some of the arcs, and together they see all. The counts add up, and the merged
shortlists have the best targets of all arcs, so both constructions append the same edges.
-/

namespace SkipCell.Build

open Foundation Sidecar

namespace GatewayView

variable (view : GatewayView)

/-- The Communities of the ends of an arc. -/
def pairOf (arc : Nat × Nat) : Nat × Nat :=
  (communityOf view.index.nodeToCommunity arc.1, communityOf view.index.nodeToCommunity arc.2)

def arcsBetween (pair : Nat × Nat) (arcs : List (Nat × Nat)) : List (Nat × Nat) :=
  arcs.filter fun arc => view.pairOf arc = pair

def communityCount : Nat := view.index.config.communityCount.toNat

/-- The ends of the arcs are in Communities. -/
def Known (arcs : List (Nat × Nat)) : Prop :=
  ∀ arc ∈ arcs, (view.pairOf arc).1 < view.communityCount ∧
    (view.pairOf arc).2 < view.communityCount

theorem mem_arcsBetween {pair arc : Nat × Nat} {arcs : List (Nat × Nat)} :
    arc ∈ view.arcsBetween pair arcs ↔ arc ∈ arcs ∧ view.pairOf arc = pair := by
  rw [arcsBetween, List.mem_filter, decide_eq_true_iff]

theorem arcsBetween_append (pair : Nat × Nat) (arcs more : List (Nat × Nat)) :
    view.arcsBetween pair (arcs ++ more) = view.arcsBetween pair arcs ++ view.arcsBetween pair more :=
  List.filter_append ..

theorem arcsBetween_flatten (pair : Nat × Nat) (parts : List (List (Nat × Nat))) :
    view.arcsBetween pair parts.flatten = (parts.map (view.arcsBetween pair)).flatten :=
  List.filter_flatten

theorem length_arcsBetween_le (pair : Nat × Nat) (arcs : List (Nat × Nat)) :
    (view.arcsBetween pair arcs).length ≤ arcs.length := List.length_filter_le _ _

end GatewayView

def communityPairs (count : Nat) : List (Nat × Nat) :=
  (List.range count).flatMap fun source => (List.range count).map fun target => (source, target)

theorem mem_communityPairs {count : Nat} {pair : Nat × Nat} :
    pair ∈ communityPairs count ↔ pair.1 < count ∧ pair.2 < count := by
  simp only [communityPairs, List.mem_flatMap, List.mem_map, List.mem_range]
  constructor
  · rintro ⟨source, hsource, target, htarget, rfl⟩
    exact ⟨hsource, htarget⟩
  · exact fun hpair => ⟨pair.1, hpair.1, pair.2, hpair.2, rfl⟩

def PairBefore (left right : Nat × Nat) : Prop :=
  left.1 < right.1 ∨ left.1 = right.1 ∧ left.2 < right.2

theorem communityPairs_sorted (count : Nat) : (communityPairs count).Pairwise PairBefore := by
  rw [communityPairs, List.pairwise_flatMap]
  refine ⟨fun source _ => ?_, List.pairwise_lt_range.imp fun hless => ?_⟩
  · rw [List.pairwise_map]
    exact List.pairwise_lt_range.imp fun hless => .inr ⟨rfl, hless⟩
  · rintro first hfirst second hsecond
    obtain ⟨_, -, rfl⟩ := List.mem_map.mp hfirst
    obtain ⟨_, -, rfl⟩ := List.mem_map.mp hsecond
    exact .inl hless

/-! ## What a worker counts -/

section Worker

variable {view : GatewayView}

theorem pairIndex_inj {count source target other : Nat} {another : Nat} (htarget : target < count)
    (hanother : another < count) (hsame : source * count + target = other * count + another) :
    source = other ∧ target = another := by
  have hmod := congrArg (· % count) hsame
  have hdiv := congrArg (· / count) hsame
  simp only [Nat.mul_comm _ count, Nat.mul_add_mod, Nat.mod_eq_of_lt htarget,
    Nat.mod_eq_of_lt hanother] at hmod
  have hpositive : 0 < count := by omega
  simp only [Nat.mul_comm _ count, Nat.mul_add_div hpositive, Nat.div_eq_of_lt htarget,
    Nat.div_eq_of_lt hanother, Nat.add_zero] at hdiv
  exact ⟨hdiv, hmod⟩

theorem pairIndex_lt {count source target : Nat} (hsource : source < count)
    (htarget : target < count) : source * count + target < count * count := by
  have hle : (source + 1) * count ≤ count * count := Nat.mul_le_mul_right count hsource
  rw [Nat.succ_mul] at hle
  omega

/-- The counters and shortlists of a worker that has visited the arcs. -/
structure Visited (view : GatewayView) (arcs : List (Nat × Nat)) (state : WorkerArcs) : Prop where
  internal : ∀ community < view.communityCount, state.internal[community]? =
    some (.ofNat (view.arcsBetween (community, community) arcs).length)
  pairs : ∀ source < view.communityCount, ∀ target < view.communityCount, source ≠ target →
    state.pairs[source * view.communityCount + target]? =
      some ⟨.ofNat (view.arcsBetween (source, target) arcs).length,
        (view.arcsBetween (source, target) arcs).foldl (considerGateway view) []⟩

theorem Visited.visit {arcs : List (Nat × Nat)} {state : WorkerArcs}
    (hvisited : Visited view arcs state) {arc : Nat × Nat} (hknown : view.Known [arc]) :
    Visited view (arcs ++ [arc]) (visitArc view state arc) := by
  have hbetween : ∀ pair, view.arcsBetween pair [arc] = if view.pairOf arc = pair then [arc] else [] := by
    intro pair
    simp [GatewayView.arcsBetween, List.filter_singleton]
  obtain ⟨hsource, htarget⟩ := hknown arc (List.mem_singleton_self arc)
  have hcount : ∀ pair, UInt64.ofNat (view.arcsBetween pair (arcs ++ [arc])).length =
      if view.pairOf arc = pair then .ofNat (view.arcsBetween pair arcs).length + 1
      else .ofNat (view.arcsBetween pair arcs).length := by
    intro pair
    rw [view.arcsBetween_append, hbetween]
    split
    · rw [List.length_append, List.length_singleton, UInt64.ofNat_add]
      rfl
    · rw [List.append_nil]
  by_cases hinside : (view.pairOf arc).1 = (view.pairOf arc).2
  · have hvisit : visitArc view state arc =
        { state with internal := state.internal.modify (view.pairOf arc).1 (· + 1) } := if_pos hinside
    rw [hvisit]
    constructor
    · intro community hcommunity
      rw [hcount]
      by_cases hsame : (view.pairOf arc).1 = community
      · rw [if_pos (Prod.ext hsame (hinside.symm.trans hsame)), hsame, List.getElem?_modify_eq,
          hvisited.internal community hcommunity]
        rfl
      · rw [if_neg fun heq => hsame (congrArg Prod.fst heq), List.getElem?_modify_ne _ _ hsame,
          hvisited.internal community hcommunity]
    · intro source hsource' target htarget' hne
      have hother : view.pairOf arc ≠ (source, target) := fun heq => by
        rw [heq] at hinside
        exact hne hinside
      rw [hvisited.pairs source hsource' target htarget' hne, view.arcsBetween_append, hbetween,
        if_neg hother, List.append_nil]
  · have hvisit : visitArc view state arc =
        { state with
          pairs := state.pairs.modify
            ((view.pairOf arc).1 * view.communityCount + (view.pairOf arc).2) fun pair =>
              { edgeCount := pair.edgeCount + 1
                shortlist := considerGateway view pair.shortlist arc } } := if_neg hinside
    rw [hvisit]
    constructor
    · intro community hcommunity
      have hother : view.pairOf arc ≠ (community, community) := fun heq => by
        rw [heq] at hinside
        exact hinside rfl
      rw [hcount, if_neg hother]
      exact hvisited.internal community hcommunity
    · intro source hsource' target htarget' hne
      rw [hcount, view.arcsBetween_append, hbetween]
      by_cases hsame : view.pairOf arc = (source, target)
      · rw [if_pos hsame, if_pos hsame, hsame, List.getElem?_modify_eq,
          hvisited.pairs source hsource' target htarget' hne, List.foldl_append]
        rfl
      · have hplace : (view.pairOf arc).1 * view.communityCount + (view.pairOf arc).2 ≠
            source * view.communityCount + target := fun heq => by
          obtain ⟨hfirst, hsecond⟩ := pairIndex_inj htarget htarget' heq
          exact hsame (Prod.ext hfirst hsecond)
        rw [if_neg hsame, if_neg hsame, List.getElem?_modify_ne _ _ hplace, List.append_nil]
        exact hvisited.pairs source hsource' target htarget' hne

theorem visited_arcs {arcs : List (Nat × Nat)} (hknown : view.Known arcs) :
    Visited view arcs (arcs.foldl (visitArc view)
      { internal := List.replicate view.communityCount 0
        pairs := List.replicate (view.communityCount * view.communityCount) {} }) := by
  induction arcs using List.reverseRecOn with
  | nil =>
    refine ⟨fun community hcommunity => ?_, fun source hsource target htarget hne => ?_⟩
    · exact List.getElem?_replicate_of_lt hcommunity
    · exact List.getElem?_replicate_of_lt (pairIndex_lt hsource htarget)
  | append_singleton arcs arc ih =>
    rw [List.foldl_append]
    refine (ih fun other hother => hknown other (List.mem_append_left _ hother)).visit ?_
    exact fun other hother => hknown other (List.mem_append_right _ hother)

end Worker

/-! ## The workers together -/

theorem workerNodes_perm {threadCount : Nat} (hthreads : 1 ≤ threadCount) (pointCount : Nat) :
    ((List.range threadCount).flatMap (workerNodes threadCount pointCount)).Perm
      (List.range pointCount) := by
  have hmem : ∀ worker < threadCount, ∀ node, node ∈ workerNodes threadCount pointCount worker ↔
      node < pointCount ∧ node % threadCount = worker := by
    intro worker hworker node
    rw [workerNodes, List.mem_range']
    constructor
    · rintro ⟨round, hround, rfl⟩
      have hbelow := Nat.mul_le_of_le_div _ _ _ (Nat.succ_le_of_lt hround)
      rw [Nat.succ_mul, Nat.mul_comm] at hbelow
      exact ⟨by omega, by rw [Nat.add_mul_mod_self_left, Nat.mod_eq_of_lt hworker]⟩
    · rintro ⟨hnode, rfl⟩
      refine ⟨node / threadCount, ?_, (Nat.mod_add_div node threadCount).symm⟩
      have hsplit := Nat.mod_add_div node threadCount
      refine (Nat.le_div_iff_mul_le hthreads).mpr ?_
      rw [Nat.succ_mul, Nat.mul_comm]
      omega
  refine (List.perm_ext_iff_of_nodup ?_ List.nodup_range).mpr fun node => ?_
  · rw [List.nodup_flatMap]
    refine ⟨fun worker _ => List.nodup_range' threadCount hthreads, ?_⟩
    refine List.nodup_range.imp_of_mem fun {first second} hfirst hsecond hne node hleft hright => ?_
    have hin := (hmem first (List.mem_range.mp hfirst) node).mp hleft
    have hout := (hmem second (List.mem_range.mp hsecond) node).mp hright
    exact hne (hin.2.symm.trans hout.2)
  · rw [List.mem_flatMap, List.mem_range]
    constructor
    · rintro ⟨worker, hworker, hnode⟩
      exact ((hmem worker (List.mem_range.mp hworker) node).mp hnode).1
    · intro hnode
      have hworker : node % threadCount < threadCount := Nat.mod_lt _ hthreads
      exact ⟨node % threadCount, List.mem_range.mpr hworker, (hmem _ hworker node).mpr ⟨hnode, rfl⟩⟩

def workerParts (graph : ArcGraph) (threadCount : Nat) : List (List (Nat × Nat)) :=
  (List.range threadCount).map fun worker =>
    arcsOf graph (workerNodes threadCount graph.pointCount worker)

def allArcs (graph : ArcGraph) : List (Nat × Nat) := arcsOf graph (List.range graph.pointCount)

theorem workerParts_perm (graph : ArcGraph) {threadCount : Nat} (hthreads : 1 ≤ threadCount) :
    (workerParts graph threadCount).flatten.Perm (allArcs graph) := by
  have hflatten : (workerParts graph threadCount).flatten =
      arcsOf graph ((List.range threadCount).flatMap
        (workerNodes threadCount graph.pointCount)) := by
    rw [workerParts, arcsOf, List.flatMap_assoc]
    rfl
  rw [hflatten]
  exact (workerNodes_perm hthreads graph.pointCount).flatMap_right _

theorem length_allArcs (graph : ArcGraph) : (allArcs graph).length < 2 ^ 64 := by
  have hlists : (List.range graph.pointCount).map (fun source => (graph.adjacency source).length) =
      graph.neighbors.map List.length := by
    apply List.ext_getElem
    · rw [List.length_map, List.length_range, List.length_map, PostLinkGraph.pointCount]
    · intro node hnode hlist
      rw [List.length_map] at hlist
      rw [List.getElem_map, List.getElem_range, List.getElem_map, PostLinkGraph.adjacency,
        List.length_map, List.getD_eq_getElem?_getD, List.getElem?_eq_getElem hlist,
        Option.getD_some]
  have hlength : (allArcs graph).length = graph.neighbors.flatten.length := by
    rw [allArcs, arcsOf, List.length_flatMap, List.length_flatten, ← hlists]
    simp only [List.length_map]
  rw [hlength]
  exact graph.addressable

section Merge

variable {view : GatewayView}

theorem addCount_ofNat {left right : Nat} (hsum : left + right < 2 ^ 64) (context : String) :
    addCount (.ofNat left) (.ofNat right) context = .ok (.ofNat (left + right)) := by
  have hleft : (UInt64.ofNat left).toNat = left := by
    rw [UInt64.toNat_ofNat']
    omega
  have hright : (UInt64.ofNat right).toNat = right := by
    rw [UInt64.toNat_ofNat']
    omega
  rw [addCount, hleft, hright, checkedAdd, if_neg (by omega)]
  rfl

/-- What a worker has for each pair. -/
def visitedArcs (view : GatewayView) (arcs : List (Nat × Nat)) : WorkerArcs :=
  arcs.foldl (visitArc view)
    { internal := List.replicate view.communityCount 0
      pairs := List.replicate (view.communityCount * view.communityCount) {} }

theorem mergeWorkers_parts {source target : Nat} (hsource : source < view.communityCount)
    (htarget : target < view.communityCount) (hne : source ≠ target)
    {parts : List (List (Nat × Nat))} (hknown : ∀ part ∈ parts, view.Known part)
    (position count : Nat) (shortlist : List (Nat × Nat))
    (hcount : count + (view.arcsBetween (source, target) parts.flatten).length < 2 ^ 64) :
    scan (fun _ (worker : WorkerArcs) (count, shortlist) => do
        let total ← addCount count
          (worker.pairs.getD (source * view.communityCount + target) {}).edgeCount
          "directed cross-Community edges"
        Except.ok (total,
          (worker.pairs.getD (source * view.communityCount + target) {}).shortlist.foldl
            (considerGateway view) shortlist)) position (parts.map (visitedArcs view))
        (UInt64.ofNat count, shortlist) =
      .ok (.ofNat (count + (view.arcsBetween (source, target) parts.flatten).length),
        (parts.flatMap fun part => (view.arcsBetween (source, target) part).foldl
          (considerGateway view) []).foldl (considerGateway view) shortlist) := by
  induction parts generalizing position count shortlist with
  | nil => rfl
  | cons part parts ih =>
    obtain ⟨hpart, hparts⟩ := List.forall_mem_cons.mp hknown
    have hpairs : (visitedArcs view part).pairs.getD (source * view.communityCount + target) {} =
        ⟨.ofNat (view.arcsBetween (source, target) part).length,
          (view.arcsBetween (source, target) part).foldl (considerGateway view) []⟩ := by
      rw [List.getD_eq_getElem?_getD, visitedArcs,
        (visited_arcs hpart).pairs source hsource target htarget hne, Option.getD_some]
    rw [List.flatten_cons, view.arcsBetween_append, List.length_append, ← Nat.add_assoc] at hcount ⊢
    rw [List.map_cons, scan]
    dsimp only
    rw [hpairs, addCount_ofNat (by omega), List.flatMap_cons, List.foldl_append]
    exact ih hparts (position + 1) _ _ hcount

/-- The merged shortlist is the front of the ranking of all arcs of the pair. -/
theorem mergeWorkers_eq {arcs : List (Nat × Nat)} (hknown : view.Known arcs)
    (hbounded : arcs.length < 2 ^ 64) {parts : List (List (Nat × Nat))}
    (hparts : parts.flatten.Perm arcs) {source target : Nat} (hsource : source < view.communityCount)
    (htarget : target < view.communityCount) (hne : source ≠ target) :
    mergeWorkers view (parts.map (visitedArcs view)) (source * view.communityCount + target) =
      .ok (.ofNat (view.arcsBetween (source, target) arcs).length,
        (rankEntries (BetterTarget view.importance) (view.arcsBetween (source, target) arcs)).take
          view.index.config.gatewayShortlist.toNat) := by
  have hbetween : (view.arcsBetween (source, target) parts.flatten).Perm
      (view.arcsBetween (source, target) arcs) := hparts.filter _
  have hpart : ∀ part ∈ parts, view.Known part := fun part hpart arc harc =>
    hknown arc (hparts.mem_iff.mp (List.mem_flatten.mpr ⟨part, hpart, harc⟩))
  have hle := view.length_arcsBetween_le (source, target) arcs
  have hmerge := mergeWorkers_parts hsource htarget hne hpart 0 0 []
    (by rw [hbetween.length_eq]; omega)
  have hlists : ∀ seen : List (Nat × Nat), seen.foldl (considerGateway view) [] =
      (rankEntries (BetterTarget view.importance) seen).take
        view.index.config.gatewayShortlist.toNat := foldl_considerEntry _
  have hmapped : (parts.flatMap fun part => (view.arcsBetween (source, target) part).foldl
      (considerGateway view) []) = (parts.map (view.arcsBetween (source, target))).flatMap
        fun part => (rankEntries (BetterTarget view.importance) part).take
          view.index.config.gatewayShortlist.toNat := by
    rw [List.flatMap_map]
    exact List.flatMap_congr fun part _ => hlists _
  rw [hlists, hmapped, rankEntries_shortlists, ← view.arcsBetween_flatten, Nat.zero_add,
    hbetween.length_eq, rankEntries_congr fun entry => hbetween.mem_iff] at hmerge
  exact hmerge

end Merge

section Edges

variable {view : GatewayView}

def blockArcs (view : GatewayView) (arcs : List (Nat × Nat)) (pair : Nat × Nat) : List CrossArc :=
  ((view.arcsBetween pair arcs).map fun arc =>
    (⟨pair.1, pair.2, arc.1, arc.2⟩ : CrossArc)).insertionSort ArcBefore

theorem arcs_sorted (arcs : List CrossArc) : (arcs.insertionSort ArcBefore).Pairwise ArcBefore := by
  have htotal : Std.Total ArcBefore := ⟨fun left right => by
    rw [ArcBefore, ArcBefore]
    omega⟩
  have htrans : IsTrans CrossArc ArcBefore := ⟨fun first second third => by
    rw [ArcBefore, ArcBefore, ArcBefore]
    omega⟩
  exact List.pairwise_insertionSort ArcBefore arcs

theorem targets_sorted (arcs : List CrossArc) : (arcs.insertionSort ArcBefore).Pairwise
    fun left right => left.targetNode ≤ right.targetNode :=
  (arcs_sorted arcs).imp fun hbefore => by
    rw [ArcBefore] at hbefore
    omega

theorem selectGateways_sorted (targetCommunity source : Nat) (entries : List (Nat × Nat)) :
    selectGateways view ((entries.map fun entry =>
        (⟨source, targetCommunity, entry.1, entry.2⟩ : CrossArc)).insertionSort ArcBefore)
        targetCommunity [] =
      chooseGateways view.index.config ((rankEntries (BetterTarget view.importance) entries).map
        (view.candidate targetCommunity)) [] := by
  have hends : ∀ entry, entry ∈ ((entries.map fun entry =>
      (⟨source, targetCommunity, entry.1, entry.2⟩ : CrossArc)).insertionSort ArcBefore).map
        CrossArc.ends ↔ entry ∈ entries := by
    intro entry
    rw [((List.perm_insertionSort ArcBefore _).map CrossArc.ends).mem_iff, List.map_map]
    exact (congrArg (entry ∈ ·) (List.map_id' entries)).to_iff
  rw [selectGateways, sort_candidates view targetCommunity (targets_sorted _),
    rankEntries_congr hends]

theorem rankEntries_take (importance : Importance) (seen : List (Nat × Nat)) (limit : Nat) :
    rankEntries (BetterTarget importance)
        ((rankEntries (BetterTarget importance) seen).take limit) =
      (rankEntries (BetterTarget importance) seen).take limit := by
  have hsorted := (rankEntries_ranks (BetterTarget importance) seen).sorted.sublist
    (List.take_sublist limit _)
  refine (rankEntries_ranks (BetterTarget importance) _).unique ⟨hsorted, fun entry => ?_⟩
  refine ⟨fun hentry => ⟨hentry, fun source hsource => ?_⟩, fun hleast => hleast.1⟩
  rw [eq_of_target hsorted hentry hsource rfl]

/-- The shortlist of a pair gives the edge of all its arcs. -/
theorem appendEdge_shortlist
    (hlimit : view.index.config.gatewayCount ≤ view.index.config.gatewayShortlist)
    (arcs : List (Nat × Nat)) (pair : Nat × Nat) (count : UInt64) (edges : SuperEdges) :
    appendEdge view pair.1 pair.2 count
        ((((rankEntries (BetterTarget view.importance) (view.arcsBetween pair arcs)).take
          view.index.config.gatewayShortlist.toNat).map fun entry =>
            (⟨pair.1, pair.2, entry.1, entry.2⟩ : CrossArc)).insertionSort ArcBefore) [] edges =
      appendEdge view pair.1 pair.2 count (blockArcs view arcs pair) [] edges := by
  rw [appendEdge, appendEdge, blockArcs, selectGateways_sorted, selectGateways_sorted,
    rankEntries_take, List.map_take, chooseGateways_take hlimit]

end Edges

/-! ## The counts -/

section Counts

variable {view : GatewayView} {arcs : List (Nat × Nat)}

/-- The arcs between two Communities, of those pairs, that have this Community on one side. -/
def crossCount (view : GatewayView) (arcs pairs : List (Nat × Nat)) (side : Nat × Nat → Nat)
    (community : Nat) : Nat :=
  arcs.countP fun arc => side (view.pairOf arc) = community ∧
    (view.pairOf arc).1 ≠ (view.pairOf arc).2 ∧ view.pairOf arc ∈ pairs

theorem crossCount_nil (view : GatewayView) (arcs : List (Nat × Nat)) (side : Nat × Nat → Nat)
    (community : Nat) : crossCount view arcs [] side community = 0 := by
  rw [crossCount, List.countP_eq_zero]
  simp

theorem crossCount_le (view : GatewayView) (arcs pairs : List (Nat × Nat))
    (side : Nat × Nat → Nat) (community : Nat) :
    crossCount view arcs pairs side community ≤ arcs.length := List.countP_le_length

variable {pairs : List (Nat × Nat)} {pair : Nat × Nat} {before after : Nat → Community → Community}
    {communities : List Community}

theorem crossCount_append (hnew : pair ∉ pairs) (side : Nat × Nat → Nat) (community : Nat) :
    crossCount view arcs (pairs ++ [pair]) side community =
      crossCount view arcs pairs side community +
        if side pair = community ∧ pair.1 ≠ pair.2 then (view.arcsBetween pair arcs).length
        else 0 := by
  induction arcs with
  | nil => simp [crossCount, GatewayView.arcsBetween]
  | cons arc arcs ih =>
    simp only [crossCount, GatewayView.arcsBetween, List.countP_cons, List.filter_cons,
      List.mem_append, List.mem_singleton] at ih ⊢
    rw [ih]
    by_cases hpair : view.pairOf arc = pair
    · rw [hpair]
      by_cases hcounted : side pair = community ∧ pair.1 ≠ pair.2
      · simp [hcounted.1, hcounted.2, hnew]
        omega
      · simp only [hnew, and_false, decide_false, Bool.false_eq_true, if_false, or_true, and_true,
          hcounted, decide_true, if_true]
    · simp only [hpair, or_false, decide_false, Bool.false_eq_true, if_false]
      omega

/-- A record with the counts of the arcs inside the Community and between those pairs. -/
def countedRecord (view : GatewayView) (arcs pairs : List (Nat × Nat)) (community : Nat)
    (record : Community) : Community :=
  { record with
    internalDirectedEdgeCount := .ofNat (view.arcsBetween (community, community) arcs).length
    outgoingDirectedEdgeCount := .ofNat (crossCount view arcs pairs Prod.fst community)
    incomingDirectedEdgeCount := .ofNat (crossCount view arcs pairs Prod.snd community) }

theorem mapIdx_congr (hsame : ∀ place record, communities[place]? = some record →
      before place record = after place record) :
    communities.mapIdx before = communities.mapIdx after := by
  apply List.ext_getElem?
  intro place
  rw [List.getElem?_mapIdx, List.getElem?_mapIdx]
  cases hrecord : communities[place]? with
  | none => rfl
  | some record => rw [Option.map_some, Option.map_some, hsame place record hrecord]

theorem set_mapIdx {place : Nat} {record : Community} (hrecord : communities[place]? = some record)
    (hsame : ∀ other ≠ place, before other = after other) :
    (communities.mapIdx before).set place (after place record) = communities.mapIdx after := by
  apply List.ext_getElem?
  intro other
  have hless := (List.getElem_of_getElem? hrecord).1
  by_cases hother : other = place
  · subst hother
    rw [List.getElem?_set_self (by rwa [List.length_mapIdx]), List.getElem?_mapIdx, hrecord,
      Option.map_some]
  · rw [List.getElem?_set_ne (Ne.symm hother), List.getElem?_mapIdx, List.getElem?_mapIdx,
      hsame other hother]

/-- Nothing has been counted yet. -/
def Uncounted (communities : List Community) : Prop :=
  ∀ record ∈ communities, record.internalDirectedEdgeCount = 0 ∧
    record.outgoingDirectedEdgeCount = 0 ∧ record.incomingDirectedEdgeCount = 0

theorem addInternal_eq {parts : List (List (Nat × Nat))} (hknown : ∀ part ∈ parts, view.Known part)
    (hbounded : parts.flatten.length < 2 ^ 64) {tables : GatewayTables} {community : Nat}
    {record : Community} (hcommunity : community < view.communityCount)
    (hrecord : tables.communities[community]? = some record)
    (hzero : record.internalDirectedEdgeCount = 0) :
    addInternal (parts.map (visitedArcs view)) community tables =
      .ok { tables with
        communities := tables.communities.set community
          { record with
            internalDirectedEdgeCount :=
              .ofNat (view.arcsBetween (community, community) parts.flatten).length } } := by
  have hscan : ∀ (parts : List (List (Nat × Nat))) (position count : Nat),
      (∀ part ∈ parts, view.Known part) → count + parts.flatten.length < 2 ^ 64 →
      scan (fun _ (worker : WorkerArcs) count => addCount count (worker.internal.getD community 0)
        "internal directed Community edges") position (parts.map (visitedArcs view))
        (UInt64.ofNat count) = .ok (.ofNat
          (count + (view.arcsBetween (community, community) parts.flatten).length)) := by
    intro parts
    induction parts with
    | nil => exact fun _ _ _ _ => rfl
    | cons part parts ih =>
      intro position count hknown hcount
      obtain ⟨hpart, hparts⟩ := List.forall_mem_cons.mp hknown
      have hinternal : (visitedArcs view part).internal.getD community 0 =
          .ofNat (view.arcsBetween (community, community) part).length := by
        rw [List.getD_eq_getElem?_getD, visitedArcs,
          (visited_arcs hpart).internal community hcommunity, Option.getD_some]
      have hle := view.length_arcsBetween_le (community, community) part
      rw [List.flatten_cons, List.length_append] at hcount
      rw [List.map_cons, scan, hinternal, addCount_ofNat (by omega), List.flatten_cons,
        view.arcsBetween_append, List.length_append, ← Nat.add_assoc]
      exact ih _ _ hparts (by omega)
  have htotal := hscan parts 0 0 hknown (by omega)
  rw [Nat.zero_add] at htotal
  rw [addInternal]
  exact bind_ok.mpr ⟨record, element_eq_ok.mpr hrecord, bind_ok.mpr
    ⟨_, by rw [hzero]; exact htotal, rfl⟩⟩

theorem addInternals_eq {parts : List (List (Nat × Nat))}
    (hknown : ∀ part ∈ parts, view.Known part) (hparts : parts.flatten.Perm arcs)
    (hbounded : arcs.length < 2 ^ 64) {tables : GatewayTables}
    (hcount : tables.communities.length = view.communityCount)
    (huncounted : Uncounted tables.communities) :
    scan (fun _ => addInternal (parts.map (visitedArcs view))) 0
        (List.range view.communityCount) tables =
      .ok { tables with communities := tables.communities.mapIdx (countedRecord view arcs []) } := by
  have hbetween : ∀ pair, (view.arcsBetween pair parts.flatten).length =
      (view.arcsBetween pair arcs).length := fun pair => (hparts.filter _).length_eq
  have hcounted : ∀ (community : Nat), ∀ record ∈ tables.communities,
      countedRecord view arcs [] community record =
        { record with
          internalDirectedEdgeCount :=
            .ofNat (view.arcsBetween (community, community) arcs).length } := by
    intro community record hrecord
    obtain ⟨-, houtgoing, hincoming⟩ := huncounted record hrecord
    rw [countedRecord, crossCount_nil, crossCount_nil]
    cases record
    subst houtgoing hincoming
    rfl
  have hstart : tables = { tables with
      communities := tables.communities.mapIdx fun community record =>
        if community < 0 then countedRecord view arcs [] community record else record } := by
    have hsame : tables.communities.mapIdx (fun community record =>
        if community < 0 then countedRecord view arcs [] community record else record) =
          tables.communities := by
      apply List.ext_getElem?
      intro place
      rw [List.getElem?_mapIdx]
      exact Option.map_id'
    rw [hsame]
  obtain ⟨last, hscan, hlast⟩ := @scan_total _ _ _
    (fun _ => addInternal (parts.map (visitedArcs view)))
    (fun done state => state = { tables with
      communities := tables.communities.mapIdx fun community record =>
        if community < done then countedRecord view arcs [] community record else record })
    (List.range view.communityCount) 0 tables hstart fun done community state hdone hstate => by
      have hless := (List.getElem_of_getElem? hdone).1
      rw [List.length_range] at hless
      rw [List.getElem?_range hless] at hdone
      obtain rfl := Option.some.inj hdone
      rw [Nat.zero_add] at hstate ⊢
      have hinside : done < tables.communities.length := by rwa [hcount]
      have hold := List.getElem?_eq_getElem hinside
      have hrecord : state.communities[done]? = some tables.communities[done] := by
        rw [hstate, List.getElem?_mapIdx, hold, Option.map_some, if_neg (Nat.lt_irrefl done)]
      have hzero := huncounted _ (List.getElem_mem hinside)
      refine ⟨_, addInternal_eq hknown (by rwa [hparts.length_eq]) hless hrecord hzero.1, ?_⟩
      have hset := @set_mapIdx
        (fun community record =>
          if community < done then countedRecord view arcs [] community record else record)
        (fun community record =>
          if community < done + 1 then countedRecord view arcs [] community record else record)
        tables.communities done tables.communities[done] hold fun other hother => by
          funext record
          simp only [show other < done + 1 ↔ other < done by omega]
      rw [if_pos (Nat.lt_succ_self done), hcounted done _ (List.getElem_mem hinside)] at hset
      rw [hstate, hbetween]
      exact congrArg (fun communities => GatewayTables.mk communities tables.edges) hset
  rw [List.length_range, Nat.zero_add] at hlast
  rw [hscan, hlast]
  refine congrArg (fun communities => Except.ok (GatewayTables.mk communities tables.edges)) ?_
  refine mapIdx_congr fun community record hrecord => if_pos ?_
  rw [← hcount]
  exact (List.getElem_of_getElem? hrecord).1

def edgeOfPair (view : GatewayView) (arcs : List (Nat × Nat)) (pair : Nat × Nat)
    (edges : SuperEdges) : Except Error SuperEdges :=
  if pair.1 = pair.2 ∨ view.arcsBetween pair arcs = [] then .ok edges
  else appendEdge view pair.1 pair.2 (.ofNat (view.arcsBetween pair arcs).length)
    (blockArcs view arcs pair) [] edges

def countedTables (view : GatewayView) (arcs : List (Nat × Nat)) (communities : List Community)
    (pairs : List (Nat × Nat)) (edges : SuperEdges) : GatewayTables :=
  { communities := communities.mapIdx (countedRecord view arcs pairs), edges }

theorem countedRecord_append (hnew : pair ∉ pairs)
    (hskipped : pair.1 = pair.2 ∨ view.arcsBetween pair arcs = []) :
    countedRecord view arcs (pairs ++ [pair]) = countedRecord view arcs pairs := by
  funext community record
  have hsame : ∀ side, crossCount view arcs (pairs ++ [pair]) side community =
      crossCount view arcs pairs side community := by
    intro side
    rw [crossCount_append hnew]
    split
    · next hcounted =>
        rcases hskipped with hloop | hnone
        · exact absurd hloop hcounted.2
        · rw [hnone, List.length_nil, Nat.add_zero]
    · exact Nat.add_zero _
  rw [countedRecord, countedRecord, hsame, hsame]

theorem addCounts_eq (hnew : pair ∉ pairs) (hne : pair.1 ≠ pair.2) (hbounded : arcs.length < 2 ^ 64)
    (hsource : pair.1 < communities.length) (htarget : pair.2 < communities.length) :
    (addOutgoing pair.1 (.ofNat (view.arcsBetween pair arcs).length)
        (communities.mapIdx (countedRecord view arcs pairs)) >>=
      addIncoming pair.2 (.ofNat (view.arcsBetween pair arcs).length)) =
      .ok (communities.mapIdx (countedRecord view arcs (pairs ++ [pair]))) := by
  have hle : ∀ side community, crossCount view arcs (pairs ++ [pair]) side community < 2 ^ 64 :=
    fun side community => (crossCount_le view arcs _ side community).trans_lt hbounded
  -- The records with the new count on the side of the source.
  set outgoing : Nat → Community → Community := fun community record =>
    { countedRecord view arcs pairs community record with
      outgoingDirectedEdgeCount :=
        .ofNat (crossCount view arcs (pairs ++ [pair]) Prod.fst community) } with houtgoing
  have hfirst : addOutgoing pair.1 (.ofNat (view.arcsBetween pair arcs).length)
      (communities.mapIdx (countedRecord view arcs pairs)) = .ok (communities.mapIdx outgoing) := by
    have hrecord := List.getElem?_eq_getElem hsource
    have htotal := @crossCount_append view arcs _ _ hnew Prod.fst pair.1
    rw [if_pos ⟨rfl, hne⟩] at htotal
    have hadded : addCount (.ofNat (crossCount view arcs pairs Prod.fst pair.1))
        (.ofNat (view.arcsBetween pair arcs).length) "outgoing directed Community edges" =
          .ok (.ofNat (crossCount view arcs (pairs ++ [pair]) Prod.fst pair.1)) := by
      rw [htotal]
      exact addCount_ofNat (by rw [← htotal]; exact hle Prod.fst pair.1) _
    have hset := @set_mapIdx (countedRecord view arcs pairs) outgoing communities pair.1 _ hrecord
      fun other hother => by
        funext record
        rw [houtgoing]
        dsimp only
        rw [crossCount_append hnew, if_neg fun hboth => hother hboth.1.symm, Nat.add_zero]
        rfl
    refine bind_ok.mpr ⟨countedRecord view arcs pairs pair.1 communities[pair.1], ?_,
      bind_ok.mpr ⟨_, hadded, congrArg Except.ok hset⟩⟩
    rw [element_eq_ok, List.getElem?_mapIdx, hrecord, Option.map_some]
  refine bind_ok.mpr ⟨_, hfirst, ?_⟩
  have hrecord := List.getElem?_eq_getElem htarget
  have htotal := @crossCount_append view arcs _ _ hnew Prod.snd pair.2
  rw [if_pos ⟨rfl, hne⟩] at htotal
  have hadded : addCount (.ofNat (crossCount view arcs pairs Prod.snd pair.2))
      (.ofNat (view.arcsBetween pair arcs).length) "incoming directed Community edges" =
        .ok (.ofNat (crossCount view arcs (pairs ++ [pair]) Prod.snd pair.2)) := by
    rw [htotal]
    exact addCount_ofNat (by rw [← htotal]; exact hle Prod.snd pair.2) _
  have hset := @set_mapIdx outgoing (countedRecord view arcs (pairs ++ [pair])) communities pair.2 _
    hrecord fun other hother => by
      funext record
      have hsame : crossCount view arcs (pairs ++ [pair]) Prod.snd other =
          crossCount view arcs pairs Prod.snd other := by
        rw [crossCount_append hnew, if_neg fun hboth => hother hboth.1.symm, Nat.add_zero]
      rw [countedRecord, hsame]
      rfl
  refine bind_ok.mpr ⟨outgoing pair.2 communities[pair.2], ?_,
    bind_ok.mpr ⟨_, hadded, congrArg Except.ok hset⟩⟩
  rw [element_eq_ok, List.getElem?_mapIdx, hrecord, Option.map_some]

section

variable (hlimit : view.index.config.gatewayCount ≤ view.index.config.gatewayShortlist)
  (hknown : view.Known arcs) (hbounded : arcs.length < 2 ^ 64) {parts : List (List (Nat × Nat))}
  (hparts : parts.flatten.Perm arcs) {communities : List Community}
  (hcount : communities.length = view.communityCount)
include hlimit hknown hbounded hparts hcount

theorem mergePair_eq {pairs : List (Nat × Nat)} {pair : Nat × Nat} (hnew : pair ∉ pairs)
    (hsource : pair.1 < view.communityCount) (htarget : pair.2 < view.communityCount)
    (edges : SuperEdges) :
    mergePair view (parts.map (visitedArcs view)) pair.1 pair.2
        (countedTables view arcs communities pairs edges) =
      (edgeOfPair view arcs pair edges).map
        (countedTables view arcs communities (pairs ++ [pair])) := by
  rw [mergePair, edgeOfPair]
  by_cases hloop : pair.1 = pair.2
  · rw [if_pos hloop, if_pos (.inl hloop), Except.map, countedTables, countedTables,
      countedRecord_append hnew (.inl hloop)]
  · rw [if_neg hloop]
    have hmerged := mergeWorkers_eq hknown hbounded hparts hsource htarget hloop
    have hlength := view.length_arcsBetween_le pair arcs
    have hzero : UInt64.ofNat (view.arcsBetween pair arcs).length = 0 ↔
        view.arcsBetween pair arcs = [] := by
      rw [← UInt64.toNat_inj, UInt64.toNat_ofNat', Nat.mod_eq_of_lt (by omega)]
      exact List.length_eq_zero_iff
    change (mergeWorkers view (parts.map (visitedArcs view))
      (pair.1 * view.communityCount + pair.2) >>= _) = _
    rw [hmerged]
    change (if UInt64.ofNat (view.arcsBetween pair arcs).length = 0 then _ else _) = _
    by_cases hnone : view.arcsBetween pair arcs = []
    · rw [if_pos (hzero.mpr hnone), if_pos (.inr hnone), Except.map, countedTables, countedTables,
        countedRecord_append hnew (.inr hnone)]
    · rw [if_neg fun heq => hnone (hzero.mp heq), if_neg (by tauto)]
      have hcounts := @addCounts_eq view arcs _ _ _ hnew hloop hbounded (hcount ▸ hsource)
        (hcount ▸ htarget)
      obtain ⟨outgoing, houtgoing, hincoming⟩ := bind_ok.mp hcounts
      dsimp only [countedTables]
      rw [houtgoing]
      change (addIncoming _ _ outgoing >>= _) = _
      rw [hincoming]
      change (appendEdge view pair.1 pair.2 _ _ [] edges >>= _) = _
      rw [appendEdge_shortlist hlimit]
      cases appendEdge view pair.1 pair.2 (.ofNat (view.arcsBetween pair arcs).length)
        (blockArcs view arcs pair) [] edges <;> rfl

theorem mergePairs_eq {pairs more : List (Nat × Nat)} (hnodup : (pairs ++ more).Nodup)
    (hinside : ∀ pair ∈ more, pair.1 < view.communityCount ∧ pair.2 < view.communityCount)
    (position : Nat) (edges : SuperEdges) :
    scan (fun _ pair => mergePair view (parts.map (visitedArcs view)) pair.1 pair.2) position more
        (countedTables view arcs communities pairs edges) =
      (scan (fun _ => edgeOfPair view arcs) position more edges).map
        (countedTables view arcs communities (pairs ++ more)) := by
  induction more generalizing pairs position edges with
  | nil => rw [List.append_nil]; rfl
  | cons pair more ih =>
    obtain ⟨hpair, hmore⟩ := List.forall_mem_cons.mp hinside
    have hnew : pair ∉ pairs := fun hold =>
      (List.nodup_append.mp hnodup).2.2 pair hold pair List.mem_cons_self rfl
    rw [List.append_cons] at hnodup ⊢
    rw [scan, scan, mergePair_eq hlimit hknown hbounded hparts hcount hnew hpair.1 hpair.2]
    cases edgeOfPair view arcs pair edges with
    | error error => rfl
    | ok next => exact ih hnodup hmore (position + 1) next

end

end Counts

/-! ## All arcs -/

section Complete

variable {view : GatewayView} {arcs : List (Nat × Nat)}

def crossArc (view : GatewayView) (arc : Nat × Nat) : CrossArc :=
  ⟨(view.pairOf arc).1, (view.pairOf arc).2, arc.1, arc.2⟩

/-- The arcs between two Communities. -/
def crossArcs (view : GatewayView) (arcs : List (Nat × Nat)) : List CrossArc :=
  (arcs.filter fun arc => (view.pairOf arc).1 ≠ (view.pairOf arc).2).map (crossArc view)

theorem crossCount_snoc (pairs : List (Nat × Nat)) (side : Nat × Nat → Nat) (community : Nat)
    (arc : Nat × Nat) : crossCount view (arcs ++ [arc]) pairs side community =
      crossCount view arcs pairs side community +
        if side (view.pairOf arc) = community ∧ (view.pairOf arc).1 ≠ (view.pairOf arc).2 ∧
          view.pairOf arc ∈ pairs then 1 else 0 := by
  rw [crossCount, List.countP_append, List.countP_singleton]
  simp only [decide_eq_true_eq]
  rfl

theorem modify_mapIdx (update : Community → Community) (record : Nat → Community → Community)
    (communities : List Community) (place : Nat) :
    (communities.mapIdx record).modify place update =
      communities.mapIdx fun other value =>
        if place = other then update (record other value) else record other value := by
  apply List.ext_getElem?
  intro other
  rw [List.getElem?_modify, List.getElem?_mapIdx, List.getElem?_mapIdx]
  cases communities[other]? <;> rfl

theorem length_arcsBetween_snoc (pair arc : Nat × Nat) :
    (view.arcsBetween pair (arcs ++ [arc])).length =
      (view.arcsBetween pair arcs).length + if view.pairOf arc = pair then 1 else 0 := by
  rw [view.arcsBetween_append, List.length_append, GatewayView.arcsBetween.eq_def view pair [arc],
    List.filter_singleton]
  by_cases hsame : view.pairOf arc = pair <;> simp [hsame]

variable {arc pair : Nat × Nat}

theorem countedRecord_inside (hinside : (view.pairOf arc).1 = (view.pairOf arc).2)
    (pairs : List (Nat × Nat)) (community : Nat) (record : Community) :
    countedRecord view (arcs ++ [arc]) pairs community record =
      if (view.pairOf arc).1 = community then
        { countedRecord view arcs pairs community record with
          internalDirectedEdgeCount :=
            (countedRecord view arcs pairs community record).internalDirectedEdgeCount + 1 }
      else countedRecord view arcs pairs community record := by
  have hcross : ∀ side, crossCount view (arcs ++ [arc]) pairs side community =
      crossCount view arcs pairs side community := fun side => by
    rw [crossCount_snoc, if_neg fun hcounted => hcounted.2.1 hinside, Nat.add_zero]
  rw [countedRecord, hcross, hcross, length_arcsBetween_snoc]
  by_cases hsame : (view.pairOf arc).1 = community
  · rw [if_pos hsame, if_pos (Prod.ext hsame (hinside.symm.trans hsame)), UInt64.ofNat_add]
    rfl
  · rw [if_neg hsame, if_neg fun heq => hsame (congrArg Prod.fst heq), Nat.add_zero]
    rfl

theorem countedRecord_cross {pairs : List (Nat × Nat)}
    (hcross : (view.pairOf arc).1 ≠ (view.pairOf arc).2) (hmem : view.pairOf arc ∈ pairs)
    (community : Nat) (record : Community) :
    countedRecord view (arcs ++ [arc]) pairs community record =
      { countedRecord view arcs pairs community record with
        outgoingDirectedEdgeCount :=
          (countedRecord view arcs pairs community record).outgoingDirectedEdgeCount +
            if (view.pairOf arc).1 = community then 1 else 0
        incomingDirectedEdgeCount :=
          (countedRecord view arcs pairs community record).incomingDirectedEdgeCount +
            if (view.pairOf arc).2 = community then 1 else 0 } := by
  have hinternal : view.pairOf arc ≠ (community, community) := fun heq => by
    rw [heq] at hcross
    exact hcross rfl
  have hcounts : ∀ side : Nat × Nat → Nat,
      UInt64.ofNat (crossCount view (arcs ++ [arc]) pairs side community) =
        .ofNat (crossCount view arcs pairs side community) +
          if side (view.pairOf arc) = community then 1 else 0 := by
    intro side
    rw [crossCount_snoc, UInt64.ofNat_add]
    by_cases hside : side (view.pairOf arc) = community
    · rw [if_pos hside, if_pos ⟨hside, hcross, hmem⟩]
      rfl
    · rw [if_neg hside, if_neg fun hcounted => hside hcounted.1]
      rfl
  rw [countedRecord, hcounts, hcounts, length_arcsBetween_snoc, if_neg hinternal, Nat.add_zero]
  rfl

theorem collectArcs_eq (hknown : view.Known arcs) {communities : List Community}
    (huncounted : Uncounted communities) :
    arcs.foldl (collectArc view.index.nodeToCommunity) (communities, []) =
      (communities.mapIdx (countedRecord view arcs (communityPairs view.communityCount)),
        crossArcs view arcs) := by
  induction arcs using List.reverseRecOn with
  | nil =>
    refine Prod.ext ?_ rfl
    apply List.ext_getElem?
    intro place
    rw [List.getElem?_mapIdx]
    cases hrecord : communities[place]? with
    | none => exact hrecord
    | some record =>
      obtain ⟨hinternal, houtgoing, hincoming⟩ :=
        huncounted record (List.mem_of_getElem? hrecord)
      cases record
      subst hinternal houtgoing hincoming
      exact hrecord
  | append_singleton arcs arc ih =>
    rw [List.foldl_append, ih fun other hother => hknown other (List.mem_append_left _ hother)]
    have hpair : view.pairOf arc ∈ communityPairs view.communityCount :=
      mem_communityPairs.mpr (hknown arc (List.mem_append_right _ (List.mem_singleton_self arc)))
    have hcrossed : crossArcs view (arcs ++ [arc]) = crossArcs view arcs ++
        if (view.pairOf arc).1 ≠ (view.pairOf arc).2 then [crossArc view arc] else [] := by
      rw [crossArcs, List.filter_append, List.map_append, List.filter_singleton]
      by_cases hinside : (view.pairOf arc).1 = (view.pairOf arc).2 <;> simp [hinside, crossArcs]
    rw [hcrossed]
    by_cases hinside : (view.pairOf arc).1 = (view.pairOf arc).2
    · rw [if_neg (not_not_intro hinside), List.append_nil]
      refine (if_pos hinside).trans (Prod.ext ?_ rfl)
      refine (modify_mapIdx _ _ _ _).trans (mapIdx_congr fun place record _ => ?_)
      rw [countedRecord_inside hinside]
      rfl
    · rw [if_pos hinside]
      refine (if_neg hinside).trans (Prod.ext ?_ rfl)
      dsimp only
      rw [modify_mapIdx, modify_mapIdx]
      refine mapIdx_congr fun place record _ => ?_
      rw [countedRecord_cross hinside hpair]
      change (if (view.pairOf arc).2 = place then _ else _) = _
      by_cases htarget : (view.pairOf arc).2 = place
      · have hsource : (view.pairOf arc).1 ≠ place := fun heq => hinside (heq.trans htarget.symm)
        rw [if_pos htarget, if_pos htarget, if_neg hsource, UInt64.add_zero]
        rw [if_neg (show ¬ communityOf view.index.nodeToCommunity arc.1 = place from hsource)]
      · rw [if_neg htarget, if_neg htarget, UInt64.add_zero]
        change (if (view.pairOf arc).1 = place then _ else _) = _
        by_cases hsource : (view.pairOf arc).1 = place
        · rw [if_pos hsource, if_pos hsource]
        · rw [if_neg hsource, if_neg hsource, UInt64.add_zero]

theorem flatMap_filter_perm {Item Key : Type} [DecidableEq Key] (key : Item → Key)
    {keys : List Key} (hnodup : keys.Nodup) {items : List Item}
    (hcovered : ∀ item ∈ items, key item ∈ keys) :
    (keys.flatMap fun value => items.filter fun item => key item = value).Perm items := by
  induction items with
  | nil =>
    have hnone : (keys.flatMap fun value => ([] : List Item).filter fun item => key item = value) =
        [] := by
      rw [List.flatMap_eq_nil_iff]
      exact fun _ _ => rfl
    rw [hnone]
  | cons item items ih =>
    obtain ⟨hitem, hitems⟩ := List.forall_mem_cons.mp hcovered
    obtain ⟨front, rest, rfl⟩ := List.append_of_mem hitem
    have hfront : ∀ value ∈ front, key item ≠ value := fun value hvalue hsame =>
      (List.nodup_append.mp hnodup).2.2 value hvalue _ List.mem_cons_self hsame.symm
    have hrest : ∀ value ∈ rest, key item ≠ value := fun value hvalue hsame =>
      (List.nodup_cons.mp (List.nodup_append.mp hnodup).2.1).1 (hsame ▸ hvalue)
    have hsame : ∀ values : List Key, (∀ value ∈ values, key item ≠ value) →
        (values.flatMap fun value => (item :: items).filter fun other => key other = value) =
          values.flatMap fun value => items.filter fun other => key other = value :=
      fun values hvalues => List.flatMap_congr fun value hvalue =>
        List.filter_cons_of_neg (by simpa using hvalues value hvalue)
    have hperm := ih hitems
    rw [List.flatMap_append, List.flatMap_cons] at hperm ⊢
    rw [hsame front hfront, hsame rest hrest, List.filter_cons_of_pos (by simp)]
    exact List.perm_middle.trans (hperm.cons item)

/-- The pairs of Communities with arcs between them. -/
def arcPairs (view : GatewayView) (arcs : List (Nat × Nat)) : List (Nat × Nat) :=
  (communityPairs view.communityCount).filter fun pair =>
    pair.1 ≠ pair.2 ∧ view.arcsBetween pair arcs ≠ []

theorem mem_arcPairs : pair ∈ arcPairs view arcs ↔
    (pair.1 < view.communityCount ∧ pair.2 < view.communityCount) ∧
      pair.1 ≠ pair.2 ∧ view.arcsBetween pair arcs ≠ [] := by
  rw [arcPairs, List.mem_filter, mem_communityPairs, decide_eq_true_iff]

theorem blockArcs_perm (pair : Nat × Nat) : (blockArcs view arcs pair).Perm
    ((view.arcsBetween pair arcs).map fun arc => ⟨pair.1, pair.2, arc.1, arc.2⟩) :=
  List.perm_insertionSort _ _

theorem pair_of_mem_block {arc : CrossArc} (harc : arc ∈ blockArcs view arcs pair) :
    arc.pair = pair := by
  obtain ⟨_, _, rfl⟩ := List.mem_map.mp ((blockArcs_perm pair).mem_iff.mp harc)
  rfl

theorem blockArcs_ne_nil (hsome : view.arcsBetween pair arcs ≠ []) :
    blockArcs view arcs pair ≠ [] := by
  intro hnone
  have hlength := (@blockArcs_perm view arcs pair).length_eq
  rw [hnone, List.length_nil, List.length_map] at hlength
  exact hsome (List.length_eq_zero_iff.mp hlength.symm)

theorem crossArcs_perm (hknown : view.Known arcs) : (crossArcs view arcs).Perm
    ((arcPairs view arcs).map (blockArcs view arcs)).flatten := by
  have hpairs : (arcPairs view arcs).Nodup := by
    refine List.Pairwise.filter _ ((communityPairs_sorted _).imp fun hbefore hsame => ?_)
    rw [hsame, PairBefore] at hbefore
    omega
  have hfilter : ∀ pair ∈ arcPairs view arcs,
      (crossArcs view arcs).filter (fun arc => arc.pair = pair) =
        (view.arcsBetween pair arcs).map fun arc => ⟨pair.1, pair.2, arc.1, arc.2⟩ := by
    intro pair hpair
    obtain ⟨-, hne, -⟩ := mem_arcPairs.mp hpair
    have hkept : ∀ arc ∈ arcs, (decide ((crossArc view arc).pair = pair) &&
        decide ((view.pairOf arc).1 ≠ (view.pairOf arc).2)) = decide (view.pairOf arc = pair) := by
      intro arc _
      change (decide (view.pairOf arc = pair) && _) = _
      by_cases hsame : view.pairOf arc = pair
      · rw [hsame, decide_eq_true rfl, decide_eq_true hne, Bool.and_self]
      · rw [decide_eq_false hsame, Bool.false_and]
    rw [crossArcs, List.filter_map, List.filter_filter, GatewayView.arcsBetween]
    refine (congrArg (List.map (crossArc view)) (List.filter_congr hkept)).trans ?_
    refine List.map_congr_left fun arc harc => ?_
    rw [← of_decide_eq_true (List.mem_filter.mp harc).2]
    rfl
  have hcovered : ∀ arc ∈ crossArcs view arcs, arc.pair ∈ arcPairs view arcs := by
    intro arc harc
    obtain ⟨ends, hends, rfl⟩ := List.mem_map.mp harc
    rw [List.mem_filter, decide_eq_true_iff] at hends
    refine mem_arcPairs.mpr ⟨hknown ends hends.1, hends.2, fun hnone => ?_⟩
    have hmember := view.mem_arcsBetween.mpr ⟨hends.1, rfl⟩
    rw [show view.pairOf ends = (crossArc view ends).pair from rfl, hnone] at hmember
    exact absurd hmember List.not_mem_nil
  refine (flatMap_filter_perm CrossArc.pair hpairs hcovered).symm.trans ?_
  rw [← List.flatMap_def]
  refine List.Perm.flatMap_left _ fun pair hpair => ?_
  rw [hfilter pair hpair]
  exact (blockArcs_perm pair).symm

theorem sort_crossArcs (hknown : view.Known arcs) :
    (crossArcs view arcs).insertionSort CrossArcBefore =
      ((arcPairs view arcs).map (blockArcs view arcs)).flatten := by
  have htotal : Std.Total CrossArcBefore := ⟨fun left right => by
    simp only [CrossArcBefore, ArcBefore]
    omega⟩
  have htrans : IsTrans CrossArc CrossArcBefore := ⟨fun first second third => by
    simp only [CrossArcBefore, ArcBefore]
    omega⟩
  have hantisymm : Std.Antisymm CrossArcBefore := ⟨fun left right => by
    cases left
    cases right
    simp only [CrossArcBefore, ArcBefore, CrossArc.mk.injEq]
    omega⟩
  have hpairs : (arcPairs view arcs).Pairwise PairBefore := (communityPairs_sorted _).filter _
  have hblocks : ((arcPairs view arcs).map (blockArcs view arcs)).flatten.Pairwise
      CrossArcBefore := by
    rw [List.pairwise_flatten, List.pairwise_map]
    refine ⟨fun block hblock => ?_, hpairs.imp fun {first second} hbefore left hleft right hright => ?_⟩
    · obtain ⟨pair, -, rfl⟩ := List.mem_map.mp hblock
      refine (arcs_sorted _).imp_of_mem fun {left right} hleft hright hbefore => ?_
      have hfirst := pair_of_mem_block hleft
      have hsecond := pair_of_mem_block hright
      rw [← hfirst, CrossArc.pair, CrossArc.pair, Prod.mk.injEq] at hsecond
      exact .inr ⟨hsecond.1.symm, .inr ⟨hsecond.2.symm, hbefore⟩⟩
    · rw [← pair_of_mem_block hleft, ← pair_of_mem_block hright] at hbefore
      rcases hbefore with hless | ⟨hsame, hless⟩
      · exact .inl hless
      · exact .inr ⟨hsame, .inl hless⟩
  exact List.Perm.eq_of_pairwise' (List.pairwise_insertionSort CrossArcBefore _) hblocks
    ((List.perm_insertionSort CrossArcBefore _).trans (crossArcs_perm hknown))

theorem runs_eq (hknown : view.Known arcs) :
    (((crossArcs view arcs).insertionSort CrossArcBefore).splitBy fun left right =>
      left.pair = right.pair) = (arcPairs view arcs).map (blockArcs view arcs) := by
  have hpairs : (arcPairs view arcs).Pairwise PairBefore := (communityPairs_sorted _).filter _
  rw [sort_crossArcs hknown]
  refine List.splitBy_flatten (fun hnone => ?_) (fun block hblock => ?_) ?_
  · obtain ⟨pair, hpair, hblock⟩ := List.mem_map.mp hnone
    exact blockArcs_ne_nil (mem_arcPairs.mp hpair).2.2 hblock
  · obtain ⟨pair, -, rfl⟩ := List.mem_map.mp hblock
    refine List.Pairwise.isChain ?_
    refine List.pairwise_of_forall_mem_list fun left hleft right hright => ?_
    rw [pair_of_mem_block hleft, pair_of_mem_block hright]
    exact decide_eq_true rfl
  · refine List.Pairwise.isChain ?_
    rw [List.pairwise_map]
    refine hpairs.imp_of_mem fun {first second} hfirst hsecond hbefore => ?_
    have hleft := blockArcs_ne_nil (mem_arcPairs.mp hfirst).2.2
    have hright := blockArcs_ne_nil (mem_arcPairs.mp hsecond).2.2
    refine ⟨hleft, hright, ?_⟩
    rw [pair_of_mem_block (List.getLast_mem hleft), pair_of_mem_block (List.head_mem hright)]
    refine decide_eq_false fun hsame => ?_
    rw [hsame, PairBefore] at hbefore
    omega

theorem appendRun_block (hsome : view.arcsBetween pair arcs ≠ []) (edges : SuperEdges) :
    appendRun view [] (blockArcs view arcs pair) edges =
      appendEdge view pair.1 pair.2 (.ofNat (view.arcsBetween pair arcs).length)
        (blockArcs view arcs pair) [] edges := by
  obtain ⟨first, rest, hblock⟩ := List.exists_cons_of_ne_nil (blockArcs_ne_nil hsome)
  have hfirst : first.pair = pair :=
    pair_of_mem_block (by rw [hblock]; exact List.mem_cons_self)
  have hlength := (@blockArcs_perm view arcs pair).length_eq
  rw [List.length_map] at hlength
  rw [← hlength, hblock, appendRun, ← hfirst]
  rfl

theorem appendRuns_eq (pairs : List (Nat × Nat)) (position : Nat) (edges : SuperEdges) :
    scan (fun _ => appendRun view []) position
        ((pairs.filter fun pair => pair.1 ≠ pair.2 ∧ view.arcsBetween pair arcs ≠ []).map
          (blockArcs view arcs)) edges =
      scan (fun _ => edgeOfPair view arcs) position pairs edges := by
  induction pairs generalizing position edges with
  | nil => rfl
  | cons pair pairs ih =>
    rw [scan, edgeOfPair]
    by_cases hkept : pair.1 ≠ pair.2 ∧ view.arcsBetween pair arcs ≠ []
    · rw [List.filter_cons_of_pos (by simpa using hkept), List.map_cons, scan,
        appendRun_block hkept.2, if_neg (by tauto)]
      exact bind_congr fun next => ih (position + 1) next
    · rw [List.filter_cons_of_neg (by simpa using hkept), if_pos (by tauto),
        scan_position position (position + 1)]
      exact ih (position + 1) edges

end Complete

/-! ## Both constructions -/

theorem known_allArcs {view : GatewayView} {graph : ArcGraph}
    (hmembers : view.index.nodeToCommunity.length = graph.pointCount)
    (hknown : ∀ community ∈ view.index.nodeToCommunity, community.toNat < view.communityCount) :
    view.Known (allArcs graph) := by
  have hnode : ∀ node < graph.pointCount,
      communityOf view.index.nodeToCommunity node < view.communityCount := by
    intro node hnode
    rw [← hmembers] at hnode
    rw [communityOf, List.getD_eq_getElem?_getD, List.getElem?_eq_getElem hnode, Option.getD_some]
    exact hknown _ (List.getElem_mem hnode)
  intro arc harc
  obtain ⟨source, hsource, harc⟩ := List.mem_flatMap.mp harc
  obtain ⟨target, htarget, rfl⟩ := List.mem_map.mp harc
  exact ⟨hnode source (List.mem_range.mp hsource), hnode target (graph.adjacency_lt htarget)⟩

/-- The shortlists give the same tables as all the arcs. -/
theorem gatewayPaths_agree {view : GatewayView} {graph : ArcGraph} {threadCount : Nat}
    (hthreads : 1 ≤ threadCount)
    (hlimit : view.index.config.gatewayCount ≤ view.index.config.gatewayShortlist)
    (hmembers : view.index.nodeToCommunity.length = graph.pointCount)
    (hknown : ∀ community ∈ view.index.nodeToCommunity, community.toNat < view.communityCount)
    {tables : GatewayTables} (hcount : tables.communities.length = view.communityCount)
    (huncounted : Uncounted tables.communities) (order : LoopOrder threadCount) :
    boundedGateways view graph order tables = completeGateways view graph [] tables := by
  have harcs := known_allArcs hmembers hknown
  have hbounded := length_allArcs graph
  have hparts := workerParts_perm graph hthreads
  have hpart : ∀ part ∈ workerParts graph threadCount, view.Known part :=
    fun part hpart arc harc =>
      harcs arc (hparts.mem_iff.mp (List.mem_flatten.mpr ⟨part, hpart, harc⟩))
  have hworkers : parallelFor order.val
      (fun worker workers => workers.set worker (workerArcs view graph threadCount worker))
      (List.replicate threadCount { internal := [], pairs := [] }) =
        (workerParts graph threadCount).map (visitedArcs view) := by
    rw [parallelFor_set order _ List.length_replicate, workerParts, List.map_map]
    rfl
  have hpairs : (communityPairs view.communityCount).Nodup :=
    (communityPairs_sorted _).imp fun hbefore hsame => by
      rw [hsame, PairBefore] at hbefore
      omega
  have hmerged := @mergePairs_eq view (allArcs graph) hlimit harcs hbounded _ hparts _ hcount []
    (communityPairs view.communityCount) hpairs (fun pair hpair => mem_communityPairs.mp hpair) 0
    tables.edges
  have hshortlists : boundedGateways view graph order tables =
      scan (fun _ pair => mergePair view ((workerParts graph threadCount).map (visitedArcs view))
        pair.1 pair.2) 0 (communityPairs view.communityCount)
        (countedTables view (allArcs graph) tables.communities [] tables.edges) := by
    have hcounted := addInternals_eq hpart hparts hbounded hcount huncounted
    rw [communityPairs, ← scan_flatMap, boundedGateways, hworkers]
    change (scan _ 0 (List.range view.communityCount) tables >>= _) = _
    rw [hcounted]
    change scan _ 0 (List.range view.communityCount) _ = _
    congr 1
    funext _ source tables
    have hrow := @scan_map Error (Nat × Nat) GatewayTables Nat
      (fun _ pair => mergePair view ((workerParts graph threadCount).map (visitedArcs view)) pair.1
        pair.2) (fun target => (source, target)) 0 (List.range view.communityCount) tables
    exact hrow.symm
  have hcomplete : completeGateways view graph [] tables =
      (scan (fun _ => edgeOfPair view (allArcs graph)) 0 (communityPairs view.communityCount)
        tables.edges).map (countedTables view (allArcs graph) tables.communities
          (communityPairs view.communityCount)) := by
    have hcollected := collectArcs_eq harcs huncounted
    rw [completeGateways, show arcsOf graph (List.range graph.pointCount) = allArcs graph from rfl,
      hcollected]
    dsimp only
    rw [runs_eq harcs, arcPairs, appendRuns_eq]
    cases scan (fun _ => edgeOfPair view (allArcs graph)) 0 (communityPairs view.communityCount)
      tables.edges <;> rfl
  rw [hshortlists, hmerged, hcomplete, List.nil_append]

/-- A cycle through two Communities, with two arcs from the first to the second. -/
def cycleGraph : ArcGraph where
  neighbors := [[2], [2, 0], [1]]
  small := by decide
  inside := by simp
  addressable := by decide

def cycleView : GatewayView where
  index := { twoNodes with pointCount := 3, nodeToCommunity := [0, 0, 1] }
  vectors := [.zero, .zero, .one]
  importance := ⟨[.zero, .one, .one], by decide⟩

def cycleTables : GatewayTables where
  communities :=
    [⟨0, 2, 10, 0, 0, 0, 0, 1, .zero, false, 0, 0, 0, 0⟩,
      ⟨1, 1, 5, 0, 0, 0, 2, 2, .zero, false, 0, 0, 0, 0⟩]
  edges := ⟨[], []⟩

theorem gatewayPaths_agree_cycle :
    boundedGateways cycleView cycleGraph (.ascending 2) cycleTables =
      completeGateways cycleView cycleGraph [] cycleTables :=
  gatewayPaths_agree (by decide) (by decide) rfl
    (by simp [cycleView, GatewayView.communityCount, twoNodes]) rfl
    (by unfold Uncounted; decide) _

end SkipCell.Build

import SkipCell.Build.PartitionGraph
import SkipCell.Foundation.SortedMap

/-! # The partitioned graph is the projected graph, made undirected

Each row holds the nodes that an arc joins with its node, in ascending order, each with the
number of the arcs. Both paths have these rows, but the path for short lists takes no other
lists.
-/

namespace SkipCell.Build

open Foundation Sidecar

/-! ## Projected lists -/

theorem sortIds_perm (ids : List Nat) : (sortIds ids).Perm ids := List.perm_insertionSort _ ids

theorem sortIds_pairwise (ids : List Nat) : (sortIds ids).Pairwise (· ≤ ·) :=
  List.pairwise_insertionSort _ ids

theorem mem_sortIds {ids : List Nat} {id : Nat} : id ∈ sortIds ids ↔ id ∈ ids :=
  (sortIds_perm ids).mem_iff

theorem sortIds_congr {ids others : List Nat} (hperm : ids.Perm others) :
    sortIds ids = sortIds others :=
  List.Perm.eq_of_pairwise' (sortIds_pairwise ids) (sortIds_pairwise others)
    ((sortIds_perm ids).trans (hperm.trans (sortIds_perm others).symm))

section

variable {ids : List Nat} (hsorted : ids.Pairwise (· ≤ ·))
include hsorted

theorem sortIds_of_pairwise : sortIds ids = ids :=
  hsorted.insertionSort_eq

theorem pairwise_lt_of_nodup (hnodup : ids.Nodup) : ids.Pairwise (· < ·) :=
  (hsorted.and hnodup).imp fun ⟨hle, hne⟩ => Nat.lt_of_le_of_ne hle hne

theorem hasRepeat_iff :
    HasRepeat ids ↔ ¬ ids.Nodup :=
  exists_adjacent_eq_iff hsorted

end

namespace GraphView

variable (graph : GraphView)

/-- The arcs of a node are distinct, lead to other nodes and stay in the graph. -/
structure Proper (node : Nat) : Prop where
  nodup : (graph.neighbors node).Nodup
  inside : ∀ target ∈ graph.neighbors node, target < graph.pointCount ∧ target ≠ node

/-- What the path for short lists asks of a list. -/
structure Short (node : Nat) : Prop where
  nonempty : graph.neighbors node ≠ []
  bounded : (graph.neighbors node).length ≤ maxGraphDegree
  ranked : ∀ target ∈ graph.neighbors node, ¬ graph.BadDistance node target

/-- The list of a node that is projected to `degree` targets. -/
def projected (degree node : Nat) : List Nat :=
  if (graph.neighbors node).length ≤ degree then sortIds (graph.neighbors node)
  else nearestTargets graph degree node (sortIds (graph.neighbors node))

end GraphView

section Projection

variable {graph : GraphView} {node : Nat}

theorem uniqueNeighbors_eq_ok {neighbors : List Nat} :
    uniqueNeighbors graph node = .ok neighbors ↔
      graph.Proper node ∧ neighbors = sortIds (graph.neighbors node) := by
  simp only [uniqueNeighbors, bind_ok, reject_ok, hasRepeat_iff (sortIds_pairwise _),
    not_not, (sortIds_perm _).nodup_iff, mem_sortIds, Except.ok.injEq]
  constructor
  · rintro ⟨_, hnodup, _, hinside, rfl⟩
    refine ⟨⟨hnodup, fun target htarget => ?_⟩, rfl⟩
    by_contra hout
    exact hinside ⟨target, htarget, by omega⟩
  · rintro ⟨hproper, rfl⟩
    refine ⟨(), hproper.nodup, (), ?_, rfl⟩
    rintro ⟨target, htarget, hout⟩
    have hinside := hproper.inside target htarget
    omega

theorem rankTargets_perm (graph : GraphView) (node : Nat) (targets : List Nat) :
    ((rankTargets graph node targets).map Prod.snd).Perm targets := by
  have hperm := (List.perm_insertionSort RankedBefore
    (targets.map fun target => (graph.squaredDistance node target, target))).map Prod.snd
  rwa [List.map_map, show (Prod.snd ∘ fun target => (graph.squaredDistance node target, target)) =
    id from rfl, List.map_id] at hperm

theorem nearestTargets_subperm (graph : GraphView) (count node : Nat) (targets : List Nat) :
    (nearestTargets graph count node targets).Subperm targets := by
  have htaken : (((rankTargets graph node targets).take count).map Prod.snd).Sublist
      ((rankTargets graph node targets).map Prod.snd) := (List.take_sublist _ _).map _
  exact (sortIds_perm _).subperm.trans
    (htaken.subperm.trans (rankTargets_perm graph node targets).subperm)

theorem nearestTargets_all (graph : GraphView) {count : Nat} (node : Nat) {targets : List Nat}
    (hcount : targets.length ≤ count) : nearestTargets graph count node targets = sortIds targets := by
  have hlength : (rankTargets graph node targets).length = targets.length := by
    rw [← List.length_map, (rankTargets_perm graph node targets).length_eq]
  rw [nearestTargets, List.take_of_length_le (hlength ▸ hcount)]
  exact sortIds_congr (rankTargets_perm graph node targets)

theorem projected_subperm (graph : GraphView) (degree node : Nat) :
    (graph.projected degree node).Subperm (graph.neighbors node) := by
  rw [GraphView.projected]
  split
  · exact (sortIds_perm _).subperm
  · exact (nearestTargets_subperm graph degree node _).trans (sortIds_perm _).subperm

theorem projected_pairwise (hproper : graph.Proper node) (degree : Nat) :
    (graph.projected degree node).Pairwise (· < ·) := by
  have hnodup : (graph.projected degree node).Nodup := by
    obtain ⟨some, hperm, hsublist⟩ := projected_subperm graph degree node
    exact hperm.nodup_iff.mp (hproper.nodup.sublist hsublist)
  refine pairwise_lt_of_nodup ?_ hnodup
  rw [GraphView.projected]
  split
  · exact sortIds_pairwise _
  · exact sortIds_pairwise _

theorem projected_inside (hproper : graph.Proper node) {degree target : Nat}
    (htarget : target ∈ graph.projected degree node) :
    target < graph.pointCount ∧ target ≠ node :=
  hproper.inside target ((projected_subperm graph degree node).subset htarget)

theorem projectedNeighbors_eq_ok {projection : PartitionProjection} {degree : UInt32}
    (hdegree : projectionDegree projection = .ok degree) {neighbors : List Nat} :
    projectedNeighbors graph projection node = .ok neighbors ↔ graph.Proper node ∧
      (degree.toNat < (graph.neighbors node).length →
        ∀ target ∈ graph.neighbors node, ¬ graph.BadDistance node target) ∧
      neighbors = graph.projected degree.toNat node := by
  have hlength : (sortIds (graph.neighbors node)).length = (graph.neighbors node).length :=
    (sortIds_perm _).length_eq
  simp only [projectedNeighbors, bind_ok, uniqueNeighbors_eq_ok, hdegree,
    Except.ok.injEq, GraphView.projected]
  constructor
  · rintro ⟨_, ⟨hproper, rfl⟩, _, rfl, hresult⟩
    rw [hlength] at hresult
    split at hresult
    · next hshort =>
        rw [if_pos hshort]
        exact ⟨hproper, fun hlong => absurd hlong (Nat.not_lt.mpr hshort),
          (Except.ok.inj hresult).symm⟩
    · next hlong =>
        rw [if_neg hlong]
        simp only [bind_ok, reject_ok, mem_sortIds, Except.ok.injEq] at hresult
        obtain ⟨_, hranked, rfl⟩ := hresult
        exact ⟨hproper, fun _ target htarget hbad => hranked ⟨target, htarget, hbad⟩, rfl⟩
  · rintro ⟨hproper, hranked, rfl⟩
    refine ⟨_, ⟨hproper, rfl⟩, degree, rfl, ?_⟩
    rw [hlength]
    split
    · rfl
    · next hlong =>
        refine bind_ok.mpr ⟨(), ?_, rfl⟩
        rw [reject_ok]
        rintro ⟨target, htarget, hbad⟩
        exact hranked (Nat.lt_of_not_le hlong) target (mem_sortIds.mp htarget) hbad

theorem nearestTargets_projected (graph : GraphView) (degree node : Nat) :
    nearestTargets graph (min degree (graph.neighbors node).length) node
      (sortIds (graph.neighbors node)) = graph.projected degree node := by
  rw [GraphView.projected]
  split
  · next hshort =>
      rw [Nat.min_eq_right hshort,
        nearestTargets_all graph node (Nat.le_of_eq (sortIds_perm _).length_eq)]
      exact sortIds_of_pairwise (sortIds_pairwise _)
  · next hlong => rw [Nat.min_eq_left (Nat.le_of_lt (Nat.lt_of_not_le hlong))]

theorem projectNode_valid (hproper : graph.Proper node) (hshort : graph.Short node)
    (degree : Nat) : projectNode graph degree node =
      { baseDegree := (graph.neighbors node).length
        targets := graph.projected degree node } := by
  have hbounded : ¬ (graph.neighbors node = [] ∨
      maxGraphDegree < (graph.neighbors node).length) := by
    rintro (hempty | hlong)
    · exact hshort.nonempty hempty
    · exact absurd hshort.bounded (Nat.not_le.mpr hlong)
  have hdistinct : ¬ ((∃ target ∈ sortIds (graph.neighbors node),
      graph.pointCount ≤ target ∨ target = node) ∨ HasRepeat (sortIds (graph.neighbors node))) := by
    rintro (⟨target, htarget, hout⟩ | hrepeat)
    · have hinside := hproper.inside target (mem_sortIds.mp htarget)
      omega
    · rw [hasRepeat_iff (sortIds_pairwise _), (sortIds_perm _).nodup_iff] at hrepeat
      exact hrepeat hproper.nodup
  have hranked : ¬ ∃ target ∈ sortIds (graph.neighbors node), graph.BadDistance node target := by
    rintro ⟨target, htarget, hbad⟩
    exact hshort.ranked target (mem_sortIds.mp htarget) hbad
  rw [projectNode, if_neg hbounded, if_neg hdistinct, if_neg hranked, nearestTargets_projected]

theorem projectNode_marked {degree : Nat} (hvalid : (projectNode graph degree node).invalid = 0) :
    graph.Proper node ∧ graph.Short node := by
  rw [projectNode] at hvalid
  split at hvalid
  · cases hvalid
  · next hbounded =>
      dsimp only at hvalid
      split at hvalid
      · cases hvalid
      · next hdistinct =>
          split at hvalid
          · cases hvalid
          · next hranked =>
              rw [not_or] at hbounded hdistinct
              rw [hasRepeat_iff (sortIds_pairwise _), not_not, (sortIds_perm _).nodup_iff]
                at hdistinct
              refine ⟨⟨hdistinct.2, fun target htarget => ?_⟩,
                ⟨hbounded.1, Nat.le_of_not_lt hbounded.2, fun target htarget hbad =>
                  hranked ⟨target, mem_sortIds.mpr htarget, hbad⟩⟩⟩
              by_contra hout
              exact hdistinct.1 ⟨target, mem_sortIds.mpr htarget, by omega⟩

end Projection

/-! ## Pairs -/

/-- The number of the arcs between two nodes. -/
def directions (targets : Nat → List Nat) (left right : Nat) : Nat :=
  (if right ∈ targets left then 1 else 0) + (if left ∈ targets right then 1 else 0)

theorem directions_comm (targets : Nat → List Nat) (left right : Nat) :
    directions targets left right = directions targets right left := Nat.add_comm _ _

/-- Arcs of the nodes below `size`, to other nodes. -/
structure Arcs (size : Nat) (targets : Nat → List Nat) : Prop where
  sorted : ∀ node < size, (targets node).Pairwise (· < ·)
  inside : ∀ node < size, ∀ target ∈ targets node, target < size ∧ target ≠ node

/-- Every two nodes that an arc joins are a pair, once, the smaller node first. -/
structure IsPairs (size : Nat) (targets : Nat → List Nat) (pairs : List WeightedPair) : Prop where
  nodup : pairs.Nodup
  mem : ∀ pair, pair ∈ pairs ↔ pair.left < pair.right ∧ pair.right < size ∧
    0 < pair.weight ∧ pair.weight = directions targets pair.left pair.right

theorem IsPairs.perm {size : Nat} {targets : Nat → List Nat} {pairs others : List WeightedPair}
    (hpairs : IsPairs size targets pairs) (hothers : IsPairs size targets others) :
    pairs.Perm others :=
  (List.perm_ext_iff_of_nodup hpairs.nodup hothers.nodup).mpr fun pair => by
    rw [hpairs.mem, hothers.mem]

section BoundedPairs

variable {rows : List ProjectedNode} {size node target : Nat}

theorem mem_pairTargets : target ∈ pairTargets rows node ↔
    target ∈ targetsOf rows node ∧ (node < target ∨ node ∉ targetsOf rows target) := by
  rw [pairTargets, List.mem_filter, decide_eq_true_iff]

theorem makePair_weight (harc : target ∈ targetsOf rows node) :
    (makePair rows node target).weight = directions (targetsOf rows) node target := by
  rw [makePair, directions, if_pos harc]
  split <;> rfl

theorem makePair_eq_iff {pair : WeightedPair} (hne : target ≠ node)
    (harc : target ∈ targetsOf rows node) : makePair rows node target = pair ↔
      (pair.left = node ∧ pair.right = target ∨ pair.left = target ∧ pair.right = node) ∧
        pair.left < pair.right ∧
        pair.weight = directions (targetsOf rows) pair.left pair.right := by
  have hweight := makePair_weight harc
  constructor
  · rintro rfl
    change _ ∧ min node target < max node target ∧ (makePair rows node target).weight =
      directions (targetsOf rows) (min node target) (max node target)
    rcases Nat.lt_or_gt_of_ne hne with hless | hgreater
    · rw [Nat.min_eq_right (Nat.le_of_lt hless), Nat.max_eq_left (Nat.le_of_lt hless), hweight]
      exact ⟨.inr ⟨Nat.min_eq_right (Nat.le_of_lt hless), Nat.max_eq_left (Nat.le_of_lt hless)⟩,
        hless, directions_comm _ _ _⟩
    · rw [Nat.min_eq_left (Nat.le_of_lt hgreater), Nat.max_eq_right (Nat.le_of_lt hgreater),
        hweight]
      exact ⟨.inl ⟨Nat.min_eq_left (Nat.le_of_lt hgreater),
        Nat.max_eq_right (Nat.le_of_lt hgreater)⟩, hgreater, rfl⟩
  · obtain ⟨left, right, weight⟩ := pair
    rintro ⟨⟨hleft, hright⟩ | ⟨hleft, hright⟩, hless, hdirections⟩
    · dsimp only at hleft hright hless hdirections
      subst hleft hright
      rw [hdirections, ← hweight, makePair, Nat.min_eq_left (Nat.le_of_lt hless),
        Nat.max_eq_right (Nat.le_of_lt hless)]
    · dsimp only at hleft hright hless hdirections
      subst hleft hright
      rw [hdirections, directions_comm, ← hweight, makePair,
        Nat.min_eq_right (Nat.le_of_lt hless), Nat.max_eq_left (Nat.le_of_lt hless)]

theorem boundedPairs_isPairs (harcs : Arcs size (targetsOf rows)) :
    IsPairs size (targetsOf rows)
      ((List.range size).flatMap fun node => (pairTargets rows node).map (makePair rows node)) := by
  constructor
  · rw [List.nodup_flatMap]
    constructor
    · intro node hnode
      have hnode := List.mem_range.mp hnode
      have hnodup : (pairTargets rows node).Nodup :=
        ((harcs.sorted node hnode).imp Nat.ne_of_lt).filter _
      refine hnodup.map_on fun first hfirst second hsecond hsame => ?_
      obtain ⟨hfirst, -⟩ := mem_pairTargets.mp hfirst
      obtain ⟨hsecond, -⟩ := mem_pairTargets.mp hsecond
      have hends := ((makePair_eq_iff (harcs.inside node hnode first hfirst).2 hfirst).mp hsame).1
      have hothers :=
        ((makePair_eq_iff (harcs.inside node hnode second hsecond).2 hsecond).mp rfl).1
      omega
    · refine List.nodup_range.imp_of_mem ?_
      intro node other hnode hother hne pair hpair hshared
      obtain ⟨first, hfirst, rfl⟩ := List.mem_map.mp hpair
      obtain ⟨second, hsecond, hsame⟩ := List.mem_map.mp hshared
      have hnode := List.mem_range.mp hnode
      have hother := List.mem_range.mp hother
      obtain ⟨hfirst, hmade⟩ := mem_pairTargets.mp hfirst
      obtain ⟨hsecond, hagain⟩ := mem_pairTargets.mp hsecond
      have hends :=
        ((makePair_eq_iff (harcs.inside other hother second hsecond).2 hsecond).mp hsame).1
      have hself := ((makePair_eq_iff (harcs.inside node hnode first hfirst).2 hfirst).mp rfl).1
      have hcrossed : second = node ∧ first = other := by omega
      obtain ⟨rfl, rfl⟩ := hcrossed
      rcases hmade with hless | hsingle
      · rcases hagain with hgreater | hsingle
        · omega
        · exact hsingle hfirst
      · exact hsingle hsecond
  · intro pair
    simp only [List.mem_flatMap, List.mem_range, List.mem_map, mem_pairTargets]
    constructor
    · rintro ⟨node, hnode, target, ⟨harc, -⟩, hmade⟩
      obtain ⟨hinside, hne⟩ := harcs.inside node hnode target harc
      obtain ⟨hends, hless, hweight⟩ := (makePair_eq_iff hne harc).mp hmade
      refine ⟨hless, by omega, ?_, hweight⟩
      rw [← hmade, makePair]
      dsimp only
      split <;> decide
    · rintro ⟨hless, hsize, hsome, hweight⟩
      by_cases hforward : pair.right ∈ targetsOf rows pair.left
      · refine ⟨pair.left, by omega, pair.right, ⟨hforward, .inl hless⟩, ?_⟩
        exact (makePair_eq_iff (by omega) hforward).mpr ⟨.inl ⟨rfl, rfl⟩, hless, hweight⟩
      · have hback : pair.left ∈ targetsOf rows pair.right := by
          by_contra hnone
          rw [hweight, directions, if_neg hforward, if_neg hnone] at hsome
          exact absurd hsome (Nat.lt_irrefl 0)
        refine ⟨pair.right, hsize, pair.left, ⟨hback, .inr hforward⟩, ?_⟩
        exact (makePair_eq_iff (by omega) hback).mpr ⟨.inr ⟨rfl, rfl⟩, hless, hweight⟩

end BoundedPairs

section Keys

variable {size node target left right : Nat} {targets : Nat → List Nat}

/-- The keys, with the numbers of their copies. -/
structure Runs (keys : List Nat) (runs : List (Nat × Nat)) : Prop where
  ascending : runs.Pairwise fun first second => first.1 < second.1
  mem : ∀ key count, (key, count) ∈ runs ↔ 0 < count ∧ count = keys.count key

theorem Runs.again {keys : List Nat} {runs : List (Nat × Nat)} {key count : Nat}
    (hruns : Runs keys ((key, count) :: runs)) : Runs (key :: keys) ((key, count + 1) :: runs) := by
  obtain ⟨hbehind, hrest⟩ := List.pairwise_cons.mp hruns.ascending
  have hcount := ((hruns.mem key count).mp List.mem_cons_self).2
  refine ⟨List.pairwise_cons.mpr ⟨hbehind, hrest⟩, fun other found => ?_⟩
  by_cases hother : other = key
  · subst hother
    have hout : (other, found) ∉ runs := fun hlater =>
      absurd (hbehind _ hlater) (Nat.lt_irrefl _)
    simp only [List.mem_cons, hout, or_false, List.count_cons_self, Prod.mk.injEq, true_and]
    omega
  · have hsplit := hruns.mem other found
    simp only [List.mem_cons, Prod.mk.injEq, hother, false_and, false_or] at hsplit ⊢
    rw [hsplit, List.count_cons_of_ne (Ne.symm hother)]

theorem Runs.fresh {keys : List Nat} {runs : List (Nat × Nat)} {key : Nat}
    (hruns : Runs keys runs) (hbefore : ∀ other ∈ keys, key < other) :
    Runs (key :: keys) ((key, 1) :: runs) := by
  have hout : key ∉ keys := fun hinside => absurd (hbefore key hinside) (Nat.lt_irrefl _)
  refine ⟨List.pairwise_cons.mpr ⟨fun run hrun => ?_, hruns.ascending⟩, fun other found => ?_⟩
  · obtain ⟨hpositive, hcount⟩ := (hruns.mem run.1 run.2).mp hrun
    exact hbefore run.1 (List.count_pos_iff.mp (hcount ▸ hpositive))
  · rw [List.mem_cons, hruns.mem]
    by_cases hother : other = key
    · subst hother
      rw [List.count_cons_self, List.count_eq_zero.mpr hout]
      simp only [Prod.mk.injEq, true_and]
      omega
    · rw [List.count_cons_of_ne (Ne.symm hother)]
      simp only [Prod.mk.injEq, hother, false_and, false_or]

theorem runLengths_runs {keys : List Nat} (hsorted : keys.Pairwise (· ≤ ·)) :
    Runs keys (runLengths keys) := by
  induction keys with
  | nil =>
    refine ⟨List.Pairwise.nil, fun key count => ?_⟩
    simp only [runLengths, List.not_mem_nil, List.count_nil, false_iff]
    omega
  | cons key keys ih =>
    obtain ⟨hkey, hrest⟩ := List.pairwise_cons.mp hsorted
    have hruns := ih hrest
    rw [runLengths]
    split
    · next hnone =>
        rw [hnone] at hruns
        refine hruns.fresh fun other hother => ?_
        have hrun := (hruns.mem other (keys.count other)).mpr
          ⟨List.count_pos_iff.mpr hother, rfl⟩
        exact absurd hrun List.not_mem_nil
    · next first count runs hfound =>
        rw [hfound] at hruns
        split
        · next hsame =>
            subst hsame
            exact hruns.again
        · next hne =>
            -- The first run is that of the least key, and this key is not among the others.
            have hleast : ∀ other ∈ keys, first ≤ other := by
              intro other hother
              have hrun := (hruns.mem other (keys.count other)).mpr
                ⟨List.count_pos_iff.mpr hother, rfl⟩
              rcases List.mem_cons.mp hrun with hhead | hlater
              · exact Nat.le_of_eq (Prod.mk.inj hhead).1.symm
              · exact Nat.le_of_lt ((List.pairwise_cons.mp hruns.ascending).1 _ hlater)
            obtain ⟨hpositive, hcount⟩ := (hruns.mem first count).mp List.mem_cons_self
            have hfirst := hkey first (List.count_pos_iff.mp (hcount ▸ hpositive))
            refine hruns.fresh fun other hother => ?_
            have hother := hleast other hother
            omega

theorem makeUndirectedKey_iff (hsmall : size < 2 ^ 32) (hnode : node < size) (htarget : target < size)
    (hless : left < right) (hright : right < size) :
    makeUndirectedKey node target = left * 2 ^ 32 + right ↔
      node = left ∧ target = right ∨ node = right ∧ target = left := by
  rw [makeUndirectedKey]
  omega

def arcKeys (size : Nat) (targets : Nat → List Nat) : List Nat :=
  (List.range size).flatMap fun node => (targets node).map (makeUndirectedKey node)

theorem count_keys_node (harcs : Arcs size targets) (hsmall : size < 2 ^ 32) (hless : left < right)
    (hright : right < size) (hnode : node < size) :
    ((targets node).map (makeUndirectedKey node)).count (left * 2 ^ 32 + right) =
      (if node = left then if right ∈ targets left then 1 else 0 else 0) +
        if node = right then if left ∈ targets right then 1 else 0 else 0 := by
  have hnodup : ((targets node).map (makeUndirectedKey node)).Nodup := by
    refine List.Nodup.map_on (fun first hfirst second hsecond hsame => ?_)
      ((harcs.sorted node hnode).imp Nat.ne_of_lt)
    have hfirst := harcs.inside node hnode first hfirst
    have hsecond := harcs.inside node hnode second hsecond
    rw [makeUndirectedKey, makeUndirectedKey] at hsame
    omega
  have hmem : left * 2 ^ 32 + right ∈ (targets node).map (makeUndirectedKey node) ↔
      node = left ∧ right ∈ targets left ∨ node = right ∧ left ∈ targets right := by
    rw [List.mem_map]
    constructor
    · rintro ⟨target, htarget, hkey⟩
      have hinside := (harcs.inside node hnode target htarget).1
      rcases (makeUndirectedKey_iff hsmall hnode hinside hless hright).mp hkey with
        ⟨rfl, rfl⟩ | ⟨rfl, rfl⟩
      · exact .inl ⟨rfl, htarget⟩
      · exact .inr ⟨rfl, htarget⟩
    · rintro (⟨rfl, htarget⟩ | ⟨rfl, htarget⟩)
      · exact ⟨right, htarget,
          (makeUndirectedKey_iff hsmall hnode hright hless hright).mpr (.inl ⟨rfl, rfl⟩)⟩
      · exact ⟨left, htarget, (makeUndirectedKey_iff hsmall hnode (hless.trans hright) hless
          hright).mpr (.inr ⟨rfl, rfl⟩)⟩
  rw [List.Nodup.count hnodup]
  simp only [hmem]
  by_cases hleft : node = left
  · simp [hleft, hless.ne]
  · by_cases hnodeRight : node = right
    · simp [hnodeRight, hless.ne']
    · simp [hleft, hnodeRight]

theorem count_keys (harcs : Arcs size targets) (hsmall : size < 2 ^ 32) (hless : left < right)
    (hright : right < size) :
    (arcKeys size targets).count (left * 2 ^ 32 + right) = directions targets left right := by
  rw [arcKeys, List.count_flatMap]
  have hnodes : (List.range size).map (List.count (left * 2 ^ 32 + right) ∘
      fun node => (targets node).map (makeUndirectedKey node)) = (List.range size).map fun node =>
        (if node = left then if right ∈ targets left then 1 else 0 else 0) +
          if node = right then if left ∈ targets right then 1 else 0 else 0 :=
    List.map_congr_left fun node hnode =>
      count_keys_node harcs hsmall hless hright (List.mem_range.mp hnode)
  have hsum : ((List.range size).map fun node =>
      (if node = left then if right ∈ targets left then 1 else 0 else 0) +
        if node = right then if left ∈ targets right then 1 else 0 else 0).sum =
      ∑ node ∈ Finset.range size,
        ((if node = left then if right ∈ targets left then 1 else 0 else 0) +
          if node = right then if left ∈ targets right then 1 else 0 else 0) := rfl
  rw [hnodes, hsum, Finset.sum_add_distrib, Finset.sum_ite_eq', Finset.sum_ite_eq',
    if_pos (Finset.mem_range.mpr (hless.trans hright)), if_pos (Finset.mem_range.mpr hright),
    directions]

theorem exists_ends (harcs : Arcs size targets) {key : Nat} (hkey : key ∈ arcKeys size targets) :
    ∃ left right, left < right ∧ right < size ∧ key = left * 2 ^ 32 + right := by
  obtain ⟨node, hnode, hmem⟩ := List.mem_flatMap.mp hkey
  obtain ⟨target, htarget, rfl⟩ := List.mem_map.mp hmem
  have hnode := List.mem_range.mp hnode
  obtain ⟨hinside, hne⟩ := harcs.inside node hnode target htarget
  exact ⟨min node target, max node target, by omega, by omega, rfl⟩

theorem keyPairs_isPairs (harcs : Arcs size targets) (hsmall : size < 2 ^ 32) :
    ∃ pairs, (runLengths (sortIds (arcKeys size targets))).mapM pairOfRun = .ok pairs ∧
      IsPairs size targets pairs := by
  have hruns := runLengths_runs (sortIds_pairwise (arcKeys size targets))
  have hmem : ∀ run ∈ runLengths (sortIds (arcKeys size targets)), ∃ left right,
      left < right ∧ right < size ∧ run.1 = left * 2 ^ 32 + right ∧ 0 < run.2 ∧
        run.2 = directions targets left right := by
    intro run hrun
    obtain ⟨hpositive, hcount⟩ := (hruns.mem run.1 run.2).mp hrun
    rw [(sortIds_perm _).count_eq] at hcount
    obtain ⟨left, right, hless, hright, hkey⟩ :=
      exists_ends harcs (List.count_pos_iff.mp (hcount ▸ hpositive))
    refine ⟨left, right, hless, hright, hkey, hpositive, ?_⟩
    rw [hcount, hkey]
    exact count_keys harcs hsmall hless hright
  refine ⟨(runLengths (sortIds (arcKeys size targets))).map fun run =>
    ⟨keyLeft run.1, keyRight run.1, run.2⟩, ?_, ?_, ?_⟩
  · rw [mapM_eq_ok, List.forall₂_map_right_iff, List.forall₂_same]
    intro run hrun
    obtain ⟨left, right, -, -, -, hpositive, hcount⟩ := hmem run hrun
    have hfew : directions targets left right ≤ 2 := by
      rw [directions]
      split <;> split <;> decide
    rw [pairOfRun, bind_ok]
    refine ⟨(), ?_, rfl⟩
    rw [reject_ok]
    omega
  · have hnodup : (runLengths (sortIds (arcKeys size targets))).Nodup :=
      hruns.ascending.imp fun hless => by
        rintro rfl
        exact absurd hless (Nat.lt_irrefl _)
    refine hnodup.map_on fun first hfirst second hsecond hsame => ?_
    obtain ⟨hleft, hright, hcount⟩ := WeightedPair.mk.inj hsame
    have hkeys : first.1 = second.1 := by
      rw [keyLeft, keyLeft] at hleft
      rw [keyRight, keyRight] at hright
      omega
    exact Prod.ext hkeys hcount
  · intro pair
    rw [List.mem_map]
    constructor
    · rintro ⟨run, hrun, rfl⟩
      obtain ⟨left, right, hless, hright, hkey, hpositive, hcount⟩ := hmem run hrun
      have hends : keyLeft run.1 = left ∧ keyRight run.1 = right := by
        rw [hkey, keyLeft, keyRight]
        omega
      rw [hends.1, hends.2]
      exact ⟨hless, hright, hpositive, hcount⟩
    · rintro ⟨hless, hright, hpositive, hweight⟩
      refine ⟨(pair.left * 2 ^ 32 + pair.right, pair.weight), (hruns.mem _ _).mpr ⟨hpositive, ?_⟩,
        ?_⟩
      · rw [(sortIds_perm _).count_eq, hweight]
        exact (count_keys harcs hsmall hless hright).symm
      · obtain ⟨left, right, weight⟩ := pair
        rw [WeightedPair.mk.injEq, keyLeft, keyRight]
        dsimp only at hless hright ⊢
        omega

end Keys

/-! ## Rows -/

section Offsets

variable {permit : Nat → Except Error Unit} {context : String} {width : Nat → Nat}

theorem runningOffsets_spec {counts : List Nat} {start : Nat} {offsets : List Nat}
    (hwidth : ∀ row < counts.length, counts[row]? = some (width row))
    (hoffsets : runningOffsets permit context start counts = .ok offsets) :
    offsets.length = counts.length + 1 ∧
      ∀ row ≤ counts.length, offsets[row]? = some (start + rowStart width row) := by
  induction counts generalizing start offsets width with
  | nil =>
    obtain rfl := Except.ok.inj hoffsets
    refine ⟨rfl, fun row hrow => ?_⟩
    obtain rfl := Nat.le_zero.mp hrow
    rfl
  | cons count counts ih =>
    simp only [runningOffsets, bind_ok, checkedAdd_eq_ok] at hoffsets
    obtain ⟨_, ⟨-, rfl⟩, _, -, rest, hrest, hresult⟩ := hoffsets
    obtain rfl := Except.ok.inj hresult
    have hfirst : count = width 0 := Option.some.inj (hwidth 0 (Nat.zero_lt_succ _))
    obtain ⟨hlength, hrows⟩ := @ih (fun row => width (row + 1)) _ _
      (fun row hrow => hwidth (row + 1) (Nat.succ_lt_succ hrow)) hrest
    refine ⟨by rw [List.length_cons, List.length_cons, hlength], fun row hrow => ?_⟩
    cases row with
    | zero => rfl
    | succ row =>
      rw [List.getElem?_cons_succ, hrows row (Nat.le_of_succ_le_succ hrow), hfirst, rowStart_succ,
        Nat.add_assoc]

theorem runningOffsets_ok {counts : List Nat} {start : Nat}
    (hwidth : ∀ row < counts.length, counts[row]? = some (width row))
    (hsmall : start + rowStart width counts.length < 2 ^ 64)
    (hpermit : ∀ next ≤ start + rowStart width counts.length, permit next = .ok ()) :
    ∃ offsets, runningOffsets permit context start counts = .ok offsets := by
  induction counts generalizing start width with
  | nil => exact ⟨_, rfl⟩
  | cons count counts ih =>
    have hfirst : count = width 0 := Option.some.inj (hwidth 0 (Nat.zero_lt_succ _))
    rw [List.length_cons, rowStart_succ, ← Nat.add_assoc, ← hfirst] at hsmall hpermit
    obtain ⟨rest, hrest⟩ := @ih (fun row => width (row + 1)) (start + count)
      (fun row hrow => hwidth (row + 1) (Nat.succ_lt_succ hrow)) hsmall hpermit
    refine ⟨start :: rest, ?_⟩
    simp only [runningOffsets, bind_ok, checkedAdd_eq_ok]
    exact ⟨_, ⟨by omega, rfl⟩, (), hpermit _ (Nat.le_add_right _ _), rest, hrest, rfl⟩

end Offsets

section Rows

variable {size : Nat} {targets : Nat → List Nat} {pairs : List WeightedPair}

/-- The nodes that an arc joins with the node, in ascending order, with the numbers of the
arcs. -/
def symmetricRow (size : Nat) (targets : Nat → List Nat) (node : Nat) : List (Nat × Nat) :=
  ((List.range size).map fun other => (other, directions targets node other)).filter
    fun edge => 0 < edge.2

theorem mem_symmetricRow {node other weight : Nat} : (other, weight) ∈ symmetricRow size targets node ↔
    other < size ∧ 0 < weight ∧ weight = directions targets node other := by
  simp only [symmetricRow, List.mem_filter, List.mem_map, List.mem_range, Prod.mk.injEq,
    decide_eq_true_iff]
  constructor
  · rintro ⟨⟨_, hother, rfl, rfl⟩, hpositive⟩
    exact ⟨hother, hpositive, rfl⟩
  · rintro ⟨hother, hpositive, rfl⟩
    exact ⟨⟨other, hother, rfl, rfl⟩, hpositive⟩

theorem symmetricRow_pairwise (size : Nat) (targets : Nat → List Nat) (node : Nat) :
    (symmetricRow size targets node).Pairwise fun first second => first.1 < second.1 := by
  refine List.Pairwise.filter _ ?_
  rw [List.pairwise_map]
  exact List.pairwise_lt_range

instance : Std.Total EdgeBefore where
  total first second := by
    rw [EdgeBefore, EdgeBefore]
    omega

instance : IsTrans (Nat × Nat) EdgeBefore where
  trans first second third hfirst hsecond := by
    rw [EdgeBefore] at *
    omega

instance : Std.Antisymm EdgeBefore where
  antisymm first second hforward hback := by
    rw [EdgeBefore] at hforward hback
    exact Prod.ext (by omega) (by omega)

theorem mem_pairItems {row other weight : Nat} : (row, other, weight) ∈ pairItems pairs ↔
    ⟨row, other, weight⟩ ∈ pairs ∨ ⟨other, row, weight⟩ ∈ pairs := by
  simp only [pairItems, List.mem_flatMap, List.mem_cons, List.not_mem_nil, or_false, Prod.mk.injEq]
  constructor
  · rintro ⟨pair, hpair, ⟨rfl, rfl, rfl⟩ | ⟨rfl, rfl, rfl⟩⟩
    · exact .inl hpair
    · exact .inr hpair
  · rintro (hpair | hpair)
    · exact ⟨_, hpair, .inl ⟨rfl, rfl, rfl⟩⟩
    · exact ⟨_, hpair, .inr ⟨rfl, rfl, rfl⟩⟩

theorem IsPairs.nodup_items (hpairs : IsPairs size targets pairs) : (pairItems pairs).Nodup := by
  rw [pairItems, List.nodup_flatMap]
  constructor
  · intro pair hpair
    have hless := ((hpairs.mem pair).mp hpair).1
    simp [hless.ne]
  · refine hpairs.nodup.imp_of_mem fun {first second} hfirst hsecond hne => ?_
    have hless := ((hpairs.mem first).mp hfirst).1
    have hother := ((hpairs.mem second).mp hsecond).1
    intro item hitem hshared
    simp only [List.mem_cons, List.not_mem_nil, or_false] at hitem hshared
    obtain ⟨left, right, weight⟩ := first
    obtain ⟨left', right', weight'⟩ := second
    dsimp only at *
    rcases hitem with rfl | rfl
    · rcases hshared with hsame | hsame
      · simp_all
      · simp only [Prod.mk.injEq] at hsame
        omega
    · rcases hshared with hsame | hsame
      · simp only [Prod.mk.injEq] at hsame
        omega
      · simp_all

theorem IsPairs.items_lt (hpairs : IsPairs size targets pairs) :
    ∀ item ∈ pairItems pairs, item.1 < size := by
  rintro ⟨row, other, weight⟩ hitem
  rcases mem_pairItems.mp hitem with hpair | hpair
  · have hends := (hpairs.mem _).mp hpair
    exact hends.1.trans hends.2.1
  · exact ((hpairs.mem _).mp hpair).2.1

theorem directions_self (harcs : Arcs size targets) {node : Nat} (hnode : node < size) :
    directions targets node node = 0 := by
  have hout : node ∉ targets node := fun hmem => (harcs.inside node hnode node hmem).2 rfl
  rw [directions, if_neg hout]

theorem IsPairs.sorted_row (hpairs : IsPairs size targets pairs) (harcs : Arcs size targets)
    {node : Nat} (hnode : node < size) :
    (itemsOf (pairItems pairs) node).insertionSort EdgeBefore = symmetricRow size targets node := by
  have hitems : (itemsOf (pairItems pairs) node).Nodup := by
    refine hpairs.nodup_items.filterMap fun first second edge hfirst hsecond => ?_
    simp only [Option.ite_none_right_eq_some, Option.mem_def, Option.some.injEq] at hfirst hsecond
    exact Prod.ext (hfirst.1.trans hsecond.1.symm) (hfirst.2.trans hsecond.2.symm)
  have hrow : (symmetricRow size targets node).Nodup :=
    (symmetricRow_pairwise size targets node).imp fun hless => by
      rintro rfl
      exact absurd hless (Nat.lt_irrefl _)
  have hperm : (itemsOf (pairItems pairs) node).Perm (symmetricRow size targets node) := by
    refine (List.perm_ext_iff_of_nodup hitems hrow).mpr fun ⟨other, weight⟩ => ?_
    rw [mem_itemsOf, mem_pairItems, hpairs.mem, hpairs.mem, mem_symmetricRow]
    dsimp only
    constructor
    · rintro (⟨hless, hother, hpositive, hweight⟩ | ⟨hless, -, hpositive, hweight⟩)
      · exact ⟨hother, hpositive, hweight⟩
      · exact ⟨by omega, hpositive, hweight.trans (directions_comm _ _ _)⟩
    · rintro ⟨hother, hpositive, hweight⟩
      rcases Nat.lt_trichotomy node other with hless | rfl | hgreater
      · exact .inl ⟨hless, hother, hpositive, hweight⟩
      · rw [directions_self harcs hnode] at hweight
        omega
      · exact .inr ⟨hgreater, hnode, hpositive, hweight.trans (directions_comm _ _ _)⟩
  refine List.Perm.eq_of_pairwise' (List.pairwise_insertionSort EdgeBefore _)
    ((symmetricRow_pairwise size targets node).imp fun hless => .inl hless) ?_
  exact (List.perm_insertionSort EdgeBefore _).trans hperm

def symmetricDegrees (size : Nat) (targets : Nat → List Nat) : List Nat :=
  (List.range size).map fun node => (symmetricRow size targets node).length

/-- The rows, one behind the other. -/
def symmetricEdges (size : Nat) (targets : Nat → List Nat) : List (Nat × Nat) :=
  (List.range size).flatMap (symmetricRow size targets)

def adjacencyOffsets (edgeIdLimit : Nat) (degrees : List Nat) : Except Error (List Nat) :=
  runningOffsets
    (fun next => reject (edgeIdLimit < next)
      (.invalidArgument "Community partition adjacency exceeds KaMinPar EdgeID"))
    "partition adjacency" 0 degrees

/-- The projected graph, made undirected. -/
def symmetrised (size : Nat) (targets : Nat → List Nat) (directedEdgeCount undirectedEdgeCount : Nat)
    (offsets : List Nat) : PartitionGraph where
  offsets
  neighbors := (symmetricEdges size targets).map Prod.fst
  nodeWeights := List.replicate size 1
  edgeWeights := (symmetricEdges size targets).map Prod.snd
  directedEdgeCount
  undirectedEdgeCount

theorem connectPairs_eq (hpairs : IsPairs size targets pairs) (harcs : Arcs size targets)
    (edgeIdLimit : Nat) (sorting : LoopOrder size) (directedEdgeCount : Nat) :
    connectPairs edgeIdLimit sorting directedEdgeCount pairs =
      (adjacencyOffsets edgeIdLimit (symmetricDegrees size targets) >>= fun offsets =>
        .ok (symmetrised size targets directedEdgeCount pairs.length offsets)) := by
  set width : Nat → Nat := fun node => (symmetricRow size targets node).length with hwidth
  have hlengths : ∀ node < size, (itemsOf (pairItems pairs) node).length = width node := by
    intro node hnode
    rw [hwidth]
    dsimp only
    rw [← hpairs.sorted_row harcs hnode, (List.perm_insertionSort EdgeBefore _).length_eq]
  have hdegrees : countItems size (pairItems pairs) = symmetricDegrees size targets := by
    rw [countItems_eq]
    exact List.map_congr_left fun node hnode => hlengths node (List.mem_range.mp hnode)
  rw [connectPairs, hdegrees]
  change (adjacencyOffsets edgeIdLimit (symmetricDegrees size targets) >>= fun offsets => _) = _
  cases hoffsets : adjacencyOffsets edgeIdLimit (symmetricDegrees size targets) with
  | error failure => rfl
  | ok offsets =>
    have hcount : (symmetricDegrees size targets).length = size := by
      rw [symmetricDegrees, List.length_map, List.length_range]
    obtain ⟨hlength, hrows⟩ := @runningOffsets_spec _ _ width _ _ _ (fun row hrow => by
      rw [hcount] at hrow
      rw [symmetricDegrees, List.getElem?_map, List.getElem?_range hrow]
      rfl) hoffsets
    rw [hcount] at hlength hrows
    have hstarts : ∀ row ≤ size, offsets.getD row 0 = rowStart width row := by
      intro row hrow
      rw [List.getD_eq_getElem?_getD, hrows row hrow, Nat.zero_add, Option.getD_some]
    have hlast : offsets.getLastD 0 = rowStart width size := by
      rw [List.getLastD_eq_getLast?, List.getLast?_eq_getElem?, hlength, Nat.add_sub_cancel,
        hrows size (Nat.le_refl size), Nat.zero_add, Option.getD_some]
    have hedges : scatter (pairItems pairs) offsets
        (List.replicate (offsets.getLastD 0) (0, 0)) =
          (List.range size).flatMap (itemsOf (pairItems pairs)) := by
      refine scatter_eq (hpairs.items_lt) hlengths (fun row hrow => ?_) ?_
      · rw [hrows row (Nat.le_of_lt hrow), Nat.zero_add]
      · rw [List.length_replicate, hlast]
    have hsorted : parallelFor sorting.val (fun node edges =>
        patch edges (offsets.getD node 0) ((subspan edges (offsets.getD node 0)
          (offsets.getD (node + 1) 0 - offsets.getD node 0)).insertionSort EdgeBefore))
        ((List.range size).flatMap (itemsOf (pairItems pairs))) = symmetricEdges size targets := by
      rw [parallelFor_congr sorting (fun node hnode edges => by
        rw [hstarts node (Nat.le_of_lt hnode), hstarts (node + 1) hnode, rowStart,
          Nat.add_sub_cancel_left, ← rowOf])]
      have hrewritten := @parallelFor_patch _ width size
        ((List.range size).flatMap (itemsOf (pairItems pairs))) sorting
        (fun _ row => row.insertionSort EdgeBefore)
        (fun row _ values hvalues => by
          rw [(List.perm_insertionSort EdgeBefore values).length_eq, hvalues])
        (length_flatMap_rows hlengths)
      rw [hrewritten]
      refine List.flatMap_congr fun node hnode => ?_
      have hnode := List.mem_range.mp hnode
      rw [rowOf_flatMap hlengths hnode, hpairs.sorted_row harcs hnode]
    change Except.ok _ = Except.ok _
    rw [hedges, hsorted]
    rfl

end Rows

end SkipCell.Build

import SkipCell.Foundation.Linking

/-! # The in-memory Vamana builder

The builder links the points one after the other from an entry point near their mean, and
prunes the lists that are longer than `R` at the end. Vectors appear by their distances alone.
-/

namespace SkipCell.Vamana

open Foundation

universe uDistance uFactor

variable {Distance : Type uDistance} {Factor : Type uFactor} [LinearOrder Distance]
  [LinearOrder Factor]

/-- `params_t`, with the values that `cur_alpha` takes up to `alpha` in its rounds. -/
structure Params (Factor : Type uFactor) where
  R : Nat
  L : Nat
  C : Nat
  alpha : Factor
  curAlphas : List Factor

/-- The single-precision values that the builder computes with. -/
structure Floats (Distance : Type uDistance) (Factor : Type uFactor) where
  zeroDistance : Distance
  maxDistance : Distance
  zero : Factor
  one : Factor
  max : Factor
  divide : Distance → Distance → Factor
  /-- `static_cast<size_t>(graph_slack_factor * R)`. -/
  slack : Nat → Nat

/-- The vectors of a build. -/
structure Points (Distance : Type uDistance) where
  n : Nat
  dim : Nat
  l2Squared : Nat → Nat → Distance
  toCentroid : Nat → Distance

structure BuiltGraph where
  n : Nat
  dim : Nat
  entryPoint : Nat
  adj : List (List Nat)

/-- `neighbor_queue_t::insert`. The queue is sorted, so that `lower_bound` is the first place
with a candidate that is not before the new one. -/
def neighborQueueInsert (queue : CandidateQueue Nat Distance) (id : Nat) (distance : Distance) :
    CandidateQueue Nat Distance :=
  let neighbor : Candidate Nat Distance := ⟨id, distance, false⟩
  if queue.items.any fun item => item.id = id then queue
  else if queue.items.length = queue.capacity ∧
      ¬ ∃ back ∈ queue.items.getLast?, neighbor.Before back then queue
  else
    let place := queue.items.findIdx fun item => ¬ item.Before neighbor
    let items := queue.items.take place ++ neighbor :: queue.items.drop place
    let items := if queue.capacity < items.length then items.dropLast else items
    { queue with
      items := items
      cursor := if items.length ≤ queue.cursor ∨ place < queue.cursor then place
        else queue.cursor }

/-- `vamana_builder_t`, after its constructor has raised `L` to `R`. -/
structure Builder (Distance : Type uDistance) (Factor : Type uFactor) where
  floats : Floats Distance Factor
  points : Points Distance
  params : Params Factor

namespace Builder

variable (builder : Builder Distance Factor)

def findMedoid : Nat :=
  ((List.range builder.points.n).foldl (fun (best : Nat × Distance) node =>
    if builder.points.toCentroid node < best.2 then (node, builder.points.toCentroid node)
    else best) (0, builder.floats.maxDistance)).1

/-- The search of `beam_search` around a node. -/
def bestFirst (graph : Nat → List Nat) (node : Nat) : BestFirst Nat Distance where
  distance := builder.points.l2Squared node
  neighbors := graph
  insert := neighborQueueInsert
  unseen := unseenNodes

/-- The candidates that are expanded. As many expansions as there are points leave nothing to
expand. -/
def beamSearch (graph : Nat → List Nat) (node : Nat) : List (Candidate Nat Distance) :=
  ((builder.bestFirst graph node).run builder.params.L builder.points.n [builder.findMedoid]).pool

def occlusion : Occlusion (Candidate Nat Distance) Factor where
  rounds := builder.params.curAlphas
  limit := builder.params.alpha
  zero := builder.floats.zero
  full := builder.floats.max
  raise _ selected candidate factor :=
    let distBetween := builder.points.l2Squared candidate.id selected.id
    if distBetween = builder.floats.zeroDistance then builder.floats.max
    else max factor (builder.floats.divide candidate.distance distBetween)

def occludeList (node : Nat) (pool : List (Candidate Nat Distance)) : List Nat :=
  (builder.occlusion.select builder.params.R (fun candidate => candidate.id ≠ node)
    (pool.take builder.params.C)).map Candidate.id

def prune (node : Nat) (pool : List (Candidate Nat Distance)) : List Nat :=
  if pool.isEmpty then [] else builder.occludeList node (pool.insertionSort Candidate.Before)

/-- `search_and_prune`, `inter_insert` and `make_pool` with the search and the selection of the
builder. -/
def linking : Linking Nat Distance where
  degree := builder.params.R
  slack := builder.floats.slack builder.params.R
  distance := builder.points.l2Squared
  search := builder.beamSearch
  prune := builder.prune

/-- The links of some nodes, one after the other. -/
def buildLinks (nodes : List Nat) : Nat → List Nat :=
  nodes.foldl builder.linking.linkNode fun _ => []

def pruneOverfullNodes (nodes : List Nat) (graph : Nat → List Nat) : Nat → List Nat :=
  nodes.foldl builder.linking.cleanUp graph

/-- Both passes, each over some order of the nodes. -/
def runInOrder (first second : List Nat) : Nat → List Nat :=
  builder.pruneOverfullNodes second (builder.buildLinks first)

end Builder

theorem neighborQueueInsert_cases (queue : CandidateQueue Nat Distance) (id : Nat)
    (distance : Distance) (hsound : queue.Sound) :
    neighborQueueInsert queue id distance = queue ∨ ∃ place ≤ queue.items.length,
      neighborQueueInsert queue id distance = queue.insertAt id distance place := by
  unfold neighborQueueInsert
  extract_lets neighbor place items kept
  split
  · exact .inl rfl
  · split
    · exact .inl rfl
    · next hroom =>
        have hplace : place ≤ queue.items.length := List.findIdx_le_length
        have hlength : items.length = queue.items.length + 1 := by
          simp only [items, List.length_append, List.length_take, List.length_cons,
            List.length_drop]
          omega
        have hsize := hsound.length
        have hcursor := hsound.cursor_le
        refine .inr ⟨place, hplace, ?_⟩
        have hkept : kept = items.take queue.capacity := by
          simp only [kept]
          split
          · rw [List.dropLast_eq_take]
            congr 1
            omega
          · exact (List.take_of_length_le (by omega)).symm
        -- With a full queue the place is before the last candidate.
        have hback : queue.items.length = queue.capacity → place < queue.items.length := by
          intro hfull
          have hbefore : ∃ back ∈ queue.items.getLast?, neighbor.Before back := by
            by_contra hnone
            exact hroom ⟨hfull, hnone⟩
          obtain ⟨back, hback, hbefore⟩ := hbefore
          exact List.findIdx_lt_length_of_exists
            ⟨back, List.mem_of_mem_getLast? hback, decide_eq_true hbefore.asymm⟩
        rw [CandidateQueue.insertAt, hkept]
        congr 1
        by_cases hfull : queue.items.length = queue.capacity
        · have hlt := hback hfull
          rw [List.length_take, hlength]
          congr 1
          apply propext
          omega
        · rw [List.length_take, hlength]
          congr 1
          apply propext
          omega

namespace Builder

variable (builder : Builder Distance Factor)

omit [LinearOrder Factor] in
theorem bestFirst_lawful (graph : Nat → List Nat) (node : Nat) :
    (builder.bestFirst graph node).Lawful where
  insert := neighborQueueInsert_cases
  unseen visited nodes _ := unseenNodes_spec visited nodes

variable {builder}

omit [LinearOrder Factor] in
theorem findMedoid_lt (hpoints : 0 < builder.points.n) : builder.findMedoid < builder.points.n := by
  refine List.foldlRecOn (motive := fun best : Nat × Distance => best.1 < builder.points.n) _ _ hpoints ?_
  intro best hbest node hnode
  split
  · exact List.mem_range.mp hnode
  · exact hbest

omit [LinearOrder Factor] in
theorem beamSearch_finished {graph : Nat → List Nat}
    (hgraph : ∀ node < builder.points.n, (graph node).Nodup ∧
      ∀ neighbor ∈ graph node, neighbor < builder.points.n)
    {node : Nat} (hnode : node < builder.points.n) :
    BestFirst.Finished ((builder.bestFirst graph node).run builder.params.L builder.points.n
      [builder.findMedoid]) := by
  have hmedoid := findMedoid_lt (Nat.zero_lt_of_lt hnode)
  have hfinished := BestFirst.run_finished (builder.bestFirst_lawful graph node) builder.params.L
    (Finset.range builder.points.n) (List.nodup_singleton builder.findMedoid) (by simpa using hmedoid)
    fun id hid => by simpa [bestFirst] using hgraph id (Finset.mem_range.mp hid)
  rwa [Finset.card_range] at hfinished

/-- No round reaches the factor of what is selected. -/
def Finite (builder : Builder Distance Factor) : Prop :=
  ∀ curAlpha ∈ builder.params.curAlphas, curAlpha < builder.floats.max

theorem occlusion_lawful (hfinite : builder.Finite) : builder.occlusion.Lawful where
  rounds_lt := hfinite
  le_raise _ selected candidate factor hfull := by
    simp only [occlusion]
    split
    · exact le_rfl
    · exact hfull.trans (le_max_left _ _)

theorem linking_lawful (hfinite : builder.Finite) :
    builder.linking.Lawful (· < builder.points.n) where
  search graph hgraph node hnode := by
    have hmedoid := findMedoid_lt (Nat.zero_lt_of_lt hnode)
    have hsearching : BestFirst.Searching (· < builder.points.n)
        ((builder.bestFirst graph node).run builder.params.L builder.points.n
          [builder.findMedoid]) :=
      BestFirst.run_searching (builder.bestFirst_lawful graph node) _ _
        (List.nodup_singleton builder.findMedoid) (by simpa using hmedoid) hgraph
    exact ⟨hsearching.pool, fun candidate hcandidate =>
      hsearching.valid _ (hsearching.poolSeen candidate hcandidate)⟩
  prune node pool hnodup := by
    change (builder.prune node pool).Nodup ∧ _ ∧ _ ∧ (builder.prune node pool).length ≤ _
    rw [show builder.linking.prune = builder.prune from rfl, prune]
    split
    · simp
    · have htaken : (((pool.insertionSort Candidate.Before).take builder.params.C).map
          Candidate.id).Nodup := nodup_take_insertionSort hnodup builder.params.C
      obtain ⟨hdistinct, hmem, hlength⟩ := map_select_spec (occlusion_lawful hfinite)
        builder.params.R (fun candidate => decide (candidate.id ≠ node)) htaken
      refine ⟨hdistinct, fun hnode => ?_, fun id hid => ?_, hlength⟩
      · obtain ⟨candidate, -, hsame, hkept⟩ := hmem node hnode
        exact of_decide_eq_true hkept hsame
      · obtain ⟨candidate, hcandidate, rfl, -⟩ := hmem id hid
        exact List.mem_map_of_mem
          ((List.mem_insertionSort _).mp (List.mem_of_mem_take hcandidate))

variable {first second : List Nat}

theorem ordered_buildLinks (hfinite : builder.Finite) {nodes : List Nat}
    (hnodes : ∀ node ∈ nodes, node < builder.points.n) :
    builder.linking.Ordered (· < builder.points.n) (builder.buildLinks nodes) :=
  Linking.Ordered.linkNodes (linking_lawful hfinite)
    (fun _ => ⟨.nil, by simp, by simp, Nat.zero_le _⟩) hnodes

theorem runInOrder_listed (hfinite : builder.Finite)
    (hfirst : ∀ node ∈ first, node < builder.points.n)
    (hsecond : ∀ node < builder.points.n, node ∈ second) {node : Nat}
    (hnode : node < builder.points.n) :
    Linking.Listed (· < builder.points.n) builder.params.R node
      (builder.runInOrder first second node) := by
  obtain ⟨hordered, hshort⟩ :=
    (ordered_buildLinks hfinite hfirst).cleanUps (linking_lawful hfinite) second
  exact ⟨(hordered node).nodup, (hordered node).noLoop, (hordered node).valid,
    hshort node (hsecond node hnode)⟩

/-- While lists may be longer than `R` until the end, they name other points of the build, each
once, after every node, reverse edge and selection. -/
theorem runInOrder_ordered (hfinite : builder.Finite)
    (hfirst : ∀ node ∈ first, node < builder.points.n)
    (hsecond : ∀ node < builder.points.n, node ∈ second) :
    (∀ before node after, first = before ++ node :: after → ∀ done rest,
      builder.linking.searchAndPrune (builder.buildLinks before) node = done ++ rest →
      builder.linking.Ordered (· < builder.points.n) (builder.linking.interInsert node done
        (Function.update (builder.buildLinks before) node
          (builder.linking.searchAndPrune (builder.buildLinks before) node)))) ∧
    (∀ before after, second = before ++ after →
      builder.linking.Ordered (· < builder.points.n)
        (builder.pruneOverfullNodes before (builder.buildLinks first))) ∧
    ∀ node < builder.points.n, Linking.Listed (· < builder.points.n) builder.params.R node
      (builder.runInOrder first second node) := by
  have hlawful := linking_lawful hfinite
  have hlinked := ordered_buildLinks hfinite hfirst
  refine ⟨?_, fun before _ _ => (hlinked.cleanUps hlawful before).1,
    fun node hnode => runInOrder_listed hfinite hfirst hsecond hnode⟩
  rintro before node after rfl done rest hneighbors
  have hbefore := ordered_buildLinks hfinite fun other hother =>
    hfirst other (List.mem_append_left _ hother)
  exact hbefore.partlyLinked hlawful (hfirst node (by simp)) hneighbors

/-- Points at one distance of each other, and factors in tenths with one value above the largest
finite one. -/
def equidistant (n R : Nat) (curAlphas : List Nat) : Builder Nat Nat where
  floats :=
    { zeroDistance := 0
      maxDistance := 1000
      zero := 0
      one := 10
      max := 1000
      divide := fun dist distBetween => 10 * dist / distBetween
      slack := fun R => 13 * R / 10 }
  points :=
    { n := n
      dim := n
      l2Squared := fun first second => if first = second then 0 else 2
      toCentroid := fun _ => 1 }
  params := { R := R, L := R, C := 750, alpha := curAlphas.getLastD 10, curAlphas := curAlphas }

/-- The last of six points, which are linked in their order. -/
theorem runInOrder_ordered_equidistant :
    Linking.Listed (· < 6) 4 5
      ((equidistant 6 4 [10, 12]).runInOrder (List.range 6) (List.range 6) 5) :=
  (@runInOrder_ordered _ _ _ _ (equidistant 6 4 [10, 12]) (List.range 6) (List.range 6)
    (by simp [Finite, equidistant]) (by simp [equidistant]) (by simp [equidistant])).2.2 5
    (by simp [equidistant])

/-- No search of a build is cut off before it has nothing left to expand. -/
theorem searches_finished (hfinite : builder.Finite) {before : List Nat} {node : Nat}
    (hbefore : ∀ other ∈ before, other < builder.points.n) (hnode : node < builder.points.n) :
    BestFirst.Finished ((builder.bestFirst (builder.buildLinks before) node).run
      builder.params.L builder.points.n [builder.findMedoid]) := by
  have hordered := ordered_buildLinks hfinite hbefore
  exact beamSearch_finished (fun other _ => ⟨(hordered other).nodup, (hordered other).valid⟩) hnode

theorem searches_finished_equidistant :
    BestFirst.Finished (((equidistant 6 4 [10, 12]).bestFirst
      ((equidistant 6 4 [10, 12]).buildLinks [0, 1]) 2).run 4 6 [0]) :=
  searches_finished (by simp [Finite, equidistant]) (by simp [equidistant]) (by simp [equidistant])

/-- The first of six points has five neighbors after a reverse edge, where `R` is four. With an
infinite `alpha` a selected point is selected once more. -/
theorem not_runInOrder_ordered :
    ¬ ((equidistant 6 4 [10, 12]).linking.interInsert 5 [0]
        (Function.update ((equidistant 6 4 [10, 12]).buildLinks [0, 1, 2, 3, 4]) 5
          ((equidistant 6 4 [10, 12]).linking.searchAndPrune
            ((equidistant 6 4 [10, 12]).buildLinks [0, 1, 2, 3, 4]) 5)) 0).length ≤ 4 ∧
    ¬ ((equidistant 2 2 [10, 12, 1001]).runInOrder [0, 1] [0, 1] 1).Nodup := by
  decide +kernel

end Builder

end SkipCell.Vamana

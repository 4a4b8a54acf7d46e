import SkipCell.Foundation.BudgetedSearch

/-! # The breadth-first cache

`cache_bfs_levels` chooses the nodes to cache level by level from the medoids, until it has as many
as it may. The level that it stops in is cached in part.
-/

namespace SkipCell.Search

open Foundation

/-- The lists of two sets of nodes. -/
structure BfsLevels (Node : Type) where
  cachedNodes : List Node
  currentLevel : List Node

/-- A tenth of the points, as `std::llround` rounds it, with the other bounds. -/
def cacheTarget (numPoints numNodesToCache : Nat) : Nat :=
  min numNodesToCache (min (max 1 ((numPoints + 5) / 10)) numPoints)

namespace BfsLevels

variable {Node : Type} [DecidableEq Node] (edges : Node → List Node) (target : Nat)

def found (levels : BfsLevels Node) : List Node := levels.cachedNodes ++ levels.currentLevel

/-- The neighbors of one node, and whether `cache_target_reached`. -/
def addNeighbors : List Node → BfsLevels Node → BfsLevels Node × Bool
  | [], levels => (levels, false)
  | neighborId :: neighbors, levels =>
    let levels := if neighborId ∈ levels.found then levels
      else { levels with currentLevel := levels.currentLevel ++ [neighborId] }
    if target ≤ levels.found.length then (levels, true) else addNeighbors neighbors levels

/-- The nodes of a block, whose reads succeed. -/
def expandBlock : List Node → BfsLevels Node → BfsLevels Node × Bool
  | [], levels => (levels, false)
  | node :: nodes, levels =>
    match addNeighbors target (edges node) levels with
    | (levels, true) => (levels, true)
    | (levels, false) => expandBlock nodes levels

def expandBlocks : List (List Node) → BfsLevels Node → BfsLevels Node
  | [], levels => levels
  | nodes :: blocks, levels =>
    match expandBlock edges target nodes levels with
    | (levels, true) => levels
    | (levels, false) => expandBlocks blocks levels

def kBlockSize : Nat := 1024

variable [LinearOrder Node]

/-- A round of the loop, with the reads in blocks. -/
def nextLevel (levels : BfsLevels Node) : BfsLevels Node :=
  let expanded := levels.currentLevel.filter (· ∉ levels.cachedNodes)
  let nodesToExpand := expanded.mergeSort (· ≤ ·)
  expandBlocks edges target (nodesToExpand.toChunksAux (kBlockSize - 1) 0).2
    ⟨levels.cachedNodes ++ expanded, []⟩

def searchLevels : Nat → BfsLevels Node → BfsLevels Node
  | 0, levels => levels
  | fuel + 1, levels =>
    if levels.found.length < target ∧ levels.currentLevel ≠ [] then
      searchLevels fuel (levels.nextLevel edges target)
    else levels

end BfsLevels

/-- The first of the medoids, as many as there is room for. -/
def firstLevel {Node : Type} [DecidableEq Node] (target : Nat) : List Node → List Node → List Node
  | [], level => level
  | medoid :: medoids, level =>
    if level.length < target then
      firstLevel target medoids (if medoid ∈ level then level else level ++ [medoid])
    else level

/-- `node_list`, up to the order in which the sets are gone through. -/
def cacheBfsLevels {numPoints : Nat} (edges : Fin numPoints → List (Fin numPoints))
    (medoids : List (Fin numPoints)) (numNodesToCache : Nat) : List (Fin numPoints) :=
  if numNodesToCache = 0 ∨ numPoints = 0 then []
  else
    let target := cacheTarget numPoints numNodesToCache
    (BfsLevels.searchLevels edges target target ⟨[], firstLevel target medoids []⟩).found

section Levels

variable {Node : Type} {edges : Node → List Node} {medoids : List Node} {target : Nat}

/-- The nodes that a medoid reaches in at most so many steps. -/
def Within (edges : Node → List Node) (medoids : List Node) : Nat → Node → Prop
  | 0, node => node ∈ medoids
  | steps + 1, node =>
    Within edges medoids steps node ∨
      ∃ source, Within edges medoids steps source ∧ node ∈ edges source

theorem Within.mono {node : Node} {first second : Nat} (hle : first ≤ second)
    (hnode : Within edges medoids first node) : Within edges medoids second node := by
  induction hle with
  | refl => exact hnode
  | step _ ih => exact .inl ih

theorem toChunksAux_flatten (size : Nat) (nodes : List Node) (room : Nat) :
    (nodes.toChunksAux size room).1 ++ (nodes.toChunksAux size room).2.flatten = nodes := by
  induction nodes generalizing room with
  | nil => rfl
  | cons node nodes ih => cases room <;> simp [List.toChunksAux, ih]

variable [DecidableEq Node]

theorem takeUnseen_push {room : Nat} (hroom : 0 < room) (seen nodes : List Node) (node : Node) :
    takeUnseen room seen (node :: nodes) =
      if node ∈ seen then takeUnseen room seen nodes
      else node :: takeUnseen (room - 1) (seen ++ [node]) nodes := by
  cases room with
  | zero => cases hroom
  | succ room =>
    rw [takeUnseen, Nat.add_sub_cancel, takeUnseen_congr (fun other => ?_) room nodes]
    simp [or_comm]

theorem firstLevel_eq (target : Nat) (medoids level : List Node) :
    firstLevel target medoids level =
      level ++ takeUnseen (target - level.length) level medoids := by
  induction medoids generalizing level with
  | nil => cases target - level.length <;> simp [firstLevel, takeUnseen]
  | cons medoid medoids ih =>
    rw [firstLevel]
    split
    next hless =>
      rw [takeUnseen_push (by omega), ih]
      by_cases hmem : medoid ∈ level
      · rw [if_pos hmem, if_pos hmem]
      · rw [if_neg hmem, if_neg hmem, List.length_append, List.length_singleton, Nat.sub_add_eq,
          List.append_assoc, List.singleton_append]
    next hfull => rw [Nat.sub_eq_zero_of_le (Nat.not_lt.mp hfull), takeUnseen, List.append_nil]

namespace BfsLevels

theorem addNeighbors_eq (neighbors : List Node) {levels : BfsLevels Node}
    (hroom : levels.found.length < target) :
    addNeighbors target neighbors levels =
      (let fresh := takeUnseen (target - levels.found.length) levels.found neighbors
      (⟨levels.cachedNodes, levels.currentLevel ++ fresh⟩,
        decide (target ≤ (levels.found ++ fresh).length))) := by
  induction neighbors generalizing levels with
  | nil =>
    have hnone : takeUnseen (target - levels.found.length) levels.found [] = [] := by
      cases target - levels.found.length <;> rfl
    simp [addNeighbors, hnone, hroom]
  | cons neighborId neighbors ih =>
    rw [addNeighbors, takeUnseen_push (by omega)]
    by_cases hmem : neighborId ∈ levels.found
    · rw [if_pos hmem, if_pos hmem, if_neg (Nat.not_le.mpr hroom), ih hroom]
    · rw [if_neg hmem, if_neg hmem]
      have hfound : found ⟨levels.cachedNodes, levels.currentLevel ++ [neighborId]⟩ =
          levels.found ++ [neighborId] := (List.append_assoc _ _ _).symm
      have hlength : (levels.found ++ [neighborId]).length = levels.found.length + 1 := by simp
      rw [hfound]
      split
      next hfull =>
        rw [hlength] at hfull
        have hzero : target - levels.found.length - 1 = 0 := by omega
        simp [hzero, takeUnseen, hfull]
      next hless =>
        rw [ih (by rw [hfound]; omega), hfound, hlength, Nat.sub_add_eq]
        simp

theorem expandBlock_append (first second : List Node) (levels : BfsLevels Node) :
    expandBlock edges target (first ++ second) levels =
      match expandBlock edges target first levels with
      | (levels, true) => (levels, true)
      | (levels, false) => expandBlock edges target second levels := by
  induction first generalizing levels with
  | nil => rfl
  | cons node first ih =>
    rw [List.cons_append, expandBlock, expandBlock]
    cases addNeighbors target (edges node) levels with
    | mk next reached =>
      cases reached with
      | true => rfl
      | false => exact ih next

theorem expandBlocks_eq (blocks : List (List Node)) (levels : BfsLevels Node) :
    expandBlocks edges target blocks levels =
      (expandBlock edges target blocks.flatten levels).1 := by
  induction blocks generalizing levels with
  | nil => rfl
  | cons nodes blocks ih =>
    rw [expandBlocks, List.flatten_cons, expandBlock_append]
    cases expandBlock edges target nodes levels with
    | mk next reached =>
      cases reached with
      | true => rfl
      | false => exact ih next

/-- Nodes of a level are expanded until the target is reached. -/
theorem expandBlock_spec (nodes : List Node) {levels : BfsLevels Node}
    (hnodes : ∀ node ∈ nodes, node ∈ levels.found)
    (hsearched : Searched edges medoids target levels.found (nodes ++ levels.currentLevel))
    (hroom : levels.found.length < target) :
    ∃ fresh, (expandBlock edges target nodes levels).1 =
        ⟨levels.cachedNodes, levels.currentLevel ++ fresh⟩ ∧
      (∀ node ∈ fresh, ∃ source ∈ nodes, node ∈ edges source) ∧
      Searched edges medoids target (levels.found ++ fresh) (levels.currentLevel ++ fresh) := by
  induction nodes generalizing levels with
  | nil => exact ⟨[], by simp [expandBlock], by simp, by simpa using hsearched⟩
  | cons node nodes ih =>
    have hfound : ∀ fresh, found ⟨levels.cachedNodes, levels.currentLevel ++ fresh⟩ =
        levels.found ++ fresh := fun fresh => (List.append_assoc _ _ _).symm
    rw [expandBlock, addNeighbors_eq _ hroom]
    have hexpanded := @Searched.expand _ _ edges medoids target levels.found _ node
      (nodes ++ (levels.currentLevel ++
        takeUnseen (target - levels.found.length) levels.found (edges node))) hsearched
      (hnodes node List.mem_cons_self) (by simp; tauto) (by simp)
    have hfresh : ∀ other ∈ takeUnseen (target - levels.found.length) levels.found (edges node),
        other ∈ edges node := fun other hother => (mem_of_mem_takeUnseen hother).1
    revert hexpanded hfresh
    generalize takeUnseen (target - levels.found.length) levels.found (edges node) = fresh
    intro hexpanded hfresh
    by_cases hfull : target ≤ (levels.found ++ fresh).length
    · simp only [hfull, decide_true]
      refine ⟨fresh, rfl, fun other hother => ⟨node, List.mem_cons_self, hfresh other hother⟩,
        { hexpanded with expanded := .inl (le_antisymm hexpanded.bounded hfull) }⟩
    · simp only [hfull, decide_false]
      obtain ⟨later, hnext, hsources, hlast⟩ :=
        @ih ⟨levels.cachedNodes, levels.currentLevel ++ fresh⟩
        (fun other hother => by
          rw [hfound]
          exact List.mem_append_left _ (hnodes other (List.mem_cons_of_mem _ hother)))
        (by rwa [hfound]) (by rw [hfound]; exact Nat.not_le.mp hfull)
      rw [hfound, List.append_assoc, List.append_assoc] at hlast
      refine ⟨fresh ++ later, by rw [hnext, List.append_assoc], fun other hother => ?_, hlast⟩
      rcases List.mem_append.mp hother with hown | hlater
      · exact ⟨node, List.mem_cons_self, hfresh other hown⟩
      · obtain ⟨source, hsource, hedge⟩ := hsources other hlater
        exact ⟨source, List.mem_cons_of_mem _ hsource, hedge⟩

end BfsLevels

variable (edges medoids target) in
/-- The levels before one are found, and one more in part, unless there is room. -/
structure AtLevel (levels : BfsLevels Node) (depth : Nat) : Prop where
  searched : Searched edges medoids target levels.found levels.currentLevel
  sound : ∀ node ∈ levels.found, Within edges medoids (depth + 1) node
  complete : ∀ node, Within edges medoids depth node → node ∈ levels.found
  whole : target ≤ levels.found.length ∨ ∀ node ∈ levels.found, Within edges medoids depth node

variable [LinearOrder Node]

theorem AtLevel.next {levels : BfsLevels Node} {depth : Nat}
    (hlevel : AtLevel edges medoids target levels depth)
    (hroom : levels.found.length < target) :
    ∃ later, AtLevel edges medoids target (levels.nextLevel edges target) later ∧
      (levels.nextLevel edges target).cachedNodes.length = levels.found.length := by
  have hnodup := hlevel.searched.nodup
  have hexpanded : levels.currentLevel.filter (· ∉ levels.cachedNodes) = levels.currentLevel := by
    refine List.filter_eq_self.mpr fun node hnode => decide_eq_true fun hcached => ?_
    exact (List.nodup_append.mp hnodup).2.2 node hcached node hnode rfl
  have hblocks : ((levels.currentLevel.mergeSort (· ≤ ·)).toChunksAux
      (BfsLevels.kBlockSize - 1) 0).2.flatten = levels.currentLevel.mergeSort (· ≤ ·) := by
    have hall := toChunksAux_flatten (BfsLevels.kBlockSize - 1)
      (levels.currentLevel.mergeSort (· ≤ ·)) 0
    cases hnodes : levels.currentLevel.mergeSort (· ≤ ·) with
    | nil => rfl
    | cons node nodes =>
      rw [hnodes] at hall
      exact hall
  have hstart : BfsLevels.found ⟨levels.cachedNodes ++ levels.currentLevel, []⟩ = levels.found :=
    List.append_nil _
  obtain ⟨fresh, hnext, hsources, hsearched⟩ := @BfsLevels.expandBlock_spec _ edges medoids target _
    (levels.currentLevel.mergeSort (· ≤ ·)) ⟨levels.cachedNodes ++ levels.currentLevel, []⟩
    (by rw [hstart]; simp [BfsLevels.found]; tauto)
    (by
      rw [hstart, List.append_nil]
      exact { hlevel.searched with
        expanded := hlevel.searched.expanded.imp_right fun h node hnode =>
          (h node hnode).imp_left (by simp) })
    (by rwa [hstart])
  rw [hstart, List.nil_append] at hsearched
  rw [List.nil_append] at hnext
  rw [BfsLevels.nextLevel, hexpanded, BfsLevels.expandBlocks_eq, hblocks, hnext]
  have hwhole := hlevel.whole.resolve_left (Nat.not_le.mpr hroom)
  have hsound : ∀ node ∈ levels.found ++ fresh, Within edges medoids (depth + 1) node := by
    intro node hnode
    rcases List.mem_append.mp hnode with hold | hnew
    · exact .inl (hwhole node hold)
    · obtain ⟨source, hsource, hedge⟩ := hsources node hnew
      exact .inr ⟨source, hwhole source (List.mem_append_right _ (List.mem_mergeSort.mp hsource)),
        hedge⟩
  by_cases hfull : target ≤ (levels.found ++ fresh).length
  · exact ⟨depth, ⟨hsearched, hsound, fun node hnode =>
      List.mem_append_left _ (hlevel.complete node hnode), .inl hfull⟩, rfl⟩
  · refine ⟨depth + 1, ⟨hsearched, fun node hnode => .inl (hsound node hnode), ?_, .inr hsound⟩,
      rfl⟩
    rintro node (hbefore | ⟨source, hsource, hedge⟩)
    · exact List.mem_append_left _ (hlevel.complete node hbefore)
    · have hold := hlevel.complete source hsource
      have hexpanded := hsearched.expanded.resolve_left fun hlength => hfull hlength.ge
      refine (hexpanded source (List.mem_append_left _ hold)).resolve_left (fun hnew => ?_) hedge
      exact (List.nodup_append.mp hsearched.nodup).2.2 source hold source hnew rfl

theorem AtLevel.search {fuel : Nat} {levels : BfsLevels Node} {depth : Nat}
    (hlevel : AtLevel edges medoids target levels depth)
    (hfuel : target ≤ fuel + levels.cachedNodes.length) :
    ∃ later, AtLevel edges medoids target (levels.searchLevels edges target fuel) later ∧
      ((levels.searchLevels edges target fuel).currentLevel = [] ∨
        target ≤ (levels.searchLevels edges target fuel).found.length) := by
  induction fuel generalizing levels depth with
  | zero =>
    have hle : levels.cachedNodes.length ≤ levels.found.length := by simp [BfsLevels.found]
    exact ⟨depth, hlevel, .inr (by rw [BfsLevels.searchLevels]; omega)⟩
  | succ fuel ih =>
    rw [BfsLevels.searchLevels]
    split
    next hgoes =>
      obtain ⟨later, hnext, hlength⟩ := hlevel.next hgoes.1
      have hsome := List.length_pos_iff.mpr hgoes.2
      have hfound : levels.found.length = levels.cachedNodes.length + levels.currentLevel.length :=
        List.length_append
      exact ih hnext (by omega)
    next hends =>
      rw [not_and_or, not_lt, not_not] at hends
      exact ⟨depth, hlevel, hends.symm⟩

end Levels

section Cache

variable {numPoints : Nat} (edges : Fin numPoints → List (Fin numPoints))
  (medoids : List (Fin numPoints)) (numNodesToCache : Nat)

/-- As many nodes as there may be, the nearer levels first. -/
structure BreadthFirst (nodeList : List (Fin numPoints)) (target : Nat) : Prop where
  nodup : nodeList.Nodup
  reached : ∀ node ∈ nodeList, node ∈ ReachedFrom edges medoids
  length : nodeList.length = min target (ReachedFrom edges medoids).ncard
  nearer : ∀ node ∈ nodeList, ∀ steps, ¬ Within edges medoids steps node →
    ∀ other, Within edges medoids steps other → other ∈ nodeList

theorem cacheBfsLevels_breadthFirst : BreadthFirst edges medoids
    (cacheBfsLevels edges medoids numNodesToCache) (cacheTarget numPoints numNodesToCache) := by
  by_cases hnone : numNodesToCache = 0 ∨ numPoints = 0
  · have htarget : cacheTarget numPoints numNodesToCache = 0 := by
      rcases hnone with rfl | rfl <;> simp [cacheTarget]
    rw [cacheBfsLevels, if_pos hnone, htarget]
    exact ⟨List.nodup_nil, by simp, by simp, by simp⟩
  · rw [cacheBfsLevels, if_neg hnone]
    generalize cacheTarget numPoints numNodesToCache = target
    have hfirst : firstLevel target medoids [] = takeUnseen target [] medoids := firstLevel_eq _ _ _
    have hmedoids : ∀ node ∈ takeUnseen target [] medoids, node ∈ medoids :=
      fun node hnode => (mem_of_mem_takeUnseen hnode).1
    have hnodup := takeUnseen_nodup target [] medoids
    have hfinite : (ReachedFrom edges medoids).Finite := Set.toFinite _
    dsimp only
    rw [hfirst]
    rcases Nat.lt_or_ge (takeUnseen target [] medoids).length target with hless | hfull
    · have hall := subset_of_length_takeUnseen hless
      have hstart : AtLevel edges medoids target ⟨[], takeUnseen target [] medoids⟩ 0 :=
        { searched := .start hnodup (fun node => ⟨hmedoids node, fun hnode => hall hnode⟩) hless.le
            (List.Subset.refl _)
          sound := fun node hnode => .inl (hmedoids node hnode)
          complete := fun node hnode => hall hnode
          whole := .inr hmedoids }
      obtain ⟨depth, hlast, hends⟩ := hstart.search (Nat.le_refl _)
      refine ⟨hlast.searched.nodup, hlast.searched.reached, hlast.searched.length_eq hends hfinite,
        fun node hnode steps hbeyond other hother => hlast.complete other ?_⟩
      rcases Nat.lt_or_ge depth steps with hbefore | hbehind
      · exact absurd (Within.mono hbefore (hlast.sound node hnode)) hbeyond
      · exact Within.mono hbehind hother
    · have hlength : (takeUnseen target [] medoids).length = target :=
        le_antisymm (length_takeUnseen _ _ _) hfull
      have hstays : BfsLevels.searchLevels edges target target ⟨[], takeUnseen target [] medoids⟩ =
          ⟨[], takeUnseen target [] medoids⟩ := by
        cases target with
        | zero => rfl
        | succ fuel => exact if_neg fun hgoes => Nat.not_lt.mpr hfull hgoes.1
      have hreached : ∀ node ∈ takeUnseen target [] medoids, node ∈ ReachedFrom edges medoids :=
        fun node hnode => ⟨node, hmedoids node hnode, .refl⟩
      rw [hstays]
      refine ⟨hnodup, hreached, ?_, fun node hnode steps hbeyond => absurd
        (Within.mono (Nat.zero_le _) (hmedoids node hnode)) hbeyond⟩
      have hle := Set.ncard_le_ncard (s := {node | node ∈ takeUnseen target [] medoids}) hreached
        hfinite
      rw [← List.coe_toFinset, Set.ncard_coe_finset, List.toFinset_card_of_nodup hnodup] at hle
      exact hlength.trans (min_eq_left (hlength ▸ hle)).symm

end Cache

end SkipCell.Search

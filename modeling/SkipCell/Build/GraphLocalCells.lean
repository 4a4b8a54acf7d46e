import SkipCell.Build.GraphLocal
import SkipCell.Build.Symmetrised
import SkipCell.Foundation.AffinityGrowth

/-! # Graph-local Cells inside the Communities

The nodes of a Community are divided along the graph: a Cell takes the node that the most of its
nodes are joined with. Communities are divided in parallel, and their Cells are appended one
Community after the other.
-/

namespace SkipCell.Build

open Foundation Sidecar

/-- An entry of the queue, compared field by field. -/
structure FrontierEntry where
  affinity : Nat
  degree : Nat
  reversedNode : Nat
  deriving DecidableEq

def FrontierEntry.Below (left right : FrontierEntry) : Prop :=
  left.affinity < right.affinity ∨ left.affinity = right.affinity ∧
    (left.degree < right.degree ∨ left.degree = right.degree ∧
      left.reversedNode < right.reversedNode)

instance (left right : FrontierEntry) : Decidable (left.Below right) :=
  inferInstanceAs (Decidable (_ ∨ _))

def topEntry (first : FrontierEntry) (others : List FrontierEntry) : FrontierEntry :=
  others.foldl (fun top entry => if top.Below entry then entry else top) first

/-- `top` and `pop` of `std::priority_queue`. -/
def popEntry : List FrontierEntry → Option (FrontierEntry × List FrontierEntry)
  | [] => none
  | first :: others =>
    let top := topEntry first others
    some (top, (first :: others).erase top)

def communityNodes (communityCount : Nat) (nodeToCommunity : List UInt32) : List (List Nat) :=
  collectItems communityCount
    (nodeToCommunity.zipIdx.map fun (community, node) => (community.toNat, node))

/-- Where a node is among those of its Community. -/
def localPositions (pointCount : Nat) (communities : List (List Nat)) : List Nat :=
  (communities.flatMap List.zipIdx).foldl
    (fun positions (node, position) => positions.set node position)
    (List.replicate pointCount 0)

structure CommunityView where
  graph : PostLinkGraph
  nodeToCommunity : List UInt32
  community : Nat
  nodes : List Nat
  positions : List Nat

namespace CommunityView

variable (view : CommunityView)

def nodeAt (position : Nat) : Nat := view.nodes.getD position 0

def positionOf (node : Nat) : Nat := view.positions.getD node 0

/-- An arc inside the Community joins both of its ends. -/
def joins : List (Nat × Nat) :=
  (List.range view.nodes.length).flatMap fun source =>
    (view.graph.adjacency (view.nodeAt source)).flatMap fun target =>
      if (view.nodeToCommunity.getD target 0).toNat = view.community then
        [(source, view.positionOf target), (view.positionOf target, source)]
      else []

def adjacencyRows : List (List Nat) :=
  (collectItems view.nodes.length view.joins).map fun row => (sortIds row).dedup

def adjacency (position : Nat) : List Nat := view.adjacencyRows.getD position []

/-- Nodes of larger degree come first, and smaller IDs among those of one degree. -/
def SeedBefore (left right : Nat) : Prop :=
  2 ^ 64 - 1 - (view.adjacency left).length < 2 ^ 64 - 1 - (view.adjacency right).length ∨
    2 ^ 64 - 1 - (view.adjacency left).length = 2 ^ 64 - 1 - (view.adjacency right).length ∧
      view.nodeAt left ≤ view.nodeAt right

instance : DecidableRel view.SeedBefore := fun _ _ => inferInstanceAs (Decidable (_ ∨ _))

def seeds : List Nat := (List.range view.nodes.length).insertionSort view.SeedBefore

def entry (affinity position : Nat) : FrontierEntry where
  affinity
  degree := (view.adjacency position).length
  reversedNode := 2 ^ 32 - 1 - view.nodeAt position

def candidate (entry : FrontierEntry) : Nat :=
  view.positionOf (2 ^ 32 - 1 - entry.reversedNode)

def queue : AffinityQueue FrontierEntry where
  make := view.entry
  affinityOf := FrontierEntry.affinity
  nodeOf := view.candidate
  intact entry := decide ((view.adjacency (view.candidate entry)).length = entry.degree)
  pop := popEntry

/-- The Cells of the Community, as lists of nodes. -/
def clusters (target : Nat) : List (List Nat) :=
  (groupByAffinity view.queue view.adjacency target view.seeds).map (List.map view.nodeAt)

end CommunityView

/-- What the loop over the Communities sees of one of them. -/
def communityView (graph : PostLinkGraph) (nodeToCommunity : List UInt32)
    (communities : List (List Nat)) (community : Nat) : CommunityView where
  graph
  nodeToCommunity
  community
  nodes := communities.getD community []
  positions := localPositions graph.pointCount communities

def appendCommunityCells (vectors : List Single) (communities : List (List Nat))
    (clustered : List (List (List Nat))) (community : Nat) (result : BuildResult) :
    Except Error BuildResult := do
  let record ← element .outOfBounds result.index.communities community
  let sectorBegin := UInt64.ofNat result.index.sectors.length
  let cellBegin := result.index.cells.length
  let placed ← scan (fun cellOrdinal cluster =>
      appendGraphLocalCell vectors (.ofNat community) (.ofNat cellOrdinal)
        (cluster.map UInt32.ofNat)) 0 (clustered.getD community []) result
  let sector : Sector :=
    { communityId := .ofNat community
      sectorId := kPoleSectorId
      nodeCount := .ofNat (communities.getD community []).length
      axisIndex := kInvalidAxisIndex
      minimumRadius := .zero
      maximumRadius := record.radius
      maximumAngle := floatPi
      cellBegin := .ofNat cellBegin
      cellCount := .ofNat (placed.index.cells.length - cellBegin) }
  let closed : Community :=
    { record with
      sectorBegin
      sectorCount := 1
      cellBegin := .ofNat cellBegin
      cellCount := sector.cellCount
      graphOnly := false }
  .ok
    { placed with index :=
      { placed.index with
        sectors := placed.index.sectors ++ [sector]
        communities := placed.index.communities.set community closed } }

/-- `build_graph_local_cells`. The threads take the Communities in some order. -/
def buildGraphLocalCells (graph : PostLinkGraph) (vectors : List Single)
    (communities : List (List Nat)) (order : LoopOrder communities.length)
    (result : BuildResult) : Except Error BuildResult :=
  let view := communityView graph result.index.nodeToCommunity communities
  let clustered := parallelFor order.val
    (fun community clustered => clustered.set community
      ((view community).clusters result.index.config.cellTargetSize.toNat))
    (List.replicate communities.length [])
  scan (fun _ => appendCommunityCells vectors communities clustered) 0
    (List.range communities.length) result

theorem topEntry_mem (first : FrontierEntry) (others : List FrontierEntry) :
    topEntry first others ∈ first :: others := by
  induction others generalizing first with
  | nil => exact List.mem_cons_self
  | cons entry others ih =>
    have htop : topEntry first (entry :: others) =
        topEntry (if first.Below entry then entry else first) others := rfl
    rw [htop]
    rcases List.mem_cons.mp (ih (if first.Below entry then entry else first)) with hhead | hlater
    · rw [hhead]
      split
      · exact List.mem_cons_of_mem _ List.mem_cons_self
      · exact List.mem_cons_self
    · exact List.mem_cons_of_mem _ (List.mem_cons_of_mem _ hlater)

theorem affinity_le_topEntry (first : FrontierEntry) (others : List FrontierEntry) :
    ∀ entry ∈ first :: others, entry.affinity ≤ (topEntry first others).affinity := by
  induction others generalizing first with
  | nil =>
    intro entry hentry
    rw [List.mem_singleton.mp hentry]
    exact Nat.le_refl _
  | cons second others ih =>
    have htop : topEntry first (second :: others) =
        topEntry (if first.Below second then second else first) others := rfl
    rw [htop]
    have hlargest := ih (if first.Below second then second else first)
    have hhead := hlargest _ List.mem_cons_self
    have hboth : first.affinity ≤ (if first.Below second then second else first).affinity ∧
        second.affinity ≤ (if first.Below second then second else first).affinity := by
      split
      · next hbelow =>
          rw [FrontierEntry.Below] at hbelow
          exact ⟨by omega, Nat.le_refl _⟩
      · next hnot =>
          rw [FrontierEntry.Below] at hnot
          exact ⟨Nat.le_refl _, by omega⟩
    intro entry hentry
    rcases List.mem_cons.mp hentry with rfl | hentry
    · exact hboth.1.trans hhead
    · rcases List.mem_cons.mp hentry with rfl | hentry
      · exact hboth.2.trans hhead
      · exact hlargest entry (List.mem_cons_of_mem _ hentry)

section

variable {entries rest : List FrontierEntry} {first : FrontierEntry}
  (hpop : popEntry entries = some (first, rest))
include hpop

theorem popEntry_perm : entries.Perm (first :: rest) := by
  cases entries with
  | nil => cases hpop
  | cons entry others =>
    obtain ⟨rfl, rfl⟩ := Prod.mk.inj (Option.some.inj hpop)
    exact List.perm_cons_erase (topEntry_mem entry others)

theorem popEntry_largest :
    ∀ entry ∈ entries, entry.affinity ≤ first.affinity := by
  cases entries with
  | nil => cases hpop
  | cons entry others =>
    obtain ⟨rfl, rfl⟩ := Prod.mk.inj (Option.some.inj hpop)
    exact affinity_le_topEntry entry others

end

/-- An arc leads from one of the nodes to the other. -/
def PostLinkGraph.Joined (graph : PostLinkGraph) (first second : Nat) : Prop :=
  second ∈ graph.adjacency first ∨ first ∈ graph.adjacency second

instance (graph : PostLinkGraph) (first second : Nat) : Decidable (graph.Joined first second) :=
  inferInstanceAs (Decidable (_ ∨ _))

namespace CommunityView

variable {view : CommunityView}

/-- The nodes are those of the Community, and the positions are theirs. -/
structure Whole (view : CommunityView) : Prop where
  nodup : view.nodes.Nodup
  mem : ∀ node, node ∈ view.nodes ↔ node < view.graph.pointCount ∧
    (view.nodeToCommunity.getD node 0).toNat = view.community
  positions : ∀ position node, view.nodes[position]? = some node → view.positionOf node = position

variable {position first second : Nat}

theorem nodeAt_eq (hposition : position < view.nodes.length) :
    view.nodes[position]? = some (view.nodeAt position) := by
  rw [nodeAt, List.getD_eq_getElem?_getD, List.getElem?_eq_getElem hposition, Option.getD_some]

theorem nodeAt_mem (hposition : position < view.nodes.length) :
    view.nodeAt position ∈ view.nodes := List.mem_of_getElem? (nodeAt_eq hposition)

theorem Whole.positionOf_nodeAt (hwhole : view.Whole) (hposition : position < view.nodes.length) :
    view.positionOf (view.nodeAt position) = position := hwhole.positions _ _ (nodeAt_eq hposition)

theorem Whole.nodeAt_positionOf (hwhole : view.Whole) {node : Nat} (hnode : node ∈ view.nodes) :
    view.positionOf node < view.nodes.length ∧ view.nodeAt (view.positionOf node) = node := by
  obtain ⟨position, hposition⟩ := List.mem_iff_getElem?.mp hnode
  have hless := (List.getElem_of_getElem? hposition).1
  rw [hwhole.positions position node hposition]
  exact ⟨hless, Option.some.inj ((nodeAt_eq hless).symm.trans hposition)⟩

theorem Whole.nodeAt_inj (hwhole : view.Whole) (hfirst : first < view.nodes.length)
    (hsecond : second < view.nodes.length) (hsame : view.nodeAt first = view.nodeAt second) :
    first = second := by
  rw [← hwhole.positionOf_nodeAt hfirst, hsame, hwhole.positionOf_nodeAt hsecond]

theorem Whole.nodeAt_lt (hwhole : view.Whole) (hposition : position < view.nodes.length) :
    view.nodeAt position < view.graph.pointCount :=
  ((hwhole.mem _).mp (nodeAt_mem hposition)).1

theorem Whole.mem_joins (hwhole : view.Whole) :
    (first, second) ∈ view.joins ↔ first < view.nodes.length ∧ second < view.nodes.length ∧
      view.graph.Joined (view.nodeAt first) (view.nodeAt second) := by
  have harc : ∀ source target, source < view.nodes.length →
      target ∈ view.graph.adjacency (view.nodeAt source) →
      (view.nodeToCommunity.getD target 0).toNat = view.community → target ∈ view.nodes :=
    fun source target _ harc hcommunity =>
      (hwhole.mem target).mpr ⟨view.graph.adjacency_lt harc, hcommunity⟩
  simp only [joins, List.mem_flatMap, List.mem_range]
  constructor
  · rintro ⟨source, hsource, target, htarget, hjoin⟩
    split at hjoin
    · next hcommunity =>
        obtain ⟨hposition, hback⟩ :=
          hwhole.nodeAt_positionOf (harc source target hsource htarget hcommunity)
        simp only [List.mem_cons, Prod.mk.injEq, List.not_mem_nil, or_false] at hjoin
        rcases hjoin with ⟨rfl, rfl⟩ | ⟨rfl, rfl⟩
        · exact ⟨hsource, hposition, .inl (by rwa [hback])⟩
        · exact ⟨hposition, hsource, .inr (by rwa [hback])⟩
    · exact absurd hjoin List.not_mem_nil
  · rintro ⟨hfirst, hsecond, hforward | hback⟩
    · refine ⟨first, hfirst, _, hforward, ?_⟩
      rw [if_pos ((hwhole.mem _).mp (nodeAt_mem hsecond)).2, hwhole.positionOf_nodeAt hsecond]
      exact List.mem_cons_self
    · refine ⟨second, hsecond, _, hback, ?_⟩
      rw [if_pos ((hwhole.mem _).mp (nodeAt_mem hfirst)).2, hwhole.positionOf_nodeAt hfirst]
      exact List.mem_cons_of_mem _ List.mem_cons_self

theorem adjacency_eq (hposition : position < view.nodes.length) :
    view.adjacency position = (sortIds (itemsOf view.joins position)).dedup := by
  rw [adjacency, adjacencyRows, collectItems_eq, List.getD_eq_getElem?_getD, List.getElem?_map,
    List.getElem?_map, List.getElem?_range hposition]
  rfl

theorem Whole.mem_adjacency (hwhole : view.Whole) (hfirst : first < view.nodes.length) :
    second ∈ view.adjacency first ↔
      second < view.nodes.length ∧ view.graph.Joined (view.nodeAt first) (view.nodeAt second) := by
  rw [adjacency_eq hfirst, List.mem_dedup, mem_sortIds, mem_itemsOf, hwhole.mem_joins]
  exact and_iff_right hfirst

theorem Whole.adjacency_ok (hwhole : view.Whole) (hposition : position < view.nodes.length) :
    (view.adjacency position).Nodup ∧
      ∀ neighbor ∈ view.adjacency position, neighbor < view.nodes.length := by
  refine ⟨?_, fun neighbor hneighbor => ((hwhole.mem_adjacency hposition).mp hneighbor).1⟩
  rw [adjacency_eq hposition]
  exact List.nodup_dedup _

theorem adjacency_out (hposition : view.nodes.length ≤ position) :
    view.adjacency position = [] := by
  rw [adjacency, List.getD_eq_getElem?_getD, List.getElem?_eq_none, Option.getD_none]
  rw [adjacencyRows, List.length_map, collectItems_eq, List.length_map, List.length_range]
  exact hposition

theorem Whole.queue_lawful (hwhole : view.Whole) : view.queue.Lawful view.nodes.length := by
  have hback : ∀ affinity position, position < view.nodes.length →
      view.candidate (view.entry affinity position) = position := by
    intro affinity position hposition
    have hsmall := view.graph.small
    have hnode : view.nodeAt position < view.graph.neighbors.length := hwhole.nodeAt_lt hposition
    rw [candidate, entry, show 2 ^ 32 - 1 - (2 ^ 32 - 1 - view.nodeAt position) =
      view.nodeAt position by omega]
    exact hwhole.positionOf_nodeAt hposition
  refine ⟨fun _ _ _ => rfl, hback, fun affinity position hposition => ?_, fun entries hsome => ?_,
    popEntry_perm, popEntry_largest⟩
  · change decide ((view.adjacency (view.candidate (view.entry affinity position))).length =
      (view.entry affinity position).degree) = true
    rw [hback affinity position hposition]
    exact decide_eq_true rfl
  · obtain ⟨first, others, rfl⟩ := List.exists_cons_of_ne_nil hsome
    exact ⟨_, _, rfl⟩

theorem seeds_perm (view : CommunityView) : view.seeds.Perm (List.range view.nodes.length) :=
  List.perm_insertionSort _ _

end CommunityView

/-- The number of the nodes of a Cell that are joined with the node. -/
def cellAffinity (graph : PostLinkGraph) (cell : List Nat) (node : Nat) : Nat :=
  cell.countP fun member => graph.Joined member node

/-- Two nodes of the Cell are joined. -/
def JoinedInCell (graph : PostLinkGraph) (cell : List Nat) (first second : Nat) : Prop :=
  first ∈ cell ∧ second ∈ cell ∧ graph.Joined first second

/-- A Cell of a Community, where other nodes have Cells before: it is connected, every node but
the first had the largest affinity when it was taken, and a Cell that is not full was closed
only when no node without a Cell was joined with it. -/
structure GrownCell (graph : PostLinkGraph) (target : Nat) (members before cell : List Nat) :
    Prop where
  nonempty : cell ≠ []
  bounded : cell.length ≤ target
  connected : ∀ start ∈ cell, ∀ finish ∈ cell,
    Relation.ReflTransGen (JoinedInCell graph cell) start finish
  taken : ∀ front node rest, cell = front ++ node :: rest → front ≠ [] →
    0 < cellAffinity graph front node ∧ ∀ other ∈ members, other ∉ before → other ∉ front →
      cellAffinity graph front other ≤ cellAffinity graph front node
  closed : cell.length < target → ∀ other ∈ members, other ∉ before → other ∉ cell →
    ∀ member ∈ cell, ¬ graph.Joined member other

namespace CommunityView

variable {view : CommunityView}

section

variable (hwhole : view.Whole) {front : List Nat} {position : Nat}
  (hfront : ∀ member ∈ front, member < view.nodes.length) (hposition : position < view.nodes.length)
include hwhole hfront hposition

theorem Whole.cellAffinity_eq :
    cellAffinity view.graph (front.map view.nodeAt) (view.nodeAt position) =
      affinityTo view.adjacency front position := by
  rw [cellAffinity, affinityTo, List.countP_map]
  refine List.countP_congr fun member hmember => ?_
  simp only [Function.comp_apply, decide_eq_true_eq]
  rw [hwhole.mem_adjacency (hfront member hmember)]
  exact (and_iff_right hposition).symm

theorem Whole.nodeAt_mem_map :
    view.nodeAt position ∈ front.map view.nodeAt ↔ position ∈ front := by
  rw [List.mem_map]
  constructor
  · rintro ⟨member, hmember, hsame⟩
    rwa [← hwhole.nodeAt_inj (hfront member hmember) hposition hsame]
  · exact fun hmember => ⟨position, hmember, rfl⟩

end

theorem Whole.grownCell (hwhole : view.Whole) {target : Nat} {front group : List Nat}
    (hfront : ∀ member ∈ front, member < view.nodes.length)
    (hgroup : ∀ member ∈ group, member < view.nodes.length)
    (hgreedy : Greedy view.adjacency view.nodes.length target (· ∈ front) group) :
    GrownCell view.graph target view.nodes (front.map view.nodeAt) (group.map view.nodeAt) := by
  have hmutual : ∀ first second, second ∈ view.adjacency first → first ∈ view.adjacency second := by
    intro first second hneighbor
    by_cases hfirst : first < view.nodes.length
    · obtain ⟨hsecond, hjoined⟩ := (hwhole.mem_adjacency hfirst).mp hneighbor
      exact (hwhole.mem_adjacency hsecond).mpr ⟨hfirst, hjoined.symm⟩
    · rw [adjacency_out (Nat.le_of_not_lt hfirst)] at hneighbor
      exact absurd hneighbor List.not_mem_nil
  refine ⟨by simpa using hgreedy.nonempty, by simpa using hgreedy.bounded, ?_, ?_, ?_⟩
  · intro start hstart finish hfinish
    obtain ⟨first, hfirst, rfl⟩ := List.mem_map.mp hstart
    obtain ⟨last, hlast, rfl⟩ := List.mem_map.mp hfinish
    refine (hgreedy.taken.connected hmutual hfirst hlast).lift view.nodeAt fun left right hjoined => ?_
    exact ⟨List.mem_map_of_mem hjoined.1, List.mem_map_of_mem hjoined.2.1,
      ((hwhole.mem_adjacency (hgroup left hjoined.1)).mp hjoined.2.2).2⟩
  · intro taken node rest hsplit hsome
    obtain ⟨inner, behind, rfl, rfl, hbehind⟩ := List.map_eq_append_iff.mp hsplit
    obtain ⟨position, others, rfl, rfl, rfl⟩ := List.map_eq_cons_iff.mp hbehind
    have hinner : ∀ member ∈ inner, member < view.nodes.length := fun member hmember =>
      hgroup member (List.mem_append_left _ hmember)
    have hposition : position < view.nodes.length :=
      hgroup position (List.mem_append_right _ List.mem_cons_self)
    obtain ⟨hpositive, hlargest⟩ := hgreedy.taken inner position others rfl (by simpa using hsome)
    rw [hwhole.cellAffinity_eq hinner hposition]
    refine ⟨hpositive, fun other hother hbefore hout => ?_⟩
    obtain ⟨hinside, hback⟩ := hwhole.nodeAt_positionOf hother
    rw [← hback] at hbefore hout ⊢
    rw [hwhole.nodeAt_mem_map hfront hinside] at hbefore
    rw [hwhole.nodeAt_mem_map hinner hinside] at hout
    rw [hwhole.cellAffinity_eq hinner hinside]
    exact hlargest _ hinside hbefore hout
  · intro hshort other hother hbefore hout member hmember hjoined
    obtain ⟨hinside, hback⟩ := hwhole.nodeAt_positionOf hother
    rw [← hback] at hbefore hout
    rw [hwhole.nodeAt_mem_map hfront hinside] at hbefore
    rw [hwhole.nodeAt_mem_map hgroup hinside] at hout
    have hzero := hgreedy.closed (by simpa using hshort) _ hinside hbefore hout
    rw [← hwhole.cellAffinity_eq hgroup hinside, hback, cellAffinity, List.countP_eq_zero] at hzero
    exact hzero member hmember (decide_eq_true hjoined)

theorem Whole.clusters_spec (hwhole : view.Whole) {target : Nat} (htarget : 1 ≤ target) :
    (view.clusters target).flatten.Perm view.nodes ∧
      ∀ front cell rest, view.clusters target = front ++ cell :: rest →
        GrownCell view.graph target view.nodes front.flatten cell := by
  obtain ⟨hpartitions, hgreedy⟩ := groupByAffinity_spec hwhole.queue_lawful htarget
    (fun position hposition => hwhole.adjacency_ok hposition) view.seeds_perm
  set groups := groupByAffinity view.queue view.adjacency target view.seeds with hgroups
  have hnodes : (List.range view.nodes.length).map view.nodeAt = view.nodes := by
    apply List.ext_getElem?
    intro position
    by_cases hposition : position < view.nodes.length
    · rw [List.getElem?_map, List.getElem?_range hposition, nodeAt_eq hposition, Option.map_some]
    · rw [List.getElem?_eq_none, List.getElem?_eq_none (Nat.le_of_not_lt hposition)]
      rw [List.length_map, List.length_range]
      exact Nat.le_of_not_lt hposition
  constructor
  · have hperm : groups.flatten.Perm (List.range view.nodes.length) :=
      (List.perm_ext_iff_of_nodup hpartitions.nodup List.nodup_range).mpr fun position => by
        rw [hpartitions.mem, List.mem_range]
    have hmapped := hperm.map view.nodeAt
    rwa [hnodes, List.map_flatten] at hmapped
  · intro front cell rest hsplit
    obtain ⟨inner, behind, hinner, rfl, hbehind⟩ := List.map_eq_append_iff.mp hsplit
    obtain ⟨group, others, rfl, rfl, rfl⟩ := List.map_eq_cons_iff.mp hbehind
    rw [← List.map_flatten]
    have hbelow : ∀ group ∈ groups, ∀ member ∈ group, member < view.nodes.length :=
      fun group hgroup member hmember =>
        (hpartitions.mem member).mp (List.mem_flatten.mpr ⟨group, hgroup, hmember⟩)
    refine hwhole.grownCell (fun member hmember => ?_) (hbelow group (by rw [hgroups, hinner]; simp))
      (hgreedy inner group others hinner)
    obtain ⟨before, hbefore, hmember⟩ := List.mem_flatten.mp hmember
    exact hbelow before (by rw [hgroups, hinner]; exact List.mem_append_left _ hbefore) member hmember

end CommunityView

end SkipCell.Build

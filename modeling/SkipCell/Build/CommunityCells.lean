import SkipCell.Build.GraphLocalCells
import SkipCell.Foundation.Scatter

/-! # The Cells of all Communities

Every node is in one Community, so the Communities are divided apart from each other. Their Cells
are numbered in the order of the Communities.
-/

namespace SkipCell.Build

open Foundation Sidecar

section Communities

variable {graph : PostLinkGraph} {nodeToCommunity : List UInt32} {count community : Nat}

/-- The nodes of a Community, in ascending order. -/
def nodesOf (nodeToCommunity : List UInt32) (community : Nat) : List Nat :=
  itemsOf (nodeToCommunity.zipIdx.map fun (community, node) => (community.toNat, node)) community

theorem mem_nodesOf {node : Nat} : node ∈ nodesOf nodeToCommunity community ↔
    node < nodeToCommunity.length ∧ (nodeToCommunity.getD node 0).toNat = community := by
  rw [nodesOf, mem_itemsOf, List.mem_map]
  constructor
  · rintro ⟨⟨id, place⟩, hplace, hsame⟩
    obtain ⟨rfl, rfl⟩ := Prod.mk.inj hsame
    have hid := List.mem_zipIdx_iff_getElem?.mp hplace
    refine ⟨(List.getElem_of_getElem? hid).1, ?_⟩
    rw [List.getD_eq_getElem?_getD, hid, Option.getD_some]
  · rintro ⟨hnode, hcommunity⟩
    have hid := List.getElem?_eq_getElem hnode
    refine ⟨(nodeToCommunity[node], node), List.mem_zipIdx_iff_getElem?.mpr hid, ?_⟩
    rw [List.getD_eq_getElem?_getD, hid, Option.getD_some] at hcommunity
    exact Prod.ext hcommunity rfl

theorem nodesOf_nodup (nodeToCommunity : List UInt32) (community : Nat) :
    (nodesOf nodeToCommunity community).Nodup := by
  have hpairs : (nodeToCommunity.zipIdx.map fun (community, node) =>
      (community.toNat, node)).Nodup := by
    apply List.Nodup.of_map Prod.snd
    rw [List.map_map]
    change (nodeToCommunity.zipIdx.map Prod.snd).Nodup
    rw [List.zipIdx_map_snd]
    exact List.nodup_range'
  refine hpairs.filterMap fun first second node hfirst hsecond => ?_
  simp only [Option.mem_def, Option.ite_none_right_eq_some, Option.some.injEq] at hfirst hsecond
  exact Prod.ext (hfirst.1.trans hsecond.1.symm) (hfirst.2.trans hsecond.2.symm)

theorem communityNodes_eq (count : Nat) (nodeToCommunity : List UInt32) :
    communityNodes count nodeToCommunity = (List.range count).map (nodesOf nodeToCommunity) :=
  collectItems_eq _ _

theorem getElem?_communityNodes (hcommunity : community < count) :
    (communityNodes count nodeToCommunity)[community]? = some (nodesOf nodeToCommunity community) := by
  rw [communityNodes_eq, List.getElem?_map, List.getElem?_range hcommunity, Option.map_some]

theorem length_communityNodes (count : Nat) (nodeToCommunity : List UInt32) :
    (communityNodes count nodeToCommunity).length = count := by
  rw [communityNodes_eq, List.length_map, List.length_range]

theorem communityView_whole (hnodes : nodeToCommunity.length = graph.pointCount)
    (hcommunity : community < count) :
    (communityView graph nodeToCommunity (communityNodes count nodeToCommunity)
      community).Whole where
  nodup := by
    change ((communityNodes count nodeToCommunity).getD community []).Nodup
    rw [List.getD_eq_getElem?_getD, getElem?_communityNodes hcommunity, Option.getD_some]
    exact nodesOf_nodup nodeToCommunity community
  mem node := by
    change node ∈ (communityNodes count nodeToCommunity).getD community [] ↔ _
    rw [List.getD_eq_getElem?_getD, getElem?_communityNodes hcommunity, Option.getD_some,
      mem_nodesOf, hnodes]
    rfl
  positions position node hposition := by
    change ((communityNodes count nodeToCommunity).getD community [])[position]? = _ at hposition
    rw [List.getD_eq_getElem?_getD, getElem?_communityNodes hcommunity, Option.getD_some]
      at hposition
    have hmember := mem_nodesOf.mp (List.mem_of_getElem? hposition)
    have hwrites : ∀ place, (node, place) ∈
        (communityNodes count nodeToCommunity).flatMap List.zipIdx ↔
          ∃ other < count, (nodesOf nodeToCommunity other)[place]? = some node := by
      intro place
      rw [communityNodes_eq, List.mem_flatMap]
      simp only [List.mem_map, List.mem_range, exists_exists_and_eq_and,
        List.mem_zipIdx_iff_getElem?]
    have hslot : (localPositions graph.pointCount (communityNodes count nodeToCommunity))[node]? =
        some position := by
      refine getElem?_foldl_set ?_ ((hwrites position).mpr ⟨community, hcommunity, hposition⟩) ?_
      · rw [List.length_replicate, ← hnodes]
        exact hmember.1
      · intro place hplace
        obtain ⟨other, -, hother⟩ := (hwrites place).mp hplace
        have hsame := (mem_nodesOf.mp (List.mem_of_getElem? hother)).2
        rw [hmember.2] at hsame
        rw [← hsame] at hother
        have hless := (List.getElem_of_getElem? hother).1
        exact (List.getElem?_inj hless (nodesOf_nodup nodeToCommunity community)).mp
          (hother.trans hposition.symm)
    change (localPositions graph.pointCount (communityNodes count nodeToCommunity)).getD node 0 =
      position
    rw [List.getD_eq_getElem?_getD, hslot, Option.getD_some]

end Communities

/-- The first Communities have their Cells, and the records that number them. -/
structure CommunitiesPlaced (before after : BuildResult) (clustered : List (List (List Nat)))
    (done : Nat) : Prop where
  appended : GroupsAppended before after (clustered.take done).flatten
  count : after.index.communities.length = before.index.communities.length
  ranges : ∀ community < done, ∃ record, after.index.communities[community]? = some record ∧
    record.cellBegin =
      .ofNat (before.index.cells.length + (clustered.take community).flatten.length) ∧
    record.cellCount = .ofNat (clustered.getD community []).length

section Run

variable {graph : PostLinkGraph} {result : BuildResult} {clustered : List (List (List Nat))}

theorem take_succ_flatten {done : Nat} (hdone : done < clustered.length) :
    (clustered.take (done + 1)).flatten =
      (clustered.take done).flatten ++ clustered.getD done [] := by
  rw [List.take_add_one, List.flatten_append, List.getD_eq_getElem?_getD,
    List.getElem?_eq_getElem hdone, Option.toList_some, List.flatten_singleton, Option.getD_some]

/-- What the Cells need to be appended. -/
structure Clustered (graph : PostLinkGraph) (clustered : List (List (List Nat))) : Prop where
  nonempty : ∀ cells ∈ clustered, ∀ cell ∈ cells, cell ≠ []
  inside : ∀ cells ∈ clustered, ∀ node ∈ cells.flatten, node < graph.pointCount

theorem CommunitiesPlaced.step {state : BuildResult} (hready : ReadyForCells graph result)
    (hclustered : Clustered graph clustered) (hcount : clustered.length = result.index.communities.length)
    {vectors : List Single} {communities : List (List Nat)} {done : Nat}
    (hdone : done < clustered.length) (hplaced : CommunitiesPlaced result state clustered done) :
    ∃ next, appendCommunityCells vectors communities clustered done state = .ok next ∧
      CommunitiesPlaced result next clustered (done + 1) := by
  have hinside : done < state.index.communities.length := by
    rw [hplaced.count, ← hcount]
    exact hdone
  have hcells : clustered.getD done [] ∈ clustered := by
    rw [List.getD_eq_getElem?_getD, List.getElem?_eq_getElem hdone, Option.getD_some]
    exact List.getElem_mem hdone
  have hslots : state.index.nodeToCell.length = graph.pointCount := by
    rw [hplaced.appended.nodeToCell, length_labelGroups, hready.nodeToCell]
  obtain ⟨placed, hscan, happended, hcommunities⟩ := @appendGroups_ok vectors (.ofNat done)
    (clustered.getD done []) graph.pointCount 0 state (hclustered.nonempty _ hcells) graph.small
    (hclustered.inside _ hcells) hslots (hplaced.appended.records.trans hready.records)
    (by rw [hplaced.appended.config]; exact hready.blocks)
  have hall := hplaced.appended.trans happended
  rw [← take_succ_flatten hdone] at hall
  refine ⟨_, bind_ok.mpr ⟨_, element_eq_ok.mpr (List.getElem?_eq_getElem hinside),
    bind_ok.mpr ⟨placed, hscan, rfl⟩⟩, ⟨hall.cells, hall.nodeToCell, hall.records,
    hall.packets, hall.config⟩, ?_, fun community hcommunity => ?_⟩
  · dsimp only
    rw [List.length_set, hcommunities, hplaced.count]
  · dsimp only
    rcases Nat.lt_or_eq_of_le (Nat.le_of_lt_succ hcommunity) with hbefore | rfl
    · rw [List.getElem?_set_ne (Nat.ne_of_gt hbefore), hcommunities]
      exact hplaced.ranges community hbefore
    · refine ⟨_, List.getElem?_set_self (by rwa [hcommunities]), ?_, ?_⟩
      · exact congrArg UInt64.ofNat hplaced.appended.length
      · exact congrArg UInt32.ofNat (by rw [happended.length, Nat.add_sub_cancel_left])

theorem placeCommunities_ok (hready : ReadyForCells graph result)
    (hclustered : Clustered graph clustered) (hcount : clustered.length = result.index.communities.length)
    (vectors : List Single) (communities : List (List Nat)) :
    ∃ built, scan (fun _ => appendCommunityCells vectors communities clustered) 0
        (List.range clustered.length) result = .ok built ∧
      CommunitiesPlaced result built clustered clustered.length := by
  have hstart : CommunitiesPlaced result result clustered 0 :=
    ⟨.refl result, rfl, fun community hcommunity => absurd hcommunity (Nat.not_lt_zero _)⟩
  obtain ⟨built, hscan, hplaced⟩ := @scan_total _ _ _
    (fun _ => appendCommunityCells vectors communities clustered)
    (fun done state => CommunitiesPlaced result state clustered done)
    (List.range clustered.length) 0 result hstart fun index community state hcommunity hplaced => by
      have hless := (List.getElem_of_getElem? hcommunity).1
      rw [List.length_range] at hless
      rw [List.getElem?_range hless] at hcommunity
      obtain rfl := Option.some.inj hcommunity
      rw [Nat.zero_add] at hplaced ⊢
      exact hplaced.step hready hclustered hcount hless
  rw [List.length_range, Nat.zero_add] at hplaced
  exact ⟨built, hscan, hplaced⟩

end Run

/-- The Cells of the built index: those of a Community have its nodes, have grown along the
graph, and are the range that its record names; the packets and the array of the Cells of the
nodes agree with them. -/
structure CellsBuilt (graph : PostLinkGraph) (target : Nat) (before built : BuildResult)
    (clustered : List (List (List Nat))) : Prop where
  communities : clustered.length = before.index.communities.length
  nodes : ∀ (community : Nat) (cells : List (List Nat)), clustered[community]? = some cells →
    cells.flatten.Perm (nodesOf before.index.nodeToCommunity community)
  grown : ∀ (community : Nat) (front : List (List Nat)) (cell : List Nat) (rest : List (List Nat)),
    clustered[community]? = some (front ++ cell :: rest) →
      GrownCell graph target (nodesOf before.index.nodeToCommunity community) front.flatten cell
  ranges : ∀ (community : Nat) (cells : List (List Nat)), clustered[community]? = some cells →
    ∃ record : Community, built.index.communities[community]? = some record ∧
      record.cellBegin = .ofNat (clustered.take community).flatten.length ∧
      record.cellCount.toNat = cells.length
  cells : built.index.cells.map (fun cell => (cell.cellId, cell.nodeCount)) =
    clustered.flatten.mapIdx fun position cell => (.ofNat position, .ofNat cell.length)
  packets : built.packetNodeIds =
    before.packetNodeIds ++ clustered.flatten.flatten.map UInt32.ofNat
  numbers : ∀ (number : Nat) (cell : List Nat), clustered.flatten[number]? = some cell →
    (labelled (UInt32.ofNat number) built.index.nodeToCell).Perm cell

section Cells

variable {graph : PostLinkGraph} {result : BuildResult} {target : Nat}

theorem clusters_partitions {nodeToCommunity : List UInt32} {clustered : List (List (List Nat))}
    (hmembers : nodeToCommunity.length = graph.pointCount)
    (hknown : ∀ community ∈ nodeToCommunity, community.toNat < clustered.length)
    (hnodes : ∀ (community : Nat) (cells : List (List Nat)), clustered[community]? = some cells →
      cells.flatten.Perm (nodesOf nodeToCommunity community))
    (hsizes : ∀ cells ∈ clustered, ∀ cell ∈ cells, 0 < cell.length ∧ cell.length ≤ target) :
    Partitions target graph.pointCount clustered.flatten := by
  refine ⟨?_, fun node => ?_, fun cell hcell => ?_⟩
  · rw [List.flatten_flatten]
    refine List.nodup_flatten.mpr ⟨fun nodes hnodes' => ?_, ?_⟩
    · obtain ⟨cells, hcells, rfl⟩ := List.mem_map.mp hnodes'
      obtain ⟨community, hcommunity⟩ := List.mem_iff_getElem?.mp hcells
      exact (hnodes community cells hcommunity).nodup_iff.mpr (nodesOf_nodup _ _)
    · rw [List.pairwise_map, List.pairwise_iff_getElem]
      intro first second hfirst hsecond hless node hleft hright
      have hin := mem_nodesOf.mp
        ((hnodes first _ (List.getElem?_eq_getElem hfirst)).mem_iff.mp hleft)
      have hout := mem_nodesOf.mp
        ((hnodes second _ (List.getElem?_eq_getElem hsecond)).mem_iff.mp hright)
      exact absurd (hin.2.symm.trans hout.2) (Nat.ne_of_lt hless)
  · rw [List.flatten_flatten, List.mem_flatten, ← hmembers]
    constructor
    · rintro ⟨nodes, hnodes', hnode⟩
      obtain ⟨cells, hcells, rfl⟩ := List.mem_map.mp hnodes'
      obtain ⟨community, hcommunity⟩ := List.mem_iff_getElem?.mp hcells
      exact (mem_nodesOf.mp ((hnodes community cells hcommunity).mem_iff.mp hnode)).1
    · intro hnode
      have hid := List.getElem?_eq_getElem hnode
      have hless := hknown _ (List.getElem_mem hnode)
      have hcells := List.getElem?_eq_getElem hless
      refine ⟨_, List.mem_map_of_mem (List.getElem_mem hless), ?_⟩
      refine (hnodes _ _ hcells).mem_iff.mpr (mem_nodesOf.mpr ⟨hnode, ?_⟩)
      rw [List.getD_eq_getElem?_getD, hid, Option.getD_some]
  · obtain ⟨cells, hcells, hcell⟩ := List.mem_flatten.mp hcell
    exact hsizes cells hcells cell hcell

/-- The Cells that the threads find, by Community. -/
def communityClusters (graph : PostLinkGraph) (nodeToCommunity : List UInt32)
    (count target : Nat) : List (List (List Nat)) :=
  (List.range count).map fun community =>
    (communityView graph nodeToCommunity (communityNodes count nodeToCommunity)
      community).clusters target

theorem length_communityClusters (graph : PostLinkGraph) (nodeToCommunity : List UInt32)
    (count target : Nat) :
    (communityClusters graph nodeToCommunity count target).length = count := by
  rw [communityClusters, List.length_map, List.length_range]

section Clusters

variable {nodeToCommunity : List UInt32} {count : Nat}

section

variable (hmembers : nodeToCommunity.length = graph.pointCount)
include hmembers

theorem communityClusters_spec (htarget : 1 ≤ target) {community : Nat} {cells : List (List Nat)}
    (hcells : (communityClusters graph nodeToCommunity count target)[community]? = some cells) :
    cells.flatten.Perm (nodesOf nodeToCommunity community) ∧
      ∀ front cell rest, cells = front ++ cell :: rest →
        GrownCell graph target (nodesOf nodeToCommunity community) front.flatten cell := by
  have hless := (List.getElem_of_getElem? hcells).1
  rw [length_communityClusters] at hless
  rw [communityClusters, List.getElem?_map, List.getElem?_range hless, Option.map_some] at hcells
  have hnodes : (communityView graph nodeToCommunity (communityNodes count nodeToCommunity)
      community).nodes = nodesOf nodeToCommunity community := by
    change (communityNodes count nodeToCommunity).getD community [] = _
    rw [List.getD_eq_getElem?_getD, getElem?_communityNodes hless, Option.getD_some]
  have hspec := (communityView_whole hmembers hless).clusters_spec htarget
  rw [hnodes, Option.some.inj hcells] at hspec
  exact hspec

theorem communityClusters_sizes (htarget : 1 ≤ target) :
    ∀ cells ∈ communityClusters graph nodeToCommunity count target,
      ∀ cell ∈ cells, 0 < cell.length ∧ cell.length ≤ target := by
  intro cells hcells cell hcell
  obtain ⟨community, hcommunity⟩ := List.mem_iff_getElem?.mp hcells
  obtain ⟨front, rest, rfl⟩ := List.append_of_mem hcell
  have hgrown := (communityClusters_spec hmembers htarget hcommunity).2 front cell rest rfl
  exact ⟨List.length_pos_of_ne_nil hgrown.nonempty, hgrown.bounded⟩

theorem communityClusters_partitions
    (hknown : ∀ community ∈ nodeToCommunity, community.toNat < count) (htarget : 1 ≤ target) :
    Partitions target graph.pointCount
      (communityClusters graph nodeToCommunity count target).flatten :=
  clusters_partitions hmembers (by rwa [length_communityClusters])
    (fun _ _ hcells => (communityClusters_spec hmembers htarget hcells).1)
    (communityClusters_sizes hmembers htarget)

theorem communityClusters_clustered
    (hknown : ∀ community ∈ nodeToCommunity, community.toNat < count) (htarget : 1 ≤ target) :
    Clustered graph (communityClusters graph nodeToCommunity count target) where
  nonempty cells hcells cell hcell :=
    List.ne_nil_of_length_pos (communityClusters_sizes hmembers htarget cells hcells cell hcell).1
  inside cells hcells node hnode := by
    obtain ⟨cell, hcell, hmem⟩ := List.mem_flatten.mp hnode
    refine ((communityClusters_partitions hmembers hknown htarget).mem node).mp ?_
    exact List.mem_flatten.mpr ⟨cell, List.mem_flatten.mpr ⟨cells, hcells, hcell⟩, hmem⟩

end

end Clusters

/-- The order in which the threads take the Communities does not matter. -/
theorem buildGraphLocalCells_eq (vectors : List Single) (order : LoopOrder (communityNodes
      result.index.communities.length result.index.nodeToCommunity).length) :
    buildGraphLocalCells graph vectors
        (communityNodes result.index.communities.length result.index.nodeToCommunity) order result =
      scan (fun _ => appendCommunityCells vectors
          (communityNodes result.index.communities.length result.index.nodeToCommunity)
          (communityClusters graph result.index.nodeToCommunity result.index.communities.length
            result.index.config.cellTargetSize.toNat)) 0
        (List.range result.index.communities.length) result := by
  rw [buildGraphLocalCells, parallelFor_set order (fun community => (communityView graph
    result.index.nodeToCommunity _ community).clusters _) List.length_replicate,
    length_communityNodes]
  rfl

theorem clusterNumber_lt {groups : List (List (List Nat))}
    (hpartitions : Partitions target graph.pointCount groups.flatten) {community : Nat}
    {cells : List (List Nat)} (hcells : groups[community]? = some cells) :
    (UInt32.ofNat cells.length).toNat = cells.length := by
  refine toNat_cellNumber hpartitions graph.small ?_
  exact (List.sublist_flatten_of_mem (List.mem_of_getElem? hcells)).length_le

/-- The nodes of each Community are divided into Cells along the graph. -/
theorem buildGraphLocalCells_built (vectors : List Single) (hready : ReadyForCells graph result)
    (htarget : result.index.config.cellTargetSize ≠ 0)
    (hmembers : result.index.nodeToCommunity.length = graph.pointCount)
    (hknown : ∀ community ∈ result.index.nodeToCommunity,
      community.toNat < result.index.communities.length)
    (order : LoopOrder (communityNodes result.index.communities.length
      result.index.nodeToCommunity).length) :
    ∃ built clustered, buildGraphLocalCells graph vectors
        (communityNodes result.index.communities.length result.index.nodeToCommunity) order
        result = .ok built ∧
      CellsBuilt graph result.index.config.cellTargetSize.toNat result built clustered := by
  have hpositive : 1 ≤ result.index.config.cellTargetSize.toNat :=
    Nat.one_le_iff_ne_zero.mpr fun hzero => htarget (UInt32.toNat_inj.mp hzero)
  have hlength := length_communityClusters graph result.index.nodeToCommunity
    result.index.communities.length result.index.config.cellTargetSize.toNat
  have hpartitions := communityClusters_partitions hmembers hknown hpositive
  have hclustered := communityClusters_clustered hmembers hknown hpositive
  obtain ⟨built, hscan, hplaced⟩ := placeCommunities_ok hready hclustered hlength vectors
    (communityNodes result.index.communities.length result.index.nodeToCommunity)
  rw [hlength] at hscan
  have happended := hplaced.appended
  rw [List.take_length] at happended
  obtain ⟨added, hadded, hrecords⟩ := happended.cells
  rw [hready.cells, List.nil_append] at hadded
  rw [hready.cells, List.length_nil] at hrecords
  have hnodeToCell := happended.nodeToCell
  rw [hready.cells, List.length_nil] at hnodeToCell
  refine ⟨built, _, (buildGraphLocalCells_eq vectors order).trans hscan, hlength,
    fun community cells hcells => (communityClusters_spec hmembers hpositive hcells).1,
    fun community front cell rest hcells =>
      (communityClusters_spec hmembers hpositive hcells).2 front cell rest rfl,
    fun community cells hcells => ?_, ?_, happended.packets, fun number cell hcell => ?_⟩
  · obtain ⟨record, hrecord, hbegin, hcount⟩ :=
      hplaced.ranges community (List.getElem_of_getElem? hcells).1
    rw [hready.cells, List.length_nil, Nat.zero_add] at hbegin
    rw [List.getD_eq_getElem?_getD, hcells, Option.getD_some] at hcount
    exact ⟨record, hrecord, hbegin, by rw [hcount, clusterNumber_lt hpartitions hcells]⟩
  · rw [hadded, hrecords]
    simp only [Nat.zero_add]
  · rw [hnodeToCell]
    refine hpartitions.labelled_perm (fun first hfirst second hsecond hsame => ?_)
      hready.nodeToCell hcell
    rw [← toNat_cellNumber hpartitions graph.small (Nat.le_of_lt hfirst), hsame,
      toNat_cellNumber hpartitions graph.small (Nat.le_of_lt hsecond)]

end Cells

/-- An arc inside a Community, and a cycle over both. -/
def threeNodeGraph : PostLinkGraph where
  neighbors := [[1], [2], [0]]
  small := by decide
  inside := by simp

/-- Three nodes in two Communities, without Cells. -/
def threeNodeResult : BuildResult where
  index :=
    { twoNodes with
      pointCount := 3
      nodeToCommunity := [0, 0, 1]
      nodeToCell := [0, 0, 0]
      nodeToPacketRecord := [0, 0, 0]
      directionAxes := []
      sectors := []
      cells := []
      blocks := [] }
  packetNodeIds := []

theorem buildGraphLocalCells_built_threeNodes : ∃ built clustered,
    buildGraphLocalCells threeNodeGraph [.zero, .zero, .one]
        (communityNodes threeNodeResult.index.communities.length
          threeNodeResult.index.nodeToCommunity) (.ascending _) threeNodeResult = .ok built ∧
      CellsBuilt threeNodeGraph threeNodeResult.index.config.cellTargetSize.toNat threeNodeResult
        built clustered :=
  buildGraphLocalCells_built _ ⟨by decide, rfl, rfl, rfl, by decide⟩ (by decide) rfl
    (by simp [threeNodeResult, twoNodes]) _

end SkipCell.Build

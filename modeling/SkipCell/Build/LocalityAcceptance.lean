import SkipCell.Build.LocalityPacking
import SkipCell.Sidecar.Completeness

/-! # Repacked indexes are accepted

The arrays that the loops leave, under the Communities and the edges of the source. Every loop of
the validator accepts them, and no check looks for more than a missing hierarchy.
-/

namespace SkipCell.Build

open Foundation Sidecar

section Finished

variable {source : Index} {config : BuildConfig} {radius : Single} {profile : PqLocalityProfile}
  {arrays : PqRepack}

theorem PqLocalityProfile.length_spans (profile : PqLocalityProfile) :
    profile.spans.length = profile.cellOffsets.length - 1 := by
  have hlabels := congrArg List.length
    (labels_rowRanges 0 (profile.cellOffsets.map UInt64.toNat))
  rwa [List.length_map, List.length_range', List.length_map] at hlabels

/-- The arrays after all Cells. -/
structure FullyPacked (source : Index) (config : BuildConfig) (radius : Single)
    (profile : PqLocalityProfile) (arrays : PqRepack) : Prop where
  count : arrays.cells.length = profile.cellOffsets.length - 1
  moved : Moved source profile.orderedNodes (spread profile.spans) arrays
  blocked : Blocked config radius (spread profile.spans) arrays.blocks
  celled : Celled config radius profile.spans arrays.blocks arrays.cells

theorem packed_of_scan (hsuits : profile.Suits source) (horders : Orders profile.orderedNodes source)
    (hcount : source.pointCount.toNat < 2 ^ 32) (htarget : config.blockTargetSize ≠ 0)
    (hscan : scan (appendLocalityCell source config radius profile.orderedNodes) 0
        (profile.cellOffsets.zip (profile.cellOffsets.drop 1))
        { nodeToCell := List.replicate source.pointCount.toNat (2 ^ 32 - 1)
          nodeToPacketRecord := List.replicate source.pointCount.toNat (2 ^ 64 - 1)
          packetPayload := List.replicate (source.pointCount.toNat * source.recordBytes) 0 } =
      .ok arrays) :
    FullyPacked source config radius profile arrays := by
  have hstart : Packed source config radius profile 0
      { nodeToCell := List.replicate source.pointCount.toNat (2 ^ 32 - 1)
        nodeToPacketRecord := List.replicate source.pointCount.toNat (2 ^ 64 - 1)
        packetPayload := List.replicate (source.pointCount.toNat * source.recordBytes) 0 } := by
    refine ⟨rfl, rfl, ⟨rfl, ?_, ?_, ?_, ?_⟩, ⟨rfl, rfl, ?_⟩, ⟨rfl, rfl, ?_⟩⟩
    · exact List.length_replicate
    · exact List.length_replicate
    · exact List.length_replicate
    · exact fun position label hlabel => nomatch hlabel
    · exact fun number record hrecord => nomatch hrecord
    · exact fun number record hrecord => nomatch hrecord
  have hpacked := scan_invariant hscan
    (motive := fun done state => Packed source config radius profile done state) hstart (by
      rintro done ⟨first, last⟩ state next hpair hpacked happend
      rw [Nat.zero_add] at hpacked happend ⊢
      exact hpacked.step hsuits horders hcount htarget hpair happend)
  have hall : (profile.cellOffsets.zip (profile.cellOffsets.drop 1)).length =
      profile.spans.length := by
    rw [profile.length_spans, List.length_zip, List.length_drop, Nat.min_eq_right (Nat.sub_le _ _)]
  rw [Nat.zero_add, hall] at hpacked
  obtain ⟨hcells, -, hmoved, hblocked, hcelled⟩ := hpacked
  rw [List.take_length] at hmoved hblocked
  exact ⟨hcells.trans profile.length_spans, hmoved, hblocked, hcelled⟩

end Finished

/-- The parts of an index that a repack keeps, and the Gateways at the new packets. -/
structure Relocated (source index : Index) : Prop where
  pointCount : index.pointCount = source.pointCount
  communities : index.communities.length = source.communities.length
  nodeToCommunity : index.nodeToCommunity = source.nodeToCommunity
  communityEdgeOffsets : index.communityEdgeOffsets = source.communityEdgeOffsets
  communityEdges : index.communityEdges = source.communityEdges
  gatewayCount : index.config.gatewayCount = source.config.gatewayCount
  gatewaysLength : index.gateways.length = source.gateways.length
  gateways : ∀ (position : Nat) (gateway : Gateway), source.gateways[position]? = some gateway →
    ∃ packet, index.nodeToPacketRecord[gateway.targetNode.toNat]? = some packet ∧
      index.gateways[position]? = some { gateway with packetRecordIndex := packet }

section Relocated

variable {source index : Index}

theorem Relocated.checkGateway (hrelocated : Relocated source index) {record : Edge}
    {gatewayId : Nat} {targets next : List Nat}
    (hcheck : Sidecar.checkGateway source record gatewayId targets = .ok next) :
    Sidecar.checkGateway index record gatewayId targets = .ok next := by
  obtain ⟨gateway, hgateway, hok, rfl⟩ := checkGateway_eq_ok hcheck
  obtain ⟨packet, hpacket, hplaced⟩ := hrelocated.gateways gatewayId gateway hgateway
  simp only [Sidecar.checkGateway, bind_ok, element_eq_ok, reject_ok, not_or, not_not,
    Nat.not_le, hrelocated.pointCount, hrelocated.nodeToCommunity]
  exact ⟨_, hplaced, (), ⟨hok.sourceBound, hok.targetBound, hok.source, hok.target, hpacket⟩, rfl⟩

theorem Relocated.checkEdge (hrelocated : Relocated source index) {community edgeId : Nat}
    {state next : Nat × Option Nat}
    (hcheck : Sidecar.checkEdge source community edgeId state = .ok next) :
    Sidecar.checkEdge index community edgeId state = .ok next := by
  simp only [Sidecar.checkEdge, bind_ok] at hcheck ⊢
  obtain ⟨record, hrecord, _, hfields, gatewayEnd, hend, _, hrange, targets, htargets, hrest⟩ :=
    hcheck
  obtain ⟨found, hfound, rfl⟩ := @scan_simulates _ _ _ _ _
    (fun _ gatewayId targets => Sidecar.checkGateway index record gatewayId targets)
    (fun _ state follower => follower = state) _ _ _ _ _ htargets rfl (by
      rintro position gatewayId before follower after hplace rfl hgateway
      exact ⟨after, hrelocated.checkGateway hgateway, rfl⟩)
  refine ⟨record, ?_, (), ?_, gatewayEnd, hend, (), ?_, _, hfound, hrest⟩
  · rw [hrelocated.communityEdges]
    exact hrecord
  · rw [hrelocated.communities, hrelocated.gatewayCount]
    exact hfields
  · rw [hrelocated.gatewaysLength]
    exact hrange

theorem Relocated.checkEdges (hrelocated : Relocated source index)
    (hscan : scan (fun community (_ : Community) next =>
      checkSourceEdges source community next) 0 source.communities 0 =
        .ok source.gateways.length) :
    scan (fun community (_ : Community) next => checkSourceEdges index community next) 0
      index.communities 0 = .ok index.gateways.length := by
  obtain ⟨final, hfinal, rfl⟩ := @scan_follows _ _ _ _ _ _
    (fun community (_ : Community) next => checkSourceEdges index community next)
    (fun _ state follower => follower = state) _ _ _ _ _ _ hrelocated.communities hscan rfl (by
      rintro community record _ before follower after - - rfl hcheck
      refine ⟨after, ?_, rfl⟩
      simp only [checkSourceEdges, bind_ok] at hcheck ⊢
      obtain ⟨first, hfirst, last, hlast, ⟨reached, previous⟩, hedges, hafter⟩ := hcheck
      rw [hrelocated.communityEdgeOffsets]
      obtain ⟨found, hfound, rfl⟩ := @scan_simulates _ _ _ _ _
        (fun _ edgeId state => Sidecar.checkEdge index (0 + community) edgeId state)
        (fun _ state follower => follower = state) _ _ _ _ _ hedges rfl (by
          rintro position edgeId before follower after hplace rfl hedge
          exact ⟨after, hrelocated.checkEdge hedge, rfl⟩)
      exact ⟨first, hfirst, last, hlast, _, hfound, hafter⟩)
  rw [hfinal, hrelocated.gatewaysLength]

end Relocated

section Accepted

variable {source : Index} {config : BuildConfig} {profile : PqLocalityProfile} {arrays : PqRepack}
  {owner : Community} {others : List Community} {gateways : List Gateway} {radius : Single}

/-- The index that `repackPqLocalityProfile` returns. -/
def repackedIndex (source : Index) (config : BuildConfig) (profile : PqLocalityProfile)
    (radius : Single) (arrays : PqRepack) (gateways : List Gateway) : Index :=
  { source with
    config := repackedConfig config
    nodeToCell := arrays.nodeToCell
    nodeToPacketRecord := arrays.nodeToPacketRecord
    communities := source.communities.mapIdx (ownCells (profile.cellOffsets.length - 1))
    gateways := gateways
    directionAxes := profile.cellCentroids
    sectors := [poleSector source.pointCount radius (profile.cellOffsets.length - 1)]
    cells := arrays.cells
    blocks := arrays.blocks
    cellHierarchyNodes := []
    cellHierarchyRoots := []
    cellHierarchyChildren := []
    cellHierarchyCentroids := []
    packetPayload := arrays.packetPayload }

theorem validateBuildConfig_repacked (hconfig : validateBuildConfig config = .ok ()) :
    validateBuildConfig (repackedConfig config) = .ok () := by
  simp only [validateBuildConfig, bind_ok, reject_ok, not_or, not_and, not_not]
    at hconfig ⊢
  obtain ⟨_, hcount, _, himbalance, _, hquality, degree, hdegree, _, hpartition, _, hgateways, _,
    hdirections, _, hsizes, _, hselection, _, -, _, ⟨hbranching, hleaf, hbuild⟩, hadaptive⟩ :=
    hconfig
  refine ⟨(), hcount, (), himbalance, (), hquality, degree, hdegree, (), hpartition, (), hgateways,
    (), hdirections, (), hsizes, (), hselection, (), fun hpath => absurd rfl hpath, (),
    ⟨hbranching, hleaf, fun hbuilt => ⟨rfl, (hbuild hbuilt).2⟩⟩, ?_⟩
  by_cases hmode : config.adaptiveMultiCapacity = false
  · rw [if_pos hmode] at hadaptive
    rw [if_pos (show (repackedConfig config).adaptiveMultiCapacity = false from hmode)]
    simp only [reject_ok, not_or, not_not] at hadaptive ⊢
    exact ⟨hadaptive.1, rfl⟩
  · rw [if_neg hmode] at hadaptive
    rw [if_neg (show ¬ (repackedConfig config).adaptiveMultiCapacity = false from hmode)]
    exact hadaptive

theorem PqLocalityProfile.Suits.toNat_count (hsuits : profile.Suits source) :
    (UInt32.ofNat (profile.cellOffsets.length - 1)).toNat = profile.cellOffsets.length - 1 ∧
      (UInt64.ofNat (profile.cellOffsets.length - 1)).toNat = profile.cellOffsets.length - 1 := by
  have hcounted := hsuits.counted
  exact ⟨UInt32.toNat_ofNat_of_lt' (show _ < 2 ^ 32 by omega),
    UInt64.toNat_ofNat_of_lt' (show _ < 2 ^ 64 by omega)⟩

theorem ownCells_zero (cellCount : Nat) (record : Community) :
    ownCells cellCount 0 record =
      { record with
        sectorBegin := 0, sectorCount := 1, cellBegin := 0, cellCount := .ofNat cellCount } :=
  rfl

theorem ownCells_succ (cellCount community : Nat) (record : Community) :
    ownCells cellCount (community + 1) record =
      { record with
        sectorBegin := 1, sectorCount := 0, cellBegin := .ofNat cellCount, cellCount := 0 } :=
  rfl

theorem sectorRanges_tile (radius : Single) (hcommunities : source.communities = owner :: others) :
    TilesFrom 0 (repackedIndex source config profile radius arrays gateways).sectorRanges 1 := by
  rw [Index.sectorRanges, repackedIndex, hcommunities, List.mapIdx_cons, numberedRanges,
    List.mapIdx_cons]
  refine ⟨rfl, TilesFrom.empty fun range hrange => ?_⟩
  obtain ⟨place, hplace, rfl⟩ := List.mem_mapIdx.mp hrange
  rw [List.getElem_mapIdx]
  exact ⟨rfl, rfl⟩

theorem cellRanges_tile (hsuits : profile.Suits source) (radius : Single)
    (hcommunities : source.communities = owner :: others) :
    TilesFrom 0 (repackedIndex source config profile radius arrays gateways).cellRanges
      (profile.cellOffsets.length - 1) := by
  obtain ⟨hnarrow, hwide⟩ := hsuits.toNat_count
  rw [Index.cellRanges, repackedIndex, hcommunities, List.mapIdx_cons, numberedRanges,
    List.mapIdx_cons]
  refine ⟨rfl, ?_⟩
  change TilesFrom (0 + (UInt32.ofNat (profile.cellOffsets.length - 1)).toNat) _ _
  rw [hnarrow, Nat.zero_add]
  refine TilesFrom.empty fun range hrange => ?_
  obtain ⟨place, hplace, rfl⟩ := List.mem_mapIdx.mp hrange
  rw [List.getElem_mapIdx]
  exact ⟨hwide, rfl⟩

/-- The Communities are counted as before, with the Cells at the first one. -/
theorem scan_communities (hsuits : profile.Suits source) (hfull : arrays.cells.length =
      profile.cellOffsets.length - 1) {radius : Single} {membership : Membership}
    (hcommunities : source.communities = owner :: others)
    (hscan : scan (checkCommunity source membership) 0 source.communities (0, 0) =
      .ok (source.sectors.length, source.cells.length)) :
    scan (checkCommunity (repackedIndex source config profile radius arrays gateways) membership) 0
        (source.communities.mapIdx (ownCells (profile.cellOffsets.length - 1))) (0, 0) =
      .ok (1, arrays.cells.length) := by
  obtain ⟨hnarrow, hwide⟩ := hsuits.toNat_count
  have hcounted := hsuits.counted
  set cellCount := profile.cellOffsets.length - 1 with hcellCount
  obtain ⟨final, hfinal, hlast⟩ := @scan_follows _ _ _ _ _ _
    (checkCommunity (repackedIndex source config profile radius arrays gateways) membership)
    (fun position _ (follower : Nat × Nat) =>
      follower = if position = 0 then (0, 0) else (1, cellCount)) _ _ 0 _ _ (0, 0)
    (List.length_mapIdx (f := ownCells cellCount)) hscan rfl (by
      rintro position record replacing ⟨sector, cell⟩ follower next hrecord hreplacing rfl hcheck
      rw [Nat.zero_add] at hcheck ⊢
      rw [List.getElem?_mapIdx, hrecord, Option.map_some, Option.some.injEq] at hreplacing
      subst hreplacing
      refine ⟨(1, cellCount), ?_, rfl⟩
      simp only [checkCommunity, bind_ok, reject_ok, checkedAdd_eq_ok, not_or, not_not] at hcheck
      obtain ⟨_, ⟨hid, hnodes, hmembers, hminimum, hhub, hminimumOwner, hhubOwner⟩, _, hbytes, _,
        ⟨hpacketBytes, -, -⟩, _, -, _, -, _, -, _, ⟨-, hfinite, hunsigned⟩, -⟩ := hcheck
      cases position with
      | zero =>
        rw [ownCells_zero]
        simp only [checkCommunity, bind_ok, reject_ok, checkedAdd_eq_ok, not_or, not_not]
        refine ⟨(), ⟨hid, hnodes, hmembers, hminimum, hhub, hminimumOwner, hhubOwner⟩, _, hbytes,
          (), ⟨hpacketBytes, rfl, rfl⟩, _, ⟨?_, rfl⟩, (), ?_, _, ⟨?_, rfl⟩, (),
          ⟨?_, hfinite, hunsigned⟩, _, ⟨?_, rfl⟩, _, ⟨?_, rfl⟩, ?_⟩
        · decide
        · exact Nat.lt_irrefl 1
        · change 0 + (UInt32.ofNat cellCount).toNat < _
          omega
        · change ¬ arrays.cells.length < 0 + (UInt32.ofNat cellCount).toNat
          omega
        · change 0 + 1 < 2 ^ 64
          decide
        · change 0 + (UInt32.ofNat cellCount).toNat < _
          omega
        · change Except.ok (0 + 1, 0 + (UInt32.ofNat cellCount).toNat) = Except.ok (1, cellCount)
          simp [hnarrow]
      | succ position =>
        rw [ownCells_succ]
        simp only [checkCommunity, bind_ok, reject_ok, checkedAdd_eq_ok, not_or, not_not]
        refine ⟨(), ⟨hid, hnodes, hmembers, hminimum, hhub, hminimumOwner, hhubOwner⟩, _, hbytes,
          (), ⟨hpacketBytes, rfl, hwide⟩, _, ⟨?_, rfl⟩, (), ?_, _, ⟨?_, rfl⟩, (),
          ⟨?_, hfinite, hunsigned⟩, _, ⟨?_, rfl⟩, _, ⟨?_, rfl⟩, ?_⟩
        · decide
        · exact Nat.lt_irrefl 1
        · change (UInt64.ofNat cellCount).toNat + 0 < _
          omega
        · change ¬ arrays.cells.length < (UInt64.ofNat cellCount).toNat + 0
          omega
        · change 1 + 0 < 2 ^ 64
          decide
        · change cellCount + 0 < _
          omega
        · rfl)
  rw [hfinal, hlast, hcommunities, hfull]
  rfl

theorem mem_spans {range : LabelledRange} (hrange : range ∈ profile.spans) :
    range.label < profile.cellOffsets.length - 1 := by
  have hlabel : range.label ∈ profile.spans.map LabelledRange.label := List.mem_map_of_mem hrange
  rw [PqLocalityProfile.spans, labels_rowRanges, List.length_map, List.mem_range'_1,
    Nat.zero_add] at hlabel
  exact hlabel.2

theorem label_lt {label : Nat} (hlabel : label ∈ spread profile.spans) :
    label < profile.cellOffsets.length - 1 := by
  obtain ⟨range, hrange, hmem⟩ := List.mem_flatMap.mp hlabel
  rw [List.eq_of_mem_replicate hmem]
  exact mem_spans hrange

theorem length_labels (hsuits : profile.Suits source) :
    (spread profile.spans).length = source.pointCount.toNat := by
  rw [← hsuits.tiles.length_spread, Nat.zero_add]

theorem PqLocalityProfile.Suits.perm (hsuits : profile.Suits source) :
    (profile.orderedNodes.map UInt32.toNat).Perm (List.range source.pointCount.toNat) := by
  have hnodup : (profile.orderedNodes.map UInt32.toNat).Nodup :=
    hsuits.distinct.map fun _ _ => UInt32.toNat_inj.mp
  refine (List.subperm_of_subset hnodup fun node hnode => ?_).perm_of_length_le ?_
  · obtain ⟨ordered, hordered, rfl⟩ := List.mem_map.mp hnode
    exact List.mem_range.mpr (hsuits.bounded ordered hordered)
  · rw [List.length_range, List.length_map, hsuits.nodes]

section

variable (hsuits : profile.Suits source)
  (hmoved : Moved source profile.orderedNodes (spread profile.spans) arrays)
include hsuits hmoved

theorem node_lies {node : Nat} (hnode : node < source.pointCount.toNat) :
    ∃ position label ordered, profile.orderedNodes[position]? = some ordered ∧
      ordered.toNat = node ∧ label < profile.cellOffsets.length - 1 ∧
      Lies source arrays position label ordered := by
  have hmem := hsuits.perm.mem_iff.mpr (List.mem_range.mpr hnode)
  obtain ⟨ordered, hordered, rfl⟩ := List.mem_map.mp hmem
  obtain ⟨position, hposition⟩ := List.mem_iff_getElem?.mp hordered
  have hinside := (List.getElem_of_getElem? hposition).1
  rw [hsuits.nodes, ← length_labels hsuits] at hinside
  obtain ⟨found, hfound, hlies⟩ := hmoved.lies position _ (List.getElem?_eq_getElem hinside)
  obtain rfl := Option.some.inj (hposition.symm.trans hfound)
  exact ⟨position, _, ordered, hposition, rfl, label_lt (List.getElem_mem hinside), hlies⟩

theorem scan_members (hfull : arrays.cells.length = profile.cellOffsets.length - 1)
    {radius : Single} (accepted : Accepted source) :
    scan (countMember (repackedIndex source config profile radius arrays gateways)) 0
        (source.nodeToCommunity.zip arrays.nodeToCell)
        ⟨(source.communities.mapIdx (ownCells (profile.cellOffsets.length - 1))).map fun _ => 0,
          (source.communities.mapIdx (ownCells (profile.cellOffsets.length - 1))).map
            fun _ => invalidId⟩ = .ok accepted.membership := by
  have hglobals := accepted.globals_ok
  have hcommunities : (source.communities.mapIdx
      (ownCells (profile.cellOffsets.length - 1))).length = source.communities.length :=
    List.length_mapIdx
  have hlength : (source.nodeToCommunity.zip arrays.nodeToCell).length =
      (source.nodeToCommunity.zip source.nodeToCell).length := by
    rw [List.length_zip, List.length_zip, hmoved.nodeToCell, hglobals.nodeToCell]
  simp only [List.map_const', hcommunities]
  have hscan := accepted.members
  simp only [List.map_const'] at hscan
  obtain ⟨final, hfinal, rfl⟩ := @scan_follows _ _ _ _ _ _
    (countMember (repackedIndex source config profile radius arrays gateways))
    (fun _ state follower => follower = state) _ _ 0 _ _ _ hlength hscan rfl (by
      rintro node ⟨community, cell⟩ ⟨sameCommunity, newCell⟩ state follower next howners hnew rfl
        hcount
      obtain ⟨hcommunity, -⟩ := List.getElem?_zip_eq_some.mp howners
      obtain ⟨hsame, hnewCell⟩ := List.getElem?_zip_eq_some.mp hnew
      obtain rfl := Option.some.inj (hcommunity.symm.trans hsame)
      have hnode := (List.getElem_of_getElem? hnewCell).1
      rw [hmoved.nodeToCell] at hnode
      obtain ⟨position, label, ordered, -, rfl, hlabel, hlies⟩ := node_lies hsuits hmoved hnode
      have hcell := hlies.cell
      dsimp only at hnewCell
      rw [hnewCell, Option.map_some, Option.some.injEq] at hcell
      refine ⟨next, ?_, rfl⟩
      simp only [countMember, bind_ok, reject_ok, not_or, Nat.not_le] at hcount ⊢
      obtain ⟨_, ⟨hbound, -⟩, hnext⟩ := hcount
      refine ⟨(), ⟨?_, ?_⟩, hnext⟩
      · rw [repackedIndex, hcommunities]
        exact hbound
      · change newCell.toNat < arrays.cells.length
        omega)
  exact hfinal

theorem checkGlobals_repacked (hfull : arrays.cells.length = profile.cellOffsets.length - 1)
    {radius : Single} (hmode : config.adaptiveMultiCapacity = false)
    (hcount : config.communityCount = source.config.communityCount)
    (hcheck : checkGlobals source = .ok ()) :
    checkGlobals (repackedIndex source config profile radius arrays gateways) = .ok () := by
  simp only [checkGlobals, bind_ok, reject_ok, not_or, not_not] at hcheck
  obtain ⟨_, -, _, ⟨hpoints, hdimension, hwidth, hentry, hcommunities, hnodeToCommunity, -, -⟩,
    poles, hpoles, _, ⟨hpolesLength, hoffsets⟩, _, hcsr, packetBytes, hbytes, _, hpayload, _, -,
    -⟩ := hcheck
  have hsame : (source.communities.mapIdx
      (ownCells (profile.cellOffsets.length - 1))).length = source.communities.length :=
    List.length_mapIdx
  have hvectors : checkVectorBytes (repackedIndex source config profile radius arrays gateways) =
      .ok () := by
    rw [checkVectorBytes, if_neg]
    rw [show (repackedIndex source config profile radius arrays gateways).config =
      repackedConfig config from rfl]
    simp [repackedConfig, hmode]
  have hcentroids : checkCentroids (repackedIndex source config profile radius arrays gateways) =
      .ok () := by
    unfold checkCentroids
    split
    next =>
      simp only [bind_ok, checkedMultiply_eq_ok, reject_ok, not_not]
      refine ⟨_, ⟨?_, rfl⟩, ?_⟩
      · change arrays.cells.length * source.dimension.toNat < 2 ^ 64
        rw [hfull]
        exact hsuits.addressed
      · change profile.cellCentroids.length = arrays.cells.length * source.dimension.toNat
        rw [hfull, hsuits.centroids]
    next => rfl
  simp only [checkGlobals, bind_ok, reject_ok, not_or, not_not]
  refine ⟨(), hvectors, (), ⟨hpoints, hdimension, hwidth, hentry, ?_, hnodeToCommunity,
    hmoved.nodeToCell, hmoved.nodeToPacketRecord⟩, poles, ?_, (), ⟨hpolesLength, ?_⟩, (), hcsr,
    packetBytes, hbytes, (), ?_, (), ?_, hcentroids⟩
  · change (source.communities.mapIdx _).length = config.communityCount.toNat
    rw [hsame, hcommunities, hcount]
  · change checkedMultiply (source.communities.mapIdx _).length _ _ = _
    rw [hsame]
    exact hpoles
  · change source.communityEdgeOffsets.length = (source.communities.mapIdx _).length + 1
    rw [hsame]
    exact hoffsets
  · change packetBytes = arrays.packetPayload.length
    rw [hmoved.payload]
    exact (checkedMultiply_eq_ok.mp hbytes).2.symm
  · change profile.cellCentroids.length % source.dimension.toNat = 0
    rw [hsuits.centroids, Nat.mul_mod_left]

end

theorem sectorCellRanges_eq (hsuits : profile.Suits source) (radius : Single) :
    (repackedIndex source config profile radius arrays gateways).sectorCellRanges =
      [⟨0, profile.cellOffsets.length - 1, 0⟩] := by
  change [LabelledRange.mk 0 (UInt32.ofNat (profile.cellOffsets.length - 1)).toNat 0] = _
  rw [hsuits.toNat_count.1]

theorem count_label (hfull : FullyPacked source config radius profile arrays) {cell : Nat}
    {record : Cell} (hrecord : arrays.cells[cell]? = some record) :
    (spread profile.spans).count cell = record.nodeCount.toNat := by
  obtain ⟨first, hspan⟩ := (hfull.celled.records cell record hrecord).span
  have hdistinct : (profile.spans.map LabelledRange.label).Nodup := by
    rw [PqLocalityProfile.spans, labels_rowRanges]
    exact List.nodup_range'
  exact count_spread hdistinct (List.mem_of_getElem? hspan)

theorem sectorNodes_eq (hsuits : profile.Suits source)
    (hfull : FullyPacked source config radius profile arrays) :
    (repackedIndex source config profile radius arrays gateways).sectorNodes
      (List.replicate (profile.cellOffsets.length - 1) 0) arrays.cells.length 0 =
        source.pointCount.toNat := by
  have htotal := countP_eq_sum (fun label hlabel => @label_lt profile label hlabel) fun _ => true
  simp only [List.countP_true, if_true] at htotal
  rw [← length_labels hsuits, htotal, Index.sectorNodes, hfull.count]
  apply Finset.sum_congr rfl
  intro cell hcell
  have hinside := Finset.mem_range.mp hcell
  have hrecord := List.getElem?_eq_getElem (hfull.count ▸ hinside)
  rw [List.getElem?_replicate, if_pos hinside, if_pos rfl, count_label hfull hrecord,
    Index.cellNodes]
  change (arrays.cells[cell]?.map fun record => record.nodeCount.toNat).getD 0 = _
  rw [hrecord]
  rfl

theorem owners_eq (hsuits : profile.Suits source)
    (hfull : arrays.cells.length = profile.cellOffsets.length - 1)
    (hcommunities : source.communities = owner :: others) :
    let index := repackedIndex source config profile radius arrays gateways
    (communityOwners index).1[0]? = some 0 ∧
      (∀ cell < profile.cellOffsets.length - 1, (communityOwners index).2[cell]? = some 0) ∧
      spread index.sectorCellRanges = List.replicate (profile.cellOffsets.length - 1) 0 := by
  intro index
  have hsectors : TilesFrom 0 index.sectorRanges 1 := sectorRanges_tile radius hcommunities
  have hcells : TilesFrom 0 index.cellRanges (profile.cellOffsets.length - 1) :=
    cellRanges_tile hsuits radius hcommunities
  have howners : communityOwners index = (spread index.sectorRanges, spread index.cellRanges) :=
    communityOwners_of_tiles hsectors (hfull ▸ hcells)
  obtain ⟨hnarrow, -⟩ := hsuits.toNat_count
  have hcommunity : index.communities[0]? =
      some (ownCells (profile.cellOffsets.length - 1) 0 owner) := by
    change (source.communities.mapIdx _)[0]? = _
    rw [List.getElem?_mapIdx, hcommunities]
    rfl
  rw [howners]
  refine ⟨?_, fun cell hcell => ?_, ?_⟩
  · have hrange : index.sectorRanges[0]? = some _ := getElem?_numberedRanges hcommunity
    have hlabel := @TilesFrom.getElem?_spread 0 1 _ hsectors _ 0 0 hrange
      ⟨Nat.le_refl 0, Nat.zero_lt_one⟩
    exact hlabel
  · have hrange : index.cellRanges[0]? = some _ := getElem?_numberedRanges hcommunity
    have hlabel := @TilesFrom.getElem?_spread 0 _ _ hcells _ 0 cell hrange
      ⟨Nat.zero_le _, by
        change cell < 0 + (UInt32.ofNat (profile.cellOffsets.length - 1)).toNat
        omega⟩
    rwa [Nat.sub_zero] at hlabel
  · rw [show index.sectorCellRanges = _ from sectorCellRanges_eq hsuits radius]
    simp [spread]

/-- The radius of the records is that of an accepted Community. -/
structure RadiusOk (radius : Single) : Prop where
  finite : radius.isFinite = true
  unsigned : ¬ radius < .zero

theorem RadiusOk.shape (hradius : RadiusOk radius) : ShapeOk .zero radius pi pi :=
  ⟨by decide, hradius.finite, by decide, hradius.unsigned, by decide, by decide +kernel⟩

theorem radius_ok (accepted : Accepted source)
    (hcommunities : source.communities = owner :: others) : RadiusOk owner.radius := by
  have hfirst : source.communities[0]? = some owner := by
    rw [hcommunities]
    rfl
  obtain ⟨⟨sector, cell⟩, after, hcheck⟩ := scan_accepts accepted.communities hfirst
  simp only [checkCommunity, bind_ok, reject_ok, not_or] at hcheck
  obtain ⟨_, -, _, -, _, -, _, -, _, -, _, -, _, ⟨-, hfinite, hunsigned⟩, -⟩ := hcheck
  exact ⟨by simpa using hfinite, hunsigned⟩

theorem sector_complete (hsuits : profile.Suits source) (hradius : RadiusOk radius)
    (hpoints : source.pointCount ≠ 0)
    (hfull : arrays.cells.length = profile.cellOffsets.length - 1)
    (hcommunities : source.communities = owner :: others) {sector : Nat} {record : Sector}
    (hrecord : (repackedIndex source config profile radius arrays gateways).sectors[sector]? =
      some record) :
    SectorComplete (repackedIndex source config profile radius arrays gateways)
      (communityOwners (repackedIndex source config profile radius arrays gateways)).1 sector
      record := by
  obtain ⟨rfl, rfl⟩ : sector = 0 ∧
      poleSector source.pointCount radius (profile.cellOffsets.length - 1) = record := by
    simpa [repackedIndex, List.getElem?_singleton] using hrecord
  have hsome := hsuits.populated
  have hnarrow := hsuits.toNat_count.1
  refine ⟨(owners_eq hsuits hfull hcommunities).1, hpoints, fun hzero => ?_, hradius.shape,
    Single.lt_irrefl _, ?_⟩
  · have hcount := congrArg UInt32.toNat hzero
    change (UInt32.ofNat (profile.cellOffsets.length - 1)).toNat = 0 at hcount
    omega
  · have hpole : (poleSector source.pointCount radius
        (profile.cellOffsets.length - 1)).sectorId = kPoleSectorId := rfl
    rw [if_pos hpole]
    rfl

theorem cell_complete (hsuits : profile.Suits source) (hradius : RadiusOk radius)
    (hfull : FullyPacked source config radius profile arrays)
    (hmode : config.adaptiveMultiCapacity = false)
    (hcommunities : source.communities = owner :: others) {cell : Nat} {record : Cell}
    (hrecord : arrays.cells[cell]? = some record) :
    CellComplete (repackedIndex source config profile radius arrays gateways)
      (communityOwners (repackedIndex source config profile radius arrays gateways)).2
      (List.replicate (profile.cellOffsets.length - 1) 0) cell record 0
      (poleSector source.pointCount radius (profile.cellOffsets.length - 1)) := by
  have hcell := hfull.celled.records cell record hrecord
  have hinside := (List.getElem_of_getElem? hrecord).1
  rw [hfull.count] at hinside
  refine ⟨?_, rfl, hcell.id, ?_, hcell.community, hcell.sector, fun hzero => ?_, ?_, ?_,
    fun hzero => ?_, ?_, ?_⟩
  · rw [List.getElem?_replicate, if_pos hinside]
  · rw [hcell.community]
    exact (owners_eq hsuits hfull.count hcommunities).2.1 cell hinside
  · exact Nat.ne_of_gt hcell.nodes (congrArg UInt64.toNat hzero)
  · rw [if_neg (by simp [repackedIndex, repackedConfig, hmode])]
    exact hcell.capacity
  · rw [hcell.capacity]
    exact hcell.holds
  · exact Nat.ne_of_gt hcell.blocks (congrArg UInt32.toNat hzero)
  · rw [hcell.minimumRadius, hcell.maximumRadius, hcell.maximumAngle]
    exact hradius.shape
  · rw [hcell.minimumRadius]
    exact Single.lt_irrefl _

theorem block_complete (hradius : RadiusOk radius)
    (hfull : FullyPacked source config radius profile arrays) {block : Nat} {record : Block}
    (hrecord : arrays.blocks[block]? = some record) :
    ∃ cell, BlockComplete (repackedIndex source config profile radius arrays gateways)
      (spread (cellRanges arrays.cells)) block record record.cellId.toNat cell := by
  have hblock := hfull.blocked.records block record hrecord
  have howner : (spread (cellRanges arrays.cells))[block]? = some record.cellId.toNat := by
    rw [← hfull.celled.owners, List.getElem?_map, hrecord]
    rfl
  have hinside : record.cellId.toNat < arrays.cells.length := by
    obtain ⟨range, hrange, hlabel⟩ := List.mem_flatMap.mp (List.mem_of_getElem? howner)
    rw [List.eq_of_mem_replicate hlabel]
    obtain ⟨number, hnumber⟩ := List.mem_iff_getElem?.mp hrange
    rw [label_numberedRanges hnumber, ← length_numberedRanges]
    exact (List.getElem_of_getElem? hnumber).1
  have hcellRecord := List.getElem?_eq_getElem hinside
  have hcell := hfull.celled.records _ _ hcellRecord
  refine ⟨_, howner, hcellRecord, hblock.id, UInt32.toNat_inj.mp hcell.id.symm, rfl,
    fun hzero => ?_, ?_, ?_, ⟨?_, ?_⟩, ?_, ?_⟩
  · exact Nat.ne_of_gt hblock.nodes (congrArg UInt32.toNat hzero)
  · exact hblock.holds
  · rw [hblock.minimumRadius, hblock.maximumRadius, hblock.maximumAngle, hcell.maximumAngle]
    exact hradius.shape
  · rw [hblock.minimumRadius, hcell.minimumRadius]
    exact Single.lt_irrefl _
  · rw [hblock.maximumRadius, hcell.maximumRadius]
    exact Single.lt_irrefl _
  · rw [hblock.error]
    decide +kernel
  · rw [hblock.error]
    decide +kernel

theorem packetNode_of_record {index : Index} {packet position node : Nat}
    (hpacket : source.packetNode packet = .ok node)
    (hbytes : index.recordBytes = source.recordBytes)
    (hfits : position * source.recordBytes + source.recordBytes ≤ index.packetPayload.length)
    (haddressed : index.packetPayload.length < 2 ^ 64)
    (hsame : subspan index.packetPayload (position * source.recordBytes) source.recordBytes =
      subspan source.packetPayload (packet * source.recordBytes) source.recordBytes) :
    index.packetNode position = .ok node := by
  have hwidth : 4 ≤ source.recordBytes := Nat.le_add_right _ _
  have hfront : ∀ (payload : List UInt8) (offset : Nat),
      (payload.drop offset).take 4 = (subspan payload offset source.recordBytes).take 4 := by
    intro payload offset
    rw [subspan, List.take_take, Nat.min_eq_left hwidth]
  simp only [Index.packetNode, bind_ok, checkedMultiply_eq_ok, reject_ok,
    Except.ok.injEq] at hpacket ⊢
  obtain ⟨_, ⟨-, rfl⟩, _, -, hnode⟩ := hpacket
  rw [hbytes]
  refine ⟨_, ⟨by omega, rfl⟩, (), by omega, ?_⟩
  rw [hfront, hsame, ← hfront, hnode]

theorem packet_ok (accepted : Accepted source) (hsuits : profile.Suits source)
    (hfull : FullyPacked source config radius profile arrays)
    (hglobal : config.cellPartition = .globalGeometric)
    (haddressed : source.pointCount.toNat * source.recordBytes < 2 ^ 64) {packet node : Nat}
    (hnode : (profile.orderedNodes.map UInt32.toNat)[packet]? = some node) :
    ∃ cellId cell, PacketOk (repackedIndex source config profile radius arrays gateways)
      (spread profile.spans) packet node cellId cell := by
  rw [List.getElem?_map, Option.map_eq_some_iff] at hnode
  obtain ⟨ordered, hordered, rfl⟩ := hnode
  have hbound := hsuits.bounded ordered (List.mem_of_getElem? hordered)
  have hinside := (List.getElem_of_getElem? hordered).1
  rw [hsuits.nodes, ← length_labels hsuits] at hinside
  obtain ⟨found, hfound, hlies⟩ := hfull.moved.lies packet _ (List.getElem?_eq_getElem hinside)
  obtain rfl := Option.some.inj (hordered.symm.trans hfound)
  have hcell := label_lt (List.getElem_mem hinside)
  rw [← hfull.count] at hcell
  obtain ⟨sourcePacket, hsourcePacket, hsourceBound, hsame⟩ := hlies.record
  -- the packet that the source has for the node holds the node
  obtain ⟨other, -, _, _, hok⟩ := accepted.node_located hbound
  have hother := hok.packetRecord
  rw [hsourcePacket, Option.map_some, Option.some.injEq] at hother
  subst hother
  rw [length_labels hsuits] at hinside
  refine ⟨_, _, ⟨packetNode_of_record hok.decoded rfl ?_ ?_ hsame, hbound,
    List.getElem?_eq_getElem _, List.getElem?_eq_getElem hcell, hlies.packet, hlies.cell,
    fun hlocal => absurd (Or.inl hglobal) hlocal⟩⟩
  · change packet * source.recordBytes + source.recordBytes ≤ arrays.packetPayload.length
    rw [hfull.moved.payload]
    exact row_fits hinside
  · change arrays.packetPayload.length < 2 ^ 64
    rw [hfull.moved.payload]
    exact haddressed

theorem relocated_of_mapM
    (hgateways : source.gateways.mapM (locateGateway arrays.nodeToPacketRecord) = .ok gateways)
    (hcount : config.gatewayCount = source.config.gatewayCount) :
    Relocated source (repackedIndex source config profile radius arrays gateways) := by
  have hall := mapM_eq_ok.mp hgateways
  refine ⟨rfl, List.length_mapIdx, rfl, rfl, rfl, hcount, hall.length_eq.symm, ?_⟩
  intro position gateway hgateway
  have hplace := (List.getElem_of_getElem? hgateway).1
  rw [hall.length_eq] at hplace
  have hlocated := convert_of_mapM_ok hgateways hgateway (List.getElem?_eq_getElem hplace)
  simp only [locateGateway, bind_ok, element_eq_ok, Except.ok.injEq] at hlocated
  obtain ⟨packet, hpacket, hnew⟩ := hlocated
  exact ⟨packet, hpacket, (List.getElem?_eq_getElem hplace).trans (congrArg some hnew.symm)⟩

/-- Without adaptive capacities the new index is accepted. -/
theorem repacked_valid (hvalid : validateLoadedIndex source = .ok ())
    (hconfig : validateBuildConfig config = .ok ())
    (hcommunityCount : config.communityCount = source.config.communityCount)
    (hgatewayCount : config.gatewayCount = source.config.gatewayCount)
    (hglobal : config.cellPartition = .globalGeometric)
    (hmode : config.adaptiveMultiCapacity = false) (hsuits : profile.Suits source)
    (hcommunities : source.communities = owner :: others)
    (hfull : FullyPacked source config owner.radius profile arrays)
    (hgateways : source.gateways.mapM (locateGateway arrays.nodeToPacketRecord) = .ok gateways)
    (haddressed : source.pointCount.toNat * source.recordBytes < 2 ^ 64) :
    validateLoadedIndex (repackedIndex source config profile owner.radius arrays gateways) =
      .ok () := by
  obtain ⟨accepted⟩ := accepted_of_valid hvalid
  have hcounts := (counts_of_valid hvalid).1
  have hglobals := accepted.globals_ok
  rw [List.length_zip, hglobals.nodeToCommunity, hglobals.nodeToCell, Nat.min_self] at hcounts
  have hsizes := accepted.globals
  simp only [checkGlobals, bind_ok, reject_ok, not_or] at hsizes
  obtain ⟨_, -, _, ⟨hpoints, -⟩, -⟩ := hsizes
  have hradius := radius_ok accepted hcommunities
  have hcells := hfull.count
  have hcounted := hsuits.counted
  have hlabels := length_labels hsuits
  have hblocksLe := hfull.blocked.length_le
  obtain ⟨-, -, hsectorOwners⟩ := @owners_eq source config profile arrays owner others gateways
    owner.radius hsuits hcells hcommunities
  have hcellsSmall : arrays.cells.length < 2 ^ 32 := by omega
  have hblocksSmall : arrays.blocks.length < 2 ^ 32 := by omega
  obtain ⟨cellCursor, hsectors, hcellOwners, hsectorsEnd⟩ :=
    @sectors_complete (repackedIndex source config profile owner.radius arrays gateways) _
      hcellsSmall (by
        rw [sectorCellRanges_eq hsuits, ← hcells]
        exact ⟨rfl, Nat.zero_add _⟩)
      fun sector record hrecord =>
        sector_complete hsuits hradius hpoints hcells hcommunities hrecord
  rw [hsectorOwners] at hcellOwners
  obtain ⟨blockCursor, hcellScan, ⟨hblockOwners, hcellsEnd⟩, hsectorMembers⟩ :=
    @cells_complete (repackedIndex source config profile owner.radius arrays gateways)
      (communityOwners (repackedIndex source config profile owner.radius arrays gateways)).2
      (List.replicate (profile.cellOffsets.length - 1) 0) hblocksSmall hfull.celled.tiles
      (by
        intro sector record hrecord
        obtain ⟨rfl, rfl⟩ : sector = 0 ∧
            poleSector source.pointCount owner.radius (profile.cellOffsets.length - 1) = record := by
          simpa [repackedIndex, List.getElem?_singleton] using hrecord
        exact sectorNodes_eq hsuits hfull)
      fun cell record hrecord =>
        ⟨0, _, cell_complete hsuits hradius hfull hmode hcommunities hrecord⟩
  obtain ⟨packetCursor, hblockScan, ⟨hpacketOwners, hblocksEnd⟩, hcellMembers⟩ :=
    @blocks_complete (repackedIndex source config profile owner.radius arrays gateways)
      (spread (cellRanges arrays.cells))
      (by
        have htiles := hfull.blocked.tiles
        rw [hlabels] at htiles
        exact htiles)
      (by
        intro cell record hrecord
        have hcount := count_label hfull hrecord
        rw [← hfull.blocked.labels] at hcount
        exact hcount)
      fun block record hrecord => ⟨_, block_complete hradius hfull hrecord⟩
  have hpacketLabels : packetCursor.owners = spread profile.spans :=
    hpacketOwners.trans hfull.blocked.labels
  obtain ⟨seen, hpackets⟩ :=
    @packets_complete (repackedIndex source config profile owner.radius arrays gateways)
      (spread profile.spans) _ hsuits.perm fun packet node hnode =>
        packet_ok accepted hsuits hfull hglobal haddressed hnode
  have again : Accepted (repackedIndex source config profile owner.radius arrays gateways) :=
    { membership := accepted.membership
      cellCursor, blockCursor, packetCursor, seen
      config := validateBuildConfig_repacked hconfig
      globals := checkGlobals_repacked hsuits hfull.moved hcells hmode hcommunityCount
        accepted.globals
      members := scan_members hsuits hfull.moved hcells accepted
      communities := scan_communities hsuits hcells hcommunities accepted.communities
      edges := (relocated_of_mapM hgateways hgatewayCount).checkEdges accepted.edges
      sectors := hsectors
      sectorsEnd := hsectorsEnd
      cells := by
        rw [hcellOwners]
        exact hcellScan
      cellsEnd := hcellsEnd
      blocks := by
        rw [hblockOwners]
        exact hblockScan
      blocksEnd := hblocksEnd
      sectorMembers := hsectorMembers
      cellMembers := hcellMembers
      hierarchy := if_pos ⟨rfl, rfl, rfl, rfl⟩
      packets := by
        rw [hpacketLabels]
        exact hpackets }
  have hnodes : (source.nodeToCommunity.zip arrays.nodeToCell).length < 2 ^ 32 := by
    rw [List.length_zip, hglobals.nodeToCommunity, hfull.moved.nodeToCell, Nat.min_self]
    exact hcounts
  exact again.valid hnodes (show 1 < 2 ^ 32 by decide) hcellsSmall hblocksSmall hmode

end Accepted

end SkipCell.Build

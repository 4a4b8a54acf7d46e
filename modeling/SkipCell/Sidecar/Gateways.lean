import SkipCell.Sidecar.Validate

/-! # The Community edges of an accepted index

The offsets cut the edges into one range for each Community, the Gateway ranges
of the edges tile the Gateways, and the targets of an edge are distinct.
-/

namespace SkipCell.Sidecar

open Foundation

namespace Index

variable (index : Index)

def edgeRanges : List LabelledRange :=
  rowRanges 0 (index.communityEdgeOffsets.map UInt64.toNat)

def edgeGatewayRanges : List LabelledRange :=
  numberedRanges (fun record => record.gatewayBegin.toNat)
    (fun record => record.gatewayCount.toNat) index.communityEdges

def edgeTargets (record : Edge) : List Nat :=
  ((index.gateways.drop record.gatewayBegin.toNat).take record.gatewayCount.toNat).map
    fun gateway => gateway.targetNode.toNat

end Index

section Lists

theorem take_succ {α : Type} {values : List α} {position : Nat} {value : α}
    (hvalue : values[position]? = some value) :
    values.take (position + 1) = values.take position ++ [value] := by
  rw [List.take_add_one, hvalue]
  rfl

theorem pairwise_lt {values : List Nat} (hsorted : values.Pairwise (· ≤ ·))
    (hchain : values.IsChain (· ≠ ·)) : values.Pairwise (· < ·) := by
  rw [← List.isChain_iff_pairwise, List.isChain_iff_getElem]
  intro position hposition
  exact Nat.lt_of_le_of_ne (hsorted.isChain.getElem position hposition)
    (hchain.getElem position hposition)

theorem nodup_of_sorted {values : List Nat}
    (hchain : (values.insertionSort (· ≤ ·)).IsChain (· ≠ ·)) : values.Nodup := by
  have hsorted := values.pairwise_insertionSort (· ≤ ·)
  have hnodup : (values.insertionSort (· ≤ ·)).Nodup :=
    (pairwise_lt hsorted hchain).imp fun hlt => Nat.ne_of_lt hlt
  exact (values.perm_insertionSort (· ≤ ·)).nodup_iff.mp hnodup

end Lists

variable {index : Index}

/-- The sizes of the arrays, and the offsets of the edges of each Community. -/
structure GlobalsOk (index : Index) : Prop where
  nodeToCommunity : index.nodeToCommunity.length = index.pointCount.toNat
  nodeToCell : index.nodeToCell.length = index.pointCount.toNat
  nodeToPacketRecord : index.nodeToPacketRecord.length = index.pointCount.toNat
  edgeOffsets : index.communityEdgeOffsets.length = index.communities.length + 1
  firstEdge : index.communityEdgeOffsets.head? = some 0
  lastEdge : index.communityEdgeOffsets.getLast?.map UInt64.toNat =
    some index.communityEdges.length
  sorted : index.communityEdgeOffsets.IsChain (· ≤ ·)

theorem checkGlobals_eq_ok (hcheck : checkGlobals index = .ok ()) : GlobalsOk index := by
  simp only [checkGlobals, bind_ok, reject_ok, not_or, not_not] at hcheck
  obtain ⟨_, -, _, ⟨-, -, -, -, -, hcommunity, hcell, hpacket⟩, _, -, _, ⟨-, hoffsets⟩, _,
    ⟨hfirst, hlast, hsorted⟩, -⟩ := hcheck
  exact ⟨hcommunity, hcell, hpacket, hoffsets, hfirst, hlast, hsorted⟩

theorem GlobalsOk.edges_tile (hglobals : GlobalsOk index) :
    TilesFrom 0 index.edgeRanges index.communityEdges.length := by
  have hfirst := hglobals.firstEdge
  have hlast := hglobals.lastEdge
  have hsorted := hglobals.sorted
  rw [Index.edgeRanges]
  cases hoffsets : index.communityEdgeOffsets with
  | nil => simp [hoffsets] at hfirst
  | cons first offsets =>
    rw [hoffsets] at hfirst hlast hsorted
    obtain rfl := Option.some.inj hfirst
    apply rowRanges_tile
    · exact (List.isChain_map UInt64.toNat (l := (0 : UInt64) :: offsets)).mpr hsorted
    · change (((0 : UInt64) :: offsets).map UInt64.toNat).getLast? = _
      rw [List.getLast?_map]
      exact hlast

/-- A Gateway of an edge leads from the source to the target Community. -/
structure GatewayOk (index : Index) (record : Edge) (gateway : Gateway) : Prop where
  sourceBound : gateway.sourceNode.toNat < index.pointCount.toNat
  targetBound : gateway.targetNode.toNat < index.pointCount.toNat
  source : index.nodeToCommunity[gateway.sourceNode.toNat]? = some record.sourceCommunity
  target : index.nodeToCommunity[gateway.targetNode.toNat]? = some record.targetCommunity
  packet : index.nodeToPacketRecord[gateway.targetNode.toNat]? = some gateway.packetRecordIndex

theorem checkGateway_eq_ok {record : Edge} {gatewayId : Nat} {targets next : List Nat}
    (hcheck : checkGateway index record gatewayId targets = .ok next) :
    ∃ gateway, index.gateways[gatewayId]? = some gateway ∧ GatewayOk index record gateway ∧
      next = targets ++ [gateway.targetNode.toNat] := by
  simp only [checkGateway, bind_ok, element_eq_ok, reject_ok, not_or, not_not, Nat.not_le] at hcheck
  obtain ⟨gateway, hgateway, _, ⟨hsource, htarget, hfrom, hto, hpacket⟩, hnext⟩ := hcheck
  exact ⟨gateway, hgateway, ⟨hsource, htarget, hfrom, hto, hpacket⟩, (Except.ok.inj hnext).symm⟩

/-- An edge of `source`: its Gateways join the two Communities, at distinct targets. -/
structure EdgeOk (index : Index) (source : Nat) (record : Edge) : Prop where
  source : record.sourceCommunity.toNat = source
  target : record.targetCommunity.toNat < index.communities.length
  gateways : ∀ gateway ∈ (index.gateways.drop record.gatewayBegin.toNat).take
    record.gatewayCount.toNat, GatewayOk index record gateway
  distinct : (index.edgeTargets record).Nodup

theorem checkEdge_eq_ok {source edgeId : Nat} {state next : Nat × Option Nat}
    (hcheck : checkEdge index source edgeId state = .ok next) :
    ∃ record, index.communityEdges[edgeId]? = some record ∧
      record.gatewayBegin.toNat = state.1 ∧ EdgeOk index source record ∧
      next.1 = state.1 + record.gatewayCount.toNat := by
  obtain ⟨expected, previous⟩ := state
  simp only [checkEdge, bind_ok, element_eq_ok, reject_ok, checkedAdd_eq_ok, not_or,
    not_not, Nat.not_le] at hcheck
  obtain ⟨record, hrecord, _, ⟨hsource, htarget, -, -, -, -, hbegin⟩, _, -, _, -, targets,
    htargets, _, hchain, _, ⟨-, rfl⟩, hnext⟩ := hcheck
  have hread := scan_invariant htargets
    (motive := fun position targets =>
      targets = ((index.gateways.drop record.gatewayBegin.toNat).take position).map
          (fun gateway => gateway.targetNode.toNat) ∧
        ∀ gateway ∈ (index.gateways.drop record.gatewayBegin.toNat).take position,
          GatewayOk index record gateway)
    ⟨rfl, fun gateway hgateway => absurd hgateway List.not_mem_nil⟩ ?_
  · rw [Nat.zero_add, List.length_range'] at hread
    obtain ⟨rfl, hgateways⟩ := hread
    refine ⟨record, hrecord, hbegin, ⟨hsource, htarget, hgateways, nodup_of_sorted hchain⟩, ?_⟩
    exact (congrArg Prod.fst (Except.ok.inj hnext)).symm
  · rintro position gatewayId targets next hgatewayId ⟨rfl, hgateways⟩ hcheck
    rw [Nat.zero_add] at hgateways ⊢
    obtain ⟨gateway, hgateway, hok, rfl⟩ := checkGateway_eq_ok hcheck
    obtain ⟨hposition, rfl⟩ : position < record.gatewayCount.toNat ∧
        record.gatewayBegin.toNat + position = gatewayId := by
      simpa [List.getElem?_eq_some_iff] using hgatewayId
    have hdropped : (index.gateways.drop record.gatewayBegin.toNat)[position]? = some gateway := by
      rw [List.getElem?_drop, hgateway]
    rw [take_succ hdropped]
    refine ⟨by simp, fun other hother => ?_⟩
    rcases List.mem_append.mp hother with hmem | hlast
    · exact hgateways other hmem
    · rwa [List.mem_singleton.mp hlast]

/-- The edges below `done`, whose Gateways end at `next`. -/
structure EdgesOk (index : Index) (done next : Nat) : Prop where
  tiles : TilesFrom 0 (index.edgeGatewayRanges.take done) next
  edges : ∀ edge < done, ∃ source record, index.communityEdges[edge]? = some record ∧
    (∃ range, index.edgeRanges[source]? = some range ∧ range.Holds edge) ∧
    EdgeOk index source record

theorem checkSourceEdges_eq_ok {source done next : Nat}
    (hcheck : checkSourceEdges index source done = .ok next) {first : Nat}
    (hfirst : (index.communityEdgeOffsets.map UInt64.toNat)[source]? = some first)
    (hedges : EdgesOk index first done) :
    ∃ last, (index.communityEdgeOffsets.map UInt64.toNat)[source + 1]? = some last ∧
      (first ≤ last → EdgesOk index last next) := by
  simp only [checkSourceEdges, bind_ok, element_eq_ok] at hcheck
  obtain ⟨begin, hbegin, last, hlast, ⟨reached, previous⟩, hscan, hnext⟩ := hcheck
  obtain rfl := Except.ok.inj hnext
  rw [List.getElem?_map, hbegin] at hfirst
  obtain rfl := Option.some.inj hfirst
  have hoffset : (index.communityEdgeOffsets.map UInt64.toNat)[source + 1]? = some last.toNat := by
    rw [List.getElem?_map, hlast]
    rfl
  have hbeginOffset : (index.communityEdgeOffsets.map UInt64.toNat)[source]? =
      some begin.toNat := by
    rw [List.getElem?_map, hbegin]
    rfl
  refine ⟨last.toNat, hoffset, fun hle => ?_⟩
  have hrange : index.edgeRanges[source]? =
      some ⟨begin.toNat, last.toNat - begin.toNat, 0 + source⟩ :=
    getElem?_rowRanges hbeginOffset hoffset
  have hinvariant := scan_invariant hscan
    (motive := fun position (state : Nat × Option Nat) =>
      EdgesOk index (begin.toNat + position) state.1) hedges ?_
  · rwa [Nat.zero_add, List.length_range', Nat.add_sub_cancel' hle] at hinvariant
  · rintro position edgeId ⟨expected, target⟩ after hedgeId hbelow hcheck
    rw [Nat.zero_add] at hbelow ⊢
    obtain ⟨hposition, rfl⟩ : position < last.toNat - begin.toNat ∧
        begin.toNat + position = edgeId := by
      simpa [List.getElem?_eq_some_iff] using hedgeId
    obtain ⟨record, hrecord, hgateway, hok, hafter⟩ := checkEdge_eq_ok hcheck
    rw [hafter, ← Nat.add_assoc]
    refine ⟨?_, fun edge hedge => ?_⟩
    · rw [Index.edgeGatewayRanges, take_succ (getElem?_numberedRanges hrecord)]
      exact hbelow.tiles.snoc hgateway
    · rcases Nat.lt_succ_iff_lt_or_eq.mp hedge with hbefore | rfl
      · exact hbelow.edges edge hbefore
      · refine ⟨source, record, hrecord, ⟨_, hrange, Nat.le_add_right _ _, ?_⟩, hok⟩
        change begin.toNat + position < begin.toNat + (last.toNat - begin.toNat)
        omega

theorem Accepted.edges_ok (accepted : Accepted index) :
    EdgesOk index index.communityEdges.length index.gateways.length := by
  have hglobals := checkGlobals_eq_ok accepted.globals
  have hsorted : (index.communityEdgeOffsets.map UInt64.toNat).Pairwise (· ≤ ·) := by
    apply List.isChain_iff_pairwise.mp
    exact (List.isChain_map UInt64.toNat).mpr hglobals.sorted
  have hinvariant := scan_invariant accepted.edges
    (motive := fun source next => ∃ first,
      (index.communityEdgeOffsets.map UInt64.toNat)[source]? = some first ∧
        EdgesOk index first next) ?_ ?_
  · obtain ⟨first, hfirst, hedges⟩ := hinvariant
    have hlast := hglobals.lastEdge
    rw [← List.getLast?_map, List.getLast?_eq_getElem?, List.length_map, hglobals.edgeOffsets,
      Nat.add_sub_cancel, ← Nat.zero_add index.communities.length, hfirst] at hlast
    rwa [Option.some.inj hlast] at hedges
  · refine ⟨0, ?_, rfl, fun edge hedge => absurd hedge (Nat.not_lt_zero edge)⟩
    rw [List.getElem?_map, ← List.head?_eq_getElem?, hglobals.firstEdge]
    rfl
  · rintro source record next after hrecord ⟨first, hfirst, hedges⟩ hcheck
    rw [Nat.zero_add] at hfirst hcheck ⊢
    obtain ⟨last, hlast, hok⟩ := checkSourceEdges_eq_ok hcheck hfirst hedges
    obtain ⟨hlow, rfl⟩ := List.getElem_of_getElem? hfirst
    obtain ⟨hhigh, rfl⟩ := List.getElem_of_getElem? hlast
    exact ⟨_, hlast, hok (List.pairwise_iff_getElem.mp hsorted _ _ hlow hhigh (by omega))⟩

end SkipCell.Sidecar

import SkipCell.Build.LocalityAcceptance

/-! # The repack by a PQ-locality profile

The packets of all nodes and the Gateways are found at their new positions, and the Cells are the
ranges of the profile.
-/

namespace SkipCell.Build

open Foundation Sidecar

/-- The bytes of a packet: the node id and its PQ code. -/
def packetRecord (index : Index) (packet : Nat) : List UInt8 :=
  subspan index.packetPayload (packet * index.recordBytes) index.recordBytes

/-- The packets lie in the order of the profile, the Cells are its ranges, and the Gateways name
the new positions of their targets. -/
structure Repacked (source : Index) (profile : PqLocalityProfile) (index : Index) : Prop where
  order : (profile.orderedNodes.map UInt32.toNat).Perm (List.range source.pointCount.toNat)
  packets : ∀ (position : Nat) (node : UInt32), profile.orderedNodes[position]? = some node →
    index.nodeToPacketRecord[node.toNat]?.map UInt64.toNat = some position ∧
    ∃ packet, source.nodeToPacketRecord[node.toNat]? = some packet ∧
      packetRecord index position = packetRecord source packet.toNat
  cellCount : index.cells.length + 1 = profile.cellOffsets.length
  cells : ∀ (cell : Nat) (first last : UInt64), profile.cellOffsets[cell]? = some first →
    profile.cellOffsets[cell + 1]? = some last →
    index.cells[cell]?.map (fun record => record.nodeCount.toNat) =
        some (last.toNat - first.toNat) ∧
      ∀ (position : Nat) (node : UInt32), profile.orderedNodes[position]? = some node →
        (index.nodeToCell[node.toNat]?.map UInt32.toNat = some cell ↔
          first.toNat ≤ position ∧ position < last.toNat)
  gatewayCount : index.gateways.length = source.gateways.length
  gateways : ∀ (place : Nat) (gateway : Gateway), source.gateways[place]? = some gateway →
    ∃ position, profile.orderedNodes[position]? = some gateway.targetNode ∧
      index.gateways[place]? = some { gateway with packetRecordIndex := .ofNat position }

section Repacked

variable {source : Index} {config : BuildConfig} {profile : PqLocalityProfile} {arrays : PqRepack}
  {gateways : List Gateway} {radius : Single}

theorem getElem?_spans_iff (hsuits : profile.Suits source) {cell position : Nat}
    {range : LabelledRange} (hspan : profile.spans[cell]? = some range)
    (hposition : position < source.pointCount.toNat) :
    (spread profile.spans)[position]? = some cell ↔ range.Holds position := by
  have hlabel : ∀ {number : Nat} {found : LabelledRange}, profile.spans[number]? = some found →
      found.label = number := by
    intro number found hfound
    have hmapped := congrArg (·[number]?)
      (labels_rowRanges 0 (profile.cellOffsets.map UInt64.toNat))
    change (profile.spans.map LabelledRange.label)[number]? = _ at hmapped
    rw [List.getElem?_map, hfound, Option.map_some] at hmapped
    obtain ⟨hbound, hvalue⟩ := List.getElem_of_getElem? hmapped.symm
    rw [List.getElem_range', Nat.zero_add, Nat.one_mul] at hvalue
    exact hvalue.symm
  constructor
  · intro hspread
    obtain ⟨owner, ⟨found, hfound, hholds⟩, -⟩ :=
      hsuits.tiles.existsUnique (Nat.zero_le _) hposition
    have hread := hsuits.tiles.getElem?_spread hfound hholds
    rw [Nat.sub_zero, hspread, hlabel hfound, Option.some.injEq] at hread
    subst hread
    rwa [← Option.some.inj (hspan.symm.trans hfound)] at hholds
  · intro hholds
    have hread := hsuits.tiles.getElem?_spread hspan hholds
    rwa [Nat.sub_zero, hlabel hspan] at hread

theorem repacked_of_packed (hsuits : profile.Suits source)
    (hfull : FullyPacked source config radius profile arrays)
    (hgateways : source.gateways.mapM (locateGateway arrays.nodeToPacketRecord) = .ok gateways) :
    Repacked source profile (repackedIndex source config profile radius arrays gateways) := by
  have hlies : ∀ (position : Nat) (node : UInt32), profile.orderedNodes[position]? = some node →
      ∃ label, (spread profile.spans)[position]? = some label ∧
        Lies source arrays position label node := by
    intro position node hnode
    have hinside := (List.getElem_of_getElem? hnode).1
    rw [hsuits.nodes, ← length_labels hsuits] at hinside
    obtain ⟨found, hfound, hlies⟩ :=
      hfull.moved.lies position _ (List.getElem?_eq_getElem hinside)
    obtain rfl := Option.some.inj (hnode.symm.trans hfound)
    exact ⟨_, List.getElem?_eq_getElem hinside, hlies⟩
  have hpopulated := hsuits.populated
  refine ⟨hsuits.perm, fun position node hnode => ?_, ?_, fun cell first last hfirst hlast => ?_,
    (mapM_eq_ok.mp hgateways).length_eq.symm, fun place gateway hgateway => ?_⟩
  · obtain ⟨label, -, hlies⟩ := hlies position node hnode
    obtain ⟨packet, hpacket, -, hsame⟩ := hlies.record
    exact ⟨hlies.packet, packet, hpacket, hsame⟩
  · change arrays.cells.length + 1 = _
    rw [hfull.count]
    omega
  · have hpair : (profile.cellOffsets.zip (profile.cellOffsets.drop 1))[cell]? =
        some (first, last) := by
      refine List.getElem?_zip_eq_some.mpr ⟨hfirst, ?_⟩
      rw [List.getElem?_drop, Nat.add_comm]
      exact hlast
    obtain ⟨hspan, hless, hinside⟩ := span_of_pair hsuits hpair
    refine ⟨?_, fun position node hnode => ?_⟩
    · have hrecord := List.getElem?_eq_getElem (hfull.count ▸ hinside)
      obtain ⟨begin, hcellSpan⟩ := (hfull.celled.records cell _ hrecord).span
      have hwidth := congrArg LabelledRange.count (Option.some.inj (hspan.symm.trans hcellSpan))
      change arrays.cells[cell]?.map _ = _
      rw [hrecord, Option.map_some]
      exact congrArg some hwidth.symm
    · obtain ⟨label, hlabel, hlies⟩ := hlies position node hnode
      have hposition := (List.getElem_of_getElem? hnode).1
      rw [hsuits.nodes] at hposition
      have hrow := getElem?_spans_iff hsuits hspan hposition
      rw [hlabel] at hrow
      change arrays.nodeToCell[node.toNat]?.map UInt32.toNat = some cell ↔ _
      rw [hlies.cell, hrow, LabelledRange.Holds, Nat.add_sub_cancel' (Nat.le_of_lt hless)]
  · have hplace := (List.getElem_of_getElem? hgateway).1
    rw [(mapM_eq_ok.mp hgateways).length_eq] at hplace
    have hlocated := convert_of_mapM_ok hgateways hgateway (List.getElem?_eq_getElem hplace)
    simp only [locateGateway, bind_ok, element_eq_ok, Except.ok.injEq] at hlocated
    obtain ⟨packet, hpacket, hnew⟩ := hlocated
    have htarget := (List.getElem_of_getElem? hpacket).1
    rw [hfull.moved.nodeToPacketRecord] at htarget
    obtain ⟨position, label, ordered, hordered, hsame, -, hlies⟩ :=
      node_lies hsuits hfull.moved htarget
    obtain rfl := UInt32.toNat_inj.mp hsame
    have hlocation := hlies.packet
    rw [hpacket, Option.map_some, Option.some.injEq] at hlocation
    subst hlocation
    refine ⟨packet.toNat, hordered, (List.getElem?_eq_getElem hplace).trans ?_⟩
    rw [UInt64.ofNat_toNat, hnew]

theorem repackPqLocalityProfile_eq_ok {index : Index}
    (hcount : source.pointCount.toNat < 2 ^ 32) (htarget : config.blockTargetSize ≠ 0)
    (hsuits : profile.Suits source)
    (hrepack : repackPqLocalityProfile source config profile = .ok index) :
    ∃ owner others arrays gateways, source.communities = owner :: others ∧
      FullyPacked source config owner.radius profile arrays ∧
      source.gateways.mapM (locateGateway arrays.nodeToPacketRecord) = .ok gateways ∧
      source.pointCount.toNat * source.recordBytes < 2 ^ 64 ∧
      index = repackedIndex source config profile owner.radius arrays gateways := by
  simp only [repackPqLocalityProfile, bind_ok, checkedMultiply_eq_ok, reject_ok,
    element_eq_ok, not_or, not_not, Except.ok.injEq] at hrepack
  obtain ⟨_, ⟨haddressed, rfl⟩, _, ⟨hpayload, -⟩, owner, howner, arrays, hscan, gateways,
    hgateways, rfl⟩ := hrepack
  obtain ⟨others, hcommunities⟩ : ∃ others, source.communities = owner :: others := by
    cases hlist : source.communities with
    | nil => rw [hlist] at howner; cases howner
    | cons head others =>
      rw [hlist] at howner
      obtain rfl := Option.some.inj howner
      exact ⟨others, rfl⟩
  exact ⟨owner, others, arrays, gateways, hcommunities,
    packed_of_scan hsuits ⟨hpayload, hsuits.nodes, hsuits.distinct⟩ hcount htarget hscan,
    hgateways, haddressed, rfl⟩

end Repacked

/-- A repack of an accepted index, with the settings that its caller has compared to those of the
source, moves the packets, Cells and Gateways as the profile says. It is accepted unless the
settings ask for adaptive capacities, which need a hierarchy. -/
theorem repackPqLocalityCellsImpl_repacked {files : String → Option (List UInt8)}
    {source index : Index} {profilePath : String} {config : BuildConfig}
    (hvalid : validateLoadedIndex source = .ok ()) (hconfig : validateBuildConfig config = .ok ())
    (hcommunities : config.communityCount = source.config.communityCount)
    (hgateways : config.gatewayCount = source.config.gatewayCount)
    (hrepack : repackPqLocalityCellsImpl files source profilePath config = .ok index) :
    (validateLoadedIndex index = .ok () ↔ config.adaptiveMultiCapacity = false) ∧
      ∃ file profile, files profilePath = some file ∧
        loadPqLocalityProfile source config file = .ok profile ∧ Repacked source profile index := by
  unfold repackPqLocalityCellsImpl at hrepack
  obtain ⟨_, hchecks, hrepack⟩ := bind_ok.mp hrepack
  simp only [reject_ok, not_or, not_not] at hchecks
  obtain ⟨hglobal, -, htarget, -⟩ := hchecks
  cases hfile : files profilePath with
  | none =>
    rw [hfile] at hrepack
    cases hrepack
  | some file =>
    rw [hfile] at hrepack
    obtain ⟨profile, hprofile, hrepack⟩ := bind_ok.mp hrepack
    have hsuits := loadPqLocalityProfile_suits hprofile
    have hcount := (counts_of_valid hvalid).1
    obtain ⟨accepted⟩ := accepted_of_valid hvalid
    rw [List.length_zip, accepted.globals_ok.nodeToCommunity, accepted.globals_ok.nodeToCell,
      Nat.min_self] at hcount
    obtain ⟨owner, others, arrays, gateways, hlist, hfull, hlocated, haddressed, rfl⟩ :=
      repackPqLocalityProfile_eq_ok hcount htarget hsuits hrepack
    refine ⟨⟨fun haccepted => ?_, fun hmode => ?_⟩, file, profile, rfl, hprofile,
      repacked_of_packed hsuits hfull hlocated⟩
    · simp only [validateLoadedIndex, bind_ok, reject_ok] at haccepted
      obtain ⟨_, -, _, -, _, -, _, -, _, -, _, -, _, -, _, -, _, -, _, -, _, -, _, -, _, -, _, -,
        _, -, _, hhierarchy, -⟩ := haccepted
      by_contra hmode
      exact hhierarchy ⟨by simpa [repackedIndex, repackedConfig] using hmode, Or.inl rfl⟩
    · exact repacked_valid hvalid hconfig hcommunities hgateways hglobal hmode hsuits hlist hfull
        hlocated haddressed

def secondNodeFirst : List UInt8 :=
  let payload := [appendU64Le 0, appendU64Le 1, appendU64Le 2, appendU32Le 1, appendU32Le 0,
    appendFloatLe .one, appendFloatLe .zero].flatten
  [kPqLocalityMagic, appendU32Le kPqLocalityVersion, appendU32Le kPqLocalityHeaderSize,
    appendU32Le kEndianMarker, appendU32Le 2, appendU32Le 1, appendU64Le 2, appendU64Le 2,
    appendU64Le (crc32Bytes payload).toUInt64, payload].flatten

def geometricConfig : BuildConfig := { twoNodes.config with cellPartition := .globalGeometric }

theorem repackPqLocalityCellsImpl_repacked_twoNodes :
    ∃ index profile, repackPqLocalityCellsImpl (fun _ => some secondNodeFirst) twoNodes
        "cells.pqloc" geometricConfig = .ok index ∧ validateLoadedIndex index = .ok () ∧
      loadPqLocalityProfile twoNodes geometricConfig secondNodeFirst = .ok profile ∧
      Repacked twoNodes profile index := by
  obtain ⟨index, hindex, -⟩ : ∃ index, repackPqLocalityCellsImpl (fun _ => some secondNodeFirst)
      twoNodes "cells.pqloc" geometricConfig = .ok index ∧ index.nodeToPacketRecord = [1, 0] :=
    exists_ok (by decide +kernel)
  obtain ⟨haccepted, file, profile, hfile, hprofile, hrepacked⟩ :=
    @repackPqLocalityCellsImpl_repacked _ _ _ _ geometricConfig twoNodes_valid
      (by decide +kernel) rfl rfl hindex
  obtain rfl := Option.some.inj hfile
  exact ⟨index, profile, hindex, haccepted.mpr rfl, hprofile, hrepacked⟩

/-- Adaptive capacities with the same Communities and Gateways. -/
def adaptiveConfig : BuildConfig :=
  { geometricConfig with
    cellTargetSize := 128
    adaptiveMultiCapacity := true
    adaptivePolicyVersion := 1
    adaptiveVectorBytes := 4 }

/-- An index that is repacked for adaptive capacities has no hierarchy yet, and is rejected. -/
theorem repackPqLocalityCellsImpl_adaptive : ¬ ∀ (files : String → Option (List UInt8))
    (source index : Index) (profilePath : String) (config : BuildConfig),
    validateLoadedIndex source = .ok () → validateBuildConfig config = .ok () →
    config.communityCount = source.config.communityCount →
    config.gatewayCount = source.config.gatewayCount →
    repackPqLocalityCellsImpl files source profilePath config = .ok index →
    validateLoadedIndex index = .ok () := by
  intro hclaim
  obtain ⟨index, hindex, hrejected⟩ : ∃ index,
      repackPqLocalityCellsImpl (fun _ => some secondNodeFirst) twoNodes "cells.pqloc"
        adaptiveConfig = .ok index ∧ validateLoadedIndex index =
          .error (.runtimeError "Adaptive multi-capacity Cells require a persisted hierarchy") :=
    exists_ok (by decide +kernel)
  rw [hclaim _ _ _ _ adaptiveConfig twoNodes_valid (by decide +kernel) rfl rfl hindex] at hrejected
  cases hrejected

end SkipCell.Build

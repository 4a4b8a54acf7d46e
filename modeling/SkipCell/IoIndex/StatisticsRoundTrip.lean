import SkipCell.IoIndex.StatisticsRecords

/-! # The group varint artifact is lossless

The artifact that a build composes for a topology passes the verifier, and whatever
passes the verifier is decoded to the lists of the topology.
-/

namespace SkipCell.IoIndex.AdjacencyStatistics

open Foundation Sidecar

/-! ## The topology -/

theorem readU32_ok (description : String) {bytes : List UInt8} (hbytes : 4 ≤ bytes.length) :
    ∃ value, readU32 description bytes = .ok (value, bytes.drop 4) := by
  obtain ⟨value, -, hread⟩ := ((FixedWidth.word
    (Error.runtimeError ("truncated " ++ description)) 4).map UInt32.ofNat).reads hbytes
  exact ⟨value, hread⟩

/-- What the parser has established about a topology. -/
structure WellFormed (topology : RawTopology) : Prop where
  points : topology.pointCount ≠ 0
  offsetsBytes : topology.offsets.bytes.toNat = (topology.pointCount.toNat + 1) * 8
  offsetsFit : topology.offsets.offset.toNat + (topology.pointCount.toNat + 1) * 8 ≤
    topology.file.length
  adjacencyFit : topology.adjacency.offset.toNat + topology.edgeCount.toNat * 4 ≤
    topology.file.length
  offsets : topology.checkOffsets = .ok ()

variable {raw artifact : List UInt8} {topology : RawTopology}

theorem wellFormed_of_parse (hparse : parseRawTopology raw = .ok topology) :
    WellFormed topology ∧ topology.file = raw := by
  simp only [parseRawTopology, sectionBytes, bind_ok, reject_ok] at hparse
  obtain ⟨_, -, header, -, _, hsections, offsets, ⟨_, hoffsetsFit, -⟩, adjacency,
    ⟨_, hadjacencyFit, -⟩, _, -, _, hoffsets, hresult⟩ := hparse
  obtain rfl := Except.ok.inj hresult
  simp only [RawTopology.checkSections, bind_ok, addChecked_eq_ok,
    multiplyChecked_eq_ok, reject_ok, not_or, not_not] at hsections
  obtain ⟨count, ⟨-, rfl⟩, expectedOffsets, ⟨-, rfl⟩, expectedAdjacency, ⟨-, rfl⟩, hpoints, -, -, -,
    hoffsetsBytes, -, hadjacencyBytes, -, -⟩ := hsections
  refine ⟨⟨hpoints, hoffsetsBytes, ?_, ?_, hoffsets⟩, rfl⟩
  · rw [← hoffsetsBytes]
    exact Nat.not_lt.mp hoffsetsFit
  · rw [← hadjacencyBytes]
    exact Nat.not_lt.mp hadjacencyFit

structure NodeList (topology : RawTopology) (node : Nat) (list : List UInt32) : Prop where
  neighbors : ∃ edges, topology.edges node = .ok edges ∧
    edges.mapM topology.rawNeighbor = .ok list ∧ edges.length = list.length
  degree : list.length ≤ topology.maximumDegree.toNat

namespace WellFormed

variable {topology : RawTopology}

theorem rawNeighbor_ok (htopology : WellFormed topology) {edge : Nat}
    (hedge : edge < topology.edgeCount.toNat) :
    ∃ target, topology.rawNeighbor edge = .ok target := by
  have hfit := htopology.adjacencyFit
  have hlong : 4 ≤ (topology.file.drop (topology.adjacency.offset.toNat + edge * 4)).length := by
    rw [List.length_drop]
    omega
  obtain ⟨target, hread⟩ := readU32_ok "raw topology adjacency target" hlong
  exact ⟨target, bind_ok.mpr ⟨_, hread, rfl⟩⟩

def OffsetsOf (topology : RawTopology) (node : Nat) (bound : UInt64) : Prop :=
  ∃ first last, topology.rawOffset node = .ok first ∧ topology.rawOffset (node + 1) = .ok last ∧
    first ≤ last ∧ last.toNat - first.toNat ≤ topology.maximumDegree.toNat ∧ last ≤ bound

theorem offsets_of (htopology : WellFormed topology) {node : Nat}
    (hnode : node < topology.pointCount.toNat) : OffsetsOf topology node topology.edgeCount := by
  have hoffsets := htopology.offsets
  simp only [RawTopology.checkOffsets, bind_ok, reject_ok, not_or, not_not] at hoffsets
  obtain ⟨first, hfirst, last, hlast, _, ⟨rfl, rfl⟩, final, hscan, -⟩ := hoffsets
  have hinvariant := scan_invariant
    (motive := fun position previous => topology.rawOffset position = .ok previous ∧
      ∀ node < position, OffsetsOf topology node previous)
    hscan ⟨hfirst, fun node hnode => absurd hnode (Nat.not_lt_zero node)⟩ ?_
  · obtain ⟨hfinal, hall⟩ := hinvariant
    rw [Nat.zero_add, List.length_range] at hfinal hall
    rw [hfinal] at hlast
    obtain rfl := Except.ok.inj hlast
    exact hall node hnode
  · rintro index _ previous next - ⟨hprevious, hbefore⟩ hbody
    rw [Nat.zero_add] at hprevious hbefore hbody ⊢
    simp only [bind_ok, reject_ok, not_or, UInt64.not_lt, Nat.not_lt] at hbody
    obtain ⟨offset, hoffset, _, ⟨hascending, hshort⟩, hnext⟩ := hbody
    obtain rfl := Except.ok.inj hnext
    refine ⟨hoffset, fun node hnode => ?_⟩
    rcases Nat.lt_succ_iff_lt_or_eq.mp hnode with hearlier | rfl
    · obtain ⟨first, last, hfirst, hlast, hle, hdegree, hbound⟩ := hbefore node hearlier
      exact ⟨first, last, hfirst, hlast, hle, hdegree, UInt64.le_trans hbound hascending⟩
    · exact ⟨previous, offset, hprevious, hoffset, hascending, hshort, UInt64.le_refl _⟩

theorem nodeList (htopology : WellFormed topology) {node : Nat}
    (hnode : node < topology.pointCount.toNat) : ∃ list, NodeList topology node list := by
  obtain ⟨first, last, hfirst, hlast, hle, hdegree, hbound⟩ := htopology.offsets_of hnode
  rw [UInt64.le_iff_toNat_le] at hle hbound
  set edges := List.range' first.toNat (last.toNat - first.toNat) with hedges
  have hinside : ∀ edge ∈ edges, ∃ target, topology.rawNeighbor edge = .ok target := by
    intro edge hedge
    obtain ⟨-, hlt⟩ := List.mem_range'_1.mp hedge
    exact htopology.rawNeighbor_ok (by omega)
  obtain ⟨list, hlist⟩ := exists_mapM_ok hinside
  have hlength := (mapM_eq_ok.mp hlist).length_eq
  refine ⟨list, ⟨edges, ?_, hlist, hlength⟩, ?_⟩
  · exact bind_ok.mpr ⟨first, hfirst, bind_ok.mpr ⟨last, hlast, rfl⟩⟩
  · rw [← hlength, hedges, List.length_range']
    exact hdegree

end WellFormed

theorem reads_statisticsHeader (header : StatisticsHeader) :
    Reads readStatisticsHeader (statisticsHeaderFields header) header := by
  simp only [readStatisticsHeader, readFingerprint, readSection, statisticsHeaderFields, bind_assoc,
    pure_bind, List.flatten_cons, List.flatten_nil, reads_wide_bind]
  rw [reads_reject_bind _ (by simp)]
  simp only [reads_narrow_bind]
  rw [reads_reject_bind _ (by simp)]
  simp only [reads_narrow_bind]
  rw [reads_reject_bind _ (by simp)]
  simp only [reads_narrow_bind]
  rw [reads_reject_bind _ (by decide)]
  simp only [reads_narrow_bind]
  rw [reads_reject_bind _ (by simp)]
  simp only [reads_wide_bind, reads_narrow_bind]
  exact .pure header

theorem length_serializeStatisticsHeader (header : StatisticsHeader) :
    (serializeStatisticsHeader header).length = kStatisticsHeaderBytes := by
  have hfields : (statisticsHeaderFields header).length = 144 := by
    simp only [statisticsHeaderFields, List.flatten_cons, List.flatten_nil, List.length_append,
      List.length_nil, length_appendU64Le, length_appendU32Le]
  rw [serializeStatisticsHeader, List.length_append, List.length_replicate, hfields]
  decide

theorem parseStatisticsHeader_serialize (header : StatisticsHeader) (rest : List UInt8) :
    parseStatisticsHeader (serializeStatisticsHeader header ++ rest) = .ok header := by
  have hread := reads_statisticsHeader header (List.replicate
    (kStatisticsHeaderBytes - (statisticsHeaderFields header).length) 0 ++ rest)
  rw [← List.append_assoc] at hread
  simp only [parseStatisticsHeader, bind_ok, reject_ok]
  refine ⟨(), ?_, _, hread, rfl⟩
  rw [List.length_append, length_serializeStatisticsHeader]
  omega

/-! ## The artifact that is composed -/

section Composed

variable {topology : RawTopology} {preserve : Bool} {lists : List (List UInt32)}

theorem length_offsetBytes (records : List (List UInt8)) :
    (serializeU64 (recordOffsets records)).length = (records.length + 1) * 8 := by
  rw [serializeU64, length_records length_appendU64Le, recordOffsets, List.length_map,
    List.length_scanl]

variable {records : List (List UInt8)} {node : Nat}

theorem getElem?_recordOffsets (hnode : node ≤ records.length) :
    (recordOffsets records)[node]? = some (.ofNat (records.take node).flatten.length) :=
  getElem?_running hnode

theorem drop_offsetBytes (hnode : node ≤ records.length) :
    (serializeU64 (recordOffsets records)).drop (node * 8) =
      appendU64Le (.ofNat (records.take node).flatten.length) ++
        (serializeU64 (recordOffsets records)).drop ((node + 1) * 8) := by
  obtain ⟨hlength, hvalue⟩ := List.getElem_of_getElem? (getElem?_recordOffsets hnode)
  rw [serializeU64, drop_records length_appendU64Le, drop_records length_appendU64Le,
    List.drop_eq_getElem_cons hlength, hvalue, List.flatMap_cons]

theorem recordRange_ok (hnode : node < records.length) :
    recordRange (serializeU64 (recordOffsets records)) node =
      .ok (.ofNat (records.take node).flatten.length,
        .ofNat (records.take (node + 1)).flatten.length) := by
  have hfirst := reads_wide "GroupVarint record offset"
    (.ofNat (records.take node).flatten.length)
    ((serializeU64 (recordOffsets records)).drop ((node + 1) * 8))
  have hlast := reads_wide "GroupVarint record end"
    (.ofNat (records.take (node + 1)).flatten.length)
    ((serializeU64 (recordOffsets records)).drop ((node + 1 + 1) * 8))
  rw [← drop_offsetBytes (Nat.le_of_lt hnode)] at hfirst
  rw [← drop_offsetBytes hnode] at hlast
  simp only [recordRange, bind_ok]
  exact ⟨_, hfirst, _, hlast, rfl⟩

theorem finalOffset_ok (records : List (List UInt8)) :
    ∃ rest, readU64 "GroupVarint final offset"
        ((serializeU64 (recordOffsets records)).drop (records.length * 8)) =
      .ok (.ofNat records.flatten.length, rest) := by
  rw [drop_offsetBytes (Nat.le_refl _), List.take_length]
  exact ⟨_, reads_wide _ _ _⟩

/-- The verifier accepts the record of a node, behind those before it. -/
theorem verifyNode_ok {list : List UInt32} (hlist : NodeList topology node list)
    (hdegree : list.length ≤ 255) (hnode : lists[node]? = some list)
    (hsmall : (lists.map (recordBytes preserve)).flatten.length < 2 ^ 64) (counted : Nat) :
    verifyNode topology preserve (serializeU64 (recordOffsets (lists.map (recordBytes preserve))))
        (lists.map (recordBytes preserve)).flatten node
        (.ofNat ((lists.map (recordBytes preserve)).take node).flatten.length, counted) =
      .ok (.ofNat ((lists.map (recordBytes preserve)).take (node + 1)).flatten.length,
        counted + (recordPermutation preserve list).length) := by
  set records := lists.map (recordBytes preserve) with hrecords
  have hrecord : records[node]? = some (recordBytes preserve list) := by
    rw [hrecords, List.getElem?_map, hnode]
    rfl
  obtain ⟨edges, hedges, hneighbors, hlength⟩ := hlist.neighbors
  have hnext := length_take_succ hrecord
  have hbound := length_flatten_take records (node + 1)
  have hslice : subspan records.flatten (records.take node).flatten.length
      ((records.take (node + 1)).flatten.length - (records.take node).flatten.length) =
      recordBytes preserve list := by
    rw [hnext, Nat.add_sub_cancel_left, subspan_flatten_take hrecord]
  have hrange := recordRange_ok (List.getElem_of_getElem? hrecord).1
  have hread : readDegree (subspan records.flatten
      (UInt64.ofNat (records.take node).flatten.length).toNat
      ((UInt64.ofNat (records.take (node + 1)).flatten.length).toNat -
        (UInt64.ofNat (records.take node).flatten.length).toNat)) =
      .ok (list.length, recordPermutation preserve list ++
        encodeGroupVarint (sortedList list)) := by
    rw [toNat_running hsmall, toNat_running hsmall, hslice]
    exact readDegree_record preserve hdegree
  have hordered : ¬ (UInt64.ofNat (records.take (node + 1)).flatten.length <
      UInt64.ofNat (records.take node).flatten.length ∨ records.flatten.length <
        (UInt64.ofNat (records.take (node + 1)).flatten.length).toNat) := by
    rw [UInt64.lt_iff_toNat_lt, toNat_running hsmall, toNat_running hsmall]
    omega
  simp only [verifyNode, bind_ok, reject_ok]
  refine ⟨_, hrange, (), fun hbad => hordered (hbad.resolve_left (not_not.mpr rfl)), _, hread, edges,
    hedges, (), not_not.mpr hlength.symm, _, readBody_record preserve list, list, hneighbors, ?_⟩
  cases preserve with
  | false =>
    simp only [Bool.false_eq_true, if_false, bind_ok, reject_ok]
    exact ⟨(), not_not.mpr rfl, trivial⟩
  | true =>
    simp only [if_true, bind_ok, reject_ok]
    exact ⟨list, restore_ok hdegree, (), not_not.mpr rfl, trivial⟩

theorem permutationBytes_succ {list : List UInt32} (hnode : lists[node]? = some list) :
    permutationBytes preserve (lists.take (node + 1)) =
      permutationBytes preserve (lists.take node) + (recordPermutation preserve list).length := by
  rw [length_recordPermutation, List.take_add_one, hnode]
  unfold permutationBytes
  split
  · simp
  · rfl

theorem scan_verifyNode (hlists : ∀ (node : Nat) list, lists[node]? = some list →
      NodeList topology node list ∧ list.length ≤ 255)
    (hsmall : (lists.map (recordBytes preserve)).flatten.length < 2 ^ 64) :
    scan (fun node _ => verifyNode topology preserve
        (serializeU64 (recordOffsets (lists.map (recordBytes preserve))))
        (lists.map (recordBytes preserve)).flatten node)
      0 (List.range lists.length) (0, 0) =
    .ok (.ofNat (lists.map (recordBytes preserve)).flatten.length,
      permutationBytes preserve lists) := by
  let replayed (node : Nat) : UInt64 × Nat :=
    (.ofNat ((lists.map (recordBytes preserve)).take node).flatten.length,
      permutationBytes preserve (lists.take node))
  have hstart : replayed 0 = (0, 0) := by
    cases preserve <;> rfl
  let body (node _ : Nat) := verifyNode topology preserve
    (serializeU64 (recordOffsets (lists.map (recordBytes preserve))))
    (lists.map (recordBytes preserve)).flatten node
  have hstep : ∀ index node state, (List.range lists.length)[index]? = some node →
      state = replayed (0 + index) →
      ∃ next, body (0 + index) node state = .ok next ∧ next = replayed (0 + index + 1) := by
    intro index node state hindex hstate
    have hnode := (List.getElem_of_getElem? hindex).1
    rw [List.length_range] at hnode
    have hlist : lists[index]? = some lists[index] := List.getElem?_eq_getElem hnode
    obtain ⟨hlistOf, hdegree⟩ := hlists index _ hlist
    subst hstate
    rw [Nat.zero_add]
    refine ⟨_, verifyNode_ok hlistOf hdegree hlist hsmall _, ?_⟩
    rw [← permutationBytes_succ hlist]
  obtain ⟨last, hscan, hlast⟩ :=
    scan_total (motive := fun position state => state = replayed position) hstart.symm hstep
  rw [hscan, hlast, Nat.zero_add, List.length_range]
  have hrecords : (lists.map (recordBytes preserve)).take lists.length =
      lists.map (recordBytes preserve) := List.take_of_length_le (by rw [List.length_map])
  simp only [replayed, hrecords, List.take_length]

theorem sectionBytes_ok {file bytes : List UInt8} {offset : Nat} (before behind : List UInt8)
    (hfile : file = before ++ (bytes ++ behind)) (hoffset : before.length = offset)
    (hsize : file.length < 2 ^ 64) : sectionBytes (placeSection offset bytes) file = .ok bytes := by
  obtain ⟨hread, hplace, hbytes⟩ := read_placeSection before behind hfile hoffset hsize
  have hlength := congrArg List.length hfile
  rw [List.length_append, List.length_append] at hlength
  simp only [sectionBytes, bind_ok, reject_ok]
  exact ⟨(), by omega, congrArg Except.ok hread⟩

theorem statisticsFlags : ∀ preserve : Bool,
    (if preserve then requiredFlags ||| kPreservesNeighborOrderFlag else requiredFlags) &&&
        requiredFlags = requiredFlags ∧
      (if preserve then requiredFlags ||| kPreservesNeighborOrderFlag else requiredFlags) &&&
        ~~~(requiredFlags ||| kPreservesNeighborOrderFlag) = 0 ∧
      decide ((if preserve then requiredFlags ||| kPreservesNeighborOrderFlag else requiredFlags) &&&
        kPreservesNeighborOrderFlag ≠ 0) = preserve := by
  decide

theorem checkMetadata_ok (htopology : WellFormed topology)
    (hpoints : lists.length = topology.pointCount.toNat)
    (hlimit : (artifactBytes topology preserve lists).length < fileSizeLimit) :
    checkMetadata topology (statisticsHeader topology preserve lists)
      (artifactBytes topology preserve lists) = .ok () := by
  set records := lists.map (recordBytes preserve) with hrecords
  have hoffsetBytes : (serializeU64 (recordOffsets records)).length = (lists.length + 1) * 8 := by
    rw [length_offsetBytes, hrecords, List.length_map]
  have hsize : (artifactBytes topology preserve lists).length =
      kStatisticsHeaderBytes + (serializeU64 (recordOffsets records)).length +
        records.flatten.length := by
    rw [artifactBytes, List.length_append, List.length_append, length_serializeStatisticsHeader]
  have hexact : ∀ value, value ≤ (artifactBytes topology preserve lists).length →
      (UInt64.ofNat value).toNat = value := by
    intro value hvalue
    rw [fileSizeLimit] at hlimit
    rw [UInt64.toNat_ofNat']
    exact Nat.mod_eq_of_lt (by omega)
  have hoffset : (statisticsHeader topology preserve lists).offsets.offset.toNat =
      kStatisticsHeaderBytes := hexact kStatisticsHeaderBytes (by omega)
  have hbytes : (statisticsHeader topology preserve lists).offsets.bytes.toNat =
      (lists.length + 1) * 8 :=
    (hexact (serializeU64 (recordOffsets records)).length (by omega)).trans hoffsetBytes
  have hpayload : (statisticsHeader topology preserve lists).payload.offset.toNat =
      kStatisticsHeaderBytes + (serializeU64 (recordOffsets records)).length :=
    hexact (kStatisticsHeaderBytes + (serializeU64 (recordOffsets records)).length) (by omega)
  have hpayloadBytes : (statisticsHeader topology preserve lists).payload.bytes.toNat =
      records.flatten.length := hexact records.flatten.length (by omega)
  have hflags : (statisticsHeader topology preserve lists).flags &&& requiredFlags =
        requiredFlags ∧
      (statisticsHeader topology preserve lists).flags &&&
        ~~~(requiredFlags ||| kPreservesNeighborOrderFlag) = 0 :=
    ⟨(statisticsFlags preserve).1, (statisticsFlags preserve).2.1⟩
  have hfollows : (statisticsHeader topology preserve lists).payload.offset =
      (statisticsHeader topology preserve lists).offsets.offset +
        (statisticsHeader topology preserve lists).offsets.bytes :=
    UInt64.ofNat_add _ _
  have hends : (statisticsHeader topology preserve lists).payload.offset +
      (statisticsHeader topology preserve lists).payload.bytes =
      .ofNat (artifactBytes topology preserve lists).length := by
    rw [hsize]
    exact (UInt64.ofNat_add _ _).symm
  rw [fileSizeLimit] at hlimit
  simp only [checkMetadata, bind_ok, addChecked_eq_ok, multiplyChecked_eq_ok, reject_ok]
  refine ⟨_, ⟨?_, rfl⟩, _, ⟨?_, rfl⟩, ?_⟩
  · change topology.pointCount.toNat + 1 < 2 ^ 64
    omega
  · change (topology.pointCount.toNat + 1) * 8 < 2 ^ 64
    omega
  · simp only [not_or, not_not, Nat.not_lt]
    refine ⟨hflags.1, hflags.2, rfl, rfl, rfl, rfl, rfl, rfl, hoffset, ?_, hfollows, ?_, ?_, hends⟩
    · rw [hbytes, hpoints]
      rfl
    · omega
    · omega

theorem verify_artifactBytes {raw : List UInt8} (hparse : parseRawTopology raw = .ok topology)
    (hpoints : lists.length = topology.pointCount.toNat)
    (hlists : ∀ (node : Nat) list, lists[node]? = some list →
      NodeList topology node list ∧ list.length ≤ 255)
    (hlimit : (artifactBytes topology preserve lists).length < fileSizeLimit) :
    verify raw (artifactBytes topology preserve lists) =
      .ok (makeResult (statisticsHeader topology preserve lists)
        (artifactBytes topology preserve lists)) := by
  obtain ⟨htopology, -⟩ := wellFormed_of_parse hparse
  have hmetadata := checkMetadata_ok htopology hpoints hlimit
  have hheader := parseStatisticsHeader_serialize (statisticsHeader topology preserve lists)
    (serializeU64 (recordOffsets (lists.map (recordBytes preserve))) ++
      (lists.map (recordBytes preserve)).flatten)
  rw [← List.append_assoc] at hheader
  have hsize : (artifactBytes topology preserve lists).length < 2 ^ 64 := hlimit.trans (by decide)
  have hoffsets : sectionBytes (statisticsHeader topology preserve lists).offsets
      (artifactBytes topology preserve lists) =
      .ok (serializeU64 (recordOffsets (lists.map (recordBytes preserve)))) :=
    sectionBytes_ok (serializeStatisticsHeader (statisticsHeader topology preserve lists))
      (lists.map (recordBytes preserve)).flatten (List.append_assoc _ _ _)
      (length_serializeStatisticsHeader _) hsize
  have hpayload : sectionBytes (statisticsHeader topology preserve lists).payload
      (artifactBytes topology preserve lists) =
      .ok (lists.map (recordBytes preserve)).flatten := by
    refine sectionBytes_ok (serializeStatisticsHeader (statisticsHeader topology preserve lists) ++
      serializeU64 (recordOffsets (lists.map (recordBytes preserve)))) [] ?_ ?_ hsize
    · rw [List.append_nil]
      rfl
    · rw [List.length_append, length_serializeStatisticsHeader]
  have hsmall : (lists.map (recordBytes preserve)).flatten.length < 2 ^ 64 := by
    rw [artifactBytes, List.length_append] at hsize
    omega
  have hpreserves : (statisticsHeader topology preserve lists).preservesOrder = preserve :=
    (statisticsFlags preserve).2.2
  have hnodes : (statisticsHeader topology preserve lists).pointCount.toNat = lists.length :=
    hpoints.symm
  have hscan := scan_verifyNode hlists hsmall
  obtain ⟨rest, hfinal⟩ := finalOffset_ok (lists.map (recordBytes preserve))
  rw [List.length_map] at hfinal
  have hwhole : (UInt64.ofNat (lists.map (recordBytes preserve)).flatten.length).toNat =
      (lists.map (recordBytes preserve)).flatten.length := by
    rw [UInt64.toNat_ofNat']
    exact Nat.mod_eq_of_lt hsmall
  simp only [verify, bind_ok, reject_ok]
  refine ⟨topology, hparse, statisticsHeader topology preserve lists, hheader, (), hmetadata, _,
    hoffsets, _, hpayload, (), ?_,
    (.ofNat (lists.map (recordBytes preserve)).flatten.length, permutationBytes preserve lists), ?_,
    (.ofNat (lists.map (recordBytes preserve)).flatten.length, rest), ?_, (), ?_, rfl⟩
  · rintro (hbad | hbad) <;> exact hbad rfl
  · rw [hpreserves, hnodes]
    exact hscan
  · rw [hnodes]
    exact hfinal
  · rintro (hbad | hbad | hbad)
    · exact hbad hwhole
    · exact hbad hwhole
    · exact hbad rfl

end Composed

/-- Every node's list is decoded, in the order that the artifact keeps. -/
def Decodes (topology : RawTopology) (artifact : List UInt8) (preserve : Bool) : Prop :=
  ∀ node < topology.pointCount.toNat, ∃ list, topology.neighbors node = .ok list ∧
    decodeNode artifact node = .ok (if preserve then list else sortedList list)

theorem decodes_of_verify {result : StatisticsResult} (hparse : parseRawTopology raw = .ok topology)
    (hverify : verify raw artifact = .ok result) :
    Decodes topology artifact result.preservesNeighborOrder := by
  simp only [verify, bind_ok, reject_ok] at hverify
  obtain ⟨found, hfound, header, hheader, _, hmetadata, offsets, hoffsets, payload, hpayload, _, -,
    _, hscan, _, -, _, -, hresult⟩ := hverify
  obtain rfl := Except.ok.inj (hparse.symm.trans hfound)
  obtain rfl := Except.ok.inj hresult
  have hpoints : header.pointCount = topology.pointCount := by
    simp only [checkMetadata, bind_ok, reject_ok, not_or, not_not] at hmetadata
    obtain ⟨_, -, _, -, -, -, hpoints, -⟩ := hmetadata
    exact hpoints
  intro node hnode
  rw [← hpoints] at hnode
  obtain ⟨before, after, hbody⟩ := scan_accepts hscan (List.getElem?_range hnode)
  rw [Nat.zero_add] at hbody
  simp only [verifyNode, bind_ok, reject_ok] at hbody
  obtain ⟨range, hrange, _, -, ⟨degree, body⟩, hdegree, edges, hedges, _, -, ⟨permutation, sorted⟩,
    hread, list, hneighbors, hcompare⟩ := hbody
  refine ⟨list, bind_ok.mpr ⟨edges, hedges, hneighbors⟩, ?_⟩
  simp only [decodeNode, bind_ok]
  refine ⟨header, hheader, offsets, hoffsets, payload, hpayload, range, hrange, (degree, body),
    hdegree, (permutation, sorted), hread, ?_⟩
  change (if header.preservesOrder then _ else _) = Except.ok (if header.preservesOrder then _ else _)
  split at hcompare
  next hpreserves =>
    simp only [bind_ok, reject_ok, not_not] at hcompare
    obtain ⟨restored, hrestored, _, rfl, -⟩ := hcompare
    rw [if_pos hpreserves, if_pos hpreserves]
    exact hrestored
  next hsorted =>
    simp only [bind_ok, reject_ok, not_not] at hcompare
    obtain ⟨_, rfl, -⟩ := hcompare
    rw [if_neg hsorted, if_neg hsorted]

/-! ## What the builder writes -/

/-- The topologies that a build refuses: the declared bound on the degrees is too large, a
target is no point, or the artifact is too long for a file. -/
inductive Refused (topology : RawTopology) (preserve : Bool) : Prop
  | degree (hdegree : 255 < topology.maximumDegree.toNat)
  | target {node : Nat} {list : List UInt32} {target : UInt32}
      (hnode : node < topology.pointCount.toNat) (hlist : topology.neighbors node = .ok list)
      (hmem : target ∈ list) (htarget : topology.pointCount.toNat ≤ target.toNat)
  | size {lists : List (List UInt32)}
      (hlists : (List.range topology.pointCount.toNat).mapM topology.neighbors = .ok lists)
      (hsize : fileSizeLimit ≤ (artifactBytes topology preserve lists).length)

theorem NodeList.neighbors_ok {node : Nat} {list : List UInt32}
    (hlist : NodeList topology node list) : topology.neighbors node = .ok list := by
  obtain ⟨edges, hedges, hneighbors, -⟩ := hlist.neighbors
  exact bind_ok.mpr ⟨edges, hedges, hneighbors⟩

theorem checkedNeighbors_ok {node : Nat} {list : List UInt32} (hlist : NodeList topology node list)
    (htargets : ∀ target ∈ list, target.toNat < topology.pointCount.toNat) :
    checkedNeighbors topology node = .ok list := by
  obtain ⟨edges, hedges, hneighbors, -⟩ := hlist.neighbors
  refine bind_ok.mpr ⟨edges, hedges, mapM_eq_ok.mpr ?_⟩
  have hall := mapM_eq_ok.mp hneighbors
  clear hedges hneighbors hlist
  induction hall with
  | nil => exact .nil
  | cons hread _ ih =>
    obtain ⟨htarget, hrest⟩ := List.forall_mem_cons.mp htargets
    refine .cons ?_ (ih hrest)
    simp only [bind_ok, reject_ok]
    exact ⟨_, hread, (), Nat.not_le.mpr htarget, rfl⟩

theorem build_ok {preserve : Bool} (hparse : parseRawTopology raw = .ok topology)
    (haccepted : ¬ Refused topology preserve) :
    ∃ artifact result, build raw preserve = .ok (artifact, result) := by
  obtain ⟨htopology, -⟩ := wellFormed_of_parse hparse
  have hdegree : topology.maximumDegree.toNat ≤ 255 :=
    Nat.not_lt.mp fun hlarge => haccepted (.degree hlarge)
  have hnodes : ∀ node ∈ List.range topology.pointCount.toNat,
      ∃ list, topology.neighbors node = .ok list := by
    intro node hnode
    obtain ⟨list, hlist⟩ := htopology.nodeList (List.mem_range.mp hnode)
    exact ⟨list, hlist.neighbors_ok⟩
  obtain ⟨lists, hlists⟩ := exists_mapM_ok hnodes
  have hpoints : lists.length = topology.pointCount.toNat := by
    rw [← (mapM_eq_ok.mp hlists).length_eq, List.length_range]
  have hlistOf : ∀ (node : Nat) list, lists[node]? = some list →
      NodeList topology node list ∧ list.length ≤ 255 := by
    intro node list hlist
    have hnode : node < topology.pointCount.toNat := by
      rw [← hpoints]
      exact (List.getElem_of_getElem? hlist).1
    obtain ⟨other, hother⟩ := htopology.nodeList hnode
    have hsame := convert_of_mapM_ok hlists (List.getElem?_range hnode) hlist
    obtain rfl := Except.ok.inj (hsame.symm.trans hother.neighbors_ok)
    exact ⟨hother, hother.degree.trans hdegree⟩
  have hchecked : (List.range topology.pointCount.toNat).mapM (checkedNeighbors topology) =
      .ok lists := by
    refine (mapM_congr fun node hnode => ?_).trans hlists
    rw [List.mem_range] at hnode
    obtain ⟨list, hlist⟩ := htopology.nodeList hnode
    rw [hlist.neighbors_ok]
    apply checkedNeighbors_ok hlist
    intro target hmem
    exact Nat.not_le.mp fun htarget =>
      haccepted (.target hnode hlist.neighbors_ok hmem htarget)
  have hlimit : (artifactBytes topology preserve lists).length < fileSizeLimit :=
    Nat.not_le.mp fun hlarge => haccepted (.size hlists hlarge)
  have hoffsetsFit : kStatisticsHeaderBytes + (lists.length + 1) * 8 < 2 ^ 64 := by
    have hparts := hlimit
    rw [artifactBytes, List.length_append, List.length_append, length_serializeStatisticsHeader,
      length_offsetBytes, List.length_map, fileSizeLimit] at hparts
    omega
  simp only [build, bind_ok, reject_ok, addChecked_eq_ok]
  exact ⟨_, _, topology, hparse, (), Nat.not_lt.mpr hdegree, lists, hchecked, _,
    ⟨hoffsetsFit, rfl⟩, (), Nat.not_le.mpr hlimit, _,
    verify_artifactBytes hparse hpoints hlistOf hlimit, rfl⟩

theorem verified_of_build {preserve : Bool} {result : StatisticsResult}
    (hbuild : build raw preserve = .ok (artifact, result)) :
    verify raw artifact = .ok result ∧ result.preservesNeighborOrder = preserve := by
  simp only [build, bind_ok, reject_ok] at hbuild
  obtain ⟨topology, -, _, -, lists, -, _, -, _, -, found, hverify, hresult⟩ := hbuild
  obtain ⟨rfl, rfl⟩ := Prod.mk.inj (Except.ok.inj hresult)
  refine ⟨hverify, ?_⟩
  simp only [verify, bind_ok] at hverify
  obtain ⟨_, -, header, hheader, _, -, _, -, _, -, _, -, _, -, _, -, _, -, hmade⟩ := hverify
  obtain rfl := Except.ok.inj hmade
  have hwritten := parseStatisticsHeader_serialize (statisticsHeader topology preserve lists)
    (serializeU64 (recordOffsets (lists.map (recordBytes preserve))) ++
      (lists.map (recordBytes preserve)).flatten)
  rw [← List.append_assoc] at hwritten
  obtain rfl := Except.ok.inj (hwritten.symm.trans hheader)
  exact (statisticsFlags preserve).2.2

/-- Whatever a build writes passes the verifier and is decoded to the lists of the topology,
and only a refused topology is left without an artifact. Whatever else passes the
verifier is decoded to the lists as well. -/
theorem groupvarint_lossless {raw : List UInt8} {topology : RawTopology}
    (hparse : parseRawTopology raw = .ok topology) :
    (∀ preserve,
      (∀ artifact result, build raw preserve = .ok (artifact, result) →
        verify raw artifact = .ok result ∧ Decodes topology artifact preserve) ∧
      (Refused topology preserve ∨
        ∃ artifact result, build raw preserve = .ok (artifact, result))) ∧
    ∀ artifact result, verify raw artifact = .ok result →
      Decodes topology artifact result.preservesNeighborOrder := by
  refine ⟨fun preserve => ⟨?_, ?_⟩, fun artifact result => decodes_of_verify hparse⟩
  · intro artifact result hbuild
    obtain ⟨hverify, hmode⟩ := verified_of_build hbuild
    exact ⟨hverify, hmode ▸ decodes_of_verify hparse hverify⟩
  · by_cases hrefused : Refused topology preserve
    · exact .inl hrefused
    · exact .inr (build_ok hparse hrefused)

/-- Two nodes, the first with both as its neighbors. -/
def twoNodes : List UInt8 :=
  let offsetBytes := serializeU64 [0, 2, 2]
  let adjacencyBytes := serializeU32 [1, 0]
  serializeHeader
    { version := 5
      pointCount := 2
      dimension := 1
      maxDegree := 2
      encoding := .rawU32
      layout := .originalId
      edgeCount := 2
      vectorPageCount := 1
      cellCount := 0
      base := {}
      vectors := {}
      offsets := placeSection 320 offsetBytes
      adjacency := placeSection 344 adjacencyBytes
      directory := {}
      cellDirectory := {}
      prefetchDirectory := {} } ++ offsetBytes ++ adjacencyBytes

theorem groupvarint_lossless_twoNodes :
    ∃ topology, parseRawTopology twoNodes = .ok topology ∧ topology.pointCount = 2 ∧
      ∀ artifact result, build twoNodes true = .ok (artifact, result) →
        verify twoNodes artifact = .ok result ∧ Decodes topology artifact true := by
  have hevaluated : (parseRawTopology twoNodes).toOption.any
      (fun topology => decide (topology.pointCount = 2)) = true := by
    decide +kernel
  obtain ⟨topology, hparse, hpoints⟩ := exists_ok hevaluated
  exact ⟨topology, hparse, hpoints, ((groupvarint_lossless hparse).1 true).1⟩

end SkipCell.IoIndex.AdjacencyStatistics

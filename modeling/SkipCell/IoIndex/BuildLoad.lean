import SkipCell.IoIndex.Reload

/-! # Build, then load

The loader accepts what a build wrote exactly when every vector is at a multiple of
four bytes. It then returns what the build computed, and in the paged mode the lists
as far as their pages are whole.
-/

namespace SkipCell.IoIndex

open Foundation Sidecar

/-! ## What a build makes sure of -/

theorem trimmedNeighbors_sublist (rcni : List Double) (trimmed : List UInt32) (node : Nat)
    (neighbors : List UInt32) : (trimmedNeighbors rcni trimmed node neighbors).Sublist neighbors := by
  unfold trimmedNeighbors
  split
  next => exact List.eraseIdx_sublist _ _
  next => exact List.Sublist.refl _

variable {input : BuildInput} {index : Option Index} {records : List BaseRecord}
    {compress : Option Compress} {artifacts : Artifacts}

theorem adjacencyLists_fit {metadata : DiskLayoutMetadata}
    (hfits : ∀ record ∈ records, record.Fits metadata) {list : List UInt32}
    (hlist : list ∈ adjacencyLists input index records) :
    list.length ≤ metadata.maxDegree.toNat ∧
      ∀ target ∈ list, target.toNat < metadata.pointCount.toNat := by
  obtain ⟨node, hnode, rfl⟩ := List.mem_mapIdx.mp hlist
  have hrecord := hfits _ (List.getElem_mem hnode)
  have hsublist := trimmedNeighbors_sublist (input.normalizedRcni.getD [])
    (trimmedNodes input index) node records[node].neighbors
  exact ⟨hsublist.length_le.trans hrecord.degree,
    fun target htarget => hrecord.targets target (hsublist.subset htarget)⟩

theorem readDiskLayoutMetadata_points {disk : List UInt8} {metadata : DiskLayoutMetadata}
    (hread : readDiskLayoutMetadata disk = .ok metadata) : metadata.pointCount ≠ 0 := by
  simp only [readDiskLayoutMetadata, bind_ok, reject_ok, not_or] at hread
  obtain ⟨_, -, _, -, ⟨pointCount, _⟩, hpoints, _, -, _, -, _, -, _, -, _, -, _, -, _, -, _,
    ⟨-, -, hsome, -⟩, hrest⟩ := hread
  have hbound := (readWord_eq_ok hpoints).2
  have hpointCount : metadata.pointCount = .ofNat pointCount := by
    split at hrest
    next =>
      simp only [bind_ok] at hrest
      obtain ⟨_, -, _, -, _, -, _, -, _, -, hmetadata⟩ := hrest
      exact congrArg DiskLayoutMetadata.pointCount (Except.ok.inj hmetadata).symm
    next =>
      simp only [bind_ok] at hrest
      obtain ⟨_, -, _, -, _, -, hmetadata⟩ := hrest
      exact congrArg DiskLayoutMetadata.pointCount (Except.ok.inj hmetadata).symm
  intro hzero
  have hnat := congrArg UInt64.toNat (hpointCount.symm.trans hzero)
  rw [UInt64.toNat_ofNat'] at hnat
  change pointCount % 2 ^ 64 = 0 at hnat
  change ¬ pointCount = 0 at hsome
  omega

theorem loadIndex_size {file : List UInt8} {index : Index} (hload : loadIndex file = .ok index) :
    (fingerprintFile file).sizeBytes ≠ 0 := by
  simp only [loadIndex, loadDirectory, bind_ok, reject_ok, not_or] at hload
  obtain ⟨_, ⟨_, hlimit, _, -, _, ⟨-, -, -, -, -, -, hlong, -⟩, -⟩, -⟩ := hload
  have hheader : 0 < kFixedHeaderSize := by decide
  intro hzero
  have hsize : file.length % 2 ^ 64 = 0 := by
    have hnat := congrArg UInt64.toNat hzero
    rwa [fingerprintFile, UInt64.toNat_ofNat'] at hnat
  rw [fileSizeLimit] at hlimit
  omega

/-- The part of `Ready` that is about the Cells. -/
theorem cells_ready {vectors : List (List UInt8)} {slots : List PlacedSlot}
    (hcontents : ContentsBuilt input compress artifacts.contents index records vectors)
    (hbuilt : Built input compress artifacts) (hcounts : CountsFit input artifacts.contents)
    (hlaid : VectorsLaidOut input artifacts)
    (hall : AllPlaced (vectorBytes input.layout artifacts.contents.metadata) vectors
      artifacts.contents.placed.writer slots) (hsidecar : ∀ sidecar, index = some sidecar →
      SidecarPlaced input artifacts.contents vectors slots sidecar) :
    CellsCover input.layout artifacts.contents ∧
      (input.layout.isCell = true → artifacts.contents.placed.cellRanges ≠ []) ∧
      (∀ hint ∈ artifacts.contents.gatewayHints,
        checkGatewayHint (artifacts.contents.header input.layout)
          artifacts.contents.placed.writer.locations artifacts.contents.placed.cellRanges hint =
            .ok ()) ∧
      (artifacts.contents.gatewayHints ≠ [] → input.layout.isCell = true ∧
        artifacts.contents.communityPolar.sizeBytes ≠ 0) := by
  have hopened := hcontents.opened
  have hplaced := hcontents.placed
  have hhints := hcontents.hints
  cases index with
  | none =>
    have hranges : artifacts.contents.placed.cellRanges = [] := by
      rw [hplaced]
      rfl
    refine ⟨⟨?_, fun _ => hranges, ?_⟩, ?_, ?_, ?_⟩
    · intro hcell
      exact absurd (hopened.symm.trans hcell) Bool.false_ne_true
    · rw [hranges]
      exact fun range hrange => absurd hrange List.not_mem_nil
    · intro hcell
      exact absurd (hopened.symm.trans hcell) Bool.false_ne_true
    · rw [hhints]
      exact fun hint hhint => absurd hhint List.not_mem_nil
    · exact fun hsome => absurd hhints hsome
  | some sidecar =>
    obtain ⟨hcell, hopened⟩ := hopened
    obtain ⟨hload, -, -, hnonempty⟩ := openSidecar_eq_ok hopened
    have hcells := hsidecar sidecar rfl
    obtain ⟨packetOrder, placement, hslots⟩ := hcells.placed
    have hlaidCells := hslots.laidOut hcontents.positive hbuilt.pagesWritten_lt hcells.nodes
      hcells.count
    have hfew := (counts_of_valid hcells.valid).2
    refine ⟨⟨?_, ?_, ?_⟩, ?_, ?_, ?_⟩
    · intro _
      refine ⟨hlaidCells.tiles, ?_⟩
      have hnodes := hslots.cells.nodes
      have hslotCount := hall.nodes.length_eq
      rw [List.length_map, List.length_range] at hslotCount
      rw [← hslots.ranges, hnodes, hslotCount, hcontents.read.count]
    · intro hplain
      exact absurd (hplain.symm.trans hcell) Bool.false_ne_true
    · rw [← hslots.ranges]
      exact hslots.cells.fits
    · intro _ hnone
      have hcount := hlaidCells.count
      rw [hnone] at hcount
      exact hnonempty (List.eq_nil_of_length_eq_zero hcount.symm)
    · intro hint hhint
      dsimp only at hhints
      split at hhints
      next =>
        obtain ⟨gateway, -, hgateway⟩ := exists_of_mapM_eq_ok hhints hhint
        exact checkGatewayHint_ok hlaid hlaidCells hcounts hfew hgateway
      next =>
        rw [hhints] at hhint
        exact absurd hhint List.not_mem_nil
    · intro _
      rw [hcontents.communityPolar sidecar rfl]
      exact ⟨hcell, loadIndex_size hload⟩

theorem build_ready (hraw : input.encoding = .rawU32)
    (hbuild : build input compress = .ok artifacts) :
    Ready input artifacts := by
  have hbuilt := build_eq_ok hbuild
  obtain ⟨index, records, vectors, hcontents⟩ := buildContents_eq_ok hbuilt.contents
  obtain ⟨slots, hall, hsidecar⟩ := contents_placed hcontents
  have hpages := hbuilt.pagesWritten_lt
  have hread := hcontents.read
  have hlaid := hall.laidOut hcontents.positive hpages hread hbuilt.vectors
  have hwritten := topology_written hraw hbuild
  have hlists := hcontents.lists
  have hcounts : CountsFit input artifacts.contents := by
    refine ⟨?_, hlaid.located, ?_, hread.small, hbuilt.pages, hwritten.size ▸ hwritten.limit⟩
    · rw [hlists, adjacencyLists, List.length_mapIdx, hread.recordCount]
    · rcases hcontents.prefetch with hmapped | hnone
      · rw [hmapped, List.length_map, List.length_range]
      · rw [hnone, List.length_replicate]
  have hpageCount := hcounts.exact.2.2.2
  have hinside : ∀ location ∈ artifacts.contents.placed.writer.locations,
      location.pageId < (artifacts.contents.header input.layout).vectorPageCount ∧
        location.pageOffset.toNat + vectorBytes input.layout artifacts.contents.metadata ≤
          kIoVectorPageSize := by
    intro location hlocation
    obtain ⟨node, hnode⟩ := List.mem_iff_getElem?.mp hlocation
    obtain ⟨hpage, hoffset⟩ := hlaid.inside node location hnode
    rw [UInt64.lt_iff_toNat_lt, hpageCount]
    exact ⟨hpage, hoffset⟩
  obtain ⟨hcover, hranges, hhints, hbound⟩ := cells_ready hcontents hbuilt hcounts hlaid hall
    hsidecar
  constructor
  case counts => exact hcounts
  case written => exact hwritten
  case inside => exact hinside
  case layout => exact ofRaw_toRaw hcontents.options
  case points => exact readDiskLayoutMetadata_points hcontents.metadata
  case source => exact hcontents.sourceBytes
  case base => exact hcontents.base.symm
  case dimension =>
    intro hzero
    have hpositive := hcontents.positive
    rw [vectorBytes, DiskLayoutMetadata.sourceVectorBytes, hzero] at hpositive
    split at hpositive
    all_goals exact absurd hpositive (by decide)
  case degree =>
    intro list hlist
    rw [hlists] at hlist
    exact (adjacencyLists_fit hread.fits hlist).1
  case targets =>
    intro target htarget
    obtain ⟨list, hlist, hmem⟩ := List.mem_flatten.mp htarget
    rw [hlists] at hlist
    exact (adjacencyLists_fit hread.fits hlist).2 target hmem
  case prefetch =>
    intro page hpage
    rcases hcontents.prefetch with hmapped | hnone
    · rw [hmapped] at hpage
      obtain ⟨node, -, rfl⟩ := List.mem_map.mp hpage
      rcases prefetchPage_mem artifacts.contents.lists artifacts.contents.placed.writer.locations
        node with hnone | ⟨location, hlocation, hsame⟩
      · exact .inl hnone
      · rw [← hsame]
        exact .inr (hinside location hlocation).1
    · rw [hnone] at hpage
      exact .inl (List.eq_of_mem_replicate hpage)
  case vectors =>
    have hlength := hlaid.pages
    have hchecksum := hall.holds.checksum
    rw [fingerprintFile, hlength, checksumBytes, hbuilt.vectors, ← hchecksum]
    rfl
  case known =>
    have hoptions := hcontents.options
    simp only [checkOptions, bind_ok, reject_ok] at hoptions
    obtain ⟨-, -, -, -, -, hlayout, -⟩ := hoptions
    by_contra hunknown
    rw [not_or] at hunknown
    exact hlayout ⟨hunknown.1, Bool.eq_false_of_not_eq_true hunknown.2⟩
  case cover => exact hcover
  case cells => exact hranges
  case hints => exact hhints
  case bound => exact hbound

/-! ## Alignment -/

/-- Whether the vectors of a layout come to be at multiples of four bytes. Only the
vectors of single bytes may not: those of a Cell of several nodes, if several fit in a
page and the dimension is no multiple of four. -/
def AlignedInput (input : BuildInput) : Prop :=
  input.layout = .cellU8 → ∀ metadata index, readDiskLayoutMetadata input.disk = .ok metadata →
    loadIndex input.communityPolar = .ok index →
      4 ∣ metadata.dimension.toNat ∨ kIoVectorPageSize / metadata.dimension.toNat < 2 ∨
        ∀ cell ∈ index.cells, cell.nodeCount.toNat < 2

section Aligned

variable {input : BuildInput} {compress : Option Compress} {artifacts : Artifacts}
  {index : Option Index} {records : List BaseRecord} {vectors : List (List UInt8)}
  {slots : List PlacedSlot}

theorem aligned_iff_slots (hbuilt : Built input compress artifacts)
    (hpositive : 0 < vectorBytes input.layout artifacts.contents.metadata)
    (hall : AllPlaced (vectorBytes input.layout artifacts.contents.metadata) vectors
      artifacts.contents.placed.writer slots) :
    artifacts.Aligned ↔ ∀ slot ∈ slots, slot.offset % floatAlignment = 0 := by
  constructor
  · intro haligned slot hslot
    have hlocation := hall.holds.located slot hslot
    rw [← (hall.location_eq hpositive hbuilt.pagesWritten_lt hslot hlocation).2.1]
    exact haligned _ (List.mem_of_getElem? hlocation)
  · intro hslots location hlocation
    obtain ⟨node, hnode⟩ := List.mem_iff_getElem?.mp hlocation
    obtain ⟨-, slot, hslot, rfl⟩ := hall.located hnode
    rw [(hall.location_eq hpositive hbuilt.pagesWritten_lt hslot hnode).2.1]
    exact hslots slot hslot

theorem PlacedByCell.declared {sidecar : Index} {layout : VectorLayout} {width : Nat}
    {placed : PlacedVectors} {packetOrder : List UInt32} {placement : Placement}
    (hplaced : PlacedByCell sidecar layout width vectors placed packetOrder placement slots) :
    (placement.cellRanges.map fun range => range.nodeCount.toNat) =
      sidecar.cells.map fun cell => cell.nodeCount.toNat := by
  have hdeclared := hplaced.cells.declared
  rwa [List.take_length] at hdeclared

theorem aligned_iff (hcontents : ContentsBuilt input compress artifacts.contents index records vectors)
    (hbuilt : Built input compress artifacts)
    (hall : AllPlaced (vectorBytes input.layout artifacts.contents.metadata) vectors
      artifacts.contents.placed.writer slots)
    (hsidecar : ∀ sidecar, index = some sidecar →
      SidecarPlaced input artifacts.contents vectors slots sidecar) :
    artifacts.Aligned ↔ AlignedInput input := by
  have hpositive := hcontents.positive
  rw [aligned_iff_slots hbuilt hpositive hall]
  by_cases hbytes : input.layout = .cellU8
  · -- the layout has a sidecar
    have hopened := hcontents.opened
    cases index with
    | none =>
      rw [hbytes] at hopened
      cases hopened
    | some sidecar =>
      obtain ⟨-, hopened⟩ := hopened
      have hload := (openSidecar_eq_ok hopened).1
      obtain ⟨packetOrder, placement, hplaced⟩ := (hsidecar sidecar rfl).placed
      have hwidth : vectorBytes input.layout artifacts.contents.metadata =
          artifacts.contents.metadata.dimension.toNat := if_pos hbytes
      rw [hwidth] at hplaced
      have hdeclared := hplaced.declared
      constructor
      · intro hslots _ metadata index hmetadata hindex
        obtain rfl := Except.ok.inj (hmetadata.symm.trans hcontents.metadata)
        obtain rfl := Except.ok.inj (hindex.symm.trans hload)
        by_contra hcrowded
        rw [not_or, not_or, Nat.not_lt] at hcrowded
        obtain ⟨hodd, hroom, hsmall⟩ := hcrowded
        simp only [not_forall, Nat.not_lt] at hsmall
        obtain ⟨cell, hcell, htwo⟩ := hsmall
        have hcount : cell.nodeCount.toNat ∈
            placement.cellRanges.map fun range => range.nodeCount.toNat := by
          rw [hdeclared]
          exact List.mem_map_of_mem hcell
        obtain ⟨range, hrange, hsame⟩ := List.mem_map.mp hcount
        obtain ⟨slot, hslot, hoffset⟩ := hplaced.cells.crowded hroom range hrange (by omega)
        have haligned := hslots slot hslot
        rw [hoffset] at haligned
        exact hodd (Nat.dvd_of_mod_eq_zero haligned)
      · intro hinput slot hslot
        obtain ⟨⟨position, hposition, hoffset⟩, hfirst⟩ := hplaced.cells.offsets slot hslot
        rcases hinput hbytes _ _ hcontents.metadata hload with hfour | hroom | hsmall
        · rw [hoffset]
          exact Nat.mod_eq_zero_of_dvd (Dvd.dvd.mul_left hfour position)
        · obtain rfl : position = 0 := by omega
          rw [hoffset, Nat.zero_mul]
          rfl
        · rcases hfirst with hzero | ⟨range, hrange, htwo⟩
          · rw [hzero]
            rfl
          · have hcount : range.nodeCount.toNat ∈
                sidecar.cells.map fun cell => cell.nodeCount.toNat := by
              rw [← hdeclared]
              exact List.mem_map_of_mem hrange
            obtain ⟨cell, hcell, hsame⟩ := List.mem_map.mp hcount
            have hfew := hsmall cell hcell
            omega
  · refine ⟨fun _ hother => absurd hother hbytes, ?_⟩
    intro _ slot hslot
    obtain ⟨position, hoffset⟩ := hall.offsets slot hslot
    rw [hoffset, vectorBytes, if_neg hbytes, DiskLayoutMetadata.sourceVectorBytes]
    exact Nat.mod_eq_zero_of_dvd (Dvd.dvd.mul_left (Nat.dvd_mul_right _ _) position)

end Aligned

/-! ## Whole pages -/

/-- Whether the page that the adjacency ends in is whole, by the counts of the input. -/
def PagesWholeInput (input : BuildInput) : Prop :=
  ∀ metadata index records, readDiskLayoutMetadata input.disk = .ok metadata →
    openIndex input metadata = .ok index → metadata.readRecords input.disk = .ok records →
      let points := metadata.pointCount.toNat
      let edges := (adjacencyLists input index records).flatten.length
      let cells := (index.map fun index => index.cells.length).getD 0
      let gateways := (index.map fun index =>
        if input.buildPrefetchHints then index.gateways.length else 0).getD 0
      let adjacencyEnd := kTopologyHeaderBytes + (points + 1) * 8 + edges * 4
      edges = 0 ∨ pageEnd adjacencyEnd ≤
        adjacencyEnd + points * 12 + cells * 20 + points * 8 + gateways * 64

theorem pagesWhole_iff {vectors : List (List UInt8)}
    (hcontents : ContentsBuilt input compress artifacts.contents index records vectors)
    (hready : Ready input artifacts)
    (hcells : ∀ sidecar, index = some sidecar → CellsLaidOut input artifacts sidecar) :
    artifacts.PagesWhole ↔ PagesWholeInput input := by
  have hopens : openIndex input artifacts.contents.metadata = .ok index := by
    have hopened := hcontents.opened
    cases index with
    | none =>
      have hplain : ¬ input.layout.isCell = true := by simp [hopened]
      rw [openIndex, if_neg hplain]
    | some sidecar =>
      rw [openIndex, if_pos hopened.1, hopened.2]
      rfl
  have hcellCount : artifacts.contents.placed.cellRanges.length =
      (index.map fun index => index.cells.length).getD 0 := by
    cases index with
    | none =>
      have hplaced := hcontents.placed
      dsimp only at hplaced
      rw [hplaced]
      rfl
    | some sidecar => exact (hcells sidecar rfl).count
  have hgatewayCount : artifacts.contents.gatewayHints.length =
      (index.map fun index =>
        if input.buildPrefetchHints then index.gateways.length else 0).getD 0 := by
    have hhints := hcontents.hints
    cases index with
    | none => exact congrArg List.length hhints
    | some sidecar =>
      dsimp only at hhints
      rw [Option.map_some, Option.getD_some]
      split at hhints
      next hbuild =>
        rw [if_pos hbuild]
        exact (mapM_eq_ok.mp hhints).length_eq.symm
      next hplain =>
        rw [if_neg hplain, hhints]
        rfl
  obtain ⟨hoffsets, hadjacency, hdirectory, hcellBytes, hprefetch, hgateways⟩ :=
    hready.counts.lengths
  have hsize := hready.written.size
  simp only [Sections.fileSize, Sections.gatewayDirectoryOffset, Sections.prefetchDirectoryOffset,
    Sections.cellDirectoryOffset, Sections.directoryOffset, Sections.adjacencyOffset, hoffsets,
    hadjacency, hdirectory, hcellBytes, hprefetch, hgateways] at hsize
  rw [Artifacts.PagesWhole, Sections.directoryOffset, Sections.adjacencyOffset, hoffsets, hadjacency,
    hsize, hcellCount, hgatewayCount, hcontents.lists]
  constructor
  · rintro hwhole metadata opened read hmetadata hopened hread
    obtain rfl := Except.ok.inj (hmetadata.symm.trans hcontents.metadata)
    obtain rfl := Except.ok.inj (hopened.symm.trans hopens)
    obtain rfl := Except.ok.inj (hread.symm.trans hcontents.readRecords)
    by_cases hnone : (adjacencyLists input opened read).flatten = []
    · exact .inl (List.length_eq_zero_iff.mpr hnone)
    · exact .inr (hwhole hnone)
  · intro hinput hsome
    rcases hinput _ _ _ hcontents.metadata hopens hcontents.readRecords with hnone | hwhole
    · exact absurd (List.eq_nil_of_length_eq_zero hnone) hsome
    · exact hwhole

/-- What is loaded is what the build computed. -/
structure Reloaded (artifacts : Artifacts) (loaded : LoadedIndex) : Prop where
  neighbors : ∀ (node : Nat) (list : List UInt32), artifacts.contents.lists[node]? = some list →
    loaded.neighbors node = .ok list
  locations : ∀ node, loaded.vectorLocation node =
    artifacts.contents.placed.writer.locations[node]?
  cellPageRanges : loaded.cellPageRanges = artifacts.contents.placed.cellRanges
  prefetchPages : ∀ node, loaded.nodePrefetchPage node = artifacts.contents.prefetchPages[node]?
  gatewayHints : ∀ gateway, loaded.gatewayPrefetchHint gateway =
    artifacts.contents.gatewayHints[gateway]?

/-- What a build wrote is accepted, and loaded as it was computed, exactly when the
vectors are aligned and, in the paged mode, the pages of the adjacency are whole. -/
theorem load_build_iff {input : BuildInput} {compress : Option Compress} {artifacts : Artifacts}
    (hraw : input.encoding = .rawU32) (hbuild : build input compress = .ok artifacts)
    (topologyOnly : Bool) {paged : Bool} {cachePages : Nat}
    (hmode : paged = true ↔ cachePages ≠ 0) :
    (∃ loaded, load input.disk artifacts.topology artifacts.vectors topologyOnly paged cachePages =
        .ok loaded ∧ Reloaded artifacts loaded) ↔
      AlignedInput input ∧ (paged = true → PagesWholeInput input) := by
  have hbuilt := build_eq_ok hbuild
  obtain ⟨index, records, vectors, hcontents⟩ := buildContents_eq_ok hbuilt.contents
  obtain ⟨slots, hall, hsidecar⟩ := contents_placed hcontents
  have hready := build_ready hraw hbuild
  have haligned := aligned_iff hcontents hbuilt hall hsidecar
  have hwhole : artifacts.PagesWhole ↔ PagesWholeInput input := by
    apply pagesWhole_iff hcontents hready
    intro sidecar hsome
    have hplaced := hsidecar sidecar hsome
    obtain ⟨packetOrder, placement, hslots⟩ := hplaced.placed
    exact hslots.laidOut hcontents.positive hbuilt.pagesWritten_lt hplaced.nodes hplaced.count
  rw [← haligned, ← hwhole, ← hready.neighbors_iff paged]
  constructor
  · rintro ⟨loaded, hload, hreloaded⟩
    obtain ⟨rfl, hdirectory⟩ := (hready.load_eq_ok_iff hmode).mp hload
    exact ⟨hdirectory, hreloaded.neighbors⟩
  · rintro ⟨hdirectory, hneighbors⟩
    exact ⟨_, (hready.load_eq_ok_iff hmode).mpr ⟨rfl, hdirectory⟩, hneighbors, fun _ => rfl, rfl,
      fun _ => rfl, fun _ => rfl⟩

theorem load_build_iff_pair : ∃ artifacts, build (pairInput .cellU8) none = .ok artifacts ∧
    ((∃ loaded, load (pairInput .cellU8).disk artifacts.topology artifacts.vectors false false 0 =
        .ok loaded ∧ Reloaded artifacts loaded) ↔
      AlignedInput (pairInput .cellU8) ∧ (false = true → PagesWholeInput (pairInput .cellU8))) := by
  obtain ⟨artifacts, hbuild, -⟩ := build_pair
  exact ⟨artifacts, hbuild, load_build_iff rfl hbuild false (by decide)⟩

set_option maxRecDepth 100000 in
theorem build_plainPair : ∃ artifacts, build (pairInput .originalId) none = .ok artifacts ∧
    (artifacts.contents.lists = [[1], [0]] ∧ artifacts.topology.length = 392) := by
  apply exists_ok
  decide +kernel

/-- The second vector of the Cell is at the second byte of the page, and the loader
rejects it. Without a Cell the artifacts are accepted, but the paged mode reads no list
from a file that is shorter than a page. -/
theorem pair_notReloaded :
    (∃ artifacts, build (pairInput .cellU8) none = .ok artifacts ∧
      ¬ ∃ loaded, load pairDisk artifacts.topology artifacts.vectors false false 0 = .ok loaded) ∧
    ∃ artifacts, build (pairInput .originalId) none = .ok artifacts ∧
      artifacts.contents.lists[0]? = some [1] ∧
      ∀ loaded, load pairDisk artifacts.topology artifacts.vectors false true 1 = .ok loaded →
        loaded.neighbors 0 ≠ .ok [1] := by
  constructor
  · obtain ⟨artifacts, hbuild, hlocations⟩ := build_pair
    refine ⟨artifacts, hbuild, ?_⟩
    rintro ⟨loaded, hload⟩
    have haligned := (((build_ready rfl hbuild).load_eq_ok_iff (by decide)).mp hload).2
    rw [Artifacts.Aligned, hlocations] at haligned
    exact absurd (haligned ⟨0, 1⟩ (by decide)) (by decide)
  · obtain ⟨artifacts, hbuild, hlists, hsize⟩ := build_plainPair
    have hready := build_ready (by rfl) hbuild
    have hlist : artifacts.contents.lists[0]? = some [1] := by
      rw [hlists]
      rfl
    refine ⟨artifacts, hbuild, hlist, ?_⟩
    intro loaded hload hneighbors
    obtain ⟨rfl, -⟩ := (hready.load_eq_ok_iff (by decide)).mp hload
    have hwhole := (hready.neighbors_paged_iff hlist).mp hneighbors (by decide)
    have hpage : kIoVectorPageSize ≤ pageEnd (artifacts.contents.sections.adjacencyOffset +
        ((artifacts.contents.lists.take 0).flatten.length + [(1 : UInt32)].length) * 4) :=
      Nat.le_mul_of_pos_left _ (Nat.succ_pos _)
    rw [hsize] at hwhole
    exact absurd (hpage.trans hwhole) (by decide)

end SkipCell.IoIndex

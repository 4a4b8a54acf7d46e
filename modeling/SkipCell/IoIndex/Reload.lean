import SkipCell.IoIndex.Sections

/-! # What was built is loaded again

The sections of a topology artifact pass the checks of the loader but for one: the
loader wants every vector at a multiple of four bytes, and vectors of single bytes
need not be. In the paged mode a list in the last page, which is not whole, is not
read.
-/

namespace SkipCell.IoIndex

open Foundation Sidecar

theorem readMany_section {α : Type} {reader : Reader α} {encode : α → List UInt8}
    (hreads : ∀ value, Reads reader (encode value) value) {values : List α} {count : Nat}
    (hcount : count = values.length) :
    readMany reader count (values.flatMap encode) = .ok (values, []) := by
  subst hcount
  have hread : readMany reader values.length (values.flatMap encode ++ []) = .ok (values, []) :=
    Reads.many (fun value _ => hreads value) []
  rwa [List.append_nil] at hread

theorem reads_location (location : VectorLocation) :
    Reads readLocation (locationBytes location) location := by
  simp only [readLocation, locationBytes, List.flatten_cons, List.flatten_nil, reads_wide_bind,
    reads_narrow_bind, Reads.pure]

theorem reads_cellRange (range : CellPageRange) :
    Reads readCellRange (cellRangeBytes range) range := by
  simp only [readCellRange, cellRangeBytes, List.flatten_cons, List.flatten_nil, reads_wide_bind,
    reads_narrow_bind, Reads.pure]

theorem reads_gatewayHint (hint : GatewayPrefetchHint) :
    Reads readGatewayHint (gatewayHintBytes hint) hint := by
  simp only [readGatewayHint, gatewayHintBytes, List.flatten_cons, List.flatten_nil,
    reads_wide_bind, reads_narrow_bind, Reads.pure]

variable {contents : BuildContents} {input : BuildInput}

theorem readAdjacency_ok {layout : VectorLayout}
    (hedges : (contents.header layout).edgeCount.toNat = contents.lists.flatten.length)
    (htargets : ∀ target ∈ contents.lists.flatten,
      target.toNat < contents.metadata.pointCount.toNat) :
    readAdjacency (contents.header layout) contents.sections.adjacency =
      .ok contents.lists.flatten := by
  have hread : readMany (readU32 "adjacency target") (contents.header layout).edgeCount.toNat
      contents.sections.adjacency = .ok (contents.lists.flatten, []) :=
    readMany_section (reads_narrow _) hedges
  simp only [readAdjacency, hread, bind_ok, reject_ok]
  refine ⟨_, rfl, (), ?_, rfl⟩
  rintro ⟨target, htarget, hle⟩
  exact absurd (htargets target htarget) (Nat.not_lt.mpr hle)

theorem validateRawAdjacencyRange_ok (hcounts : CountsFit input contents) {file : List UInt8}
    (hfound : SectionsFound (contents.header input.layout) file contents.sections)
    (htargets : ∀ target ∈ contents.lists.flatten,
      target.toNat < contents.metadata.pointCount.toNat) :
    validateRawAdjacencyRange (contents.header input.layout) file =
      .ok (checksumBytes contents.sections.adjacency) := by
  obtain ⟨hsection, -, hbytes⟩ := hfound.adjacency
  have hlength := hcounts.lengths.2.1
  have hedges := hcounts.exact.1
  have hlimit := hcounts.limit
  have hread : readMany (readU32 "adjacency target")
      (contents.header input.layout).edgeCount.toNat contents.sections.adjacency =
        .ok (contents.lists.flatten, []) := readMany_section (reads_narrow _) hedges
  rw [TopologySection.read, hbytes, hlength] at hsection
  simp only [Sections.fileSize, Sections.gatewayDirectoryOffset, Sections.prefetchDirectoryOffset,
    Sections.cellDirectoryOffset, Sections.directoryOffset, fileSizeLimit] at hlimit
  simp only [validateRawAdjacencyRange, bind_ok, multiplyChecked_eq_ok, reject_ok, hedges]
  rw [hedges] at hread
  refine ⟨_, ⟨by omega, rfl⟩, (), ?_, (contents.lists.flatten, []), ?_, (), ?_, ?_⟩
  · rw [hsection, hlength]
    exact Nat.lt_irrefl _
  · rw [hsection, hread]
  · rintro ⟨target, htarget, hle⟩
    exact absurd (htargets target htarget) (Nat.not_lt.mpr hle)
  · rw [hsection]

/-- The locations of vectors that were placed pass, if each is at a multiple of four
bytes, and not otherwise. -/
theorem readLocations_ok_iff
    (hcount : contents.placed.writer.locations.length = contents.metadata.pointCount.toNat)
    (hsource : contents.metadata.dimension.toNat * 4 < 2 ^ 64)
    (hinside : ∀ location ∈ contents.placed.writer.locations,
      location.pageId < (contents.header input.layout).vectorPageCount ∧
      location.pageOffset.toNat + vectorBytes input.layout contents.metadata ≤ kIoVectorPageSize)
    {locations : List VectorLocation} :
    readLocations (contents.header input.layout) contents.sections.directory = .ok locations ↔
      locations = contents.placed.writer.locations ∧
        ∀ location ∈ locations, location.pageOffset.toNat % floatAlignment = 0 := by
  have hread : readMany readLocation (contents.header input.layout).pointCount.toNat
      contents.sections.directory = .ok (contents.placed.writer.locations, []) :=
    readMany_section reads_location hcount.symm
  have hpasses : ∀ location ∈ contents.placed.writer.locations,
      (location.pageOffset.toNat % floatAlignment ≠ 0 ↔
        (contents.header input.layout).vectorPageCount ≤ location.pageId ∨
        location.pageOffset.toNat % floatAlignment ≠ 0 ∨
        kIoVectorPageSize < location.pageOffset.toNat ∨
        kIoVectorPageSize - location.pageOffset.toNat <
          vectorBytes input.layout contents.metadata) := by
    intro location hlocation
    obtain ⟨hpage, hend⟩ := hinside location hlocation
    have hnotBehind := UInt64.not_le.mpr hpage
    constructor
    · exact fun hodd => .inr (.inl hodd)
    · rintro (hbehind | hodd | hlong | hshort)
      · exact absurd hbehind hnotBehind
      · exact hodd
      · omega
      · omega
  have hchecked : (¬ ∃ location ∈ contents.placed.writer.locations,
      (contents.header input.layout).vectorPageCount ≤ location.pageId ∨
        location.pageOffset.toNat % floatAlignment ≠ 0 ∨
        kIoVectorPageSize < location.pageOffset.toNat ∨
        kIoVectorPageSize - location.pageOffset.toNat <
          vectorBytes input.layout contents.metadata) ↔
      ∀ location ∈ contents.placed.writer.locations,
        location.pageOffset.toNat % floatAlignment = 0 := by
    rw [not_exists]
    constructor
    · intro hnone location hlocation
      by_contra hodd
      exact hnone location ⟨hlocation, (hpasses location hlocation).mp hodd⟩
    · rintro haligned location ⟨hlocation, hbad⟩
      exact (hpasses location hlocation).mpr hbad (haligned location hlocation)
  have hreading : readLocations (contents.header input.layout) contents.sections.directory =
      (reject (∃ location ∈ contents.placed.writer.locations,
        (contents.header input.layout).vectorPageCount ≤ location.pageId ∨
          location.pageOffset.toNat % floatAlignment ≠ 0 ∨
          kIoVectorPageSize < location.pageOffset.toNat ∨
          kIoVectorPageSize - location.pageOffset.toNat <
            vectorBytes input.layout contents.metadata)
        (.runtimeError "IO vector directory entry is out of range") >>= fun _ =>
        .ok contents.placed.writer.locations) := by
    have hlayout : (contents.header input.layout).layout = input.layout := rfl
    have hdimension : (contents.header input.layout).dimension = contents.metadata.dimension := rfl
    by_cases hbytes : input.layout = .cellU8
    · simp only [readLocations, hlayout, hdimension, if_pos hbytes, hread, vectorBytes]
      rfl
    · simp only [readLocations, hlayout, hdimension, if_neg hbytes, vectorBytes]
      rw [multiplyChecked_eq_ok.mpr ⟨hsource, rfl⟩]
      simp only [hread, DiskLayoutMetadata.sourceVectorBytes, Nat.mul_comm 4]
      rfl
  simp only [hreading, bind_ok, reject_ok, hchecked]
  constructor
  · rintro ⟨-, haligned, hlocations⟩
    obtain rfl := Except.ok.inj hlocations
    exact ⟨rfl, haligned⟩
  · rintro ⟨rfl, haligned⟩
    exact ⟨(), haligned, rfl⟩

/-! ## Cell ranges -/

/-- Ranges that tile the pages are accepted one after the other. -/
theorem scan_checkCellRange {header : TopologyHeader} {ranges : List CellPageRange}
    {label : Nat → Nat} {position pages nodes : Nat}
    (hpages : header.vectorPageCount.toNat < 2 ^ 63)
    (htiles : TilesFrom pages (ranges.mapIdx fun index range =>
      ⟨range.firstPage.toNat, range.pageCount.toNat, label index⟩) header.vectorPageCount.toNat)
    (hfits : ∀ range ∈ ranges, RangeFits header.layout range)
    (hnodes : nodes + (ranges.map fun range => range.nodeCount.toNat).sum < 2 ^ 64) :
    scan (checkCellRange header) position ranges (pages, nodes) =
      .ok (header.vectorPageCount.toNat,
        nodes + (ranges.map fun range => range.nodeCount.toNat).sum) := by
  induction ranges generalizing label position pages nodes with
  | nil =>
    obtain rfl : pages = header.vectorPageCount.toNat := htiles
    rfl
  | cons range ranges ih =>
    rw [List.mapIdx_cons] at htiles
    obtain ⟨hfirst, hrest⟩ := htiles
    have hrange := hfits range List.mem_cons_self
    have hstop := hrest.start_le_stop
    dsimp only at hfirst hstop
    have hsome : 0 < range.pageCount.toNat := by
      apply Nat.pos_of_ne_zero
      intro hzero
      exact hrange.pages (UInt32.toNat_inj.mp hzero)
    rw [List.map_cons, List.sum_cons] at hnodes ⊢
    have hbody : checkCellRange header position range (pages, nodes) =
        .ok (pages + range.pageCount.toNat, nodes + range.nodeCount.toNat) := by
      simp only [checkCellRange, bind_ok, reject_ok, addChecked_eq_ok, not_or]
      refine ⟨(), ⟨fun hne => hne hfirst, ?_, hrange.pages, hrange.nonempty, by omega,
        fun hchunk => hchunk hrange.chunk, ?_, ?_⟩, _, ⟨by omega, rfl⟩, _, ⟨by omega, rfl⟩, ?_⟩
      · rw [UInt64.not_le, UInt64.lt_iff_toNat_lt]
        omega
      · rintro ⟨hother, hchunk⟩
        exact hchunk (hrange.page hother)
      · rintro ⟨hlayout, hpartial⟩
        exact hpartial (hrange.whole hlayout)
      · rw [hfirst]
    have hscan : scan (checkCellRange header) (position + 1) ranges
        (pages + range.pageCount.toNat, nodes + range.nodeCount.toNat) = _ :=
      ih hrest (fun other hother => hfits other (List.mem_cons_of_mem _ hother)) (by omega)
    change (checkCellRange header position range (pages, nodes) >>= _) = _
    rw [hbody]
    refine hscan.trans ?_
    rw [Nat.add_assoc]

structure CellsCover (layout : VectorLayout) (contents : BuildContents) : Prop where
  cells : layout.isCell = true →
    TilesFrom 0 (pageRanges contents.placed.cellRanges) contents.placed.writer.pagesWritten ∧
      (contents.placed.cellRanges.map fun range => range.nodeCount.toNat).sum =
        contents.metadata.pointCount.toNat
  plain : layout.isCell = false → contents.placed.cellRanges = []
  fits : ∀ range ∈ contents.placed.cellRanges, RangeFits layout range

theorem readCellRanges_ok (hcounts : CountsFit input contents)
    (hcover : CellsCover input.layout contents) :
    readCellRanges (contents.header input.layout) contents.sections.cellDirectory =
      .ok contents.placed.cellRanges := by
  obtain ⟨-, hcellCount, -, hpageCount⟩ := hcounts.exact
  have hpages := hcounts.pages
  have hpoints := hcounts.points
  have hread : readMany readCellRange (contents.header input.layout).cellCount.toNat
      contents.sections.cellDirectory = .ok (contents.placed.cellRanges, []) :=
    readMany_section reads_cellRange hcellCount
  simp only [readCellRanges, hread, bind_ok, reject_ok]
  cases hcell : input.layout.isCell with
  | false =>
    rw [hcover.plain hcell]
    refine ⟨_, rfl, (0, 0), rfl, (), ?_, rfl⟩
    change ¬ (input.layout.isCell = true ∧ _)
    simp [hcell]
  | true =>
    obtain ⟨htiles, hnodes⟩ := hcover.cells hcell
    rw [← hpageCount] at htiles
    rw [kIoVectorPageSize] at hpages
    have hscan : scan (checkCellRange (contents.header input.layout)) 0
        contents.placed.cellRanges (0, 0) = _ :=
      scan_checkCellRange (by omega) htiles hcover.fits (by omega)
    refine ⟨_, rfl, _, hscan, (), ?_, rfl⟩
    rw [Nat.zero_add, hnodes]
    simp [BuildContents.header]

theorem countPage_subset (counts : List (UInt64 × Nat)) (page : UInt64) :
    (countPage counts page).map Prod.fst ⊆ page :: counts.map Prod.fst := by
  induction counts with
  | nil => exact List.Subset.refl _
  | cons entry counts ih =>
    rw [countPage]
    split
    next => exact List.subset_cons_self _ _
    next =>
      intro found hfound
      rcases List.mem_cons.mp hfound with rfl | hrest
      · exact List.mem_cons_of_mem _ List.mem_cons_self
      · rcases List.mem_cons.mp (ih hrest) with rfl | hold
        · exact List.mem_cons_self
        · exact List.mem_cons_of_mem _ (List.mem_cons_of_mem _ hold)

theorem foldl_countPage_subset (pages : List UInt64) (counts : List (UInt64 × Nat)) :
    (pages.foldl countPage counts).map Prod.fst ⊆ counts.map Prod.fst ++ pages := by
  induction pages generalizing counts with
  | nil =>
    rw [List.append_nil]
    exact List.Subset.refl _
  | cons page pages ih =>
    intro found hfound
    rcases List.mem_append.mp (ih _ hfound) with hcounted | hlater
    · rcases List.mem_cons.mp (countPage_subset _ _ hcounted) with rfl | hold
      · exact List.mem_append_right _ List.mem_cons_self
      · exact List.mem_append_left _ hold
    · exact List.mem_append_right _ (List.mem_cons_of_mem _ hlater)

theorem mostFrequent_mem (counts : List (UInt64 × Nat)) :
    mostFrequent counts = kNoIoPrefetchPage ∨ mostFrequent counts ∈ counts.map Prod.fst := by
  cases counts with
  | nil => exact .inl rfl
  | cons first counts =>
    refine .inr (List.mem_map_of_mem ?_)
    refine List.foldlRecOn (motive := fun best => best ∈ first :: counts) _ _ List.mem_cons_self ?_
    intro best hbest entry hentry
    split
    next => exact List.mem_cons_of_mem _ hentry
    next => exact hbest

theorem prefetchPage_mem (lists : List (List UInt32)) (locations : List VectorLocation)
    (node : Nat) :
    prefetchPage lists locations node = kNoIoPrefetchPage ∨
      ∃ location ∈ locations, location.pageId = prefetchPage lists locations node := by
  rcases mostFrequent_mem _ with hnone | hmem
  · exact .inl hnone
  · right
    have hpage := foldl_countPage_subset _ _ hmem
    obtain ⟨target, -, hfound⟩ := List.mem_filterMap.mp (List.mem_of_mem_filter hpage)
    obtain ⟨location, hlocation, hsame⟩ := Option.map_eq_some_iff.mp hfound
    exact ⟨location, List.mem_of_getElem? hlocation, hsame⟩

theorem readPrefetchPages_ok {layout : VectorLayout}
    (hlength : contents.prefetchPages.length = contents.metadata.pointCount.toNat)
    (hpages : ∀ page ∈ contents.prefetchPages, page = kNoIoPrefetchPage ∨
      page < (contents.header layout).vectorPageCount) :
    readPrefetchPages (contents.header layout) contents.sections.prefetchDirectory =
      .ok contents.prefetchPages := by
  have hread : readMany (readU64 "node prefetch page") (contents.header layout).pointCount.toNat
      contents.sections.prefetchDirectory = .ok (contents.prefetchPages, []) :=
    readMany_section (reads_wide _) hlength.symm
  simp only [readPrefetchPages, hread, bind_ok, reject_ok]
  refine ⟨_, rfl, (), ?_, rfl⟩
  rintro ⟨page, hpage, hne, hbehind⟩
  rcases hpages page hpage with hnone | hinside
  · exact hne hnone
  · exact UInt64.not_le.mpr hinside hbehind

/-! ## Gateway hints -/

theorem toNat_saturate (count : Nat) : (saturate count).toNat = min count (2 ^ 32 - 1) := by
  rw [saturate, UInt32.toNat_ofNat']
  exact Nat.mod_eq_of_lt (by omega)

theorem le_saturate {count : UInt32} {total : Nat} (hle : count.toNat ≤ total) :
    count ≤ saturate total := by
  have hlt := count.toNat_lt
  rw [UInt32.le_iff_toNat_le, toNat_saturate]
  omega

theorem mem_successors {index : Index} {lists : List (List UInt32)} {cell : UInt32}
    {entry : UInt32 × UInt32} (hentry : entry ∈ successors (cellTransitions index lists) cell) :
    (∃ node : UInt32, cellOf index node = some entry.1) ∧ entry.2 ≠ 0 := by
  rw [successors, List.mem_mergeSort] at hentry
  obtain ⟨target, htarget, rfl⟩ := List.mem_map.mp hentry
  rw [List.mem_dedup] at htarget
  constructor
  · obtain ⟨transition, htransition, rfl⟩ := List.mem_map.mp htarget
    obtain ⟨⟨neighbors, source⟩, -, hneighbors⟩ :=
      List.mem_flatMap.mp (List.mem_of_mem_filter htransition)
    obtain ⟨node, -, hfound⟩ := List.mem_filterMap.mp hneighbors
    refine ⟨node, ?_⟩
    split at hfound
    next sourceCell targetCell _ hcell =>
      split at hfound
      next => cases hfound
      next =>
        obtain rfl := Option.some.inj hfound
        exact hcell
    next => cases hfound
  · intro hzero
    have hcount := List.count_pos_iff.mpr htarget
    have hsaturated := congrArg UInt32.toNat hzero
    rw [toNat_saturate] at hsaturated
    change min _ _ = 0 at hsaturated
    omega

section Hints

variable {input : BuildInput} {artifacts : Artifacts} {index : Index}

theorem firstPageOf_cell (hcells : CellsLaidOut input artifacts index)
    (hfew : index.cells.length < 2 ^ 32)
    {node cell : UInt32} (hcell : cellOf index node = some cell) :
    ∃ range, artifacts.contents.placed.cellRanges[cell.toNat]? = some range ∧
      cell ≠ 2 ^ 32 - 1 ∧ firstPageOf artifacts.contents.placed.cellRanges cell = range.firstPage ∧
      range.firstPage.toNat < artifacts.contents.placed.writer.pagesWritten := by
  have hnode := (List.getElem_of_getElem? hcell).1
  rw [hcells.covers] at hnode
  have howned := hcells.owned node.toNat cell.toNat _ (List.getElem?_eq_getElem hnode) (by
    rw [cellOf] at hcell
    rw [hcell]
    rfl)
  obtain ⟨labelled, hlabelled, hholds⟩ := howned
  have hinside := (List.getElem_of_getElem? hlabelled).1
  rw [pageRanges, length_numberedRanges] at hinside
  have hrange := List.getElem?_eq_getElem hinside
  have hpages := (hcells.tiles.within hlabelled).2
  rw [pageRanges, getElem?_numberedRanges hrange] at hlabelled
  obtain rfl := Option.some.inj hlabelled
  have hne : cell ≠ 2 ^ 32 - 1 := by
    rintro rfl
    rw [hcells.count] at hinside
    have hlast : ((2 : UInt32) ^ 32 - 1).toNat = 2 ^ 32 - 1 := by decide
    omega
  refine ⟨_, hrange, hne, ?_, ?_⟩
  · rw [firstPageOf, if_neg hne, hrange]
  · obtain ⟨hfirst, hlast⟩ := hholds
    dsimp only at hfirst hlast hpages
    omega

theorem checkSuccessor_ok (hcells : CellsLaidOut input artifacts index)
    (hcounts : CountsFit input artifacts.contents) (hfew : index.cells.length < 2 ^ 32)
    {lists : List (List UInt32)} {cell : UInt32} (position : Nat) {entry : UInt32 × UInt32}
    (hentry : entry =
      (successors (cellTransitions index lists) cell).getD position (2 ^ 32 - 1, 0)) :
    checkSuccessor (artifacts.contents.header input.layout)
      artifacts.contents.placed.cellRanges entry.1
      (firstPageOf artifacts.contents.placed.cellRanges entry.1) entry.2 = .ok () := by
  obtain ⟨-, hcellCount, -, hpageCount⟩ := hcounts.exact
  have hpages := hcounts.pages
  rw [kIoVectorPageSize] at hpages
  rw [checkSuccessor, reject_ok]
  rw [List.getD_eq_getElem?_getD] at hentry
  cases hfound : (successors (cellTransitions index lists) cell)[position]? with
  | none =>
    rw [hfound] at hentry
    subst hentry
    simp [firstPageOf]
  | some found =>
    rw [hfound] at hentry
    obtain rfl : entry = found := hentry
    obtain ⟨⟨node, hnode⟩, hcount⟩ := mem_successors (List.mem_of_getElem? hfound)
    obtain ⟨range, hrange, hne, hfirst, hpage⟩ := firstPageOf_cell hcells hfew hnode
    have hinside := (List.getElem_of_getElem? hrange).1
    have hsome : range.firstPage ≠ kNoIoPrefetchPage := by
      intro hnone
      have hlast : kNoIoPrefetchPage.toNat = 2 ^ 64 - 1 := by decide +kernel
      rw [hnone, hlast] at hpage
      omega
    rw [hfirst, hrange]
    rintro (habsent | ⟨-, hbehind | hbehind | hother | hzero⟩)
    · exact hne (habsent.mpr hsome)
    · omega
    · rw [UInt64.le_iff_toNat_le] at hbehind
      omega
    · exact hother rfl
    · exact hcount hzero

theorem checkGatewayHint_ok (hvectors : VectorsLaidOut input artifacts)
    (hcells : CellsLaidOut input artifacts index)
    (hcounts : CountsFit input artifacts.contents) (hfew : index.cells.length < 2 ^ 32)
    {gateway : Gateway} {hint : GatewayPrefetchHint}
    (hhint : gatewayHint index (cellTransitions index artifacts.contents.lists)
      artifacts.contents.placed.writer.locations artifacts.contents.placed.cellRanges gateway =
        .ok hint) :
    checkGatewayHint (artifacts.contents.header input.layout)
      artifacts.contents.placed.writer.locations artifacts.contents.placed.cellRanges hint =
        .ok () := by
  obtain ⟨-, hcellCount, -, hpageCount⟩ := hcounts.exact
  simp only [gatewayHint, bind_ok, element_eq_ok] at hhint
  obtain ⟨landingCell, hcell, location, hlocation, range, hrange, hresult⟩ := hhint
  obtain rfl := Except.ok.inj hresult
  have howned := hcells.owned gateway.targetNode.toNat landingCell.toNat location hlocation (by
    rw [hcell]
    rfl)
  obtain ⟨labelled, hlabelled, hholds⟩ := howned
  have hstop := (hcells.tiles.within hlabelled).2
  rw [pageRanges, getElem?_numberedRanges hrange] at hlabelled
  obtain rfl := Option.some.inj hlabelled
  obtain ⟨hfirst, hlast⟩ := hholds
  dsimp only at hfirst hlast hstop
  have htarget := (List.getElem_of_getElem? hlocation).1
  rw [hvectors.located] at htarget
  have hlanding := (List.getElem_of_getElem? hrange).1
  have hpage := (hvectors.inside _ _ hlocation).1
  have hcount : ∀ (position : Nat) (entry : UInt32 × UInt32), entry =
      (successors (cellTransitions index artifacts.contents.lists) landingCell).getD position
        (2 ^ 32 - 1, 0) →
      entry.2 ≤ saturate ((successors (cellTransitions index artifacts.contents.lists)
        landingCell).map fun entry => entry.2.toNat).sum := by
    intro position entry hentry
    apply le_saturate
    rw [List.getD_eq_getElem?_getD] at hentry
    cases hfound : (successors (cellTransitions index artifacts.contents.lists)
        landingCell)[position]? with
    | none =>
      rw [hfound] at hentry
      subst hentry
      exact Nat.zero_le _
    | some found =>
      rw [hfound] at hentry
      obtain rfl : entry = found := hentry
      exact List.le_sum_of_mem (List.mem_map_of_mem (List.mem_of_getElem? hfound))
  simp only [checkGatewayHint, bind_ok, reject_ok, element_eq_ok]
  refine ⟨(), ?_, range, hrange, location, hlocation, (), ?_, (),
    checkSuccessor_ok hcells hcounts hfew 0 rfl, checkSuccessor_ok hcells hcounts hfew 1 rfl⟩
  · rintro (hbehind | hbehind | hbehind | hbehind | hreserved)
    · exact absurd htarget (Nat.not_lt.mpr hbehind)
    · omega
    · rw [UInt64.le_iff_toNat_le] at hbehind
      omega
    · rw [UInt64.le_iff_toNat_le] at hbehind
      omega
    · exact hreserved rfl
  · rintro (hother | hother | hbefore | hbehind | hmore | hmore)
    · exact hother rfl
    · exact hother rfl
    · rw [UInt64.lt_iff_toNat_lt] at hbefore
      omega
    · omega
    · exact UInt32.not_lt.mpr (hcount 0 _ rfl) hmore
    · exact UInt32.not_lt.mpr (hcount 1 _ rfl) hmore

end Hints

/-! ## Loading -/

/-- Everything that the loader asks for, but for the alignment of the vectors. -/
structure Ready (input : BuildInput) (artifacts : Artifacts) : Prop where
  counts : CountsFit input artifacts.contents
  written : TopologyWritten input artifacts
  layout : .ofRaw input.layout.toRaw = input.layout
  known : input.layout = .originalId ∨ input.layout.isCell = true
  points : artifacts.contents.metadata.pointCount ≠ 0
  dimension : artifacts.contents.metadata.dimension ≠ 0
  source : artifacts.contents.metadata.dimension.toNat * 4 < 2 ^ 64
  degree : ∀ list ∈ artifacts.contents.lists,
    list.length ≤ artifacts.contents.metadata.maxDegree.toNat
  targets : ∀ target ∈ artifacts.contents.lists.flatten,
    target.toNat < artifacts.contents.metadata.pointCount.toNat
  inside : ∀ location ∈ artifacts.contents.placed.writer.locations,
    location.pageId < (artifacts.contents.header input.layout).vectorPageCount ∧
      location.pageOffset.toNat + vectorBytes input.layout artifacts.contents.metadata ≤
        kIoVectorPageSize
  prefetch : ∀ page ∈ artifacts.contents.prefetchPages, page = kNoIoPrefetchPage ∨
    page < (artifacts.contents.header input.layout).vectorPageCount
  cover : CellsCover input.layout artifacts.contents
  cells : input.layout.isCell = true → artifacts.contents.placed.cellRanges ≠ []
  hints : ∀ hint ∈ artifacts.contents.gatewayHints,
    checkGatewayHint (artifacts.contents.header input.layout)
      artifacts.contents.placed.writer.locations artifacts.contents.placed.cellRanges hint = .ok ()
  bound : artifacts.contents.gatewayHints ≠ [] → input.layout.isCell = true ∧
    artifacts.contents.communityPolar.sizeBytes ≠ 0
  base : fingerprintFile input.disk = artifacts.contents.base
  vectors : fingerprintFile artifacts.vectors = (artifacts.contents.header input.layout).vectors

namespace Ready

variable {input : BuildInput} {artifacts : Artifacts}

theorem loadHeader_ok (hready : Ready input artifacts) {paged : Bool} {cachePages : Nat}
    (hmode : paged = true ↔ cachePages ≠ 0) :
    loadHeader artifacts.topology paged cachePages =
      .ok (artifacts.contents.header input.layout) := by
  have hheader := artifacts.contents.writableHeader hready.layout
  have htopology := hready.written.topology
  have hlength := length_serializeHeader (artifacts.contents.header input.layout)
  have hlong : ¬ artifacts.topology.length < kTopologyHeaderBytes := by
    rw [htopology, List.length_append, hlength]
    omega
  have hfront : parseHeader (artifacts.topology.take kTopologyHeaderBytes) =
      .ok (artifacts.contents.header input.layout) := by
    rw [htopology, List.take_left' hlength]
    have hparse := parseHeader_serialize hheader []
    rwa [List.append_nil] at hparse
  have hwhole : parseHeader artifacts.topology =
      .ok (artifacts.contents.header input.layout) := by
    rw [htopology]
    exact parseHeader_serialize hheader _
  have hraw : (artifacts.contents.header input.layout).encoding = .rawU32 := rfl
  cases paged with
  | true =>
    have hcache : cachePages ≠ 0 := hmode.mp rfl
    simp only [loadHeader, if_true, bind_ok, reject_ok]
    refine ⟨(), hlong, _, hfront, (), ?_, (), by simp, rfl⟩
    rintro ⟨-, hnone | hother⟩
    · exact hcache hnone
    · exact hother hraw
  | false =>
    have hcache : cachePages = 0 := by simpa using hmode
    simp only [loadHeader, Bool.false_eq_true, if_false, bind_ok, reject_ok]
    exact ⟨_, hwhole, (), by simp, (), fun hbad => hbad.2 hcache, rfl⟩

theorem checkPayload_ok (hready : Ready input artifacts) :
    checkPayload (artifacts.contents.header input.layout) = .ok () := by
  obtain ⟨-, hcellCount, hgatewayCount, -⟩ := hready.counts.exact
  have hcells : input.layout.isCell = true →
      (artifacts.contents.header input.layout).cellCount ≠ 0 := by
    intro hcell hzero
    rw [hzero] at hcellCount
    exact hready.cells hcell (List.eq_nil_of_length_eq_zero hcellCount.symm)
  simp only [checkPayload, bind_ok, reject_ok]
  refine ⟨(), ?_, ?_⟩
  · rintro (hzero | hzero | ⟨hraw, -⟩ | ⟨horiginal, hplain⟩ | ⟨hbytes, hversion⟩ |
      ⟨horiginal, hsome⟩ | ⟨hcell, hnone⟩)
    · exact hready.points hzero
    · exact hready.dimension hzero
    · exact hraw rfl
    · rcases hready.known with hknown | hknown
      · exact horiginal hknown
      · exact Bool.false_ne_true (hplain.symm.trans hknown)
    · exact hversion (if_pos hbytes)
    · have hplain : input.layout.isCell = false := by
        rw [show input.layout = .originalId from horiginal]
        rfl
      rw [hready.cover.plain hplain] at hcellCount
      exact hsome (UInt64.toNat_inj.mp hcellCount)
    · exact hcells hcell hnone
  · rintro ⟨hsome, hbad⟩
    have hhints : artifacts.contents.gatewayHints ≠ [] := by
      intro hnone
      rw [hnone] at hgatewayCount
      exact hsome (UInt64.toNat_inj.mp hgatewayCount)
    obtain ⟨hcell, hsize⟩ := hready.bound hhints
    rcases hbad with hold | hnone | hzero
    · rcases artifacts.contents.version_cases input.layout with h | h
      all_goals
        rw [h] at hold
        exact absurd hold (by decide)
    · exact hcells hcell hnone
    · exact hsize hzero

theorem checkFingerprints_ok (hready : Ready input artifacts) (topologyOnly : Bool) :
    checkFingerprints (artifacts.contents.header input.layout) input.disk artifacts.vectors
      topologyOnly = .ok () := by
  have hpages := hready.counts.pages
  have hpageCount := hready.counts.exact.2.2.2
  have hbase : (artifacts.contents.header input.layout).base = artifacts.contents.base := rfl
  simp only [checkFingerprints, bind_ok, reject_ok, multiplyChecked_eq_ok, hpageCount,
    hready.base, hready.vectors, hbase]
  refine ⟨(), by simp, _, ⟨hpages, rfl⟩, (), ?_, by simp⟩
  rw [not_not]
  exact UInt64.toNat_ofNat'.trans (Nat.mod_eq_of_lt hpages)

end Ready

/-- What the artifacts hold, as the loader returns it. -/
def Artifacts.reloaded (artifacts : Artifacts) (layout : VectorLayout) (paged : Bool) :
    LoadedIndex where
  pointCount := artifacts.contents.metadata.pointCount
  dimension := artifacts.contents.metadata.dimension
  maxDegree := artifacts.contents.metadata.maxDegree
  edgeCount := (artifacts.contents.header layout).edgeCount
  vectorPageCount := (artifacts.contents.header layout).vectorPageCount
  vectorLayout := layout
  neighborOffsets := neighborOffsets artifacts.contents.lists
  adjacency :=
    if paged then .paged artifacts.topology artifacts.contents.sections.adjacencyOffset
    else .whole artifacts.contents.lists.flatten
  vectorLocations := artifacts.contents.placed.writer.locations
  cellPageRanges := artifacts.contents.placed.cellRanges
  nodePrefetchPages := artifacts.contents.prefetchPages
  communityPolarFingerprint := artifacts.contents.communityPolar
  gatewayPrefetchHints := artifacts.contents.gatewayHints

/-- Every vector is at a multiple of four bytes. -/
def Artifacts.Aligned (artifacts : Artifacts) : Prop :=
  ∀ location ∈ artifacts.contents.placed.writer.locations,
    location.pageOffset.toNat % floatAlignment = 0

theorem readGatewayHints_ok {artifacts : Artifacts} (hready : Ready input artifacts) :
    readGatewayHints (artifacts.contents.header input.layout)
      artifacts.contents.placed.writer.locations artifacts.contents.placed.cellRanges
      artifacts.contents.sections.gatewayDirectory = .ok artifacts.contents.gatewayHints := by
  have hread : readMany readGatewayHint
      (artifacts.contents.header input.layout).gatewayCount.toNat
      artifacts.contents.sections.gatewayDirectory = .ok (artifacts.contents.gatewayHints, []) :=
    readMany_section reads_gatewayHint hready.counts.exact.2.2.1
  have hchecked : artifacts.contents.gatewayHints.mapM (checkGatewayHint
      (artifacts.contents.header input.layout) artifacts.contents.placed.writer.locations
      artifacts.contents.placed.cellRanges) =
        .ok (artifacts.contents.gatewayHints.map fun _ => ()) := by
    rw [mapM_eq_ok, List.forall₂_map_right_iff, List.forall₂_same]
    exact hready.hints
  simp only [readGatewayHints, hread, bind_ok]
  exact ⟨_, rfl, _, hchecked, rfl⟩

theorem Ready.load_eq_ok_iff {artifacts : Artifacts} (hready : Ready input artifacts)
    {topologyOnly paged : Bool} {cachePages : Nat} (hmode : paged = true ↔ cachePages ≠ 0)
    {loaded : LoadedIndex} :
    load input.disk artifacts.topology artifacts.vectors topologyOnly paged cachePages = .ok loaded ↔
      loaded = artifacts.reloaded input.layout paged ∧ artifacts.Aligned := by
  have hcounts := hready.counts
  have hfound := sections_found hready.written
  have hheader := hready.loadHeader_ok hmode
  have hpayload := hready.checkPayload_ok
  have hsections := hcounts.checkSections_ok hready.written.size hfound
  have hchecksums := checkChecksums_ok hfound
  have hfingerprints := hready.checkFingerprints_ok topologyOnly
  have hedges := hcounts.exact.1
  have hoffsets : readMany (readU64 "neighbor offset")
      ((artifacts.contents.header input.layout).pointCount.toNat + 1)
      artifacts.contents.sections.offsets =
        .ok (neighborOffsets artifacts.contents.lists, []) := by
    apply readMany_section (reads_wide _)
    rw [length_neighborOffsets, hcounts.lists]
    rfl
  have hsmall : artifacts.contents.lists.flatten.length < 2 ^ 64 := by
    rw [← hedges]
    exact UInt64.toNat_lt _
  have hneighbors : checkNeighborOffsets (artifacts.contents.header input.layout)
      (neighborOffsets artifacts.contents.lists) = .ok () :=
    checkNeighborOffsets_ok hsmall hready.degree
  have hhead : (neighborOffsets artifacts.contents.lists).head? = some 0 := by
    have hfirst := getElem?_neighborOffsets (Nat.zero_le artifacts.contents.lists.length)
    rw [List.head?_eq_getElem?, hfirst]
    rfl
  have hranges := readCellRanges_ok hcounts hready.cover
  have hhints := readGatewayHints_ok hready
  have hprefetch : readPrefetchPages (artifacts.contents.header input.layout)
      artifacts.contents.sections.prefetchDirectory = .ok artifacts.contents.prefetchPages :=
    readPrefetchPages_ok hcounts.prefetch hready.prefetch
  have hraw : (artifacts.contents.header input.layout).encoding = .rawU32 := rfl
  have hgateways := gatewaySection_eq hfound
  have hlocations : ∀ locations, readLocations (artifacts.contents.header input.layout)
      artifacts.contents.sections.directory = .ok locations ↔
        locations = artifacts.contents.placed.writer.locations ∧
          ∀ location ∈ locations, location.pageOffset.toNat % floatAlignment = 0 :=
    fun _ => readLocations_ok_iff hcounts.locations hready.source hready.inside
  -- both modes end alike
  have hend : ∀ adjacency, adjacency = (artifacts.reloaded input.layout paged).adjacency →
      ((∃ locations, readLocations (artifacts.contents.header input.layout)
        artifacts.contents.sections.directory = .ok locations ∧
          ∃ hints, readGatewayHints (artifacts.contents.header input.layout) locations
            artifacts.contents.placed.cellRanges artifacts.contents.sections.gatewayDirectory =
              .ok hints ∧
            { artifacts.reloaded input.layout paged with
              adjacency, vectorLocations := locations, gatewayPrefetchHints := hints } = loaded) ↔
        loaded = artifacts.reloaded input.layout paged ∧ artifacts.Aligned) := by
    rintro _ rfl
    constructor
    · rintro ⟨locations, hread, hints, hreadHints, rfl⟩
      obtain ⟨rfl, haligned⟩ := (hlocations locations).mp hread
      rw [hhints] at hreadHints
      obtain rfl := Except.ok.inj hreadHints
      exact ⟨rfl, haligned⟩
    · rintro ⟨rfl, haligned⟩
      exact ⟨_, (hlocations _).mpr ⟨rfl, haligned⟩, _, hhints, rfl⟩
  cases paged with
  | true =>
    have hadjacency := validateRawAdjacencyRange_ok hcounts hfound hready.targets
    simp only [load, hheader, hpayload, hsections, if_true, hadjacency, hchecksums, hfingerprints,
      hfound.offsets.1, hoffsets, hhead, hraw, hneighbors, hfound.directory.1,
      hfound.cellDirectory.1, hranges, hfound.prefetchDirectory.1, hprefetch, hgateways,
      bind_ok, reject_ok, Except.ok.injEq, exists_eq_left', not_not, exists_const,
      ne_eq, true_and]
    exact hend (.paged artifacts.topology _) (by rw [hfound.adjacency.2.1]; rfl)
  | false =>
    have hadjacency : (LoadedAdjacency.whole <$> readAdjacency
        (artifacts.contents.header input.layout) artifacts.contents.sections.adjacency) =
          .ok (.whole artifacts.contents.lists.flatten) := by
      rw [readAdjacency_ok hedges hready.targets]
      rfl
    simp only [load, hheader, hpayload, hsections, Bool.false_eq_true, if_false,
      hfound.adjacency.1, hadjacency, hchecksums, hfingerprints, hfound.offsets.1, hoffsets, hhead,
      hraw, hneighbors, hfound.directory.1, hfound.cellDirectory.1, hranges,
      hfound.prefetchDirectory.1, hprefetch, hgateways, bind_ok, reject_ok,
      Except.ok.injEq, exists_eq_left', not_not, exists_const, ne_eq, true_and]
    exact hend (.whole _) rfl

/-! ## The neighbors of a node -/

/-- The end of the page that the byte before `stop` is on. -/
def pageEnd (stop : Nat) : Nat := ((stop - 1) / kIoVectorPageSize + 1) * kIoVectorPageSize

theorem copyPaged_eq_ok_iff {file bytes : List UInt8} {absolute remaining : Nat} :
    copyPaged file absolute remaining = .ok bytes ↔
      (0 < remaining → pageEnd (absolute + remaining) ≤ file.length) ∧
        bytes = subspan file absolute remaining := by
  induction remaining using Nat.strong_induction_on generalizing absolute bytes with
  | _ remaining ih =>
    unfold copyPaged
    by_cases hend : remaining = 0
    · subst hend
      rw [if_pos rfl]
      simp [subspan, eq_comm]
    · rw [if_neg hend]
      dsimp only
      set page := absolute / kIoVectorPageSize with hpage
      set offset := absolute % kIoVectorPageSize with hoffset
      set count := min remaining (kIoVectorPageSize - offset) with hcount
      have hstart : page * kIoVectorPageSize + offset = absolute :=
        Nat.div_add_mod' absolute kIoVectorPageSize
      have hinside : offset < kIoVectorPageSize := Nat.mod_lt _ (by decide)
      have hpiece : subspan (subspan file (page * kIoVectorPageSize) kIoVectorPageSize) offset
          count = subspan file absolute count := by
        rw [subspan_subspan _ (by omega), hstart]
      have hjoined : subspan file absolute count ++
          subspan file (absolute + count) (remaining - count) =
            subspan file absolute remaining := by
        rw [subspan_add]
        congr 1
        omega
      have hrest : absolute + count + (remaining - count) = absolute + remaining := by omega
      have hlast : page ≤ (absolute + remaining - 1) / kIoVectorPageSize := by
        rw [hpage]
        exact Nat.div_le_div_right (by omega)
      simp only [bind_ok, reject_ok, hpiece, ih (remaining - count) (by omega), hrest, Nat.not_lt]
      constructor
      · rintro ⟨-, hwhole, rest, ⟨hpages, rfl⟩, hbytes⟩
        obtain rfl := Except.ok.inj hbytes
        refine ⟨fun _ => ?_, hjoined⟩
        by_cases hmore : 0 < remaining - count
        · exact hpages hmore
        · have hsame : (absolute + remaining - 1) / kIoVectorPageSize = page := by
            apply Nat.div_eq_of_lt_le
            · omega
            · rw [Nat.succ_mul]
              omega
          rw [pageEnd, hsame]
          exact hwhole
      · rintro ⟨hpages, rfl⟩
        refine ⟨(), ?_, _, ⟨fun _ => hpages (by omega), rfl⟩, by rw [hjoined]⟩
        have hbound := hpages (by omega)
        have hmul := Nat.mul_le_mul_right kIoVectorPageSize (Nat.succ_le_succ hlast)
        rw [pageEnd] at hbound
        exact hmul.trans hbound

theorem pageEnd_mono {first second : Nat} (hle : first ≤ second) :
    pageEnd first ≤ pageEnd second := by
  apply Nat.mul_le_mul_right
  exact Nat.succ_le_succ (Nat.div_le_div_right (Nat.sub_le_sub_right hle 1))

theorem exists_last_list {lists : List (List UInt32)} (hsome : lists.flatten ≠ []) :
    ∃ (node : Nat) (list : List UInt32), lists[node]? = some list ∧ list ≠ [] ∧
      (lists.take node).flatten.length + list.length = lists.flatten.length := by
  induction lists using List.reverseRecOn with
  | nil => exact absurd rfl hsome
  | append_singleton lists last ih =>
    by_cases hempty : last = []
    · subst hempty
      rw [List.flatten_append] at hsome ⊢
      simp only [List.flatten_cons, List.flatten_nil, List.append_nil] at hsome ⊢
      obtain ⟨node, list, hlist, hne, hlength⟩ := ih hsome
      have hnode := (List.getElem_of_getElem? hlist).1
      refine ⟨node, list, ?_, hne, ?_⟩
      · rwa [List.getElem?_append_left hnode]
      · rwa [List.take_append_of_le_length (Nat.le_of_lt hnode)]
    · refine ⟨lists.length, last, List.getElem?_concat_length, hempty, ?_⟩
      rw [List.take_left, List.flatten_append, List.length_append, List.flatten_singleton]

def Artifacts.PagesWhole (artifacts : Artifacts) : Prop :=
  artifacts.contents.lists.flatten ≠ [] →
    pageEnd artifacts.contents.sections.directoryOffset ≤ artifacts.topology.length

section Neighbors

variable {input : BuildInput} {artifacts : Artifacts} {node : Nat} {list : List UInt32}

theorem Ready.neighbors_whole (hready : Ready input artifacts)
    (hlist : artifacts.contents.lists[node]? = some list) :
    (artifacts.reloaded input.layout false).neighbors node = .ok list := by
  have hsmall : artifacts.contents.lists.flatten.length < 2 ^ 64 := by
    rw [← hready.counts.exact.1]
    exact UInt64.toNat_lt _
  obtain ⟨first, last, hfirst, hlast, hstart, hstop, -⟩ := neighborOffsets_next hsmall hlist
  simp only [LoadedIndex.neighbors, bind_ok, element_eq_ok]
  refine ⟨first, hfirst, last, hlast, ?_⟩
  rw [hstop, Nat.add_sub_cancel_left, hstart]
  exact congrArg Except.ok (subspan_flatten_take hlist)

theorem Ready.neighbors_paged_iff (hready : Ready input artifacts)
    (hlist : artifacts.contents.lists[node]? = some list) :
    (artifacts.reloaded input.layout true).neighbors node = .ok list ↔
      (list ≠ [] → pageEnd (artifacts.contents.sections.adjacencyOffset +
        ((artifacts.contents.lists.take node).flatten.length + list.length) * 4) ≤
          artifacts.topology.length) := by
  have hcounts := hready.counts
  have hsmall : artifacts.contents.lists.flatten.length < 2 ^ 64 := by
    rw [← hcounts.exact.1]
    exact UInt64.toNat_lt _
  obtain ⟨first, last, hfirst, hlast, hstart, hstop, hend⟩ := neighborOffsets_next hsmall hlist
  obtain ⟨hsection, hplace, hbytes⟩ := (sections_found hready.written).adjacency
  have hlength := hcounts.lengths.2.1
  have hlistBytes : subspan artifacts.topology
      (artifacts.contents.sections.adjacencyOffset + first.toNat * 4) (list.length * 4) =
        serializeU32 list := by
    rw [TopologySection.read, hplace, hbytes, hlength] at hsection
    have hinner : subspan (subspan artifacts.topology artifacts.contents.sections.adjacencyOffset
        (artifacts.contents.lists.flatten.length * 4)) (first.toNat * 4) (list.length * 4) =
          subspan artifacts.topology (artifacts.contents.sections.adjacencyOffset +
            first.toNat * 4) (list.length * 4) := subspan_subspan _ (by omega)
    have hsplit : artifacts.contents.sections.adjacency =
        serializeU32 (artifacts.contents.lists.take node).flatten ++ (serializeU32 list ++
          serializeU32 (artifacts.contents.lists.drop (node + 1)).flatten) := by
      change serializeU32 artifacts.contents.lists.flatten = _
      rw [flatten_split hlist]
      simp only [serializeU32, List.flatMap_append]
    have hbefore : (serializeU32 (artifacts.contents.lists.take node).flatten).length =
        first.toNat * 4 := by
      rw [hstart]
      exact length_records length_appendU32Le _
    have hrow : (serializeU32 list).length = list.length * 4 :=
      length_records length_appendU32Le _
    rw [← hinner, hsection, hsplit, ← hbefore, ← hrow, subspan_between]
  have hread : readMany (readU32 "adjacency target") list.length (serializeU32 list) =
      .ok (list, []) := readMany_section (reads_narrow _) rfl
  have hpage : artifacts.contents.sections.adjacencyOffset + first.toNat * 4 + list.length * 4 =
      artifacts.contents.sections.adjacencyOffset +
        ((artifacts.contents.lists.take node).flatten.length + list.length) * 4 := by
    rw [hstart, Nat.add_mul, Nat.add_assoc]
  have hdegree : last.toNat - first.toNat = list.length := by omega
  have hpositive : 0 < list.length * 4 ↔ list ≠ [] := by
    rw [← List.length_pos_iff]
    omega
  have hpaged : (artifacts.reloaded input.layout true).adjacency =
      .paged artifacts.topology artifacts.contents.sections.adjacencyOffset := rfl
  simp only [LoadedIndex.neighbors, hpaged, bind_ok, element_eq_ok, copyPaged_eq_ok_iff]
  constructor
  · rintro ⟨found, hfound, stop, hstopFound, bytes, ⟨hpages, -⟩, -⟩
    obtain rfl := Option.some.inj (hfound.symm.trans hfirst)
    obtain rfl := Option.some.inj (hstopFound.symm.trans hlast)
    rw [hdegree, hpage, hpositive] at hpages
    exact hpages
  · intro hpages
    refine ⟨first, hfirst, last, hlast, _, ⟨?_, rfl⟩, ?_⟩
    · rw [hdegree, hpage, hpositive]
      exact hpages
    · rw [hdegree, hlistBytes]
      exact ⟨_, hread, rfl⟩

theorem Ready.neighbors_iff (hready : Ready input artifacts) (paged : Bool) :
    (∀ (node : Nat) (list : List UInt32), artifacts.contents.lists[node]? = some list →
      (artifacts.reloaded input.layout paged).neighbors node = .ok list) ↔
        (paged = true → artifacts.PagesWhole) := by
  have hlength := hready.counts.lengths.2.1
  cases paged with
  | false => exact ⟨fun _ => (by nofun), fun _ _ _ hlist => hready.neighbors_whole hlist⟩
  | true =>
    constructor
    · intro hall _ hsome
      obtain ⟨node, list, hlist, hne, htotal⟩ := exists_last_list hsome
      have hpages := (hready.neighbors_paged_iff hlist).mp (hall node list hlist) hne
      rwa [htotal, ← hlength] at hpages
    · intro hwhole node list hlist
      apply (hready.neighbors_paged_iff hlist).mpr
      intro hne
      have hmem := List.mem_of_getElem? hlist
      have hsome : artifacts.contents.lists.flatten ≠ [] := by
        intro hnone
        exact hne (List.flatten_eq_nil_iff.mp hnone list hmem)
      refine (pageEnd_mono ?_).trans (hwhole rfl hsome)
      have htotal := congrArg List.length (flatten_split hlist)
      rw [List.length_append, List.length_append] at htotal
      rw [Sections.directoryOffset, hlength]
      omega

end Neighbors

end SkipCell.IoIndex

import SkipCell.IoIndex.Artifacts
import SkipCell.IoIndex.CellPages
import SkipCell.Sidecar.RoundTrip

/-! # The layout of the vector artifact

After a build every vector lies inside one page, apart from the others, with the
bytes of its node. In a Cell layout the pages of the Cells tile the artifact in the
order of the Cells.
-/

namespace SkipCell.IoIndex

open Foundation Sidecar

theorem length_convertU8 {dimension : Nat} {bytes converted : List UInt8}
    (hconvert : convertU8 dimension bytes = .ok converted) : converted.length = dimension := by
  induction dimension generalizing bytes converted with
  | zero =>
    obtain rfl := Except.ok.inj hconvert
    rfl
  | succ dimension ih =>
    rw [convertU8] at hconvert
    split at hconvert
    next => cases hconvert
    next byte _ =>
      obtain ⟨rest, hrest, hconverted⟩ := bind_ok.mp hconvert
      obtain rfl := Except.ok.inj hconverted
      rw [List.length_cons, ih hrest]

variable {layout : VectorLayout} {metadata : DiskLayoutMetadata} {records : List BaseRecord}
    {vectors : List (List UInt8)} {index : Index} {slots : List PlacedSlot} {input : BuildInput}
    {compress : Option Compress} {artifacts : Artifacts}

theorem length_storedVector {record : BaseRecord} {vector : List UInt8}
    (hrecord : record.Fits metadata) (hstored : storedVector layout metadata record = .ok vector) :
    vector.length = vectorBytes layout metadata := by
  unfold storedVector at hstored
  unfold vectorBytes
  split at hstored
  next hlayout =>
    rw [if_pos hlayout]
    exact length_convertU8 hstored
  next hlayout =>
    rw [if_neg hlayout]
    obtain rfl := Except.ok.inj hstored
    exact hrecord.vector

/-- The vectors of the records of a Base index. -/
structure VectorsRead (disk : List UInt8) (layout : VectorLayout) (metadata : DiskLayoutMetadata)
    (records : List BaseRecord) (vectors : List (List UInt8)) : Prop where
  small : metadata.pointCount.toNat + 1 < 2 ^ 60
  recordCount : records.length = metadata.pointCount.toNat
  count : vectors.length = metadata.pointCount.toNat
  width : ∀ vector ∈ vectors, vector.length = vectorBytes layout metadata
  source : ∀ node < vectors.length, ∃ record, metadata.readRecord disk node = .ok record ∧
    storedVector layout metadata record = .ok (vectorAt vectors node)
  fits : ∀ record ∈ records, record.Fits metadata

theorem vectors_read {disk : List UInt8} (hrecords : metadata.readRecords disk = .ok records)
    (hvectors : records.mapM (storedVector layout metadata) = .ok vectors) :
    VectorsRead disk layout metadata records vectors := by
  obtain ⟨hsmall, hlength, hread⟩ := readRecords_eq_ok hrecords
  have hstored := mapM_eq_ok.mp hvectors
  have hsame := hstored.length_eq
  have hnode : ∀ node, ∀ hnode : node < vectors.length, ∃ record,
      metadata.readRecord disk node = .ok record ∧
        storedVector layout metadata record = .ok vectors[node] := by
    intro node hnode
    refine ⟨records[node], hread node _ (List.getElem?_eq_getElem (hsame ▸ hnode)), ?_⟩
    exact (List.forall₂_iff_get.mp hstored).2 node (hsame ▸ hnode) hnode
  refine ⟨hsmall, hlength, hsame.symm.trans hlength, ?_, ?_, ?_⟩
  · intro vector hvector
    obtain ⟨node, hnode', rfl⟩ := List.getElem_of_mem hvector
    obtain ⟨record, hrecord, hstored⟩ := hnode node hnode'
    exact length_storedVector (readRecord_fits hrecord) hstored
  · intro node hbound
    obtain ⟨record, hrecord, hstored⟩ := hnode node hbound
    refine ⟨record, hrecord, ?_⟩
    rwa [vectorAt, List.getD_eq_getElem _ _ hbound]
  · intro record hrecord
    obtain ⟨node, hnode'⟩ := List.mem_iff_getElem?.mp hrecord
    exact readRecord_fits (hread node record hnode')

/-! ## All slots -/

/-- Every vector has a slot, and the last page is written. -/
structure AllPlaced (width : Nat) (vectors : List (List UInt8)) (writer : PageWriter)
    (slots : List PlacedSlot) : Prop where
  holds : Holds width (kIoVectorPageSize / width) (vectorAt vectors) writer slots
  empty : writer.outputSlot = 0
  length : writer.locations.length = vectors.length
  nodes : (slots.map PlacedSlot.node).Perm (List.range vectors.length)
  offsets : ∀ slot ∈ slots, ∃ position, slot.offset = position * width

theorem zipIdx_eq_map (vectors : List (List UInt8)) :
    vectors.zipIdx = (List.range vectors.length).map fun node => (vectorAt vectors node, node) := by
  apply List.ext_getElem (by simp)
  intro node hleft hright
  have hnode : node < vectors.length := by simpa using hleft
  simp [vectorAt, List.getElem?_eq_getElem hnode]

theorem placeOriginal_all {width : Nat} (hpositive : 0 < width) (hpage : width ≤ kIoVectorPageSize)
    (hwidth : ∀ vector ∈ vectors, vector.length = width) :
    ∃ slots, AllPlaced width vectors (placeOriginal width vectors).writer slots := by
  have hroom : 0 < kIoVectorPageSize / width := Nat.div_pos hpage hpositive
  have hfits : kIoVectorPageSize / width * width ≤ kIoVectorPageSize := Nat.div_mul_le_self _ _
  have hstart := Holds.start width (kIoVectorPageSize / width) (vectorAt vectors)
    (List.replicate vectors.length {})
  have hlocations : (List.replicate vectors.length ({} : VectorLocation)).length =
      vectors.length := List.length_replicate
  obtain ⟨slots, hslots⟩ := appendNodes (List.range vectors.length) hfits hstart hroom
    List.nodup_range (fun node hnode => hlocations.symm ▸ List.mem_range.mp hnode)
    fun node hnode => length_vectorAt hwidth (List.mem_range.mp hnode)
  obtain ⟨hflushed, hempty, -⟩ := hslots.holds.flushPage hfits
  rw [placeOriginal, zipIdx_eq_map, List.foldl_map]
  refine ⟨slots, hflushed, hempty, ?_, List.Perm.of_eq hslots.same, ?_⟩
  · rw [PageWriter.locations_flushPage]
    exact hslots.length.trans hlocations
  · intro slot hslot
    obtain ⟨index, hindex⟩ := List.mem_iff_getElem?.mp hslot
    exact ⟨_, hslots.offsets index slot hindex⟩

structure PlacedByCell (index : Index) (layout : VectorLayout) (width : Nat)
    (vectors : List (List UInt8)) (placed : PlacedVectors) (packetOrder : List UInt32)
    (placement : Placement) (slots : List PlacedSlot) : Prop where
  packets : OrderedByPacket index packetOrder
  covers : packetOrder.length = vectors.length
  perm : placed.order.Perm packetOrder
  within : placed.order.map (cellOf index) = packetOrder.map (cellOf index)
  unweighted : layout ≠ .cellWeighted4k → placed.order = packetOrder
  writer : placement.writer = placed.writer
  ranges : placement.cellRanges = placed.cellRanges
  remaining : placement.remaining = []
  cells : CellsPlaced index layout width (kIoVectorPageSize / width) vectors placed.order
    index.cells.length placement slots

theorem placeCells_placed {hasEdge : UInt32 → UInt32 → Bool} {width : Nat} {placed : PlacedVectors}
    (hpositive : 0 < width) (hpage : width ≤ kIoVectorPageSize)
    (hwidth : ∀ vector ∈ vectors, vector.length = width) (hfew : vectors.length < 2 ^ 32)
    (hrecords : index.nodeToPacketRecord.length = vectors.length)
    (hplaced : placeCells index layout hasEdge width vectors = .ok placed) :
    ∃ packetOrder placement slots,
      PlacedByCell index layout width vectors placed packetOrder placement slots := by
  simp only [placeCells, bind_ok, reject_ok, not_not] at hplaced
  obtain ⟨packetOrder, horder, -, -, -, -, placement, hscan, -, hremaining, hresult⟩ := hplaced
  obtain rfl := Except.ok.inj hresult
  obtain ⟨hlength, hpackets⟩ := placementOrder_eq_ok hfew hrecords horder
  set order := if layout = .cellWeighted4k then
    weightedOrder index hasEdge (kIoVectorPageSize / width) packetOrder else packetOrder with hdef
  have hwithin : order.Perm packetOrder ∧
      order.map (cellOf index) = packetOrder.map (cellOf index) := by
    rw [hdef]
    split
    next => exact weightedOrder_within ..
    next => exact ⟨.refl _, rfl⟩
  have hsetting : PlacementSetting width (kIoVectorPageSize / width) vectors order := by
    refine ⟨hwidth, hpositive, Nat.div_pos hpage hpositive, Nat.div_mul_le_self _ _, ?_, hfew⟩
    rw [← hlength]
    exact (hwithin.1.map _).trans hpackets.perm
  obtain ⟨slots, hcells⟩ := CellsPlaced.run hsetting hscan
  exact ⟨packetOrder, placement, slots, hpackets, hlength, hwithin.1, hwithin.2,
    fun hother => if_neg hother, rfl, rfl, hremaining, hcells⟩

theorem PlacedByCell.all {width : Nat} {placed : PlacedVectors} {packetOrder : List UInt32}
    {placement : Placement}
    (hplaced : PlacedByCell index layout width vectors placed packetOrder placement slots) :
    AllPlaced width vectors placed.writer slots := by
  have hcells := hplaced.cells
  rw [← hplaced.writer]
  refine ⟨hcells.holds, hcells.empty, hcells.length, ?_, ?_⟩
  · have hcovered := hcells.covered
    rw [hplaced.remaining, List.map_nil, List.append_nil] at hcovered
    rw [hcovered, ← hplaced.covers]
    exact (hplaced.perm.map _).trans hplaced.packets.perm
  · intro slot hslot
    obtain ⟨⟨position, -, hposition⟩, -⟩ := hcells.offsets slot hslot
    exact ⟨position, hposition⟩

/-- Two slots share no byte. -/
def PlacedSlot.Apart (width : Nat) (first second : PlacedSlot) : Prop :=
  first.start + width ≤ second.start ∨ second.start + width ≤ first.start

instance (width : Nat) : Std.Symm (PlacedSlot.Apart width) := ⟨fun _ _ => Or.symm⟩

def VectorLocation.start (location : VectorLocation) : Nat :=
  location.pageId.toNat * kIoVectorPageSize + location.pageOffset.toNat

namespace AllPlaced

variable {width : Nat} {vectors : List (List UInt8)} {writer : PageWriter}
  {slots : List PlacedSlot}

theorem page_lt (hall : AllPlaced width vectors writer slots) (hpositive : 0 < width)
    {slot : PlacedSlot} (hslot : slot ∈ slots) : slot.page < writer.pagesWritten := by
  have hinside := (hall.holds.inside slot hslot).2
  rw [PageWriter.cursor, hall.empty, PlacedSlot.start] at hinside
  by_contra hbehind
  have hlast := Nat.mul_le_mul_right kIoVectorPageSize (Nat.le_of_not_lt hbehind)
  omega

theorem location_eq (hall : AllPlaced width vectors writer slots) (hpositive : 0 < width)
    (hpages : writer.pagesWritten < 2 ^ 64) {slot : PlacedSlot} (hslot : slot ∈ slots)
    {location : VectorLocation} (hlocation : writer.locations[slot.node]? = some location) :
    location.pageId.toNat = slot.page ∧ location.pageOffset.toNat = slot.offset ∧
      location.start = slot.start := by
  rw [hall.holds.located slot hslot] at hlocation
  obtain rfl := Option.some.inj hlocation
  have hpage : slot.location.pageId.toNat = slot.page := by
    have hbelow := hall.page_lt hpositive hslot
    rw [PlacedSlot.location, UInt64.toNat_ofNat']
    exact Nat.mod_eq_of_lt (by omega)
  have hoffset : slot.location.pageOffset.toNat = slot.offset := by
    have hinside := (hall.holds.inside slot hslot).1
    have hsize : kIoVectorPageSize < 2 ^ 32 := by decide
    rw [PlacedSlot.location, UInt32.toNat_ofNat']
    exact Nat.mod_eq_of_lt (by omega)
  refine ⟨hpage, hoffset, ?_⟩
  rw [VectorLocation.start, hpage, hoffset]
  rfl

theorem located (hall : AllPlaced width vectors writer slots) {node : Nat}
    {location : VectorLocation} (hlocation : writer.locations[node]? = some location) :
    node < vectors.length ∧ ∃ slot ∈ slots, slot.node = node := by
  have hnode := (List.getElem_of_getElem? hlocation).1
  rw [hall.length] at hnode
  exact ⟨hnode, List.mem_map.mp (hall.nodes.mem_iff.mpr (List.mem_range.mpr hnode))⟩

end AllPlaced

/-! ## The build -/

/-- The steps of a build before the topology is written. -/
structure ContentsBuilt (input : BuildInput) (compress : Option Compress)
    (contents : BuildContents) (index : Option Index) (records : List BaseRecord)
    (vectors : List (List UInt8)) : Prop where
  options : checkOptions input compress = .ok ()
  metadata : readDiskLayoutMetadata input.disk = .ok contents.metadata
  sourceBytes : contents.metadata.dimension.toNat * 4 < 2 ^ 64
  positive : 0 < vectorBytes input.layout contents.metadata
  page : vectorBytes input.layout contents.metadata ≤ kIoVectorPageSize
  opened : match index with
    | none => input.layout.isCell = false
    | some index => input.layout.isCell = true ∧
        openSidecar input contents.metadata = .ok index
  readRecords : contents.metadata.readRecords input.disk = .ok records
  read : VectorsRead input.disk input.layout contents.metadata records vectors
  lists : contents.lists = adjacencyLists input index records
  placed : match index with
    | none => contents.placed =
        placeOriginal (vectorBytes input.layout contents.metadata) vectors
    | some index =>
      placeCells index input.layout
        (fun source target => decide (target ∈ contents.lists.getD source.toNat []))
        (vectorBytes input.layout contents.metadata) vectors = .ok contents.placed
  hints : match index with
    | none => contents.gatewayHints = []
    | some index =>
      if input.buildPrefetchHints then
        index.gateways.mapM (gatewayHint index (cellTransitions index contents.lists)
          contents.placed.writer.locations contents.placed.cellRanges) =
            .ok contents.gatewayHints
      else contents.gatewayHints = []
  prefetch : contents.prefetchPages = (List.range contents.metadata.pointCount.toNat).map
      (prefetchPage contents.lists contents.placed.writer.locations) ∨
    contents.prefetchPages = List.replicate contents.metadata.pointCount.toNat kNoIoPrefetchPage
  base : contents.base = fingerprintFile input.disk
  communityPolar : ∀ sidecar, index = some sidecar →
    contents.communityPolar = fingerprintFile input.communityPolar

theorem loadIndex_valid {file : List UInt8} (hload : loadIndex file = .ok index) :
    validateLoadedIndex index = .ok () := by
  simp only [loadIndex, bind_ok] at hload
  obtain ⟨_, -, _, -, _, -, _, -, _, -, _, -, _, -, _, -, _, -, _, -, _, -, _, -, _, -, _, -, _, -,
    _, -, _, -, _, -, _, hvalid, hindex⟩ := hload
  rwa [Except.ok.inj hindex] at hvalid

theorem openSidecar_eq_ok (hopened : openSidecar input metadata = .ok index) :
    loadIndex input.communityPolar = .ok index ∧
      index.baseIndexFingerprint = fingerprintFile input.disk ∧
      index.pointCount = metadata.pointCount ∧ index.cells ≠ [] := by
  simp only [openSidecar, validateCommunityPolarArtifacts, bind_ok, reject_ok, not_or,
    not_not] at hopened
  obtain ⟨loaded, hload, _, ⟨hbase, -⟩, _, ⟨hcount, -, hcells⟩, hindex⟩ := hopened
  obtain rfl := Except.ok.inj hindex
  exact ⟨hload, hbase.symm, hcount, hcells⟩

theorem buildContents_eq_ok {contents : BuildContents}
    (hbuild : buildContents input compress = .ok contents) :
    ∃ index records vectors, ContentsBuilt input compress contents index records vectors := by
  unfold buildContents at hbuild
  by_cases hlayout : input.layout.isCell = true
  · simp only [openIndex, if_pos hlayout, placeVectors, bind_ok, reject_ok, not_or, not_lt,
      multiplyChecked_eq_ok] at hbuild
    obtain ⟨_, hoptions, metadata, hmetadata, _, ⟨hsource, -⟩, _, ⟨hpositive, hpage⟩, _, -, index,
      hopened, records, hrecords, placed, ⟨vectors, hvectors, hplaced⟩, hrest⟩ := hbuild
    cases hsidecar : openSidecar input metadata with
    | error failure =>
      rw [hsidecar] at hopened
      cases hopened
    | ok opened =>
      rw [hsidecar] at hopened
      obtain rfl := Except.ok.inj hopened
      have hread := vectors_read hrecords hvectors
      have hbase := (openSidecar_eq_ok hsidecar).2.1
      have hopens := And.intro hlayout hsidecar
      dsimp only at hrest hplaced
      by_cases hhints : input.buildPrefetchHints = true
      · simp only [if_pos hhints, bind_ok] at hrest
        obtain ⟨hints, hmapped, hcontents⟩ := hrest
        obtain rfl := Except.ok.inj hcontents
        refine ⟨some opened, records, vectors, hoptions, hmetadata, hsource,
          Nat.pos_of_ne_zero hpositive, hpage, hopens, hrecords, hread, rfl, hplaced, ?_, .inl rfl, hbase,
          fun _ _ => rfl⟩
        dsimp only
        rw [if_pos hhints]
        exact hmapped
      · simp only [if_neg hhints, bind_ok] at hrest
        obtain ⟨hints, hnone, hcontents⟩ := hrest
        obtain rfl := Except.ok.inj hnone
        obtain rfl := Except.ok.inj hcontents
        refine ⟨some opened, records, vectors, hoptions, hmetadata, hsource,
          Nat.pos_of_ne_zero hpositive, hpage, hopens, hrecords, hread, rfl, hplaced, ?_, .inr rfl, hbase,
          fun _ _ => rfl⟩
        dsimp only
        rw [if_neg hhints]
  · simp only [openIndex, if_neg hlayout, placeVectors, bind_ok, reject_ok, not_or, not_lt,
      multiplyChecked_eq_ok] at hbuild
    obtain ⟨_, hoptions, metadata, hmetadata, _, ⟨hsource, -⟩, _, ⟨hpositive, hpage⟩, _, -, index,
      hopened, records, hrecords, placed, ⟨vectors, hvectors, hplaced⟩, hrest⟩ := hbuild
    obtain rfl := Except.ok.inj hopened
    obtain rfl := Except.ok.inj hrest
    obtain rfl := Except.ok.inj hplaced
    refine ⟨none, records, vectors, hoptions, hmetadata, hsource, Nat.pos_of_ne_zero hpositive, hpage,
      Bool.eq_false_of_not_eq_true hlayout, hrecords, vectors_read hrecords hvectors, rfl, rfl, rfl, ?_,
      rfl, fun sidecar hsome => absurd hsome.symm (Option.some_ne_none sidecar)⟩
    by_cases hhints : input.buildPrefetchHints = true
    · exact .inl (if_pos hhints)
    · exact .inr (if_neg hhints)

/-- What a build writes, and what it made sure of before. -/
structure Built (input : BuildInput) (compress : Option Compress) (artifacts : Artifacts) :
    Prop where
  contents : buildContents input compress = .ok artifacts.contents
  vectors : artifacts.vectors = artifacts.contents.placed.writer.vectors
  pages : artifacts.contents.placed.writer.pagesWritten * kIoVectorPageSize < 2 ^ 64

theorem build_eq_ok (hbuild : build input compress = .ok artifacts) :
    Built input compress artifacts := by
  simp only [build, bind_ok, reject_ok, not_not, multiplyChecked_eq_ok, addChecked_eq_ok] at hbuild
  obtain ⟨contents, hcontents, fileSize, ⟨hpages, -⟩, hrest⟩ := hbuild
  obtain ⟨_, -, adjacency, -, directory, -, cells, -, prefetch, -, gateways, -, size, -, _, -, _, -,
    hresult⟩ := hrest
  obtain rfl := Except.ok.inj hresult
  exact ⟨hcontents, rfl, hpages⟩

/-! ## The layout -/

structure VectorsLaidOut (input : BuildInput) (artifacts : Artifacts) : Prop where
  pages : artifacts.vectors.length =
    artifacts.contents.placed.writer.pagesWritten * kIoVectorPageSize
  located : artifacts.contents.placed.writer.locations.length =
    artifacts.contents.metadata.pointCount.toNat
  inside : ∀ (node : Nat) (location : VectorLocation),
    artifacts.contents.placed.writer.locations[node]? = some location →
      location.pageId.toNat < artifacts.contents.placed.writer.pagesWritten ∧
        location.pageOffset.toNat + vectorBytes input.layout artifacts.contents.metadata ≤
          kIoVectorPageSize
  stored : ∀ (node : Nat) (location : VectorLocation),
    artifacts.contents.placed.writer.locations[node]? = some location →
      ∃ record, artifacts.contents.metadata.readRecord input.disk node = .ok record ∧
        storedVector input.layout artifacts.contents.metadata record =
          .ok (subspan artifacts.vectors location.start
            (vectorBytes input.layout artifacts.contents.metadata))
  disjoint : ∀ (first second : Nat) (left right : VectorLocation), first ≠ second →
    artifacts.contents.placed.writer.locations[first]? = some left →
    artifacts.contents.placed.writer.locations[second]? = some right →
      left.start + vectorBytes input.layout artifacts.contents.metadata ≤ right.start ∨
        right.start + vectorBytes input.layout artifacts.contents.metadata ≤ left.start

structure CellsLaidOut (input : BuildInput) (artifacts : Artifacts) (index : Index) : Prop where
  count : artifacts.contents.placed.cellRanges.length = index.cells.length
  tiles : TilesFrom 0 (pageRanges artifacts.contents.placed.cellRanges)
    artifacts.contents.placed.writer.pagesWritten
  covers : index.nodeToCell.length = artifacts.contents.placed.writer.locations.length
  owned : ∀ (node cell : Nat) (location : VectorLocation),
    artifacts.contents.placed.writer.locations[node]? = some location →
    index.nodeToCell[node]?.map UInt32.toNat = some cell →
      OwnedBy (pageRanges artifacts.contents.placed.cellRanges) location.pageId.toNat cell
  -- the vectors follow one another in the order of the placement
  placed : artifacts.contents.placed.order.Pairwise fun first second =>
    ∀ left right, artifacts.contents.placed.writer.locations[first.toNat]? = some left →
      artifacts.contents.placed.writer.locations[second.toNat]? = some right →
        left.start + vectorBytes input.layout artifacts.contents.metadata ≤ right.start
  ordered : ∃ packetOrder, OrderedByPacket index packetOrder ∧
    packetOrder.length = index.pointCount.toNat ∧
    artifacts.contents.placed.order.Perm packetOrder ∧
    artifacts.contents.placed.order.map (cellOf index) = packetOrder.map (cellOf index) ∧
    (input.layout ≠ .cellWeighted4k → artifacts.contents.placed.order = packetOrder)

theorem AllPlaced.laidOut (hpositive : 0 < vectorBytes input.layout artifacts.contents.metadata)
    (hpages : artifacts.contents.placed.writer.pagesWritten < 2 ^ 64)
    (hread : VectorsRead input.disk input.layout artifacts.contents.metadata records vectors)
    (hvectors : artifacts.vectors = artifacts.contents.placed.writer.vectors)
    (hall : AllPlaced (vectorBytes input.layout artifacts.contents.metadata) vectors
      artifacts.contents.placed.writer slots) : VectorsLaidOut input artifacts := by
  set width := vectorBytes input.layout artifacts.contents.metadata with hwidth
  set writer := artifacts.contents.placed.writer with hwriter
  have hlength : artifacts.vectors.length = writer.pagesWritten * kIoVectorPageSize := by
    rw [hvectors]
    exact hall.holds.fileLength
  constructor
  case pages => exact hlength
  case located => exact hall.length.trans hread.count
  case inside =>
    intro node location hlocation
    obtain ⟨-, slot, hslot, rfl⟩ := hall.located hlocation
    obtain ⟨hpage, hoffset, -⟩ := hall.location_eq hpositive hpages hslot hlocation
    rw [hpage, hoffset]
    exact ⟨hall.page_lt hpositive hslot, (hall.holds.inside slot hslot).1⟩
  case stored =>
    intro node location hlocation
    obtain ⟨hnode, slot, hslot, rfl⟩ := hall.located hlocation
    obtain ⟨-, -, hstart⟩ := hall.location_eq hpositive hpages hslot hlocation
    obtain ⟨record, hrecord, hstored⟩ := hread.source slot.node hnode
    refine ⟨record, hrecord, ?_⟩
    have hinside := (hall.holds.inside slot hslot).2
    rw [PageWriter.cursor, hall.empty, Nat.zero_mul, Nat.add_zero, ← hlength, hvectors] at hinside
    rw [hstored, ← hall.holds.stored slot hslot, hstart, hvectors, PageWriter.contents,
      subspan_append_left _ hinside]
  case disjoint =>
    intro first second left right hne hleft hright
    obtain ⟨-, leftSlot, hleftSlot, rfl⟩ := hall.located hleft
    obtain ⟨-, rightSlot, hrightSlot, rfl⟩ := hall.located hright
    have hapart : slots.Pairwise (PlacedSlot.Apart width) := hall.holds.ordered.imp .inl
    rw [(hall.location_eq hpositive hpages hleftSlot hleft).2.2,
      (hall.location_eq hpositive hpages hrightSlot hright).2.2]
    apply hapart.forall hleftSlot hrightSlot
    intro hsame
    exact hne (congrArg PlacedSlot.node hsame)

/-- The Cell layouts, with a sidecar that was opened. -/
theorem PlacedByCell.laidOut {packetOrder : List UInt32} {placement : Placement}
    (hpositive : 0 < vectorBytes input.layout artifacts.contents.metadata)
    (hpages : artifacts.contents.placed.writer.pagesWritten < 2 ^ 64)
    (hcells : index.nodeToCell.length = vectors.length)
    (hcount : vectors.length = index.pointCount.toNat)
    (hplaced : PlacedByCell index input.layout (vectorBytes input.layout artifacts.contents.metadata)
      vectors artifacts.contents.placed packetOrder placement slots) :
    CellsLaidOut input artifacts index := by
  have hall := hplaced.all
  have hrun := hplaced.cells
  have hsmall : placement.writer.pagesWritten < 2 ^ 64 := by rwa [hplaced.writer]
  constructor
  case count =>
    rw [← hplaced.ranges]
    exact hrun.count
  case tiles =>
    rw [← hplaced.ranges, ← hplaced.writer]
    exact hrun.tiles hsmall
  case covers => exact hcells.trans hall.length.symm
  case owned =>
    intro node cell location hlocation hcell
    obtain ⟨-, slot, hslot, rfl⟩ := hall.located hlocation
    rw [(hall.location_eq hpositive hpages hslot hlocation).1, ← hplaced.ranges]
    exact hrun.owned hsmall slot hslot cell hcell
  case placed =>
    have hordered : slots.map PlacedSlot.node = artifacts.contents.placed.order.map UInt32.toNat := by
      rw [← hrun.covered, hplaced.remaining, List.map_nil, List.append_nil]
    have hnodes : (slots.map PlacedSlot.node).Pairwise fun first second => ∀ left right,
        artifacts.contents.placed.writer.locations[first]? = some left →
        artifacts.contents.placed.writer.locations[second]? = some right →
          left.start + vectorBytes input.layout artifacts.contents.metadata ≤ right.start := by
      apply List.pairwise_map.mpr
      refine hall.holds.ordered.imp_of_mem ?_
      intro first second hfirst hsecond hbefore left right hleft hright
      rw [(hall.location_eq hpositive hpages hfirst hleft).2.2,
        (hall.location_eq hpositive hpages hsecond hright).2.2]
      exact hbefore
    rw [hordered] at hnodes
    exact List.pairwise_map.mp hnodes
  case ordered =>
    exact ⟨packetOrder, hplaced.packets, hplaced.covers.trans hcount, hplaced.perm, hplaced.within,
      hplaced.unweighted⟩

structure SidecarPlaced (input : BuildInput) (contents : BuildContents)
    (vectors : List (List UInt8)) (slots : List PlacedSlot) (index : Index) : Prop where
  opened : openSidecar input contents.metadata = .ok index
  valid : validateLoadedIndex index = .ok ()
  nodes : index.nodeToCell.length = vectors.length
  count : vectors.length = index.pointCount.toNat
  placed : ∃ packetOrder placement, PlacedByCell index input.layout
    (vectorBytes input.layout contents.metadata) vectors contents.placed packetOrder placement slots

theorem contents_placed {contents : BuildContents} {index : Option Index}
    (hcontents : ContentsBuilt input compress contents index records vectors) :
    ∃ slots, AllPlaced (vectorBytes input.layout contents.metadata) vectors contents.placed.writer
        slots ∧
      ∀ sidecar, index = some sidecar → SidecarPlaced input contents vectors slots sidecar := by
  have hread := hcontents.read
  have hplaced := hcontents.placed
  have hopened := hcontents.opened
  cases index with
  | none =>
    obtain ⟨slots, hall⟩ := placeOriginal_all hcontents.positive hcontents.page hread.width
    rw [← hplaced] at hall
    exact ⟨slots, hall, fun sidecar hsome => absurd hsome.symm (Option.some_ne_none sidecar)⟩
  | some index =>
    obtain ⟨-, hopened⟩ := hopened
    obtain ⟨hload, -, hcount, -⟩ := openSidecar_eq_ok hopened
    have hvalid := loadIndex_valid hload
    obtain ⟨accepted⟩ := accepted_of_valid hvalid
    have hglobals := accepted.globals_ok
    have hvectors : vectors.length = index.pointCount.toNat := by rw [hread.count, hcount]
    have hfew : vectors.length < 2 ^ 32 := by
      have hscanned := (counts_of_valid hvalid).1
      rw [List.length_zip, hglobals.nodeToCommunity, hglobals.nodeToCell, Nat.min_self] at hscanned
      rwa [hvectors]
    obtain ⟨packetOrder, placement, slots, hslots⟩ := placeCells_placed hcontents.positive
      hcontents.page hread.width hfew (hglobals.nodeToPacketRecord.trans hvectors.symm) hplaced
    refine ⟨slots, hslots.all, ?_⟩
    intro sidecar hsome
    obtain rfl := Option.some.inj hsome
    exact ⟨hopened, hvalid, hglobals.nodeToCell.trans hvectors.symm, hvectors, packetOrder,
      placement, hslots⟩

theorem Built.pagesWritten_lt (hbuilt : Built input compress artifacts) :
    artifacts.contents.placed.writer.pagesWritten < 2 ^ 64 := by
  have hsize := hbuilt.pages
  rw [kIoVectorPageSize] at hsize
  omega

/-- After a build the vectors lie apart in their pages, and in a Cell layout the pages
of the Cells tile the artifact. -/
theorem build_laidOut {input : BuildInput} {compress : Option Compress} {artifacts : Artifacts}
    (hbuild : build input compress = .ok artifacts) :
    VectorsLaidOut input artifacts ∧
      (input.layout.isCell = true → ∃ index,
        openSidecar input artifacts.contents.metadata = .ok index ∧
          CellsLaidOut input artifacts index) := by
  have hbuilt := build_eq_ok hbuild
  obtain ⟨index, records, vectors, hcontents⟩ := buildContents_eq_ok hbuilt.contents
  obtain ⟨slots, hall, hsidecar⟩ := contents_placed hcontents
  have hpages := hbuilt.pagesWritten_lt
  refine ⟨hall.laidOut hcontents.positive hpages hcontents.read hbuilt.vectors, ?_⟩
  intro hcell
  have hopened := hcontents.opened
  cases index with
  | none =>
    rw [hcell] at hopened
    cases hopened
  | some index =>
    have hcells := hsidecar index rfl
    obtain ⟨packetOrder, placement, hslots⟩ := hcells.placed
    exact ⟨index, hcells.opened, hslots.laidOut hcontents.positive hpages hcells.nodes hcells.count⟩

/-- A Base index of two nodes, neighbors of each other, with one coordinate each. -/
def pairDisk : List UInt8 :=
  encodeLittle 4 9 ++ encodeLittle 4 1 ++ encodeLittle 8 2 ++ encodeLittle 8 1 ++
    encodeLittle 8 0 ++ encodeLittle 8 12 ++ encodeLittle 8 2 ++ encodeLittle 8 0 ++
    encodeLittle 8 0 ++ encodeLittle 8 0 ++ encodeLittle 8 8192 ++ List.replicate 4016 0 ++
    [0, 0, 160, 64, 1, 0, 0, 0, 1, 0, 0, 0, 0, 0, 224, 64, 1, 0, 0, 0, 0, 0, 0, 0] ++
    List.replicate 4072 0

/-- A sidecar of that Base index, with both nodes in one Cell. -/
def onePair : Index :=
  { twoNodes with
    config := { twoNodes.config with communityCount := 1 }
    baseIndexFingerprint := fingerprintFile pairDisk
    pqFingerprint := fingerprintFile []
    nodeToCommunity := [0, 0]
    nodeToCell := [0, 0]
    communities := [⟨0, 2, 10, 0, 0, 0, 0, 0, .zero, false, 0, 1, 0, 1⟩]
    communityPoles := [.zero]
    communityEdgeOffsets := [0, 0]
    communityEdges := []
    gateways := []
    directionAxes := [.zero]
    sectors :=
      [{ communityId := 0, sectorId := kPoleSectorId, nodeCount := 2
         axisIndex := kInvalidAxisIndex, cellBegin := 0, cellCount := 1 }]
    cells :=
      [{ cellId := 0, communityId := 0, sectorId := kPoleSectorId, radialCellId := 0
         nodeCount := 2, capacityClass := 2, blockBegin := 0, blockCount := 1 }]
    blocks := [{ blockId := 0, cellId := 0, nodeCount := 2, packetRecordBegin := 0 }]
    cellHierarchyNodes :=
      [{ nodeId := 0, childBegin := 0, childCount := 1, descendantNodeCount := 2
         childrenAreCells := true }]
    cellHierarchyRoots := [0]
    cellHierarchyChildren := [0]
    cellHierarchyCentroids := [.zero] }

def pairInput (layout : VectorLayout) : BuildInput :=
  { disk := pairDisk, communityPolar := onePair.file, layout }

set_option maxRecDepth 100000 in
theorem build_pair : ∃ artifacts, build (pairInput .cellU8) none = .ok artifacts ∧
    artifacts.contents.placed.writer.locations = [⟨0, 0⟩, ⟨0, 1⟩] := by
  apply exists_ok
  decide +kernel

theorem build_laidOut_pair : ∃ artifacts, build (pairInput .cellU8) none = .ok artifacts ∧
    VectorsLaidOut (pairInput .cellU8) artifacts ∧
      ((pairInput .cellU8).layout.isCell = true → ∃ index,
        openSidecar (pairInput .cellU8) artifacts.contents.metadata = .ok index ∧
          CellsLaidOut (pairInput .cellU8) artifacts index) := by
  obtain ⟨artifacts, hbuild, -⟩ := build_pair
  exact ⟨artifacts, hbuild, build_laidOut hbuild⟩

end SkipCell.IoIndex

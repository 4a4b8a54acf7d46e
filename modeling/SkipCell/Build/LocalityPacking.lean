import SkipCell.Build.PqLocality
import SkipCell.Sidecar.Layout

/-! # Packing the packets of a PQ-locality profile

What the loops over Cells, Blocks and packets leave. The packets lie in the order of the profile,
the Blocks tile them and the Cells tile the Blocks, each with the labels of its range.
-/

namespace SkipCell.Build

open Foundation Sidecar

/-! ## The profile -/

/-- The ranges of the profile's Cells. -/
def PqLocalityProfile.spans (profile : PqLocalityProfile) : List LabelledRange :=
  rowRanges 0 (profile.cellOffsets.map UInt64.toNat)

structure PqLocalityProfile.Suits (profile : PqLocalityProfile) (index : Index) : Prop where
  populated : 1 < profile.cellOffsets.length
  counted : profile.cellOffsets.length - 1 < 2 ^ 32
  tiles : TilesFrom 0 profile.spans index.pointCount.toNat
  rising : profile.cellOffsets.IsChain (· < ·)
  nodes : profile.orderedNodes.length = index.pointCount.toNat
  bounded : ∀ node ∈ profile.orderedNodes, node.toNat < index.pointCount.toNat
  distinct : profile.orderedNodes.Nodup
  addressed : (profile.cellOffsets.length - 1) * index.dimension.toNat < 2 ^ 64
  centroids : profile.cellCentroids.length =
    (profile.cellOffsets.length - 1) * index.dimension.toNat

theorem readOrderedNodes_eq_ok {count : Nat} {seen : List Bool} {bytes rest : List UInt8}
    {nodes : List UInt32} (hread : readOrderedNodes count seen bytes = .ok (nodes, rest)) :
    nodes.length = count ∧ nodes.Nodup ∧ ∀ node ∈ nodes, seen[node.toNat]? = some false := by
  induction count generalizing seen bytes rest nodes with
  | zero =>
    obtain ⟨rfl, -⟩ := Prod.mk.inj (Except.ok.inj hread)
    exact ⟨rfl, List.nodup_nil, fun node hnode => absurd hnode List.not_mem_nil⟩
  | succ count ih =>
    obtain ⟨node, middle, -, hrest⟩ := bind_eq_ok hread
    split at hrest
    next hfree =>
      obtain ⟨others, last, hothers, hpure⟩ := bind_eq_ok hrest
      obtain ⟨rfl, -⟩ := Prod.mk.inj (Except.ok.inj hpure)
      obtain ⟨hlength, hnodup, hunseen⟩ := ih hothers
      have hmark : node.toNat < seen.length := (List.getElem_of_getElem? hfree).1
      have hapart : ∀ other ∈ others, other ≠ node ∧ seen[other.toNat]? = some false := by
        intro other hother
        have hmarked := hunseen other hother
        by_cases hsame : other = node
        · subst hsame
          rw [List.getElem?_set_self hmark] at hmarked
          cases hmarked
        · refine ⟨hsame, ?_⟩
          rwa [List.getElem?_set_ne fun heq => hsame (UInt32.toNat_inj.mp heq.symm)] at hmarked
      refine ⟨congrArg Nat.succ hlength, List.nodup_cons.mpr ⟨fun hmem => ?_, hnodup⟩, ?_⟩
      · exact (hapart node hmem).1 rfl
      · exact List.forall_mem_cons.mpr ⟨hfree, fun other hother => (hapart other hother).2⟩
    next => cases hrest

theorem readCellOffsets_eq_ok {pointCount cellCount : UInt64} {bytes rest : List UInt8}
    {offsets : List UInt64} (hread : readCellOffsets pointCount cellCount bytes = .ok (offsets, rest)) :
    offsets.length = cellCount.toNat + 1 ∧ offsets.head? = some 0 ∧
      offsets.getLast? = some pointCount ∧ offsets.IsChain (· < ·) := by
  obtain ⟨found, middle, hmany, hrest⟩ := bind_eq_ok hread
  split at hrest
  next => cases hrest
  next hchecks =>
    obtain ⟨rfl, -⟩ := Prod.mk.inj (Except.ok.inj hrest)
    simp only [not_or, not_not] at hchecks
    obtain ⟨hhead, hlast, hsorted, hapart⟩ := hchecks
    refine ⟨length_readMany hmany, hhead, hlast, ?_⟩
    apply List.isChain_iff_getElem.mpr
    intro place hplace
    have hle := List.isChain_iff_getElem.mp hsorted place hplace
    have hne := List.isChain_iff_getElem.mp hapart place hplace
    exact UInt64.lt_of_le_of_ne hle hne

theorem loadPqLocalityProfile_suits {index : Index} {config : BuildConfig} {file : List UInt8}
    {profile : PqLocalityProfile} (hload : loadPqLocalityProfile index config file = .ok profile) :
    profile.Suits index := by
  simp only [loadPqLocalityProfile, bind_ok, reject_ok, not_or, not_not] at hload
  obtain ⟨_, -, ⟨header, _⟩, -, payloadBytes, hpayload, _,
    ⟨-, -, -, -, hdimension, hpoints, hsome, hcells⟩, _, -, _, -, _, -, hread⟩ := hload
  dsimp only at hdimension hpoints hsome hcells hread
  simp only [pqLocalityPayloadBytes, bind_ok, checkedMultiply_eq_ok] at hpayload
  obtain ⟨_, -, _, -, centroidCount, ⟨haddressed, -⟩, -⟩ := hpayload
  obtain ⟨offsets, middle, hoffsets, hrest⟩ := bind_eq_ok (readAll_eq_ok hread)
  obtain ⟨nodes, behind, hnodes, hrest⟩ := bind_eq_ok hrest
  obtain ⟨centroids, last, hcentroids, hpure⟩ := bind_eq_ok hrest
  obtain ⟨rfl, -⟩ := Prod.mk.inj (Except.ok.inj hpure)
  obtain ⟨hlength, hhead, hlast, hrising⟩ := readCellOffsets_eq_ok hoffsets
  obtain ⟨hcount, hnodup, hunseen⟩ := readOrderedNodes_eq_ok hnodes
  have hpositive : 0 < header.cellCount.toNat :=
    Nat.pos_of_ne_zero fun hzero => hsome (UInt64.toNat_inj.mp hzero)
  rw [hpoints] at hlast hcount hunseen
  rw [hdimension] at haddressed
  have hcells' : offsets.length - 1 = header.cellCount.toNat := by omega
  refine ⟨?_, ?_, ?_, hrising, hcount, fun node hnode => ?_, hnodup, ?_, ?_⟩
  · change 1 < offsets.length
    omega
  · change offsets.length - 1 < _
    omega
  · cases offsets with
    | nil => cases hhead
    | cons first offsets =>
      obtain rfl := Option.some.inj hhead
      apply rowRanges_tile
      · exact (List.isChain_map UInt64.toNat (l := (0 : UInt64) :: offsets)).mpr
          (hrising.imp fun _ _ hless => Nat.le_of_lt hless)
      · change (((0 : UInt64) :: offsets).map UInt64.toNat).getLast? = _
        rw [List.getLast?_map, hlast]
        rfl
  · have hbound := (List.getElem_of_getElem? (hunseen node hnode)).1
    rwa [List.length_replicate] at hbound
  · change (offsets.length - 1) * _ < _
    rw [hcells']
    exact haddressed
  · change centroids.length = (offsets.length - 1) * _
    rw [length_readMany hcentroids, hdimension, hcells']

/-! ## Packets -/

/-- The packet of a node lies at `position`, as it was in the source, and is labelled with its
Cell. -/
structure Lies (source : Index) (state : PqRepack) (position label : Nat) (node : UInt32) :
    Prop where
  cell : state.nodeToCell[node.toNat]?.map UInt32.toNat = some label
  packet : state.nodeToPacketRecord[node.toNat]?.map UInt64.toNat = some position
  record : ∃ sourcePacket, source.nodeToPacketRecord[node.toNat]? = some sourcePacket ∧
    sourcePacket.toNat < source.pointCount.toNat ∧
    subspan state.packetPayload (position * source.recordBytes) source.recordBytes =
      subspan source.packetPayload (sourcePacket.toNat * source.recordBytes) source.recordBytes

/-- The first nodes of the order are moved, into Cells that `labels` numbers. -/
structure Moved (source : Index) (nodes : List UInt32) (labels : List Nat) (state : PqRepack) :
    Prop where
  packet : state.packet = labels.length
  nodeToCell : state.nodeToCell.length = source.pointCount.toNat
  nodeToPacketRecord : state.nodeToPacketRecord.length = source.pointCount.toNat
  payload : state.packetPayload.length = source.pointCount.toNat * source.recordBytes
  lies : ∀ (position label : Nat), labels[position]? = some label →
    ∃ node, nodes[position]? = some node ∧ Lies source state position label node

/-- The order of all nodes of a source with one packet for each of them. -/
structure Orders (nodes : List UInt32) (source : Index) : Prop where
  payload : source.packetPayload.length = source.pointCount.toNat * source.recordBytes
  length : nodes.length = source.pointCount.toNat
  distinct : nodes.Nodup

section Packets

variable {source : Index} {nodes : List UInt32} {labels : List Nat} {state next : PqRepack}
  {cellId : UInt32}

theorem row_fits {position count width : Nat} (hposition : position < count) :
    position * width + width ≤ count * width := by
  rw [← Nat.succ_mul]
  exact Nat.mul_le_mul_right width hposition

theorem Moved.step (hmoved : Moved source nodes labels state) (horders : Orders nodes source)
    {node : UInt32} (hnode : nodes[labels.length]? = some node)
    (hmove : movePacket source cellId node state = .ok next) :
    Moved source nodes (labels ++ [cellId.toNat]) next ∧ next.cells = state.cells ∧
      next.blocks = state.blocks := by
  simp only [movePacket, bind_ok, element_eq_ok, reject_ok, assign_eq_ok, Except.ok.injEq] at hmove
  obtain ⟨sourcePacket, hsourcePacket, _, hless, _, ⟨hcellPlace, rfl⟩, _, ⟨hpacketPlace, rfl⟩,
    rfl⟩ := hmove
  have hinside : sourcePacket.toNat < source.pointCount.toNat := UInt64.not_le.mp hless
  have hposition : labels.length < source.pointCount.toNat := by
    rw [← horders.length]
    exact (List.getElem_of_getElem? hnode).1
  have hrecord : (subspan source.packetPayload (sourcePacket.toNat * source.recordBytes)
      source.recordBytes).length = source.recordBytes :=
    length_subspan (horders.payload ▸ row_fits hinside)
  have hfits : labels.length * source.recordBytes +
      (subspan source.packetPayload (sourcePacket.toNat * source.recordBytes)
        source.recordBytes).length ≤ state.packetPayload.length := by
    rw [hrecord, hmoved.payload]
    exact row_fits hposition
  have hcount : (UInt64.ofNat labels.length).toNat = labels.length := by
    apply UInt64.toNat_ofNat_of_lt'
    exact hposition.trans source.pointCount.toNat_lt
  refine ⟨⟨?_, ?_, ?_, ?_, getElem?_concat_forall (fun position label hlabel => ?_) ?_⟩, rfl, rfl⟩
  · rw [List.length_append, List.length_singleton, hmoved.packet]
  · rw [List.length_set, hmoved.nodeToCell]
  · rw [List.length_set, hmoved.nodeToPacketRecord]
  · rw [hmoved.packet, length_patch hfits, hmoved.payload]
  · have hbefore := (List.getElem_of_getElem? hlabel).1
    obtain ⟨other, hother, hlies⟩ := hmoved.lies position label hlabel
    have hapart : node.toNat ≠ other.toNat := by
      intro hsame
      rw [← UInt32.toNat_inj.mp hsame] at hother
      have hplace := (List.getElem_of_getElem? hother).1
      have hindex := (List.getElem?_inj hplace horders.distinct).mp (hother.trans hnode.symm)
      exact Nat.ne_of_lt hbefore hindex
    obtain ⟨packet, hpacket, hbound, hkept⟩ := hlies.record
    refine ⟨other, hother, ?_, ?_, packet, hpacket, hbound, ?_⟩
    · rw [List.getElem?_set_ne hapart]
      exact hlies.cell
    · rw [List.getElem?_set_ne hapart]
      exact hlies.packet
    · rw [hmoved.packet, subspan_patch_before (row_fits hbefore) (by omega), hkept]
  · refine ⟨node, hnode, ?_, ?_, sourcePacket, hsourcePacket, hinside, ?_⟩
    · rw [List.getElem?_set_self hcellPlace]
      rfl
    · rw [List.getElem?_set_self hpacketPlace, hmoved.packet, Option.map_some, hcount]
    · have hread := subspan_patch_self hfits
      rw [hrecord] at hread
      rw [hmoved.packet, hread]

theorem Moved.withRecords (hmoved : Moved source nodes labels state) (cells : List Cell)
    (blocks : List Block) :
    Moved source nodes labels { state with cells := cells, blocks := blocks } := by
  refine ⟨hmoved.packet, hmoved.nodeToCell, hmoved.nodeToPacketRecord, hmoved.payload, ?_⟩
  intro position label hlabel
  obtain ⟨node, hnode, hlies⟩ := hmoved.lies position label hlabel
  exact ⟨node, hnode, hlies.cell, hlies.packet, hlies.record⟩

theorem Moved.range (hmoved : Moved source nodes labels state) (horders : Orders nodes source)
    {count : Nat} (hfits : labels.length + count ≤ nodes.length)
    (hscan : scan (fun _ => movePacket source cellId) 0 (subspan nodes labels.length count) state =
      .ok next) :
    Moved source nodes (labels ++ List.replicate count cellId.toNat) next ∧
      next.cells = state.cells ∧ next.blocks = state.blocks := by
  have hrun := scan_invariant hscan
    (motive := fun position state' =>
      Moved source nodes (labels ++ List.replicate position cellId.toNat) state' ∧
        state'.cells = state.cells ∧ state'.blocks = state.blocks)
    ⟨by simpa using hmoved, rfl, rfl⟩ (by
      rintro position node before after hnode ⟨hbefore, hcells, hblocks⟩ hmove
      rw [Nat.zero_add] at hbefore ⊢
      have hinside := (List.getElem_of_getElem? hnode).1
      rw [length_subspan hfits] at hinside
      have hplace : nodes[(labels ++ List.replicate position cellId.toNat).length]? = some node := by
        rw [List.length_append, List.length_replicate]
        rwa [subspan, List.getElem?_take_of_lt hinside, List.getElem?_drop] at hnode
      obtain ⟨hafter, hsameCells, hsameBlocks⟩ := hbefore.step horders hplace hmove
      rw [List.append_assoc, ← List.replicate_succ'] at hafter
      exact ⟨hafter, hsameCells.trans hcells, hsameBlocks.trans hblocks⟩)
  rwa [Nat.zero_add, length_subspan hfits] at hrun

end Packets

/-! ## Blocks -/

/-- The Block number `number`, within the bounds that all Blocks have. -/
structure LocalityBlock (config : BuildConfig) (radius : Single) (number : Nat) (record : Block) :
    Prop where
  id : record.blockId.toNat = number
  nodes : 0 < record.nodeCount.toNat
  holds : record.nodeCount.toNat ≤ config.blockTargetSize.toNat
  minimumRadius : record.minimumRadius = .zero
  maximumRadius : record.maximumRadius = radius
  maximumAngle : record.maximumAngle = pi
  error : record.maximumPqReconstructionError = largestFloat

def blockRanges (blocks : List Block) : List LabelledRange :=
  blocks.map fun record =>
    ⟨record.packetRecordBegin.toNat, record.nodeCount.toNat, record.cellId.toNat⟩

/-- The Blocks tile the labelled packets. -/
structure Blocked (config : BuildConfig) (radius : Single) (labels : List Nat)
    (blocks : List Block) : Prop where
  tiles : TilesFrom 0 (blockRanges blocks) labels.length
  labels : spread (blockRanges blocks) = labels
  records : ∀ (number : Nat) (record : Block), blocks[number]? = some record →
    LocalityBlock config radius number record

section Blocks

variable {source : Index} {config : BuildConfig} {radius : Single} {nodes : List UInt32}
  {labels : List Nat} {blocks : List Block} {state final : PqRepack} {cellId : UInt32}

theorem Blocked.length_le (hblocked : Blocked config radius labels blocks) :
    blocks.length ≤ labels.length := by
  have hle := hblocked.tiles.length_le (by
    intro range hrange
    obtain ⟨record, hrecord, rfl⟩ := List.mem_map.mp hrange
    obtain ⟨number, hnumber⟩ := List.mem_iff_getElem?.mp hrecord
    exact (hblocked.records number record hnumber).nodes)
  rwa [Nat.zero_add, blockRanges, List.length_map] at hle

theorem Blocked.snoc (hblocked : Blocked config radius labels blocks) {record : Block}
    (hrecord : LocalityBlock config radius blocks.length record)
    (hbegin : record.packetRecordBegin.toNat = labels.length) :
    Blocked config radius (labels ++ List.replicate record.nodeCount.toNat record.cellId.toNat)
      (blocks ++ [record]) := by
  refine ⟨?_, ?_, getElem?_concat_forall hblocked.records hrecord⟩
  · rw [blockRanges, List.map_append, List.length_append, List.length_replicate]
    exact hblocked.tiles.snoc hbegin
  · rw [blockRanges, List.map_append, spread, List.flatMap_append, ← blockRanges, ← spread,
      hblocked.labels]
    simp

/-- The Blocks of one Cell are appended, and its packets are moved. -/
theorem appendLocalityBlocks_eq_ok (horders : Orders nodes source)
    (hcount : source.pointCount.toNat < 2 ^ 32) (htarget : config.blockTargetSize ≠ 0)
    {last fuel : Nat} (hfirst : labels.length ≤ last) (hlast : last ≤ nodes.length)
    (hmoved : Moved source nodes labels state)
    (hblocked : Blocked config radius labels state.blocks) {start : Nat}
    (hstart : labels.length = min start last)
    (happend : appendLocalityBlocks source config radius cellId nodes last fuel start state =
      .ok final) :
    ∃ added, final.blocks = state.blocks ++ added ∧ final.cells = state.cells ∧
      (∀ block ∈ added, block.cellId = cellId) ∧ (labels.length < last → added ≠ []) ∧
      Moved source nodes (labels ++ List.replicate (last - labels.length) cellId.toNat) final ∧
      Blocked config radius (labels ++ List.replicate (last - labels.length) cellId.toNat)
        final.blocks := by
  induction fuel generalizing labels state start with
  | zero => cases happend
  | succ fuel ih =>
    unfold appendLocalityBlocks at happend
    split at happend
    next hdone =>
      obtain rfl := Except.ok.inj happend
      have hend : last - labels.length = 0 := by omega
      rw [hend, List.replicate_zero, List.append_nil]
      exact ⟨[], by simp, rfl, by simp, fun hless => absurd hless (by omega), hmoved, hblocked⟩
    next hmore =>
      obtain ⟨moved, hscan, hrest⟩ := bind_ok.mp happend
      have htargetPositive : 0 < config.blockTargetSize.toNat :=
        Nat.pos_of_ne_zero fun hzero => htarget (UInt32.toNat_inj.mp hzero)
      have htargetSmall := config.blockTargetSize.toNat_lt
      obtain rfl : start = labels.length := by omega
      set count := min last (labels.length + config.blockTargetSize.toNat) - labels.length
        with hdefinition
      have hlength := horders.length
      have hwidth : (UInt32.ofNat count).toNat = count :=
        UInt32.toNat_ofNat_of_lt' (show count < 2 ^ 32 by omega)
      have hplace : (UInt64.ofNat state.packet).toNat = labels.length := by
        rw [hmoved.packet]
        exact UInt64.toNat_ofNat_of_lt' (show labels.length < 2 ^ 64 by omega)
      have hnumber : (UInt32.ofNat state.blocks.length).toNat = state.blocks.length := by
        have hle := hblocked.length_le
        exact UInt32.toNat_ofNat_of_lt' (show state.blocks.length < 2 ^ 32 by omega)
      obtain ⟨hafter, hcells, hblocks⟩ := hmoved.range horders (by omega) hscan
      have hrecord : LocalityBlock config radius state.blocks.length
          { blockId := .ofNat state.blocks.length
            cellId
            nodeCount := .ofNat count
            packetRecordBegin := .ofNat state.packet
            minimumRadius := .zero
            maximumRadius := radius
            maximumAngle := pi
            maximumPqReconstructionError := largestFloat } :=
        ⟨hnumber, by rw [hwidth]; omega, by rw [hwidth]; omega, rfl, rfl, rfl, rfl⟩
      have hnext := hblocked.snoc hrecord hplace
      rw [hwidth] at hnext
      have hreached : (labels ++ List.replicate count cellId.toNat).length =
          min (labels.length + config.blockTargetSize.toNat) last := by
        rw [List.length_append, List.length_replicate]
        omega
      rw [hblocks] at hrest
      obtain ⟨added, hadded, hsame, hids, -, hfinal, hall⟩ :=
        ih (by omega) (hafter.withRecords _ _) hnext hreached hrest
      have hlabels : labels ++ List.replicate count cellId.toNat ++ List.replicate
            (last - (labels ++ List.replicate count cellId.toNat).length) cellId.toNat =
          labels ++ List.replicate (last - labels.length) cellId.toNat := by
        rw [List.append_assoc, List.replicate_append_replicate, hreached]
        congr 2
        omega
      rw [hlabels] at hfinal hall
      rw [List.append_assoc] at hadded
      refine ⟨_, hadded, hsame.trans hcells, ?_, by simp, hfinal, hall⟩
      exact List.forall_mem_cons.mpr ⟨rfl, hids⟩

end Blocks

/-! ## Cells -/

/-- The Cell number `number`, with the nodes of its range of the profile. -/
structure LocalityCell (config : BuildConfig) (radius : Single) (spans : List LabelledRange)
    (number : Nat) (record : Cell) : Prop where
  id : record.cellId.toNat = number
  community : record.communityId = 0
  sector : record.sectorId = kPoleSectorId
  span : ∃ first, spans[number]? = some ⟨first, record.nodeCount.toNat, number⟩
  nodes : 0 < record.nodeCount.toNat
  capacity : record.capacityClass = config.cellTargetSize
  holds : record.nodeCount.toNat ≤ config.cellTargetSize.toNat
  blocks : 0 < record.blockCount.toNat
  minimumRadius : record.minimumRadius = .zero
  maximumRadius : record.maximumRadius = radius
  maximumAngle : record.maximumAngle = pi

def cellRanges (cells : List Cell) : List LabelledRange :=
  numberedRanges (fun record => record.blockBegin.toNat) (fun record => record.blockCount.toNat)
    cells

/-- The Cells tile the Blocks, which name them. -/
structure Celled (config : BuildConfig) (radius : Single) (spans : List LabelledRange)
    (blocks : List Block) (cells : List Cell) : Prop where
  tiles : TilesFrom 0 (cellRanges cells) blocks.length
  owners : blocks.map (fun record => record.cellId.toNat) = spread (cellRanges cells)
  records : ∀ (number : Nat) (record : Cell), cells[number]? = some record →
    LocalityCell config radius spans number record

/-- The arrays after `done` Cells of the profile. -/
structure Packed (source : Index) (config : BuildConfig) (radius : Single)
    (profile : PqLocalityProfile) (done : Nat) (state : PqRepack) : Prop where
  count : state.cells.length = done
  reached : TilesFrom 0 (profile.spans.take done) (spread (profile.spans.take done)).length
  moved : Moved source profile.orderedNodes (spread (profile.spans.take done)) state
  blocked : Blocked config radius (spread (profile.spans.take done)) state.blocks
  celled : Celled config radius profile.spans state.blocks state.cells

section Cells

variable {source : Index} {config : BuildConfig} {radius : Single} {spans : List LabelledRange}
  {profile : PqLocalityProfile} {state next : PqRepack} {blocks : List Block} {cells : List Cell}

theorem Celled.snoc (hcelled : Celled config radius spans blocks cells) {record : Cell}
    {added : List Block} (hrecord : LocalityCell config radius spans cells.length record)
    (hbegin : record.blockBegin.toNat = blocks.length)
    (hblocks : record.blockCount.toNat = added.length)
    (hnamed : ∀ block ∈ added, block.cellId.toNat = cells.length) :
    Celled config radius spans (blocks ++ added) (cells ++ [record]) := by
  refine ⟨?_, ?_, getElem?_concat_forall hcelled.records hrecord⟩
  · rw [cellRanges, numberedRanges_append, List.length_append, ← hblocks]
    exact hcelled.tiles.snoc hbegin
  · have hadded : added.map (fun record => record.cellId.toNat) =
        List.replicate added.length cells.length := by
      refine List.eq_replicate_iff.mpr ⟨List.length_map _, fun label hlabel => ?_⟩
      obtain ⟨block, hblock, rfl⟩ := List.mem_map.mp hlabel
      exact hnamed block hblock
    rw [cellRanges, numberedRanges_append, List.map_append, hcelled.owners, hadded, spread, spread,
      List.flatMap_append, cellRanges]
    simp [hblocks]

theorem span_of_pair (hsuits : profile.Suits source) {cell : Nat} {first last : UInt64}
    (hpair : (profile.cellOffsets.zip (profile.cellOffsets.drop 1))[cell]? = some (first, last)) :
    profile.spans[cell]? = some ⟨first.toNat, last.toNat - first.toNat, cell⟩ ∧
      first.toNat < last.toNat ∧ cell < profile.cellOffsets.length - 1 := by
  obtain ⟨hfirst, hlast⟩ := List.getElem?_zip_eq_some.mp hpair
  rw [List.getElem?_drop, Nat.add_comm] at hlast
  obtain ⟨hlow, hlowValue⟩ := List.getElem_of_getElem? hfirst
  obtain ⟨hhigh, hhighValue⟩ := List.getElem_of_getElem? hlast
  have hspan : profile.spans[cell]? = some ⟨first.toNat, last.toNat - first.toNat, 0 + cell⟩ := by
    apply getElem?_rowRanges
    · rw [List.getElem?_map, hfirst, Option.map_some]
    · rw [List.getElem?_map, hlast, Option.map_some]
  rw [Nat.zero_add] at hspan
  refine ⟨hspan, ?_, by omega⟩
  have hless := List.isChain_iff_getElem.mp hsuits.rising cell hhigh
  rw [hlowValue, hhighValue] at hless
  exact hless

theorem Packed.step (hpacked : Packed source config radius profile done state)
    (hsuits : profile.Suits source) (horders : Orders profile.orderedNodes source)
    (hcount : source.pointCount.toNat < 2 ^ 32) (htarget : config.blockTargetSize ≠ 0)
    {first last : UInt64}
    (hpair : (profile.cellOffsets.zip (profile.cellOffsets.drop 1))[done]? = some (first, last))
    (happend : appendLocalityCell source config radius profile.orderedNodes done (first, last)
      state = .ok next) :
    Packed source config radius profile (done + 1) next := by
  obtain ⟨hspan, hless, hdone⟩ := span_of_pair hsuits hpair
  obtain ⟨hfirst, hlast⟩ := hsuits.tiles.first_eq hpacked.reached hspan
  dsimp only at hfirst hlast
  have hcells := hsuits.counted
  have hlabel : (UInt32.ofNat done).toNat = done :=
    UInt32.toNat_ofNat_of_lt' (show done < 2 ^ 32 by omega)
  simp only [appendLocalityCell, bind_ok, reject_ok, Except.ok.injEq] at happend
  obtain ⟨_, hfits, filled, hfilled, rfl⟩ := happend
  have hlength := horders.length
  obtain ⟨added, hadded, hsame, hids, hsome, hmoved, hblocked⟩ :=
    appendLocalityBlocks_eq_ok horders hcount htarget (by omega) (by omega) hpacked.moved
      hpacked.blocked (by omega) hfilled
  have hlabels : spread (profile.spans.take done) ++ List.replicate
        (last.toNat - (spread (profile.spans.take done)).length) (UInt32.ofNat done).toNat =
      spread (profile.spans.take (done + 1)) := by
    rw [take_succ hspan, spread, spread, List.flatMap_append, ← spread, ← hfirst, hlabel]
    simp
  rw [hlabels] at hmoved hblocked
  have hnodes : (last - first).toNat = last.toNat - first.toNat :=
    UInt64.toNat_sub_of_le _ _ (Nat.le_of_lt hless)
  have hblocksLe := hblocked.length_le
  have htaken : (spread (profile.spans.take (done + 1))).length ≤ source.pointCount.toNat := by
    rw [← hlabels, List.length_append, List.length_replicate]
    omega
  have hblocksLength : filled.blocks.length = state.blocks.length + added.length := by
    rw [hadded, List.length_append]
  have hnumber : (UInt64.ofNat state.blocks.length).toNat = state.blocks.length :=
    UInt64.toNat_ofNat_of_lt' (show state.blocks.length < 2 ^ 64 by omega)
  have hwidth : (UInt32.ofNat ((state.blocks ++ added).length - state.blocks.length)).toNat =
      added.length := by
    rw [List.length_append, Nat.add_sub_cancel_left]
    exact UInt32.toNat_ofNat_of_lt' (show added.length < 2 ^ 32 by omega)
  have hdoneCount := hpacked.count
  refine ⟨?_, ?_, hmoved.withRecords _ filled.blocks, hblocked, ?_⟩
  · change (filled.cells ++ [_]).length = done + 1
    rw [List.length_append, List.length_singleton, hsame, hdoneCount]
  · rw [← hlabels, List.length_append, List.length_replicate, take_succ hspan,
      show last.toNat - (spread (profile.spans.take done)).length = last.toNat - first.toNat by
        rw [hfirst]]
    exact hpacked.reached.snoc hfirst
  · change Celled config radius profile.spans filled.blocks (filled.cells ++ [_])
    rw [hadded, hsame]
    refine hpacked.celled.snoc ?_ hnumber hwidth fun block hblock => ?_
    · rw [hdoneCount]
      refine ⟨hlabel, rfl, rfl, ⟨first.toNat, ?_⟩, ?_, rfl, ?_, ?_, rfl, rfl, rfl⟩
      · rw [hnodes, hspan]
      · rw [hnodes]
        omega
      · rw [hnodes]
        omega
      · exact hwidth ▸ List.length_pos_iff.mpr (hsome (by omega))
    · rw [hids block hblock, hlabel, hdoneCount]

end Cells

end SkipCell.Build

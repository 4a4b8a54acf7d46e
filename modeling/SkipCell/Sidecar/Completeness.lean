import SkipCell.Sidecar.Layout

/-! # What the checks of the arrays accept

The other direction of the layout: where the ranges tile, the records are well formed and the
owners agree, the loops of the validator run to their ends.
-/

namespace SkipCell.Sidecar

open Foundation

theorem Accepted.valid {index : Index} (accepted : Accepted index)
    (hnodes : (index.nodeToCommunity.zip index.nodeToCell).length < 2 ^ 32)
    (hsectors : index.sectors.length < 2 ^ 32) (hcells : index.cells.length < 2 ^ 32)
    (hblocks : index.blocks.length < 2 ^ 32)
    (hadaptive : index.config.adaptiveMultiCapacity = false) :
    validateLoadedIndex index = .ok () := by
  simp only [validateLoadedIndex, bind_ok, reject_ok, scanCounted_eq_ok]
  exact ⟨(), accepted.config, (), accepted.globals, accepted.membership,
    ⟨hnodes, accepted.members⟩, _, accepted.communities, (), by simp, _, accepted.edges, (),
    by simp, accepted.cellCursor, ⟨hsectors, accepted.sectors⟩, (), by simp [accepted.sectorsEnd],
    accepted.blockCursor, ⟨hcells, accepted.cells⟩, (), by simp [accepted.cellsEnd],
    accepted.packetCursor, ⟨hblocks, accepted.blocks⟩, (), by simp [accepted.blocksEnd], (),
    by simp [accepted.sectorMembers], (), by simp [accepted.cellMembers], (), by simp [hadaptive],
    (), accepted.hierarchy, accepted.seen, accepted.packets, trivial⟩

/-- The radii and the angle of a record, with the bound on the angle. -/
structure ShapeOk (minimum maximum angle limit : Single) : Prop where
  minimumFinite : minimum.isFinite = true
  maximumFinite : maximum.isFinite = true
  angleFinite : angle.isFinite = true
  ordered : ¬ maximum < minimum
  angleUnsigned : ¬ angle < .zero
  angleBounded : ¬ limit + angleTolerance < angle

variable {index : Index}

/-- A Sector record that is accepted at the place where its Cells begin. -/
structure SectorComplete (index : Index) (sectorToCommunity : List Nat) (sector : Nat)
    (record : Sector) : Prop where
  community : sectorToCommunity[sector]? = some record.communityId.toNat
  nodes : record.nodeCount ≠ 0
  cells : record.cellCount ≠ 0
  shape : ShapeOk record.minimumRadius record.maximumRadius record.maximumAngle pi
  unsigned : ¬ record.minimumRadius < .zero
  axis : if record.sectorId = kPoleSectorId then record.axisIndex = kInvalidAxisIndex
    else record.sectorId < index.config.polarDirectionCount ∧
      record.axisIndex.toNat < index.directionAxes.length / index.dimension.toNat

variable {sectorToCommunity cellToCommunity cellToSector blockToCell : List Nat}

theorem checkSector_complete {sector : Nat} {record : Sector} {cursor : Cursor}
    (hrecord : SectorComplete index sectorToCommunity sector record)
    (hbegin : record.cellBegin.toNat = cursor.next)
    (hfits : cursor.next + record.cellCount.toNat ≤ index.cells.length)
    (hcells : index.cells.length < 2 ^ 32) :
    checkSector index sectorToCommunity sector record cursor =
      .ok { cursor with
        owners := fillRange cursor.owners record.cellBegin.toNat record.cellCount.toNat sector
        next := cursor.next + record.cellCount.toNat } := by
  have haxis : ¬ (record.sectorId = kPoleSectorId ∧ record.axisIndex ≠ kInvalidAxisIndex) ∧
      ¬ (record.sectorId ≠ kPoleSectorId ∧
        (index.config.polarDirectionCount ≤ record.sectorId ∨
          index.directionAxes.length / index.dimension.toNat ≤ record.axisIndex.toNat)) := by
    have hcases := hrecord.axis
    by_cases hpole : record.sectorId = kPoleSectorId
    · rw [if_pos hpole] at hcases
      exact ⟨fun h => h.2 hcases, fun h => h.1 hpole⟩
    · rw [if_neg hpole] at hcases
      refine ⟨fun h => hpole h.1, ?_⟩
      rintro ⟨-, hless | hless⟩
      · exact UInt32.not_le.mpr hcases.1 hless
      · exact Nat.not_le.mpr hcases.2 hless
  have hshape := hrecord.shape
  simp only [checkSector, bind_ok, reject_ok, checkedAdd_eq_ok, not_or, not_not]
  refine ⟨(), ⟨hrecord.community, hrecord.nodes, hrecord.cells, hbegin⟩, _, ⟨?_, rfl⟩, (),
    ⟨?_, by simp [hshape.minimumFinite], by simp [hshape.maximumFinite],
      by simp [hshape.angleFinite], hrecord.unsigned, hshape.ordered, hshape.angleUnsigned,
      hshape.angleBounded, haxis⟩, _, ⟨?_, rfl⟩, rfl⟩
  · omega
  · omega
  · omega

theorem sectors_complete (hcells : index.cells.length < 2 ^ 32)
    (htiles : TilesFrom 0 index.sectorCellRanges index.cells.length)
    (hrecords : ∀ (sector : Nat) (record : Sector), index.sectors[sector]? = some record →
      SectorComplete index sectorToCommunity sector record) :
    ∃ cursor, scan (checkSector index sectorToCommunity) 0 index.sectors
        { owners := index.cells.map fun _ => invalidId } = .ok cursor ∧
      cursor.owners = spread index.sectorCellRanges ∧ cursor.next = index.cells.length := by
  have hlength : index.sectorCellRanges.length = index.sectors.length := length_numberedRanges
  obtain ⟨cursor, hscan, howners, hfilled⟩ := @scan_total _ _ _
    (checkSector index sectorToCommunity)
    (fun position cursor => cursor.owners.length = index.cells.length ∧
      Filled index.sectorCellRanges position cursor.owners cursor.next) index.sectors 0
    { owners := index.cells.map fun _ => invalidId } ⟨by simp, .start _ _⟩ (by
      rintro position record cursor hrecord ⟨howners, hfilled⟩
      rw [Nat.zero_add] at hfilled ⊢
      have hrange : index.sectorCellRanges[position]? = some _ := getElem?_numberedRanges hrecord
      obtain ⟨hbegin, hfits⟩ := htiles.first_eq hfilled.tiles hrange
      dsimp only at hbegin hfits
      refine ⟨_, checkSector_complete (hrecords position record hrecord) hbegin hfits hcells, ?_,
        hfilled.step hrange hbegin (howners ▸ hfits)⟩
      rw [← howners]
      exact length_fillRange (by rw [hbegin, howners]; exact hfits) position)
  rw [Nat.zero_add, ← hlength] at hfilled
  obtain ⟨hspread, hend⟩ := hfilled.complete (howners ▸ htiles)
  exact ⟨cursor, hscan, hspread, hend.trans howners⟩

/-- A Cell record that is accepted at the place where its Blocks begin. -/
structure CellComplete (index : Index) (cellToCommunity cellToSector : List Nat) (cell : Nat)
    (record : Cell) (sectorId : Nat) (sector : Sector) : Prop where
  sectorOwner : cellToSector[cell]? = some sectorId
  sectorRecord : index.sectors[sectorId]? = some sector
  id : record.cellId.toNat = cell
  community : cellToCommunity[cell]? = some record.communityId.toNat
  sameCommunity : record.communityId = sector.communityId
  sameSector : record.sectorId = sector.sectorId
  nodes : record.nodeCount ≠ 0
  capacity : if index.config.adaptiveMultiCapacity then isAdaptiveCapacityClass record.capacityClass
    else record.capacityClass = index.config.cellTargetSize
  holds : record.nodeCount.toNat ≤ record.capacityClass.toNat
  blocks : record.blockCount ≠ 0
  shape : ShapeOk record.minimumRadius record.maximumRadius record.maximumAngle sector.maximumAngle
  unsigned : ¬ record.minimumRadius < .zero

theorem addMembers_complete {members : List Nat} {owner current count : Nat} {context : String}
    (hcurrent : members[owner]? = some current) (hsmall : current + count < 2 ^ 64) :
    addMembers members owner count context = .ok (members.set owner (current + count)) := by
  simp only [addMembers, bind_ok, element_eq_ok, checkedAdd_eq_ok]
  exact ⟨current, hcurrent, _, ⟨hsmall, rfl⟩, rfl⟩

theorem checkCell_complete {cell : Nat} {record : Cell} {cursor : Cursor} {sectorId current : Nat}
    {sector : Sector}
    (hrecord : CellComplete index cellToCommunity cellToSector cell record sectorId sector)
    (hbegin : record.blockBegin.toNat = cursor.next)
    (hfits : cursor.next + record.blockCount.toNat ≤ index.blocks.length)
    (hblocks : index.blocks.length < 2 ^ 32) (hcurrent : cursor.members[sectorId]? = some current)
    (hsmall : current + record.nodeCount.toNat < 2 ^ 64) :
    checkCell index cellToCommunity cellToSector cell record cursor =
      .ok { owners := fillRange cursor.owners record.blockBegin.toNat record.blockCount.toNat cell
            next := cursor.next + record.blockCount.toNat
            members := cursor.members.set sectorId (current + record.nodeCount.toNat) } := by
  have hshape := hrecord.shape
  have hcapacity : ¬ (if index.config.adaptiveMultiCapacity then
        ¬ isAdaptiveCapacityClass record.capacityClass
      else record.capacityClass ≠ index.config.cellTargetSize) := by
    have hcases := hrecord.capacity
    by_cases hadaptive : index.config.adaptiveMultiCapacity = true
    · rw [if_pos hadaptive] at hcases ⊢
      exact not_not.mpr hcases
    · rw [if_neg hadaptive] at hcases ⊢
      exact not_not.mpr hcases
  simp only [checkCell, bind_ok, element_eq_ok, reject_ok, checkedAdd_eq_ok, not_or, not_not]
  refine ⟨sectorId, hrecord.sectorOwner, sector, hrecord.sectorRecord, (),
    ⟨hrecord.id, hrecord.community, hrecord.sameCommunity, hrecord.sameSector, hrecord.nodes,
      hcapacity, Nat.not_lt.mpr hrecord.holds, hrecord.blocks, hbegin⟩, _, ⟨?_, rfl⟩, (),
    ⟨?_, by simp [hshape.minimumFinite], by simp [hshape.maximumFinite],
      by simp [hshape.angleFinite], hrecord.unsigned, hshape.ordered, hshape.angleUnsigned,
      hshape.angleBounded⟩, _, addMembers_complete hcurrent hsmall, _, ⟨?_, rfl⟩, rfl⟩
  · omega
  · omega
  · omega

def Index.sectorNodes (index : Index) (cellToSector : List Nat) (position sector : Nat) : Nat :=
  ∑ cell ∈ Finset.range position,
    if cellToSector[cell]? = some sector then index.cellNodes cell else 0

theorem sectorNodes_le {position stop : Nat} (hle : position ≤ stop) (sector : Nat) :
    index.sectorNodes cellToSector position sector ≤ index.sectorNodes cellToSector stop sector :=
  Finset.sum_le_sum_of_subset (Finset.range_subset_range.mpr hle)

theorem cells_complete (hblocks : index.blocks.length < 2 ^ 32)
    (htiles : TilesFrom 0 index.cellBlockRanges index.blocks.length)
    (hcounts : ∀ (sector : Nat) (record : Sector), index.sectors[sector]? = some record →
      index.sectorNodes cellToSector index.cells.length sector = record.nodeCount.toNat)
    (hrecords : ∀ (cell : Nat) (record : Cell), index.cells[cell]? = some record →
      ∃ sectorId sector, CellComplete index cellToCommunity cellToSector cell record sectorId sector)
    :
    ∃ cursor, scan (checkCell index cellToCommunity cellToSector) 0 index.cells
        { owners := index.blocks.map fun _ => invalidId
          members := index.sectors.map fun _ => 0 } = .ok cursor ∧
      (cursor.owners = spread index.cellBlockRanges ∧ cursor.next = index.blocks.length) ∧
      cursor.members = index.sectors.map fun sector => sector.nodeCount.toNat := by
  have hlength : index.cellBlockRanges.length = index.cells.length := length_numberedRanges
  obtain ⟨cursor, hscan, hcounting⟩ := @scan_total _ _ _
    (checkCell index cellToCommunity cellToSector)
    (Counting index.cellBlockRanges index.blocks.length index.sectors.length
      (index.sectorNodes cellToSector)) index.cells 0
    { owners := index.blocks.map fun _ => invalidId, members := index.sectors.map fun _ => 0 }
    ⟨by simp, .start _ _, by simp, fun sector hsector => by simp [hsector, Index.sectorNodes]⟩ (by
      intro position record cursor hrecord hcounting
      rw [Nat.zero_add] at hcounting ⊢
      have hinside := (List.getElem_of_getElem? hrecord).1
      have hrange : index.cellBlockRanges[position]? = some _ := getElem?_numberedRanges hrecord
      obtain ⟨hbegin, hfits⟩ := htiles.first_eq hcounting.filled.tiles hrange
      dsimp only at hbegin hfits
      obtain ⟨sectorId, sector, hcomplete⟩ := hrecords position record hrecord
      have hsectorBound := (List.getElem_of_getElem? hcomplete.sectorRecord).1
      have hcurrent := hcounting.members sectorId hsectorBound
      have hnodes : index.cellNodes position = record.nodeCount.toNat := by
        simp [Index.cellNodes, hrecord]
      have hnext : ∀ other, index.sectorNodes cellToSector (position + 1) other =
          index.sectorNodes cellToSector position other +
            if sectorId = other then record.nodeCount.toNat else 0 := by
        intro other
        simp [Index.sectorNodes, Finset.sum_range_succ, hcomplete.sectorOwner, hnodes]
      have hsmall : index.sectorNodes cellToSector position sectorId + record.nodeCount.toNat <
          2 ^ 64 := by
        have hle := @sectorNodes_le index cellToSector (position + 1) _ hinside sectorId
        rw [hnext, if_pos rfl, hcounts sectorId sector hcomplete.sectorRecord] at hle
        exact hle.trans_lt sector.nodeCount.toNat_lt
      exact ⟨_, checkCell_complete hcomplete hbegin hfits hblocks hcurrent hsmall,
        hcounting.step hrange hbegin hfits hcurrent hnext⟩)
  rw [Nat.zero_add, ← hlength] at hcounting
  refine ⟨cursor, hscan, hcounting.complete htiles, hcounting.members_eq (List.length_map _) ?_⟩
  intro sector count hcount
  obtain ⟨record, hrecord, rfl⟩ := Option.map_eq_some_iff.mp (List.getElem?_map.symm.trans hcount)
  rw [hlength, hcounts sector record hrecord]

/-- A Block record that is accepted at the place where its packets begin. -/
structure BlockComplete (index : Index) (blockToCell : List Nat) (block : Nat) (record : Block)
    (cellId : Nat) (cell : Cell) : Prop where
  cellOwner : blockToCell[block]? = some cellId
  cellRecord : index.cells[cellId]? = some cell
  id : record.blockId.toNat = block
  sameCell : record.cellId = cell.cellId
  inCells : record.cellId.toNat = cellId
  nodes : record.nodeCount ≠ 0
  holds : record.nodeCount ≤ index.config.blockTargetSize
  shape : ShapeOk record.minimumRadius record.maximumRadius record.maximumAngle cell.maximumAngle
  inside : ¬ record.minimumRadius < cell.minimumRadius ∧ ¬ cell.maximumRadius < record.maximumRadius
  errorFinite : record.maximumPqReconstructionError.isFinite = true
  errorUnsigned : ¬ record.maximumPqReconstructionError < .zero

theorem checkBlock_complete {block : Nat} {record : Block} {cursor : Cursor} {cellId current : Nat}
    {cell : Cell} (hrecord : BlockComplete index blockToCell block record cellId cell)
    (hbegin : record.packetRecordBegin.toNat = cursor.next)
    (hfits : cursor.next + record.nodeCount.toNat ≤ index.pointCount.toNat)
    (hcurrent : cursor.members[record.cellId.toNat]? = some current)
    (hsmall : current + record.nodeCount.toNat < 2 ^ 64) :
    checkBlock index blockToCell block record cursor =
      .ok { owners := fillRange cursor.owners record.packetRecordBegin.toNat record.nodeCount.toNat
              record.cellId.toNat
            next := cursor.next + record.nodeCount.toNat
            members := cursor.members.set record.cellId.toNat
              (current + record.nodeCount.toNat) } := by
  have hshape := hrecord.shape
  have hpoints := index.pointCount.toNat_lt
  simp only [checkBlock, bind_ok, element_eq_ok, reject_ok, checkedAdd_eq_ok, not_or, not_not]
  refine ⟨cellId, hrecord.cellOwner, cell, hrecord.cellRecord, (),
    ⟨hrecord.id, hrecord.sameCell, hrecord.nodes, UInt32.not_lt.mpr hrecord.holds, hbegin⟩, _,
    ⟨?_, rfl⟩, (), ⟨?_, by simp [hshape.minimumFinite], by simp [hshape.maximumFinite],
      by simp [hshape.angleFinite], hrecord.inside.1, hshape.ordered, hrecord.inside.2,
      hshape.angleUnsigned, hshape.angleBounded, by simp [hrecord.errorFinite],
      hrecord.errorUnsigned⟩, _, addMembers_complete hcurrent hsmall, _, ⟨?_, rfl⟩, rfl⟩
  · omega
  · omega
  · omega

theorem blocks_complete (htiles : TilesFrom 0 index.blockPacketRanges index.pointCount.toNat)
    (hcounts : ∀ (cell : Nat) (record : Cell), index.cells[cell]? = some record →
      (spread index.blockPacketRanges).count cell = record.nodeCount.toNat)
    (hrecords : ∀ (block : Nat) (record : Block), index.blocks[block]? = some record →
      ∃ cellId cell, BlockComplete index blockToCell block record cellId cell) :
    ∃ cursor, scan (checkBlock index blockToCell) 0 index.blocks
        { owners := List.replicate index.pointCount.toNat invalidId
          members := index.cells.map fun _ => 0 } = .ok cursor ∧
      (cursor.owners = spread index.blockPacketRanges ∧ cursor.next = index.pointCount.toNat) ∧
      cursor.members = index.cells.map fun cell => cell.nodeCount.toNat := by
  have hlength : index.blockPacketRanges.length = index.blocks.length := by
    simp [Index.blockPacketRanges]
  obtain ⟨cursor, hscan, hcounting⟩ := @scan_total _ _ _ (checkBlock index blockToCell)
    (Counting index.blockPacketRanges index.pointCount.toNat index.cells.length
      fun position => (spread (index.blockPacketRanges.take position)).count)
    index.blocks 0
    { owners := List.replicate index.pointCount.toNat invalidId
      members := index.cells.map fun _ => 0 }
    ⟨by simp, .start _ _, by simp, fun cell hcell => by simp [hcell, spread]⟩ (by
      intro position record cursor hrecord hcounting
      rw [Nat.zero_add] at hcounting ⊢
      have hrange := getElem?_blockPacketRanges hrecord
      obtain ⟨hbegin, hfits⟩ := htiles.first_eq hcounting.filled.tiles hrange
      dsimp only at hbegin hfits
      obtain ⟨cellId, cell, hcomplete⟩ := hrecords position record hrecord
      have hcell : index.cells[record.cellId.toNat]? = some cell := by
        rw [hcomplete.inCells, hcomplete.cellRecord]
      have hcurrent := hcounting.members _ (List.getElem_of_getElem? hcell).1
      have hsmall : (spread (index.blockPacketRanges.take position)).count record.cellId.toNat +
          record.nodeCount.toNat < 2 ^ 64 := by
        have hall : spread (index.blockPacketRanges.take (position + 1)) ++
            spread (index.blockPacketRanges.drop (position + 1)) =
              spread index.blockPacketRanges := by
          rw [spread, spread, ← List.flatMap_append, List.take_append_drop, spread]
        have hle := (List.sublist_append_left (spread (index.blockPacketRanges.take (position + 1)))
          (spread (index.blockPacketRanges.drop (position + 1)))).count_le record.cellId.toNat
        rw [hall, count_blockPacketRanges hrecord, if_pos rfl, hcounts _ cell hcell] at hle
        exact hle.trans_lt cell.nodeCount.toNat_lt
      exact ⟨_, checkBlock_complete hcomplete hbegin hfits hcurrent hsmall,
        hcounting.step hrange hbegin hfits hcurrent (count_blockPacketRanges hrecord)⟩)
  rw [Nat.zero_add, ← hlength] at hcounting
  refine ⟨cursor, hscan, hcounting.complete htiles, hcounting.members_eq (List.length_map _) ?_⟩
  intro cell count hcount
  obtain ⟨record, hrecord, rfl⟩ := Option.map_eq_some_iff.mp (List.getElem?_map.symm.trans hcount)
  rw [List.take_length, hcounts cell record hrecord]

theorem packets_complete {packetToCell nodes : List Nat}
    (hperm : nodes.Perm (List.range index.pointCount.toNat))
    (hpackets : ∀ (packet node : Nat), nodes[packet]? = some node →
      ∃ cellId cell, PacketOk index packetToCell packet node cellId cell) :
    ∃ seen, scan (fun _ packet seen => checkPacket index packetToCell packet seen) 0
      (List.range index.pointCount.toNat) (List.replicate index.pointCount.toNat false) =
        .ok seen := by
  have hlength : nodes.length = index.pointCount.toNat := by simpa using hperm.length_eq
  have hnodup : nodes.Nodup := hperm.nodup_iff.mpr List.nodup_range
  obtain ⟨seen, hscan, -⟩ := @scan_total _ _ _
    (fun _ packet seen => checkPacket index packetToCell packet seen)
    (fun position (seen : List Bool) => ∀ node < index.pointCount.toNat,
      seen[node]? = some (decide (node ∈ nodes.take position)))
    (List.range index.pointCount.toNat) 0 (List.replicate index.pointCount.toNat false)
    (fun node hnode => by simp [hnode]) (by
      intro position packet seen hpacket hseen
      rw [Nat.zero_add] at hseen ⊢
      obtain ⟨hinside, rfl⟩ : position < index.pointCount.toNat ∧ position = packet := by
        simpa [List.getElem?_eq_some_iff] using hpacket
      obtain ⟨node, hnode⟩ : ∃ node, nodes[position]? = some node :=
        ⟨_, List.getElem?_eq_getElem (by omega)⟩
      obtain ⟨cellId, cell, hok⟩ := hpackets position node hnode
      have hnew : node ∉ nodes.take position := by
        intro hmem
        obtain ⟨earlier, hearlier⟩ := List.mem_iff_getElem?.mp hmem
        rw [List.getElem?_take] at hearlier
        split at hearlier
        next hbefore =>
          have hbound := (List.getElem_of_getElem? hearlier).1
          exact Nat.ne_of_lt hbefore ((List.getElem?_inj hbound hnodup).mp (hearlier.trans hnode.symm))
        next => cases hearlier
      have hfree := hseen node hok.bounded
      rw [decide_eq_false hnew] at hfree
      refine ⟨seen.set node true, ?_, fun other hother => ?_⟩
      · simp only [checkPacket, bind_ok, element_eq_ok, reject_ok, not_or, not_not,
          not_and, Nat.not_le]
        exact ⟨node, hok.decoded, cellId, hok.cellOwner, cell, hok.cellRecord, (),
          ⟨hok.bounded, hfree, hok.packetRecord, hok.nodeCell, hok.community⟩, rfl⟩
      · rw [take_succ hnode, List.getElem?_set]
        by_cases hsame : node = other
        · subst hsame
          have hbound := (List.getElem_of_getElem? hfree).1
          simp [hbound]
        · have hapart : other ≠ node := fun hother => hsame hother.symm
          simp [hsame, hapart, hseen other hother])
  exact ⟨seen, hscan⟩

end SkipCell.Sidecar

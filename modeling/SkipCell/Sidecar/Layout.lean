import SkipCell.Sidecar.Gateways

/-! # The layout of an accepted index

The ranges of Communities, Sectors, Cells and Blocks tile the arrays below them,
and the packets are a permutation of the nodes. Every owner and every count that
an accepted index stores is therefore the actual one.
-/

namespace SkipCell.Sidecar

open Foundation

namespace Index

variable (index : Index)

def sectorRanges : List LabelledRange :=
  numberedRanges (fun record => record.sectorBegin.toNat) (fun record => record.sectorCount.toNat)
    index.communities

def cellRanges : List LabelledRange :=
  numberedRanges (fun record => record.cellBegin.toNat) (fun record => record.cellCount.toNat)
    index.communities

def sectorCellRanges : List LabelledRange :=
  numberedRanges (fun record => record.cellBegin.toNat) (fun record => record.cellCount.toNat)
    index.sectors

def cellBlockRanges : List LabelledRange :=
  numberedRanges (fun record => record.blockBegin.toNat) (fun record => record.blockCount.toNat)
    index.cells

def blockPacketRanges : List LabelledRange :=
  index.blocks.map fun record =>
    ⟨record.packetRecordBegin.toNat, record.nodeCount.toNat, record.cellId.toNat⟩

end Index

/-! ## What each check establishes -/

section Checks

variable {index : Index}

theorem countMember_eq_ok {node : Nat} {owners : UInt32 × UInt32}
    {state next : Membership} (hcheck : countMember index node owners state = .ok next) :
    owners.1.toNat < index.communities.length ∧ owners.2.toNat < index.cells.length ∧
      next.members = state.members.modify owners.1.toNat (· + 1) := by
  simp only [countMember, bind_ok, reject_ok, not_or, Nat.not_le] at hcheck
  obtain ⟨_, ⟨hcommunity, hcell⟩, hnext⟩ := hcheck
  exact ⟨hcommunity, hcell, (congrArg Membership.members (Except.ok.inj hnext)).symm⟩

/-- A Community record that was accepted with the cursors `sector` and `cell`. -/
structure CommunityOk (index : Index) (membership : Membership) (community : Nat)
    (record : Community) (sector cell : Nat) : Prop where
  id : record.communityId.toNat = community
  members : membership.members[community]? = some record.nodeCount.toNat
  sectorBegin : record.sectorBegin.toNat = sector
  cellBegin : record.cellBegin.toNat = cell

theorem checkCommunity_eq_ok {membership : Membership} {community : Nat} {record : Community}
    {sector cell : Nat} {next : Nat × Nat}
    (hcheck : checkCommunity index membership community record (sector, cell) = .ok next) :
    CommunityOk index membership community record sector cell ∧
      next = (sector + record.sectorCount.toNat, cell + record.cellCount.toNat) := by
  simp only [checkCommunity, bind_ok, reject_ok, checkedAdd_eq_ok, not_or, not_not] at hcheck
  obtain ⟨_, ⟨hid, -, hmembers, -⟩, _, -, _, ⟨-, hsector, hcell⟩, _, -, _, -, _, -, _, -,
    _, ⟨-, rfl⟩, _, ⟨-, rfl⟩, hnext⟩ := hcheck
  exact ⟨⟨hid, hmembers, hsector, hcell⟩, (Except.ok.inj hnext).symm⟩

structure SectorOk (index : Index) (sectorToCommunity : List Nat) (sector : Nat) (record : Sector)
    (cursor : Cursor) : Prop where
  community : sectorToCommunity[sector]? = some record.communityId.toNat
  cellBegin : record.cellBegin.toNat = cursor.next
  fits : cursor.next + record.cellCount.toNat ≤ index.cells.length

variable {next cursor : Cursor}

theorem checkSector_eq_ok {sectorToCommunity : List Nat} {sector : Nat} {record : Sector}
    (hcheck : checkSector index sectorToCommunity sector record cursor = .ok next) :
    SectorOk index sectorToCommunity sector record cursor ∧
      next = { cursor with
        owners := fillRange cursor.owners record.cellBegin.toNat record.cellCount.toNat sector
        next := cursor.next + record.cellCount.toNat } := by
  simp only [checkSector, bind_ok, reject_ok, checkedAdd_eq_ok, not_or, not_not] at hcheck
  obtain ⟨_, ⟨hcommunity, -, -, hbegin⟩, _, ⟨-, rfl⟩, _, ⟨hfits, -⟩, _, ⟨-, rfl⟩, hnext⟩ := hcheck
  exact ⟨⟨hcommunity, hbegin, hbegin ▸ Nat.not_lt.mp hfits⟩, (Except.ok.inj hnext).symm⟩

theorem addMembers_eq_ok {members next : List Nat} {owner count : Nat} {context : String}
    (hadd : addMembers members owner count context = .ok next) :
    ∃ current, members[owner]? = some current ∧ next = members.set owner (current + count) := by
  simp only [addMembers, bind_ok, element_eq_ok, checkedAdd_eq_ok] at hadd
  obtain ⟨current, hcurrent, _, ⟨-, rfl⟩, hnext⟩ := hadd
  exact ⟨current, hcurrent, (Except.ok.inj hnext).symm⟩

structure CellOk (index : Index) (cellToCommunity cellToSector : List Nat) (cell : Nat)
    (record : Cell) (cursor : Cursor) (sectorId : Nat) (sector : Sector) : Prop where
  sectorOwner : cellToSector[cell]? = some sectorId
  sectorRecord : index.sectors[sectorId]? = some sector
  id : record.cellId.toNat = cell
  community : cellToCommunity[cell]? = some record.communityId.toNat
  sameCommunity : record.communityId = sector.communityId
  sameSector : record.sectorId = sector.sectorId
  blockBegin : record.blockBegin.toNat = cursor.next
  fits : cursor.next + record.blockCount.toNat ≤ index.blocks.length

theorem checkCell_eq_ok {cellToCommunity cellToSector : List Nat} {cell : Nat} {record : Cell}
    (hcheck : checkCell index cellToCommunity cellToSector cell record cursor = .ok next) :
    ∃ sectorId sector members,
      CellOk index cellToCommunity cellToSector cell record cursor sectorId sector ∧
      cursor.members[sectorId]? = some members ∧
      next =
        { owners := fillRange cursor.owners record.blockBegin.toNat record.blockCount.toNat cell
          next := cursor.next + record.blockCount.toNat
          members := cursor.members.set sectorId (members + record.nodeCount.toNat) } := by
  simp only [checkCell, bind_ok, element_eq_ok, reject_ok, checkedAdd_eq_ok, not_or,
    not_not] at hcheck
  obtain ⟨sectorId, howner, sector, hsector, _, ⟨hid, hcommunity, hsame, hsectorId, -, -, -, -,
    hbegin⟩, _, ⟨-, rfl⟩, _, ⟨hfits, -⟩, _, hmembers, _, ⟨-, rfl⟩, hnext⟩ := hcheck
  obtain ⟨members, hcurrent, rfl⟩ := addMembers_eq_ok hmembers
  exact ⟨sectorId, sector, members, ⟨howner, hsector, hid, hcommunity, hsame, hsectorId, hbegin,
    hbegin ▸ Nat.not_lt.mp hfits⟩, hcurrent, (Except.ok.inj hnext).symm⟩

structure BlockOk (index : Index) (blockToCell : List Nat) (block : Nat) (record : Block)
    (cursor : Cursor) (cellId : Nat) (cell : Cell) : Prop where
  cellOwner : blockToCell[block]? = some cellId
  cellRecord : index.cells[cellId]? = some cell
  id : record.blockId.toNat = block
  sameCell : record.cellId = cell.cellId
  packetBegin : record.packetRecordBegin.toNat = cursor.next
  fits : cursor.next + record.nodeCount.toNat ≤ index.pointCount.toNat

theorem checkBlock_eq_ok {blockToCell : List Nat} {block : Nat} {record : Block}
    (hcheck : checkBlock index blockToCell block record cursor = .ok next) :
    ∃ cellId cell members, BlockOk index blockToCell block record cursor cellId cell ∧
      cursor.members[record.cellId.toNat]? = some members ∧
      next =
        { owners := fillRange cursor.owners record.packetRecordBegin.toNat record.nodeCount.toNat
            record.cellId.toNat
          next := cursor.next + record.nodeCount.toNat
          members := cursor.members.set record.cellId.toNat
            (members + record.nodeCount.toNat) } := by
  simp only [checkBlock, bind_ok, element_eq_ok, reject_ok, checkedAdd_eq_ok, not_or,
    not_not] at hcheck
  obtain ⟨cellId, howner, cell, hcell, _, ⟨hid, hsame, -, -, hbegin⟩, _, ⟨-, rfl⟩, _, ⟨hfits, -⟩,
    _, hmembers, _, ⟨-, rfl⟩, hnext⟩ := hcheck
  obtain ⟨members, hcurrent, rfl⟩ := addMembers_eq_ok hmembers
  exact ⟨cellId, cell, members, ⟨howner, hcell, hid, hsame, hbegin, hbegin ▸ Nat.not_lt.mp hfits⟩,
    hcurrent, (Except.ok.inj hnext).symm⟩

structure PacketOk (index : Index) (packetToCell : List Nat) (packet node cellId : Nat)
    (cell : Cell) : Prop where
  decoded : index.packetNode packet = .ok node
  bounded : node < index.pointCount.toNat
  cellOwner : packetToCell[packet]? = some cellId
  cellRecord : index.cells[cellId]? = some cell
  packetRecord : index.nodeToPacketRecord[node]?.map UInt64.toNat = some packet
  nodeCell : index.nodeToCell[node]?.map UInt32.toNat = some cellId
  community : ¬ index.config.cellPartition.isGlobal →
    index.nodeToCommunity[node]? = some cell.communityId

theorem checkPacket_eq_ok {packetToCell : List Nat} {packet : Nat} {seen next : List Bool}
    (hcheck : checkPacket index packetToCell packet seen = .ok next) :
    ∃ node cellId cell, PacketOk index packetToCell packet node cellId cell := by
  simp only [checkPacket, bind_ok, element_eq_ok, reject_ok, not_or, not_not, not_and] at hcheck
  obtain ⟨node, hnode, cellId, howner, cell, hcell, _, ⟨hbounded, -, hpacket, hnodeCell,
    hcommunity⟩, -⟩ := hcheck
  exact ⟨node, cellId, cell, hnode, Nat.not_le.mp hbounded, howner, hcell, hpacket, hnodeCell,
    hcommunity⟩

end Checks

/-- A loop that labels ranges of an array and counts to the members of owners, after `done`
ranges. -/
structure Counting (ranges : List LabelledRange) (total size : Nat) (counted : Nat → Nat → Nat)
    (done : Nat) (cursor : Cursor) : Prop where
  owners : cursor.owners.length = total
  filled : Filled ranges done cursor.owners cursor.next
  length : cursor.members.length = size
  members : ∀ owner < size, cursor.members[owner]? = some (counted done owner)

namespace Counting

variable {ranges : List LabelledRange} {total size done : Nat} {counted : Nat → Nat → Nat}
  {cursor : Cursor}

theorem step (hcounting : Counting ranges total size counted done cursor) {range : LabelledRange}
    (hrange : ranges[done]? = some range) (hfirst : range.first = cursor.next)
    (hfits : cursor.next + range.count ≤ total) {owner current count : Nat}
    (hcurrent : cursor.members[owner]? = some current)
    (hnext : ∀ other, counted (done + 1) other =
      counted done other + if owner = other then count else 0) :
    Counting ranges total size counted (done + 1)
      { owners := fillRange cursor.owners range.first range.count range.label
        next := cursor.next + range.count
        members := cursor.members.set owner (current + count) } where
  owners := by
    rw [← hcounting.owners]
    exact length_fillRange (by rwa [hfirst, hcounting.owners]) range.label
  filled := hcounting.filled.step hrange hfirst (hcounting.owners ▸ hfits)
  length := List.length_set.trans hcounting.length
  members other hother := by
    rw [hnext, List.getElem?_set]
    by_cases hsame : owner = other
    · subst hsame
      have hsum := Option.some.inj (hcurrent.symm.trans (hcounting.members owner hother))
      simp [hcounting.length, hother, hsum]
    · simp [hsame, hcounting.members other hother]

theorem finish (hcounting : Counting ranges total size counted ranges.length cursor)
    (hend : cursor.next = total) :
    TilesFrom 0 ranges total ∧ cursor.owners = spread ranges := by
  have hfilled := hcounting.filled
  rw [hend, ← hcounting.owners] at hfilled
  exact hcounting.owners ▸ hfilled.finish

theorem complete (hcounting : Counting ranges total size counted ranges.length cursor)
    (htiles : TilesFrom 0 ranges total) : cursor.owners = spread ranges ∧ cursor.next = total := by
  obtain ⟨hspread, hend⟩ := hcounting.filled.complete (hcounting.owners ▸ htiles)
  exact ⟨hspread, hend.trans hcounting.owners⟩

theorem members_eq (hcounting : Counting ranges total size counted done cursor) {sizes : List Nat}
    (hlength : sizes.length = size)
    (hsizes : ∀ (owner count : Nat), sizes[owner]? = some count → counted done owner = count) :
    cursor.members = sizes := by
  apply List.ext_getElem?
  intro owner
  by_cases howner : owner < size
  · have hcount := List.getElem?_eq_getElem (hlength ▸ howner)
    rw [hcounting.members owner howner, hcount, hsizes owner _ hcount]
  · rw [List.getElem?_eq_none (by rw [hcounting.length]; omega), List.getElem?_eq_none (by omega)]

end Counting

/-! ## The ranges tile -/

section

variable {index : Index} {position : Nat} {record : Block}
  (hrecord : index.blocks[position]? = some record)
include hrecord

theorem getElem?_blockPacketRanges : index.blockPacketRanges[position]? =
    some ⟨record.packetRecordBegin.toNat, record.nodeCount.toNat, record.cellId.toNat⟩ := by
  simp [Index.blockPacketRanges, hrecord]

theorem count_blockPacketRanges (cell : Nat) :
    (spread (index.blockPacketRanges.take (position + 1))).count cell =
      (spread (index.blockPacketRanges.take position)).count cell +
        if record.cellId.toNat = cell then record.nodeCount.toNat else 0 := by
  rw [take_succ (getElem?_blockPacketRanges hrecord), spread, List.flatMap_append,
    List.count_append, ← spread]
  simp [List.count_replicate]

end

namespace Accepted

variable {index : Index}

section

variable (accepted : Accepted index)
include accepted

theorem communities_tile :
    TilesFrom 0 index.sectorRanges index.sectors.length ∧
      TilesFrom 0 index.cellRanges index.cells.length := by
  have hinvariant := scan_invariant accepted.communities
    (motive := fun position (cursors : Nat × Nat) =>
      TilesFrom 0 (index.sectorRanges.take position) cursors.1 ∧
        TilesFrom 0 (index.cellRanges.take position) cursors.2) ⟨rfl, rfl⟩ ?_
  · have hsectors : index.sectorRanges.length = index.communities.length := length_numberedRanges
    have hcells : index.cellRanges.length = index.communities.length := length_numberedRanges
    rwa [Nat.zero_add, ← hsectors, List.take_length, hsectors, ← hcells, List.take_length]
      at hinvariant
  · rintro position record ⟨sector, cell⟩ next hrecord ⟨hsectors, hcells⟩ hcheck
    rw [Nat.zero_add] at hsectors hcells hcheck ⊢
    obtain ⟨hok, rfl⟩ := checkCommunity_eq_ok hcheck
    rw [Index.sectorRanges, Index.cellRanges, take_succ (getElem?_numberedRanges hrecord),
      take_succ (getElem?_numberedRanges hrecord)]
    exact ⟨hsectors.snoc hok.sectorBegin, hcells.snoc hok.cellBegin⟩

theorem sectors_filled :
    TilesFrom 0 index.sectorCellRanges index.cells.length ∧
      accepted.cellCursor.owners = spread index.sectorCellRanges := by
  have hlength : index.sectorCellRanges.length = index.sectors.length := length_numberedRanges
  have hinvariant := scan_invariant accepted.sectors
    (motive := fun position cursor => cursor.owners.length = index.cells.length ∧
      Filled index.sectorCellRanges position cursor.owners cursor.next)
    ⟨by simp, .start _ _⟩ ?_
  · obtain ⟨howners, hfilled⟩ := hinvariant
    rw [Nat.zero_add, ← hlength, accepted.sectorsEnd, ← howners] at hfilled
    rw [← howners]
    exact hfilled.finish
  · rintro position record cursor next hrecord ⟨howners, hfilled⟩ hcheck
    rw [Nat.zero_add] at hfilled hcheck ⊢
    obtain ⟨hok, rfl⟩ := checkSector_eq_ok hcheck
    have hfits : cursor.next + record.cellCount.toNat ≤ cursor.owners.length := howners ▸ hok.fits
    refine ⟨?_, hfilled.step (getElem?_numberedRanges hrecord) hok.cellBegin hfits⟩
    rw [← howners]
    exact length_fillRange (hok.cellBegin ▸ hfits) position

theorem cells_filled :
    (TilesFrom 0 index.cellBlockRanges index.blocks.length ∧
      accepted.blockCursor.owners = spread index.cellBlockRanges) ∧
    ∀ sector < index.sectors.length, accepted.blockCursor.members[sector]? =
      some (∑ cell ∈ Finset.range index.cells.length,
        if accepted.cellCursor.owners[cell]? = some sector then index.cellNodes cell else 0) := by
  have hlength : index.cellBlockRanges.length = index.cells.length := length_numberedRanges
  have hcounting := scan_invariant accepted.cells
    (motive := Counting index.cellBlockRanges index.blocks.length index.sectors.length
      fun position sector => ∑ cell ∈ Finset.range position,
        if accepted.cellCursor.owners[cell]? = some sector then index.cellNodes cell else 0)
    ⟨by simp, .start _ _, by simp, fun sector hsector => by simp [hsector]⟩ ?_
  · rw [Nat.zero_add, ← hlength] at hcounting
    exact ⟨hcounting.finish accepted.cellsEnd, hlength ▸ hcounting.members⟩
  · intro position record cursor next hrecord hcounting hcheck
    rw [Nat.zero_add] at hcounting hcheck ⊢
    obtain ⟨sectorId, sector, members, hok, hcurrent, rfl⟩ := checkCell_eq_ok hcheck
    refine hcounting.step (getElem?_numberedRanges hrecord) hok.blockBegin hok.fits hcurrent
      fun other => ?_
    simp [Finset.sum_range_succ, hok.sectorOwner, Index.cellNodes, hrecord]

theorem blocks_filled :
    (TilesFrom 0 index.blockPacketRanges index.pointCount.toNat ∧
      accepted.packetCursor.owners = spread index.blockPacketRanges) ∧
    ∀ cell < index.cells.length, accepted.packetCursor.members[cell]? =
      some ((spread index.blockPacketRanges).count cell) := by
  have hlength : index.blockPacketRanges.length = index.blocks.length := by
    simp [Index.blockPacketRanges]
  have hcounting := scan_invariant accepted.blocks
    (motive := Counting index.blockPacketRanges index.pointCount.toNat index.cells.length
      fun position => (spread (index.blockPacketRanges.take position)).count)
    ⟨by simp, .start _ _, by simp, fun cell hcell => by simp [hcell, spread]⟩ ?_
  · rw [Nat.zero_add, ← hlength] at hcounting
    refine ⟨hcounting.finish accepted.blocksEnd, fun cell hcell => ?_⟩
    rw [hcounting.members cell hcell, List.take_length]
  · intro position record cursor next hrecord hcounting hcheck
    rw [Nat.zero_add] at hcounting hcheck ⊢
    obtain ⟨cellId, cell, members, hok, hcurrent, rfl⟩ := checkBlock_eq_ok hcheck
    exact hcounting.step (getElem?_blockPacketRanges hrecord) hok.packetBegin hok.fits hcurrent
      (count_blockPacketRanges hrecord)

theorem globals_ok : GlobalsOk index :=
  checkGlobals_eq_ok accepted.globals

theorem members_counted :
    ∀ community < index.communities.length, accepted.membership.members[community]? =
      some ((index.nodeToCommunity.map UInt32.toNat).count community) := by
  have hglobals := accepted.globals_ok
  have hlength : (index.nodeToCommunity.zip index.nodeToCell).length =
      (index.nodeToCommunity.map UInt32.toNat).length := by
    rw [List.length_zip, List.length_map, hglobals.nodeToCommunity, hglobals.nodeToCell,
      Nat.min_self]
  have hinvariant := scan_invariant accepted.members
    (motive := fun position state => ∀ community < index.communities.length,
      state.members[community]? =
        some (((index.nodeToCommunity.map UInt32.toNat).take position).count community))
    (fun community hcommunity => by simp [hcommunity]) ?_
  · rwa [Nat.zero_add, hlength, List.take_length] at hinvariant
  · rintro position ⟨owner, cell⟩ state next howners hmembers hcheck community hcommunity
    rw [Nat.zero_add] at hmembers hcheck ⊢
    obtain ⟨-, -, hnext⟩ := countMember_eq_ok hcheck
    have howner : (index.nodeToCommunity.map UInt32.toNat)[position]? = some owner.toNat := by
      rw [List.getElem?_map, (List.getElem?_zip_eq_some.mp howners).1]
      rfl
    rw [hnext, take_succ howner, List.count_append, List.getElem?_modify,
      hmembers community hcommunity]
    by_cases hsame : owner.toNat = community
    · simp [hsame]
    · simp [hsame]

theorem packet_ok {packet : Nat} (hpacket : packet < index.pointCount.toNat) :
    ∃ node cellId cell,
      PacketOk index accepted.packetCursor.owners packet node cellId cell := by
  have hvalue : (List.range index.pointCount.toNat)[packet]? = some packet := by
    rw [List.getElem?_range hpacket]
  obtain ⟨before, after, hcheck⟩ := scan_accepts accepted.packets hvalue
  exact checkPacket_eq_ok hcheck

end

end Accepted

def Index.packetNodes (index : Index) : List (Except Error Nat) :=
  (List.range index.pointCount.toNat).map index.packetNode

/-- The nodes in packet order, with the inverse and the Cells that the index stores. -/
structure PacketOrder (index : Index) (nodes : List Nat) : Prop where
  decoded : index.packetNodes = nodes.map .ok
  perm : nodes.Perm (List.range index.pointCount.toNat)
  inverse : nodes.map ((index.nodeToPacketRecord.map UInt64.toNat)[·]?) =
    (List.range index.pointCount.toNat).map some
  cells : nodes.map ((index.nodeToCell.map UInt32.toNat)[·]?) =
    (spread index.blockPacketRanges).map some

namespace Accepted

variable {index : Index}

theorem packetOrder (accepted : Accepted index) : ∃ nodes, PacketOrder index nodes := by
  obtain ⟨⟨htiles, howners⟩, -⟩ := accepted.blocks_filled
  have hpackets : ∀ packet, packet < index.pointCount.toNat → ∃ node cellId cell,
      PacketOk index accepted.packetCursor.owners packet node cellId cell :=
    fun packet => accepted.packet_ok
  choose! node cellId cell hok using hpackets
  have hinverse : ∀ packet < index.pointCount.toNat,
      (index.nodeToPacketRecord.map UInt64.toNat)[node packet]? = some packet := by
    intro packet hpacket
    rw [List.getElem?_map]
    exact (hok packet hpacket).packetRecord
  have hnodup : ((List.range index.pointCount.toNat).map node).Nodup := by
    apply List.Nodup.map_on _ List.nodup_range
    intro first hfirst second hsecond hsame
    have hleft := hinverse first (List.mem_range.mp hfirst)
    rw [hsame, hinverse second (List.mem_range.mp hsecond)] at hleft
    exact (Option.some.inj hleft).symm
  have hbounded : (List.range index.pointCount.toNat).map node ⊆
      List.range index.pointCount.toNat := by
    intro value hvalue
    obtain ⟨packet, hpacket, rfl⟩ := List.mem_map.mp hvalue
    exact List.mem_range.mpr (hok packet (List.mem_range.mp hpacket)).bounded
  refine ⟨(List.range index.pointCount.toNat).map node, ?_, ?_, ?_, ?_⟩
  · rw [Index.packetNodes, List.map_map]
    exact List.map_congr_left fun packet hpacket => (hok packet (List.mem_range.mp hpacket)).decoded
  · exact (List.subperm_of_subset hnodup hbounded).perm_of_length_le (by simp)
  · rw [List.map_map]
    exact List.map_congr_left fun packet hpacket => hinverse packet (List.mem_range.mp hpacket)
  · have hlength : (spread index.blockPacketRanges).length = index.pointCount.toNat := by
      rw [← htiles.length_spread, Nat.zero_add]
    rw [List.map_map]
    apply List.ext_getElem
    · simp [hlength]
    · intro packet hleft hright
      have hpacket : packet < index.pointCount.toNat := by simpa using hleft
      have howner := (hok packet hpacket).cellOwner
      have hcell := (hok packet hpacket).nodeCell
      rw [howners] at howner
      simp only [List.getElem_map, List.getElem_range, Function.comp_apply, List.getElem?_map]
      rw [hcell, ← howner, List.getElem?_eq_getElem]

end Accepted

/-! ## The owners -/

namespace Index

variable (index : Index)

def InBlock (packet block : Nat) : Prop := OwnedBy index.blockPacketRanges packet block

def InCell (block cell : Nat) : Prop := OwnedBy index.cellBlockRanges block cell

def InSector (cell sector : Nat) : Prop := OwnedBy index.sectorCellRanges cell sector

def InCommunity (sector community : Nat) : Prop := OwnedBy index.sectorRanges sector community

instance (packet block : Nat) : Decidable (index.InBlock packet block) :=
  inferInstanceAs (Decidable (OwnedBy _ _ _))

instance (block cell : Nat) : Decidable (index.InCell block cell) :=
  inferInstanceAs (Decidable (OwnedBy _ _ _))

instance (cell sector : Nat) : Decidable (index.InSector cell sector) :=
  inferInstanceAs (Decidable (OwnedBy _ _ _))

instance (sector community : Nat) : Decidable (index.InCommunity sector community) :=
  inferInstanceAs (Decidable (OwnedBy _ _ _))

def CellInCommunity (cell community : Nat) : Prop :=
  ∃ sector < index.sectors.length, index.InSector cell sector ∧
    index.InCommunity sector community

instance (cell community : Nat) : Decidable (index.CellInCommunity cell community) :=
  inferInstanceAs (Decidable (∃ sector < index.sectors.length, _))

end Index

theorem communityOwners_of_tiles {index : Index}
    (hsectors : TilesFrom 0 index.sectorRanges index.sectors.length)
    (hcells : TilesFrom 0 index.cellRanges index.cells.length) :
    communityOwners index = (spread index.sectorRanges, spread index.cellRanges) := by
  have hpair : communityOwners index =
      (fillRanges (index.sectors.map fun _ => invalidId) index.sectorRanges,
        fillRanges (index.cells.map fun _ => invalidId) index.cellRanges) := by
    rw [communityOwners, Index.sectorRanges, Index.cellRanges, numberedRanges, numberedRanges,
      List.mapIdx_eq_zipIdx_map, List.mapIdx_eq_zipIdx_map, fillRanges, fillRanges, List.foldl_map, List.foldl_map]
    apply List.foldl_hom₂ _ Prod.mk
    intro sectors cells record
    rfl
  rw [hpair]
  congr 1
  · apply TilesFrom.fillRanges_eq
    rwa [List.length_map]
  · apply TilesFrom.fillRanges_eq
    rwa [List.length_map]

namespace Accepted

variable {index : Index}

theorem communityOwners_eq (accepted : Accepted index) :
    communityOwners index = (spread index.sectorRanges, spread index.cellRanges) :=
  communityOwners_of_tiles accepted.communities_tile.1 accepted.communities_tile.2

theorem sector_community (accepted : Accepted index) {sector : Nat} {record : Sector}
    (hsector : index.sectors[sector]? = some record) :
    (spread index.sectorRanges)[sector]? = some record.communityId.toNat := by
  obtain ⟨before, after, hcheck⟩ := scan_accepts accepted.sectors hsector
  have hcommunity := (checkSector_eq_ok hcheck).1.community
  rwa [accepted.communityOwners_eq, Nat.zero_add] at hcommunity

structure CellOwners (index : Index) (cell : Nat) (record : Cell) (sectorId : Nat)
    (sector : Sector) : Prop where
  id : record.cellId.toNat = cell
  sectorOwner : (spread index.sectorCellRanges)[cell]? = some sectorId
  sectorRecord : index.sectors[sectorId]? = some sector
  community : (spread index.cellRanges)[cell]? = some record.communityId.toNat
  sameCommunity : record.communityId = sector.communityId

section

variable (accepted : Accepted index)
include accepted

variable {cell block sector community : Nat}

theorem cell_owners {record : Cell} (hcell : index.cells[cell]? = some record) :
    ∃ sectorId sector, CellOwners index cell record sectorId sector := by
  obtain ⟨before, after, hcheck⟩ := scan_accepts accepted.cells hcell
  obtain ⟨sectorId, sector, _, hok, -, -⟩ := checkCell_eq_ok hcheck
  have hsectorOwner := hok.sectorOwner
  have hcommunity := hok.community
  have hid := hok.id
  rw [accepted.sectors_filled.2, Nat.zero_add] at hsectorOwner
  rw [accepted.communityOwners_eq, Nat.zero_add] at hcommunity
  rw [Nat.zero_add] at hid
  exact ⟨sectorId, sector, hid, hsectorOwner, hok.sectorRecord, hcommunity, hok.sameCommunity⟩

theorem block_owner {record : Block} (hblock : index.blocks[block]? = some record) :
    (spread index.cellBlockRanges)[block]? = some record.cellId.toNat := by
  obtain ⟨before, after, hcheck⟩ := scan_accepts accepted.blocks hblock
  obtain ⟨cellId, cell, _, hok, -, -⟩ := checkBlock_eq_ok hcheck
  have howner := hok.cellOwner
  rw [accepted.cells_filled.1.2, Nat.zero_add] at howner
  obtain ⟨sectorId, sector, hcell⟩ := accepted.cell_owners hok.cellRecord
  rw [howner, hok.sameCell, hcell.id]

theorem inSector_iff (hcell : cell < index.cells.length) :
    (spread index.sectorCellRanges)[cell]? = some sector ↔ index.InSector cell sector := by
  exact accepted.sectors_filled.1.getElem?_spread_iff hcell

theorem inCell_iff (hblock : block < index.blocks.length) :
    (spread index.cellBlockRanges)[block]? = some cell ↔ index.InCell block cell := by
  exact accepted.cells_filled.1.1.getElem?_spread_iff hblock

theorem inCommunity_iff (hsector : sector < index.sectors.length) :
    (spread index.sectorRanges)[sector]? = some community ↔
      index.InCommunity sector community := by
  exact accepted.communities_tile.1.getElem?_spread_iff hsector

theorem cellInCommunity_iff {record : Cell} (hcell : index.cells[cell]? = some record) :
    index.CellInCommunity cell community ↔ record.communityId.toNat = community := by
  have hbound := (List.getElem_of_getElem? hcell).1
  obtain ⟨sectorId, sector, howners⟩ := accepted.cell_owners hcell
  have hsectorBound := (List.getElem_of_getElem? howners.sectorRecord).1
  have hsector := accepted.sector_community howners.sectorRecord
  rw [← howners.sameCommunity] at hsector
  constructor
  · rintro ⟨other, hother, hinSector, hinCommunity⟩
    have hsame := (accepted.inSector_iff hbound).mpr hinSector
    rw [howners.sectorOwner] at hsame
    obtain rfl := Option.some.inj hsame
    have howner := (accepted.inCommunity_iff hother).mpr hinCommunity
    rw [hsector] at howner
    exact Option.some.inj howner
  · rintro rfl
    exact ⟨sectorId, hsectorBound, (accepted.inSector_iff hbound).mp howners.sectorOwner,
      (accepted.inCommunity_iff hsectorBound).mp hsector⟩

end

/-! ## The counts -/

section

variable (accepted : Accepted index) {community : Nat} {record : Community}
  (hcommunity : index.communities[community]? = some record)
include accepted hcommunity

theorem community_nodes :
    (index.nodeToCommunity.map UInt32.toNat).count community = record.nodeCount.toNat := by
  have hbound := (List.getElem_of_getElem? hcommunity).1
  obtain ⟨⟨sector, cell⟩, after, hcheck⟩ := scan_accepts accepted.communities hcommunity
  have hmembers := (checkCommunity_eq_ok hcheck).1.members
  rw [Nat.zero_add, accepted.members_counted community hbound] at hmembers
  exact Option.some.inj hmembers

theorem community_sectors :
    (List.range index.sectors.length).countP (fun sector => index.InCommunity sector community) =
      record.sectorCount.toNat := by
  exact accepted.communities_tile.1.countP_owned (getElem?_numberedRanges hcommunity)

theorem community_cells :
    (List.range index.cells.length).countP (fun cell => index.CellInCommunity cell community) =
      record.cellCount.toNat := by
  have htiles := accepted.communities_tile.2
  refine Eq.trans ?_ (htiles.countP_owned (getElem?_numberedRanges hcommunity))
  apply List.countP_congr
  intro cell hcell
  have hbound := List.mem_range.mp hcell
  have hrecord := List.getElem?_eq_getElem hbound
  obtain ⟨sectorId, sector, howners⟩ := accepted.cell_owners hrecord
  rw [decide_eq_true_iff, decide_eq_true_iff, accepted.cellInCommunity_iff hrecord]
  have howned : _ ↔ OwnedBy index.cellRanges cell community := htiles.getElem?_spread_iff hbound
  rw [← Index.cellRanges, howners.community, Option.some_inj] at howned
  exact howned

end

section

variable (accepted : Accepted index)
include accepted

theorem sector_cells {sector : Nat} {record : Sector}
    (hsector : index.sectors[sector]? = some record) :
    (List.range index.cells.length).countP (fun cell => index.InSector cell sector) =
      record.cellCount.toNat := by
  exact accepted.sectors_filled.1.countP_owned (getElem?_numberedRanges hsector)

theorem cell_blocks {cell : Nat} {record : Cell} (hcell : index.cells[cell]? = some record) :
    (List.range index.blocks.length).countP (fun block => index.InCell block cell) =
      record.blockCount.toNat := by
  exact accepted.cells_filled.1.1.countP_owned (getElem?_numberedRanges hcell)

theorem nodeCells_perm :
    (spread index.blockPacketRanges).Perm (index.nodeToCell.map UInt32.toNat) := by
  obtain ⟨nodes, horder⟩ := accepted.packetOrder
  apply perm_of_positions _ horder.cells
  rw [List.length_map, accepted.globals_ok.nodeToCell]
  exact horder.perm

theorem nodePackets_perm :
    (List.range index.pointCount.toNat).Perm (index.nodeToPacketRecord.map UInt64.toNat) := by
  obtain ⟨nodes, horder⟩ := accepted.packetOrder
  apply perm_of_positions _ horder.inverse
  rw [List.length_map, accepted.globals_ok.nodeToPacketRecord]
  exact horder.perm

theorem cell_nodes {cell : Nat} {record : Cell} (hcell : index.cells[cell]? = some record) :
    (index.nodeToCell.map UInt32.toNat).count cell = record.nodeCount.toNat := by
  have hbound := (List.getElem_of_getElem? hcell).1
  have hmembers := accepted.blocks_filled.2 cell hbound
  rw [accepted.cellMembers, List.getElem?_map, hcell] at hmembers
  rw [← accepted.nodeCells_perm.count_eq]
  exact (Option.some.inj hmembers).symm

theorem block_nodes {block : Nat} {record : Block} (hblock : index.blocks[block]? = some record) :
    (index.nodeToPacketRecord.map UInt64.toNat).countP
      (fun packet => index.InBlock packet block) = record.nodeCount.toNat := by
  have hrange : index.blockPacketRanges[block]? = some
      ⟨record.packetRecordBegin.toNat, record.nodeCount.toNat, record.cellId.toNat⟩ := by
    simp [Index.blockPacketRanges, hblock]
  rw [← accepted.nodePackets_perm.countP_eq]
  exact accepted.blocks_filled.1.1.countP_owned hrange

theorem sector_nodes {sector : Nat} {record : Sector}
    (hsector : index.sectors[sector]? = some record) :
    (index.nodeToCell.map UInt32.toNat).countP (fun cell => index.InSector cell sector) =
      record.nodeCount.toNat := by
  have hbound := (List.getElem_of_getElem? hsector).1
  have hcells : ∀ cell ∈ index.nodeToCell.map UInt32.toNat, cell < index.cells.length := by
    intro cell hcell
    have hspread := (accepted.nodeCells_perm.mem_iff).mpr hcell
    obtain ⟨range, hrange, hlabel⟩ := List.mem_flatMap.mp hspread
    obtain ⟨block, hblock, rfl⟩ := List.mem_map.mp hrange
    obtain rfl := List.eq_of_mem_replicate hlabel
    obtain ⟨position, hposition⟩ := List.mem_iff_getElem?.mp hblock
    obtain ⟨before, after, hcheck⟩ := scan_accepts accepted.blocks hposition
    obtain ⟨cellId, record, _, hok, -, -⟩ := checkBlock_eq_ok hcheck
    obtain ⟨sectorId, sector, howners⟩ := accepted.cell_owners hok.cellRecord
    rw [hok.sameCell, howners.id]
    exact (List.getElem_of_getElem? hok.cellRecord).1
  have hmembers := accepted.cells_filled.2 sector hbound
  rw [accepted.sectorMembers, List.getElem?_map, hsector] at hmembers
  refine Eq.trans ?_ (Option.some.inj hmembers).symm
  rw [countP_eq_sum hcells]
  apply Finset.sum_congr rfl
  intro cell hcell
  have hrecord := List.getElem?_eq_getElem (Finset.mem_range.mp hcell)
  have hnodes : index.cellNodes cell = (index.nodeToCell.map UInt32.toNat).count cell := by
    rw [accepted.cell_nodes hrecord, Index.cellNodes, hrecord]
    rfl
  rw [hnodes, accepted.sectors_filled.2]
  simp only [decide_eq_true_eq, accepted.inSector_iff (Finset.mem_range.mp hcell)]

end

end Accepted

/-! ## The layout -/

structure CommunityCounts (index : Index) (community : Nat) (record : Community) : Prop where
  nodes : (index.nodeToCommunity.map UInt32.toNat).count community = record.nodeCount.toNat
  sectors : (List.range index.sectors.length).countP
    (fun sector => index.InCommunity sector community) = record.sectorCount.toNat
  cells : (List.range index.cells.length).countP
    (fun cell => index.CellInCommunity cell community) = record.cellCount.toNat

structure SectorCounts (index : Index) (sector : Nat) (record : Sector) : Prop where
  nodes : (index.nodeToCell.map UInt32.toNat).countP
    (fun cell => index.InSector cell sector) = record.nodeCount.toNat
  cells : (List.range index.cells.length).countP
    (fun cell => index.InSector cell sector) = record.cellCount.toNat

structure CellCounts (index : Index) (cell : Nat) (record : Cell) : Prop where
  nodes : (index.nodeToCell.map UInt32.toNat).count cell = record.nodeCount.toNat
  blocks : (List.range index.blocks.length).countP
    (fun block => index.InCell block cell) = record.blockCount.toNat

/-- Everything that the arrays of an accepted index promise each other. -/
structure SoundLayout (index : Index) : Prop where
  arrays : GlobalsOk index
  permutation : ∃ nodes : List Nat, index.packetNodes = nodes.map .ok ∧
    nodes.Perm (List.range index.pointCount.toNat)
  located : ∀ node < index.pointCount.toNat, ∃ packet < index.pointCount.toNat,
    index.nodeToPacketRecord[node]?.map UInt64.toNat = some packet ∧
      index.packetNode packet = .ok node
  block : ∀ packet < index.pointCount.toNat, ∃! block, index.InBlock packet block
  cell : ∀ block < index.blocks.length, ∃! cell, index.InCell block cell
  sector : ∀ cell < index.cells.length, ∃! sector, index.InSector cell sector
  community : ∀ sector < index.sectors.length, ∃! community, index.InCommunity sector community
  nodeCell : ∀ node packet block cell, packet < index.pointCount.toNat →
    index.packetNode packet = .ok node → index.InBlock packet block → index.InCell block cell →
      index.nodeToCell[node]?.map UInt32.toNat = some cell
  nodeCommunity : ¬ index.config.cellPartition.isGlobal → ∀ node < index.pointCount.toNat,
    ∀ cell community, index.nodeToCell[node]?.map UInt32.toNat = some cell →
      index.CellInCommunity cell community →
        index.nodeToCommunity[node]?.map UInt32.toNat = some community
  communityCounts : ∀ community record, index.communities[community]? = some record →
    CommunityCounts index community record
  sectorCounts : ∀ sector record, index.sectors[sector]? = some record →
    SectorCounts index sector record
  cellCounts : ∀ cell record, index.cells[cell]? = some record → CellCounts index cell record
  blockCounts : ∀ block record, index.blocks[block]? = some record →
    (index.nodeToPacketRecord.map UInt64.toNat).countP (fun packet => index.InBlock packet block) =
      record.nodeCount.toNat
  edges : TilesFrom 0 index.edgeRanges index.communityEdges.length
  gateways : TilesFrom 0 index.edgeGatewayRanges index.gateways.length
  edge : ∀ edge record, index.communityEdges[edge]? = some record →
    ∃ source, OwnedBy index.edgeRanges edge source ∧ EdgeOk index source record

namespace Accepted

variable {index : Index}

theorem node_located (accepted : Accepted index) {node : Nat}
    (hnode : node < index.pointCount.toNat) :
    ∃ packet < index.pointCount.toNat, ∃ cellId cell,
      PacketOk index accepted.packetCursor.owners packet node cellId cell := by
  obtain ⟨nodes, horder⟩ := accepted.packetOrder
  have hmem := horder.perm.mem_iff.mpr (List.mem_range.mpr hnode)
  have hread : (.ok node : Except Error Nat) ∈ index.packetNodes := by
    rw [horder.decoded]
    exact List.mem_map_of_mem hmem
  obtain ⟨packet, hpacket, hdecoded⟩ := List.mem_map.mp hread
  obtain ⟨found, cellId, cell, hok⟩ := accepted.packet_ok (List.mem_range.mp hpacket)
  obtain rfl := Except.ok.inj (hok.decoded.symm.trans hdecoded)
  exact ⟨packet, List.mem_range.mp hpacket, cellId, cell, hok⟩

theorem nodeCell (accepted : Accepted index) {node packet block cell : Nat}
    (hpacket : packet < index.pointCount.toNat) (hnode : index.packetNode packet = .ok node)
    (hblock : index.InBlock packet block) (hcell : index.InCell block cell) :
    index.nodeToCell[node]?.map UInt32.toNat = some cell := by
  obtain ⟨found, cellId, record, hok⟩ := accepted.packet_ok hpacket
  obtain rfl := Except.ok.inj (hok.decoded.symm.trans hnode)
  obtain ⟨⟨htiles, howners⟩, -⟩ := accepted.blocks_filled
  obtain ⟨range, hrange, hholds⟩ := hblock
  -- the packet's owner is the Cell id of its Block, which is the owner of the Block
  have howner := hok.cellOwner
  have hlabel := htiles.getElem?_spread hrange hholds
  rw [howners] at howner
  rw [Nat.sub_zero, howner] at hlabel
  simp only [Index.blockPacketRanges, List.getElem?_map, Option.map_eq_some_iff] at hrange
  obtain ⟨blockRecord, hblock, rfl⟩ := hrange
  have hbound := (List.getElem_of_getElem? hblock).1
  have hsame := (accepted.inCell_iff hbound).mpr hcell
  rw [accepted.block_owner hblock] at hsame
  exact hok.nodeCell.trans (hlabel.trans hsame)

theorem nodeCommunity (accepted : Accepted index) (hglobal : ¬ index.config.cellPartition.isGlobal)
    {node cell community : Nat} (hnode : node < index.pointCount.toNat)
    (hcell : index.nodeToCell[node]?.map UInt32.toNat = some cell)
    (hcommunity : index.CellInCommunity cell community) :
    index.nodeToCommunity[node]?.map UInt32.toNat = some community := by
  obtain ⟨packet, -, cellId, record, hok⟩ := accepted.node_located hnode
  obtain rfl := Option.some.inj (hok.nodeCell.symm.trans hcell)
  have hsame := (accepted.cellInCommunity_iff hok.cellRecord).mp hcommunity
  rw [hok.community hglobal, ← hsame]
  rfl

end Accepted

/-- What `validate_loaded_index` accepts is laid out soundly. -/
theorem validateLoadedIndex_sound {index : Index} (hvalid : validateLoadedIndex index = .ok ()) :
    SoundLayout index := by
  obtain ⟨accepted⟩ := accepted_of_valid hvalid
  have hcommunities := accepted.communities_tile
  have hedges := accepted.edges_ok
  constructor
  case arrays => exact accepted.globals_ok
  case permutation =>
    obtain ⟨nodes, horder⟩ := accepted.packetOrder
    exact ⟨nodes, horder.decoded, horder.perm⟩
  case located =>
    intro node hnode
    obtain ⟨packet, hpacket, _, _, hok⟩ := accepted.node_located hnode
    exact ⟨packet, hpacket, hok.packetRecord, hok.decoded⟩
  case block =>
    exact fun packet => accepted.blocks_filled.1.1.existsUnique (Nat.zero_le packet)
  case cell => exact fun block => accepted.cells_filled.1.1.existsUnique (Nat.zero_le block)
  case sector => exact fun cell => accepted.sectors_filled.1.existsUnique (Nat.zero_le cell)
  case community => exact fun sector => hcommunities.1.existsUnique (Nat.zero_le sector)
  case nodeCell => exact fun _ _ _ _ => accepted.nodeCell
  case nodeCommunity => exact fun hglobal _ hnode _ _ => accepted.nodeCommunity hglobal hnode
  case communityCounts =>
    intro community record hrecord
    exact ⟨accepted.community_nodes hrecord, accepted.community_sectors hrecord,
      accepted.community_cells hrecord⟩
  case sectorCounts =>
    exact fun sector record hrecord =>
      ⟨accepted.sector_nodes hrecord, accepted.sector_cells hrecord⟩
  case cellCounts =>
    exact fun cell record hrecord => ⟨accepted.cell_nodes hrecord, accepted.cell_blocks hrecord⟩
  case blockCounts => exact fun block record => accepted.block_nodes
  case edges => exact accepted.globals_ok.edges_tile
  case gateways =>
    have htiles := hedges.tiles
    rwa [Index.edgeGatewayRanges, List.take_of_length_le length_numberedRanges.le] at htiles
  case edge =>
    intro edge record hrecord
    obtain ⟨source, found, hfound, howned, hok⟩ :=
      hedges.edges edge (List.getElem_of_getElem? hrecord).1
    obtain rfl := Option.some.inj (hfound.symm.trans hrecord)
    exact ⟨source, howned, hok⟩

theorem validateLoadedIndex_sound_twoNodes :
    validateLoadedIndex twoNodes = .ok () ∧ SoundLayout twoNodes :=
  ⟨twoNodes_valid, validateLoadedIndex_sound twoNodes_valid⟩

end SkipCell.Sidecar

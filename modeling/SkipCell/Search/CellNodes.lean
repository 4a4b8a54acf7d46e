import SkipCell.Sidecar.Layout

/-! # The nodes of a Cell

The search keeps the node ids of the packets without their codes, and finds the nodes
of a Cell from its first Block. The first node of a Cell of a valid index is in the Cell.
-/

namespace SkipCell.Search

open Foundation Sidecar

/-- `node_to_block_` and `packet_node_ids_`. -/
structure PacketNodes where
  nodeToBlock : List UInt32
  packetNodeIds : List UInt32
  deriving DecidableEq

namespace PacketNodes

/-- One packet of a Block. The source reads the payload and writes both arrays unchecked. -/
def visitPacket (index : Index) (block packet : Nat) (nodes : PacketNodes) :
    Except Error PacketNodes := do
  let bytes ← slice index.packetPayload (packet * index.recordBytes % 2 ^ 64) 4
  let nodeId := decodeLittle bytes
  reject (nodes.nodeToBlock[nodeId]? ≠ some (.ofNat invalidId))
    (.invalidArgument "Community-Polar Block packet membership is invalid")
  let packetNodeIds ← assign .outOfBounds nodes.packetNodeIds packet (.ofNat nodeId)
  .ok { nodeToBlock := nodes.nodeToBlock.set nodeId (.ofNat block), packetNodeIds }

def visitBlock (index : Index) (block : Nat) (record : Block) (nodes : PacketNodes) :
    Except Error PacketNodes :=
  scan (fun _ offset => visitPacket index block (record.packetRecordBegin.toNat + offset)) 0
    (List.range record.nodeCount.toNat) nodes

/-- What the constructor of `community_polar_search_t` fills. -/
def load (index : Index) : Except Error PacketNodes := do
  let nodes ← scan32 (visitBlock index) index.blocks
    { nodeToBlock := List.replicate index.pointCount.toNat (.ofNat invalidId)
      packetNodeIds := List.replicate index.pointCount.toNat (.ofNat invalidId) }
  reject (.ofNat invalidId ∈ nodes.nodeToBlock)
    (.invalidArgument "Community-Polar node has no owning Block")
  .ok nodes

/-- `cell_node_ids`, which is empty for a Cell that does not exist. -/
def cellNodeIds (index : Index) (nodes : PacketNodes) (cellId : UInt32) : List UInt32 :=
  match index.cells[cellId.toNat]? with
  | none => []
  | some cell =>
    if cell.blockCount = 0 then []
    else
      match index.blocks[cell.blockBegin.toNat]? with
      | none => []
      | some block =>
        let packetBegin := block.packetRecordBegin.toNat
        if nodes.packetNodeIds.length < packetBegin ∨
            nodes.packetNodeIds.length - packetBegin < cell.nodeCount.toNat then []
        else (nodes.packetNodeIds.drop packetBegin).take cell.nodeCount.toNat

end PacketNodes

/-- `cell_id`, which the source reads unchecked. -/
def cellId (index : Index) (nodeId : UInt32) : Except Error UInt32 :=
  element .outOfBounds index.nodeToCell nodeId.toNat

namespace PacketNodes

variable {index : Index} {nodes next : PacketNodes} {block packet other : Nat}

/-- The node id of a packet stands at its place. -/
def Reads (index : Index) (packet : Nat) (nodes : PacketNodes) : Prop :=
  ∃ bytes, slice index.packetPayload (packet * index.recordBytes % 2 ^ 64) 4 = .ok bytes ∧
    nodes.packetNodeIds[packet]? = some (.ofNat (decodeLittle bytes))

theorem visitPacket_eq_ok (hvisit : visitPacket index block packet nodes = .ok next) :
    ∃ bytes, slice index.packetPayload (packet * index.recordBytes % 2 ^ 64) 4 = .ok bytes ∧
      packet < nodes.packetNodeIds.length ∧
      next.packetNodeIds = nodes.packetNodeIds.set packet (.ofNat (decodeLittle bytes)) := by
  simp only [visitPacket, bind_ok, reject_ok, assign_eq_ok, Except.ok.injEq] at hvisit
  obtain ⟨bytes, hbytes, _, -, ids, ⟨hbound, rfl⟩, rfl⟩ := hvisit
  exact ⟨bytes, hbytes, hbound, rfl⟩

theorem visitPacket_reads (hvisit : visitPacket index block packet nodes = .ok next) :
    Reads index packet next := by
  obtain ⟨bytes, hbytes, hbound, hids⟩ := visitPacket_eq_ok hvisit
  exact ⟨bytes, hbytes, by rw [hids, List.getElem?_set_self hbound]⟩

theorem Reads.visitPacket (hreads : Reads index other nodes)
    (hvisit : visitPacket index block packet nodes = .ok next) : Reads index other next := by
  by_cases hsame : packet = other
  · subst hsame
    exact visitPacket_reads hvisit
  · obtain ⟨bytes, hbytes, hid⟩ := hreads
    obtain ⟨_, -, -, hids⟩ := visitPacket_eq_ok hvisit
    exact ⟨bytes, hbytes, by rw [hids, List.getElem?_set_ne hsame, hid]⟩

variable {record : Block}

theorem Reads.visitBlock (hreads : Reads index other nodes)
    (hvisit : visitBlock index block record nodes = .ok next) : Reads index other next :=
  scan_invariant (motive := fun _ nodes => Reads index other nodes) hvisit hreads
    fun _ _ _ _ _ hbefore hbody => hbefore.visitPacket hbody

theorem visitBlock_reads {offset : Nat} (hoffset : offset < record.nodeCount.toNat)
    (hvisit : visitBlock index block record nodes = .ok next) :
    Reads index (record.packetRecordBegin.toNat + offset) next := by
  refine scan_establishes hvisit (List.getElem?_range hoffset) ?_ ?_
  · exact fun _ _ hbody => visitPacket_reads hbody
  · exact fun _ _ _ _ hbody hbefore => hbefore.visitPacket hbody

theorem load_reads (hload : load index = .ok nodes) (hblock : index.blocks[block]? = some record)
    {offset : Nat} (hoffset : offset < record.nodeCount.toNat) :
    Reads index (record.packetRecordBegin.toNat + offset) nodes := by
  simp only [load, bind_ok, reject_ok, scanCounted_eq_ok, Except.ok.injEq] at hload
  obtain ⟨_, ⟨-, hscan⟩, _, -, rfl⟩ := hload
  refine scan_establishes hscan hblock ?_ ?_
  · exact fun _ _ hbody => visitBlock_reads hoffset hbody
  · exact fun _ _ _ _ hbody hbefore => hbefore.visitBlock hbody

theorem Reads.packetNode (hreads : Reads index packet nodes) {node : Nat}
    (hnode : index.packetNode packet = .ok node) :
    nodes.packetNodeIds[packet]? = some (.ofNat node) := by
  obtain ⟨bytes, hbytes, hid⟩ := hreads
  simp only [Index.packetNode, bind_ok, checkedMultiply_eq_ok, reject_ok, Except.ok.injEq] at hnode
  obtain ⟨offset, ⟨hsmall, rfl⟩, _, hlong, rfl⟩ := hnode
  rw [Nat.mod_eq_of_lt hsmall, slice, if_pos (Nat.not_lt.mp hlong)] at hbytes
  rw [hid, Except.ok.inj hbytes]

theorem packets_fit (accepted : Accepted index) (hblock : index.blocks[block]? = some record) :
    0 < record.nodeCount.toNat ∧
      record.packetRecordBegin.toNat + record.nodeCount.toNat ≤ index.pointCount.toNat := by
  obtain ⟨before, after, hcheck⟩ := scan_accepts accepted.blocks hblock
  have hnonempty : record.nodeCount ≠ 0 := by
    simp only [checkBlock, bind_ok, reject_ok, not_or] at hcheck
    obtain ⟨_, -, _, -, _, ⟨-, -, hnonempty, -⟩, -⟩ := hcheck
    exact hnonempty
  obtain ⟨_, _, _, hok, -, -⟩ := checkBlock_eq_ok hcheck
  refine ⟨Nat.pos_of_ne_zero fun hzero => hnonempty (UInt32.toNat_inj.mp hzero), ?_⟩
  rw [hok.packetBegin]
  exact hok.fits

theorem cellNodeIds_eq_cons {cell first : UInt32} {rest : List UInt32}
    (hnodes : nodes.cellNodeIds index cell = first :: rest) :
    ∃ record blockRecord, index.cells[cell.toNat]? = some record ∧ record.blockCount ≠ 0 ∧
      index.blocks[record.blockBegin.toNat]? = some blockRecord ∧
      nodes.packetNodeIds[blockRecord.packetRecordBegin.toNat]? = some first := by
  unfold cellNodeIds at hnodes
  split at hnodes
  · cases hnodes
  next record hcell =>
    split at hnodes
    · cases hnodes
    next hblocks =>
      split at hnodes
      · cases hnodes
      next blockRecord hblock =>
        refine ⟨record, blockRecord, hcell, hblocks, hblock, ?_⟩
        dsimp only at hnodes
        split at hnodes
        · cases hnodes
        · have hhead := congrArg List.head? hnodes
          rw [List.head?_take, List.head?_drop] at hhead
          split at hhead
          · cases hhead
          · exact hhead

theorem cellId_cellNodeIds (hvalid : validateLoadedIndex index = .ok ())
    (hload : load index = .ok nodes) {cell first : UInt32} {rest : List UInt32}
    (hnodes : nodes.cellNodeIds index cell = first :: rest) : cellId index first = .ok cell := by
  obtain ⟨accepted⟩ := accepted_of_valid hvalid
  obtain ⟨record, blockRecord, hcell, hblocks, hblock, hfirst⟩ := cellNodeIds_eq_cons hnodes
  obtain ⟨hcount, hpackets⟩ := packets_fit accepted hblock
  have hinBlock : index.InBlock blockRecord.packetRecordBegin.toNat record.blockBegin.toNat := by
    refine ⟨⟨blockRecord.packetRecordBegin.toNat, blockRecord.nodeCount.toNat,
      blockRecord.cellId.toNat⟩, ?_, Nat.le_refl _, Nat.lt_add_of_pos_right hcount⟩
    simp [Index.blockPacketRanges, hblock]
  have hinCell : index.InCell record.blockBegin.toNat cell.toNat := by
    have hblocks : 0 < record.blockCount.toNat :=
      Nat.pos_of_ne_zero fun hzero => hblocks (UInt32.toNat_inj.mp hzero)
    exact ⟨_, getElem?_numberedRanges hcell, Nat.le_refl record.blockBegin.toNat,
      Nat.lt_add_of_pos_right hblocks⟩
  have hpacket : blockRecord.packetRecordBegin.toNat < index.pointCount.toNat := by omega
  obtain ⟨node, _, _, hok⟩ := accepted.packet_ok hpacket
  have hread := (load_reads hload hblock hcount).packetNode hok.decoded
  rw [Nat.add_zero, hfirst] at hread
  obtain rfl := Option.some.inj hread
  have hnodeCell := accepted.nodeCell hpacket hok.decoded hinBlock hinCell
  have hnode : node < 2 ^ 32 := by
    have hmembers := (counts_of_valid hvalid).1
    rw [List.length_zip, accepted.globals_ok.nodeToCommunity, accepted.globals_ok.nodeToCell,
      Nat.min_self] at hmembers
    exact hok.bounded.trans hmembers
  rw [cellId, element_eq_ok, UInt32.toNat_ofNat_of_lt' hnode]
  obtain ⟨found, hfound, hsame⟩ := Option.map_eq_some_iff.mp hnodeCell
  rw [hfound, UInt32.toNat_inj.mp hsame]

end PacketNodes

/-- `community_polar_candidate_origin_t`. -/
inductive CandidateOrigin
  | baseEdge
  | communityGateway
  | polarCell

/-- A valid index with the node ids of its packets. -/
structure ResidentIndex where
  index : Index
  packets : PacketNodes
  valid : validateLoadedIndex index = .ok ()
  loaded : PacketNodes.load index = .ok packets

end SkipCell.Search

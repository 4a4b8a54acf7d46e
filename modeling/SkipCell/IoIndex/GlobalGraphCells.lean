import SkipCell.Build.GraphLocal
import SkipCell.IoIndex.BuildLoad

/-! # Cells along the graph, without a sidecar

The Cells of a topology artifact are grown along its adjacency lists, from an index that was
loaded or from the bytes of the artifact. They are the Cells that the sidecar gets for the same
graph.
-/

namespace SkipCell.IoIndex

open Foundation Sidecar Build

structure GlobalGraphCellAssignment where
  nodeToCell : List UInt32
  cellCount : UInt32
  deriving DecidableEq

def kUnassignedCell : UInt32 := 0xFFFFFFFF

/-- One more Cell has a 32-bit number. -/
def permitCell (message : String) (count : Nat) : Except Error Unit :=
  reject (count = 2 ^ 32 - 1) (.runtimeError message)

/-- Every group of the nodes is a Cell. -/
def assignCells (pointCount : Nat) (groups : List (List Nat)) : GlobalGraphCellAssignment where
  nodeToCell := labelGroups UInt32.ofNat 0 groups (List.replicate pointCount kUnassignedCell)
  cellCount := .ofNat groups.length

/-- The neighbors of a node; each is looked up among the marks of the nodes. -/
def LoadedIndex.markedNeighbors (index : LoadedIndex) (node : Nat) : Except Error (List Nat) := do
  let list ← index.neighbors node
  reject (∃ neighbor ∈ list, index.pointCount.toNat ≤ neighbor.toNat) .outOfBounds
  .ok (list.map UInt32.toNat)

def buildIoGlobalGraphCellAssignment (index : LoadedIndex) (targetSize : UInt32) :
    Except Error GlobalGraphCellAssignment := do
  reject (targetSize = 0 ∨ index.pointCount = 0 ∨ 2 ^ 32 - 1 < index.pointCount.toNat)
    (.invalidArgument
      "global graph Cell assignment requires representable points and a positive target")
  let groups ← tryGroupNodes index.markedNeighbors
    (permitCell "global graph Cell count exceeds uint32") targetSize.toNat index.pointCount.toNat
  let result := assignCells index.pointCount.toNat groups
  reject (kUnassignedCell ∈ result.nodeToCell)
    (.logicError "global graph Cell assignment does not cover every node")
  .ok result

/-- An element of an array in the mapped file. -/
def mappedWord (width : Nat) (file : List UInt8) (offset position : Nat) : Except Error Nat := do
  reject (file.length < offset + (position + 1) * width) .outOfBounds
  .ok (decodeLittle (subspan file (offset + position * width) width))

/-- `offsets[node]`. -/
def mappedOffset (file : List UInt8) (header : TopologyHeader) (node : Nat) : Except Error UInt64 :=
  UInt64.ofNat <$> mappedWord 8 file header.offsets.offset.toNat node

/-- An element of `adjacency`, which must be a node. -/
def mappedNeighbor (file : List UInt8) (header : TopologyHeader) (edge : Nat) :
    Except Error Nat := do
  let neighbor ← mappedWord 4 file header.adjacency.offset.toNat edge
  reject (header.pointCount.toNat ≤ neighbor)
    (.invalidArgument "mapped raw topology contains an invalid neighbor ID")
  .ok neighbor

def mappedNeighbors (file : List UInt8) (header : TopologyHeader) (node : Nat) :
    Except Error (List Nat) := do
  let first ← mappedOffset file header node
  let last ← mappedOffset file header (node + 1)
  reject (last < first ∨ header.edgeCount < last)
    (.invalidArgument "mapped raw topology contains an invalid neighbor range")
  (List.range' first.toNat (last.toNat - first.toNat)).mapM (mappedNeighbor file header)

/-- The header does not fit the mapped file. The products of the counts are not checked. -/
def Incompatible (file : List UInt8) (header : TopologyHeader) : Prop :=
  header.encoding ≠ .rawU32 ∨ header.pointCount = 0 ∨
    2 ^ 32 - 1 < header.pointCount.toNat ∨
    header.offsets.bytes ≠ (header.pointCount + 1) * 8 ∨
    header.adjacency.bytes ≠ header.edgeCount * 4 ∨
    file.length < header.offsets.offset.toNat ∨
    file.length - header.offsets.offset.toNat < header.offsets.bytes.toNat ∨
    file.length < header.adjacency.offset.toNat ∨
    file.length - header.adjacency.offset.toNat < header.adjacency.bytes.toNat ∨
    header.offsets.offset.toNat % 8 ≠ 0 ∨ header.adjacency.offset.toNat % 4 ≠ 0

instance (file : List UInt8) (header : TopologyHeader) : Decidable (Incompatible file header) :=
  inferInstanceAs (Decidable (_ ∨ _))

/-- The file is mapped; a path that is empty is `none`. -/
def buildIoGlobalGraphCellAssignmentFromArtifact (topology : Option (List UInt8))
    (targetSize : UInt32) : Except Error GlobalGraphCellAssignment := do
  let unusable : Error :=
    .invalidArgument "mapped global graph Cell assignment requires an artifact and target"
  reject (targetSize = 0) unusable
  let file ← match topology with
    | some file => .ok file
    | none => .error unusable
  let header ← parseHeader (file.take (min file.length kTopologyHeaderBytes))
  reject (Incompatible file header)
    (.invalidArgument "mapped global graph Cell assignment requires compatible raw topology")
  let front ← mappedOffset file header 0
  let back ← mappedOffset file header header.pointCount.toNat
  reject (front ≠ 0 ∨ back ≠ header.edgeCount)
    (.invalidArgument "mapped raw topology offsets do not cover adjacency")
  let groups ← tryGroupNodes (mappedNeighbors file header)
    (permitCell "mapped global graph Cell count exceeds uint32") targetSize.toNat
    header.pointCount.toNat
  .ok (assignCells header.pointCount.toNat groups)

theorem mappedWord_section {width offset position value : Nat} {file : List UInt8}
    {values : List Nat} (hvalues : ∀ value ∈ values, value < 256 ^ width)
    (hfits : offset + values.length * width ≤ file.length)
    (hsection : subspan file offset (values.length * width) = values.flatMap (encodeLittle width))
    (hvalue : values[position]? = some value) :
    mappedWord width file offset position = .ok value := by
  have hposition := (List.getElem_of_getElem? hvalue).1
  have hinside : (position + 1) * width ≤ values.length * width :=
    Nat.mul_le_mul_right width hposition
  have hrow : (values.map (encodeLittle width))[position]? = some (encodeLittle width value) := by
    rw [List.getElem?_map, hvalue]
    rfl
  have hwidth : ∀ row ∈ values.map (encodeLittle width), row.length = width := by
    intro row hmem
    obtain ⟨other, -, rfl⟩ := List.mem_map.mp hmem
    exact length_encodeLittle width other
  have hword : subspan file (offset + position * width) width = encodeLittle width value := by
    rw [Nat.succ_mul] at hinside
    rw [← subspan_subspan file hinside, hsection, List.flatMap_def]
    exact subspan_flatten hwidth hrow
  rw [mappedWord, hword, decodeLittle_encodeLittle_of_lt (hvalues _ (List.mem_of_getElem? hvalue))]
  exact bind_ok.mpr ⟨(), reject_ok.mpr (by omega), rfl⟩

theorem permitCell_ok (message : String) {pointCount : Nat} (hsmall : pointCount < 2 ^ 32) :
    ∀ count < pointCount, permitCell message count = .ok () := by
  intro count hcount
  rw [permitCell, reject_ok]
  omega

/-- Every node has one Cell, and every Cell has some nodes but no more than may be in it. -/
structure CellsAssigned (pointCount target : Nat) (assignment : GlobalGraphCellAssignment) :
    Prop where
  covered : assignment.nodeToCell.length = pointCount
  known : ∀ cell ∈ assignment.nodeToCell, cell < assignment.cellCount
  sizes : ∀ cell < assignment.cellCount,
    0 < (labelled cell assignment.nodeToCell).length ∧
      (labelled cell assignment.nodeToCell).length ≤ target

section Groups

variable {target pointCount : Nat} {groups : List (List Nat)}

theorem mem_nodeToCell (hgroups : Partitions target pointCount groups) {cell : UInt32}
    (hcell : cell ∈ (assignCells pointCount groups).nodeToCell) :
    ∃ number < groups.length, cell = .ofNat number := by
  obtain ⟨node, hnode⟩ := List.mem_iff_getElem?.mp hcell
  have hless := (List.getElem_of_getElem? hnode).1
  rw [assignCells, length_labelGroups, List.length_replicate] at hless
  obtain ⟨number, group, hgroup, hmem⟩ := hgroups.exists_group hless
  refine ⟨number, (List.getElem_of_getElem? hgroup).1, ?_⟩
  rw [assignCells, getElem?_labelGroups _ _ (by rwa [List.length_replicate]) hgroups.nodup hgroup
    hmem, Nat.zero_add] at hnode
  exact (Option.some.inj hnode).symm

theorem assignCells_assigned (hgroups : Partitions target pointCount groups)
    (hsmall : pointCount < 2 ^ 32) :
    CellsAssigned pointCount target (assignCells pointCount groups) := by
  have hnumbers : ∀ number < groups.length, (UInt32.ofNat number).toNat = number :=
    fun number hnumber => toNat_cellNumber hgroups hsmall (Nat.le_of_lt hnumber)
  have hcount : (assignCells pointCount groups).cellCount.toNat = groups.length :=
    toNat_cellNumber hgroups hsmall (Nat.le_refl _)
  refine ⟨?_, ?_, ?_⟩
  · rw [assignCells, length_labelGroups, List.length_replicate]
  · intro cell hcell
    obtain ⟨number, hnumber, rfl⟩ := mem_nodeToCell hgroups hcell
    rwa [UInt32.lt_iff_toNat_lt, hnumbers number hnumber, hcount]
  · intro cell hcell
    rw [UInt32.lt_iff_toNat_lt, hcount] at hcell
    have hapart : ∀ first < groups.length, ∀ second < groups.length,
        UInt32.ofNat first = UInt32.ofNat second → first = second := by
      intro first hfirst second hsecond hsame
      rw [← hnumbers first hfirst, hsame, hnumbers second hsecond]
    have hgroup := List.getElem?_eq_getElem hcell
    have hperm := hgroups.labelled_perm hapart
      (List.length_replicate : (List.replicate pointCount kUnassignedCell).length = _) hgroup
    rw [UInt32.ofNat_toNat] at hperm
    rw [show labelled cell (assignCells pointCount groups).nodeToCell = labelled cell
      (labelGroups UInt32.ofNat 0 groups (List.replicate pointCount kUnassignedCell)) from rfl,
      hperm.length_eq]
    exact hgroups.sizes _ (List.getElem_mem hcell)

theorem unassigned_notMem (hgroups : Partitions target pointCount groups)
    (hsmall : pointCount < 2 ^ 32) :
    kUnassignedCell ∉ (assignCells pointCount groups).nodeToCell := by
  intro hmem
  obtain ⟨number, hnumber, hcell⟩ := mem_nodeToCell hgroups hmem
  have hback := toNat_cellNumber hgroups hsmall (Nat.le_of_lt hnumber)
  have hcount := hgroups.length_le
  rw [← hcell, kUnassignedCell] at hback
  change 2 ^ 32 - 1 = number at hback
  omega

end Groups

/-- The lists of a graph can be read from an index. -/
structure LoadedIndex.Holds (index : LoadedIndex) (graph : PostLinkGraph) : Prop where
  pointCount : index.pointCount.toNat = graph.pointCount
  neighbors : ∀ (node : Nat) (list : List UInt32), graph.neighbors[node]? = some list →
    index.neighbors node = .ok list

section Graph

variable {graph : PostLinkGraph} {targetSize : UInt32}

theorem list_of_lt {node : Nat} (hnode : node < graph.pointCount) :
    ∃ list, graph.neighbors[node]? = some list ∧ graph.adjacency node = list.map UInt32.toNat ∧
      ∀ neighbor ∈ list, neighbor.toNat < graph.pointCount := by
  have hlist := List.getElem?_eq_getElem (show node < graph.neighbors.length from hnode)
  refine ⟨_, hlist, ?_, graph.inside _ (List.mem_of_getElem? hlist)⟩
  rw [PostLinkGraph.adjacency, List.getD_eq_getElem?_getD, hlist, Option.getD_some]

theorem graph_partitions (graph : PostLinkGraph) (htarget : targetSize ≠ 0) :
    Partitions targetSize.toNat graph.pointCount
      (groupNodes graph.adjacency targetSize.toNat graph.pointCount) := by
  have hpositive : 1 ≤ targetSize.toNat :=
    Nat.one_le_iff_ne_zero.mpr fun hzero => htarget (UInt32.toNat_inj.mp hzero)
  exact groupNodes_partitions hpositive fun _ _ _ hneighbor => graph.adjacency_lt hneighbor

theorem tryGroupNodes_graph {neighbors : Nat → Except Error (List Nat)} (message : String)
    (htarget : targetSize ≠ 0)
    (hread : ∀ node < graph.pointCount, neighbors node = .ok (graph.adjacency node)) :
    tryGroupNodes neighbors (permitCell message) targetSize.toNat graph.pointCount =
      .ok (groupNodes graph.adjacency targetSize.toNat graph.pointCount) := by
  have hpositive : 1 ≤ targetSize.toNat :=
    Nat.one_le_iff_ne_zero.mpr fun hzero => htarget (UInt32.toNat_inj.mp hzero)
  exact tryGroupNodes_eq hpositive (fun _ _ _ hneighbor => graph.adjacency_lt hneighbor) hread
    (permitCell_ok message graph.small)

theorem buildIoGlobalGraphCellAssignment_ok {index : LoadedIndex} (hindex : index.Holds graph)
    (hsome : graph.neighbors ≠ []) (htarget : targetSize ≠ 0) :
    buildIoGlobalGraphCellAssignment index targetSize = .ok (assignCells graph.pointCount
      (groupNodes graph.adjacency targetSize.toNat graph.pointCount)) := by
  have hread : ∀ node < graph.pointCount, index.markedNeighbors node =
      .ok (graph.adjacency node) := by
    intro node hnode
    obtain ⟨list, hlist, hadjacency, hinside⟩ := list_of_lt hnode
    simp only [LoadedIndex.markedNeighbors, bind_ok, reject_ok]
    refine ⟨list, hindex.neighbors node list hlist, (), ?_, by rw [hadjacency]⟩
    rintro ⟨neighbor, hneighbor, hout⟩
    rw [hindex.pointCount] at hout
    exact absurd (hinside neighbor hneighbor) (Nat.not_lt.mpr hout)
  have hpoints : 0 < graph.pointCount := List.length_pos_of_ne_nil hsome
  have hsmall : graph.pointCount < 2 ^ 32 := graph.small
  have hgroups := tryGroupNodes_graph "global graph Cell count exceeds uint32" htarget hread
  simp only [buildIoGlobalGraphCellAssignment, bind_ok, reject_ok, hindex.pointCount]
  refine ⟨(), ?_, _, hgroups, (), unassigned_notMem (graph_partitions graph htarget) hsmall, rfl⟩
  rintro (hzero | hnone | hlarge)
  · exact htarget hzero
  · have hcount := hindex.pointCount
    rw [hnone] at hcount
    exact absurd hcount hpoints.ne
  · omega

end Graph

section Artifact

variable {input : BuildInput} {artifacts : Artifacts} {graph : PostLinkGraph} {targetSize : UInt32}

/-- The arrays of an artifact that was written, as they are in the file. -/
structure Mapped (artifacts : Artifacts) (header : TopologyHeader) : Prop where
  offsets : ∀ {node : Nat} {offset : UInt64},
    (neighborOffsets artifacts.contents.lists)[node]? = some offset →
      mappedOffset artifacts.topology header node = .ok offset
  adjacency : ∀ {edge : Nat} {target : UInt32},
    artifacts.contents.lists.flatten[edge]? = some target →
      target.toNat < header.pointCount.toNat →
        mappedNeighbor artifacts.topology header edge = .ok target.toNat

theorem sections_fit (hready : Ready input artifacts) :
    (artifacts.contents.header input.layout).offsets.offset.toNat +
        (artifacts.contents.lists.length + 1) * 8 ≤ artifacts.topology.length ∧
      (artifacts.contents.header input.layout).adjacency.offset.toNat +
        artifacts.contents.lists.flatten.length * 4 ≤ artifacts.topology.length := by
  have hcounts := hready.counts
  have hfound := sections_found hready.written
  obtain ⟨hoffsetBytes, hadjacencyBytes, -⟩ := hcounts.lengths
  have hsize := hready.written.size
  simp only [Sections.fileSize, Sections.gatewayDirectoryOffset, Sections.prefetchDirectoryOffset,
    Sections.cellDirectoryOffset, Sections.directoryOffset] at hsize
  rw [hfound.offsets.2.1, hfound.adjacency.2.1, hcounts.lists, ← hoffsetBytes, ← hadjacencyBytes]
  rw [Sections.adjacencyOffset] at hsize ⊢
  constructor <;> omega

theorem Ready.mapped (hready : Ready input artifacts) :
    Mapped artifacts (artifacts.contents.header input.layout) := by
  have hcounts := hready.counts
  have hfound := sections_found hready.written
  obtain ⟨hoffsetBytes, hadjacencyBytes, -⟩ := hcounts.lengths
  obtain ⟨hoffsets, -, hoffsetsSize⟩ := hfound.offsets
  obtain ⟨hadjacency, -, hadjacencySize⟩ := hfound.adjacency
  obtain ⟨hoffsetsFit, hadjacencyFit⟩ := sections_fit hready
  constructor
  · intro node offset hoffset
    have hsection : subspan artifacts.topology
        (artifacts.contents.header input.layout).offsets.offset.toNat
        (((neighborOffsets artifacts.contents.lists).map UInt64.toNat).length * 8) =
        ((neighborOffsets artifacts.contents.lists).map UInt64.toNat).flatMap
          (encodeLittle 8) := by
      rw [TopologySection.read, hoffsetsSize, hoffsetBytes, ← hcounts.lists] at hoffsets
      rw [List.length_map, length_neighborOffsets, hoffsets, List.flatMap_map]
      rfl
    have hvalue : ((neighborOffsets artifacts.contents.lists).map UInt64.toNat)[node]? =
        some offset.toNat := by
      rw [List.getElem?_map, hoffset]
      rfl
    have hbounds : ∀ value ∈ (neighborOffsets artifacts.contents.lists).map UInt64.toNat,
        value < 256 ^ 8 := by
      intro value hmem
      obtain ⟨offset, -, rfl⟩ := List.mem_map.mp hmem
      exact offset.toNat_lt
    have hword := mappedWord_section hbounds (by simpa [length_neighborOffsets]) hsection hvalue
    rw [mappedOffset, hword]
    exact congrArg Except.ok UInt64.ofNat_toNat
  · intro edge target htarget hinside
    have hsection : subspan artifacts.topology
        (artifacts.contents.header input.layout).adjacency.offset.toNat
        ((artifacts.contents.lists.flatten.map UInt32.toNat).length * 4) =
        (artifacts.contents.lists.flatten.map UInt32.toNat).flatMap (encodeLittle 4) := by
      rw [TopologySection.read, hadjacencySize, hadjacencyBytes] at hadjacency
      rw [List.length_map, hadjacency, List.flatMap_map]
      rfl
    have hvalue : (artifacts.contents.lists.flatten.map UInt32.toNat)[edge]? =
        some target.toNat := by
      rw [List.getElem?_map, htarget]
      rfl
    have hbounds : ∀ value ∈ artifacts.contents.lists.flatten.map UInt32.toNat,
        value < 256 ^ 4 := by
      intro value hmem
      obtain ⟨target, -, rfl⟩ := List.mem_map.mp hmem
      exact target.toNat_lt
    have hword := mappedWord_section hbounds (by rwa [List.length_map]) hsection hvalue
    rw [mappedNeighbor, hword]
    exact bind_ok.mpr ⟨_, rfl, bind_ok.mpr ⟨(), reject_ok.mpr (Nat.not_le.mpr hinside), rfl⟩⟩

theorem mappedNeighbors_ok {header : TopologyHeader} (hmapped : Mapped artifacts header)
    (hgraph : graph.neighbors = artifacts.contents.lists)
    (hpoints : header.pointCount.toNat = graph.pointCount)
    (hedges : header.edgeCount.toNat = artifacts.contents.lists.flatten.length) {node : Nat}
    (hnode : node < graph.pointCount) :
    mappedNeighbors artifacts.topology header node = .ok (graph.adjacency node) := by
  obtain ⟨list, hlist, hadjacency, hinside⟩ := list_of_lt hnode
  rw [hgraph] at hlist
  have hsmall : artifacts.contents.lists.flatten.length < 2 ^ 64 := hedges ▸ UInt64.toNat_lt _
  obtain ⟨first, last, hfirst, hlast, hstart, hstop, hend⟩ := neighborOffsets_next hsmall hlist
  have hfound : subspan artifacts.contents.lists.flatten first.toNat list.length = list := by
    rw [hstart]
    exact subspan_flatten_take hlist
  simp only [mappedNeighbors, bind_ok, reject_ok, hadjacency, mapM_eq_ok]
  refine ⟨first, hmapped.offsets hfirst, last, hmapped.offsets hlast, (), ?_, ?_⟩
  · rw [UInt64.lt_iff_toNat_lt, UInt64.lt_iff_toNat_lt, hedges]
    omega
  · rw [hstop, Nat.add_sub_cancel_left]
    refine List.forall₂_iff_get.mpr ⟨by simp, fun edge hedge _ => ?_⟩
    have hless : edge < list.length := by simpa using hedge
    have htarget : artifacts.contents.lists.flatten[first.toNat + edge]? = some list[edge] := by
      have hplace : (subspan artifacts.contents.lists.flatten first.toNat list.length)[edge]? =
          some list[edge] := by
        rw [hfound]
        exact List.getElem?_eq_getElem hless
      rwa [subspan, List.getElem?_take_of_lt hless, List.getElem?_drop] at hplace
    have hread := hmapped.adjacency htarget
      (hpoints ▸ hinside list[edge] (List.getElem_mem hless))
    simpa using hread

theorem parseHeader_front (hready : Ready input artifacts) :
    parseHeader (artifacts.topology.take (min artifacts.topology.length kTopologyHeaderBytes)) =
      .ok (artifacts.contents.header input.layout) := by
  have hheader := parseHeader_serialize (artifacts.contents.writableHeader hready.layout) []
  have hlength := length_serializeHeader (artifacts.contents.header input.layout)
  rw [List.append_nil] at hheader
  rw [hready.written.topology, Nat.min_eq_right (by rw [List.length_append]; omega), ← hlength,
    List.take_left]
  exact hheader

theorem buildIoGlobalGraphCellAssignmentFromArtifact_ok (hready : Ready input artifacts)
    (hgraph : graph.neighbors = artifacts.contents.lists) (htarget : targetSize ≠ 0) :
    buildIoGlobalGraphCellAssignmentFromArtifact (some artifacts.topology) targetSize =
      .ok (assignCells graph.pointCount
        (groupNodes graph.adjacency targetSize.toNat graph.pointCount)) := by
  have hcounts := hready.counts
  have hfound := sections_found hready.written
  have hmapped := hready.mapped
  obtain ⟨hoffsetBytes, hadjacencyBytes, -⟩ := hcounts.lengths
  obtain ⟨-, hoffsetsAt, hoffsetsSize⟩ := hfound.offsets
  obtain ⟨-, hadjacencyAt, hadjacencySize⟩ := hfound.adjacency
  have hedges := hcounts.exact.1
  have hpoints : (artifacts.contents.header input.layout).pointCount.toNat = graph.pointCount := by
    rw [PostLinkGraph.pointCount, hgraph, hcounts.lists]
    rfl
  have hsmall : graph.pointCount < 2 ^ 32 := graph.small
  have hlimit := hcounts.limit
  have hsize := hready.written.size
  have hlists : graph.pointCount = artifacts.contents.lists.length := by
    rw [PostLinkGraph.pointCount, hgraph]
  simp only [Sections.fileSize, Sections.gatewayDirectoryOffset, Sections.prefetchDirectoryOffset,
    Sections.cellDirectoryOffset, Sections.directoryOffset, Sections.adjacencyOffset,
    fileSizeLimit, kTopologyHeaderBytes] at hlimit hsize hoffsetsAt hadjacencyAt
  have hgroups := tryGroupNodes_graph "mapped global graph Cell count exceeds uint32" htarget
    fun node hnode => mappedNeighbors_ok hmapped hgraph hpoints hedges hnode
  have hfront : (neighborOffsets artifacts.contents.lists)[0]? = some 0 :=
    getElem?_neighborOffsets (Nat.zero_le _)
  have hback : (neighborOffsets artifacts.contents.lists)[graph.pointCount]? =
      some (artifacts.contents.header input.layout).edgeCount := by
    rw [hlists, getElem?_neighborOffsets (Nat.le_refl _), List.take_length, ← hedges,
      UInt64.ofNat_toNat]
  simp only [buildIoGlobalGraphCellAssignmentFromArtifact, bind_ok, reject_ok]
  refine ⟨(), htarget, _, rfl, _, parseHeader_front hready, (), ?_, 0, hmapped.offsets hfront, _,
    hpoints ▸ hmapped.offsets hback, (), by simp, ?_⟩
  · have hoffsetsWide : (artifacts.contents.header input.layout).offsets.bytes =
        ((artifacts.contents.header input.layout).pointCount + 1) * 8 := by
      apply UInt64.toNat_inj.mp
      rw [hoffsetsSize, hoffsetBytes, UInt64.toNat_mul, UInt64.toNat_add, hpoints]
      change _ = (graph.pointCount + 1) % 2 ^ 64 * 8 % 2 ^ 64
      rw [← hcounts.lists, ← hlists]
      omega
    have hadjacencyWide : (artifacts.contents.header input.layout).adjacency.bytes =
        (artifacts.contents.header input.layout).edgeCount * 4 := by
      apply UInt64.toNat_inj.mp
      rw [hadjacencySize, hadjacencyBytes, UInt64.toNat_mul, hedges]
      exact (Nat.mod_eq_of_lt (by omega)).symm
    have hnone : (artifacts.contents.header input.layout).pointCount ≠ 0 := hready.points
    rintro (hencoding | hempty | hlarge | hwide | hwide | hbehind | hshort | hbehind | hshort |
      hodd | hodd)
    · exact hencoding rfl
    · exact hnone hempty
    · omega
    · exact hwide hoffsetsWide
    · exact hwide hadjacencyWide
    all_goals omega
  · rw [hpoints]
    exact ⟨_, hgroups, rfl⟩

theorem Ready.holds (hready : Ready input artifacts)
    (hgraph : graph.neighbors = artifacts.contents.lists) {paged : Bool}
    (hpaged : paged = true → artifacts.PagesWhole) :
    (artifacts.reloaded input.layout paged).Holds graph where
  pointCount := by
    rw [PostLinkGraph.pointCount, hgraph, hready.counts.lists]
    rfl
  neighbors := by
    rw [hgraph]
    exact (hready.neighbors_iff paged).mpr hpaged

/-- The builder of the sidecar, the loaded index and the mapped artifact have the same Cells. -/
theorem globalGraphCells_agree {compress : Option Compress} (hraw : input.encoding = .rawU32)
    (hbuild : build input compress = .ok artifacts)
    (hgraph : graph.neighbors = artifacts.contents.lists) {index : LoadedIndex}
    (hindex : index.Holds graph) (vectors : List Single) {result : BuildResult}
    (hresult : ReadyForCells graph result) (htarget : result.index.config.cellTargetSize ≠ 0) :
    ∃ built assignment, buildGlobalGraphLocalCells graph vectors result = .ok built ∧
      buildIoGlobalGraphCellAssignment index result.index.config.cellTargetSize =
        .ok assignment ∧
      buildIoGlobalGraphCellAssignmentFromArtifact (some artifacts.topology)
        result.index.config.cellTargetSize = .ok assignment ∧
      built.index.nodeToCell = assignment.nodeToCell ∧
      built.index.cells.length = assignment.cellCount.toNat ∧
      CellsAssigned graph.pointCount result.index.config.cellTargetSize.toNat assignment := by
  have hready := build_ready hraw hbuild
  have hgroups := graph_partitions graph htarget
  have hsome : graph.neighbors ≠ [] := by
    intro hnone
    have hcount := hready.counts.lists
    rw [← hgraph, hnone, List.length_nil] at hcount
    exact hready.points (UInt64.toNat_inj.mp hcount.symm)
  have hpositive : 1 ≤ result.index.config.cellTargetSize.toNat :=
    Nat.one_le_iff_ne_zero.mpr fun hzero => htarget (UInt32.toNat_inj.mp hzero)
  obtain ⟨built, hbuilt, hcells, hlabels⟩ := buildGlobalGraphLocalCells_ok hresult vectors hpositive
  refine ⟨built, _, hbuilt, buildIoGlobalGraphCellAssignment_ok hindex hsome htarget,
    buildIoGlobalGraphCellAssignmentFromArtifact_ok hready hgraph htarget, ?_, ?_,
    assignCells_assigned hgroups graph.small⟩
  · rw [hlabels]
    exact hgroups.labelGroups_eq _ hresult.nodeToCell List.length_replicate
  · rw [hcells]
    exact (toNat_cellNumber hgroups graph.small (Nat.le_refl _)).symm

end Artifact

/-- Two nodes that point at each other. -/
def pairGraph : PostLinkGraph where
  neighbors := [[1], [0]]
  small := by decide
  inside := by simp

/-- The Index of the pair before it has Cells. -/
def pairResult : BuildResult where
  index := { onePair with cells := [] }
  packetNodeIds := []

theorem globalGraphCells_agree_pair : ∃ artifacts, build (pairInput .originalId) none =
    .ok artifacts ∧
      ∃ built assignment, buildGlobalGraphLocalCells pairGraph [.zero, .zero] pairResult =
        .ok built ∧
      buildIoGlobalGraphCellAssignment (artifacts.reloaded .originalId false)
        pairResult.index.config.cellTargetSize = .ok assignment ∧
      buildIoGlobalGraphCellAssignmentFromArtifact (some artifacts.topology)
        pairResult.index.config.cellTargetSize = .ok assignment ∧
      built.index.nodeToCell = assignment.nodeToCell ∧
      built.index.cells.length = assignment.cellCount.toNat ∧
      CellsAssigned pairGraph.pointCount pairResult.index.config.cellTargetSize.toNat
        assignment := by
  obtain ⟨artifacts, hbuild, hlists, -⟩ := build_plainPair
  have hready := build_ready rfl hbuild
  have hgraph : pairGraph.neighbors = artifacts.contents.lists := hlists.symm
  have hholds := @Ready.holds _ _ pairGraph hready hgraph false (by nofun)
  have hresult : ReadyForCells pairGraph pairResult :=
    ⟨by decide, rfl, rfl, rfl, by decide⟩
  exact ⟨artifacts, hbuild, globalGraphCells_agree rfl hbuild hgraph hholds _ hresult (by decide)⟩

end SkipCell.IoIndex

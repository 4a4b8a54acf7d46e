import SkipCell.DiskIndex.GraphView

/-! # Reading back what was laid out

Base vectors and a graph that match: the disk index made of them gives every node's vector
and neighbors back to both of its readers.
-/

namespace SkipCell.DiskIndex

open Foundation IoIndex

/-! ## The inputs -/

structure VectorSet (element : Element) where
  ndims : UInt32
  vectors : List (List UInt8)
  count_lt : vectors.length < 2 ^ 32
  vectorWidth : ∀ vector ∈ vectors, vector.length = element.size * ndims.toNat

namespace VectorSet

variable {element : Element} (base : VectorSet element)

def npts : Nat := base.vectors.length

def file : List UInt8 :=
  encodeLittle 4 base.npts ++ encodeLittle 4 base.ndims.toNat ++ base.vectors.flatten

end VectorSet

structure GraphFile where
  width : UInt32
  medoid : UInt32
  frozenNum : UInt64
  neighbors : List (List UInt32)

/-- A list with its length in front of it. -/
def neighborhoodBytes (neighbors : List UInt32) : List UInt8 :=
  encodeLittle 4 neighbors.length ++ neighbors.flatMap Sidecar.appendU32Le

namespace GraphFile

variable (graph : GraphFile)

def body : List UInt8 := graph.neighbors.flatMap neighborhoodBytes

def size : Nat := 24 + graph.body.length

def file : List UInt8 :=
  encodeLittle 8 graph.size ++ (encodeLittle 4 graph.width.toNat ++
    (encodeLittle 4 graph.medoid.toNat ++ (encodeLittle 8 graph.frozenNum.toNat ++ graph.body)))

@[simp]
theorem length_file : graph.file.length = graph.size := by
  simp only [file, size, List.length_append, length_encodeLittle]
  omega

end GraphFile

/-- The header that both inputs make up. -/
def layoutHeader {element : Element} (base : VectorSet element) (graph : GraphFile) :
    LayoutHeader where
  npts := base.npts
  ndims := base.ndims.toNat
  width := graph.width.toNat
  medoid := graph.medoid.toNat
  frozenNum := graph.frozenNum.toNat

/-- The graph is one of these vectors, and its lists keep to its width. -/
structure Matches {element : Element} (base : VectorSet element) (graph : GraphFile) : Prop where
  count : graph.neighbors.length = base.npts
  degree : ∀ list ∈ graph.neighbors, list.length ≤ graph.width.toNat

/-- What the readers ask of a graph besides. -/
structure Readable {element : Element} (base : VectorSet element) (graph : GraphFile) : Prop where
  width : graph.width.toNat ≤ maxGraphDegree
  medoid : graph.medoid.toNat < base.npts
  frozenNum : graph.frozenNum.toNat ≤ 1
  degree : ∀ list ∈ graph.neighbors, list ≠ []
  targets : ∀ list ∈ graph.neighbors, ∀ target ∈ list, target.toNat < base.npts

/-- The PQ files that go with the vectors. Bytes are the codes of a disk PQ. -/
def PqShape.Describes {element : Element} (shape : PqShape) (base : VectorSet element) : Prop :=
  shape.numPoints = base.npts ∧
    match element with
    | .float => shape.diskPqNumChunks = none ∧ shape.dataDim = base.ndims.toNat
    | .uint8 => shape.diskPqNumChunks = some base.ndims.toNat

def GraphShape.Describes {element : Element} (shape : GraphShape) (base : VectorSet element) :
    Prop :=
  shape.pointCount = base.npts ∧
    match element with
    | .float => shape.diskPq = false ∧ shape.dimension = base.ndims.toNat
    | .uint8 => shape.diskPq = true

/-! ## Writing -/

def nodeRecord (element : Element) (header : LayoutHeader) (vector : List UInt8)
    (neighbors : List UInt32) : List UInt8 :=
  padTo 0 (header.maxNodeLen element) (vector ++ neighborhoodBytes neighbors)

theorem length_neighborhoodBytes (neighbors : List UInt32) :
    (neighborhoodBytes neighbors).length = (neighbors.length + 1) * 4 := by
  have hlists : ∀ neighbors : List UInt32,
      (neighbors.flatMap Sidecar.appendU32Le).length = neighbors.length * 4 := by
    intro neighbors
    induction neighbors with
    | nil => rfl
    | cons neighbor neighbors ih =>
      rw [List.flatMap_cons, List.length_append, ih, Sidecar.appendU32Le, length_encodeLittle,
        List.length_cons]
      omega
  rw [neighborhoodBytes, List.length_append, length_encodeLittle, hlists]
  omega

theorem readZeroed_append {width : Nat} {bytes rest : List UInt8} (hwidth : bytes.length = width) :
    readZeroed width (bytes ++ rest) = (bytes, rest) := by
  rw [readZeroed, List.take_left' hwidth, List.drop_left' hwidth, padTo, hwidth, Nat.sub_self,
    List.replicate_zero, List.append_nil]

theorem readCached_append {width : Nat} {bytes rest : List UInt8} (hwidth : bytes.length = width) :
    readCached width (bytes ++ rest) = .ok (bytes, rest) := by
  have hlong : ¬ (bytes ++ rest).length < width := by
    rw [List.length_append]
    omega
  rw [readCached, if_neg hlong, List.take_left' hwidth, List.drop_left' hwidth]

theorem readNeighborhood_append {assertions : Bool} {width : Nat} {neighbors : List UInt32}
    {rest : List UInt8} (hdegree : neighbors.length ≤ width) (hwidth : width < 2 ^ 32)
    (hsome : neighbors ≠ []) :
    readNeighborhood assertions width (neighborhoodBytes neighbors ++ rest) =
      .ok (neighborhoodBytes neighbors, rest) := by
  have hcount : decodeLittle (encodeLittle 4 neighbors.length) = neighbors.length :=
    decodeLittle_encodeLittle_of_lt (hdegree.trans_lt hwidth)
  have hlists : (neighbors.flatMap Sidecar.appendU32Le).length = neighbors.length * 4 := by
    have hlength := length_neighborhoodBytes neighbors
    rw [neighborhoodBytes, List.length_append, length_encodeLittle] at hlength
    omega
  have hpositive := List.length_pos_iff.mpr hsome
  have hkept : min neighbors.length width = neighbors.length := Nat.min_eq_left hdegree
  rw [readNeighborhood, neighborhoodBytes, List.append_assoc,
    readZeroed_append (length_encodeLittle 4 _)]
  simp only [hcount, hkept, readZeroed_append hlists, Nat.sub_eq_zero_of_le hdegree]
  rw [reject, if_neg (by omega), reject, if_neg (by omega)]
  rfl

theorem writeNodes_all {element : Element} (assertions : Bool) (header : LayoutHeader)
    {vectors : List (List UInt8)} {lists : List (List UInt32)}
    (hvectors : ∀ vector ∈ vectors, vector.length = element.size * header.ndims)
    (hdegree : ∀ list ∈ lists, list.length ≤ header.width) (hsome : ∀ list ∈ lists, list ≠ [])
    (hwidth : header.width < 2 ^ 32) (hcount : lists.length = vectors.length) :
    writeNodes assertions element header vectors.length
      ⟨vectors.flatten, lists.flatMap neighborhoodBytes⟩ =
        .ok (List.zipWith (nodeRecord element header) vectors lists) := by
  induction vectors generalizing lists with
  | nil => rfl
  | cons vector vectors ih =>
    cases lists with
    | nil => cases hcount
    | cons list lists =>
      obtain ⟨hvector, hvectors⟩ := List.forall_mem_cons.mp hvectors
      obtain ⟨hlist, hlists⟩ := List.forall_mem_cons.mp hdegree
      obtain ⟨hone, hothers⟩ := List.forall_mem_cons.mp hsome
      have hrest := ih hvectors hlists hothers (Nat.succ.inj hcount)
      rw [List.length_cons, writeNodes, writeNode, List.flatMap_cons, List.flatten_cons,
        readNeighborhood_append hlist hwidth hone]
      change ((readCached _ _ >>= _) >>= _) = _
      rw [readCached_append hvector]
      change (writeNodes _ _ _ _ _ >>= _) = _
      rw [hrest]
      rfl

section Written

variable {element : Element} {base : VectorSet element} {graph : GraphFile}

def diskRecords (base : VectorSet element) (graph : GraphFile) : List (List UInt8) :=
  List.zipWith (nodeRecord element (layoutHeader base graph)) base.vectors graph.neighbors

theorem createDiskLayout_eq (hmatches : Matches base graph)
    (hdegree : ∀ list ∈ graph.neighbors, list ≠ []) (assertions : Bool)
    (hsize : graph.size < 2 ^ 64)
    (hfits : (layoutHeader base graph).diskIndexFileSize element < Sidecar.fileSizeLimit) :
    createDiskLayout assertions element base.file graph.file =
      .ok (diskFile element (layoutHeader base graph) (diskRecords base graph)) := by
  have hnodes := writeNodes_all assertions (layoutHeader base graph) base.vectorWidth
    hmatches.degree hdegree graph.width.toNat_lt hmatches.count
  have hsize := Reads.word Error.outOfBounds (show graph.size < 256 ^ 8 from hsize)
  have hwidth := Reads.word Error.outOfBounds
    (show graph.width.toNat < 256 ^ 4 from graph.width.toNat_lt)
  have hmedoid := Reads.word Error.outOfBounds
    (show graph.medoid.toNat < 256 ^ 4 from graph.medoid.toNat_lt)
  have hnpts : decodeLittle (encodeLittle 4 base.npts) = base.npts :=
    decodeLittle_encodeLittle_of_lt base.count_lt
  have hndims : decodeLittle (encodeLittle 4 base.ndims.toNat) = base.ndims.toNat :=
    decodeLittle_encodeLittle_of_lt base.ndims.toNat_lt
  have hfrozen : decodeLittle (encodeLittle 8 graph.frozenNum.toNat) = graph.frozenNum.toNat :=
    decodeLittle_encodeLittle_of_lt graph.frozenNum.toNat_lt
  simp only [createDiskLayout, bind_ok, reject_ok, not_not]
  refine ⟨(encodeLittle 4 base.npts, encodeLittle 4 base.ndims.toNat ++ base.vectors.flatten), ?_,
    _, readCached_append (length_encodeLittle 4 base.ndims.toNat), _, hsize _, (),
    graph.length_file.symm, _, hwidth _, _, hmedoid _, ?_⟩
  · rw [VectorSet.file, List.append_assoc, readCached_append (length_encodeLittle 4 base.npts)]
  · simp only [readZeroed_append (length_encodeLittle 8 _), hnpts, hndims, hfrozen]
    exact ⟨_, hnodes, (), Nat.not_le.mpr hfits, rfl⟩

theorem length_flatMap_le {α : Type} {encode : α → List UInt8} {bound : Nat} {values : List α}
    (hbound : ∀ value ∈ values, (encode value).length ≤ bound) :
    (values.flatMap encode).length ≤ values.length * bound := by
  induction values with
  | nil => exact Nat.zero_le _
  | cons value values ih =>
    obtain ⟨hvalue, hvalues⟩ := List.forall_mem_cons.mp hbound
    have hrest := ih hvalues
    rw [List.flatMap_cons, List.length_append, List.length_cons, Nat.succ_mul]
    omega

theorem Matches.size_lt (hmatches : Matches base graph) (hreadable : Readable base graph) :
    graph.size < 2 ^ 64 := by
  have hwidth := hreadable.width
  have hlists : ∀ list ∈ graph.neighbors,
      (neighborhoodBytes list).length ≤ (maxGraphDegree + 1) * 4 := by
    intro list hlist
    have hdegree := hmatches.degree list hlist
    rw [length_neighborhoodBytes]
    omega
  have hbody := length_flatMap_le hlists
  have hcount := base.count_lt
  rw [hmatches.count, VectorSet.npts, maxGraphDegree] at hbody
  rw [GraphFile.size, GraphFile.body]
  omega

variable {vector behind : List UInt8} {list : List UInt32}

theorem length_nodeRecord (header : LayoutHeader)
    (hvector : vector.length = element.size * header.ndims) (hlist : list.length ≤ header.width) :
    (nodeRecord element header vector list).length = header.maxNodeLen element := by
  rw [nodeRecord, length_padTo, List.length_append, length_neighborhoodBytes, hvector]
  apply Nat.max_eq_left
  rw [LayoutHeader.maxNodeLen, Nat.mul_comm element.size]
  omega

theorem length_diskRecords (hmatches : Matches base graph) :
    (diskRecords base graph).length = base.npts := by
  rw [diskRecords, List.length_zipWith, hmatches.count]
  exact Nat.min_self _

theorem width_diskRecords (hmatches : Matches base graph) :
    ∀ record ∈ diskRecords base graph,
      record.length = ((layoutHeader base graph).layout element).width := by
  intro record hrecord
  obtain ⟨node, hnode⟩ := List.mem_iff_getElem?.mp hrecord
  rw [diskRecords, List.getElem?_zipWith_eq_some] at hnode
  obtain ⟨vector, list, hvector, hlist, rfl⟩ := hnode
  exact length_nodeRecord _ (base.vectorWidth vector (List.mem_of_getElem? hvector))
    (hmatches.degree list (List.mem_of_getElem? hlist))

def diskMetadata (element : Element) (header : LayoutHeader) : DiskMetadata where
  rows := 9
  columns := 1
  points := header.npts
  dimensions := header.ndims
  medoid := header.medoid
  maxNodeLen := header.maxNodeLen element
  nodesPerSector := (header.layout element).perSector
  frozenPoints := header.frozenNum
  frozenLocation := header.frozenLoc
  reorderExists := 0

/-- The fields that are read. -/
def metadataFront (element : Element) (header : LayoutHeader) : List UInt8 :=
  encodeLittle 4 9 ++ (encodeLittle 4 1 ++ (encodeLittle 8 header.npts ++
    (encodeLittle 8 header.ndims ++ (encodeLittle 8 header.medoid ++
      (encodeLittle 8 (header.maxNodeLen element) ++
        (encodeLittle 8 (header.layout element).perSector ++ (encodeLittle 8 header.frozenNum ++
          (encodeLittle 8 header.frozenLoc ++ (encodeLittle 8 0 ++ [])))))))))

theorem metadataBytes_eq (element : Element) (header : LayoutHeader) :
    header.metadataBytes element =
      metadataFront element header ++ encodeLittle 8 (header.diskIndexFileSize element) := by
  simp only [LayoutHeader.metadataBytes, LayoutHeader.outputFileMeta, metadataFront,
    List.flatMap_cons, List.flatMap_nil, List.append_assoc, List.append_nil]
  rfl

theorem maxNodeLen_lt (element : Element) (base : VectorSet element) (graph : GraphFile) :
    (layoutHeader base graph).maxNodeLen element < 2 ^ 40 := by
  have hwidth := graph.width.toNat_lt
  have hndims := base.ndims.toNat_lt
  have helement : element.size ≤ 4 := by cases element <;> decide
  have hvector : base.ndims.toNat * element.size ≤ base.ndims.toNat * 4 :=
    Nat.mul_le_mul_left _ helement
  simp only [LayoutHeader.maxNodeLen, layoutHeader]
  omega

theorem frozenLoc_lt (base : VectorSet element) (graph : GraphFile) :
    (layoutHeader base graph).frozenLoc < 2 ^ 64 := by
  have hmedoid := graph.medoid.toNat_lt
  unfold LayoutHeader.frozenLoc
  by_cases hone : (layoutHeader base graph).frozenNum = 1
  · rw [if_pos hone]
    exact hmedoid.trans (by decide)
  · rw [if_neg hone]
    decide

theorem readMetadata_diskFile {Failure : Type} (truncated : Failure) (base : VectorSet element)
    (graph : GraphFile) (records : List (List UInt8)) :
    ∃ rest, readMetadata truncated (diskFile element (layoutHeader base graph) records) =
      .ok (diskMetadata element (layoutHeader base graph), rest) := by
  have hnpts := base.count_lt
  have hndims := base.ndims.toNat_lt
  have hmedoid := graph.medoid.toNat_lt
  have hsector : ((layoutHeader base graph).layout element).perSector < 2 ^ 64 :=
    (Nat.div_le_self _ _).trans_lt (show sectorLen < 2 ^ 64 by decide)
  have hreads : Reads (readMetadata truncated) (metadataFront element (layoutHeader base graph))
      (diskMetadata element (layoutHeader base graph)) :=
    (Reads.word truncated (by decide)).bind <| (Reads.word truncated (by decide)).bind <|
    (Reads.word truncated (show base.npts < 2 ^ 64 by rw [VectorSet.npts]; omega)).bind <|
    (Reads.word truncated (show base.ndims.toNat < 2 ^ 64 by omega)).bind <|
    (Reads.word truncated (show graph.medoid.toNat < 2 ^ 64 by omega)).bind <|
    (Reads.word truncated ((maxNodeLen_lt element base graph).trans (by decide))).bind <|
    (Reads.word truncated hsector).bind <|
    (Reads.word truncated graph.frozenNum.toNat_lt).bind <|
    (Reads.word truncated (frozenLoc_lt base graph)).bind <|
    (Reads.word truncated (by decide)).bind (.pure _)
  rw [diskFile, metadataBytes_eq, padTo, List.append_assoc, List.append_assoc, hreads]
  exact ⟨_, rfl⟩

/-! ## Loading -/

def flashIndex (element : Element) (header : LayoutHeader) : FlashIndex where
  diskBytesPerPoint := element.size * header.ndims
  maxNodeLen := header.maxNodeLen element
  nodesPerSector := (header.layout element).perSector
  maxDegree := header.width
  numFrozenPoints := header.frozenNum
  frozenLocation := header.frozenLoc
  medoid := header.medoid

theorem Matches.width_pos (hmatches : Matches base graph) (hreadable : Readable base graph) :
    0 < graph.width.toNat := by
  have hnodes : 0 < graph.neighbors.length := by
    rw [hmatches.count]
    exact (Nat.zero_le _).trans_lt hreadable.medoid
  have hmem := List.getElem_mem hnodes
  exact (List.length_pos_iff.mpr (hreadable.degree _ hmem)).trans_le (hmatches.degree _ hmem)

theorem PqShape.Describes.bytes {shape : PqShape} (hshape : shape.Describes base) :
    shape.diskBytesPerPoint = element.size * base.ndims.toNat := by
  obtain ⟨-, hshape⟩ := hshape
  cases element with
  | float =>
    obtain ⟨hchunks, hdim⟩ := hshape
    rw [PqShape.diskBytesPerPoint, hchunks, hdim]
    exact Nat.mul_comm _ _
  | uint8 =>
    rw [PqShape.diskBytesPerPoint, show shape.diskPqNumChunks = _ from hshape]
    exact (Nat.one_mul _).symm

theorem PqShape.Describes.dimensions {shape : PqShape} (hshape : shape.Describes base) :
    shape.expectedDiskDimensions = base.ndims.toNat := by
  obtain ⟨-, hshape⟩ := hshape
  cases element with
  | float =>
    obtain ⟨hchunks, hdim⟩ := hshape
    rw [PqShape.expectedDiskDimensions, hchunks]
    exact hdim
  | uint8 =>
    rw [PqShape.expectedDiskDimensions, show shape.diskPqNumChunks = _ from hshape]
    rfl

theorem maxNodeLen_sub (element : Element) (header : LayoutHeader) :
    header.maxNodeLen element - element.size * header.ndims = (header.width + 1) * 4 := by
  rw [LayoutHeader.maxNodeLen, Nat.mul_comm header.ndims]
  exact Nat.add_sub_cancel _ _

theorem load_diskFile (hmatches : Matches base graph) (hreadable : Readable base graph)
    {shape : PqShape} (hshape : shape.Describes base) (records : List (List UInt8)) :
    load shape (diskFile element (layoutHeader base graph) records) =
      .ok (flashIndex element (layoutHeader base graph)) := by
  obtain ⟨rest, hmetadata⟩ := readMetadata_diskFile truncatedMetadata base graph records
  have hpositive := hmatches.width_pos hreadable
  have hwidth := hreadable.width
  have hcount : base.npts < 2 ^ 32 := base.count_lt
  have hsub : (layoutHeader base graph).maxNodeLen element - element.size * base.ndims.toNat =
      (graph.width.toNat + 1) * 4 := maxNodeLen_sub element _
  have hdegree : (graph.width.toNat + 1) * 4 / 4 - 1 = graph.width.toNat := by omega
  rw [load, hmetadata]
  simp only [bind_ok, reject_ok]
  refine ⟨_, rfl, (), ?_, (), ?_, (), ?_, (), ?_, (), rfl, ?_⟩
  · simp [diskMetadata, layoutHeader, hshape.1]
  · simp only [diskMetadata, layoutHeader, hshape.1, hshape.dimensions, ne_eq, not_true_eq_false,
      false_or, not_or, Nat.not_le]
    exact ⟨hcount, hreadable.medoid⟩
  · simp only [diskMetadata, hshape.bytes]
    omega
  · simp only [diskMetadata, hshape.bytes, hsub, hdegree]
    omega
  · have hfrozen : (if (layoutHeader base graph).frozenNum = 1 then
        (layoutHeader base graph).frozenLoc else 0) = (layoutHeader base graph).frozenLoc := by
      unfold LayoutHeader.frozenLoc
      split <;> rfl
    simp only [diskMetadata, hshape.bytes, hsub, hdegree]
    rw [flashIndex, Except.ok.injEq, FlashIndex.mk.injEq]
    exact ⟨rfl, rfl, rfl, rfl, rfl, hfrozen, rfl⟩

/-! ## Nodes -/

@[simp]
theorem LayoutHeader.layout_sector (header : LayoutHeader) (element : Element) :
    (header.layout element).sector = sectorLen := rfl

section Places

variable (element) (header : LayoutHeader) (node : Nat)

theorem numSectors_eq :
    (flashIndex element header).numSectors * sectorLen = (header.layout element).rowWidth := by
  unfold FlashIndex.numSectors RecordLayout.rowWidth
  change (if 0 < (header.layout element).perSector then 1 else (header.layout element).span) *
    sectorLen = _
  split
  · exact Nat.one_mul _
  · rfl

theorem getNodeSector_eq :
    (flashIndex element header).getNodeSector node * sectorLen =
      sectorLen + (header.layout element).row node * (header.layout element).rowWidth := by
  unfold FlashIndex.getNodeSector RecordLayout.row RecordLayout.rowWidth
  change (1 + if 0 < (header.layout element).perSector then
    node / (header.layout element).perSector else node * (header.layout element).span) *
      sectorLen = _
  rw [Nat.add_mul, Nat.one_mul]
  split
  · rfl
  · rw [Nat.mul_assoc]
    rfl

theorem offsetToNode_eq :
    (flashIndex element header).offsetToNode node = (header.layout element).offset node := by
  unfold FlashIndex.offsetToNode RecordLayout.offset
  change (if (header.layout element).perSector = 0 then 0 else
    node % (header.layout element).perSector * header.maxNodeLen element) = _
  by_cases hone : (header.layout element).perSector = 0
  · rw [if_pos hone, if_neg (by omega)]
  · rw [if_neg hone, if_pos (by omega)]
    rfl

end Places

theorem length_metadataSector (element : Element) (header : LayoutHeader) :
    (padTo 0 sectorLen (header.metadataBytes element)).length = sectorLen := by
  have hlength : (header.metadataBytes element).length = 80 := by
    rw [metadataBytes_eq]
    simp only [metadataFront, List.length_append, length_encodeLittle, List.length_nil]
  rw [length_padTo, hlength]
  rfl

theorem subspan_diskFile (header : LayoutHeader) (records : List (List UInt8))
    (start count : Nat) :
    subspan (diskFile element header records) (sectorLen + start) count =
      subspan ((header.layout element).rows 0 records).flatten start count := by
  have hright := subspan_append_right (padTo 0 sectorLen (header.metadataBytes element))
    ((header.layout element).rows 0 records).flatten start count
  rwa [length_metadataSector] at hright

theorem length_diskFile (hmatches : Matches base graph) :
    (diskFile element (layoutHeader base graph) (diskRecords base graph)).length =
      (layoutHeader base graph).diskIndexFileSize element := by
  rw [diskFile, List.length_append, length_metadataSector,
    RecordLayout.length_rows_flatten (width_diskRecords hmatches), length_diskRecords hmatches,
    LayoutHeader.diskIndexFileSize, Nat.add_mul, Nat.one_mul, Nat.add_comm]
  rfl

/-- What follows the metadata sector holds the record of every node, where it is read. -/
theorem drop_record (hmatches : Matches base graph) {node : Nat}
    (hvector : base.vectors[node]? = some vector) (hlist : graph.neighbors[node]? = some list) :
    ∃ behind, (subspan (diskFile element (layoutHeader base graph) (diskRecords base graph))
      (sectorLen + ((layoutHeader base graph).layout element).row node *
        ((layoutHeader base graph).layout element).rowWidth)
      ((layoutHeader base graph).layout element).rowWidth).drop
        (((layoutHeader base graph).layout element).offset node) =
          vector ++ (neighborhoodBytes list ++ behind) := by
  have hrecord : (diskRecords base graph)[node]? =
      some (nodeRecord element (layoutHeader base graph) vector list) :=
    List.getElem?_zipWith_eq_some.mpr ⟨vector, list, hvector, hlist, rfl⟩
  obtain ⟨behind, hbehind⟩ := RecordLayout.drop_offset 0 (width_diskRecords hmatches) hrecord
  rw [subspan_diskFile, hbehind, nodeRecord, padTo, List.append_assoc, List.append_assoc]
  exact ⟨_, rfl⟩

theorem row_in_file (hmatches : Matches base graph) {node : Nat} (hnode : node < base.npts) :
    sectorLen + ((layoutHeader base graph).layout element).row node *
        ((layoutHeader base graph).layout element).rowWidth +
      ((layoutHeader base graph).layout element).rowWidth ≤
        (diskFile element (layoutHeader base graph) (diskRecords base graph)).length := by
  have hrow := ((layoutHeader base graph).layout element).row_add_le hnode
  rw [length_diskFile hmatches, LayoutHeader.diskIndexFileSize, Nat.add_mul, Nat.one_mul]
  change _ ≤ ((layoutHeader base graph).layout element).sectorCount base.npts * sectorLen + _
  change _ ≤ ((layoutHeader base graph).layout element).sectorCount base.npts * sectorLen at hrow
  omega

theorem reads_neighbors {Failure : Type} (truncated : Failure) (list : List UInt32) :
    Reads (readMany (UInt32.ofNat <$> readWord truncated 4) list.length)
      (list.flatMap Sidecar.appendU32Le) list := by
  apply Reads.many
  intro target _
  have hreads := (Reads.word truncated (show target.toNat < 256 ^ 4 from target.toNat_lt)).map
    UInt32.ofNat
  rwa [UInt32.ofNat_toNat] at hreads

theorem parseNode_append {index : FlashIndex} (hvector : vector.length = index.diskBytesPerPoint)
    (hlist : list.length ≤ index.maxDegree) (hsmall : list.length < 256 ^ 4) :
    index.parseNode (vector ++ (neighborhoodBytes list ++ behind)) = .ok ⟨vector, list⟩ := by
  have hlong : ¬ (vector ++ (neighborhoodBytes list ++ behind)).length <
      index.diskBytesPerPoint := by
    rw [List.length_append]
    omega
  have hcoords : FlashIndex.parseNode.readBytes index
      (vector ++ (neighborhoodBytes list ++ behind)) =
        .ok (vector, encodeLittle 4 list.length ++
          (list.flatMap Sidecar.appendU32Le ++ behind)) := by
    rw [FlashIndex.parseNode.readBytes, if_neg hlong, List.take_left' hvector,
      List.drop_left' hvector, neighborhoodBytes, List.append_assoc]
  simp only [FlashIndex.parseNode, bind_ok, reject_ok]
  exact ⟨_, hcoords, _, Reads.word _ hsmall _, (), Nat.not_lt.mpr hlist, _,
    reads_neighbors _ list behind, rfl⟩

theorem readNode_diskFile (hmatches : Matches base graph) {node : UInt32}
    (hvector : base.vectors[node.toNat]? = some vector)
    (hlist : graph.neighbors[node.toNat]? = some list) :
    (flashIndex element (layoutHeader base graph)).readNode
      (diskFile element (layoutHeader base graph) (diskRecords base graph)) node =
        .ok ⟨vector, list⟩ := by
  have hnode : node.toNat < base.npts := (List.getElem_of_getElem? hvector).1
  have hfits := row_in_file hmatches hnode
  have hwidth := base.vectorWidth vector (List.mem_of_getElem? hvector)
  have hdegree := hmatches.degree list (List.mem_of_getElem? hlist)
  have hsmall : list.length < 256 ^ 4 := hdegree.trans_lt graph.width.toNat_lt
  obtain ⟨behind, hbehind⟩ := drop_record hmatches hvector hlist
  rw [FlashIndex.readNode, FlashIndex.readSectors, Nat.add_mul, numSectors_eq, getNodeSector_eq,
    if_neg (by omega), offsetToNode_eq]
  change FlashIndex.parseNode _ _ = _
  rw [hbehind]
  exact parseNode_append hwidth hdegree hsmall

/-! ## The whole graph -/

theorem appendNode_append {pointCount diskBytesPerPoint maxDegree : Nat}
    (hvector : vector.length = diskBytesPerPoint) (hsome : list ≠ [])
    (hlist : list.length ≤ maxDegree) (hsmall : list.length < 256 ^ 4)
    (htargets : ∀ target ∈ list, target.toNat < pointCount) :
    appendNode pointCount diskBytesPerPoint maxDegree
      (vector ++ (neighborhoodBytes list ++ behind)) = .ok list := by
  have hdegree : ¬ (list.length = 0 ∨ maxDegree < list.length) := by
    have hpositive := List.length_pos_iff.mpr hsome
    omega
  have hbounds : ¬ ∃ target ∈ list, pointCount ≤ target.toNat := by
    rintro ⟨target, hmem, hbad⟩
    exact absurd (htargets target hmem) (Nat.not_lt.mpr hbad)
  simp only [appendNode, bind_ok, reject_ok, List.drop_left' hvector,
    neighborhoodBytes, List.append_assoc]
  exact ⟨_, Reads.word _ hsmall _, (), hdegree, _, reads_neighbors _ list behind, (), hbounds, rfl⟩

theorem graphRecord_diskFile (hmatches : Matches base graph) {node : Nat}
    (hnode : node < base.npts) :
    graphRecord ((layoutHeader base graph).layout element).perSector
      ((layoutHeader base graph).maxNodeLen element)
      (diskFile element (layoutHeader base graph) (diskRecords base graph)) node =
        .ok ((subspan (diskFile element (layoutHeader base graph) (diskRecords base graph))
          (sectorLen + ((layoutHeader base graph).layout element).row node *
            ((layoutHeader base graph).layout element).rowWidth)
          ((layoutHeader base graph).layout element).rowWidth).drop
            (((layoutHeader base graph).layout element).offset node)) := by
  have hfits := row_in_file hmatches hnode
  have hlength := maxNodeLen_lt element base graph
  unfold graphRecord RecordLayout.row RecordLayout.rowWidth RecordLayout.offset at *
  by_cases hone : ((layoutHeader base graph).layout element).perSector = 0
  · have hseveral : ¬ 0 < ((layoutHeader base graph).layout element).perSector := by omega
    simp only [if_neg hseveral, LayoutHeader.layout_sector] at hfits ⊢
    have hspan : ((layoutHeader base graph).maxNodeLen element + sectorLen - 1) % 2 ^ 64 /
        sectorLen = ((layoutHeader base graph).layout element).span := by
      rw [Nat.mod_eq_of_lt (by rw [sectorLen]; omega)]
      exact (divRoundUp_eq (by decide)).symm
    have hsmall : ((layoutHeader base graph).layout element).span * sectorLen < 2 ^ 64 := by
      have hbytes := Nat.div_mul_le_self
        (((layoutHeader base graph).maxNodeLen element + sectorLen - 1) % 2 ^ 64) sectorLen
      rw [hspan] at hbytes
      exact hbytes.trans_lt (Nat.mod_lt _ (by decide))
    rw [if_neg (not_not.mpr hone), hspan]
    simp only [bind_ok, Sidecar.checkedMultiply_eq_ok]
    refine ⟨_, ⟨hsmall, rfl⟩, ?_⟩
    rw [readGraph, if_neg (Nat.not_lt.mpr hfits), List.drop_zero]
  · have hseveral : 0 < ((layoutHeader base graph).layout element).perSector := by omega
    simp only [if_pos hseveral, LayoutHeader.layout_sector] at hfits ⊢
    rw [if_pos hone, readGraph, if_neg (Nat.not_lt.mpr hfits)]
    rfl

theorem GraphShape.Describes.bytes {shape : GraphShape} (hshape : shape.Describes base) :
    shape.diskBytesPerPoint base.ndims.toNat = .ok (element.size * base.ndims.toNat) := by
  obtain ⟨-, hshape⟩ := hshape
  unfold GraphShape.diskBytesPerPoint
  cases element with
  | float =>
    have hndims := base.ndims.toNat_lt
    rw [if_neg (by rw [hshape.1]; decide), Sidecar.checkedMultiply_eq_ok]
    exact ⟨by omega, Nat.mul_comm _ _⟩
  | uint8 =>
    rw [if_pos hshape]
    exact congrArg Except.ok (Nat.one_mul _).symm

theorem GraphShape.Describes.dimension {shape : GraphShape} (hshape : shape.Describes base) :
    ¬ (shape.diskPq = false ∧ base.ndims.toNat ≠ shape.dimension) := by
  obtain ⟨-, hshape⟩ := hshape
  cases element with
  | float => exact fun hdiffers => hdiffers.2 hshape.2.symm
  | uint8 => exact fun hdiffers => absurd (hdiffers.1.symm.trans hshape) Bool.false_ne_true

theorem checkNodesPerSector_ok (element : Element) (header : LayoutHeader) :
    checkNodesPerSector (diskMetadata element header) = .ok () := by
  have hheld : (header.layout element).perSector * header.maxNodeLen element ≤ sectorLen :=
    (header.layout element).perSector_mul_le
  unfold checkNodesPerSector
  split
  · simp only [bind_ok, Sidecar.checkedMultiply_eq_ok, reject_ok]
    exact ⟨_, ⟨hheld.trans_lt (by decide), rfl⟩, Nat.not_lt.mpr hheld⟩
  · rfl

theorem loadGraph_diskFile (hmatches : Matches base graph) (hreadable : Readable base graph)
    {shape : GraphShape} (hshape : shape.Describes base) :
    loadGraph shape (diskFile element (layoutHeader base graph) (diskRecords base graph)) =
      .ok ⟨graph.medoid.toNat, graph.neighbors⟩ := by
  obtain ⟨rest, hmetadata⟩ := readMetadata_diskFile
    (Sidecar.Error.runtimeError "sidecar-only disk index metadata is truncated") base graph
    (diskRecords base graph)
  have hpositive := hmatches.width_pos hreadable
  have hwidth := hreadable.width
  have hcount : base.npts < 2 ^ 32 := base.count_lt
  have hsub : (layoutHeader base graph).maxNodeLen element - element.size * base.ndims.toNat =
      (graph.width.toNat + 1) * 4 := maxNodeLen_sub element _
  have hlength := maxNodeLen_lt element base graph
  have hhead : (element.size * base.ndims.toNat + 4) % 2 ^ 64 =
      element.size * base.ndims.toNat + 4 := Nat.mod_eq_of_lt (by omega)
  have hdegree : ((layoutHeader base graph).maxNodeLen element -
      (element.size * base.ndims.toNat + 4)) / 4 = graph.width.toNat := by omega
  rw [loadGraph, hmetadata]
  simp only [bind_ok, reject_ok]
  have hnodes : (List.range shape.pointCount).mapM (fun node => do
      let record ← graphRecord ((layoutHeader base graph).layout element).perSector
        ((layoutHeader base graph).maxNodeLen element)
        (diskFile element (layoutHeader base graph) (diskRecords base graph)) node
      appendNode shape.pointCount (element.size * base.ndims.toNat) graph.width.toNat record) =
        .ok graph.neighbors := by
    rw [hshape.1, mapM_eq_ok, List.forall₂_iff_get]
    refine ⟨by rw [List.length_range, hmatches.count], fun node hnode hlist => ?_⟩
    rw [List.length_range] at hnode
    have hvector := List.getElem?_eq_getElem (show node < base.vectors.length from hnode)
    have hlist := List.getElem?_eq_getElem hlist
    have hmem := List.mem_of_getElem? hlist
    have hdegree := hmatches.degree _ hmem
    obtain ⟨behind, hbehind⟩ := drop_record hmatches hvector hlist
    simp only [List.get_eq_getElem, List.getElem_range, graphRecord_diskFile hmatches hnode]
    change appendNode _ _ _ _ = _
    rw [hbehind]
    exact appendNode_append (base.vectorWidth _ (List.mem_of_getElem? hvector))
      (hreadable.degree _ hmem) hdegree (hdegree.trans_lt graph.width.toNat_lt)
      (hreadable.targets _ hmem)
  refine ⟨_, rfl, (), ?_, _, hshape.bytes, (), ?_, (), ?_, (), ?_,
    shape.pointCount * graph.width.toNat, ?_, _, ?_, rfl⟩
  · have hmedoid := hreadable.medoid
    have hfrozen := hreadable.frozenNum
    have hlong : 0 < (layoutHeader base graph).maxNodeLen element := by omega
    simp only [diskMetadata, layoutHeader, hshape.1, ne_eq, not_true_eq_false, not_or,
      false_or] at hlong ⊢
    omega
  · simp only [diskMetadata, hhead, not_or]
    exact ⟨hshape.dimension, by omega⟩
  · simp only [diskMetadata, hhead, hdegree]
    omega
  · exact checkNodesPerSector_ok element (layoutHeader base graph)
  · simp only [diskMetadata, hhead, hdegree, hshape.1, Sidecar.checkedMultiply_eq_ok, and_true]
    have hproduct := Nat.mul_le_mul hcount.le hwidth
    rw [maxGraphDegree] at hproduct
    omega
  · simp only [diskMetadata, hhead, hdegree]
    exact hnodes

theorem readNodes_diskFile (hmatches : Matches base graph) {nodes : List UInt32}
    (hnodes : ∀ node ∈ nodes, node.toNat < base.npts) :
    ∃ found, (flashIndex element (layoutHeader base graph)).readNodes
        (diskFile element (layoutHeader base graph) (diskRecords base graph)) nodes = .ok found ∧
      List.Forall₂ (fun node found => base.vectors[node.toNat]? = some found.coords ∧
        graph.neighbors[node.toNat]? = some found.neighbors) nodes found := by
  induction nodes with
  | nil => exact ⟨[], rfl, .nil⟩
  | cons node nodes ih =>
    obtain ⟨hnode, hothers⟩ := List.forall_mem_cons.mp hnodes
    obtain ⟨found, hread, hfound⟩ := ih hothers
    have hvector := List.getElem?_eq_getElem (show node.toNat < base.vectors.length from hnode)
    have hlist := List.getElem?_eq_getElem (hmatches.count.symm ▸ hnode)
    refine ⟨⟨_, _⟩ :: found, ?_, .cons ⟨hvector, hlist⟩ hfound⟩
    rw [FlashIndex.readNodes, List.mapM_cons, readNode_diskFile hmatches hvector hlist]
    change ((flashIndex element _).readNodes _ nodes >>= _) = _
    rw [hread]
    rfl

/-- What is asked of the disk index `file` and of both of its readers. -/
structure ReadBack (base : VectorSet element) (graph : GraphFile) (pqShape : PqShape)
    (graphShape : GraphShape) (file : List UInt8) (index : FlashIndex) : Prop where
  load : load pqShape file = .ok index
  maxDegree : index.maxDegree = graph.width.toNat
  nodes : ∀ nodes : List UInt32, (∀ node ∈ nodes, node.toNat < base.npts) →
    ∃ found, index.readNodes file nodes = .ok found ∧
      List.Forall₂ (fun node found => base.vectors[node.toNat]? = some found.coords ∧
        graph.neighbors[node.toNat]? = some found.neighbors) nodes found
  graph : loadGraph graphShape file = .ok ⟨graph.medoid.toNat, graph.neighbors⟩
  inside : ∀ node < base.npts,
    sectorLen ≤ index.nodeStart node ∧ index.nodeStart node + index.maxNodeLen ≤ file.length
  apart : ∀ first second, first ≠ second →
    index.nodeStart first + index.maxNodeLen ≤ index.nodeStart second ∨
      index.nodeStart second + index.maxNodeLen ≤ index.nodeStart first

theorem nodeStart_eq (element : Element) (header : LayoutHeader) (node : Nat) :
    (flashIndex element header).nodeStart node =
      sectorLen + (header.layout element).place node := by
  rw [FlashIndex.nodeStart, getNodeSector_eq, offsetToNode_eq, Nat.add_assoc]
  rfl

theorem createDiskLayout_readBack (hmatches : Matches base graph)
    (hreadable : Readable base graph)
    (hfits : (layoutHeader base graph).diskIndexFileSize element < Sidecar.fileSizeLimit)
    (assertions : Bool) {pqShape : PqShape} (hpq : pqShape.Describes base)
    {graphShape : GraphShape} (hgraph : graphShape.Describes base) :
    ∃ file index, createDiskLayout assertions element base.file graph.file = .ok file ∧
      ReadBack base graph pqShape graphShape file index := by
  refine ⟨_, _, createDiskLayout_eq hmatches hreadable.degree assertions
    (hmatches.size_lt hreadable) hfits, load_diskFile hmatches hreadable hpq _, rfl,
    fun nodes hnodes => readNodes_diskFile hmatches hnodes,
    loadGraph_diskFile hmatches hreadable hgraph, fun node hnode => ?_,
    fun first second hdistinct => ?_⟩
  · have hrow := row_in_file hmatches hnode
    have hwithin := ((layoutHeader base graph).layout element).offset_add_le node
    change _ + (flashIndex element (layoutHeader base graph)).maxNodeLen ≤ _ at hwithin
    rw [nodeStart_eq, RecordLayout.place]
    omega
  · have hapart := ((layoutHeader base graph).layout element).place_apart hdistinct
    rw [nodeStart_eq, nodeStart_eq]
    change _ + (flashIndex element (layoutHeader base graph)).maxNodeLen ≤ _ ∨
      _ + (flashIndex element (layoutHeader base graph)).maxNodeLen ≤ _ at hapart
    omega

end Written

/-- One vector of one coordinate. -/
def loneVector : VectorSet .float := ⟨1, [[0, 0, 160, 64]], by decide, by decide⟩

def vectorPair : VectorSet .float :=
  ⟨1, [[0, 0, 160, 64], [0, 0, 224, 64]], by decide, by decide⟩

/-- Two nodes, neighbors of each other. -/
def graphPair : GraphFile := ⟨1, 0, 0, [[1], [0]]⟩

theorem createDiskLayout_readBack_pair : ∃ file index,
    createDiskLayout true .float vectorPair.file graphPair.file = .ok file ∧
      ReadBack vectorPair graphPair ⟨2, 1, none⟩ ⟨2, 1, false⟩ file index :=
  createDiskLayout_readBack ⟨by decide, by decide⟩
    ⟨by decide, by decide, by decide, by decide,
      by simp [graphPair, vectorPair, VectorSet.npts]⟩ (by decide) true
    ⟨by decide, by decide⟩ ⟨by decide, by decide⟩

/-- A node without neighbors, which the assertions refuse, or else a reader. -/
def graphAlone : GraphFile := ⟨1, 0, 0, [[]]⟩

/-- A width above what the readers take. -/
def graphWide : GraphFile := ⟨513, 0, 0, [[0]]⟩

/-- A vector of bytes that are not the codes of a disk PQ. -/
def loneBytes : VectorSet .uint8 := ⟨4, [[1, 2, 3, 4]], by decide, by decide⟩

def graphLone : GraphFile := ⟨1, 0, 0, [[0]]⟩

set_option maxRecDepth 100000 in
theorem readers_refuse :
    (Matches loneVector graphAlone ∧
      createDiskLayout true .float loneVector.file graphAlone.file =
        .error (.assertionFailed "nnbrs > 0") ∧
      ∃ file, createDiskLayout false .float loneVector.file graphAlone.file = .ok file ∧
        loadGraph ⟨1, 1, false⟩ file =
          .error (.runtimeError "sidecar-only disk index node degree is invalid")) ∧
    (Matches loneVector graphWide ∧
      ∃ file, createDiskLayout true .float loneVector.file graphWide.file = .ok file ∧
        load ⟨1, 1, none⟩ file =
          .error (.diskannException "Disk index degree exceeds supported maximum") ∧
        loadGraph ⟨1, 1, false⟩ file =
          .error (.runtimeError "sidecar-only disk index graph width is invalid")) ∧
    Matches loneBytes graphLone ∧
      ∃ file, createDiskLayout true .uint8 loneBytes.file graphLone.file = .ok file ∧
        load ⟨1, 4, none⟩ file = .error (.diskannException "Invalid disk node length") ∧
        loadGraph ⟨1, 4, false⟩ file =
          .error (.runtimeError "sidecar-only disk index record layout is incompatible") := by
  refine ⟨⟨⟨by decide, by decide⟩, by decide +kernel, ?_⟩, ⟨⟨by decide, by decide⟩, ?_⟩,
    ⟨by decide, by decide⟩, ?_⟩
  · apply exists_ok
    decide +kernel
  · apply exists_ok
    decide +kernel
  · apply exists_ok
    decide +kernel

end SkipCell.DiskIndex

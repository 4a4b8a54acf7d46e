import SkipCell.DiskIndex.Layout

/-! # Reorder data in the disk layout

Behind the sectors of the nodes `create_disk_layout` writes vectors for reordering, as many to a
sector as fit. Its loop over a sector reads on where the vectors have ended.
-/

namespace SkipCell.DiskIndex

open Foundation IoIndex

/-- How `create_disk_layout` ends with reorder data, beside its other exceptions. -/
inductive ReorderFailure
  | exception (error : Error)
  | fileException
  | streamFailure
  | divisionByZero
  deriving DecidableEq

/-- The dimension of a reorder file that passes the checks, and its vectors. -/
def openReorderData (npts : Nat) (file : List UInt8) :
    Except ReorderFailure (Nat × List UInt8) := do
  let (nptsReorderFile, rest) ← readWord .fileException 4 file
  let (ndimsReorderFile, rest) ← readWord .fileException 4 rest
  reject (nptsReorderFile ≠ npts) (.exception (.diskannException
    "Mismatch in num_points between reorder data file and base file"))
  reject (file.length ≠ (8 + 4 * nptsReorderFile * ndimsReorderFile) % 2 ^ 64)
    (.exception (.diskannException "Discrepancy in reorder data file size "))
  .ok (ndimsReorderFile, rest)

/-- Vectors from a stream that throws at its end. -/
def readVectors (vecLen : Nat) :
    Nat → List UInt8 → Except ReorderFailure (List UInt8 × List UInt8)
  | 0, reader => .ok ([], reader)
  | count + 1, reader =>
    if reader.length < vecLen then .error .streamFailure
    else do
      let (vectors, rest) ← readVectors vecLen count (reader.drop vecLen)
      .ok (reader.take vecLen ++ vectors, rest)

/-- The sectors of the vectors, each bounded by the number of all vectors. -/
def reorderSectors (npts vecLen perSector : Nat) :
    Nat → List UInt8 → Except ReorderFailure (List (List UInt8))
  | 0, _ => .ok []
  | sectors + 1, reader => do
    let (vectors, reader) ← readVectors vecLen (min perSector npts) reader
    let rest ← reorderSectors npts vecLen perSector sectors reader
    .ok (padTo 0 sectorLen vectors :: rest)

namespace LayoutHeader

variable (header : LayoutHeader) (element : Element)

def nSectors : Nat := (header.layout element).sectorCount header.npts

/-- `output_file_meta` with reorder data. -/
def reorderMeta (ndims perSector : Nat) : List Nat :=
  [header.npts, header.ndims, header.medoid, header.maxNodeLen element,
    (header.layout element).perSector, header.frozenNum, header.frozenLoc, 1,
    header.nSectors element + 1, ndims, perSector,
    (header.nSectors element + divRoundUp header.npts perSector + 1) * sectorLen]

def reorderMetaBytes (ndims perSector : Nat) : List UInt8 :=
  encodeLittle 4 (header.reorderMeta element ndims perSector).length ++ encodeLittle 4 1 ++
    (header.reorderMeta element ndims perSector).flatMap (encodeLittle 8)

end LayoutHeader

def nDataNodesPerSector (ndims : Nat) : Nat := sectorLen / (ndims * 4)

/-- The disk file with reorder data, once the headers of the other inputs have been read. -/
def createReorderedLayout (assertions : Bool) (element : Element) (header : LayoutHeader)
    (cursors : Cursors) (reorderFile : List UInt8) : Except ReorderFailure (List UInt8) := do
  let (ndims, reader) ← openReorderData header.npts reorderFile
  reject (ndims * 4 = 0) .divisionByZero
  let perSector := nDataNodesPerSector ndims
  reject (perSector = 0) .divisionByZero
  let records ← (writeNodes assertions element header header.npts cursors).mapError .exception
  let sectors ← reorderSectors header.npts (ndims * 4) perSector
    (divRoundUp header.npts perSector) reader
  .ok (padTo 0 sectorLen (header.reorderMetaBytes element ndims perSector) ++
    ((header.layout element).rows 0 records).flatten ++ sectors.flatten)

/-- Where the disk index reads the vector of a node, from the metadata that `load` keeps. -/
def reorderPlace (startSector ndims perSector node : Nat) : Nat :=
  (node / perSector + startSector) * sectorLen + node % perSector * ndims * 4

def reorderSector (vecLen perSector : Nat) (vectors : List UInt8) (sector : Nat) : List UInt8 :=
  padTo 0 sectorLen (subspan vectors (sector * (perSector * vecLen)) (perSector * vecLen))

/-- The vectors are behind the nodes, zeros fill their sectors, and the metadata tells of them. -/
structure ReorderStored (element : Element) (header : LayoutHeader) (ndims perSector : Nat)
    (vectors file : List UInt8) : Prop where
  metadata : header.reorderMetaBytes element ndims perSector <+: file
  vector : ∀ node < header.npts,
    subspan file (reorderPlace (header.nSectors element + 1) ndims perSector node) (ndims * 4) =
      subspan vectors (node * (ndims * 4)) (ndims * 4)
  filled : ∀ sector < divRoundUp header.npts perSector,
    subspan file ((header.nSectors element + 1 + sector) * sectorLen) sectorLen =
      reorderSector (ndims * 4) perSector vectors sector

/-- A vector fits in a sector, and the last sector is the only one or is full. -/
def FillsSectors (npts ndims : Nat) : Prop :=
  0 < ndims ∧ ndims * 4 ≤ sectorLen ∧
    (npts ≤ nDataNodesPerSector ndims ∨ nDataNodesPerSector ndims ∣ npts)

theorem readVectors_eq (vecLen count : Nat) (reader : List UInt8) :
    readVectors vecLen count reader =
      if reader.length < count * vecLen then .error .streamFailure
      else .ok (reader.take (count * vecLen), reader.drop (count * vecLen)) := by
  induction count generalizing reader with
  | zero => simp [readVectors]
  | succ count ih =>
    rw [readVectors, ih, Nat.succ_mul, List.length_drop]
    by_cases hshort : reader.length < vecLen
    · rw [if_pos hshort, if_pos (by omega)]
    · by_cases hrest : reader.length - vecLen < count * vecLen
      · rw [if_neg hshort, if_pos hrest, if_pos (by omega)]
        rfl
      · rw [if_neg hshort, if_neg hrest, if_neg (by omega), Nat.add_comm, List.take_add,
          ← List.drop_drop]
        rfl

theorem reorderSectors_eq (npts vecLen perSector count : Nat) (reader : List UInt8) :
    reorderSectors npts vecLen perSector count reader =
      if reader.length < count * (min perSector npts * vecLen) then .error .streamFailure
      else .ok ((List.range count).map fun sector => padTo 0 sectorLen
        (subspan reader (sector * (min perSector npts * vecLen)) (min perSector npts * vecLen))) := by
  induction count generalizing reader with
  | zero => simp [reorderSectors]
  | succ count ih =>
    rw [reorderSectors, readVectors_eq, Nat.succ_mul]
    generalize min perSector npts * vecLen = sectorBytes at ih ⊢
    by_cases hshort : reader.length < sectorBytes
    · rw [if_pos hshort, if_pos (by omega)]
      rfl
    · rw [if_neg hshort]
      change (reorderSectors npts vecLen perSector count (reader.drop sectorBytes) >>= fun rest =>
        Except.ok (padTo 0 sectorLen (reader.take sectorBytes) :: rest)) = _
      rw [ih, List.length_drop]
      by_cases hrest : reader.length - sectorBytes < count * sectorBytes
      · rw [if_pos hrest, if_pos (by omega)]
        rfl
      · rw [if_neg hrest, if_neg (by omega), List.range_succ_eq_map, List.map_cons, List.map_map]
        refine congrArg Except.ok (congrArg₂ List.cons ?_ (List.map_congr_left ?_))
        · rw [Nat.zero_mul]
          rfl
        · intro sector _
          simp only [Function.comp_apply, subspan, Nat.succ_mul, List.drop_drop, Nat.add_comm]

theorem divRoundUp_le_one {total part : Nat} (hpart : 0 < part) (hfew : total ≤ part) :
    divRoundUp total part ≤ 1 := by
  rw [divRoundUp_eq hpart]
  exact Nat.le_of_lt_succ ((Nat.div_lt_iff_lt_mul hpart).mpr (by omega))

variable {npts perSector vecLen ndims : Nat}

theorem sectors_read_iff (hper : 0 < perSector) (hlen : 0 < vecLen) :
    divRoundUp npts perSector * (min perSector npts * vecLen) ≤ npts * vecLen ↔
      npts ≤ perSector ∨ perSector ∣ npts := by
  rw [← Nat.mul_assoc, Nat.mul_le_mul_right_iff hlen]
  rcases Nat.lt_or_ge perSector npts with hmany | hfew
  · rw [Nat.min_eq_left hmany.le, or_iff_right (by omega)]
    have hall := le_divRoundUp_mul npts hper
    constructor
    · intro hle
      exact Dvd.intro_left _ (Nat.le_antisymm hle hall)
    · rintro ⟨count, rfl⟩
      rw [divRoundUp, Nat.mul_mod_right, if_neg (by simp), Nat.add_zero,
        Nat.mul_div_cancel_left _ hper, Nat.mul_comm]
  · rw [Nat.min_eq_right hfew]
    refine iff_of_true ?_ (.inl hfew)
    exact (Nat.mul_le_mul_right npts (divRoundUp_le_one hper hfew)).trans_eq (Nat.one_mul npts)

theorem length_writeNodes {assertions : Bool} {element : Element} {header : LayoutHeader}
    {count : Nat} {cursors : Cursors} {records : List (List UInt8)}
    (hwrite : writeNodes assertions element header count cursors = .ok records) :
    records.length = count ∧ ∀ record ∈ records, record.length = header.maxNodeLen element := by
  induction count generalizing cursors records with
  | zero =>
    cases hwrite
    simp
  | succ count ih =>
    simp only [writeNodes, bind_ok, Except.ok.injEq] at hwrite
    obtain ⟨⟨record, next⟩, hrecord, rest, hrest, rfl⟩ := hwrite
    obtain ⟨hcount, hall⟩ := ih hrest
    refine ⟨congrArg Nat.succ hcount, List.forall_mem_cons.mpr ⟨?_, hall⟩⟩
    simp only [writeNode, readNeighborhood, readCached, readZeroed, bind_ok] at hrecord
    obtain ⟨⟨neighborhood, _⟩, ⟨_, _, _, _, hneighborhood⟩, ⟨coords, _⟩, hcoords, hpadded⟩ :=
      hrecord
    split at hcoords
    · cases hcoords
    cases hcoords
    cases hneighborhood
    cases hpadded
    simp only [length_padTo, List.length_append, length_encodeLittle, List.length_take,
      LayoutHeader.maxNodeLen]
    rw [Nat.mul_comm element.size]
    omega

theorem length_openReorderData {file vectors : List UInt8}
    (hopen : openReorderData npts file = .ok (ndims, vectors)) (hfits : ndims * 4 ≤ sectorLen) :
    vectors.length = npts * (ndims * 4) := by
  simp only [openReorderData, bind_ok, reject_ok, not_not] at hopen
  obtain ⟨⟨_, _⟩, hnpts, ⟨_, _⟩, hndims, _, hsame, _, hsize, hout⟩ := hopen
  cases hout
  obtain ⟨rfl, hsmall⟩ := readWord_eq_ok hnpts
  obtain ⟨rfl, -⟩ := readWord_eq_ok hndims
  dsimp only at hsame hsize hfits ⊢
  subst hsame
  rw [sectorLen] at hfits
  have hbound := Nat.mul_lt_mul_of_lt_of_le hsmall hfits (by decide)
  simp only [List.length_append, length_encodeLittle] at hsize
  rw [Nat.mul_comm 4, Nat.mul_assoc, Nat.mul_comm 4, Nat.mod_eq_of_lt (by omega)] at hsize
  omega

theorem sector_vectors {sector : Nat} {vectors : List UInt8} (hper : 0 < perSector)
    (hlength : vectors.length = npts * vecLen) (hsector : sector < divRoundUp npts perSector) :
    padTo 0 sectorLen (subspan vectors (sector * (min perSector npts * vecLen))
        (min perSector npts * vecLen)) = reorderSector vecLen perSector vectors sector := by
  unfold reorderSector
  rcases Nat.le_total perSector npts with hmany | hfew
  · rw [Nat.min_eq_left hmany]
  · obtain rfl : sector = 0 := Nat.lt_one_iff.mp (hsector.trans_le (divRoundUp_le_one hper hfew))
    have hall := Nat.mul_le_mul_right vecLen hfew
    rw [Nat.min_eq_right hfew, Nat.zero_mul, Nat.zero_mul, subspan, subspan, List.drop_zero,
      List.take_of_length_le hlength.le, List.take_of_length_le (hlength.trans_le hall)]

/-- Sectors behind the metadata and the nodes are where the disk index reads them. -/
theorem reorderStored_of_sectors {element : Element} {header : LayoutHeader}
    {vectors nodes : List UInt8} (hper : 0 < perSector)
    (hbytes : perSector * (ndims * 4) ≤ sectorLen)
    (hlength : vectors.length = header.npts * (ndims * 4))
    (hnodes : nodes.length = header.nSectors element * sectorLen) :
    ReorderStored element header ndims perSector vectors
      (padTo 0 sectorLen (header.reorderMetaBytes element ndims perSector) ++ nodes ++
        ((List.range (divRoundUp header.npts perSector)).map
          (reorderSector (ndims * 4) perSector vectors)).flatten) := by
  have hfilled : ∀ sector < divRoundUp header.npts perSector,
      subspan (padTo 0 sectorLen (header.reorderMetaBytes element ndims perSector) ++ nodes ++
        ((List.range (divRoundUp header.npts perSector)).map
          (reorderSector (ndims * 4) perSector vectors)).flatten)
        ((header.nSectors element + 1 + sector) * sectorLen) sectorLen =
          reorderSector (ndims * 4) perSector vectors sector := by
    intro sector hsector
    have hfront : (padTo 0 sectorLen (header.reorderMetaBytes element ndims perSector) ++
        nodes).length = (header.nSectors element + 1) * sectorLen := by
      rw [List.length_append, length_padTo, hnodes, Nat.succ_mul, Nat.add_comm]
      rfl
    rw [Nat.add_mul, ← hfront, subspan_append_right]
    apply subspan_flatten
    · intro row hrow
      obtain ⟨index, -, rfl⟩ := List.mem_map.mp hrow
      rw [reorderSector, length_padTo, subspan, List.length_take]
      omega
    · rw [List.getElem?_map, List.getElem?_range hsector, Option.map_some]
  refine ⟨?_, fun node hnode => ?_, hfilled⟩
  · rw [padTo, List.append_assoc, List.append_assoc]
    exact List.prefix_append _ _
  · have hslot := Nat.mul_le_mul_right (ndims * 4) (Nat.mod_lt node hper)
    have hinside := Nat.mul_le_mul_right (ndims * 4) hnode
    rw [Nat.succ_mul] at hslot hinside
    have hplace : node / perSector * (perSector * (ndims * 4)) + node % perSector * (ndims * 4) =
        node * (ndims * 4) := by
      rw [← Nat.mul_assoc, ← Nat.add_mul, Nat.div_add_mod']
    rw [reorderPlace, Nat.mul_assoc, Nat.add_comm (node / _), ← subspan_subspan _
      (hslot.trans hbytes), hfilled _ (div_lt_divRoundUp hper hnode), reorderSector, subspan_padTo,
      subspan_subspan _ hslot, hplace]
    rw [subspan, List.length_take, List.length_drop]
    omega

/-- Where the function's checks pass and the nodes are written, it completes exactly if the vectors
fill their sectors, and then every vector is where the disk index reads it. -/
theorem createReorderedLayout_iff {assertions : Bool} {element : Element} {header : LayoutHeader}
    {cursors : Cursors} {reorderFile : List UInt8} {ndims : Nat} {vectors : List UInt8}
    {records : List (List UInt8)}
    (hopen : openReorderData header.npts reorderFile = .ok (ndims, vectors))
    (hnodes : writeNodes assertions element header header.npts cursors = .ok records) :
    (∃ file, createReorderedLayout assertions element header cursors reorderFile = .ok file ∧
      ReorderStored element header ndims (nDataNodesPerSector ndims) vectors file) ↔
        FillsSectors header.npts ndims := by
  rw [createReorderedLayout, hopen, hnodes, FillsSectors]
  change (∃ file, (reject (ndims * 4 = 0) _ >>= fun _ => reject _ _ >>= fun _ =>
    reorderSectors _ _ _ _ _ >>= fun sectors => Except.ok (_ ++ sectors.flatten)) = _ ∧ _) ↔ _
  have hdiv : 0 < ndims → (0 < nDataNodesPerSector ndims ↔ ndims * 4 ≤ sectorLen) := fun hndims =>
    Nat.div_pos_iff.trans (and_iff_right (Nat.mul_pos hndims (by decide)))
  have hbytes : nDataNodesPerSector ndims * (ndims * 4) ≤ sectorLen := Nat.div_mul_le_self _ _
  generalize nDataNodesPerSector ndims = perSector at hdiv hbytes ⊢
  rw [reorderSectors_eq]
  constructor
  · rintro ⟨file, hfile, -⟩
    simp only [bind_ok, reject_ok] at hfile
    obtain ⟨_, hdims, _, hper, sectors, hsectors, -⟩ := hfile
    have hndims : 0 < ndims := by omega
    have hpos := Nat.pos_of_ne_zero hper
    have hfits := (hdiv hndims).mp hpos
    have hread := @sectors_read_iff header.npts perSector (ndims * 4) hpos (by omega)
    rw [length_openReorderData hopen hfits] at hsectors
    refine ⟨hndims, hfits, hread.mp (not_lt.mp fun hshort => ?_)⟩
    rw [if_pos hshort] at hsectors
    cases hsectors
  · rintro ⟨hndims, hfits, hfull⟩
    have hper := (hdiv hndims).mpr hfits
    have hlength := length_openReorderData hopen hfits
    have henough := (@sectors_read_iff header.npts perSector (ndims * 4) hper (by omega)).mpr hfull
    obtain ⟨hcount, hwidth⟩ := length_writeNodes hnodes
    rw [reject, if_neg (by omega), reject, if_neg (by omega), if_neg (by omega),
      List.map_congr_left fun sector hsector =>
        sector_vectors hper hlength (List.mem_range.mp hsector)]
    refine ⟨_, rfl, reorderStored_of_sectors hper hbytes hlength ?_⟩
    rw [RecordLayout.length_rows_flatten hwidth, hcount]
    rfl

def plainNodes (npts : Nat) : Cursors :=
  ⟨List.replicate npts 7, (List.replicate npts (encodeLittle 4 1 ++ encodeLittle 4 0)).flatten⟩

def reorderZeros (npts ndims : Nat) : List UInt8 :=
  encodeLittle 4 npts ++ encodeLittle 4 ndims ++ List.replicate (4 * npts * ndims) 0

theorem createReorderedLayout_iff_one :
    (∃ file, createReorderedLayout true .uint8 ⟨1, 1, 1, 0, 0⟩ (plainNodes 1) (reorderZeros 1 1) =
      .ok file ∧ ReorderStored .uint8 ⟨1, 1, 1, 0, 0⟩ 1 (nDataNodesPerSector 1) [0, 0, 0, 0] file) ↔
        FillsSectors 1 1 :=
  @createReorderedLayout_iff true .uint8 ⟨1, 1, 1, 0, 0⟩ _ _ _ _
    [[7, 1, 0, 0, 0, 0, 0, 0, 0]] (by decide +kernel) (by decide +kernel)

theorem openReorderData_zeros (hnpts : npts < 256 ^ 4) (hndims : ndims < 256 ^ 4)
    (hsize : 8 + 4 * npts * ndims < 2 ^ 64) :
    openReorderData npts (reorderZeros npts ndims) =
      .ok (ndims, List.replicate (4 * npts * ndims) 0) := by
  have hfirst := Reads.word ReorderFailure.fileException hnpts
    (encodeLittle 4 ndims ++ List.replicate (4 * npts * ndims) 0)
  have hsecond := Reads.word ReorderFailure.fileException hndims
    (List.replicate (4 * npts * ndims) 0)
  have hlength : (encodeLittle 4 npts ++ (encodeLittle 4 ndims ++
      List.replicate (4 * npts * ndims) 0)).length = (8 + 4 * npts * ndims) % 2 ^ 64 := by
    simp only [List.length_append, length_encodeLittle, List.length_replicate]
    omega
  simp only [openReorderData, reorderZeros, List.append_assoc, bind, Except.bind, hfirst, hsecond,
    reject, hlength, ne_eq, not_true_eq_false, if_false]

/-- Three vectors of half a sector: the loop reads a fourth. -/
theorem createReorderedLayout_partial :
    (∃ vectors, openReorderData 3 (reorderZeros 3 512) = .ok (512, vectors)) ∧
      createReorderedLayout true .uint8 ⟨3, 1, 1, 0, 0⟩ (plainNodes 3) (reorderZeros 3 512) =
        .error .streamFailure := by
  have hopen := @openReorderData_zeros 3 512 (by decide) (by decide) (by decide)
  have hnodes : writeNodes true .uint8 ⟨3, 1, 1, 0, 0⟩ 3 (plainNodes 3) =
      .ok (List.replicate 3 [7, 1, 0, 0, 0, 0, 0, 0, 0]) := by decide +kernel
  have hlength := @List.length_replicate _ (4 * 3 * 512) (0 : UInt8)
  generalize List.replicate (4 * 3 * 512) (0 : UInt8) = vectors at hopen hlength
  refine ⟨⟨_, hopen⟩, ?_⟩
  rw [createReorderedLayout, hopen, hnodes]
  change (reorderSectors 3 2048 2 2 vectors >>= _) = _
  rw [reorderSectors_eq, hlength]
  rfl

end SkipCell.DiskIndex

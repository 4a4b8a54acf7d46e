import SkipCell.DiskIndex.FlashReader

/-! # The nodes and entry points of a loaded index

`load` relates the length of a record to its degree, but not to the records of a sector, and takes
the medoids of a file as they are.
-/

namespace SkipCell.DiskIndex

open Foundation IoIndex

/-- `file_exception_t`, whose message goes on with the path and the reason. -/
def fileException : Error := .diskannException " While opening file '"

/-- The rows, the columns and the values of a bin file. Bytes behind them are left alone. -/
def loadBin (width : Nat) (file : List UInt8) : Except Error (Nat × Nat × List Nat) := do
  let (npts, rest) ← readWord fileException 4 file
  let (dim, rest) ← readWord fileException 4 rest
  let (data, _) ← readMany (readWord fileException width) (npts * dim) rest
  .ok (npts, dim, data)

/-- The shape of a centroid file, as `load_aligned_bin` finds it. -/
structure CentroidShape where
  numCentroids : Nat
  centroidDimension : Nat

structure EntryFiles where
  medoids : Option (List UInt8)
  centroids : Option CentroidShape

/-- The medoids that searches start from. Where no centroid file exists the source goes on to read
the vectors of the medoids, which rejects none. -/
def loadMedoids (shape : PqShape) (index : FlashIndex) (files : EntryFiles) :
    Except Error (List Nat) :=
  match files.medoids with
  | none => .ok [index.medoid]
  | some file => do
    let (numMedoids, medoidDimension, medoids) ← loadBin 4 file
    reject (medoidDimension ≠ 1 ∨ numMedoids = 0) (.diskannException "Invalid medoids file")
    match files.centroids with
    | none => .ok medoids
    | some centroids => do
      reject (centroids.numCentroids ≠ numMedoids ∨
          centroids.centroidDimension ≠ shape.dataDim)
        (.diskannException "Centroid file does not match disk index")
      .ok medoids

def loadEntries (shape : PqShape) (disk : List UInt8) (files : EntryFiles) :
    Except Error (FlashIndex × List Nat) := do
  let index ← load shape disk
  let medoids ← loadMedoids shape index files
  .ok (index, medoids)

/-- The record of a node is in the sectors that a read fetches, its neighbors are in the record,
and the entry points are nodes. Sectors are divided by `nodesPerSector` where it is positive. -/
structure InBounds (shape : PqShape) (index : FlashIndex) (medoids : List Nat) : Prop where
  first : ∀ node < shape.numPoints, index.getNodeSector node * sectorLen ≤ index.nodeStart node
  last : ∀ node < shape.numPoints, index.nodeStart node + index.maxNodeLen ≤
    (index.getNodeSector node + index.numSectors) * sectorLen
  neighbors : index.diskBytesPerPoint + 4 + 4 * index.maxDegree ≤ index.maxNodeLen
  medoids : ∀ medoid ∈ medoids, medoid < shape.numPoints

/-- The records of a sector fit in it, as far as there are nodes for them. -/
def SectorHolds (shape : PqShape) (disk : List UInt8) : Prop :=
  ∀ metadata rest, readMetadata truncatedMetadata disk = .ok (metadata, rest) →
    metadata.nodesPerSector = 0 ∨
      min shape.numPoints metadata.nodesPerSector * metadata.maxNodeLen ≤ sectorLen

/-- The medoid file names nodes only. -/
def MedoidsKnown (shape : PqShape) (files : EntryFiles) : Prop :=
  ∀ file ∈ files.medoids, ∀ rows columns ids, loadBin 4 file = .ok (rows, columns, ids) →
    ∀ id ∈ ids, id < shape.numPoints

variable {index : FlashIndex}

theorem load_eq_ok {shape : PqShape} {disk : List UInt8} (hload : load shape disk = .ok index) :
    (∃ metadata rest, readMetadata truncatedMetadata disk = .ok (metadata, rest) ∧
      index.nodesPerSector = metadata.nodesPerSector ∧ index.maxNodeLen = metadata.maxNodeLen) ∧
      index.medoid < shape.numPoints ∧
      index.diskBytesPerPoint + 4 + 4 * index.maxDegree ≤ index.maxNodeLen := by
  simp only [load, bind_ok, reject_ok, not_or, not_le] at hload
  obtain ⟨⟨metadata, rest⟩, hread, _, _, _, ⟨_, _, hmedoid⟩, _, hlength, _, _, _, _, hindex⟩ := hload
  cases hindex
  refine ⟨⟨metadata, rest, hread, rfl, rfl⟩, hmedoid, ?_⟩
  dsimp only at hlength ⊢
  omega

theorem records_inside_iff {count : Nat} (hcount : 0 < count) :
    (∀ node < count, index.offsetToNode node + index.maxNodeLen ≤ index.numSectors * sectorLen) ↔
      index.nodesPerSector = 0 ∨
        min count index.nodesPerSector * index.maxNodeLen ≤ sectorLen := by
  unfold FlashIndex.offsetToNode FlashIndex.numSectors
  by_cases hzero : index.nodesPerSector = 0
  · have hwhole := le_divRoundUp_mul index.maxNodeLen (show 0 < sectorLen by decide)
    simp [hzero, hwhole]
  · have hpositive := Nat.pos_of_ne_zero hzero
    simp only [hzero, if_false, hpositive, if_true, Nat.one_mul, false_or]
    constructor
    · intro hinside
      -- the last record of the first sector is the one that reaches furthest
      have hlast := hinside (min count index.nodesPerSector - 1) (by omega)
      rw [Nat.mod_eq_of_lt (by omega), ← Nat.succ_mul] at hlast
      simpa [Nat.sub_add_cancel (Nat.lt_min.mpr ⟨hcount, hpositive⟩)] using hlast
    · intro hfits node hnode
      have hplace : node % index.nodesPerSector + 1 ≤ min count index.nodesPerSector :=
        Nat.le_min.mpr ⟨(Nat.mod_le _ _).trans_lt hnode, Nat.mod_lt _ hpositive⟩
      calc node % index.nodesPerSector * index.maxNodeLen + index.maxNodeLen
          = (node % index.nodesPerSector + 1) * index.maxNodeLen := (Nat.succ_mul _ _).symm
        _ ≤ min count index.nodesPerSector * index.maxNodeLen := Nat.mul_le_mul_right _ hplace
        _ ≤ sectorLen := hfits

theorem medoids_known_iff {shape : PqShape} {files : EntryFiles} {medoids : List Nat}
    (hmedoid : index.medoid < shape.numPoints)
    (hload : loadMedoids shape index files = .ok medoids) :
    (∀ medoid ∈ medoids, medoid < shape.numPoints) ↔ MedoidsKnown shape files := by
  unfold MedoidsKnown
  unfold loadMedoids at hload
  cases hfile : files.medoids with
  | none =>
    simp only [hfile, Except.ok.injEq] at hload
    subst hload
    simp [hmedoid]
  | some file =>
    simp only [hfile, bind_ok, reject_ok] at hload
    obtain ⟨⟨rows, columns, ids⟩, hbin, _, _, hrest⟩ := hload
    have hids : ids = medoids := by
      cases hcentroids : files.centroids with
      | none => simpa [hcentroids] using hrest
      | some centroids =>
        simp only [hcentroids, bind_ok, Except.ok.injEq] at hrest
        obtain ⟨_, _, hsame⟩ := hrest
        exact hsame
    subst hids
    simp [hbin]

/-- An index that was loaded is read in bounds when its sectors hold their records and its medoid
file names nodes, which `load` does not check. -/
theorem loadEntries_inBounds_iff {shape : PqShape} {disk : List UInt8} {files : EntryFiles}
    {index : FlashIndex} {medoids : List Nat}
    (hload : loadEntries shape disk files = .ok (index, medoids)) :
    InBounds shape index medoids ↔ SectorHolds shape disk ∧ MedoidsKnown shape files := by
  simp only [loadEntries, bind_ok, Except.ok.injEq, Prod.mk.injEq] at hload
  obtain ⟨index, hindex, medoids, hmedoids, rfl, rfl⟩ := hload
  obtain ⟨⟨metadata, rest, hread, hper, hlength⟩, hmedoid, hneighbors⟩ := load_eq_ok hindex
  have hinside := @records_inside_iff index shape.numPoints (Nat.zero_lt_of_lt hmedoid)
  have hholds : SectorHolds shape disk ↔ index.nodesPerSector = 0 ∨
      min shape.numPoints index.nodesPerSector * index.maxNodeLen ≤ sectorLen := by
    unfold SectorHolds
    rw [hper, hlength]
    simp [hread]
  have hknown := medoids_known_iff hmedoid hmedoids
  rw [hholds, ← hinside, ← hknown]
  constructor
  · intro hbounds
    refine ⟨fun node hnode => ?_, hbounds.medoids⟩
    have hlast := hbounds.last node hnode
    rw [FlashIndex.nodeStart, Nat.add_mul, Nat.add_assoc] at hlast
    exact Nat.le_of_add_le_add_left hlast
  · rintro ⟨hrecords, hall⟩
    refine ⟨fun node _ => Nat.le_add_right _ _, fun node hnode => ?_, hneighbors, hall⟩
    rw [FlashIndex.nodeStart, Nat.add_mul, Nat.add_assoc]
    exact Nat.add_le_add_left (hrecords node hnode) _

def twoNodes (maxNodeLen nodesPerSector : Nat) : List UInt8 :=
  encodeLittle 4 9 ++ encodeLittle 4 1 ++
    [2, 1, 0, maxNodeLen, nodesPerSector, 0, 0, 0, 0].flatMap (encodeLittle 8)

theorem loadEntries_inBounds_two_records :
    InBounds ⟨2, 1, none⟩ ⟨4, 12, 2, 1, 0, 0, 0⟩ [0] ↔
      SectorHolds ⟨2, 1, none⟩ (twoNodes 12 2) ∧ MedoidsKnown ⟨2, 1, none⟩ ⟨none, none⟩ :=
  loadEntries_inBounds_iff (by decide +kernel)

/-- Two records of 2056 bytes are taken to share a sector. -/
theorem loadEntries_accepts_overlong :
    ∃ index, loadEntries ⟨2, 1, none⟩ (twoNodes 2056 2) ⟨none, none⟩ = .ok (index, [0]) ∧
      ¬ InBounds ⟨2, 1, none⟩ index [0] := by
  refine ⟨⟨4, 2056, 2, 512, 0, 0, 0⟩, by decide +kernel, fun hbounds => ?_⟩
  exact absurd (hbounds.last 1 (by decide)) (by decide)

end SkipCell.DiskIndex

import SkipCell.Sidecar.Codec
import SkipCell.Sidecar.Settings

/-! # What is written is loaded again

Each record is read back from its bytes, each section from its place in the file,
and an index from the file that was written for it. Fields that the file has no
room for come back as their defaults.
-/

namespace SkipCell.Sidecar

open Foundation

/-! ## Words and records -/

theorem reads_u32 (value : UInt32) : Reads readU32Le (appendU32Le value) value := by
  have hreads := (Reads.word truncated (show value.toNat < 256 ^ 4 from value.toNat_lt)).map
    UInt32.ofNat
  rwa [UInt32.ofNat_toNat] at hreads

theorem reads_u64 (value : UInt64) : Reads readU64Le (appendU64Le value) value := by
  have hreads := (Reads.word truncated (show value.toNat < 256 ^ 8 from value.toNat_lt)).map
    UInt64.ofNat
  rwa [UInt64.ofNat_toNat] at hreads

theorem reads_i32 (value : Int32) : Reads readI32Le (appendI32Le value) value :=
  (reads_u32 value.toUInt32).map UInt32.toInt32

theorem reads_float (value : Single) : Reads readFloatLe (appendFloatLe value) value :=
  (reads_u32 value.bits).map Single.mk

theorem reads_double (value : Double) : Reads readDoubleLe (appendDoubleLe value) value :=
  (reads_u64 value.bits).map Double.mk

theorem reads_strictBool (value : Bool) (failure : Error) :
    Reads (readStrictBool failure) (appendBool value) value := by
  have hflag : Reads ((if 1 < (if value then (1 : UInt32) else 0) then throw failure
      else pure ((if value then (1 : UInt32) else 0) != 0)) : Reader Bool) [] value := by
    cases value <;> exact .pure _
  rw [← List.append_nil (appendBool value)]
  exact (reads_u32 (if value then 1 else 0)).bind hflag

section Fields

variable {α : Type} {next : UInt32 → Reader α} {wide : UInt64 → Reader α}
  {single : Single → Reader α} {double : Double → Reader α} {bytes : List UInt8} {result : α}

@[simp]
theorem reads_u32_bind (value : UInt32) :
    Reads (readU32Le >>= next) (appendU32Le value ++ bytes) result ↔
      Reads (next value) bytes result :=
  (reads_u32 value).bind_iff

@[simp]
theorem reads_u64_bind (value : UInt64) :
    Reads (readU64Le >>= wide) (appendU64Le value ++ bytes) result ↔
      Reads (wide value) bytes result :=
  (reads_u64 value).bind_iff

@[simp]
theorem reads_float_bind (value : Single) :
    Reads (readFloatLe >>= single) (appendFloatLe value ++ bytes) result ↔
      Reads (single value) bytes result :=
  (reads_float value).bind_iff

@[simp]
theorem reads_double_bind (value : Double) :
    Reads (readDoubleLe >>= double) (appendDoubleLe value ++ bytes) result ↔
      Reads (double value) bytes result :=
  (reads_double value).bind_iff

@[simp]
theorem reads_i32_bind {signed : Int32 → Reader α} (value : Int32) :
    Reads (readI32Le >>= signed) (appendI32Le value ++ bytes) result ↔
      Reads (signed value) bytes result :=
  (reads_i32 value).bind_iff

@[simp]
theorem reads_strictBool_bind {strict : Bool → Reader α} (value : Bool) (failure : Error) :
    Reads (readStrictBool failure >>= strict) (appendBool value ++ bytes) result ↔
      Reads (strict value) bytes result :=
  (reads_strictBool value failure).bind_iff

@[simp]
theorem reads_flag_bind (value : Bool) :
    Reads (readU32Le >>= next) (appendBool value ++ bytes) result ↔
      Reads (next (if value then 1 else 0)) bytes result :=
  (reads_u32 _).bind_iff

end Fields

theorem flag_eq (value : Bool) : ((if value then (1 : UInt32) else 0) != 0) = value := by
  cases value <;> rfl

theorem reads_community (community : Community) :
    Reads readCommunity (communityBytes community) community := by
  simp only [readCommunity, communityBytes, List.flatten_cons, List.flatten_nil, reads_u32_bind,
    reads_u64_bind, reads_float_bind, reads_flag_bind, flag_eq, Reads.pure]

theorem reads_edge (edge : Edge) : Reads readEdge (edgeBytes edge) edge := by
  simp only [readEdge, edgeBytes, List.flatten_cons, List.flatten_nil, reads_u32_bind,
    reads_u64_bind, Reads.pure]

theorem reads_gateway (gateway : Gateway) : Reads readGateway (gatewayBytes gateway) gateway := by
  simp only [readGateway, gatewayBytes, List.flatten_cons, List.flatten_nil, reads_u32_bind,
    reads_u64_bind, Reads.pure]

theorem reads_sector (sector : Sector) : Reads readSector (sectorBytes sector) sector := by
  simp only [readSector, sectorBytes, List.flatten_cons, List.flatten_nil, reads_u32_bind,
    reads_u64_bind, reads_float_bind, Reads.pure]

theorem reads_block (block : Block) : Reads readBlock (blockBytes block) block := by
  simp only [readBlock, blockBytes, List.flatten_cons, List.flatten_nil, reads_u32_bind,
    reads_u64_bind, reads_float_bind, Reads.pure]

theorem reads_cellHierarchyNode (node : CellHierarchyNode) :
    Reads readCellHierarchyNode (cellHierarchyNodeBytes node) node := by
  simp only [readCellHierarchyNode, cellHierarchyNodeBytes, List.flatten_cons, List.flatten_nil,
    reads_u32_bind, reads_u64_bind, reads_float_bind, reads_strictBool_bind, Reads.pure]

variable {version : UInt32} {config : BuildConfig} {index : Index}
    {sections : List SerializedSection}

theorem reads_cell {cellTargetSize : UInt32} {cell : Cell}
    (hcapacity : version < 6 → cell.capacityClass = cellTargetSize) :
    Reads (readCell version cellTargetSize) (cellBytes version cell) cell := by
  by_cases hversion : 6 ≤ version
  · simp only [readCell, cellBytes, hversion, if_true, List.flatten_cons, List.flatten_nil,
      reads_u32_bind, reads_u64_bind, reads_float_bind, Reads.pure]
  · simp only [readCell, cellBytes, hversion, if_false, List.flatten_cons, List.flatten_nil,
      List.nil_append, pure_bind, ← hcapacity (UInt32.not_le.mp hversion), reads_u32_bind,
      reads_u64_bind, reads_float_bind, Reads.pure]

theorem reads_header (header : Header) : Reads readHeader (fixedHeaderBytes header) header := by
  simp only [readHeader, fixedHeaderBytes, List.flatten_cons, List.flatten_nil, reads_u32_bind,
    reads_u64_bind, Reads.pure]

theorem ofRaw_toRaw_quality {choice : PartitionQuality}
    (hvalid : choice = .fast ∨ choice = .quality) : .ofRaw choice.toRaw = choice := by
  rcases hvalid with rfl | rfl <;> rfl

theorem ofRaw_toRaw_projection {projection : PartitionProjection} {degree : UInt32}
    (hvalid : projectionDegree projection = .ok degree) : .ofRaw projection.toRaw = projection := by
  cases projection with
  | other raw => cases hvalid
  | _ => rfl

def CellPartition.Known (partition : CellPartition) : Prop :=
  partition = .polarRadial ∨ partition = .graphLocal ∨ partition = .convergenceCoaccess ∨
    partition = .globalGeometric ∨ partition = .globalGraphLocal

theorem ofRaw_toRaw_partition {partition : CellPartition} (hvalid : partition.Known) :
    .ofRaw partition.toRaw = partition := by
  rcases hvalid with rfl | rfl | rfl | rfl | rfl <;> rfl

/-- The fields of a configuration that a file of the version has room for; the
others have their defaults. -/
def storedConfig (version : UInt32) (config : BuildConfig) : BuildConfig :=
  let fixed : BuildConfig :=
    { communityCount := config.communityCount, communityImbalance := config.communityImbalance
      partitionQuality := config.partitionQuality
      partitionProjection := config.partitionProjection
      partitionThreads := config.partitionThreads, partitionSeed := config.partitionSeed
      gatewayCount := config.gatewayCount, gatewayShortlist := config.gatewayShortlist
      polarDirectionCount := config.polarDirectionCount, cellTargetSize := config.cellTargetSize
      blockTargetSize := config.blockTargetSize
      sphericalKmeansIterations := config.sphericalKmeansIterations
      cellPartition := config.cellPartition }
  if 6 ≤ version then
    { fixed with
      adaptiveMultiCapacity := config.adaptiveMultiCapacity
      adaptivePolicyVersion := config.adaptivePolicyVersion
      adaptivePageBytes := config.adaptivePageBytes
      adaptiveVectorBytes := config.adaptiveVectorBytes
      adaptiveLruPages := config.adaptiveLruPages
      adaptiveMaximumNormalizedRmsRadius := config.adaptiveMaximumNormalizedRmsRadius
      adaptiveMaximumNormalizedP95Radius := config.adaptiveMaximumNormalizedP95Radius
      adaptiveMaximumSplitGain := config.adaptiveMaximumSplitGain
      adaptiveMinimumCentroidRadiusOverlap := config.adaptiveMinimumCentroidRadiusOverlap
      adaptiveMinimumTrainCrossChildCoaccess := config.adaptiveMinimumTrainCrossChildCoaccess
      adaptiveMaximumUnseenPqIncrease := config.adaptiveMaximumUnseenPqIncrease }
  else fixed

/-- An index as a file of the version holds it. Its arrays, counts and
fingerprints are all there. -/
def Index.storedAt (index : Index) (version : UInt32) : Index :=
  { index with config := storedConfig version index.config }

/-- An index as its own file holds it. -/
def Index.stored (index : Index) : Index := index.storedAt (sidecarVersion index.config)

theorem storedConfig_enumerators (version : UInt32) (config : BuildConfig) :
    (storedConfig version config).partitionQuality = config.partitionQuality ∧
      (storedConfig version config).partitionProjection = config.partitionProjection ∧
      (storedConfig version config).cellPartition = config.cellPartition ∧
      (storedConfig version config).cellTargetSize = config.cellTargetSize := by
  unfold storedConfig
  split <;> exact ⟨rfl, rfl, rfl, rfl⟩

theorem storedConfig_same (hadaptive : version < 6 → config.adaptiveMultiCapacity = false) :
    SameSettings config (storedConfig version config) := by
  by_cases hversion : 6 ≤ version
  · rw [storedConfig, if_pos hversion]
    exact ⟨rfl, rfl, rfl, rfl, rfl, rfl, rfl, fun _ => rfl⟩
  · have hfixed := hadaptive (UInt32.not_le.mp hversion)
    rw [storedConfig, if_neg hversion]
    exact ⟨rfl, rfl, rfl, rfl, rfl, rfl, hfixed.symm, fun htrue => by simp [hfixed] at htrue⟩

theorem reads_config (hversion : 3 ≤ version)
    (hquality : .ofRaw index.config.partitionQuality.toRaw = index.config.partitionQuality)
    (hprojection :
      .ofRaw index.config.partitionProjection.toRaw = index.config.partitionProjection)
    (hpartition : .ofRaw index.config.cellPartition.toRaw = index.config.cellPartition) :
    Reads (readConfigSection version) (configBytes index version)
      ⟨storedConfig version index.config, index.entryPointId, index.directedBaseEdgeCount,
        index.undirectedPartitionEdgeCount, index.weightedEdgeCut⟩ := by
  have hprojected : 2 ≤ version := by
    rw [UInt32.le_iff_toNat_le] at hversion ⊢
    exact (by decide : (2 : UInt32).toNat ≤ (3 : UInt32).toNat).trans hversion
  by_cases hadaptive : 6 ≤ version
  · simp only [readConfigSection, readAdaptiveConfig, configBytes, storedConfig, hprojected,
      hversion, hadaptive, if_true, List.flatten_cons, List.flatten_nil, List.nil_append,
      List.append_assoc, bind_assoc, pure_bind, map_eq_pure_bind, reads_u32_bind, reads_u64_bind,
      reads_double_bind, reads_i32_bind, reads_strictBool_bind, hquality, hprojection, hpartition,
      Reads.pure]
  · simp only [readConfigSection, configBytes, storedConfig, hprojected, hversion, hadaptive,
      if_true, if_false, List.flatten_cons, List.flatten_nil, List.nil_append, bind_assoc,
      pure_bind, map_eq_pure_bind, reads_u32_bind, reads_u64_bind, reads_double_bind,
      reads_i32_bind, hquality, hprojection, hpartition, Reads.pure]

/-! ## The directory -/

/-- The bytes of the sections together. -/
def bodyLength (sections : List SerializedSection) : Nat :=
  (sections.flatMap SerializedSection.bytes).length

theorem bodyLength_cons (current : SerializedSection) (sections : List SerializedSection) :
    bodyLength (current :: sections) = current.bytes.length + bodyLength sections := by
  simp [bodyLength]

/-- The entries of sections that follow one another from `offset`. -/
def entriesFrom : Nat → List SerializedSection → List DirectoryEntry
  | _, [] => []
  | offset, current :: sections =>
    ⟨current.id, offset, current.bytes.length, current.recordCount⟩ ::
      entriesFrom (offset + current.bytes.length) sections

theorem makeDirectory_ok {offset : Nat} (hsize : offset + bodyLength sections < 2 ^ 64) :
    makeDirectory offset sections =
      .ok (entriesFrom offset sections, offset + bodyLength sections) := by
  induction sections generalizing offset with
  | nil => rfl
  | cons current sections ih =>
    rw [bodyLength_cons, ← Nat.add_assoc] at hsize
    have hnext : checkedAdd offset current.bytes.length "Community-Polar file bytes" =
        .ok (offset + current.bytes.length) := by
      rw [checkedAdd_eq_ok]
      omega
    rw [makeDirectory, hnext]
    change (makeDirectory (offset + current.bytes.length) sections >>= _) = _
    rw [ih hsize, bodyLength_cons, ← Nat.add_assoc]
    rfl

theorem eq_of_makeDirectory {offset total : Nat} {directory : List DirectoryEntry}
    (hmake : makeDirectory offset sections = .ok (directory, total)) :
    directory = entriesFrom offset sections ∧ total = offset + bodyLength sections := by
  induction sections generalizing offset directory with
  | nil =>
    obtain ⟨rfl, rfl⟩ := Prod.mk.inj (Except.ok.inj hmake)
    exact ⟨rfl, rfl⟩
  | cons current sections ih =>
    simp only [makeDirectory, bind_ok, checkedAdd_eq_ok] at hmake
    obtain ⟨_, ⟨-, rfl⟩, ⟨rest, last⟩, hrest, hresult⟩ := hmake
    obtain ⟨rfl, rfl⟩ := Prod.mk.inj (Except.ok.inj hresult)
    obtain ⟨rfl, rfl⟩ := ih hrest
    exact ⟨rfl, by rw [bodyLength_cons, Nat.add_assoc]⟩

def rawEntry (entry : DirectoryEntry) : RawEntry :=
  ⟨.ofNat entry.id.toRaw, .ofNat entry.offset, .ofNat entry.length, .ofNat entry.recordCount⟩

theorem reads_entry (entry : DirectoryEntry) :
    Reads readEntry (entryBytes entry) (rawEntry entry) := by
  simp only [readEntry, entryBytes, List.flatten_cons, List.flatten_nil, reads_u32_bind,
    reads_u64_bind, rawEntry, Reads.pure]

theorem length_entryBytes (entry : DirectoryEntry) :
    (entryBytes entry).length = kSectionEntrySize := by
  simp [entryBytes, appendU32Le, appendU64Le, kSectionEntrySize]

theorem length_fixedHeaderBytes (header : Header) : (fixedHeaderBytes header).length = 88 := by
  simp [fixedHeaderBytes, appendU32Le, appendU64Le]

theorem ofRaw_toRaw (id : SectionId) : SectionId.ofRaw id.toRaw = some id := by
  cases id <;> rfl

theorem toRaw_le (id : SectionId) : id.toRaw ≤ kSectionCount := by
  cases id <;> decide

theorem checkDirectory_ok {offset fileSize : Nat} {seen : List SectionId}
    (hids : (sections.map SerializedSection.id).Nodup)
    (hfresh : ∀ current ∈ sections, current.id ∉ seen)
    (hcounts : ∀ current ∈ sections, current.recordCount < 2 ^ 64)
    (hsize : offset + bodyLength sections ≤ fileSize) (hfile : fileSize < fileSizeLimit) :
    checkDirectory kSectionCount fileSize ((entriesFrom offset sections).map rawEntry) offset seen =
      .ok (entriesFrom offset sections, offset + bodyLength sections) := by
  induction sections generalizing offset seen with
  | nil => rfl
  | cons current sections ih =>
    obtain ⟨hid, hids⟩ := List.nodup_cons.mp hids
    obtain ⟨hunseen, hfresh⟩ := List.forall_mem_cons.mp hfresh
    obtain ⟨hcount, hcounts⟩ := List.forall_mem_cons.mp hcounts
    rw [bodyLength_cons, ← Nat.add_assoc] at hsize
    have hlimit : fileSizeLimit < 2 ^ 64 := by decide
    have hraw : (UInt32.ofNat current.id.toRaw).toNat = current.id.toRaw := by
      rw [UInt32.toNat_ofNat', Nat.mod_eq_of_lt]
      exact (toRaw_le current.id).trans_lt (by decide)
    have hword : ∀ {value : Nat}, value < 2 ^ 64 → (UInt64.ofNat value).toNat = value :=
      fun hvalue => by rw [UInt64.toNat_ofNat', Nat.mod_eq_of_lt hvalue]
    have hoffset : (UInt64.ofNat offset).toNat = offset := hword (by omega)
    have hlength : (UInt64.ofNat current.bytes.length).toNat = current.bytes.length :=
      hword (by omega)
    have hrest := ih hids
      (fun other hother => List.not_mem_cons_of_ne_of_not_mem
        (fun heq => hid (List.mem_map.mpr ⟨other, hother, heq⟩)) (hfresh other hother))
      hcounts hsize
    rw [entriesFrom, List.map_cons, rawEntry, checkDirectory]
    simp only [hraw, ofRaw_toRaw, hoffset, hlength, hword hcount]
    have hchecks : ¬ (kSectionCount < current.id.toRaw ∨ current.id ∈ seen ∨ offset ≠ offset ∨
        fileSize < offset ∨ fileSize - offset < current.bytes.length) := by
      have hid := toRaw_le current.id
      simp only [hunseen, ne_eq, not_true_eq_false, false_or]
      omega
    have hnext : checkedAdd offset current.bytes.length "Community-Polar section directory" =
        .ok (offset + current.bytes.length) := by
      rw [checkedAdd_eq_ok]
      omega
    rw [reject, if_neg hchecks, hnext]
    change (checkDirectory kSectionCount fileSize _ (offset + current.bytes.length)
      (current.id :: seen) >>= _) = _
    rw [hrest, bodyLength_cons, ← Nat.add_assoc]
    rfl

/-- The directory leads to a section's bytes and to its count. -/
def Stored (file : List UInt8) (directory : List DirectoryEntry) (current : SerializedSection) :
    Prop :=
  ∃ entry, findSection directory current.id = .ok entry ∧
    sectionBytes file entry = .ok current.bytes ∧ entry.recordCount = current.recordCount

theorem stored_of_mem {file : List UInt8} {offset : Nat}
    (hids : (sections.map SerializedSection.id).Nodup) (hoffset : offset ≤ file.length)
    (hbody : file.drop offset = sections.flatMap SerializedSection.bytes)
    {current : SerializedSection} (hcurrent : current ∈ sections) :
    Stored file (entriesFrom offset sections) current := by
  induction sections generalizing offset with
  | nil => exact absurd hcurrent List.not_mem_nil
  | cons first sections ih =>
    obtain ⟨hid, hids⟩ := List.nodup_cons.mp hids
    rw [List.flatMap_cons] at hbody
    have hlength := congrArg List.length hbody
    rw [List.length_drop, List.length_append] at hlength
    have hrest : file.drop (offset + first.bytes.length) =
        sections.flatMap SerializedSection.bytes := by
      rw [← List.drop_drop, hbody, List.drop_left]
    rcases List.mem_cons.mp hcurrent with rfl | hmem
    · refine ⟨⟨current.id, offset, current.bytes.length, current.recordCount⟩, ?_, ?_, rfl⟩
      · simp [findSection, entriesFrom]
      · rw [sectionBytes, if_neg (by simp only; omega)]
        simp only [hbody, List.take_left]
    · obtain ⟨entry, hfind, hbytes⟩ := ih hids (by omega) hrest hmem
      have hne : first.id ≠ current.id := fun heq => hid (heq ▸ List.mem_map_of_mem hmem)
      refine ⟨entry, ?_, hbytes⟩
      rw [← hfind]
      simp [findSection, entriesFrom, hne]

section Sections

variable {file : List UInt8} {directory : List DirectoryEntry} {α : Type} {id : SectionId}
  {values : List α} {append : α → List UInt8} {reader : Reader α}

theorem readScalarSection_stored {size : Nat}
    (hstored : Stored file directory (makeSection id values append))
    (hreads : ∀ value, Reads reader (append value) value)
    (hwidth : ∀ value, (append value).length = size) (hsize : values.length * size < 2 ^ 64) :
    readScalarSection file directory id size reader = .ok values := by
  obtain ⟨⟨_, offset, length, recordCount⟩, hfind, hbytes, hcount⟩ := hstored
  obtain rfl : recordCount = values.length := hcount
  have hmany := Reads.many (fun value (_ : value ∈ values) => hreads value) []
  rw [List.append_nil] at hmany
  simp only [makeSection] at hfind hbytes
  simp only [readScalarSection, bind_ok, checkedMultiply_eq_ok, reject_ok]
  exact ⟨_, hfind, _, hbytes, _, ⟨hsize, rfl⟩, (),
    not_not.mpr (length_records hwidth _).symm, (values, []), hmany, rfl⟩

theorem readRecordSection_stored {bytes : List UInt8} {trailing : String}
    (hstored : Stored file directory ⟨id, values.length, bytes⟩)
    (hreads : Reads (readMany reader values.length) bytes values) :
    readRecordSection file directory id reader trailing = .ok values := by
  obtain ⟨⟨_, offset, length, recordCount⟩, hfind, hbytes, hcount⟩ := hstored
  obtain rfl : recordCount = values.length := hcount
  simp only [readRecordSection, bind_ok]
  exact ⟨_, hfind, _, hbytes, hreads.all _⟩

end Sections

/-! ## Files -/

def fullHeaderSize : Nat := kFixedHeaderSize + kSectionCount * kSectionEntrySize

/-- A file of sections that follow one another behind their directory. -/
def sidecarFile (header : Header) (sections : List SerializedSection) : List UInt8 :=
  headerBytes header (entriesFrom fullHeaderSize sections) ++
    sections.flatMap SerializedSection.bytes

/-- A header and sections that belong together. -/
structure Framed (header : Header) (sections : List SerializedSection) : Prop where
  magic : header.magic = kCommunityPolarMagic
  endian : header.endian = kEndianMarker
  sectionCount : header.sectionCount = .ofNat kSectionCount
  headerSize : header.headerSize = .ofNat fullHeaderSize
  hierarchical : 5 ≤ header.version
  known : header.version ≤ kCommunityPolarVersion
  hash : header.bodyHash = fnvBytes fnvOffsetBasis (sections.flatMap SerializedSection.bytes)
  bodySize : header.bodySize = .ofNat (bodyLength sections)
  ids : (sections.map SerializedSection.id) = SectionId.all
  counts : ∀ current ∈ sections, current.recordCount < 2 ^ 64
  size : fullHeaderSize + bodyLength sections < fileSizeLimit

namespace Framed

variable {header : Header} {sections : List SerializedSection}

section

variable (hframed : Framed header sections)
include hframed

theorem nodup :
    (sections.map SerializedSection.id).Nodup := by
  rw [hframed.ids]
  decide

theorem length_headerBytes :
    (headerBytes header (entriesFrom fullHeaderSize sections)).length = fullHeaderSize := by
  have hentries : ∀ (sections : List SerializedSection) (offset : Nat),
      (entriesFrom offset sections).length = sections.length := by
    intro sections
    induction sections with
    | nil => exact fun _ => rfl
    | cons current sections ih => exact fun offset => congrArg Nat.succ (ih _)
  have hcount : sections.length = kSectionCount := by
    rw [← List.length_map SerializedSection.id, hframed.ids]
    rfl
  rw [headerBytes, List.length_append, List.length_append, List.length_replicate,
    length_fixedHeaderBytes, length_records length_entryBytes, hentries, hcount]
  rfl

theorem length_file :
    (sidecarFile header sections).length = fullHeaderSize + bodyLength sections := by
  rw [sidecarFile, List.length_append, hframed.length_headerBytes]
  rfl

theorem drop_header :
    (sidecarFile header sections).drop fullHeaderSize =
      sections.flatMap SerializedSection.bytes :=
  List.drop_left' hframed.length_headerBytes

theorem readMany_entries :
    ∃ rest, readMany readEntry kSectionCount
      ((sidecarFile header sections).drop kFixedHeaderSize) =
        .ok ((entriesFrom fullHeaderSize sections).map rawEntry, rest) := by
  have hcount : ((entriesFrom fullHeaderSize sections).map rawEntry).length = kSectionCount := by
    have hlength := hframed.length_headerBytes
    rw [headerBytes, List.length_append, List.length_append, List.length_replicate,
      length_fixedHeaderBytes, length_records length_entryBytes] at hlength
    rw [List.length_map]
    simp only [fullHeaderSize, kFixedHeaderSize, kSectionCount, kSectionEntrySize] at hlength ⊢
    omega
  have hmany : ∀ entries : List DirectoryEntry, Reads (readMany readEntry entries.length)
      (entries.flatMap entryBytes) (entries.map rawEntry) := by
    intro entries
    induction entries with
    | nil => exact .pure []
    | cons entry entries ih =>
      rw [List.flatMap_cons, ← List.append_nil (entries.flatMap entryBytes)]
      exact (reads_entry entry).bind (ih.bind (.pure (rawEntry entry :: entries.map rawEntry)))
  refine ⟨sections.flatMap SerializedSection.bytes, ?_⟩
  have hread := hmany (entriesFrom fullHeaderSize sections)
    (sections.flatMap SerializedSection.bytes)
  rw [← List.length_map rawEntry, hcount] at hread
  rw [← hread, sidecarFile, headerBytes, List.append_assoc, List.drop_left']
  rw [List.length_append, List.length_replicate, length_fixedHeaderBytes]
  rfl

theorem loadDirectory_ok :
    loadDirectory (sidecarFile header sections) =
      .ok (header, entriesFrom fullHeaderSize sections) := by
  have hsize := hframed.size
  have hlength := hframed.length_file
  have hheader : ∃ rest, readHeader (sidecarFile header sections) = .ok (header, rest) := by
    rw [sidecarFile, headerBytes, List.append_assoc, List.append_assoc]
    exact ⟨_, reads_header header _⟩
  obtain ⟨rest, hheader⟩ := hheader
  obtain ⟨behind, hentries⟩ := hframed.readMany_entries
  have hexpected : expectedSectionCount header.version = kSectionCount := by
    rw [expectedSectionCount, if_pos hframed.hierarchical]
  have hunseen : ∀ current ∈ sections, current.id ∉ ([] : List SectionId) :=
    fun _ _ => List.not_mem_nil
  have hdirectory := checkDirectory_ok hframed.nodup hunseen hframed.counts
    (Nat.le_refl (fullHeaderSize + bodyLength sections)) hframed.size
  have hfull : kFixedHeaderSize + kSectionCount * kSectionEntrySize = fullHeaderSize := rfl
  have hbodySize : header.bodySize.toNat = bodyLength sections := by
    rw [hframed.bodySize, UInt64.toNat_ofNat', Nat.mod_eq_of_lt]
    rw [fileSizeLimit] at hsize
    omega
  simp only [loadDirectory, bind_ok, reject_ok, hlength]
  refine ⟨(), Nat.not_le.mpr hsize, (header, rest), hheader, ?_⟩
  simp only [hexpected, hfull]
  refine ⟨(), ?_, (_, behind), hentries, (_, fullHeaderSize + bodyLength sections), hdirectory, (),
    ?_, rfl⟩
  · simp only [hframed.magic, hframed.endian, hframed.sectionCount, hframed.headerSize, hbodySize,
      not_or, not_not, ne_eq, not_true_eq_false, not_false_eq_true, true_and, UInt32.not_lt,
      Nat.not_lt]
    refine ⟨?_, hframed.known, rfl, rfl, Nat.le_add_right _ _, ?_⟩
    · exact UInt32.le_trans (by decide) hframed.hierarchical
    · omega
  · simp only [hframed.drop_header, hframed.hash, ne_eq, not_true_eq_false, or_self,
      not_false_eq_true]

theorem stored {current : SerializedSection} (hcurrent : current ∈ sections) :
    Stored (sidecarFile header sections) (entriesFrom fullHeaderSize sections) current :=
  stored_of_mem hframed.nodup (hframed.length_file ▸ Nat.le_add_right _ _) hframed.drop_header
    hcurrent

theorem length_bytes_lt {current : SerializedSection} (hcurrent : current ∈ sections) :
    current.bytes.length < 2 ^ 64 := by
  have hle : current.bytes.length ≤ bodyLength sections := by
    rw [bodyLength, List.flatMap_def]
    exact (List.sublist_flatten_of_mem (List.mem_map_of_mem hcurrent)).length_le
  have hsize := hframed.size
  rw [fileSizeLimit] at hsize
  omega

end

section Load

variable {α : Type} {id : SectionId} {values : List α} {append : α → List UInt8}
  {reader : Reader α}

theorem readScalar (hframed : Framed header sections) {size : Nat}
    (hsection : makeSection id values append ∈ sections)
    (hreads : ∀ value, Reads reader (append value) value)
    (hwidth : ∀ value, (append value).length = size) :
    readScalarSection (sidecarFile header sections) (entriesFrom fullHeaderSize sections) id size
      reader = .ok values := by
  have hlength := hframed.length_bytes_lt hsection
  rw [makeSection, length_records hwidth _] at hlength
  exact readScalarSection_stored (hframed.stored hsection) hreads hwidth hlength

theorem readRecords (hframed : Framed header sections) {bytes : List UInt8} {trailing : String}
    (hsection : ⟨id, values.length, bytes⟩ ∈ sections)
    (hreads : Reads (readMany reader values.length) bytes values) :
    readRecordSection (sidecarFile header sections) (entriesFrom fullHeaderSize sections) id
      reader trailing = .ok values :=
  readRecordSection_stored (hframed.stored hsection) hreads

end Load

end Framed

/-- The fields of an index that stand in the header. -/
structure HeaderOf (header : Header) (index : Index) : Prop where
  pointCount : header.pointCount = index.pointCount
  dimension : header.dimension = index.dimension
  pqCodeWidth : header.pqCodeWidth = index.pqCodeWidth
  base : header.baseIndexFingerprint = index.baseIndexFingerprint
  pq : header.pqFingerprint = index.pqFingerprint

/-- The sections of an index, whose Communities section may have other bytes. -/
def withCommunities (bytes : List UInt8) (index : Index) (version : UInt32) :
    List SerializedSection :=
  (makeSections index version).set 4 ⟨.communities, index.communities.length, bytes⟩

theorem length_appendU32Le (value : UInt32) : (appendU32Le value).length = 4 :=
  length_encodeLittle 4 _

theorem length_appendU64Le (value : UInt64) : (appendU64Le value).length = 8 :=
  length_encodeLittle 8 _

theorem length_appendFloatLe (value : Single) : (appendFloatLe value).length = 4 :=
  length_encodeLittle 4 _

theorem length_communityBytes (community : Community) :
    (communityBytes community).length = 84 := by
  simp [communityBytes, appendBool, length_appendU32Le, length_appendU64Le, length_appendFloatLe]

theorem length_edgeBytes (edge : Edge) : (edgeBytes edge).length = 28 := by
  simp [edgeBytes, length_appendU32Le, length_appendU64Le]

theorem length_gatewayBytes (gateway : Gateway) : (gatewayBytes gateway).length = 16 := by
  simp [gatewayBytes, length_appendU32Le, length_appendU64Le]

theorem length_sectorBytes (sector : Sector) : (sectorBytes sector).length = 48 := by
  simp [sectorBytes, length_appendU32Le, length_appendU64Le, length_appendFloatLe]

theorem length_cellBytes (version : UInt32) (cell : Cell) :
    (cellBytes version cell).length = if 6 ≤ version then 52 else 48 := by
  split <;> simp [cellBytes, *, length_appendU32Le, length_appendU64Le, length_appendFloatLe]

theorem length_blockBytes (block : Block) : (blockBytes block).length = 36 := by
  simp [blockBytes, length_appendU32Le, length_appendU64Le, length_appendFloatLe]

theorem length_cellHierarchyNodeBytes (node : CellHierarchyNode) :
    (cellHierarchyNodeBytes node).length = 28 := by
  simp [cellHierarchyNodeBytes, appendBool, length_appendU32Le, length_appendU64Le,
    length_appendFloatLe]

theorem known_of_valid (hvalid : validateBuildConfig config = .ok ()) :
    .ofRaw config.partitionQuality.toRaw = config.partitionQuality ∧
      .ofRaw config.partitionProjection.toRaw = config.partitionProjection ∧
      .ofRaw config.cellPartition.toRaw = config.cellPartition := by
  simp only [validateBuildConfig, bind_ok, reject_ok] at hvalid
  obtain ⟨_, -, _, -, _, hquality, degree, hdegree, _, hpartition, -⟩ := hvalid
  refine ⟨ofRaw_toRaw_quality ?_, ofRaw_toRaw_projection hdegree, ofRaw_toRaw_partition ?_⟩
  · by_contra hother
    exact hquality (not_or.mp hother)
  · by_contra hother
    simp only [CellPartition.Known, not_or] at hother
    exact hpartition hother

section LoadIndex

variable {header : Header} {index : Index} {bytes : List UInt8}

theorem section_mem (position : Nat) {current : SerializedSection}
    (hsection : (withCommunities bytes index header.version)[position]? = some current) :
    current ∈ withCommunities bytes index header.version :=
  List.mem_of_getElem? hsection

section

variable (hframed : Framed header (withCommunities bytes index header.version))
include hframed

theorem loadConfigSection_ok
    (hvalid : validateBuildConfig (storedConfig header.version index.config) = .ok ()) :
    loadConfigSection (sidecarFile header (withCommunities bytes index header.version))
        (entriesFrom fullHeaderSize (withCommunities bytes index header.version)) header.version =
      .ok ⟨storedConfig header.version index.config, index.entryPointId,
        index.directedBaseEdgeCount, index.undirectedPartitionEdgeCount, index.weightedEdgeCut⟩ := by
  have hknown := known_of_valid hvalid
  obtain ⟨hquality, hprojection, hpartition, -⟩ :=
    storedConfig_enumerators header.version index.config
  rw [hquality, hprojection, hpartition] at hknown
  have hversion : 3 ≤ header.version := UInt32.le_trans (by decide) hframed.hierarchical
  have hconfig := reads_config hversion hknown.1 hknown.2.1 hknown.2.2
  obtain ⟨entry, hfind, hbytes, hcount⟩ := hframed.stored (section_mem 0 rfl)
  simp only [loadConfigSection, bind_ok]
  exact ⟨entry, hfind, _, hbytes, _, hconfig.all _, (), reject_ok.mpr (not_not.mpr hcount), rfl⟩

theorem loadHierarchy_ok :
    loadHierarchy (sidecarFile header (withCommunities bytes index header.version))
        (entriesFrom fullHeaderSize (withCommunities bytes index header.version)) header.version =
      .ok ⟨index.cellHierarchyNodes, index.cellHierarchyRoots, index.cellHierarchyChildren,
        index.cellHierarchyCentroids⟩ := by
  rw [loadHierarchy, if_pos hframed.hierarchical]
  simp only [bind_ok]
  exact ⟨_, hframed.readRecords (section_mem 14 rfl) (.many fun node _ =>
      reads_cellHierarchyNode node),
    _, hframed.readScalar (section_mem 15 rfl) reads_u32 length_appendU32Le,
    _, hframed.readScalar (section_mem 16 rfl) reads_u32 length_appendU32Le,
    _, hframed.readScalar (section_mem 17 rfl) reads_float length_appendFloatLe, rfl⟩

theorem loadIndex_sidecarFile (hheader : HeaderOf header index)
    (hcommunities : Reads (readMany readCommunity index.communities.length) bytes index.communities)
    (hcapacity : header.version < 6 → ∀ cell ∈ index.cells, cell.capacityClass =
      index.config.cellTargetSize)
    (hvalid : validateLoadedIndex (index.storedAt header.version) = .ok ()) :
    loadIndex (sidecarFile header (withCommunities bytes index header.version)) =
      .ok (index.storedAt header.version) := by
  obtain ⟨-, -, -, htarget⟩ := storedConfig_enumerators header.version index.config
  have hconfig : validateBuildConfig (storedConfig header.version index.config) = .ok () := by
    have hvalid := hvalid
    simp only [validateLoadedIndex, bind_ok] at hvalid
    obtain ⟨_, hconfig, -⟩ := hvalid
    exact hconfig
  obtain ⟨packets, hpackets, hpayload, hcount⟩ := hframed.stored (section_mem 13 rfl)
  have hcount : ¬ packets.recordCount ≠ header.pointCount.toNat := by
    rw [hheader.pointCount]
    exact not_not.mpr hcount
  simp only [loadIndex, bind_ok]
  refine ⟨_, hframed.loadDirectory_ok, _, loadConfigSection_ok hframed hconfig,
    _, hframed.readScalar (section_mem 1 rfl) reads_u32 length_appendU32Le,
    _, hframed.readScalar (section_mem 2 rfl) reads_u32 length_appendU32Le,
    _, hframed.readScalar (section_mem 3 rfl) reads_u64 length_appendU64Le,
    _, hframed.readScalar (section_mem 5 rfl) reads_float length_appendFloatLe,
    _, hframed.readScalar (section_mem 6 rfl) reads_u64 length_appendU64Le,
    _, hframed.readScalar (section_mem 9 rfl) reads_float length_appendFloatLe,
    _, hframed.readRecords (section_mem 4 rfl) hcommunities,
    _, hframed.readRecords (section_mem 7 rfl) (.many fun edge _ => reads_edge edge),
    _, hframed.readRecords (section_mem 8 rfl) (.many fun gateway _ => reads_gateway gateway),
    _, hframed.readRecords (section_mem 10 rfl) (.many fun sector _ => reads_sector sector),
    _, hframed.readRecords (section_mem 11 rfl) (.many fun cell hcell => reads_cell ?_),
    _, hframed.readRecords (section_mem 12 rfl) (.many fun block _ => reads_block block),
    packets, hpackets, _, hpayload, (), reject_ok.mpr hcount,
    _, loadHierarchy_ok hframed, (), ?_, ?_⟩
  · exact fun hold => (hcapacity hold cell hcell).trans htarget.symm
  · simp only [hheader.pointCount, hheader.dimension, hheader.pqCodeWidth, hheader.base, hheader.pq]
    exact hvalid
  · simp only [hheader.pointCount, hheader.dimension, hheader.pqCodeWidth, hheader.base, hheader.pq]
    rfl

end

end LoadIndex

/-! ## The round trip -/

theorem validateBuildConfig_stored (hvalid : validateBuildConfig config = .ok ()) :
    validateBuildConfig (storedConfig version config) = .ok () := by
  simp only [validateBuildConfig, bind_ok] at hvalid ⊢
  obtain ⟨_, hcount, _, himbalance, _, hquality, degree, hdegree, _, hpartition, _, hgateways, _,
    hdirections, _, hsizes, -, -, -, -, -, -, hadaptiveChecks⟩ := hvalid
  by_cases hversion : 6 ≤ version
  · rw [storedConfig, if_pos hversion]
    refine ⟨(), hcount, (), himbalance, (), hquality, degree, hdegree, (), hpartition, (), hgateways,
      (), hdirections, (), hsizes, (), rfl, (), rfl, (), rfl, ?_⟩
    split at hadaptiveChecks
    · next hfixed =>
        rw [if_pos hfixed]
        rw [reject_ok, not_or] at hadaptiveChecks ⊢
        exact ⟨hadaptiveChecks.1, not_not.mpr rfl⟩
    · next hmulti =>
        rw [if_neg hmulti]
        exact hadaptiveChecks
  · rw [storedConfig, if_neg hversion]
    exact ⟨(), hcount, (), himbalance, (), hquality, degree, hdegree, (), hpartition, (), hgateways,
      (), hdirections, (), hsizes, (), rfl, (), rfl, (), rfl, rfl⟩

theorem capacityClass_of_valid (hvalid : validateLoadedIndex index = .ok ())
    (hfixed : index.config.adaptiveMultiCapacity = false) :
    ∀ cell ∈ index.cells, cell.capacityClass = index.config.cellTargetSize := by
  intro cell hcell
  obtain ⟨position, hposition⟩ := List.mem_iff_getElem?.mp hcell
  obtain ⟨accepted⟩ := accepted_of_valid hvalid
  obtain ⟨before, after, hcheck⟩ := scan_accepts accepted.cells hposition
  simp only [checkCell, bind_ok, reject_ok, hfixed, not_or, not_not, Bool.false_eq_true,
    if_false] at hcheck
  obtain ⟨_, -, _, -, _, ⟨-, -, -, -, -, hcapacity, -⟩, -⟩ := hcheck
  exact hcapacity

theorem le_bodyLength {current : SerializedSection} (hcurrent : current ∈ sections) :
    current.bytes.length ≤ bodyLength sections := by
  rw [bodyLength, List.flatMap_def]
  exact (List.sublist_flatten_of_mem (List.mem_map_of_mem hcurrent)).length_le

theorem fnvBytes_sections (hash : UInt64) (sections : List SerializedSection) :
    sections.foldl (fun hash current => fnvBytes hash current.bytes) hash =
      fnvBytes hash (sections.flatMap SerializedSection.bytes) := by
  induction sections generalizing hash with
  | nil => rfl
  | cons current sections ih =>
    rw [List.foldl_cons, ih, List.flatMap_cons, fnvBytes_append]

/-- The header that belongs to sections of an index. -/
def headerFor (index : Index) (version : UInt32) (sections : List SerializedSection) : Header :=
  { version := version, pointCount := index.pointCount, dimension := index.dimension
    pqCodeWidth := index.pqCodeWidth
    bodyHash := fnvBytes fnvOffsetBasis (sections.flatMap SerializedSection.bytes)
    baseIndexFingerprint := index.baseIndexFingerprint, pqFingerprint := index.pqFingerprint
    bodySize := .ofNat (bodyLength sections) }

theorem count_le_bytes {α : Type} {append : α → List UInt8} {size : Nat} (hsize : 0 < size)
    (hwidth : ∀ value, (append value).length = size) (id : SectionId) (values : List α) :
    (makeSection id values append).recordCount ≤ (makeSection id values append).bytes.length := by
  rw [makeSection, length_records hwidth _]
  exact Nat.le_mul_of_pos_right _ hsize

theorem framed_headerFor {bytes : List UInt8}
    (hversion : 5 ≤ version ∧ version ≤ kCommunityPolarVersion)
    (hcommunities : index.communities.length ≤ bytes.length)
    (hsize : fullHeaderSize + bodyLength (withCommunities bytes index version) < fileSizeLimit) :
    Framed (headerFor index version (withCommunities bytes index version))
      (withCommunities bytes index version) := by
  have hlimit : fileSizeLimit < 2 ^ 64 := by decide
  have hcounted : ∀ current ∈ withCommunities bytes index version,
      current.recordCount ≤ current.bytes.length ∨ current.recordCount < 2 ^ 64 := by
    have hwide := fun {α : Type} {append : α → List UInt8} {size : Nat} (hsize : 0 < size)
        (hwidth : ∀ value, (append value).length = size) (id : SectionId) (values : List α) =>
      Or.inl (b := (makeSection id values append).recordCount < 2 ^ 64)
        (count_le_bytes hsize hwidth id values)
    have hcells : 0 < if 6 ≤ version then 52 else 48 := by split <;> decide
    simp only [withCommunities, makeSections, List.set_cons_succ, List.set_cons_zero,
      List.forall_mem_cons]
    refine ⟨.inr (by decide), hwide (by decide) length_appendU32Le _ _,
      hwide (by decide) length_appendU32Le _ _, hwide (by decide) length_appendU64Le _ _,
      .inl hcommunities, hwide (by decide) length_appendFloatLe _ _,
      hwide (by decide) length_appendU64Le _ _, hwide (by decide) length_edgeBytes _ _,
      hwide (by decide) length_gatewayBytes _ _, hwide (by decide) length_appendFloatLe _ _,
      hwide (by decide) length_sectorBytes _ _, hwide hcells (length_cellBytes version) _ _,
      hwide (by decide) length_blockBytes _ _, .inr index.pointCount.toNat_lt,
      hwide (by decide) length_cellHierarchyNodeBytes _ _,
      hwide (by decide) length_appendU32Le _ _, hwide (by decide) length_appendU32Le _ _,
      hwide (by decide) length_appendFloatLe _ _, fun current hcurrent => absurd hcurrent
        List.not_mem_nil⟩
  refine ⟨rfl, rfl, rfl, rfl, hversion.1, hversion.2, by rw [headerFor], by rw [headerFor], rfl,
    fun current hcurrent => ?_, hsize⟩
  have hbytes := le_bodyLength hcurrent
  have hcount := hcounted current hcurrent
  omega

def Index.fileSize (index : Index) : Nat :=
  fullHeaderSize + bodyLength (makeSections index (sidecarVersion index.config))

/-- The file that `write_community_polar_index` publishes for an index. -/
def Index.file (index : Index) : List UInt8 :=
  sidecarFile
    (headerFor index (sidecarVersion index.config)
      (makeSections index (sidecarVersion index.config)))
    (makeSections index (sidecarVersion index.config))

theorem writeIndex_of_fits (hvalid : validateLoadedIndex index = .ok ())
    (hsize : index.fileSize < fileSizeLimit) : writeIndex index = .ok index.file := by
  have hlimit : fileSizeLimit < 2 ^ 64 := by decide
  have hdirectory := makeDirectory_ok (hsize.trans hlimit)
  simp only [writeIndex, bind_ok]
  refine ⟨(), hvalid, _, hdirectory, (), reject_ok.mpr (Nat.not_le.mpr hsize), ?_⟩
  rw [fnvBytes_sections, ← fullHeaderSize, Nat.add_sub_cancel_left]
  rfl

theorem writeIndex_eq_ok {bytes : List UInt8} (hwrite : writeIndex index = .ok bytes) :
    validateLoadedIndex index = .ok () ∧ index.fileSize < fileSizeLimit ∧ bytes = index.file := by
  have hparts := hwrite
  simp only [writeIndex, bind_ok, reject_ok] at hparts
  obtain ⟨_, hvalid, ⟨directory, total⟩, hmake, _, hsize, -⟩ := hparts
  obtain ⟨-, rfl⟩ := eq_of_makeDirectory hmake
  have hfits : index.fileSize < fileSizeLimit := Nat.not_le.mp hsize
  rw [writeIndex_of_fits hvalid hfits] at hwrite
  exact ⟨hvalid, hfits, (Except.ok.inj hwrite).symm⟩

theorem sidecarVersion_bounds (config : BuildConfig) :
    5 ≤ sidecarVersion config ∧ sidecarVersion config ≤ kCommunityPolarVersion := by
  unfold sidecarVersion
  split
  · decide
  · split <;> decide

theorem fixed_of_version (hversion : sidecarVersion config < 6) :
    config.adaptiveMultiCapacity = false := by
  unfold sidecarVersion at hversion
  split at hversion
  · exact absurd hversion (by decide)
  · split at hversion
    · exact absurd hversion (by decide)
    · next hadaptive => exact Bool.not_eq_true _ ▸ hadaptive

theorem validateLoadedIndex_stored (hvalid : validateLoadedIndex index = .ok ()) :
    validateLoadedIndex index.stored = .ok () := by
  obtain ⟨accepted⟩ := accepted_of_valid hvalid
  exact validateLoadedIndex_config (storedConfig_same fixed_of_version)
    (validateBuildConfig_stored accepted.config) hvalid

theorem Index.framed (hsize : index.fileSize < fileSizeLimit) :
    Framed
      (headerFor index (sidecarVersion index.config)
        (makeSections index (sidecarVersion index.config)))
      (makeSections index (sidecarVersion index.config)) := by
  have hcount := count_le_bytes (by decide) length_communityBytes .communities index.communities
  exact framed_headerFor (sidecarVersion_bounds index.config) hcount hsize

theorem loadIndex_file (hvalid : validateLoadedIndex index = .ok ())
    (hsize : index.fileSize < fileSizeLimit) : loadIndex index.file = .ok index.stored := by
  have hcommunities : Reads (readMany readCommunity index.communities.length)
      (index.communities.flatMap communityBytes) index.communities :=
    .many fun community _ => reads_community community
  exact loadIndex_sidecarFile (Index.framed hsize) ⟨rfl, rfl, rfl, rfl, rfl⟩ hcommunities
    (fun hversion => capacityClass_of_valid hvalid (fixed_of_version hversion))
    (validateLoadedIndex_stored hvalid)

/-- Every accepted index whose file fits is written, and what was written loads
as the index that was written, down to the fields that its version stores. -/
theorem load_write {index : Index} (hvalid : validateLoadedIndex index = .ok ()) :
    (index.fileSize < fileSizeLimit → ∃ bytes, writeIndex index = .ok bytes) ∧
      ∀ bytes, writeIndex index = .ok bytes → loadIndex bytes = .ok index.stored := by
  refine ⟨fun hsize => ⟨_, writeIndex_of_fits hvalid hsize⟩, fun bytes hwrite => ?_⟩
  obtain ⟨-, hsize, rfl⟩ := writeIndex_eq_ok hwrite
  exact loadIndex_file hvalid hsize

theorem load_write_twoNodes :
    (twoNodes.fileSize < fileSizeLimit → ∃ bytes, writeIndex twoNodes = .ok bytes) ∧
      ∀ bytes, writeIndex twoNodes = .ok bytes → loadIndex bytes = .ok twoNodes.stored :=
  load_write twoNodes_valid

end SkipCell.Sidecar

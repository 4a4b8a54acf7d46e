import SkipCell.IoIndex.LaidOut

/-! # The sections of the topology artifact

The header of a topology that was built is read back as it was written, and each
section is found at its place, with its checksum and the size that the counts ask for.
-/

namespace SkipCell.IoIndex

open Foundation Sidecar

/-! ## The sections -/

/-- The section directory at the end of the adjacency. -/
structure Sections where
  offsets : List UInt8
  adjacency : List UInt8
  directory : List UInt8
  cellDirectory : List UInt8
  prefetchDirectory : List UInt8
  gatewayDirectory : List UInt8

namespace Sections

variable (sections : Sections)

def bytes : List UInt8 :=
  sections.offsets ++ sections.adjacency ++ sections.directory ++ sections.cellDirectory ++
    sections.prefetchDirectory ++ sections.gatewayDirectory

def adjacencyOffset : Nat := kTopologyHeaderBytes + sections.offsets.length

def directoryOffset : Nat := sections.adjacencyOffset + sections.adjacency.length

def cellDirectoryOffset : Nat := sections.directoryOffset + sections.directory.length

def prefetchDirectoryOffset : Nat := sections.cellDirectoryOffset + sections.cellDirectory.length

def gatewayDirectoryOffset : Nat :=
  sections.prefetchDirectoryOffset + sections.prefetchDirectory.length

def fileSize : Nat := sections.gatewayDirectoryOffset + sections.gatewayDirectory.length

end Sections

namespace BuildContents

variable (contents : BuildContents)

def sections : Sections where
  offsets := serializeU64 (neighborOffsets contents.lists)
  adjacency := serializeU32 contents.lists.flatten
  directory := contents.placed.writer.locations.flatMap locationBytes
  cellDirectory := contents.placed.cellRanges.flatMap cellRangeBytes
  prefetchDirectory := serializeU64 contents.prefetchPages
  gatewayDirectory := contents.gatewayHints.flatMap gatewayHintBytes

/-- The header of the artifact with plain adjacency. -/
def header (layout : VectorLayout) : TopologyHeader where
  version := if layout = .cellU8 then kTopologyVersion else kTopologyVersionV5
  pointCount := contents.metadata.pointCount
  dimension := contents.metadata.dimension
  maxDegree := contents.metadata.maxDegree
  encoding := .rawU32
  layout := layout
  edgeCount := .ofNat contents.lists.flatten.length
  vectorPageCount := .ofNat contents.placed.writer.pagesWritten
  cellCount := .ofNat contents.placed.cellRanges.length
  base := contents.base
  vectors :=
    ⟨.ofNat (contents.placed.writer.pagesWritten * kIoVectorPageSize),
      contents.placed.writer.vectorChecksum⟩
  offsets := placeSection kTopologyHeaderBytes contents.sections.offsets
  adjacency := placeSection contents.sections.adjacencyOffset contents.sections.adjacency
  directory := placeSection contents.sections.directoryOffset contents.sections.directory
  cellDirectory :=
    placeSection contents.sections.cellDirectoryOffset contents.sections.cellDirectory
  prefetchDirectory :=
    placeSection contents.sections.prefetchDirectoryOffset contents.sections.prefetchDirectory
  communityPolar := contents.communityPolar
  gatewayCount := .ofNat contents.gatewayHints.length
  gatewayDirectory :=
    placeSection contents.sections.gatewayDirectoryOffset contents.sections.gatewayDirectory

end BuildContents

structure TopologyWritten (input : BuildInput) (artifacts : Artifacts) : Prop where
  topology : artifacts.topology =
    serializeHeader (artifacts.contents.header input.layout) ++ artifacts.contents.sections.bytes
  size : artifacts.topology.length = artifacts.contents.sections.fileSize
  limit : artifacts.topology.length < fileSizeLimit

variable {input : BuildInput}

theorem topology_written {compress : Option Compress} {artifacts : Artifacts}
    (hraw : input.encoding = .rawU32) (hbuild : build input compress = .ok artifacts) :
    TopologyWritten input artifacts := by
  simp only [build, hraw, encodeAdjacency, bind_ok, reject_ok, not_not, not_or,
    not_le, multiplyChecked_eq_ok, addChecked_eq_ok] at hbuild
  obtain ⟨contents, -, fileSize, ⟨-, rfl⟩, _, -, _, ⟨-, rfl⟩, _, ⟨-, rfl⟩, _, ⟨-, rfl⟩, _, ⟨-, rfl⟩,
    _, ⟨-, rfl⟩, _, ⟨-, rfl⟩, _, hsize, _, ⟨-, hlimit⟩, hresult⟩ := hbuild
  obtain rfl := Except.ok.inj hresult
  refine ⟨?_, hsize, hlimit⟩
  simp only [Sections.bytes, List.append_assoc]
  rfl

/-! ## Reading the header -/

theorem reads_wide (description : String) (value : UInt64) :
    Reads (readU64 description) (appendU64Le value) value := by
  have hreads := (Reads.word (Error.runtimeError ("truncated " ++ description))
    (show value.toNat < 256 ^ 8 from value.toNat_lt)).map UInt64.ofNat
  rwa [UInt64.ofNat_toNat] at hreads

theorem reads_narrow (description : String) (value : UInt32) :
    Reads (readU32 description) (appendU32Le value) value := by
  have hreads := (Reads.word (Error.runtimeError ("truncated " ++ description))
    (show value.toNat < 256 ^ 4 from value.toNat_lt)).map UInt32.ofNat
  rwa [UInt32.ofNat_toNat] at hreads

section Fields

variable {α : Type} {bytes : List UInt8} {result : α}

@[simp]
theorem reads_wide_bind {next : UInt64 → Reader α} (description : String) (value : UInt64) :
    Reads (readU64 description >>= next) (appendU64Le value ++ bytes) result ↔
      Reads (next value) bytes result :=
  (reads_wide description value).bind_iff

@[simp]
theorem reads_narrow_bind {next : UInt32 → Reader α} (description : String) (value : UInt32) :
    Reads (readU32 description >>= next) (appendU32Le value ++ bytes) result ↔
      Reads (next value) bytes result :=
  (reads_narrow description value).bind_iff

theorem reads_reject_bind {next : Unit → Reader α} {condition : Prop} [Decidable condition]
    (message : String) (hpasses : ¬ condition) :
    Reads (rejectRead condition message >>= next) bytes result ↔ Reads (next ()) bytes result := by
  rw [rejectRead, if_neg hpasses]
  exact (Reads.pure ()).bind_iff

@[simp]
theorem reads_section_bind {next : TopologySection → Reader α} (offset size checksum : String)
    (place : TopologySection) :
    Reads (readSection offset size checksum >>= next) (sectionFields place ++ bytes) result ↔
      Reads (next place) bytes result := by
  apply Reads.bind_iff
  simp only [readSection, sectionFields, List.flatten_cons, List.flatten_nil, reads_wide_bind,
    Reads.pure]

@[simp]
theorem reads_fingerprint_bind {next : Fingerprint → Reader α} (size checksum : String)
    (fingerprint : Fingerprint) :
    Reads (readFingerprint size checksum >>= next) (fingerprintFields fingerprint ++ bytes) result ↔
      Reads (next fingerprint) bytes result := by
  apply Reads.bind_iff
  simp only [readFingerprint, fingerprintFields, List.flatten_cons, List.flatten_nil,
    reads_wide_bind, Reads.pure]

end Fields

structure WritableHeader (header : TopologyHeader) : Prop where
  version : header.version = kTopologyVersionV5 ∨ header.version = kTopologyVersion
  headerBytes : header.headerBytes = .ofNat kTopologyHeaderBytes
  encoding : .ofRaw header.encoding.toRaw = header.encoding
  layout : .ofRaw header.layout.toRaw = header.layout

theorem reads_topologyHeader {header : TopologyHeader} (hheader : WritableHeader header)
    {size : Nat} (hsize : kTopologyHeaderBytes ≤ size) :
    Reads (readTopologyHeader size) (headerFields header) header := by
  have hversion : ¬ (header.version ≠ kTopologyVersionV4 ∧ header.version ≠ kTopologyVersionV5 ∧
      header.version ≠ kTopologyVersion) := by
    rcases hheader.version with h | h
    all_goals simp [h]
  have hnotV4 : header.version ≠ kTopologyVersionV4 := by
    rcases hheader.version with h | h
    all_goals
      rw [h]
      decide
  have hgateways : kTopologyVersionV5 ≤ header.version := by
    rcases hheader.version with h | h
    all_goals
      rw [h]
      decide
  have hwidth : ¬ ((UInt32.ofNat kTopologyHeaderBytes).toNat ≠ kTopologyHeaderBytes ∨
      size < (UInt32.ofNat kTopologyHeaderBytes).toNat) := by
    have hbytes : (UInt32.ofNat kTopologyHeaderBytes).toNat = kTopologyHeaderBytes := by decide
    rw [hbytes]
    omega
  simp only [readTopologyHeader, readGatewayFields, headerFields, List.flatten_cons,
    List.flatten_nil, reads_wide_bind]
  rw [reads_reject_bind _ (by simp)]
  simp only [reads_narrow_bind]
  rw [reads_reject_bind _ hversion]
  simp only [reads_narrow_bind]
  rw [reads_reject_bind _ (by simp)]
  simp only [reads_narrow_bind]
  rw [if_neg hnotV4, reads_reject_bind _ hwidth]
  simp only [reads_narrow_bind]
  rw [reads_reject_bind _ (by decide)]
  simp only [reads_wide_bind, reads_narrow_bind, reads_fingerprint_bind, reads_section_bind,
    if_pos hgateways, bind_assoc, pure_bind]
  rw [hheader.encoding, hheader.layout]
  have hbytes := hheader.headerBytes
  cases header
  subst hbytes
  exact .pure _

theorem length_headerFields (header : TopologyHeader) : (headerFields header).length = 276 := by
  simp only [headerFields, fingerprintFields, sectionFields, List.flatten_cons, List.flatten_nil,
    List.length_append, List.length_nil, length_appendU64Le, length_appendU32Le]

theorem length_serializeHeader (header : TopologyHeader) :
    (serializeHeader header).length = kTopologyHeaderBytes := by
  rw [serializeHeader, List.length_append, List.length_replicate, length_headerFields]
  decide

theorem parseHeader_serialize {header : TopologyHeader} (hheader : WritableHeader header)
    (rest : List UInt8) : parseHeader (serializeHeader header ++ rest) = .ok header := by
  set padding := List.replicate (kTopologyHeaderBytes - (headerFields header).length) (0 : UInt8)
    with hpadding
  set file := serializeHeader header ++ rest with hfile
  have hlength : file.length = kTopologyHeaderBytes + rest.length := by
    rw [hfile, List.length_append, length_serializeHeader]
  have hfields : file = headerFields header ++ (padding ++ rest) := by
    rw [hfile, serializeHeader, List.append_assoc]
  have hread : readTopologyHeader file.length file = .ok (header, padding ++ rest) := by
    have hreads := reads_topologyHeader hheader (show kTopologyHeaderBytes ≤ file.length by omega)
      (padding ++ rest)
    rwa [← hfields] at hreads
  have hcursor : file.length - (padding ++ rest).length = (headerFields header).length := by
    rw [hfields, List.length_append, Nat.add_sub_cancel]
  have hreserved : (file.take header.headerBytes.toNat).drop (headerFields header).length =
      padding := by
    have hbytes : header.headerBytes.toNat = kTopologyHeaderBytes := by
      rw [hheader.headerBytes]
      decide
    rw [hbytes, hfile, List.take_left' (length_serializeHeader header), serializeHeader,
      List.drop_left]
  have hzero : ¬ ∃ byte ∈ padding, byte ≠ 0 := by
    rintro ⟨byte, hbyte, hne⟩
    exact hne (List.eq_of_mem_replicate hbyte)
  simp only [parseHeader, bind_ok, reject_ok]
  refine ⟨(), ?_, (header, padding ++ rest), hread, (), ?_, rfl⟩
  · rw [hlength]
    have hsizes : kTopologyV4HeaderBytes ≤ kTopologyHeaderBytes := by decide
    omega
  · rw [hcursor, hreserved]
    exact hzero

theorem ofRaw_toRaw {compress : Option Compress} (hoptions : checkOptions input compress = .ok ()) :
    .ofRaw input.layout.toRaw = input.layout := by
  simp only [checkOptions, bind_ok, reject_ok, not_and_or, not_not] at hoptions
  obtain ⟨-, -, -, -, -, hlayout, -⟩ := hoptions
  cases hcases : input.layout with
  | other raw =>
    rw [hcases] at hlayout
    simp [VectorLayout.isCell] at hlayout
  | originalId => rfl
  | cell4k => rfl
  | cellChunks => rfl
  | cellWeighted4k => rfl
  | cellU8 => rfl

theorem BuildContents.version_cases (contents : BuildContents) (layout : VectorLayout) :
    (contents.header layout).version = kTopologyVersionV5 ∨
      (contents.header layout).version = kTopologyVersion := by
  by_cases hbytes : layout = .cellU8
  · exact .inr (if_pos hbytes)
  · exact .inl (if_neg hbytes)

theorem BuildContents.writableHeader {contents : BuildContents} {layout : VectorLayout}
    (hlayout : .ofRaw layout.toRaw = layout) : WritableHeader (contents.header layout) where
  version := contents.version_cases layout
  headerBytes := rfl
  encoding := rfl
  layout := hlayout

/-! ## Reading the sections -/

theorem read_placeSection {file bytes : List UInt8} {offset : Nat} (before behind : List UInt8)
    (hfile : file = before ++ (bytes ++ behind)) (hoffset : before.length = offset)
    (hsize : file.length < 2 ^ 64) :
    (placeSection offset bytes).read file = bytes ∧
      (placeSection offset bytes).offset.toNat = offset ∧
      (placeSection offset bytes).bytes.toNat = bytes.length := by
  have hlength := congrArg List.length hfile
  rw [List.length_append, List.length_append] at hlength
  have hplace : (UInt64.ofNat offset).toNat = offset := by
    rw [UInt64.toNat_ofNat']
    exact Nat.mod_eq_of_lt (by omega)
  have hbytes : (UInt64.ofNat bytes.length).toNat = bytes.length := by
    rw [UInt64.toNat_ofNat']
    exact Nat.mod_eq_of_lt (by omega)
  refine ⟨?_, hplace, hbytes⟩
  change subspan file (UInt64.ofNat offset).toNat (UInt64.ofNat bytes.length).toNat = bytes
  rw [hplace, hbytes, hfile, ← hoffset, subspan_between]

/-- What the loader finds at the places that a header gives for the sections. -/
structure SectionsFound (header : TopologyHeader) (file : List UInt8) (sections : Sections) :
    Prop where
  offsets : header.offsets.read file = sections.offsets ∧
    header.offsets.offset.toNat = kTopologyHeaderBytes ∧
    header.offsets.bytes.toNat = sections.offsets.length
  adjacency : header.adjacency.read file = sections.adjacency ∧
    header.adjacency.offset.toNat = sections.adjacencyOffset ∧
    header.adjacency.bytes.toNat = sections.adjacency.length
  directory : header.directory.read file = sections.directory ∧
    header.directory.offset.toNat = sections.directoryOffset ∧
    header.directory.bytes.toNat = sections.directory.length
  cellDirectory : header.cellDirectory.read file = sections.cellDirectory ∧
    header.cellDirectory.offset.toNat = sections.cellDirectoryOffset ∧
    header.cellDirectory.bytes.toNat = sections.cellDirectory.length
  prefetchDirectory : header.prefetchDirectory.read file = sections.prefetchDirectory ∧
    header.prefetchDirectory.offset.toNat = sections.prefetchDirectoryOffset ∧
    header.prefetchDirectory.bytes.toNat = sections.prefetchDirectory.length
  gatewayDirectory : header.gatewayDirectory.read file = sections.gatewayDirectory ∧
    header.gatewayDirectory.offset.toNat = sections.gatewayDirectoryOffset ∧
    header.gatewayDirectory.bytes.toNat = sections.gatewayDirectory.length

theorem sections_found {artifacts : Artifacts} (hwritten : TopologyWritten input artifacts) :
    SectionsFound (artifacts.contents.header input.layout) artifacts.topology
      artifacts.contents.sections := by
  set sections := artifacts.contents.sections with hsections
  set front := serializeHeader (artifacts.contents.header input.layout) with hfront
  have hfile : artifacts.topology = front ++ sections.bytes := hwritten.topology
  have hlength : front.length = kTopologyHeaderBytes := length_serializeHeader _
  have hsize : artifacts.topology.length < 2 ^ 64 :=
    hwritten.limit.trans (by decide)
  constructor
  case offsets =>
    refine read_placeSection front (sections.adjacency ++ sections.directory ++
      sections.cellDirectory ++ sections.prefetchDirectory ++ sections.gatewayDirectory) ?_ ?_
      hsize
    · simp only [hfile, Sections.bytes, List.append_assoc]
      rfl
    · exact hlength
  case adjacency =>
    refine read_placeSection (front ++ sections.offsets) (sections.directory ++
      sections.cellDirectory ++ sections.prefetchDirectory ++ sections.gatewayDirectory) ?_ ?_
      hsize
    · simp only [hfile, Sections.bytes, List.append_assoc]
      rfl
    · simp only [List.length_append, hlength]
      rfl
  case directory =>
    refine read_placeSection (front ++ sections.offsets ++ sections.adjacency)
      (sections.cellDirectory ++ sections.prefetchDirectory ++ sections.gatewayDirectory) ?_ ?_
      hsize
    · simp only [hfile, Sections.bytes, List.append_assoc]
      rfl
    · simp only [List.length_append, hlength]
      rfl
  case cellDirectory =>
    refine read_placeSection (front ++ sections.offsets ++ sections.adjacency ++
      sections.directory) (sections.prefetchDirectory ++ sections.gatewayDirectory) ?_ ?_ hsize
    · simp only [hfile, Sections.bytes, List.append_assoc]
      rfl
    · simp only [List.length_append, hlength]
      rfl
  case prefetchDirectory =>
    refine read_placeSection (front ++ sections.offsets ++ sections.adjacency ++
      sections.directory ++ sections.cellDirectory) sections.gatewayDirectory ?_ ?_ hsize
    · simp only [hfile, Sections.bytes, List.append_assoc]
      rfl
    · simp only [List.length_append, hlength]
      rfl
  case gatewayDirectory =>
    refine read_placeSection (front ++ sections.offsets ++ sections.adjacency ++
      sections.directory ++ sections.cellDirectory ++ sections.prefetchDirectory) [] ?_ ?_ hsize
    · simp only [hfile, Sections.bytes, List.append_assoc, List.append_nil]
      rfl
    · simp only [List.length_append, hlength]
      rfl

/-! ## The checks of the header -/

theorem length_locationBytes (location : VectorLocation) : (locationBytes location).length = 12 := by
  simp [locationBytes, length_appendU64Le, length_appendU32Le]

theorem length_cellRangeBytes (range : CellPageRange) : (cellRangeBytes range).length = 20 := by
  simp [cellRangeBytes, length_appendU64Le, length_appendU32Le]

theorem length_gatewayHintBytes (hint : GatewayPrefetchHint) :
    (gatewayHintBytes hint).length = 64 := by
  simp [gatewayHintBytes, length_appendU64Le, length_appendU32Le]

theorem length_neighborOffsets (lists : List (List UInt32)) :
    (neighborOffsets lists).length = lists.length + 1 := by
  rw [neighborOffsets, List.length_map, List.length_scanl]

/-- The counts that the header gives are those of the arrays, and all of them fit. -/
structure CountsFit (input : BuildInput) (contents : BuildContents) : Prop where
  lists : contents.lists.length = contents.metadata.pointCount.toNat
  locations : contents.placed.writer.locations.length = contents.metadata.pointCount.toNat
  prefetch : contents.prefetchPages.length = contents.metadata.pointCount.toNat
  points : contents.metadata.pointCount.toNat + 1 < 2 ^ 60
  pages : contents.placed.writer.pagesWritten * kIoVectorPageSize < 2 ^ 64
  limit : contents.sections.fileSize < fileSizeLimit

namespace CountsFit

variable {input : BuildInput} {contents : BuildContents}

/-- The sections, by their counts. -/
theorem lengths (hcounts : CountsFit input contents) :
    contents.sections.offsets.length = (contents.metadata.pointCount.toNat + 1) * 8 ∧
      contents.sections.adjacency.length = contents.lists.flatten.length * 4 ∧
      contents.sections.directory.length = contents.metadata.pointCount.toNat * 12 ∧
      contents.sections.cellDirectory.length = contents.placed.cellRanges.length * 20 ∧
      contents.sections.prefetchDirectory.length = contents.metadata.pointCount.toNat * 8 ∧
      contents.sections.gatewayDirectory.length = contents.gatewayHints.length * 64 := by
  refine ⟨?_, ?_, ?_, ?_, ?_, ?_⟩
  · rw [← hcounts.lists, ← length_neighborOffsets]
    exact length_records length_appendU64Le _
  · exact length_records length_appendU32Le _
  · rw [← hcounts.locations]
    exact length_records length_locationBytes _
  · exact length_records length_cellRangeBytes _
  · rw [← hcounts.prefetch]
    exact length_records length_appendU64Le _
  · exact length_records length_gatewayHintBytes _

theorem exact (hcounts : CountsFit input contents) :
    (contents.header input.layout).edgeCount.toNat = contents.lists.flatten.length ∧
      (contents.header input.layout).cellCount.toNat = contents.placed.cellRanges.length ∧
      (contents.header input.layout).gatewayCount.toNat = contents.gatewayHints.length ∧
      (contents.header input.layout).vectorPageCount.toNat =
        contents.placed.writer.pagesWritten := by
  obtain ⟨-, hadjacency, -, hcells, -, hgateways⟩ := hcounts.lengths
  have hlimit := hcounts.limit
  have hpages := hcounts.pages
  simp only [Sections.fileSize, Sections.gatewayDirectoryOffset, Sections.prefetchDirectoryOffset,
    Sections.cellDirectoryOffset, Sections.directoryOffset, fileSizeLimit] at hlimit
  rw [kIoVectorPageSize] at hpages
  refine ⟨?_, ?_, ?_, ?_⟩
  all_goals
    refine UInt64.toNat_ofNat'.trans (Nat.mod_eq_of_lt ?_)
    omega

theorem checkSections_ok (hcounts : CountsFit input contents) {file : List UInt8}
    (hfile : file.length = contents.sections.fileSize)
    (hfound : SectionsFound (contents.header input.layout) file contents.sections) :
    checkSections (contents.header input.layout) file.length = .ok () := by
  obtain ⟨hoffsets, hadjacency, hdirectory, hcells, hprefetch, hgateways⟩ := hcounts.lengths
  obtain ⟨hedgeCount, hcellCount, hgatewayCount, -⟩ := hcounts.exact
  obtain ⟨-, hoffsetsPlace, hoffsetsBytes⟩ := hfound.offsets
  obtain ⟨-, hadjacencyPlace, hadjacencyBytes⟩ := hfound.adjacency
  obtain ⟨-, hdirectoryPlace, hdirectoryBytes⟩ := hfound.directory
  obtain ⟨-, hcellsPlace, hcellsBytes⟩ := hfound.cellDirectory
  obtain ⟨-, hprefetchPlace, hprefetchBytes⟩ := hfound.prefetchDirectory
  obtain ⟨-, hgatewaysPlace, hgatewaysBytes⟩ := hfound.gatewayDirectory
  have hlimit := hcounts.limit
  have hpoints := hcounts.points
  have hversion : ¬ (contents.header input.layout).version = kTopologyVersionV4 := by
    rcases (BuildContents.version_cases contents input.layout) with h | h
    all_goals
      rw [h]
      decide
  have hheaderBytes : (contents.header input.layout).headerBytes.toNat = kTopologyHeaderBytes := by
    change (UInt32.ofNat kTopologyHeaderBytes).toNat = _
    decide
  have hpointCount : (contents.header input.layout).pointCount = contents.metadata.pointCount := rfl
  simp only [Sections.fileSize, Sections.gatewayDirectoryOffset, Sections.prefetchDirectoryOffset,
    Sections.cellDirectoryOffset, Sections.directoryOffset, Sections.adjacencyOffset,
    fileSizeLimit] at hlimit
  simp only [checkSections, if_neg hversion, bind_ok, reject_ok, multiplyChecked_eq_ok,
    addChecked_eq_ok, hpointCount, hedgeCount, hcellCount, hgatewayCount, hoffsetsPlace,
    hoffsetsBytes, hadjacencyPlace, hadjacencyBytes, hdirectoryPlace, hdirectoryBytes, hcellsPlace,
    hcellsBytes, hprefetchPlace, hprefetchBytes, hgatewaysPlace, hgatewaysBytes, hheaderBytes, hfile,
    Sections.fileSize, Sections.gatewayDirectoryOffset, Sections.prefetchDirectoryOffset,
    Sections.cellDirectoryOffset, Sections.directoryOffset, Sections.adjacencyOffset]
  refine ⟨_, ⟨by omega, rfl⟩, _, ⟨by omega, rfl⟩, _, ⟨by omega, rfl⟩, _, ⟨by omega, rfl⟩, _,
    ⟨by omega, rfl⟩, _, ⟨by omega, rfl⟩, _, ⟨by omega, rfl⟩, _, ⟨by omega, rfl⟩, _,
    ⟨by omega, rfl⟩, _, ⟨by omega, rfl⟩, _, ⟨by omega, rfl⟩, _, ⟨by omega, rfl⟩, _,
    ⟨by omega, rfl⟩, ?_⟩
  simp [hoffsets, hadjacency, hdirectory, hcells, hprefetch, hgateways]

end CountsFit

section

variable {contents : BuildContents} {layout : VectorLayout} {file : List UInt8}
  (hfound : SectionsFound (contents.header layout) file contents.sections)
include hfound

theorem gatewaySection_eq :
    gatewaySection (contents.header layout) file = contents.sections.gatewayDirectory := by
  have hversion : ¬ (contents.header layout).version < kTopologyVersionV5 := by
    rcases contents.version_cases layout with h | h
    all_goals
      rw [h]
      decide
  rw [gatewaySection, if_neg hversion]
  exact hfound.gatewayDirectory.1

theorem checkChecksums_ok :
    checkChecksums (contents.header layout) file (checksumBytes contents.sections.adjacency) =
      .ok () := by
  simp only [checkChecksums, reject_ok, hfound.offsets.1, hfound.directory.1,
    hfound.cellDirectory.1, hfound.prefetchDirectory.1, gatewaySection_eq hfound]
  simp [BuildContents.header, placeSection]

end

section Running

variable {α : Type} {lists : List (List α)}

theorem getElem?_running {node : Nat} (hnode : node ≤ lists.length) :
    ((rowOffsets lists).map UInt64.ofNat)[node]? =
      some (.ofNat (lists.take node).flatten.length) := by
  rw [List.getElem?_map, getElem?_rowOffsets hnode]
  rfl

theorem toNat_running (hsmall : lists.flatten.length < 2 ^ 64) (node : Nat) :
    (UInt64.ofNat (lists.take node).flatten.length).toNat = (lists.take node).flatten.length := by
  have hle := length_flatten_take lists node
  rw [UInt64.toNat_ofNat']
  exact Nat.mod_eq_of_lt (by omega)

end Running

theorem getElem?_neighborOffsets {lists : List (List UInt32)} {node : Nat}
    (hnode : node ≤ lists.length) :
    (neighborOffsets lists)[node]? = some (.ofNat (lists.take node).flatten.length) :=
  getElem?_running hnode

theorem neighborOffsets_next {lists : List (List UInt32)} (hsmall : lists.flatten.length < 2 ^ 64)
    {node : Nat} {list : List UInt32} (hlist : lists[node]? = some list) :
    ∃ first last, (neighborOffsets lists)[node]? = some first ∧
      (neighborOffsets lists)[node + 1]? = some last ∧
      first.toNat = (lists.take node).flatten.length ∧
      last.toNat = first.toNat + list.length ∧ last.toNat ≤ lists.flatten.length := by
  have hnode := (List.getElem_of_getElem? hlist).1
  refine ⟨_, _, getElem?_neighborOffsets (Nat.le_of_lt hnode), getElem?_neighborOffsets hnode,
    toNat_running hsmall node, ?_, ?_⟩
  · rw [toNat_running hsmall, toNat_running hsmall, length_take_succ hlist]
  · rw [toNat_running hsmall]
    exact length_flatten_take lists (node + 1)

theorem checkNeighborOffsets_ok {contents : BuildContents} {layout : VectorLayout}
    (hsmall : contents.lists.flatten.length < 2 ^ 64)
    (hdegree : ∀ list ∈ contents.lists, list.length ≤ contents.metadata.maxDegree.toNat) :
    checkNeighborOffsets (contents.header layout) (neighborOffsets contents.lists) = .ok () := by
  simp only [checkNeighborOffsets, bind_ok, reject_ok, not_not]
  refine ⟨(), ?_, ?_⟩
  · rw [neighborOffsets, List.getLast?_map, List.getLast?_scanl, foldl_length, Nat.zero_add]
    rfl
  · rintro ⟨⟨first, last⟩, hpair, hbad⟩
    obtain ⟨node, hnode⟩ := List.mem_iff_getElem?.mp hpair
    rw [List.getElem?_zip_eq_some, List.getElem?_tail] at hnode
    obtain ⟨hfirst, hlast⟩ := hnode
    have hlength := (List.getElem_of_getElem? hlast).1
    rw [length_neighborOffsets] at hlength
    have hlist := List.getElem?_eq_getElem (Nat.lt_of_succ_lt_succ hlength)
    obtain ⟨start, stop, hstart, hstop, -, hnext, -⟩ := neighborOffsets_next hsmall hlist
    rw [hfirst] at hstart
    rw [hlast] at hstop
    obtain rfl := Option.some.inj hstart
    obtain rfl := Option.some.inj hstop
    have hshort := hdegree _ (List.mem_of_getElem? hlist)
    rcases hbad with hless | hlong
    · rw [UInt64.lt_iff_toNat_lt] at hless
      omega
    · change contents.metadata.maxDegree.toNat < _ at hlong
      omega

end SkipCell.IoIndex

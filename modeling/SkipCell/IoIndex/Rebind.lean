import SkipCell.IoIndex.ReboundStructure

/-! # Binding a topology to another sidecar

A topology names its sidecar by size and checksum in the header. `rebind` writes the header
anew with the fingerprint of another sidecar of the same structure, and copies the rest.
-/

namespace SkipCell.IoIndex

open Foundation Sidecar

/-- What `rebind_io_topology_community_polar` publishes. -/
def rebindIoTopologyCommunityPolar (topology source replacement : List UInt8) :
    Except Error (List UInt8) := do
  reject (topology.length < kTopologyHeaderBytes)
    (.runtimeError "failed reading source IO topology header")
  let header ← parseHeader (topology.take kTopologyHeaderBytes)
  reject (header.version < kTopologyVersionV5 ∨ kTopologyVersion < header.version ∨
      header.headerBytes.toNat ≠ kTopologyHeaderBytes ∨ header.cellCount = 0 ∨
      header.communityPolar.sizeBytes = 0)
    (.runtimeError "IO topology rebind requires a version-5/6 Cell topology")
  reject (header.communityPolar ≠ fingerprintFile source)
    (.runtimeError "source IO topology is not bound to the supplied Cell sidecar")
  validateReboundCellStructure source replacement
  let output := serializeHeader { header with communityPolar := fingerprintFile replacement } ++
    topology.drop kTopologyHeaderBytes
  reject (output.length ≠ topology.length) (.runtimeError "failed streaming rebound IO topology")
  .ok output

/-! ## Headers -/

theorem VectorLayout.toRaw_ofRaw (raw : UInt32) : (VectorLayout.ofRaw raw).toRaw = raw := by
  unfold VectorLayout.ofRaw
  repeat' split
  all_goals simp_all [VectorLayout.toRaw]

theorem AdjacencyEncoding.toRaw_ofRaw (raw : UInt32) :
    (AdjacencyEncoding.ofRaw raw).toRaw = raw := by
  unfold AdjacencyEncoding.ofRaw
  repeat' split
  all_goals simp_all [AdjacencyEncoding.toRaw]

theorem determines_u64 (description : String) : Determines (readU64 description) appendU64Le :=
  .word fun _ => UInt64.toNat_ofNat_of_lt'

theorem determines_section (offset size checksum : String) :
    Determines (readSection offset size checksum) sectionFields :=
  Consumes.determines <| .bind (determines_u64 _) fun _ => .bind (determines_u64 _) fun _ =>
    .bind (determines_u64 _) fun _ => .pure (by simp [sectionFields])

theorem determines_fingerprint (size checksum : String) :
    Determines (readFingerprint size checksum) fingerprintFields :=
  Consumes.determines <| .bind (determines_u64 _) fun _ => .bind (determines_u64 _) fun _ =>
    .pure (by simp [fingerprintFields])

theorem consumes_reject {α : Type} {condition : Prop} [Decidable condition] {message : String}
    {next : Unit → Reader α} {property : α → List UInt8 → Prop}
    (hnext : ¬ condition → Consumes (next ()) property) :
    Consumes (rejectRead condition message >>= next) property := by
  intro bytes value rest hread
  obtain ⟨result, middle, hreject, hrest⟩ := bind_eq_ok hread
  unfold rejectRead at hreject
  split at hreject
  · cases hreject
  · next hpasses =>
      obtain ⟨-, rfl⟩ := Prod.mk.inj (Except.ok.inj hreject)
      exact hnext hpasses _ _ _ hrest

/-- The header of the versions with Gateway hints is read from its own fields, and is one that
a build could write. -/
theorem consumes_topologyHeader (size : Nat) :
    Consumes (readTopologyHeader size) fun header taken => kTopologyVersionV5 ≤ header.version →
      taken = headerFields header ∧ WritableHeader header := by
  unfold readTopologyHeader
  refine .bind (determines_u64 _) fun magic => consumes_reject fun hmagic =>
    .bind (determines_u32 _) fun version => consumes_reject fun hversion =>
    .bind (determines_u32 _) fun endian => consumes_reject fun hendian =>
    .bind (determines_u32 _) fun headerBytes => consumes_reject fun hbytes =>
    .bind (determines_u32 _) fun pageSize => consumes_reject fun hpage => ?_
  refine .bind (determines_u64 _) fun pointCount => .bind (determines_u64 _) fun dimension =>
    .bind (determines_u32 _) fun maxDegree => .bind (determines_u32 _) fun encoding =>
    .bind (determines_u32 _) fun layout => .bind (determines_u64 _) fun edgeCount =>
    .bind (determines_u64 _) fun vectorPageCount => .bind (determines_u64 _) fun cellCount =>
    .bind (determines_fingerprint _ _) fun base => .bind (determines_fingerprint _ _) fun vectors =>
    .bind (determines_section _ _ _) fun offsets => .bind (determines_section _ _ _) fun adjacency =>
    .bind (determines_section _ _ _) fun directory =>
    .bind (determines_section _ _ _) fun cellDirectory =>
    .bind (determines_section _ _ _) fun prefetchDirectory => ?_
  unfold readGatewayFields
  by_cases hgateways : kTopologyVersionV5 ≤ version
  · rw [if_pos hgateways]
    simp only [bind_assoc, pure_bind]
    refine .bind (determines_fingerprint _ _) fun communityPolar => .bind (determines_u64 _)
      fun gatewayCount => .bind (determines_section _ _ _) fun gatewayDirectory => .pure fun _ => ?_
    have hnotV4 : version ≠ kTopologyVersionV4 := by
      rintro rfl
      exact absurd hgateways (by decide)
    have hnamed : version = kTopologyVersionV5 ∨ version = kTopologyVersion := by
      by_contra hother
      exact hversion ⟨hnotV4, (not_or.mp hother).1, (not_or.mp hother).2⟩
    obtain rfl := not_not.mp hmagic
    obtain rfl := not_not.mp hendian
    have hwidth : headerBytes = .ofNat kTopologyHeaderBytes := by
      rw [if_neg hnotV4, not_or, not_not] at hbytes
      exact UInt32.toNat_inj.mp hbytes.1
    have hpageSize : pageSize = .ofNat kIoVectorPageSize := UInt32.toNat_inj.mp (not_not.mp hpage)
    subst hwidth hpageSize
    refine ⟨?_, hnamed, rfl, ?_, ?_⟩
    · simp only [headerFields, AdjacencyEncoding.toRaw_ofRaw, VectorLayout.toRaw_ofRaw,
        List.flatten_cons, List.flatten_nil]
    · rw [AdjacencyEncoding.toRaw_ofRaw]
    · rw [VectorLayout.toRaw_ofRaw]
  · rw [if_neg hgateways]
    exact .pure fun hversion => absurd hversion hgateways

variable {file : List UInt8} {header : TopologyHeader}

theorem serializeHeader_parseHeader (hparse : parseHeader file = .ok header)
    (hversion : kTopologyVersionV5 ≤ header.version) :
    serializeHeader header = file.take kTopologyHeaderBytes ∧ WritableHeader header ∧
      kTopologyHeaderBytes ≤ file.length := by
  simp only [parseHeader, bind_ok, reject_ok, exists_const, Except.ok.injEq] at hparse
  obtain ⟨-, ⟨found, rest⟩, hread, hzero, rfl⟩ := hparse
  obtain ⟨taken, hfile, hfields⟩ := consumes_topologyHeader _ _ _ _ hread
  obtain ⟨rfl, hwritable⟩ := hfields hversion
  have hlong : found.headerBytes.toNat ≤ file.length := yields_headerBytes _ _ _ _ hread
  have hbytes : found.headerBytes.toNat = kTopologyHeaderBytes := by
    rw [hwritable.headerBytes]
    decide
  have hcursor : file.length - rest.length = (headerFields found).length := by
    rw [hfile, List.length_append, Nat.add_sub_cancel]
  rw [hbytes] at hlong hzero
  rw [hcursor] at hzero
  refine ⟨?_, hwritable, hlong⟩
  have hpadding : (file.take kTopologyHeaderBytes).drop (headerFields found).length =
      List.replicate (kTopologyHeaderBytes - (headerFields found).length) 0 := by
    rw [List.eq_replicate_iff]
    constructor
    · rw [List.length_drop, List.length_take_of_le hlong]
    · intro byte hbyte
      by_contra hne
      exact hzero ⟨byte, hbyte, hne⟩
  have hfront : (file.take kTopologyHeaderBytes).take (headerFields found).length =
      headerFields found := by
    have hshort : (headerFields found).length ≤ kTopologyHeaderBytes := by
      rw [length_headerFields]
      decide
    rw [List.take_take, Nat.min_eq_left hshort, hfile, List.take_left]
  rw [serializeHeader, ← hpadding]
  calc headerFields found ++ (file.take kTopologyHeaderBytes).drop (headerFields found).length
      = (file.take kTopologyHeaderBytes).take (headerFields found).length ++
          (file.take kTopologyHeaderBytes).drop (headerFields found).length := by rw [hfront]
    _ = file.take kTopologyHeaderBytes := List.take_append_drop _ _

/-- Where the fingerprint of the sidecar stands in the header. -/
def kCommunityPolarOffset : Nat := 228

theorem serializeHeader_of_communityPolar (header : TopologyHeader) (fingerprint : Fingerprint) :
    serializeHeader { header with communityPolar := fingerprint } =
      patch (serializeHeader header) kCommunityPolarOffset (fingerprintFields fingerprint) := by
  set before := [appendU64Le kTopologyMagic, appendU32Le header.version, appendU32Le kEndianMarker,
    appendU32Le (.ofNat kTopologyHeaderBytes), appendU32Le (.ofNat kIoVectorPageSize),
    appendU64Le header.pointCount, appendU64Le header.dimension, appendU32Le header.maxDegree,
    appendU32Le header.encoding.toRaw, appendU32Le header.layout.toRaw,
    appendU64Le header.edgeCount, appendU64Le header.vectorPageCount, appendU64Le header.cellCount,
    fingerprintFields header.base, fingerprintFields header.vectors, sectionFields header.offsets,
    sectionFields header.adjacency, sectionFields header.directory,
    sectionFields header.cellDirectory, sectionFields header.prefetchDirectory].flatten with hbefore
  have hlength : before.length = kCommunityPolarOffset := by
    simp only [hbefore, fingerprintFields, sectionFields, List.flatten_cons, List.flatten_nil,
      List.length_append, List.length_nil, length_appendU64Le, length_appendU32Le]
    rfl
  have hwidth : ∀ fingerprint : Fingerprint, (fingerprintFields fingerprint).length = 16 := by
    intro fingerprint
    simp only [fingerprintFields, List.flatten_cons, List.flatten_nil, List.length_append,
      List.length_nil, length_appendU64Le]
  have hparts : ∀ fingerprint, serializeHeader { header with communityPolar := fingerprint } =
      before ++ (fingerprintFields fingerprint ++
        ([appendU64Le header.gatewayCount, sectionFields header.gatewayDirectory].flatten ++
          List.replicate (kTopologyHeaderBytes - 276) 0)) := by
    intro fingerprint
    rw [serializeHeader, length_headerFields, hbefore]
    simp only [headerFields, List.flatten_cons, List.flatten_nil, List.append_assoc,
      List.append_nil]
  rw [hparts, show serializeHeader header = _ from hparts header.communityPolar, ← hlength]
  exact (patch_between before _ _ ((hwidth _).trans (hwidth _).symm)).symm

/-! ## Loading -/

/-- What `load` asks of a header that it has read. -/
structure Loads (header : TopologyHeader) (disk topology vectors : List UInt8)
    (topologyOnly paged : Bool) : Prop where
  payload : checkPayload header = .ok ()
  sections : checkSections header topology.length = .ok ()
  checksums : ∃ checksum, (if paged then validateRawAdjacencyRange header topology
      else .ok (checksumBytes (header.adjacency.read topology))) = .ok checksum ∧
    checkChecksums header topology checksum = .ok ()
  fingerprints : checkFingerprints header disk vectors topologyOnly = .ok ()
  offsets : ∃ offsets rest, readMany (readU64 "neighbor offset") (header.pointCount.toNat + 1)
      (header.offsets.read topology) = .ok (offsets, rest) ∧ offsets.head? = some 0 ∧
    checkNeighborOffsets header offsets = .ok ()
  raw : header.encoding = .rawU32
  adjacency : paged = false →
    ∃ adjacency, readAdjacency header (header.adjacency.read topology) = .ok adjacency
  prefetchPages : ∃ pages, readPrefetchPages header (header.prefetchDirectory.read topology) =
    .ok pages
  hints : ∃ locations ranges hints,
    readLocations header (header.directory.read topology) = .ok locations ∧
    readCellRanges header (header.cellDirectory.read topology) = .ok ranges ∧
    readGatewayHints header locations ranges (gatewaySection header topology) = .ok hints

/-- The topology is loaded, and names the sidecar. -/
def AcceptedWith (sidecar disk topology vectors : List UInt8) (topologyOnly paged : Bool)
    (cachePages : Nat) : Prop :=
  ∃ index, load disk topology vectors topologyOnly paged cachePages = .ok index ∧
    index.communityPolarFingerprint = fingerprintFile sidecar

section Loading

variable {disk topology vectors : List UInt8} {topologyOnly paged : Bool} {cachePages : Nat}
  {header : TopologyHeader}

theorem acceptedWith_iff {sidecar : List UInt8} :
    AcceptedWith sidecar disk topology vectors topologyOnly paged cachePages ↔
      ∃ header, loadHeader topology paged cachePages = .ok header ∧
        header.communityPolar = fingerprintFile sidecar ∧
        Loads header disk topology vectors topologyOnly paged := by
  constructor
  · rintro ⟨index, hload, hsidecar⟩
    cases paged with
    | true =>
      simp only [load, if_true, bind_ok, reject_ok, exists_const, not_not,
        Except.ok.injEq, exists_eq_left'] at hload
      obtain ⟨header, hheader, _, hpayload, _, hsections, checksum, hchecksum, _, hchecksums, _,
        hfingerprints, ⟨offsets, rest⟩, hoffsets, hzero, hraw, _, hchecked, locations, hlocations,
        ranges, hranges, pages, hpages, hints, hhints, rfl⟩ := hload
      exact ⟨header, hheader, hsidecar, hpayload, hsections, ⟨checksum, hchecksum, hchecksums⟩,
        hfingerprints, ⟨offsets, rest, hoffsets, hzero, hchecked⟩, hraw, by simp, ⟨pages, hpages⟩,
        ⟨locations, ranges, hints, hlocations, hranges, hhints⟩⟩
    | false =>
      simp only [load, Bool.false_eq_true, if_false, bind_ok, reject_ok, exists_const,
        not_not, Except.ok.injEq] at hload
      obtain ⟨header, hheader, _, hpayload, _, hsections, checksum, hchecksum, _, hchecksums, _,
        hfingerprints, ⟨offsets, rest⟩, hoffsets, hzero, hraw, _, hchecked, adjacency, hadjacency,
        locations, hlocations, ranges, hranges, pages, hpages, hints, hhints, rfl⟩ := hload
      refine ⟨header, hheader, hsidecar, hpayload, hsections, ⟨checksum, ?_, hchecksums⟩,
        hfingerprints, ⟨offsets, rest, hoffsets, hzero, hchecked⟩, hraw, fun _ => ?_,
        ⟨pages, hpages⟩, ⟨locations, ranges, hints, hlocations, hranges, hhints⟩⟩
      · rw [← hchecksum]
        rfl
      · cases hread : readAdjacency header (header.adjacency.read topology) with
        | error failure =>
          rw [hread] at hadjacency
          cases hadjacency
        | ok found => exact ⟨found, rfl⟩
  · rintro ⟨header, hheader, hsidecar, hloads⟩
    obtain ⟨checksum, hchecksum, hchecksums⟩ := hloads.checksums
    obtain ⟨offsets, rest, hoffsets, hzero, hchecked⟩ := hloads.offsets
    obtain ⟨pages, hpages⟩ := hloads.prefetchPages
    obtain ⟨locations, ranges, hints, hlocations, hranges, hhints⟩ := hloads.hints
    have hraw := hloads.raw
    cases paged with
    | true =>
      simp only [AcceptedWith, load, if_true, bind_ok, reject_ok, exists_const,
        not_not, Except.ok.injEq, exists_eq_left']
      exact ⟨_, ⟨header, hheader, (), hloads.payload, (), hloads.sections, checksum, hchecksum, (),
        hchecksums, (), hloads.fingerprints, (offsets, rest), hoffsets, hzero, hraw, (), hchecked,
        locations, hlocations, ranges, hranges, pages, hpages, hints, hhints, rfl⟩, hsidecar⟩
    | false =>
      obtain ⟨adjacency, hadjacency⟩ := hloads.adjacency rfl
      simp only [AcceptedWith, load, Bool.false_eq_true, if_false, bind_ok, reject_ok,
        exists_const, not_not, Except.ok.injEq]
      refine ⟨_, ⟨header, hheader, (), hloads.payload, (), hloads.sections, checksum, ?_, (),
        hchecksums, (), hloads.fingerprints, (offsets, rest), hoffsets, hzero, hraw, (), hchecked,
        .whole adjacency, ?_, locations, hlocations, ranges, hranges, pages, hpages, hints, hhints,
        rfl⟩, hsidecar⟩
      · exact Except.ok.inj hchecksum
      · rw [hadjacency]
        rfl

theorem behind_header_of_sections {size : Nat} (hheader : WritableHeader header)
    (hsections : checkSections header size = .ok ()) :
    kTopologyHeaderBytes ≤ header.offsets.offset.toNat ∧
      kTopologyHeaderBytes ≤ header.adjacency.offset.toNat ∧
      kTopologyHeaderBytes ≤ header.directory.offset.toNat ∧
      kTopologyHeaderBytes ≤ header.cellDirectory.offset.toNat ∧
      kTopologyHeaderBytes ≤ header.prefetchDirectory.offset.toNat ∧
      kTopologyHeaderBytes ≤ header.gatewayDirectory.offset.toNat := by
  have hbytes : header.headerBytes.toNat = kTopologyHeaderBytes := by
    rw [hheader.headerBytes]
    decide
  have hnotV4 : header.version ≠ kTopologyVersionV4 := by
    rcases hheader.version with hversion | hversion
    all_goals
      rw [hversion]
      decide
  have hgateways : kTopologyVersionV5 ≤ header.version := by
    rcases hheader.version with hversion | hversion
    all_goals
      rw [hversion]
      decide
  simp only [checkSections, if_neg hnotV4, bind_ok, addChecked_eq_ok,
    multiplyChecked_eq_ok, reject_ok, not_or, not_and, not_not, hbytes] at hsections
  obtain ⟨_, -, _, -, _, -, _, -, _, -, _, -, _, -, _, ⟨-, rfl⟩, _, ⟨-, rfl⟩, _, ⟨-, rfl⟩, _,
    ⟨-, rfl⟩, _, ⟨-, rfl⟩, _, -, hoffsets, -, hadjacency, -, hdirectory, -, hcell, -, hprefetch, -,
    hgateway, -⟩ := hsections
  have hplace := (hgateway hgateways).1
  refine ⟨?_, ?_, ?_, ?_, ?_, ?_⟩
  all_goals omega

/-- The files are as long, and have the same bytes behind the header. -/
structure Alike (first second : List UInt8) : Prop where
  length : second.length = first.length
  behind : ∀ start count, kTopologyHeaderBytes ≤ start →
    subspan second start count = subspan first start count

theorem Alike.symm {first second : List UInt8} (halike : Alike first second) :
    Alike second first :=
  ⟨halike.length.symm, fun start count hstart => (halike.behind start count hstart).symm⟩

theorem Loads.rebind {other : List UInt8} {fingerprint : Fingerprint}
    (hloads : Loads header disk topology vectors topologyOnly paged)
    (hheader : WritableHeader header) (halike : Alike topology other)
    (hsize : fingerprint.sizeBytes ≠ 0) :
    Loads { header with communityPolar := fingerprint } disk other vectors topologyOnly paged := by
  obtain ⟨hoffsets, hadjacency, hdirectory, hcell, hprefetch, hgateway⟩ :=
    behind_header_of_sections hheader hloads.sections
  have hread : ∀ place : TopologySection, kTopologyHeaderBytes ≤ place.offset.toNat →
      place.read other = place.read topology := fun place hplace =>
    halike.behind place.offset.toNat place.bytes.toNat hplace
  have hgateways : gatewaySection header other = gatewaySection header topology := by
    rw [gatewaySection, gatewaySection, hread _ hgateway]
  have hraw : validateRawAdjacencyRange header other = validateRawAdjacencyRange header topology := by
    unfold validateRawAdjacencyRange
    simp only [halike.behind _ _ hadjacency]
  have hchecks : ∀ checksum, checkChecksums header other checksum =
      checkChecksums header topology checksum := by
    intro checksum
    simp only [checkChecksums, hread _ hoffsets, hread _ hdirectory, hread _ hcell,
      hread _ hprefetch, hgateways]
  refine
    { payload := ?_
      sections := ?_
      checksums := ?_
      fingerprints := hloads.fingerprints
      offsets := ?_
      raw := hloads.raw
      adjacency := ?_
      prefetchPages := ?_
      hints := ?_ }
  · have hpayload := hloads.payload
    simp only [checkPayload, bind_ok, reject_ok, exists_const] at hpayload ⊢
    refine ⟨hpayload.1, fun hgateway => hpayload.2 ⟨hgateway.1, ?_⟩⟩
    rcases hgateway.2 with hold | hcells | hnone
    · exact .inl hold
    · exact .inr (.inl hcells)
    · exact absurd hnone hsize
  · rw [halike.length]
    exact hloads.sections
  · obtain ⟨checksum, hchecksum, hchecksums⟩ := hloads.checksums
    refine ⟨checksum, ?_, (hchecks checksum).trans hchecksums⟩
    rw [← hchecksum, ← hraw, ← hread _ hadjacency]
    rfl
  · obtain ⟨offsets, rest, hfound⟩ := hloads.offsets
    rw [← hread _ hoffsets] at hfound
    exact ⟨offsets, rest, hfound⟩
  · intro hwhole
    obtain ⟨adjacency, hfound⟩ := hloads.adjacency hwhole
    rw [← hread _ hadjacency] at hfound
    exact ⟨adjacency, hfound⟩
  · obtain ⟨pages, hfound⟩ := hloads.prefetchPages
    rw [← hread _ hprefetch] at hfound
    exact ⟨pages, hfound⟩
  · obtain ⟨locations, ranges, hints, hlocations, hranges, hhints⟩ := hloads.hints
    rw [← hread _ hdirectory] at hlocations
    rw [← hread _ hcell] at hranges
    rw [← hgateways] at hhints
    exact ⟨locations, ranges, hints, hlocations, hranges, hhints⟩

end Loading

/-! ## The rebound topology -/

/-- The topology of a Cell layout, bound to the first of two sidecars of one structure. -/
structure Rebindable (topology source replacement : List UInt8) (header : TopologyHeader) :
    Prop where
  long : kTopologyHeaderBytes ≤ topology.length
  parsed : parseHeader (topology.take kTopologyHeaderBytes) = .ok header
  version : header.version = kTopologyVersionV5 ∨ header.version = kTopologyVersion
  cells : header.cellCount ≠ 0
  bound : header.communityPolar = fingerprintFile source
  same : validateReboundCellStructure source replacement = .ok ()

theorem version_le_of_writable
    (hversion : header.version = kTopologyVersionV5 ∨ header.version = kTopologyVersion) :
    kTopologyVersionV5 ≤ header.version ∧ header.version ≤ kTopologyVersion := by
  rcases hversion with hfive | hsix
  · rw [hfive]
    decide
  · rw [hsix]
    decide

theorem size_ne_zero_of_read {descriptor : SidecarDescriptor}
    (hread : readCellSidecarDescriptor file = .ok descriptor) :
    (fingerprintFile file).sizeBytes ≠ 0 := by
  obtain ⟨-, -, hlong, hshort⟩ := covers_of_read hread
  have hpositive : 0 < kCellHeaderBytes := by decide
  intro hzero
  have hlength := congrArg UInt64.toNat hzero
  rw [fingerprintFile, UInt64.toNat_ofNat', Nat.mod_eq_of_lt hshort, UInt64.toNat_zero] at hlength
  omega

namespace Rebindable

variable {topology source replacement : List UInt8} {header : TopologyHeader}

/-- The header with the fingerprint of the other sidecar. -/
def rebound (header : TopologyHeader) (replacement : List UInt8) : TopologyHeader :=
  { header with communityPolar := fingerprintFile replacement }

section

variable (hready : Rebindable topology source replacement header)
include hready

theorem serialized :
    serializeHeader header = topology.take kTopologyHeaderBytes ∧ WritableHeader header := by
  obtain ⟨hbytes, hwritable, -⟩ :=
    serializeHeader_parseHeader hready.parsed (version_le_of_writable hready.version).1
  rw [List.take_take, Nat.min_self] at hbytes
  exact ⟨hbytes, hwritable⟩

theorem output_eq :
    serializeHeader (rebound header replacement) ++ topology.drop kTopologyHeaderBytes =
      patch topology kCommunityPolarOffset
        (fingerprintFields (fingerprintFile replacement)) := by
  have hend : kCommunityPolarOffset + (fingerprintFields (fingerprintFile replacement)).length ≤
      kTopologyHeaderBytes := by
    simp only [fingerprintFields, List.flatten_cons, List.flatten_nil, List.length_append,
      List.length_nil, length_appendU64Le]
    decide
  have hfits : kCommunityPolarOffset +
      (fingerprintFields (fingerprintFile replacement)).length ≤
        (topology.take kTopologyHeaderBytes).length := by
    rw [List.length_take_of_le hready.long]
    exact hend
  have hbehind := @List.drop_append_of_le_length _ (topology.take kTopologyHeaderBytes)
    (topology.drop kTopologyHeaderBytes) _ hfits
  rw [List.take_append_drop] at hbehind
  rw [rebound, serializeHeader_of_communityPolar, hready.serialized.1, patch, patch, List.take_take,
    Nat.min_eq_left (by omega), List.append_assoc, ← hbehind]

theorem alike :
    Alike topology (serializeHeader (rebound header replacement) ++
      topology.drop kTopologyHeaderBytes) := by
  have hlength := length_serializeHeader (rebound header replacement)
  have hlong := hready.long
  constructor
  · rw [List.length_append, hlength, List.length_drop]
    omega
  · intro start count hstart
    obtain ⟨offset, rfl⟩ := Nat.exists_eq_add_of_le hstart
    have hother := subspan_append_right (serializeHeader (rebound header replacement))
      (topology.drop kTopologyHeaderBytes) offset count
    have hself := subspan_append_right (topology.take kTopologyHeaderBytes)
      (topology.drop kTopologyHeaderBytes) offset count
    rw [hlength] at hother
    rw [List.length_take_of_le hlong, List.take_append_drop] at hself
    rw [hother, hself]

theorem replacement_size :
    (fingerprintFile source).sizeBytes ≠ 0 ∧ (fingerprintFile replacement).sizeBytes ≠ 0 := by
  obtain ⟨left, right, hleft, hright, -⟩ := validateReboundCellStructure_eq_ok.mp hready.same
  exact ⟨size_ne_zero_of_read hleft, size_ne_zero_of_read hright⟩

theorem rebind_eq :
    rebindIoTopologyCommunityPolar topology source replacement =
      .ok (serializeHeader (rebound header replacement) ++ topology.drop kTopologyHeaderBytes) := by
  obtain ⟨hfirst, hlast⟩ := version_le_of_writable hready.version
  have hbytes : header.headerBytes.toNat = kTopologyHeaderBytes := by
    rw [hready.serialized.2.headerBytes]
    decide
  refine bind_ok.mpr ⟨(), reject_ok.mpr (Nat.not_lt.mpr hready.long), ?_⟩
  refine bind_ok.mpr ⟨header, hready.parsed, ?_⟩
  refine bind_ok.mpr ⟨(), reject_ok.mpr ?_, ?_⟩
  · rw [hready.bound]
    rintro (hold | hnew | hother | hcells | hnone)
    · exact absurd hfirst (UInt32.not_le.mpr hold)
    · exact absurd hlast (UInt32.not_le.mpr hnew)
    · exact hother hbytes
    · exact hready.cells hcells
    · exact hready.replacement_size.1 hnone
  refine bind_ok.mpr ⟨(), reject_ok.mpr (not_not.mpr hready.bound), ?_⟩
  refine bind_ok.mpr ⟨(), hready.same, ?_⟩
  exact bind_ok.mpr ⟨(), reject_ok.mpr (not_not.mpr hready.alike.length), rfl⟩

end

theorem of_rebind {output : List UInt8}
    (hrebind : rebindIoTopologyCommunityPolar topology source replacement = .ok output) :
    ∃ header, Rebindable topology source replacement header := by
  simp only [rebindIoTopologyCommunityPolar, bind_ok, reject_ok, exists_const, not_or,
    not_not, not_lt] at hrebind
  obtain ⟨hlong, header, hparse, ⟨hfirst, -, -, hcells, -⟩, hbound, _, hsame, -⟩ := hrebind
  have hversion := (serializeHeader_parseHeader hparse (UInt32.not_lt.mp hfirst)).2.1.version
  exact ⟨header, hlong, hparse, hversion, hcells, hbound, hsame⟩

end Rebindable

theorem loadHeader_eq_ok {found : TopologyHeader} {paged : Bool} {cachePages : Nat}
    (hlong : kTopologyHeaderBytes ≤ file.length)
    (hparse : parseHeader (file.take kTopologyHeaderBytes) = .ok header) :
    loadHeader file paged cachePages = .ok found ↔
      header = found ∧ (paged = true → cachePages ≠ 0 ∧ header.encoding = .rawU32) ∧
        (paged = false → cachePages = 0) := by
  have hwhole := parseHeader_take hlong hparse
  cases paged with
  | true =>
    simp only [loadHeader, if_true, bind_ok, reject_ok, exists_const, hparse,
      Except.ok.injEq, exists_eq_left', true_and, not_or, not_not, not_lt, hlong]
    tauto
  | false =>
    simp only [loadHeader, Bool.false_eq_true, if_false, bind_ok, reject_ok,
      exists_const, hwhole, Except.ok.injEq, exists_eq_left', false_and, true_and, not_not]
    tauto

theorem Rebindable.acceptedWith_iff {topology source replacement : List UInt8}
    (hready : Rebindable topology source replacement header) {disk vectors : List UInt8}
    {topologyOnly paged : Bool} {cachePages : Nat} :
    AcceptedWith replacement disk
        (serializeHeader (rebound header replacement) ++ topology.drop kTopologyHeaderBytes) vectors
        topologyOnly paged cachePages ↔
      AcceptedWith source disk topology vectors topologyOnly paged cachePages := by
  have hwritable := hready.serialized.2
  have halike := hready.alike
  obtain ⟨hsource, hreplacement⟩ := hready.replacement_size
  set output := serializeHeader (rebound header replacement) ++
    topology.drop kTopologyHeaderBytes with houtput
  have hother : WritableHeader (rebound header replacement) :=
    ⟨hwritable.version, hwritable.headerBytes, hwritable.encoding, hwritable.layout⟩
  have hparse : parseHeader (output.take kTopologyHeaderBytes) =
      .ok (rebound header replacement) := by
    rw [houtput, List.take_left' (length_serializeHeader _)]
    have hserialized := parseHeader_serialize hother []
    rwa [List.append_nil] at hserialized
  have hlong : kTopologyHeaderBytes ≤ output.length := by
    rw [halike.length]
    exact hready.long
  rw [SkipCell.IoIndex.acceptedWith_iff, SkipCell.IoIndex.acceptedWith_iff]
  constructor
  · rintro ⟨found, hfound, hnamed, hloads⟩
    obtain ⟨rfl, hpaged, hwhole⟩ := (loadHeader_eq_ok hlong hparse).mp hfound
    refine ⟨header, (loadHeader_eq_ok hready.long hready.parsed).mpr ⟨rfl, hpaged, hwhole⟩,
      hready.bound, ?_⟩
    have hback := hloads.rebind hother halike.symm (hready.bound ▸ hsource)
    exact hback
  · rintro ⟨found, hfound, -, hloads⟩
    obtain ⟨rfl, hpaged, hwhole⟩ := (loadHeader_eq_ok hready.long hready.parsed).mp hfound
    exact ⟨rebound header replacement, (loadHeader_eq_ok hlong hparse).mpr ⟨rfl, hpaged, hwhole⟩,
      rfl, hloads.rebind hwritable halike hreplacement⟩

/-- A header is written back as it was read, and a rebound topology differs from the first one
in the fingerprint of the sidecar only. -/
theorem rebind_topology :
    (∀ file header, parseHeader file = .ok header →
      header.version = kTopologyVersionV5 ∨ header.version = kTopologyVersion →
      serializeHeader header = file.take kTopologyHeaderBytes) ∧
    ∀ topology source replacement output,
      (rebindIoTopologyCommunityPolar topology source replacement = .ok output ↔
        (∃ header, Rebindable topology source replacement header) ∧
          output = patch topology kCommunityPolarOffset
            (fingerprintFields (fingerprintFile replacement))) ∧
      (rebindIoTopologyCommunityPolar topology source replacement = .ok output →
        ∀ disk vectors topologyOnly paged cachePages,
          AcceptedWith replacement disk output vectors topologyOnly paged cachePages ↔
            AcceptedWith source disk topology vectors topologyOnly paged cachePages) := by
  constructor
  · intro file header hparse hversion
    exact (serializeHeader_parseHeader hparse (version_le_of_writable hversion).1).1
  · intro topology source replacement output
    refine ⟨⟨fun hrebind => ?_, ?_⟩, fun hrebind disk vectors topologyOnly paged cachePages => ?_⟩
    · obtain ⟨header, hready⟩ := Rebindable.of_rebind hrebind
      obtain rfl := Except.ok.inj (hrebind.symm.trans hready.rebind_eq)
      exact ⟨⟨header, hready⟩, hready.output_eq⟩
    · rintro ⟨⟨header, hready⟩, rfl⟩
      rw [hready.rebind_eq, hready.output_eq]
    · obtain ⟨header, hready⟩ := Rebindable.of_rebind hrebind
      obtain rfl := Except.ok.inj (hrebind.symm.trans hready.rebind_eq)
      exact hready.acceptedWith_iff

def boundTopology (sidecar : List UInt8) : List UInt8 :=
  serializeHeader
    { version := kTopologyVersionV5, pointCount := 1, dimension := 1, maxDegree := 0
      encoding := .rawU32, layout := .cell4k, edgeCount := 0, vectorPageCount := 1, cellCount := 1
      base := {}, vectors := {}, offsets := {}, adjacency := {}, directory := {}
      cellDirectory := {}, prefetchDirectory := {}, communityPolar := fingerprintFile sidecar }

theorem rebind_topology_onePacket :
    let source := onePacketSidecar 1 [3]
    let replacement := onePacketSidecar 2 [5, 6]
    ∃ output, rebindIoTopologyCommunityPolar (boundTopology source) source replacement = .ok output ∧
      output = patch (boundTopology source) kCommunityPolarOffset
        (fingerprintFields (fingerprintFile replacement)) := by
  intro source replacement
  obtain ⟨output, hrebind, -⟩ : ∃ output,
      rebindIoTopologyCommunityPolar (boundTopology source) source replacement = .ok output ∧
        output.length = kTopologyHeaderBytes :=
    exists_ok (by decide +kernel)
  exact ⟨output, hrebind, ((rebind_topology.2 _ _ _ output).1.mp hrebind).2⟩

end SkipCell.IoIndex

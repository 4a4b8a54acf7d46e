import SkipCell.Foundation.PairedStreams
import SkipCell.IoIndex.PagedAdjacency

/-! # Sidecars of one structure

A topology can be bound to another sidecar when the two differ in their product quantization
only. The comparison reads both files section by section: all sections are equal but those of
the Communities, of the Blocks and of the packets, of which parts of the records may differ.
-/

namespace SkipCell.IoIndex

open Foundation Sidecar

def kCellFixedBytes : Nat := 96

def kCellEntryBytes : Nat := 32

def kCellSections : Nat := 18

def kCellHeaderBytes : Nat := kCellFixedBytes + kCellSections * kCellEntryBytes

structure SidecarEntry where
  id : UInt32
  offset : UInt64
  length : UInt64
  recordCount : UInt64
  deriving DecidableEq

/-- `cell_sidecar_descriptor_t`. -/
structure SidecarDescriptor where
  pointCount : UInt64
  dimension : UInt32
  pqWidth : UInt32
  bodyChecksum : UInt64
  base : Fingerprint
  headerBytes : UInt32
  sections : List SidecarEntry

/-- The fixed part of the header, without the directory, and the size of the body. -/
def readCellHeader : Reader (SidecarDescriptor × UInt64) := do
  let magic ← readU64 "Cell magic"
  rejectRead (magic ≠ kCommunityPolarMagic) "invalid Cell sidecar magic"
  let version ← readU32 "Cell version"
  let headerBytes ← readU32 "Cell header size"
  let endian ← readU32 "Cell byte order"
  let sections ← readU32 "Cell section count"
  rejectRead (endian ≠ kEndianMarker ∨ sections.toNat ≠ kCellSections ∨ version < 5 ∨ 7 < version ∨
    headerBytes.toNat ≠ kCellHeaderBytes) "unsupported Cell sidecar header"
  let pointCount ← readU64 "Cell point count"
  let dimension ← readU32 "Cell dimension"
  let pqWidth ← readU32 "Cell PQ width"
  let bodyChecksum ← readU64 "Cell body checksum"
  let base ← readFingerprint "Cell Base size" "Cell Base checksum"
  let _ ← readFingerprint "Cell PQ size" "Cell PQ checksum"
  let bodyBytes ← readU64 "Cell body size"
  pure (⟨pointCount, dimension, pqWidth, bodyChecksum, base, headerBytes, []⟩, bodyBytes)

def readCellEntry : Reader SidecarEntry := do
  let id ← readU32 "Cell section ID"
  let _ ← readU32 "Cell section reserved"
  let offset ← readU64 "Cell section offset"
  let length ← readU64 "Cell section length"
  let recordCount ← readU64 "Cell section count"
  pure ⟨id, offset, length, recordCount⟩

/-- The sections have their numbers, and each begins where the one before it ends. -/
def checkCellEntry (index : Nat) (entry : SidecarEntry) (nextOffset : Nat) : Except Error Nat := do
  reject (entry.id.toNat ≠ index + 1 ∨ entry.offset.toNat ≠ nextOffset)
    (.runtimeError "noncanonical Cell sidecar directory")
  addChecked entry.offset.toNat entry.length.toNat "Cell sidecar bytes"

def readCellSidecarDescriptor (file : List UInt8) : Except Error SidecarDescriptor := do
  reject (file.length < kCellFixedBytes) (.runtimeError "truncated Cell sidecar header")
  let ((descriptor, bodyBytes), _) ← readCellHeader (file.take kCellFixedBytes)
  reject (file.length < kCellHeaderBytes) (.runtimeError "truncated Cell sidecar directory")
  let (entries, _) ← readMany readCellEntry kCellSections
    (subspan file kCellFixedBytes (kCellSections * kCellEntryBytes))
  let nextOffset ← scan checkCellEntry 0 entries descriptor.headerBytes.toNat
  reject (nextOffset ≠ (descriptor.headerBytes.toUInt64 + bodyBytes).toNat ∨
      nextOffset ≠ file.length)
    (.runtimeError "Cell sidecar section coverage is invalid")
  .ok { descriptor with sections := entries }

/-! ## The comparison -/

def kCommunitySection : UInt32 := 5

def kBlockSection : UInt32 := 13

def kPacketSection : UInt32 := 14

def kCommunityRecordBytes : Nat := 84

def kBlockRecordBytes : Nat := 36

/-- The width of a buffer. -/
def kCompareBytes : Nat := 2 ^ 20

/-- The record with zeros in the place of the packet size. -/
def maskPacketBytes (record : List UInt8) : List UInt8 :=
  record.take 12 ++ List.replicate 8 0 ++ record.drop 20

def sameCommunityRecord (left right : List UInt8) : Bool :=
  maskPacketBytes left = maskPacketBytes right

def sameBlockRecord (left right : List UInt8) : Bool := left.take 32 = right.take 32

def samePacketRecord (left right : List UInt8) : Bool := left.take 4 = right.take 4

def SidecarDescriptor.packetRecordBytes (descriptor : SidecarDescriptor) : UInt64 :=
  4 + descriptor.pqWidth.toUInt64

def structureTruncated : Error :=
  .runtimeError "truncated Cell sidecar section during structural comparison"

/-- Compares the bytes of a section, by its number. -/
def compareContents (left right : SidecarDescriptor) (leftEntry rightEntry : SidecarEntry)
    (streams : PairedStreams) : Except Error PairedStreams :=
  let records := leftEntry.recordCount.toNat
  if leftEntry.id = kCommunitySection then do
    reject (leftEntry.length ≠ leftEntry.recordCount * .ofNat kCommunityRecordBytes ∨
        rightEntry.length ≠ leftEntry.length)
      (.runtimeError "Cell Community section width changed")
    PairedStreams.compareRecords structureTruncated
      (.runtimeError "replacement Cell sidecar changes Community structure")
      kCommunityRecordBytes kCommunityRecordBytes sameCommunityRecord records streams
  else if leftEntry.id = kBlockSection then do
    reject (leftEntry.length ≠ leftEntry.recordCount * .ofNat kBlockRecordBytes ∨
        rightEntry.length ≠ leftEntry.length)
      (.runtimeError "Cell Block section width changed")
    PairedStreams.compareRecords structureTruncated
      (.runtimeError "replacement Cell sidecar changes Block ownership")
      kBlockRecordBytes kBlockRecordBytes sameBlockRecord records streams
  else if leftEntry.id = kPacketSection then do
    reject (leftEntry.length ≠ leftEntry.recordCount * left.packetRecordBytes ∨
        rightEntry.length ≠ rightEntry.recordCount * right.packetRecordBytes)
      (.runtimeError "Cell packet section width is invalid")
    PairedStreams.compareRecords structureTruncated
      (.runtimeError "replacement Cell sidecar changes packet ownership")
      left.packetRecordBytes.toNat right.packetRecordBytes.toNat samePacketRecord records streams
  else do
    reject (leftEntry.length ≠ rightEntry.length)
      (.runtimeError "replacement Cell sidecar changes immutable section length")
    PairedStreams.compareBytes structureTruncated
      (.runtimeError "replacement Cell sidecar changes immutable structure") kCompareBytes
      (by decide) leftEntry.length.toNat streams

/-- Compares a section of both files, and goes on with the hashes of what it has read. -/
def compareSection (source replacement : List UInt8) (left right : SidecarDescriptor) (_ : Nat)
    (entries : SidecarEntry × SidecarEntry) (hashes : UInt64 × UInt64) :
    Except Error (UInt64 × UInt64) := do
  let (leftEntry, rightEntry) := entries
  reject (leftEntry.id ≠ rightEntry.id ∨ leftEntry.recordCount ≠ rightEntry.recordCount)
    (.runtimeError "replacement Cell sidecar changes section record counts")
  let streams ← compareContents left right leftEntry rightEntry
    ⟨source.drop leftEntry.offset.toNat, replacement.drop rightEntry.offset.toNat, hashes.1,
      hashes.2⟩
  .ok (streams.leftHash, streams.rightHash)

def validateReboundCellStructure (source replacement : List UInt8) : Except Error Unit := do
  let left ← readCellSidecarDescriptor source
  let right ← readCellSidecarDescriptor replacement
  reject (left.pointCount ≠ right.pointCount ∨ left.dimension ≠ right.dimension ∨
      left.base ≠ right.base ∨ left.sections.length ≠ right.sections.length)
    (.runtimeError "replacement Cell sidecar changes Base structure")
  let hashes ← scan (compareSection source replacement left right) 0
    (left.sections.zip right.sections) (fnvOffsetBasis, fnvOffsetBasis)
  reject (hashes.1 ≠ left.bodyChecksum ∨ hashes.2 ≠ right.bodyChecksum)
    (.runtimeError "Cell sidecar body checksum failed during structural comparison")

/-! ## What the comparison accepts -/

def SidecarEntry.read (entry : SidecarEntry) (file : List UInt8) : List UInt8 :=
  subspan file entry.offset.toNat entry.length.toNat

/-- The Community records agree but for the packet size. -/
def SameCommunity (left right : List UInt8) : Prop :=
  left.take 12 = right.take 12 ∧ left.drop 20 = right.drop 20

/-- The Block records agree but for the error of the product quantization. -/
def SameBlock (left right : List UInt8) : Prop := left.take 32 = right.take 32

/-- The packets agree but for the codes. -/
def SamePacket (left right : List UInt8) : Prop := left.take 4 = right.take 4

/-- Both sections consist of records, which agree one with one. -/
structure SameRecords (source replacement : List UInt8) (leftEntry rightEntry : SidecarEntry)
    (leftBytes rightBytes : Nat) (Same : List UInt8 → List UInt8 → Prop) : Prop where
  left : leftEntry.length.toNat = leftEntry.recordCount.toNat * leftBytes
  right : rightEntry.length.toNat = rightEntry.recordCount.toNat * rightBytes
  records : ∀ record < leftEntry.recordCount.toNat,
    Same (subspan (leftEntry.read source) (record * leftBytes) leftBytes)
      (subspan (rightEntry.read replacement) (record * rightBytes) rightBytes)

/-- The sections have as many records, and agree in all that may not change. -/
def SameSection (source replacement : List UInt8) (left right : SidecarDescriptor)
    (leftEntry rightEntry : SidecarEntry) : Prop :=
  leftEntry.id = rightEntry.id ∧ leftEntry.recordCount = rightEntry.recordCount ∧
    if leftEntry.id = kCommunitySection then
      SameRecords source replacement leftEntry rightEntry kCommunityRecordBytes
        kCommunityRecordBytes SameCommunity
    else if leftEntry.id = kBlockSection then
      SameRecords source replacement leftEntry rightEntry kBlockRecordBytes kBlockRecordBytes
        SameBlock
    else if leftEntry.id = kPacketSection then
      SameRecords source replacement leftEntry rightEntry left.packetRecordBytes.toNat
        right.packetRecordBytes.toNat SamePacket
    else leftEntry.read source = rightEntry.read replacement

structure SameStructure (source replacement : List UInt8) (left right : SidecarDescriptor) :
    Prop where
  pointCount : left.pointCount = right.pointCount
  dimension : left.dimension = right.dimension
  base : left.base = right.base
  sections : List.Forall₂ (SameSection source replacement left right) left.sections right.sections

/-- The checksum in the header is that of what follows the directory. -/
def SidecarDescriptor.ChecksumValid (descriptor : SidecarDescriptor) (file : List UInt8) : Prop :=
  descriptor.bodyChecksum = checksumBytes (file.drop kCellHeaderBytes)

section Sections

variable {source replacement : List UInt8} {left right : SidecarDescriptor}
  {leftEntry rightEntry : SidecarEntry}

theorem sameCommunityRecord_iff {first second : List UInt8} (hfirst : first.length = 84)
    (hsecond : second.length = 84) :
    sameCommunityRecord first second = true ↔ SameCommunity first second := by
  have htake : (first.take 12).length = (second.take 12).length := by
    rw [List.length_take, List.length_take, hfirst, hsecond]
  rw [sameCommunityRecord, decide_eq_true_iff, maskPacketBytes, maskPacketBytes, List.append_assoc,
    List.append_assoc]
  constructor
  · intro hsame
    obtain ⟨hfront, hrest⟩ := List.append_inj hsame htake
    exact ⟨hfront, List.append_cancel_left hrest⟩
  · rintro ⟨hfront, hrest⟩
    rw [hfront, hrest]

theorem length_eq_mul_iff {length count : UInt64} {width : Nat} (hwidth : width < 2 ^ 64)
    (hfits : count.toNat * width < 2 ^ 64) :
    length = count * .ofNat width ↔ length.toNat = count.toNat * width := by
  rw [← UInt64.toNat_inj, UInt64.toNat_mul, UInt64.toNat_ofNat', Nat.mod_eq_of_lt hwidth,
    Nat.mod_eq_of_lt hfits]

theorem subspan_record {file : List UInt8} {entry : SidecarEntry} {width record count : Nat}
    (hlength : entry.length.toNat = count * width) (hrecord : record < count) :
    subspan (entry.read file) (record * width) width =
      subspan (file.drop entry.offset.toNat) (record * width) width := by
  have hinside : record * width + width ≤ count * width := by
    rw [← Nat.succ_mul]
    exact Nat.mul_le_mul_right width hrecord
  rw [SidecarEntry.read, hlength, subspan_subspan _ hinside, subspan, subspan, List.drop_drop]

/-- A section of records is accepted when its width is right and the records agree. The checks
of the width are made modulo `2 ^ 64`. -/
theorem compareRecords_iff {leftBytes rightBytes : Nat} {same : List UInt8 → List UInt8 → Bool}
    {Same : List UInt8 → List UInt8 → Prop} {wrong different : Error} {streams last : PairedStreams}
    {checks : Prop} [Decidable checks]
    (hleftStream : streams.left = source.drop leftEntry.offset.toNat)
    (hrightStream : streams.right = replacement.drop rightEntry.offset.toNat)
    (hcount : leftEntry.recordCount = rightEntry.recordCount)
    (hleft : leftEntry.offset.toNat + leftEntry.length.toNat ≤ source.length)
    (hright : rightEntry.offset.toNat + rightEntry.length.toNat ≤ replacement.length)
    (hsource : source.length < 2 ^ 64) (hreplacement : replacement.length < 2 ^ 64)
    (hchecks : leftEntry.recordCount.toNat * leftBytes < 2 ^ 64 →
      rightEntry.recordCount.toNat * rightBytes < 2 ^ 64 → (¬ checks ↔
        leftEntry.length.toNat = leftEntry.recordCount.toNat * leftBytes ∧
        rightEntry.length.toNat = rightEntry.recordCount.toNat * rightBytes))
    (hsame : ∀ first second, first.length = leftBytes → second.length = rightBytes →
      (same first second = true ↔ Same first second)) :
    (reject checks wrong >>= fun _ =>
      PairedStreams.compareRecords structureTruncated different leftBytes rightBytes same
        leftEntry.recordCount.toNat streams) = .ok last ↔
      SameRecords source replacement leftEntry rightEntry leftBytes rightBytes Same ∧
        last = streams.advance leftEntry.length.toNat rightEntry.length.toNat := by
  have hrecord : leftEntry.length.toNat = leftEntry.recordCount.toNat * leftBytes →
      rightEntry.length.toNat = rightEntry.recordCount.toNat * rightBytes →
      ∀ record < leftEntry.recordCount.toNat,
      (same (subspan (source.drop leftEntry.offset.toNat) (record * leftBytes) leftBytes)
        (subspan (replacement.drop rightEntry.offset.toNat) (record * rightBytes) rightBytes) =
          true ↔
        Same (subspan (leftEntry.read source) (record * leftBytes) leftBytes)
          (subspan (rightEntry.read replacement) (record * rightBytes) rightBytes)) := by
    intro hleftLength hrightLength record hrecord
    have hother : record < rightEntry.recordCount.toNat := by rwa [← hcount]
    have hleftEnd : record * leftBytes + leftBytes ≤ leftEntry.recordCount.toNat * leftBytes := by
      rw [← Nat.succ_mul]
      exact Nat.mul_le_mul_right leftBytes hrecord
    have hrightEnd : record * rightBytes + rightBytes ≤
        rightEntry.recordCount.toNat * rightBytes := by
      rw [← Nat.succ_mul]
      exact Nat.mul_le_mul_right rightBytes hother
    rw [subspan_record hleftLength hrecord, subspan_record hrightLength hother]
    apply hsame
    · apply length_subspan
      rw [List.length_drop]
      omega
    · apply length_subspan
      rw [List.length_drop]
      omega
  simp only [bind_ok, reject_ok, exists_const, PairedStreams.compareRecords_eq_ok,
    hleftStream, hrightStream, List.length_drop]
  constructor
  · rintro ⟨hwidth, hleftFits, hrightFits, hrecords, rfl⟩
    rw [hcount] at hrightFits
    obtain ⟨hleftLength, hrightLength⟩ := (hchecks (by omega) (by omega)).mp hwidth
    refine ⟨⟨hleftLength, hrightLength, fun record hlt => ?_⟩, ?_⟩
    · exact (hrecord hleftLength hrightLength record hlt).mp (hrecords record hlt)
    · rw [hleftLength, hrightLength, hcount]
  · rintro ⟨⟨hleftLength, hrightLength, hrecords⟩, rfl⟩
    refine ⟨?_, by omega, ?_, fun record hlt => ?_, ?_⟩
    · exact (hchecks (by omega) (by omega)).mpr ⟨hleftLength, hrightLength⟩
    · rw [hcount]
      omega
    · exact (hrecord hleftLength hrightLength record hlt).mpr (hrecords record hlt)
    · rw [hleftLength, hrightLength, hcount]

theorem widths_iff {width : Nat} (hcount : leftEntry.recordCount = rightEntry.recordCount)
    (hwidth : width < 2 ^ 64) (hleft : leftEntry.recordCount.toNat * width < 2 ^ 64) :
    (¬ (leftEntry.length ≠ leftEntry.recordCount * .ofNat width ∨
        rightEntry.length ≠ leftEntry.length)) ↔
      leftEntry.length.toNat = leftEntry.recordCount.toNat * width ∧
        rightEntry.length.toNat = rightEntry.recordCount.toNat * width := by
  rw [not_or, not_not, not_not, length_eq_mul_iff hwidth hleft, ← hcount]
  constructor
  · rintro ⟨hlength, hsame⟩
    exact ⟨hlength, hsame ▸ hlength⟩
  · rintro ⟨hlength, hother⟩
    exact ⟨hlength, UInt64.toNat_inj.mp (hother.trans hlength.symm)⟩

theorem packetRecordBytes_lt (descriptor : SidecarDescriptor) :
    descriptor.packetRecordBytes.toNat < 2 ^ 64 := descriptor.packetRecordBytes.toNat_lt

theorem compareContents_eq_ok {streams last : PairedStreams}
    (hleftStream : streams.left = source.drop leftEntry.offset.toNat)
    (hrightStream : streams.right = replacement.drop rightEntry.offset.toNat)
    (hid : leftEntry.id = rightEntry.id) (hcount : leftEntry.recordCount = rightEntry.recordCount)
    (hleft : leftEntry.offset.toNat + leftEntry.length.toNat ≤ source.length)
    (hright : rightEntry.offset.toNat + rightEntry.length.toNat ≤ replacement.length)
    (hsource : source.length < 2 ^ 64) (hreplacement : replacement.length < 2 ^ 64) :
    compareContents left right leftEntry rightEntry streams = .ok last ↔
      SameSection source replacement left right leftEntry rightEntry ∧
        last = streams.advance leftEntry.length.toNat rightEntry.length.toNat := by
  unfold compareContents SameSection
  simp only [hid, hcount, true_and]
  split
  next =>
    rw [← hcount]
    apply compareRecords_iff hleftStream hrightStream hcount hleft hright hsource hreplacement
    · exact fun hfits _ => widths_iff hcount (by decide) hfits
    · exact fun _ _ => sameCommunityRecord_iff
  next =>
    split
    next =>
      rw [← hcount]
      apply compareRecords_iff hleftStream hrightStream hcount hleft hright hsource hreplacement
      · exact fun hfits _ => widths_iff hcount (by decide) hfits
      · exact fun _ _ _ _ => decide_eq_true_iff
    next =>
      split
      next =>
        rw [← hcount]
        apply compareRecords_iff hleftStream hrightStream hcount hleft hright hsource hreplacement
        · intro hleftFits hrightFits
          have hleftWidth :=
            @length_eq_mul_iff leftEntry.length _ _ (packetRecordBytes_lt left) hleftFits
          have hrightWidth :=
            @length_eq_mul_iff rightEntry.length _ _ (packetRecordBytes_lt right) hrightFits
          rw [UInt64.ofNat_toNat] at hleftWidth hrightWidth
          rw [not_or, not_not, not_not, hleftWidth, hcount, hrightWidth]
        · exact fun _ _ _ _ => decide_eq_true_iff
      next =>
        simp only [bind_ok, reject_ok, not_not, exists_const,
          PairedStreams.compareBytes_eq_ok, hleftStream, hrightStream]
        constructor
        · rintro ⟨hlength, -, -, hbytes, rfl⟩
          refine ⟨?_, by rw [← hlength]⟩
          rw [SidecarEntry.read, SidecarEntry.read, ← hlength]
          exact hbytes
        · rintro ⟨hbytes, rfl⟩
          have hlength : leftEntry.length = rightEntry.length := by
            have hlengths := congrArg List.length hbytes
            rw [SidecarEntry.read, SidecarEntry.read, length_subspan hleft, length_subspan hright]
              at hlengths
            exact UInt64.toNat_inj.mp hlengths
          rw [SidecarEntry.read, SidecarEntry.read, ← hlength] at hbytes
          rw [← hlength] at hright ⊢
          refine ⟨rfl, ?_, ?_, hbytes, rfl⟩
          · rw [List.length_drop]
            omega
          · rw [List.length_drop]
            omega

theorem compareSection_eq_ok {index : Nat} {hashes next : UInt64 × UInt64}
    (hleft : leftEntry.offset.toNat + leftEntry.length.toNat ≤ source.length)
    (hright : rightEntry.offset.toNat + rightEntry.length.toNat ≤ replacement.length)
    (hsource : source.length < 2 ^ 64) (hreplacement : replacement.length < 2 ^ 64) :
    compareSection source replacement left right index (leftEntry, rightEntry) hashes = .ok next ↔
      SameSection source replacement left right leftEntry rightEntry ∧
        next = (fnvBytes hashes.1 (leftEntry.read source),
          fnvBytes hashes.2 (rightEntry.read replacement)) := by
  simp only [compareSection, bind_ok, reject_ok, exists_const, not_or, not_not, Except.ok.injEq]
  constructor
  · rintro ⟨⟨hid, hcount⟩, last, hcontents, rfl⟩
    obtain ⟨hsame, rfl⟩ :=
      (compareContents_eq_ok rfl rfl hid hcount hleft hright hsource hreplacement).mp hcontents
    exact ⟨hsame, rfl⟩
  · rintro ⟨hsame, rfl⟩
    exact ⟨⟨hsame.1, hsame.2.1⟩, _, (compareContents_eq_ok rfl rfl hsame.1 hsame.2.1 hleft hright
      hsource hreplacement).mpr ⟨hsame, rfl⟩, rfl⟩

end Sections

/-! ## Whole files -/

/-- The sections lie one behind the other, from `start` to `stop`. -/
def Chained : List SidecarEntry → Nat → Nat → Prop
  | [], start, stop => start = stop
  | entry :: entries, start, stop =>
    entry.offset.toNat = start ∧ Chained entries (start + entry.length.toNat) stop

variable {entries : List SidecarEntry} {start stop index : Nat}

theorem Chained.le (hchained : Chained entries start stop) : start ≤ stop := by
  induction entries generalizing start with
  | nil => exact Nat.le_of_eq hchained
  | cons entry entries ih => exact Nat.le_trans (Nat.le_add_right _ _) (ih hchained.2)

theorem Chained.read_cons {entry : SidecarEntry} (hchained : Chained (entry :: entries) start stop)
    (file : List UInt8) (hash : UInt64) :
    fnvBytes (fnvBytes hash (entry.read file))
        (subspan file (start + entry.length.toNat) (stop - (start + entry.length.toNat))) =
      fnvBytes hash (subspan file start (stop - start)) := by
  have hle := hchained.2.le
  have hwhole := subspan_add file start entry.length.toNat
    (stop - (start + entry.length.toNat))
  have hcount : entry.length.toNat + (stop - (start + entry.length.toNat)) = stop - start := by
    omega
  rw [hcount] at hwhole
  rw [← hwhole, fnvBytes_append, SidecarEntry.read, hchained.1]

/-- The loop over the sections. -/
theorem compareSections_eq_ok {source replacement : List UInt8} {left right : SidecarDescriptor}
    (hsource : source.length < 2 ^ 64) (hreplacement : replacement.length < 2 ^ 64)
    {lefts rights : List SidecarEntry} {leftStart rightStart leftStop rightStop : Nat}
    (hlengths : lefts.length = rights.length) (hleft : Chained lefts leftStart leftStop)
    (hright : Chained rights rightStart rightStop) (hleftStop : leftStop ≤ source.length)
    (hrightStop : rightStop ≤ replacement.length) {hashes last : UInt64 × UInt64} :
    scan (compareSection source replacement left right) index (lefts.zip rights) hashes = .ok last ↔
      List.Forall₂ (SameSection source replacement left right) lefts rights ∧
        last = (fnvBytes hashes.1 (subspan source leftStart (leftStop - leftStart)),
          fnvBytes hashes.2 (subspan replacement rightStart (rightStop - rightStart))) := by
  induction lefts generalizing rights index leftStart rightStart hashes with
  | nil =>
    obtain rfl := List.length_eq_zero_iff.mp hlengths.symm
    obtain rfl : leftStart = leftStop := hleft
    obtain rfl : rightStart = rightStop := hright
    simp only [List.zip_nil_left, scan, Except.ok.injEq, List.forall₂_nil_left_iff, true_and,
      Nat.sub_self, subspan, List.take_zero]
    exact eq_comm
  | cons leftEntry lefts ih =>
    cases rights with
    | nil => cases hlengths
    | cons rightEntry rights =>
      obtain ⟨hleftOffset, hleftRest⟩ := hleft
      obtain ⟨hrightOffset, hrightRest⟩ := hright
      have hleftFits := hleftRest.le
      have hrightFits := hrightRest.le
      have hleftInside : leftEntry.offset.toNat + leftEntry.length.toNat ≤ source.length := by
        omega
      have hrightInside : rightEntry.offset.toNat + rightEntry.length.toNat ≤
          replacement.length := by
        omega
      have hleftHash := fun hash =>
        Chained.read_cons (⟨hleftOffset, hleftRest⟩ : Chained (leftEntry :: lefts) _ _) source hash
      have hrightHash := fun hash => Chained.read_cons
        (⟨hrightOffset, hrightRest⟩ : Chained (rightEntry :: rights) _ _) replacement hash
      rw [List.zip_cons_cons, scan, bind_ok, List.forall₂_cons]
      simp only [compareSection_eq_ok hleftInside hrightInside hsource hreplacement,
        ih (Nat.succ.inj hlengths) hleftRest hrightRest]
      constructor
      · rintro ⟨next, ⟨hsame, rfl⟩, hall, rfl⟩
        exact ⟨⟨hsame, hall⟩, by rw [hleftHash, hrightHash]⟩
      · rintro ⟨⟨hsame, hall⟩, rfl⟩
        exact ⟨_, ⟨hsame, rfl⟩, hall, by rw [hleftHash, hrightHash]⟩

theorem chained_of_scan (hscan : scan checkCellEntry index entries start = .ok stop) :
    Chained entries start stop := by
  induction entries generalizing index start with
  | nil => exact Except.ok.inj hscan
  | cons entry entries ih =>
    obtain ⟨next, hcheck, hrest⟩ := bind_ok.mp hscan
    simp only [checkCellEntry, bind_ok, reject_ok, not_or, not_not, exists_const,
      addChecked_eq_ok] at hcheck
    obtain ⟨⟨-, hoffset⟩, -, rfl⟩ := hcheck
    rw [hoffset] at hrest
    exact ⟨hoffset, ih hrest⟩

theorem scan_checkCellEntry_lt (hstart : start < 2 ^ 64)
    (hscan : scan checkCellEntry index entries start = .ok stop) :
    stop < 2 ^ 64 := by
  refine scan_invariant (motive := fun _ next => next < 2 ^ 64) hscan hstart ?_
  intro place entry before after _ _ hcheck
  simp only [checkCellEntry, bind_ok, addChecked_eq_ok] at hcheck
  obtain ⟨-, -, hfits, rfl⟩ := hcheck
  exact hfits

theorem yields_cellHeader :
    Yields readCellHeader fun outcome => outcome.1.headerBytes.toNat = kCellHeaderBytes := by
  unfold readCellHeader
  refine .bind fun _ => yields_reject fun _ _ => .bind fun _ => .bind fun headerBytes =>
    .bind fun _ => .bind fun _ => yields_reject fun hchecks _ => ?_
  have hbytes : headerBytes.toNat = kCellHeaderBytes := by
    by_contra hother
    exact hchecks (.inr (.inr (.inr (.inr hother))))
  exact .bind fun _ => .bind fun _ => .bind fun _ => .bind fun _ => .bind fun _ => .bind fun _ =>
    .bind fun _ => .pure hbytes

theorem covers_of_read {file : List UInt8} {descriptor : SidecarDescriptor}
    (hread : readCellSidecarDescriptor file = .ok descriptor) :
    Chained descriptor.sections kCellHeaderBytes file.length ∧
      descriptor.sections.length = kCellSections ∧ kCellHeaderBytes ≤ file.length ∧
      file.length < 2 ^ 64 := by
  simp only [readCellSidecarDescriptor, bind_ok, reject_ok, exists_const, not_or,
    not_not, not_lt, Except.ok.injEq] at hread
  obtain ⟨-, ⟨⟨header, bodyBytes⟩, rest⟩, hheader, hlong, ⟨entries, last⟩, hentries, stop, hscan,
    ⟨-, hstop⟩, rfl⟩ := hread
  have hbytes : header.headerBytes.toNat = kCellHeaderBytes := yields_cellHeader _ _ _ hheader
  rw [hstop, hbytes] at hscan
  exact ⟨chained_of_scan hscan, length_readMany hentries, hlong,
    scan_checkCellEntry_lt (by decide) hscan⟩

theorem subspan_behind_header (file : List UInt8) :
    subspan file kCellHeaderBytes (file.length - kCellHeaderBytes) = file.drop kCellHeaderBytes :=
  List.take_of_length_le (Nat.le_of_eq List.length_drop)

theorem validateReboundCellStructure_eq_ok {source replacement : List UInt8} :
    validateReboundCellStructure source replacement = .ok () ↔
      ∃ left right, readCellSidecarDescriptor source = .ok left ∧
        readCellSidecarDescriptor replacement = .ok right ∧ left.ChecksumValid source ∧
        right.ChecksumValid replacement ∧ SameStructure source replacement left right := by
  simp only [validateReboundCellStructure, bind_ok, reject_ok, exists_const, not_or, not_not]
  refine exists_congr fun left => ?_
  constructor
  · rintro ⟨hleft, right, hright, ⟨hpoints, hdimension, hbase, hsections⟩, hashes, hscan, hhashes⟩
    obtain ⟨hleftChain, -, hleftLong, hsource⟩ := covers_of_read hleft
    obtain ⟨hrightChain, -, hrightLong, hreplacement⟩ := covers_of_read hright
    obtain ⟨hsame, rfl⟩ := (compareSections_eq_ok hsource hreplacement hsections hleftChain
      hrightChain (Nat.le_refl _) (Nat.le_refl _)).mp hscan
    rw [subspan_behind_header, subspan_behind_header] at hhashes
    exact ⟨right, hleft, hright, hhashes.1.symm, hhashes.2.symm,
      ⟨hpoints, hdimension, hbase, hsame⟩⟩
  · rintro ⟨right, hleft, hright, hleftBody, hrightBody, hsame⟩
    obtain ⟨hleftChain, -, hleftLong, hsource⟩ := covers_of_read hleft
    obtain ⟨hrightChain, -, hrightLong, hreplacement⟩ := covers_of_read hright
    have hsections := hsame.sections.length_eq
    refine ⟨hleft, right, hright, ⟨hsame.pointCount, hsame.dimension, hsame.base, hsections⟩, _,
      (compareSections_eq_ok hsource hreplacement hsections hleftChain hrightChain
        (Nat.le_refl _) (Nat.le_refl _)).mpr ⟨hsame.sections, rfl⟩, ?_⟩
    rw [subspan_behind_header, subspan_behind_header]
    exact ⟨hleftBody.symm, hrightBody.symm⟩

/-! ## What may differ -/

theorem communityBytes_of_packetBytes (community : Community) (packetBytes : UInt64) :
    communityBytes { community with packetBytes := packetBytes } =
      patch (communityBytes community) 12 (appendU64Le packetBytes) := by
  set front := appendU32Le community.communityId with hfront
  set counted := appendU64Le community.nodeCount with hcounted
  have hlength : (front ++ counted).length = 12 := by
    rw [List.length_append, length_appendU32Le, length_appendU64Le]
  have hwidth : (appendU64Le community.packetBytes).length = (appendU64Le packetBytes).length := by
    rw [length_appendU64Le, length_appendU64Le]
  rw [← hlength]
  simp only [communityBytes, List.flatten_cons, ← hfront, ← hcounted]
  rw [← List.append_assoc front counted, ← List.append_assoc front counted,
    patch_between _ _ _ hwidth]

theorem sameCommunity_iff {first second : Community} :
    SameCommunity (communityBytes first) (communityBytes second) ↔
      { first with packetBytes := second.packetBytes } = second := by
  have hpatch : ∀ community : Community, patch (communityBytes community) 12
      (appendU64Le second.packetBytes) = (communityBytes community).take 12 ++
        appendU64Le second.packetBytes ++ (communityBytes community).drop 20 := by
    intro community
    rw [patch, length_appendU64Le]
  have hsecond := communityBytes_of_packetBytes second second.packetBytes
  rw [hpatch] at hsecond
  constructor
  · rintro ⟨hfront, hbehind⟩
    have hbytes : communityBytes { first with packetBytes := second.packetBytes } =
        communityBytes second := by
      rw [communityBytes_of_packetBytes, hpatch, hfront, hbehind]
      exact hsecond.symm
    exact encode_injective reads_community hbytes
  · intro hsame
    have hbytes := congrArg communityBytes hsame
    rw [communityBytes_of_packetBytes, hpatch, show communityBytes second = _ from hsecond]
      at hbytes
    obtain ⟨hfront, hbehind⟩ := List.append_inj hbytes (by
      simp only [List.length_append, List.length_take, length_communityBytes])
    exact ⟨(List.append_inj hfront (by
      simp only [List.length_take, length_communityBytes])).1, hbehind⟩

theorem blockBytes_of_error (block : Block) (error : Single) :
    blockBytes { block with maximumPqReconstructionError := error } =
      (blockBytes block).take 32 ++ appendFloatLe error := by
  obtain ⟨front, hfront⟩ : ∃ front, ∀ error,
      blockBytes { block with maximumPqReconstructionError := error } =
        front ++ appendFloatLe error :=
    ⟨appendU32Le block.blockId ++ (appendU32Le block.cellId ++ (appendU32Le block.nodeCount ++
      (appendU64Le block.packetRecordBegin ++ (appendFloatLe block.minimumRadius ++
        (appendFloatLe block.maximumRadius ++ appendFloatLe block.maximumAngle))))),
      fun error => by
        simp only [blockBytes, List.flatten_cons, List.flatten_nil, List.append_assoc,
          List.append_nil]⟩
  have hself := hfront block.maximumPqReconstructionError
  have hlength : front.length = 32 := by
    have hwhole := congrArg List.length hself
    rw [length_blockBytes, List.length_append, length_appendFloatLe] at hwhole
    omega
  rw [hfront, show blockBytes block = _ from hself, List.take_left' hlength]

theorem sameBlock_iff {first second : Block} :
    SameBlock (blockBytes first) (blockBytes second) ↔
      { first with maximumPqReconstructionError := second.maximumPqReconstructionError } =
        second := by
  have hsecond := blockBytes_of_error second second.maximumPqReconstructionError
  constructor
  · intro hfront
    have hbytes : blockBytes
        { first with maximumPqReconstructionError := second.maximumPqReconstructionError } =
        blockBytes second := by
      rw [blockBytes_of_error, hfront]
      exact hsecond.symm
    exact encode_injective reads_block hbytes
  · intro hsame
    have hbytes := congrArg blockBytes hsame
    rw [blockBytes_of_error, show blockBytes second = _ from hsecond] at hbytes
    exact (List.append_inj hbytes (by simp only [List.length_take, length_blockBytes])).1

theorem samePacket_iff {first second : UInt32} {firstCodes secondCodes : List UInt8} :
    SamePacket (appendU32Le first ++ firstCodes) (appendU32Le second ++ secondCodes) ↔
      first = second := by
  rw [SamePacket, List.take_left' (length_appendU32Le first),
    List.take_left' (length_appendU32Le second)]
  constructor
  · exact fun hsame => encode_injective (reads_narrow "") hsame
  · exact congrArg appendU32Le

/-! ## Sidecars that a topology can be bound to -/

/-- A sidecar takes the place of another when both have the same Base index, the same shape and
the same sections, up to the packet size of the Communities, the error of the Blocks and the
codes of the packets. -/
theorem validateReboundCellStructure_iff {source replacement : List UInt8}
    {left right : SidecarDescriptor} (hsource : readCellSidecarDescriptor source = .ok left)
    (hreplacement : readCellSidecarDescriptor replacement = .ok right)
    (hleft : left.ChecksumValid source) (hright : right.ChecksumValid replacement) :
    (validateReboundCellStructure source replacement = .ok () ↔
      SameStructure source replacement left right) ∧
    (∀ first second, SameCommunity (communityBytes first) (communityBytes second) ↔
      { first with packetBytes := second.packetBytes } = second) ∧
    (∀ first second, SameBlock (blockBytes first) (blockBytes second) ↔
      { first with maximumPqReconstructionError := second.maximumPqReconstructionError } =
        second) ∧
    (∀ first second firstCodes secondCodes,
      SamePacket (appendU32Le first ++ firstCodes) (appendU32Le second ++ secondCodes) ↔
        first = second) ∧
    (∀ (index : Nat) (leftEntry rightEntry : SidecarEntry), left.sections[index]? = some leftEntry →
      right.sections[index]? = some rightEntry → leftEntry.id ≠ kCommunitySection →
      leftEntry.id ≠ kBlockSection → leftEntry.id ≠ kPacketSection →
      leftEntry.read source ≠ rightEntry.read replacement →
      validateReboundCellStructure source replacement ≠ .ok ()) := by
  have haccepted : validateReboundCellStructure source replacement = .ok () ↔
      SameStructure source replacement left right := by
    rw [validateReboundCellStructure_eq_ok]
    constructor
    · rintro ⟨found, other, hfound, hother, -, -, hsame⟩
      obtain rfl := Except.ok.inj (hfound.symm.trans hsource)
      obtain rfl := Except.ok.inj (hother.symm.trans hreplacement)
      exact hsame
    · exact fun hsame => ⟨left, right, hsource, hreplacement, hleft, hright, hsame⟩
  refine ⟨haccepted, fun _ _ => sameCommunity_iff, fun _ _ => sameBlock_iff,
    fun _ _ _ _ => samePacket_iff, ?_⟩
  intro index leftEntry rightEntry hleftEntry hrightEntry hcommunity hblock hpacket hdiffer hok
  obtain ⟨hindex, rfl⟩ := List.getElem_of_getElem? hleftEntry
  obtain ⟨hplace, rfl⟩ := List.getElem_of_getElem? hrightEntry
  have hsections := (List.forall₂_iff_get.mp (haccepted.mp hok).sections).2 index hindex hplace
  rw [List.get_eq_getElem, List.get_eq_getElem, SameSection, if_neg hcommunity, if_neg hblock,
    if_neg hpacket] at hsections
  exact hdiffer hsections.2.2

instance (descriptor : SidecarDescriptor) (file : List UInt8) :
    Decidable (descriptor.ChecksumValid file) := inferInstanceAs (Decidable (_ = _))

def onePacketSidecar (pqCodeWidth : UInt32) (codes : List UInt8) : List UInt8 :=
  let community : Community :=
    { communityId := 0, nodeCount := 1, packetBytes := 4 + pqCodeWidth.toUInt64, minimumNodeId := 0
      navigationHubId := 0, sectorBegin := 0, sectorCount := 0, cellBegin := 0, cellCount := 1 }
  let sections := SectionId.all.map fun id => match id with
    | .communities => SerializedSection.mk id 1 (communityBytes community)
    | .blocks => ⟨id, 1, blockBytes { blockId := 0, cellId := 0, nodeCount := 1, packetRecordBegin := 0
                                      maximumPqReconstructionError := ⟨pqCodeWidth⟩ }⟩
    | .packets => ⟨id, 1, appendU32Le 0 ++ codes⟩
    | _ => ⟨id, 0, []⟩
  let body := sections.flatMap SerializedSection.bytes
  let header : Header :=
    { version := 5, pointCount := 1, dimension := 1, pqCodeWidth := pqCodeWidth
      bodyHash := fnvBytes fnvOffsetBasis body, baseIndexFingerprint := ⟨7, 9⟩
      pqFingerprint := ⟨pqCodeWidth.toUInt64, 0⟩, bodySize := .ofNat body.length }
  match makeDirectory kCellHeaderBytes sections with
  | .ok (directory, _) => headerBytes header directory ++ body
  | .error _ => []

theorem validateReboundCellStructure_onePacket :
    ∃ left right, left.pqWidth ≠ right.pqWidth ∧
      SameStructure (onePacketSidecar 1 [3]) (onePacketSidecar 2 [5, 6]) left right := by
  obtain ⟨left, hsource, hleft, hone⟩ : ∃ left,
      readCellSidecarDescriptor (onePacketSidecar 1 [3]) = .ok left ∧
        left.ChecksumValid (onePacketSidecar 1 [3]) ∧ left.pqWidth = 1 :=
    exists_ok (by decide +kernel)
  obtain ⟨right, hreplacement, hright, htwo⟩ : ∃ right,
      readCellSidecarDescriptor (onePacketSidecar 2 [5, 6]) = .ok right ∧
        right.ChecksumValid (onePacketSidecar 2 [5, 6]) ∧ right.pqWidth = 2 :=
    exists_ok (by decide +kernel)
  refine ⟨left, right, by rw [hone, htwo]; decide, ?_⟩
  exact (validateReboundCellStructure_iff hsource hreplacement hleft hright).1.mp
    (by decide +kernel)

end SkipCell.IoIndex

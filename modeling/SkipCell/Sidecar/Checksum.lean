import SkipCell.Sidecar.RoundTrip

/-! # The checksum of the sidecar

The loader hashes what follows the directory, and the header that holds the hash
lies before it. A changed byte of the body therefore leaves the header and the
directory as they were, and the hash of the body does not agree with the one in
the header any more.
-/

namespace SkipCell.Sidecar

open Foundation

/-- Where the body that the checksum covers begins, by the size in the header. -/
def bodyBegin (file : List UInt8) : Except Error Nat := do
  let (header, _) ← readHeader file
  .ok header.headerSize.toNat

def checksumMismatch : Error :=
  .runtimeError "Community-Polar sidecar checksum or section coverage is invalid"

theorem fixedWidth_u32 : FixedWidth readU32Le 4 := (FixedWidth.word truncated 4).map _

theorem fixedWidth_u64 : FixedWidth readU64Le 8 := (FixedWidth.word truncated 8).map _

theorem fixedWidth_header : FixedWidth readHeader 88 := by
  have hbytes : 88 = 8 + (4 + (4 + (4 + (4 + (8 + (4 + (4 + (8 + (8 + (8 + (8 + (8 + (8 + 0))))))))))))) :=
    rfl
  rw [hbytes]
  repeat' first | refine FixedWidth.bind fixedWidth_u64 fun _ => ?_
                | refine FixedWidth.bind fixedWidth_u32 fun _ => ?_
  exact .pure _

theorem fixedWidth_entry : FixedWidth readEntry kSectionEntrySize :=
  fixedWidth_u32.bind fun _ => fixedWidth_u32.bind fun _ => fixedWidth_u64.bind fun _ =>
    fixedWidth_u64.bind fun _ => fixedWidth_u64.bind fun _ => .pure _

section ChangedBody

variable {file : List UInt8} {header : Header} {directory : List DirectoryEntry}

theorem loadDirectory_eq_ok (hload : loadDirectory file = .ok (header, directory)) :
    header.headerSize.toNat =
        kFixedHeaderSize + expectedSectionCount header.version * kSectionEntrySize ∧
      header.headerSize.toNat ≤ file.length ∧
      fnvBytes fnvOffsetBasis (file.drop header.headerSize.toNat) = header.bodyHash ∧
      ∃ rest, readHeader file = .ok (header, rest) := by
  simp only [loadDirectory, bind_ok, reject_ok, not_or, not_not, not_lt] at hload
  obtain ⟨_, -, ⟨found, rest⟩, hheader, _, ⟨-, -, -, -, -, hsize, hfits, -⟩, _, -, _, -, _,
    ⟨-, hhash⟩, hpair⟩ := hload
  obtain ⟨rfl, rfl⟩ := Prod.mk.inj (Except.ok.inj hpair)
  refine ⟨hsize, ?_, ?_, rest, hheader⟩
  · rw [hsize]
    exact hfits
  · rw [hsize]
    exact hhash

/-- Whatever replaces the body, a file with another hash behind the same header
and directory is rejected by the checksum. -/
theorem loadDirectory_of_other_hash {changed : List UInt8}
    (hload : loadDirectory file = .ok (header, directory)) (hlength : changed.length = file.length)
    (hsame : changed.take header.headerSize.toNat = file.take header.headerSize.toNat)
    (hother : fnvBytes fnvOffsetBasis (changed.drop header.headerSize.toNat) ≠
      fnvBytes fnvOffsetBasis (file.drop header.headerSize.toNat)) :
    loadDirectory changed = .error checksumMismatch := by
  obtain ⟨hsize, hfits, hhash, -⟩ := loadDirectory_eq_ok hload
  rw [hhash] at hother
  rw [hsize] at hsame hother hfits
  simp only [loadDirectory, bind_ok] at hload
  obtain ⟨_, hlimit, ⟨found, rest⟩, hheader, _, hchecks, ⟨entries, remaining⟩, hentries,
    ⟨checked, total⟩, hdirectory, _, -, hpair⟩ := hload
  obtain ⟨rfl, rfl⟩ := Prod.mk.inj (Except.ok.inj hpair.symm)
  dsimp only at hchecks hentries hdirectory hsame hother hfits
  have hstart : ∀ width ≤ kFixedHeaderSize + expectedSectionCount header.version * kSectionEntrySize,
      changed.take width = file.take width := by
    intro width hwidth
    have hshorter := congrArg (List.take width) hsame
    rwa [List.take_take, List.take_take, Nat.min_eq_left hwidth] at hshorter
  have hheaderFits : 88 ≤ kFixedHeaderSize + expectedSectionCount header.version * kSectionEntrySize :=
    le_trans (by decide) (Nat.le_add_right _ _)
  obtain ⟨value, hvalue, hchangedHeader⟩ :=
    fixedWidth_header.reads_alike (hheaderFits.trans hfits) (hstart 88 hheaderFits)
  obtain ⟨rfl, -⟩ := Prod.mk.inj (Except.ok.inj (hheader.symm.trans hvalue))
  have hentriesSame : (changed.drop kFixedHeaderSize).take
        (expectedSectionCount header.version * kSectionEntrySize) =
      (file.drop kFixedHeaderSize).take
        (expectedSectionCount header.version * kSectionEntrySize) := by
    rw [List.take_drop, List.take_drop, hstart _ le_rfl]
  obtain ⟨values, hvalues, hchangedEntries⟩ :=
    (fixedWidth_entry.many (expectedSectionCount header.version)).reads_alike
      (by rw [List.length_drop]; omega) hentriesSame
  obtain ⟨rfl, -⟩ := Prod.mk.inj (Except.ok.inj (hentries.symm.trans hvalues))
  rw [loadDirectory, hlength, hlimit, hchangedHeader]
  dsimp only [bind, Except.bind]
  rw [hchecks, hchangedEntries]
  dsimp only
  rw [hdirectory]
  dsimp only
  rw [reject, if_pos (.inr hother)]
  rfl

end ChangedBody

/-- A changed byte of the body of a file that loads is noticed, wherever it is and
whatever it becomes. -/
theorem changed_body_rejected {file : List UInt8} {index : Index}
    (hload : loadIndex file = .ok index) :
    ∃ begin, bodyBegin file = .ok begin ∧
      ∀ position old new, begin ≤ position → file[position]? = some old → new ≠ old →
        loadIndex (file.set position new) = .error checksumMismatch := by
  rw [loadIndex, bind_ok] at hload
  obtain ⟨⟨header, directory⟩, hdirectory, -⟩ := hload
  obtain ⟨-, -, -, rest, hheader⟩ := loadDirectory_eq_ok hdirectory
  refine ⟨header.headerSize.toNat, by rw [bodyBegin, hheader]; rfl, ?_⟩
  intro position old new hbody hold hnew
  rw [loadIndex, loadDirectory_of_other_hash hdirectory List.length_set]
  · rfl
  · rw [List.take_set_of_le hbody]
  · rw [List.drop_set, if_neg (Nat.not_lt.mpr hbody)]
    apply fnvBytes_set_ne
    · rwa [List.getElem?_drop, Nat.add_sub_cancel' hbody]
    · exact hnew

theorem changed_body_rejected_twoNodes :
    ∃ begin, bodyBegin twoNodes.file = .ok begin ∧
      ∀ position old new, begin ≤ position → twoNodes.file[position]? = some old → new ≠ old →
        loadIndex (twoNodes.file.set position new) = .error checksumMismatch :=
  changed_body_rejected (loadIndex_file twoNodes_valid (by decide +kernel))

end SkipCell.Sidecar

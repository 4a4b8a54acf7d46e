import SkipCell.Foundation.Transition
import SkipCell.Storage.DiskManager

/-! # The chunk store over its runs

Beside the manager stands what its callers know: the ids that they hold, and the
bytes that they wrote last under each id. The invariant ties both to the free lists
and to the contents of the files.
-/

namespace SkipCell.Storage

open Foundation Cache

namespace DiskManager

/-- The id of a chunk whose number fits. -/
def encodeId (type : ChunkType) (no : Nat) : ChunkId := .ofNat ((type.index <<< kChunkNoBits) ||| no)

variable {type other : ChunkType} {no : Nat}

theorem toNat_encodeId (hno : no < 2 ^ kChunkNoBits) :
    (encodeId type no).toNat = type.index * 2 ^ kChunkNoBits + no := by
  have hindex : type.index ≤ 3 := by cases type <;> decide
  have hpow : (2 : Nat) ^ kChunkNoBits = 4611686018427387904 := rfl
  rw [encodeId, UInt64.toNat_ofNat', ← Nat.shiftLeft_add_eq_or_of_lt hno, Nat.shiftLeft_eq]
  apply Nat.mod_eq_of_lt
  rw [hpow] at hno ⊢
  omega

theorem makeChunkId_ok (hno : no < 2 ^ kChunkNoBits) :
    makeChunkId type no = .ok (encodeId type no) := by
  have hfits : ¬ kChunkNoMask < no := by
    rw [kChunkNoMask]
    omega
  rw [makeChunkId, Cache.makeChunkId, if_neg hfits]
  rfl

theorem chunkType_encodeId (hno : no < 2 ^ kChunkNoBits) :
    chunkType (encodeId type no) = .ok type := by
  have hindex : (encodeId type no).toNat >>> kChunkNoBits = type.index := by
    rw [toNat_encodeId hno, Nat.shiftRight_eq_div_pow, Nat.mul_comm,
      Nat.mul_add_div (Nat.two_pow_pos _), Nat.div_eq_of_lt hno, Nat.add_zero]
  rw [chunkType, hindex]
  cases type <;> rfl

theorem chunkNo_encodeId (hno : no < 2 ^ kChunkNoBits) : chunkNo (encodeId type no) = no := by
  rw [chunkNo, toNat_encodeId hno, kChunkNoMask, Nat.and_two_pow_sub_one_eq_mod, Nat.mul_comm,
    Nat.mul_add_mod, Nat.mod_eq_of_lt hno]

theorem exists_encodeId (chunkId : ChunkId) :
    ∃ type no, no < 2 ^ kChunkNoBits ∧ chunkId = encodeId type no := by
  have hlt := chunkId.toNat_lt
  have hpow : (2 : Nat) ^ kChunkNoBits = 4611686018427387904 := rfl
  have hsplit := Nat.div_add_mod chunkId.toNat (2 ^ kChunkNoBits)
  have hno := Nat.mod_lt chunkId.toNat (Nat.two_pow_pos kChunkNoBits)
  obtain ⟨type, htype⟩ : ∃ type : ChunkType, type.index = chunkId.toNat / 2 ^ kChunkNoBits := by
    have hindex : chunkId.toNat / 2 ^ kChunkNoBits < 4 := by
      rw [hpow]
      omega
    generalize chunkId.toNat / 2 ^ kChunkNoBits = index at hindex
    match index, hindex with
    | 0, _ => exact ⟨.chunk4kb, rfl⟩
    | 1, _ => exact ⟨.chunk64kb, rfl⟩
    | 2, _ => exact ⟨.chunk512kb, rfl⟩
    | 3, _ => exact ⟨.chunk2mb, rfl⟩
  refine ⟨type, chunkId.toNat % 2 ^ kChunkNoBits, hno, UInt64.toNat_inj.mp ?_⟩
  rw [toNat_encodeId hno, htype, Nat.mul_comm, hsplit]

theorem encodeId_inj {otherNo : Nat} (hno : no < 2 ^ kChunkNoBits)
    (hother : otherNo < 2 ^ kChunkNoBits) :
    encodeId type no = encodeId other otherNo ↔ type = other ∧ no = otherNo := by
  constructor
  · intro hsame
    have htype := congrArg chunkType hsame
    have hnumber := congrArg chunkNo hsame
    rw [chunkType_encodeId hno, chunkType_encodeId hother] at htype
    rw [chunkNo_encodeId hno, chunkNo_encodeId hother] at hnumber
    exact ⟨Except.ok.inj htype, hnumber⟩
  · rintro ⟨rfl, rfl⟩
    rfl

theorem chunkSize_pos (type : ChunkType) : 0 < chunkSize type := by cases type <;> decide

/-! ## Live chunks -/

def IsLive (state : State) (chunkId : ChunkId) : Prop :=
  ∃ type, chunkType chunkId = .ok type ∧ (state.slots type).Live (chunkNo chunkId)

theorem isLive_encodeId {state : State} (hno : no < 2 ^ kChunkNoBits) :
    IsLive state (encodeId type no) ↔ (state.slots type).Live no := by
  rw [IsLive, chunkType_encodeId hno, chunkNo_encodeId hno]
  constructor
  · rintro ⟨_, htype, hlive⟩
    exact (Except.ok.inj htype) ▸ hlive
  · exact fun hlive => ⟨type, rfl, hlive⟩

theorem validateChunkId_eq_ok {state : State} {chunkId : ChunkId} :
    validateChunkId state chunkId = .ok () ↔ IsLive state chunkId := by
  simp only [validateChunkId, bind_ok, reject_ok, IsLive, SlotPool.Live, not_le]
  constructor
  · rintro ⟨type, htype, _, hcount, hfree⟩
    exact ⟨type, htype, hcount, hfree⟩
  · rintro ⟨type, htype, hcount, hfree⟩
    exact ⟨type, htype, (), hcount, hfree⟩

theorem validateChunkId_error {state : State} {chunkId : ChunkId} (hdead : ¬ IsLive state chunkId) :
    ∃ error, validateChunkId state chunkId = .error error := by
  cases hcheck : validateChunkId state chunkId with
  | error error => exact ⟨error, rfl⟩
  | ok result => exact absurd (validateChunkId_eq_ok.mp hcheck) hdead

/-- The chunk with the bytes that were written, filled up with zeros. -/
def padded (type : ChunkType) (bytes : List UInt8) : List UInt8 :=
  bytes ++ List.replicate (chunkSize type - bytes.length) 0

variable {bytes : List UInt8}

theorem length_padded (hfits : bytes.length ≤ chunkSize type) :
    (padded type bytes).length = chunkSize type := by
  rw [padded, List.length_append, List.length_replicate]
  omega

/-- The chunks of one type: the pool, its counter and the file fit together, and the
file holds what was written. -/
structure FileConsistent (type : ChunkType) (slots : SlotPool) (freeCount : Nat) (file : ByteFile)
    (written : Nat → Option (List UInt8)) : Prop where
  valid : slots.Valid
  counted : freeCount = slots.free.length
  bounded : slots.count * chunkSize type < 2 ^ 63
  fits : slots.count * chunkSize type ≤ file.size
  written : ∀ no bytes, no < 2 ^ kChunkNoBits → written no = some bytes →
    no < slots.count ∧ bytes.length ≤ chunkSize type ∧
      file.read (no * chunkSize type) (chunkSize type) = some (padded type bytes)

def Consistent (state : State) (written : ChunkId → Option (List UInt8)) : Prop :=
  ∀ type, FileConsistent type (state.slots type) (state.freeCounts type) (state.chunkFiles type)
    fun no => written (encodeId type no)

theorem read_resizeFile {file : ByteFile} {offset count size : Nat}
    (hread : file.read offset count = some bytes) (hsize : offset + count ≤ size) :
    (resizeFile file size).read offset count = some bytes := by
  obtain ⟨hfits, hlength, hbytes⟩ := ByteFile.read_eq_some.mp hread
  refine ByteFile.read_eq_some.mpr ⟨hsize, hlength, fun index hindex => ?_⟩
  have hinside : offset + index < file.size := by omega
  simp only [hbytes index hindex, resizeFile, if_pos hinside]

theorem readUpTo_of_read {file : ByteFile} {offset count : Nat}
    (hread : file.read offset count = some bytes) : readUpTo file offset count = bytes := by
  have hfits := (ByteFile.read_eq_some.mp hread).1
  have hcount : min count (file.size - offset) = count := by omega
  rw [ByteFile.read, if_pos hfits] at hread
  rw [readUpTo, hcount]
  exact Option.some.inj hread

namespace FileConsistent

variable {slots : SlotPool} {freeCount : Nat} {file : ByteFile}
  {written : Nat → Option (List UInt8)}

theorem apart {first second size : Nat} (hne : first ≠ second) :
    first * size + size ≤ second * size ∨ second * size + size ≤ first * size := by
  rcases Nat.lt_or_gt_of_ne hne with hlt | hgt
  · left
    rw [← Nat.succ_mul]
    exact Nat.mul_le_mul_right size hlt
  · right
    rw [← Nat.succ_mul]
    exact Nat.mul_le_mul_right size hgt

theorem end_le (hslots : no < slots.count) :
    no * chunkSize type + chunkSize type ≤ slots.count * chunkSize type := by
  rw [← Nat.succ_mul]
  exact Nat.mul_le_mul_right _ hslots

section

variable (hfile : FileConsistent type slots freeCount file written)
include hfile

theorem fitsId (hno : no ≤ slots.count) : no < 2 ^ kChunkNoBits := by
  have hbounded := hfile.bounded
  have hsize : 4 * 1024 ≤ chunkSize type := by cases type <;> decide
  have hproduct : no * (4 * 1024) ≤ slots.count * chunkSize type := Nat.mul_le_mul hno hsize
  have hpow : (2 : Nat) ^ kChunkNoBits = 4611686018427387904 := rfl
  omega

theorem withFree {next : SlotPool} (hvalid : next.Valid) (hcount : next.count = slots.count) :
    FileConsistent type next next.free.length file written where
  valid := hvalid
  counted := rfl
  bounded := hcount ▸ hfile.bounded
  fits := hcount ▸ hfile.fits
  written := hcount ▸ hfile.written

theorem grow {size : Nat} (hbounded : (slots.count + 1) * chunkSize type < 2 ^ 63)
    (hsize : (slots.count + 1) * chunkSize type ≤ size) :
    FileConsistent type { slots with count := slots.count + 1 } freeCount (resizeFile file size)
      written where
  valid := ⟨hfile.valid.nodup, fun slot hslot => (hfile.valid.lt slot hslot).trans (Nat.lt_succ_self _)⟩
  counted := hfile.counted
  bounded := hbounded
  fits := hsize
  written := by
    intro no bytes hno hwritten
    obtain ⟨hlt, hlength, hread⟩ := hfile.written no bytes hno hwritten
    have hend : no * chunkSize type + chunkSize type ≤ slots.count * chunkSize type := end_le hlt
    have hlast : slots.count * chunkSize type ≤ (slots.count + 1) * chunkSize type :=
      Nat.mul_le_mul_right _ (Nat.le_succ _)
    exact ⟨hlt.trans (Nat.lt_succ_self _), hlength,
      read_resizeFile hread (hend.trans (hlast.trans hsize))⟩

theorem write {bytes : List UInt8} (hno : no < slots.count)
    (hlength : bytes.length ≤ chunkSize type) :
    FileConsistent type slots freeCount (file.write (no * chunkSize type) (padded type bytes))
      (Function.update written no (some bytes)) where
  valid := hfile.valid
  counted := hfile.counted
  bounded := hfile.bounded
  fits := hfile.fits.trans (Nat.le_max_left _ _)
  written := by
    intro other otherBytes hother hwritten
    by_cases hsame : other = no
    · subst hsame
      rw [Function.update_self] at hwritten
      obtain rfl := Option.some.inj hwritten
      refine ⟨hno, hlength, ?_⟩
      have hread := file.read_write_self (other * chunkSize type) (padded type bytes)
      rwa [length_padded hlength] at hread
    · rw [Function.update_of_ne hsame] at hwritten
      obtain ⟨hlt, hshort, hread⟩ := hfile.written other otherBytes hother hwritten
      refine ⟨hlt, hshort, ByteFile.read_write_of_disjoint hread ?_⟩
      rw [length_padded hlength]
      exact apart hsame

end

end FileConsistent

namespace Consistent

variable {state next : State} {written rewritten : ChunkId → Option (List UInt8)}

/-- What happens to the chunks of one type leaves those of the others alone. -/
theorem of_one (hstate : Consistent state written) (type : ChunkType)
    (hslots : ∀ other, other ≠ type → next.slots other = state.slots other)
    (hcounts : ∀ other, other ≠ type → next.freeCounts other = state.freeCounts other)
    (hfiles : ∀ other, other ≠ type → next.chunkFiles other = state.chunkFiles other)
    (hwritten : ∀ other no, other ≠ type → no < 2 ^ kChunkNoBits →
      rewritten (encodeId other no) = written (encodeId other no))
    (hone : FileConsistent type (next.slots type) (next.freeCounts type) (next.chunkFiles type)
      fun no => rewritten (encodeId type no)) : Consistent next rewritten := by
  intro other
  by_cases hsame : other = type
  · exact hsame ▸ hone
  · have hfile := hstate other
    rw [hslots other hsame, hcounts other hsame, hfiles other hsame]
    refine ⟨hfile.valid, hfile.counted, hfile.bounded, hfile.fits, ?_⟩
    intro no bytes hno hbytes
    exact hfile.written no bytes hno ((hwritten other no hsame hno).symm.trans hbytes)

theorem decodeChunkId_ok (hstate : Consistent state written) (hno : no ≤ (state.slots type).count) :
    decodeChunkId (encodeId type no) =
      .ok ⟨type, no, no * chunkSize type, chunkSize type⟩ := by
  have hid := (hstate type).fitsId hno
  have hbounded := (hstate type).bounded
  have hproduct : no * chunkSize type ≤ (state.slots type).count * chunkSize type :=
    Nat.mul_le_mul_right _ hno
  have hoverflow : ¬ (2 ^ 64 - 1) / chunkSize type < no := by
    rw [Nat.not_lt, Nat.le_div_iff_mul_le (chunkSize_pos type)]
    omega
  simp only [decodeChunkId, bind_ok, reject_ok]
  refine ⟨type, chunkType_encodeId hid, (), ?_, ?_⟩
  · rwa [chunkNo_encodeId hid]
  · rw [chunkNo_encodeId hid]

end Consistent

/-! ## What the operations do -/

section Operations

variable {state next : State} {written : ChunkId → Option (List UInt8)} {chunkId : ChunkId}

theorem isLive_changed (change : Prop → Prop → Prop)
    (hkeeps : ∀ live, change False live ↔ live) (hno : no < 2 ^ kChunkNoBits)
    (hslots : ∀ other, other ≠ type → next.slots other = state.slots other)
    (hone : ∀ slot, (next.slots type).Live slot ↔ change (slot = no) ((state.slots type).Live slot))
    (chunkId : ChunkId) :
    IsLive next chunkId ↔ change (chunkId = encodeId type no) (IsLive state chunkId) := by
  obtain ⟨other, otherNo, hother, rfl⟩ := exists_encodeId chunkId
  rw [isLive_encodeId hother, isLive_encodeId hother, encodeId_inj hother hno]
  by_cases hsame : other = type
  · subst hsame
    simpa using hone otherNo
  · rw [hslots other hsame]
    simp [hsame, hkeeps]

/-- The file grows, if it has to, within the sizes that a file can have. -/
def ioSucceeds (state : State) (type : ChunkType) : Bool :=
  decide ((state.slots type).free ≠ [] ∨
    ((state.slots type).count + 1) * chunkSize type % 2 ^ 64 < 2 ^ 63)

/-- The state that a successful allocation leaves, with the id that it returns. -/
structure Allocated (state : State) (written : ChunkId → Option (List UInt8)) (next : State)
    (chunkId : ChunkId) : Prop where
  fresh : ¬ IsLive state chunkId
  live : ∀ other, IsLive next other ↔ other = chunkId ∨ IsLive state other
  consistent : Consistent next written

theorem Consistent.allocate_reused (hstate : Consistent state written)
    (hfree : (state.slots type).free ≠ []) (fallocates : Bool) :
    ∃ next chunkId, allocateChunk state type fallocates = (next, .ok chunkId) ∧
      Allocated state written next chunkId := by
  have hvalid := (hstate type).valid
  have htaken : (state.slots type).take.2.Live (state.slots type).take.1 :=
    hvalid.live_take.mpr (.inl rfl)
  have hcount := SlotPool.take_count hfree
  have hno : (state.slots type).take.1 < 2 ^ kChunkNoBits :=
    (hstate type).fitsId (hcount ▸ htaken.1).le
  simp only [allocateChunk, if_pos hfree, makeChunkId_ok hno]
  refine ⟨_, _, rfl, ?_, ?_, ?_⟩
  · rw [isLive_encodeId hno]
    exact SlotPool.take_not_live _
  · exact isLive_changed Or (by simp) hno (fun other hother => Function.update_of_ne hother _ _)
      fun slot => by simpa only [Function.update_self] using hvalid.live_take
  · refine hstate.of_one type ?_ ?_ ?_ ?_ ?_
    · exact fun other hother => Function.update_of_ne hother _ _
    · exact fun other hother => Function.update_of_ne hother _ _
    · exact fun _ _ => rfl
    · exact fun _ _ _ _ => rfl
    · simp only [Function.update_self]
      exact (hstate type).withFree hvalid.take hcount

theorem Consistent.allocate_grown (hstate : Consistent state written)
    (hfree : (state.slots type).free = []) (hio : ioSucceeds state type = true)
    (fallocates : Bool) :
    ∃ next chunkId, allocateChunk state type fallocates = (next, .ok chunkId) ∧
      Allocated state written next chunkId := by
  have hvalid := (hstate type).valid
  have hbounded := (hstate type).bounded
  have hsize : chunkSize type ≤ 2 * 1024 * 1024 := by cases type <;> decide
  have hrequired : ((state.slots type).count + 1) * chunkSize type % 2 ^ 64 =
      ((state.slots type).count + 1) * chunkSize type := by
    apply Nat.mod_eq_of_lt
    rw [Nat.succ_mul]
    omega
  have hsmall : ((state.slots type).count + 1) * chunkSize type < 2 ^ 63 := by
    rw [ioSucceeds, decide_eq_true_eq, hrequired] at hio
    exact hio.resolve_left (not_not.mpr hfree)
  obtain ⟨size, hfile, hfits⟩ : ∃ size,
      reserveFileSpace (state.chunkFiles type) (((state.slots type).count + 1) * chunkSize type)
        fallocates = .ok (resizeFile (state.chunkFiles type) size) ∧
      ((state.slots type).count + 1) * chunkSize type ≤ size := by
    rw [reserveFileSpace, if_neg (Nat.not_le.mpr hsmall)]
    split
    · exact ⟨_, rfl, Nat.le_max_right _ _⟩
    · exact ⟨_, rfl, le_rfl⟩
  have hno : (state.slots type).count < 2 ^ kChunkNoBits := (hstate type).fitsId le_rfl
  have hnone : ¬ (state.slots type).free ≠ [] := not_not.mpr hfree
  simp only [allocateChunk, SlotPool.take_of_nil hfree, if_neg hnone, hrequired, hfile,
    makeChunkId_ok hno]
  refine ⟨_, _, rfl, ?_, ?_, ?_⟩
  · rw [isLive_encodeId hno]
    exact fun hbelow => lt_irrefl _ hbelow.1
  · refine isLive_changed Or (by simp) hno
      (fun other hother => Function.update_of_ne hother _ _) fun slot => ?_
    have hlive := (hvalid.live_take : _ ↔ slot = _ ∨ _)
    rw [SlotPool.take_of_nil hfree] at hlive
    simpa only [Function.update_self] using hlive
  · refine hstate.of_one type ?_ ?_ ?_ ?_ ?_
    · exact fun other hother => Function.update_of_ne hother _ _
    · exact fun _ _ => rfl
    · exact fun other hother => Function.update_of_ne hother _ _
    · exact fun _ _ _ _ => rfl
    · simp only [Function.update_self]
      exact (hstate type).grow hsmall hfits

theorem Consistent.allocateChunk_spec (hstate : Consistent state written)
    (hio : ioSucceeds state type = true) (fallocates : Bool) :
    ∃ next chunkId, allocateChunk state type fallocates = (next, .ok chunkId) ∧
      Allocated state written next chunkId := by
  by_cases hfree : (state.slots type).free = []
  · exact hstate.allocate_grown hfree hio fallocates
  · exact hstate.allocate_reused hfree fallocates

theorem ioSucceeds_of_ok {fallocates : Bool}
    (hcall : (allocateChunk state type fallocates).2 = .ok chunkId) :
    ioSucceeds state type = true := by
  by_contra hfails
  rw [ioSucceeds, decide_eq_true_eq, not_or, not_not, Nat.not_lt] at hfails
  obtain ⟨hfree, hlarge⟩ := hfails
  have hnone : ¬ (state.slots type).free ≠ [] := not_not.mpr hfree
  simp only [allocateChunk, SlotPool.take_of_nil hfree, if_neg hnone, reserveFileSpace,
    if_pos hlarge] at hcall
  cases hcall

theorem Consistent.deleteChunk_spec (hstate : Consistent state written)
    (hlive : IsLive state chunkId) :
    ∃ next, deleteChunk state chunkId = (next, .ok ()) ∧ Consistent next written ∧
      ∀ other, IsLive next other ↔ IsLive state other ∧ other ≠ chunkId := by
  obtain ⟨type, no, hno, rfl⟩ := exists_encodeId chunkId
  have hslot := (isLive_encodeId hno).mp hlive
  simp only [deleteChunk, validateChunkId_eq_ok.mpr hlive, chunkType_encodeId hno,
    chunkNo_encodeId hno]
  refine ⟨_, rfl, ?_, ?_⟩
  · refine hstate.of_one type ?_ ?_ ?_ ?_ ?_
    · exact fun other hother => Function.update_of_ne hother _ _
    · exact fun other hother => Function.update_of_ne hother _ _
    · exact fun _ _ => rfl
    · exact fun _ _ _ _ => rfl
    · simp only [Function.update_self]
      exact (hstate type).withFree ((hstate type).valid.release hslot) rfl
  · exact isLive_changed (fun same live => live ∧ ¬ same) (by simp) hno
      (fun other hother => Function.update_of_ne hother _ _) fun slot => by simpa only [Function.update_self] using SlotPool.live_release

theorem deleteChunk_rejects (hdead : ¬ IsLive state chunkId) :
    ∃ error, deleteChunk state chunkId = (state, .error error) := by
  obtain ⟨error, herror⟩ := validateChunkId_error hdead
  exact ⟨error, by rw [deleteChunk, herror]; rfl⟩

theorem Consistent.writeChunk_spec (hstate : Consistent state written)
    (hlive : IsLive state chunkId) {bytes : List UInt8}
    (hfits : ∀ type, chunkType chunkId = .ok type → bytes.length ≤ chunkSize type) :
    ∃ next, writeChunk state chunkId (some bytes) = (next, .ok ()) ∧
      Consistent next (Function.update written chunkId (some bytes)) ∧
      ∀ other, IsLive next other ↔ IsLive state other := by
  obtain ⟨type, no, hno, rfl⟩ := exists_encodeId chunkId
  have hslot := (isLive_encodeId hno).mp hlive
  have hlength := hfits type (chunkType_encodeId hno)
  have hchecked : (do
      validateChunkId state (encodeId type no)
      let addr ← decodeChunkId (encodeId type no)
      reject (addr.size < bytes.length) (Error.invalidArgument "write size exceeds chunk size")
      .ok addr) = .ok ⟨type, no, no * chunkSize type, chunkSize type⟩ := by
    simp only [bind_ok, reject_ok]
    exact ⟨(), validateChunkId_eq_ok.mpr hlive, _, hstate.decodeChunkId_ok hslot.1.le, (),
      Nat.not_lt.mpr hlength, rfl⟩
  simp only [writeChunk, hchecked]
  refine ⟨_, rfl, ?_, fun _ => Iff.rfl⟩
  refine hstate.of_one type ?_ ?_ ?_ ?_ ?_
  · exact fun _ _ => rfl
  · exact fun _ _ => rfl
  · exact fun other hother => Function.update_of_ne hother _ _
  · intro other otherNo hother hotherNo
    apply Function.update_of_ne
    exact fun hsame => hother ((encodeId_inj hotherNo hno).mp hsame).1
  · have hwritten := (hstate type).write hslot.1 hlength
    simp only [Function.update_self]
    refine ⟨hwritten.valid, hwritten.counted, hwritten.bounded, hwritten.fits, ?_⟩
    intro otherNo otherBytes hotherNo hbytes
    apply hwritten.written otherNo otherBytes hotherNo
    by_cases hsame : otherNo = no
    · subst hsame
      rw [Function.update_self] at hbytes ⊢
      exact hbytes
    · rw [Function.update_of_ne hsame]
      rw [Function.update_of_ne fun heq => hsame ((encodeId_inj hotherNo hno).mp heq).2] at hbytes
      exact hbytes

theorem writeChunk_cases (state : State) (chunkId : ChunkId) (data : Option (List UInt8)) :
    (∃ error, writeChunk state chunkId data = (state, .error error)) ∨
      ∃ bytes, data = some bytes ∧ IsLive state chunkId ∧
        ∀ type, chunkType chunkId = .ok type → bytes.length ≤ chunkSize type := by
  cases data with
  | none => exact .inl ⟨_, rfl⟩
  | some bytes =>
    rw [writeChunk]
    dsimp only
    split
    next error _ => exact .inl ⟨error, rfl⟩
    next addr hchecked =>
      simp only [bind_ok, reject_ok, decodeChunkId] at hchecked
      obtain ⟨_, hvalid, found, ⟨type, htype, _, -, haddr⟩, _, hlength, -⟩ := hchecked
      refine .inr ⟨bytes, rfl, validateChunkId_eq_ok.mp hvalid, fun other hother => ?_⟩
      obtain rfl := Except.ok.inj (htype.symm.trans hother)
      obtain rfl := Except.ok.inj haddr
      exact Nat.not_lt.mp hlength

theorem writeChunk_rejects (hdead : ¬ IsLive state chunkId) (data : Option (List UInt8)) :
    ∃ error, writeChunk state chunkId data = (state, .error error) := by
  cases data with
  | none => exact ⟨_, rfl⟩
  | some bytes =>
    obtain ⟨error, herror⟩ := validateChunkId_error hdead
    exact ⟨error, by simp only [writeChunk, herror]; rfl⟩

theorem Consistent.loadChunk_spec (hstate : Consistent state written)
    (hlive : IsLive state chunkId) {bytes : List UInt8} (hwritten : written chunkId = some bytes) :
    ∃ addr, decodeChunkId chunkId = .ok addr ∧ bytes.length ≤ addr.size ∧
      loadChunk state chunkId =
        .ok (bytes ++ List.replicate (addr.size - bytes.length) 0) := by
  obtain ⟨type, no, hno, rfl⟩ := exists_encodeId chunkId
  have hslot := (isLive_encodeId hno).mp hlive
  obtain ⟨-, hlength, hread⟩ := (hstate type).written no bytes hno hwritten
  have hdecode := hstate.decodeChunkId_ok hslot.1.le
  refine ⟨_, hdecode, hlength, ?_⟩
  simp only [loadChunk, bind_ok]
  refine ⟨(), validateChunkId_eq_ok.mpr hlive, _, hdecode, ?_⟩
  rw [readUpTo_of_read hread, length_padded hlength, Nat.sub_self, List.replicate_zero,
    List.append_nil, padded]

theorem loadChunk_rejects (hdead : ¬ IsLive state chunkId) :
    ∃ error, loadChunk state chunkId = .error error := by
  obtain ⟨error, herror⟩ := validateChunkId_error hdead
  exact ⟨error, by rw [loadChunk, herror]; rfl⟩

end Operations

/-! ## The metadata file -/

section Metadata

variable {state : State} {written : ChunkId → Option (List UInt8)}

/-- The pool of one type: its free list is sound and counted, and a word holds its counter. -/
structure PoolConsistent (slots : SlotPool) (freeCount : Nat) : Prop where
  valid : slots.Valid
  counted : freeCount = slots.free.length
  count_lt : slots.count < 256 ^ 8

/-- What the metadata file needs of the store. -/
def Pooled (state : State) : Prop :=
  ∀ type, PoolConsistent (state.slots type) (state.freeCounts type)

theorem Consistent.pooled (hstate : Consistent state written) : Pooled state := by
  intro type
  have hfits : (state.slots type).count < 2 ^ kChunkNoBits := (hstate type).fitsId le_rfl
  exact ⟨(hstate type).valid, (hstate type).counted, hfits.trans (by decide)⟩

theorem length_freeListBytes (free : List Nat) :
    (freeListBytes free).length = free.length * 8 := by
  induction free with
  | nil => rfl
  | cons slot free ih =>
    rw [freeListBytes, List.flatMap_cons, List.length_append, length_encodeLittle, ← freeListBytes,
      ih, List.length_cons, Nat.succ_mul, Nat.add_comm]

theorem length_metaRecord (state : State) : (metaRecord state).length = metaSize := by
  simp [metaRecord, chunkTypes, metaSize]

theorem flushMeta_counted (hstate : Pooled state) :
    (fun type => (state.slots type).free.length) = state.freeCounts := by
  funext type
  exact ((hstate type).counted).symm

theorem metaFile_flushMeta (hstate : Pooled state) :
    flushMeta state = { state with
      metaFile := metaRecord state ++
        chunkTypes.flatMap fun type => freeListBytes (state.slots type).free } := by
  have hlength : (metaRecord state ++
        chunkTypes.flatMap fun type => freeListBytes (state.slots type).free).length =
      metaSize + (chunkTypes.map fun type => (state.slots type).free.length * 8).sum := by
    rw [List.length_append, length_metaRecord, List.length_flatMap]
    simp only [length_freeListBytes]
  simp only [flushMeta, flushMeta_counted hstate]
  rw [List.take_left' hlength]

theorem Pooled.freeCount_lt (hstate : Pooled state) (type : ChunkType) :
    state.freeCounts type < 256 ^ 8 := by
  rw [(hstate type).counted]
  exact (hstate type).valid.length_free_le.trans_lt (hstate type).count_lt

theorem reads_words {failure : Error} (value : ChunkType → Nat)
    (hvalue : ∀ type, value type < 256 ^ 8) :
    Reads (readMany (readWord failure 8) kChunkLevels)
      (chunkTypes.flatMap fun type => encodeLittle 8 (value type)) (chunkTypes.map value) := by
  have hreads : Reads (readMany (readWord failure 8) (chunkTypes.map value).length)
      ((chunkTypes.map value).flatMap (encodeLittle 8)) (chunkTypes.map value) := by
    apply Reads.many
    intro word hword
    obtain ⟨type, -, rfl⟩ := List.mem_map.mp hword
    exact .word failure (hvalue type)
  rwa [List.flatMap_map] at hreads

/-- The record in memory, field by field. -/
def storedMeta (state : State) : Meta :=
  ⟨kMagic, kVersion, kChunkLevels, chunkTypes.map fun type => (state.slots type).count,
    chunkTypes.map state.freeCounts, state.hugePageEnabled⟩

theorem reads_meta (hstate : Pooled state) :
    Reads readMeta (metaRecord state) (storedMeta state) := by
  have hhuge := (Reads.word unreadable (show state.hugePageEnabled.toNat < 256 ^ 1 from
    state.hugePageEnabled.toNat_lt)).map UInt8.ofNat
  rw [UInt8.ofNat_toNat] at hhuge
  have hbyte : encodeLittle 1 state.hugePageEnabled.toNat = [state.hugePageEnabled] := by
    simp [encodeLittle]
  have hpadding := Reads.word unreadable (show 0 < 256 ^ 7 by decide)
  rw [encodeLittle_zero] at hpadding
  rw [hbyte] at hhuge
  simp only [metaRecord, List.flatten_cons, List.flatten_nil]
  exact (Reads.word unreadable (by decide)).bind <| (Reads.word unreadable (by decide)).bind <|
    (Reads.word unreadable (by decide)).bind <| (reads_words _ fun type => (hstate type).count_lt).bind <|
    (reads_words _ hstate.freeCount_lt).bind <| hhuge.bind <| hpadding.bind <| .pure _

theorem reads_freeList {slots : SlotPool} (hvalid : slots.Valid) (hcount : slots.count < 256 ^ 8) :
    Reads (loadFreeList slots.count slots.free.length) (freeListBytes slots.free) slots.free := by
  have hmany : Reads (readMany (readWord (Error.runtimeError "failed to read free chunk list") 8)
      slots.free.length) (freeListBytes slots.free) slots.free := by
    apply Reads.many
    exact fun slot hslot => .word _ ((hvalid.lt slot hslot).trans hcount)
  have hnone : ¬ (slots.free.any fun no => decide (slots.count ≤ no)) = true := by
    simpa using hvalid.lt
  rw [loadFreeList, ← List.append_nil (freeListBytes slots.free)]
  apply hmany.bind
  rw [if_neg hnone]
  exact .pure _

theorem reads_slots (hstate : Pooled state) {read : Meta} (types : List ChunkType)
    (hcounts : ∀ type, read.chunkCounts.getD type.index 0 = (state.slots type).count)
    (hfree : ∀ type, read.freeCounts.getD type.index 0 = (state.slots type).free.length) :
    Reads (loadSlots read types)
      (types.flatMap fun type => freeListBytes (state.slots type).free)
      (types.map state.slots) := by
  induction types with
  | nil => exact .pure _
  | cons type types ih =>
    rw [List.flatMap_cons, List.map_cons, loadSlots, hcounts, hfree]
    apply (reads_freeList (hstate type).valid (hstate type).count_lt).bind
    rw [← List.append_nil (List.flatMap _ types)]
    exact ih.bind (.pure _)

theorem loadMeta_flushed (hstate : Pooled state) :
    loadMeta ⟨fun _ => {}, fun _ => 0, 0, (flushMeta state).metaFile, state.chunkFiles⟩ =
      .ok (flushMeta state) := by
  rw [metaFile_flushMeta hstate]
  have hlong : ¬ (metaRecord state ++
      chunkTypes.flatMap fun type => freeListBytes (state.slots type).free).length < metaSize := by
    rw [List.length_append, length_metaRecord]
    omega
  have hindex : ∀ {Value : Type} (value : ChunkType → Value) (default : Value) (type : ChunkType),
      (chunkTypes.map value).getD type.index default = value type := by
    intro Value value default type
    cases type <;> rfl
  have hmeta := reads_meta hstate
    (chunkTypes.flatMap fun type => freeListBytes (state.slots type).free)
  have hcounts : ∀ type, (storedMeta state).chunkCounts.getD type.index 0 =
      (state.slots type).count := hindex (fun type => (state.slots type).count) 0
  have hfree : ∀ type, (storedMeta state).freeCounts.getD type.index 0 =
      (state.slots type).free.length :=
    fun type => (hindex state.freeCounts 0 type).trans (hstate type).counted
  have hslots := reads_slots hstate chunkTypes hcounts hfree []
  rw [List.append_nil] at hslots
  rw [loadMeta, if_neg hlong]
  simp only [bind_ok]
  refine ⟨_, hmeta, (), ?_, _, hslots, ?_⟩
  · simp [storedMeta]
  · simp only [hindex, flushMeta_counted hstate, storedMeta]

/-- Nothing that the chunks depend on changes. -/
structure SameChunks (state next : State) : Prop where
  slots : next.slots = state.slots
  freeCounts : next.freeCounts = state.freeCounts
  chunkFiles : next.chunkFiles = state.chunkFiles

theorem SameChunks.consistent {next : State} (hsame : SameChunks state next)
    (hstate : Consistent state written) : Consistent next written := by
  intro type
  rw [hsame.slots, hsame.freeCounts, hsame.chunkFiles]
  exact hstate type

theorem SameChunks.isLive {next : State} (hsame : SameChunks state next) (chunkId : ChunkId) :
    IsLive next chunkId ↔ IsLive state chunkId := by
  rw [IsLive, IsLive, hsame.slots]

theorem sameChunks_flushMeta (hstate : Pooled state) :
    SameChunks state (flushMeta state) := by
  rw [metaFile_flushMeta hstate]
  exact ⟨rfl, rfl, rfl⟩

theorem sameChunks_hugePageHint (state : State) (policy : HugePagePolicy) (available : Bool) :
    SameChunks state (configureHugePageHint state policy available).1 := by
  unfold configureHugePageHint
  split
  · exact ⟨rfl, rfl, rfl⟩
  · split <;> exact ⟨rfl, rfl, rfl⟩

theorem sameChunks_reopen (hstate : Pooled state) (policy : HugePagePolicy)
    (available : Bool) : SameChunks state (reopen state policy available).1 := by
  have hflushed := sameChunks_flushMeta hstate
  have hhint := sameChunks_hugePageHint (flushMeta state) policy available
  have hloaded := loadMeta_flushed hstate
  rw [← hflushed.chunkFiles] at hloaded
  rw [reopen, openFiles, hloaded]
  exact ⟨hhint.slots.trans hflushed.slots, hhint.freeCounts.trans hflushed.freeCounts,
    hhint.chunkFiles.trans hflushed.chunkFiles⟩

end Metadata

end DiskManager

open DiskManager

/-- The manager, the ids that callers were given and did not delete, and what they
wrote last under each id. -/
structure ChunkStore where
  manager : State
  live : List ChunkId
  written : ChunkId → Option (List UInt8)

inductive StoreAction
  | allocateChunk (type : ChunkType) (fallocates : Bool)
  | deleteChunk (chunkId : ChunkId)
  | writeChunk (chunkId : ChunkId) (data : Option (List UInt8))
  | writeNewChunk (type : ChunkType) (data : Option (List UInt8)) (fallocates : Bool)
  | loadChunk (chunkId : ChunkId)
  | flushMeta
  | reopen (policy : HugePagePolicy) (available : Bool)

namespace ChunkStore

def perform (store : ChunkStore) : StoreAction → ChunkStore
  | .allocateChunk type fallocates =>
    match allocateChunk store.manager type fallocates with
    | (manager, .ok chunkId) =>
      { store with manager := manager, live := chunkId :: store.live }
    | (manager, .error _) => { store with manager := manager }
  | .deleteChunk chunkId =>
    match deleteChunk store.manager chunkId with
    | (manager, .ok ()) =>
      { store with manager := manager, live := store.live.filter (· ≠ chunkId) }
    | (manager, .error _) => { store with manager := manager }
  | .writeChunk chunkId data =>
    match writeChunk store.manager chunkId data with
    | (manager, .ok ()) =>
      { store with manager := manager, written := Function.update store.written chunkId data }
    | (manager, .error _) => { store with manager := manager }
  | .writeNewChunk type data fallocates =>
    match writeNewChunk store.manager type data fallocates with
    | (manager, .ok chunkId) =>
      ⟨manager, chunkId :: store.live, Function.update store.written chunkId data⟩
    | (manager, .error _) => { store with manager := manager }
  | .loadChunk _ => store
  | .flushMeta => { store with manager := flushMeta store.manager }
  | .reopen policy available =>
    { store with manager := (reopen store.manager policy available).1 }

/-- Every call is permitted in which the files can grow as they have to. -/
def Permitted (store : ChunkStore) : StoreAction → Prop
  | .allocateChunk type _ => ioSucceeds store.manager type = true
  | .writeNewChunk type _ _ => ioSucceeds store.manager type = true
  | _ => True

instance (store : ChunkStore) : (action : StoreAction) → Decidable (store.Permitted action)
  | .allocateChunk _ _ => inferInstanceAs (Decidable (_ = _))
  | .writeNewChunk _ _ _ => inferInstanceAs (Decidable (_ = _))
  | .deleteChunk _ => inferInstanceAs (Decidable True)
  | .writeChunk _ _ => inferInstanceAs (Decidable True)
  | .loadChunk _ => inferInstanceAs (Decidable True)
  | .flushMeta => inferInstanceAs (Decidable True)
  | .reopen _ _ => inferInstanceAs (Decidable True)

/-- A store that is opened for the first time, whatever its chunk files hold. -/
def Opened (store : ChunkStore) : Prop :=
  ∃ metaFile chunkFiles policy available, metaFile.length < metaSize ∧
    store = ⟨(openFiles metaFile chunkFiles policy available).1, [], fun _ => none⟩

def transition : Transition ChunkStore StoreAction := .guarded Opened Permitted perform

/-- The callers' ids are the live ones, and the files hold what they wrote. -/
structure Accounted (store : ChunkStore) : Prop where
  consistent : Consistent store.manager store.written
  live : ∀ chunkId, chunkId ∈ store.live ↔ IsLive store.manager chunkId

variable {store : ChunkStore}

theorem Accounted.opened (hopened : store.Opened) : store.Accounted := by
  obtain ⟨metaFile, chunkFiles, policy, available, hshort, rfl⟩ := hopened
  have hempty : Consistent ⟨fun _ => {}, fun _ => 0, 0, metaFile, chunkFiles⟩ fun _ => none := by
    intro type
    exact ⟨SlotPool.valid_empty, rfl, by simp, by simp, fun _ _ _ hnone => by cases hnone⟩
  have hflushed := sameChunks_flushMeta hempty.pooled
  have hhint := sameChunks_hugePageHint
    (flushMeta ⟨fun _ => {}, fun _ => 0, 0, metaFile, chunkFiles⟩) policy available
  have hsame : SameChunks ⟨fun _ => {}, fun _ => 0, 0, metaFile, chunkFiles⟩
      (openFiles metaFile chunkFiles policy available).1 := by
    rw [openFiles, loadMeta, if_pos hshort]
    exact ⟨hhint.slots.trans hflushed.slots, hhint.freeCounts.trans hflushed.freeCounts,
      hhint.chunkFiles.trans hflushed.chunkFiles⟩
  refine ⟨hsame.consistent hempty, fun chunkId => ?_⟩
  rw [hsame.isLive]
  simp [IsLive, SlotPool.Live]

theorem Accounted.allocate (haccounted : store.Accounted) {type : ChunkType}
    (hio : ioSucceeds store.manager type = true) (fallocates : Bool) :
    (store.perform (.allocateChunk type fallocates)).Accounted := by
  obtain ⟨next, chunkId, hcall, hallocated⟩ :=
    haccounted.consistent.allocateChunk_spec hio fallocates
  simp only [perform, hcall]
  refine ⟨hallocated.consistent, fun other => ?_⟩
  rw [hallocated.live, List.mem_cons, haccounted.live]

theorem Accounted.delete (haccounted : store.Accounted) (chunkId : ChunkId) :
    (store.perform (.deleteChunk chunkId)).Accounted := by
  by_cases hlive : IsLive store.manager chunkId
  · obtain ⟨next, hcall, hconsistent, hremoved⟩ :=
      haccounted.consistent.deleteChunk_spec hlive
    simp only [perform, hcall]
    refine ⟨hconsistent, fun other => ?_⟩
    rw [hremoved, List.mem_filter, haccounted.live]
    simp
  · obtain ⟨error, hcall⟩ := deleteChunk_rejects hlive
    simp only [perform, hcall]
    exact haccounted

theorem Accounted.write (haccounted : store.Accounted) (chunkId : ChunkId)
    (data : Option (List UInt8)) : (store.perform (.writeChunk chunkId data)).Accounted := by
  rcases writeChunk_cases store.manager chunkId data with
    ⟨error, hcall⟩ | ⟨bytes, rfl, hlive, hfits⟩
  · simp only [perform, hcall]
    exact haccounted
  · obtain ⟨next, hcall, hconsistent, hsame⟩ :=
      haccounted.consistent.writeChunk_spec hlive hfits
    simp only [perform, hcall]
    refine ⟨hconsistent, fun other => ?_⟩
    rw [hsame]
    exact haccounted.live other

/-- The outcome of `write_new_chunk`: a new chunk with its bytes, or an exception
after which the chunk is free again. -/
theorem writeNewChunk_spec {state : State} {written : ChunkId → Option (List UInt8)}
    (hstate : Consistent state written) {type : ChunkType} (hio : ioSucceeds state type = true)
    (data : Option (List UInt8)) (fallocates : Bool) :
    (∃ next chunkId, writeNewChunk state type data fallocates = (next, .ok chunkId) ∧
      Allocated state (Function.update written chunkId data) next chunkId) ∨
    ∃ next error, writeNewChunk state type data fallocates = (next, .error error) ∧
      Consistent next written ∧ ∀ other, IsLive next other ↔ IsLive state other := by
  obtain ⟨middle, chunkId, hallocate, hallocated⟩ := hstate.allocateChunk_spec hio fallocates
  have hlive : IsLive middle chunkId := (hallocated.live chunkId).mpr (.inl rfl)
  rcases writeChunk_cases middle chunkId data with ⟨error, hwrite⟩ | ⟨bytes, rfl, -, hfits⟩
  · obtain ⟨next, hdelete, hconsistent, hremoved⟩ :=
      hallocated.consistent.deleteChunk_spec hlive
    refine .inr ⟨next, error, ?_, hconsistent, fun other => ?_⟩
    · simp only [writeNewChunk, hallocate, hwrite, hdelete]
    · rw [hremoved, hallocated.live]
      constructor
      · rintro ⟨rfl | hold, hother⟩
        · exact absurd rfl hother
        · exact hold
      · exact fun hold => ⟨.inr hold, fun hsame => hallocated.fresh (hsame ▸ hold)⟩
  · obtain ⟨next, hwrite, hconsistent, hsame⟩ :=
      hallocated.consistent.writeChunk_spec hlive hfits
    refine .inl ⟨next, chunkId, ?_, hallocated.fresh, fun other => ?_, hconsistent⟩
    · simp only [writeNewChunk, hallocate, hwrite]
    · rw [hsame, hallocated.live]

theorem Accounted.writeNew (haccounted : store.Accounted) {type : ChunkType}
    (hio : ioSucceeds store.manager type = true) (data : Option (List UInt8)) (fallocates : Bool) :
    (store.perform (.writeNewChunk type data fallocates)).Accounted := by
  rcases writeNewChunk_spec haccounted.consistent hio data fallocates with
    ⟨next, chunkId, hcall, hallocated⟩ | ⟨next, error, hcall, hconsistent, hsame⟩
  · simp only [perform, hcall]
    refine ⟨hallocated.consistent, fun other => ?_⟩
    rw [hallocated.live, List.mem_cons, haccounted.live]
  · simp only [perform, hcall]
    exact ⟨hconsistent, fun other => (haccounted.live other).trans (hsame other).symm⟩

theorem Accounted.same (haccounted : store.Accounted) {manager : State}
    (hsame : SameChunks store.manager manager) : { store with manager := manager }.Accounted where
  consistent := hsame.consistent haccounted.consistent
  live chunkId := (haccounted.live chunkId).trans (hsame.isLive chunkId).symm

theorem Accounted.perform (haccounted : store.Accounted) {action : StoreAction}
    (hpermitted : store.Permitted action) : (store.perform action).Accounted := by
  cases action with
  | allocateChunk type fallocates => exact haccounted.allocate hpermitted fallocates
  | deleteChunk chunkId => exact haccounted.delete chunkId
  | writeChunk chunkId data => exact haccounted.write chunkId data
  | writeNewChunk type data fallocates => exact haccounted.writeNew hpermitted data fallocates
  | loadChunk chunkId => exact haccounted
  | flushMeta => exact haccounted.same (sameChunks_flushMeta haccounted.consistent.pooled)
  | reopen policy available =>
    exact haccounted.same (sameChunks_reopen haccounted.consistent.pooled policy available)

theorem accounted_of_reachable (hreach : transition.Reachable store) : store.Accounted := by
  apply hreach.invariant
  · exact fun _ hopened => .opened hopened
  · rintro state action next hstate ⟨hpermitted, rfl⟩
    exact hstate.perform hpermitted

/-- What callers rely on. -/
structure Safe (store : ChunkStore) : Prop where
  /-- No live id is handed out a second time. -/
  allocates : ∀ type fallocates chunkId,
    (allocateChunk store.manager type fallocates).2 = .ok chunkId → chunkId ∉ store.live
  writesNew : ∀ type data fallocates chunkId,
    (writeNewChunk store.manager type data fallocates).2 = .ok chunkId → chunkId ∉ store.live
  /-- A live chunk holds what was written last, filled up with zeros. -/
  loads : ∀ chunkId ∈ store.live, ∀ bytes, store.written chunkId = some bytes →
    ∃ addr, decodeChunkId chunkId = .ok addr ∧ bytes.length ≤ addr.size ∧
      loadChunk store.manager chunkId =
        .ok (bytes ++ List.replicate (addr.size - bytes.length) 0)
  /-- Two live chunks lie in two files or in disjoint ranges of one. -/
  apart : ∀ first ∈ store.live, ∀ second ∈ store.live, first ≠ second →
    ∃ here there, decodeChunkId first = .ok here ∧ decodeChunkId second = .ok there ∧
      (here.type = there.type →
        here.offset + here.size ≤ there.offset ∨ there.offset + there.size ≤ here.offset)
  /-- What is done under an id that is not live is rejected and changes nothing. -/
  rejects : ∀ chunkId, chunkId ∉ store.live →
    (∃ error, deleteChunk store.manager chunkId = (store.manager, .error error)) ∧
    (∀ data, ∃ error, writeChunk store.manager chunkId data = (store.manager, .error error)) ∧
    ∃ error, loadChunk store.manager chunkId = .error error
  /-- Closing and opening again keeps the free lists and the counters. -/
  reopens : ∀ policy available,
    (reopen store.manager policy available).1.slots = store.manager.slots ∧
      (reopen store.manager policy available).1.freeCounts = store.manager.freeCounts

theorem safe_of_reachable (hreach : transition.Reachable store) : store.Safe := by
  have haccounted := accounted_of_reachable hreach
  have hconsistent := haccounted.consistent
  constructor
  · intro type fallocates chunkId hcall
    obtain ⟨next, other, hother, hallocated⟩ :=
      hconsistent.allocateChunk_spec (ioSucceeds_of_ok hcall) fallocates
    rw [hother] at hcall
    obtain rfl := Except.ok.inj hcall
    exact fun hlive => hallocated.fresh ((haccounted.live _).mp hlive)
  · intro type data fallocates chunkId hcall
    have hio : ioSucceeds store.manager type = true := by
      cases hallocate : (allocateChunk store.manager type fallocates).2 with
      | ok other => exact ioSucceeds_of_ok hallocate
      | error error =>
        have hpair : allocateChunk store.manager type fallocates =
            ((allocateChunk store.manager type fallocates).1, .error error) :=
          Prod.ext rfl hallocate
        rw [writeNewChunk, hpair] at hcall
        cases hcall
    rcases writeNewChunk_spec hconsistent hio data fallocates with
      ⟨next, other, hother, hallocated⟩ | ⟨next, error, herror, -⟩
    · rw [hother] at hcall
      obtain rfl := Except.ok.inj hcall
      exact fun hlive => hallocated.fresh ((haccounted.live _).mp hlive)
    · rw [herror] at hcall
      cases hcall
  · intro chunkId hlive bytes hwritten
    exact hconsistent.loadChunk_spec ((haccounted.live chunkId).mp hlive) hwritten
  · intro first hfirst second hsecond hne
    obtain ⟨type, no, hno, rfl⟩ := exists_encodeId first
    obtain ⟨other, otherNo, hother, rfl⟩ := exists_encodeId second
    have hslot := (isLive_encodeId hno).mp ((haccounted.live _).mp hfirst)
    have hotherSlot := (isLive_encodeId hother).mp ((haccounted.live _).mp hsecond)
    refine ⟨_, _, hconsistent.decodeChunkId_ok hslot.1.le,
      hconsistent.decodeChunkId_ok hotherSlot.1.le, ?_⟩
    rintro (rfl : type = other)
    exact FileConsistent.apart fun hsame => hne (hsame ▸ rfl)
  · intro chunkId hdead
    have hnot : ¬ IsLive store.manager chunkId :=
      fun hlive => hdead ((haccounted.live chunkId).mpr hlive)
    exact ⟨deleteChunk_rejects hnot, writeChunk_rejects hnot, loadChunk_rejects hnot⟩
  · intro policy available
    have hsame := sameChunks_reopen hconsistent.pooled policy available
    exact ⟨hsame.slots, hsame.freeCounts⟩

/-- A store on empty files. -/
def fresh : ChunkStore :=
  ⟨(openFiles [] (fun _ => .zeros 0) .prefer false).1, [], fun _ => none⟩

/-- Two chunks are written, one of them is deleted, and its place is taken again. -/
def reuse : List StoreAction :=
  [.writeNewChunk .chunk4kb (some [1]) true, .writeNewChunk .chunk4kb (some [2]) false,
    .deleteChunk 0, .reopen .prefer false, .allocateChunk .chunk4kb true]

theorem safe_of_reachable_reuse : (reuse.foldl perform fresh).Safe :=
  safe_of_reachable (Transition.reachable_of_permitted
    ⟨[], fun _ => .zeros 0, .prefer, false, by decide, rfl⟩ (by decide +kernel))

end ChunkStore

end SkipCell.Storage

import SkipCell.Storage.Device

/-! # What a failing call leaves of the store

A call that throws should leave the ids, the free lists, the counters and the other
chunks alone, and a write that returns should have stored the whole chunk. Both are
decided for every state and every device.
-/

namespace SkipCell.Storage.DiskManager

open Foundation Cache

namespace Stream

variable (stream : Stream)

theorem write_append (first second : List UInt8) :
    (stream.write first).write second = stream.write (first ++ second) := by
  obtain ⟨file, position, room, good⟩ := stream
  cases good with
  | false => rfl
  | true =>
    by_cases hfits : first.length ≤ room
    · simp only [write, if_true, List.take_of_length_le hfits, hfits, decide_true,
        ByteFile.store_store, List.take_append, List.length_append, List.length_take, mk.injEq,
        true_and, decide_eq_decide]
      omega
    · have hover : ¬ first.length + second.length ≤ room := by omega
      simp [write, hfits, hover, List.take_append_of_le_length (Nat.le_of_not_le hfits)]

theorem writeZeros_eq (remaining : Nat) :
    stream.writeZeros remaining = stream.write (List.replicate remaining 0) := by
  induction remaining using Nat.strongRecOn generalizing stream with
  | ind remaining ih =>
    rw [writeZeros]
    split
    next hzero =>
      subst hzero
      obtain ⟨file, position, room, good⟩ := stream
      cases good <;> simp [write, ByteFile.store]
    next hsome =>
      have hpage : 0 < zeroPageSize := by decide
      rw [ih _ (by omega), write_append, List.replicate_append_replicate]
      congr 2
      omega

end Stream

section Writes

variable {device : Device} {syncOnWrite : Bool} {file : ByteFile} {addr : PageAddr}
  {bytes : List UInt8}

def Device.Takes (device : Device) (syncOnWrite : Bool) (offset : Nat) (bytes : List UInt8) : Prop :=
  offset < 2 ^ 63 ∧ bytes.length ≤ device.room ∧ (syncOnWrite = true → device.syncs = true)

/-- What a write makes of the file: of the data and the zeros, what was taken is in its
place. The check sees the data only. -/
theorem Device.writeBytes_spec (hfits : bytes.length ≤ addr.size) :
    (device.writeBytes syncOnWrite file addr bytes).1 = file.store addr.offset
        ((bytes ++ List.replicate (addr.size - bytes.length) 0).take
          (if addr.offset < 2 ^ 63 then device.room else 0)) ∧
      ((device.writeBytes syncOnWrite file addr bytes).2 = .ok () ↔
        device.Takes syncOnWrite addr.offset bytes) := by
  unfold Device.writeBytes Device.Takes
  by_cases hseek : addr.offset < 2 ^ 63
  · by_cases hdata : bytes.length ≤ device.room
    · -- the data is taken; the zeros may not be
      have hfilled : ∀ stream : Stream, (if bytes.length < addr.size then
          (stream.write bytes).writeZeros (addr.size - bytes.length) else stream.write bytes) =
            stream.write (bytes ++ List.replicate (addr.size - bytes.length) 0) := by
        intro stream
        split
        next => rw [Stream.writeZeros_eq, Stream.write_append]
        next hfull =>
          have hnone : addr.size - bytes.length = 0 := by omega
          rw [hnone, List.replicate_zero, List.append_nil]
      simp only [hfilled, hseek, decide_true, true_and]
      cases syncOnWrite <;> cases device.syncs <;> simp [hdata, Stream.write]
    · have htaken : (bytes ++ List.replicate (addr.size - bytes.length) 0).take device.room =
          bytes.take device.room := List.take_append_of_le_length (Nat.le_of_not_le hdata)
      simp only [hseek, decide_true, true_and]
      simp [hdata, Stream.write, htaken]
  · simp only [hseek, decide_false, false_and]
    simp [ Stream.write, ByteFile.store]

theorem readUpTo_padded (file : ByteFile) (offset size : Nat) :
    readUpTo file offset size ++ List.replicate (size - (readUpTo file offset size).length) 0 =
      (List.range size).map fun index => file.seen (offset + index) := by
  have hlength : (readUpTo file offset size).length = min size (file.size - offset) := by
    rw [readUpTo, List.length_map, List.length_range]
  apply List.ext_getElem?
  intro index
  rw [hlength, List.getElem?_append, hlength, readUpTo]
  simp only [List.getElem?_map, List.getElem?_range, List.getElem?_replicate, ByteFile.seen]
  grind

end Writes

inductive StoreCall
  | allocateChunk (type : ChunkType)
  | deleteChunk (chunkId : ChunkId)
  | writeChunk (chunkId : ChunkId) (data : Option (List UInt8))
  | writeNewChunk (type : ChunkType) (data : Option (List UInt8))

/-- The call on the device, with the id of the chunk that is new. -/
def StoreCall.run (device : Device) (syncOnWrite : Bool) (state : State) :
    StoreCall → Call (Option ChunkId)
  | .allocateChunk type =>
    match device.allocateChunk state type with
    | (next, result) => (next, result.map some)
  | .deleteChunk chunkId =>
    match DiskManager.deleteChunk state chunkId with
    | (next, result) => (next, result.map fun _ => none)
  | .writeChunk chunkId data =>
    match device.writeChunk syncOnWrite state chunkId data with
    | (next, result) => (next, result.map fun _ => none)
  | .writeNewChunk type data =>
    match device.writeNewChunk syncOnWrite state type data with
    | (next, result) => (next, result.map some)

/-- The chunk that the call is about, whose own bytes it may change. -/
def StoreCall.own : StoreCall → Option ChunkId
  | .writeChunk chunkId _ => some chunkId
  | _ => none

/-- The ids, the free lists, the counters and the other chunks are as they were. -/
structure Kept (state next : State) (own : Option ChunkId) : Prop where
  live : ∀ chunkId, IsLive next chunkId ↔ IsLive state chunkId
  slots : next.slots = state.slots
  freeCounts : next.freeCounts = state.freeCounts
  contents : ∀ chunkId, IsLive state chunkId → some chunkId ≠ own →
    loadChunk next chunkId = loadChunk state chunkId

/-- The file of the chunk has the bytes in their place, and zeros behind them. -/
def Holds (state : State) (chunkId : ChunkId) (bytes : List UInt8) : Prop :=
  ∃ addr, decodeChunkId chunkId = .ok addr ∧
    (state.chunkFiles addr.type).read addr.offset addr.size =
      some (bytes ++ List.replicate (addr.size - bytes.length) 0)

/-- A write that returned has stored all of its chunk. -/
def StoreCall.Stored (outcome : Call (Option ChunkId)) : StoreCall → Prop
  | .writeChunk chunkId data =>
    ∀ bytes, data = some bytes → outcome.2 = .ok none → Holds outcome.1 chunkId bytes
  | .writeNewChunk _ data =>
    ∀ bytes chunkId, data = some bytes → outcome.2 = .ok (some chunkId) →
      Holds outcome.1 chunkId bytes
  | _ => True

/-- What the callers of the store may rely on when a call fails or returns. -/
structure Atomic (state : State) (call : StoreCall) (outcome : Call (Option ChunkId)) : Prop where
  throws : ∀ error, outcome.2 = .error error → Kept state outcome.1 call.own
  stores : call.Stored outcome

section Conditions

variable (device : Device) (syncOnWrite : Bool)

/-- The file takes another chunk, whose number fits an id. -/
def Device.Grows (state : State) (type : ChunkType) : Prop :=
  let requiredSize := ((state.slots type).count + 1) * chunkSize type % 2 ^ 64
  device.opens = true ∧ requiredSize < 2 ^ 63 ∧
    (requiredSize ≠ 0 ∧ device.fallocates = true ∨ device.truncates = true) ∧
    device.closes = true ∧ (state.slots type).count < 2 ^ kChunkNoBits

/-- The data is there, fits the chunk and is taken. -/
def Device.Writes (type : ChunkType) (no : Nat) (data : Option (List UInt8)) : Prop :=
  ∃ bytes, data = some bytes ∧ bytes.length ≤ chunkSize type ∧
    device.Takes syncOnWrite (no * chunkSize type) bytes

/-- The zeros are taken too, or those that are not are in the file already. -/
def Device.Fills (file : ByteFile) (type : ChunkType) (no : Nat) : Prop :=
  chunkSize type ≤ device.room ∨
    file.read (no * chunkSize type + device.room) (chunkSize type - device.room) =
      some (List.replicate (chunkSize type - device.room) 0)

/-- The chunk that `allocate_chunk` takes next. -/
def nextChunk (state : State) (type : ChunkType) : Nat := (state.slots type).take.1

def Device.nextFile (state : State) (type : ChunkType) : ByteFile :=
  if (state.slots type).free ≠ [] then state.chunkFiles type
  else (device.reserveFileSpace (state.chunkFiles type)
    (((state.slots type).count + 1) * chunkSize type % 2 ^ 64)).1

/-- A new chunk comes from the free list, or the file grows; a new chunk behind the others
is also written; and no write stops among its zeros. -/
def StoreCall.Spared (state : State) : StoreCall → Prop
  | .allocateChunk type => (state.slots type).free ≠ [] ∨ device.Grows state type
  | .deleteChunk _ => True
  | .writeChunk chunkId data =>
    ∀ type, chunkType chunkId = .ok type → IsLive state chunkId →
      device.Writes syncOnWrite type (chunkNo chunkId) data →
      device.Fills (state.chunkFiles type) type (chunkNo chunkId)
  | .writeNewChunk type data =>
    ((state.slots type).free ≠ [] ∨
      device.Grows state type ∧ device.Writes syncOnWrite type (nextChunk state type) data) ∧
    (device.Writes syncOnWrite type (nextChunk state type) data →
      device.Fills (device.nextFile state type) type (nextChunk state type))

end Conditions

section Contents

variable {state next : State} {type : ChunkType} {no : Nat} {chunkId : ChunkId}

theorem decodeChunkId_encodeId (hno : no < 2 ^ kChunkNoBits) :
    decodeChunkId (encodeId type no) =
      if no * chunkSize type < 2 ^ 64 then .ok ⟨type, no, no * chunkSize type, chunkSize type⟩
      else .error (.overflowError "chunk offset overflows uint64_t") := by
  have hoverflow : (2 ^ 64 - 1) / chunkSize type < no ↔ ¬ no * chunkSize type < 2 ^ 64 := by
    rw [Nat.div_lt_iff_lt_mul (chunkSize_pos type)]
    omega
  simp only [decodeChunkId, chunkType_encodeId hno, chunkNo_encodeId hno]
  by_cases hfits : no * chunkSize type < 2 ^ 64
  · rw [if_pos hfits]
    simp only [bind_ok, reject_ok]
    exact ⟨type, rfl, (), fun hlarge => hoverflow.mp hlarge hfits, rfl⟩
  · have hrejected : reject ((2 ^ 64 - 1) / chunkSize type < no)
        (Error.overflowError "chunk offset overflows uint64_t") = .error _ :=
      if_pos (hoverflow.mpr hfits)
    rw [if_neg hfits]
    change (reject _ _ >>= _) = _
    rw [hrejected]
    rfl

/-- The bytes that a reader of the chunk's range sees. -/
def seenChunk (files : ChunkType → ByteFile) (chunkId : ChunkId) : Except Error (List UInt8) :=
  (decodeChunkId chunkId).map fun addr =>
    (List.range addr.size).map fun index => (files addr.type).seen (addr.offset + index)

theorem loadChunk_of_live (hlive : IsLive state chunkId) :
    loadChunk state chunkId = seenChunk state.chunkFiles chunkId := by
  rw [loadChunk, validateChunkId_eq_ok.mpr hlive, seenChunk]
  cases decodeChunkId chunkId with
  | error error => rfl
  | ok addr => exact congrArg Except.ok (readUpTo_padded _ _ _)

variable {bytes : List UInt8}

theorem seenChunk_store (files : ChunkType → ByteFile) (hfits : bytes.length ≤ chunkSize type)
    (hother : chunkId ≠ encodeId type no) :
    seenChunk (Function.update files type ((files type).store (no * chunkSize type) bytes)) chunkId =
      seenChunk files chunkId := by
  obtain ⟨other, otherNo, hotherNo, rfl⟩ := exists_encodeId chunkId
  rw [seenChunk, seenChunk, decodeChunkId_encodeId hotherNo]
  split
  · refine congrArg Except.ok (List.map_congr_left fun index hindex => ?_)
    dsimp only at hindex ⊢
    have hinside := List.mem_range.mp hindex
    by_cases hsame : other = type
    · subst hsame
      have hapart : otherNo ≠ no := fun heq => hother (heq ▸ rfl)
      rw [Function.update_self]
      apply ByteFile.seen_store_of_disjoint
      have hranges : otherNo * chunkSize other + chunkSize other ≤ no * chunkSize other ∨
          no * chunkSize other + chunkSize other ≤ otherNo * chunkSize other :=
        FileConsistent.apart hapart
      omega
    · rw [Function.update_of_ne hsame]
  · rfl

/-! ## Writes to a chunk -/

variable (device : Device) (syncOnWrite : Bool)

theorem checkWrite_eq_ok (hno : no < 2 ^ kChunkNoBits) {addr : PageAddr} :
    checkWrite state (encodeId type no) bytes = .ok addr ↔
      IsLive state (encodeId type no) ∧ bytes.length ≤ chunkSize type ∧
        no * chunkSize type < 2 ^ 64 ∧
        addr = ⟨type, no, no * chunkSize type, chunkSize type⟩ := by
  simp only [checkWrite, bind_ok, reject_ok, decodeChunkId_encodeId hno, Nat.not_lt]
  constructor
  · rintro ⟨_, hvalid, found, hdecode, _, hfits, haddr⟩
    split at hdecode
    next hbound =>
      obtain rfl := Except.ok.inj hdecode
      exact ⟨validateChunkId_eq_ok.mp hvalid, hfits, hbound, (Except.ok.inj haddr).symm⟩
    next => cases hdecode
  · rintro ⟨hlive, hfits, hbound, rfl⟩
    exact ⟨(), validateChunkId_eq_ok.mpr hlive, _, if_pos hbound, (), hfits, rfl⟩

theorem Device.writeChunk_store (state : State) (type : ChunkType) (hno : no < 2 ^ kChunkNoBits)
    (data : Option (List UInt8)) :
    ∃ taken : List UInt8, taken.length ≤ chunkSize type ∧
      (device.writeChunk syncOnWrite state (encodeId type no) data).1 =
        { state with
          chunkFiles := Function.update state.chunkFiles type
            ((state.chunkFiles type).store (no * chunkSize type) taken) } ∧
      ((device.writeChunk syncOnWrite state (encodeId type no) data).2 = .ok () ↔
        IsLive state (encodeId type no) ∧ device.Writes syncOnWrite type no data) ∧
      ∀ bytes, data = some bytes → device.Writes syncOnWrite type no data →
        IsLive state (encodeId type no) →
        taken = (bytes ++ List.replicate (chunkSize type - bytes.length) 0).take device.room := by
  have hnothing : state = { state with
      chunkFiles := Function.update state.chunkFiles type
        ((state.chunkFiles type).store (no * chunkSize type) []) } := by
    rw [ByteFile.store, if_pos rfl, Function.update_eq_self]
  cases data with
  | none =>
    refine ⟨[], Nat.zero_le _, hnothing, ?_, by simp⟩
    simp [writeChunk, Device.Writes]
  | some bytes =>
    cases hcheck : checkWrite state (encodeId type no) bytes with
    | ok addr =>
      obtain ⟨hlive, hfits, -, rfl⟩ := (checkWrite_eq_ok hno).mp hcheck
      have hspec := @Device.writeBytes_spec device syncOnWrite (state.chunkFiles type)
        ⟨type, no, no * chunkSize type, chunkSize type⟩ bytes hfits
      simp only [writeChunk, hcheck]
      refine ⟨(bytes ++ List.replicate (chunkSize type - bytes.length) 0).take
        (if no * chunkSize type < 2 ^ 63 then device.room else 0), ?_, ?_, ?_, ?_⟩
      · rw [List.length_take, List.length_append, List.length_replicate]
        omega
      · rw [hspec.1]
      · rw [hspec.2]
        simp [hlive, Device.Writes, hfits]
      · intro other hother hwrites _
        obtain ⟨_, hsome, _, hoffset, -, -⟩ := hwrites
        obtain rfl := Option.some.inj hother
        rw [if_pos hoffset]
    | error error =>
      have hwrites : ¬ (IsLive state (encodeId type no) ∧
          device.Writes syncOnWrite type no (some bytes)) := by
        rintro ⟨hlive, _, hsome, hfits, hoffset, -, -⟩
        obtain rfl := Option.some.inj hsome
        have haccepted := (checkWrite_eq_ok hno).mpr
          ⟨hlive, hfits, hoffset.trans (by decide), rfl⟩
        cases hcheck.symm.trans haccepted
      simp only [writeChunk, hcheck]
      refine ⟨[], Nat.zero_le _, hnothing, ?_, ?_⟩
      · exact ⟨by simp, fun hboth => absurd hboth hwrites⟩
      · exact fun other _ htaken hlive => absurd ⟨hlive, htaken⟩ hwrites

theorem Device.writeChunk_kept (state : State) (chunkId : ChunkId) (data : Option (List UInt8)) :
    Kept state (device.writeChunk syncOnWrite state chunkId data).1 (some chunkId) := by
  obtain ⟨type, no, hno, rfl⟩ := exists_encodeId chunkId
  obtain ⟨taken, hfits, hnext, -, -⟩ := device.writeChunk_store syncOnWrite state type hno data
  rw [hnext]
  refine ⟨fun _ => Iff.rfl, rfl, rfl, fun other hlive hother => ?_⟩
  refine (loadChunk_of_live ?_).trans ?_
  · exact hlive
  · rw [loadChunk_of_live hlive]
    exact seenChunk_store _ hfits fun hsame => hother (congrArg some hsame)

theorem Device.writeChunk_holds_iff (state : State) (hno : no < 2 ^ kChunkNoBits)
    (hlive : IsLive state (encodeId type no))
    (hwrites : device.Writes syncOnWrite type no (some bytes)) :
    Holds (device.writeChunk syncOnWrite state (encodeId type no) (some bytes)).1
        (encodeId type no) bytes ↔
      device.Fills (state.chunkFiles type) type no := by
  obtain ⟨taken, -, hnext, -, htaken⟩ :=
    device.writeChunk_store syncOnWrite state type hno (some bytes)
  obtain ⟨_, hsome, hfits, hoffset, hroom, -⟩ := id hwrites
  obtain rfl := Option.some.inj hsome
  have hdecode : decodeChunkId (encodeId type no) =
      .ok ⟨type, no, no * chunkSize type, chunkSize type⟩ :=
    (decodeChunkId_encodeId hno).trans (if_pos (hoffset.trans (by decide)))
  have hlength : (bytes ++ List.replicate (chunkSize type - bytes.length) 0).length =
      chunkSize type := length_padded hfits
  rw [hnext, htaken bytes rfl hwrites hlive, Holds, hdecode]
  simp only [Except.ok.injEq, exists_eq_left', Function.update_self]
  rw [ByteFile.read_store_take_iff (chunkSize_pos type) hlength, Device.Fills,
    List.drop_append, List.drop_eq_nil_of_le hroom, List.nil_append, List.drop_replicate]
  have hrest : chunkSize type - bytes.length - (device.room - bytes.length) =
      chunkSize type - device.room := by omega
  rw [hrest]

end Contents

/-! ## Allocations -/

section Allocations

variable {state : State} {type : ChunkType} (device : Device)

/-- The numbers on the free lists fit an id. -/
def FreeFits (state : State) : Prop :=
  ∀ type, ∀ no ∈ (state.slots type).free, no < 2 ^ kChunkNoBits

theorem Device.allocateChunk_reused (hfits : FreeFits state) (hfree : (state.slots type).free ≠ []) :
    device.allocateChunk state type =
      ({ state with
          slots := Function.update state.slots type (state.slots type).take.2
          freeCounts := Function.update state.freeCounts type
            (state.slots type).take.2.free.length },
        .ok (encodeId type (nextChunk state type))) := by
  have hno := hfits type _ (SlotPool.take_mem hfree)
  simp only [allocateChunk, if_pos hfree, makeChunkId_ok hno]
  rfl

theorem makeChunkId_eq_ok {no : Nat} {chunkId : ChunkId} :
    makeChunkId type no = .ok chunkId ↔ no < 2 ^ kChunkNoBits ∧ chunkId = encodeId type no := by
  by_cases hno : no < 2 ^ kChunkNoBits
  · rw [makeChunkId_ok hno]
    simp [hno, eq_comm]
  · have hlarge : kChunkNoMask < no := by
      have hpositive : 0 < 2 ^ kChunkNoBits := Nat.two_pow_pos _
      rw [kChunkNoMask]
      omega
    rw [makeChunkId, Cache.makeChunkId, if_pos hlarge]
    simp [hno]

theorem Device.reserveFileSpace_eq_ok {file : ByteFile} {bytes : Nat} :
    (device.reserveFileSpace file bytes).2 = .ok () ↔
      device.opens = true ∧ bytes < 2 ^ 63 ∧
        (bytes ≠ 0 ∧ device.fallocates = true ∨ device.truncates = true) ∧
        device.closes = true := by
  obtain ⟨opens, fallocates, grown, truncates, closes, room, syncs⟩ := device
  unfold reserveFileSpace
  by_cases hlarge : 2 ^ 63 ≤ bytes
  · have hnot : ¬ bytes < 2 ^ 63 := Nat.not_lt.mpr hlarge
    cases opens <;> simp only [if_pos hlarge, hnot] <;> simp
  · have hsmall : bytes < 2 ^ 63 := Nat.not_le.mp hlarge
    simp only [if_neg hlarge, hsmall, true_and]
    cases opens <;> cases fallocates <;> cases truncates <;> cases closes <;>
      by_cases hzero : bytes = 0 <;> simp [hzero]

theorem Device.allocateChunk_grown (hfree : (state.slots type).free = []) :
    (device.allocateChunk state type).1 =
      { state with
        slots := Function.update state.slots type
          { state.slots type with count := (state.slots type).count + 1 }
        chunkFiles := Function.update state.chunkFiles type (device.nextFile state type) } ∧
    ∀ chunkId, (device.allocateChunk state type).2 = .ok chunkId ↔
      device.Grows state type ∧ chunkId = encodeId type (nextChunk state type) := by
  have hnone : ¬ (state.slots type).free ≠ [] := not_not.mpr hfree
  have hreserve := @Device.reserveFileSpace_eq_ok device (state.chunkFiles type)
    (((state.slots type).count + 1) * chunkSize type % 2 ^ 64)
  simp only [allocateChunk, SlotPool.take_of_nil hfree, if_neg hnone, Device.nextFile, nextChunk,
    Device.Grows]
  split
  next file error hfile =>
    rw [hfile] at hreserve
    refine ⟨rfl, fun chunkId => ⟨nofun, fun hgrows => ?_⟩⟩
    obtain ⟨⟨hopens, hsmall, hgrown, hcloses, -⟩, -⟩ := hgrows
    cases hreserve.mpr ⟨hopens, hsmall, hgrown, hcloses⟩
  next file hfile =>
    rw [hfile] at hreserve
    obtain ⟨hopens, hsmall, hgrown, hcloses⟩ := hreserve.mp rfl
    refine ⟨rfl, fun chunkId => makeChunkId_eq_ok.trans ?_⟩
    exact ⟨fun hid => ⟨⟨hopens, hsmall, hgrown, hcloses, hid.1⟩, hid.2⟩,
      fun hgrows => ⟨hgrows.1.2.2.2.2, hgrows.2⟩⟩

end Allocations

/-! ## Every call -/

section Calls

variable {state : State} (device : Device) (syncOnWrite : Bool)

theorem not_kept_of_count (type : ChunkType) {next : State} {own : Option ChunkId}
    (hcount : (next.slots type).count = (state.slots type).count + 1) : ¬ Kept state next own := by
  intro hkept
  rw [hkept.slots] at hcount
  omega

variable {type : ChunkType}

theorem deleteChunk_of_live {no : Nat} (hno : no < 2 ^ kChunkNoBits)
    (hlive : IsLive state (encodeId type no)) :
    deleteChunk state (encodeId type no) =
      ({ state with
          slots := Function.update state.slots type ((state.slots type).release no)
          freeCounts := Function.update state.freeCounts type
            ((state.slots type).release no).free.length }, .ok ()) := by
  simp only [deleteChunk, validateChunkId_eq_ok.mpr hlive, chunkType_encodeId hno,
    chunkNo_encodeId hno]
  rfl

theorem Kept.refl (state : State) (own : Option ChunkId) : Kept state state own :=
  ⟨fun _ => Iff.rfl, rfl, rfl, fun _ _ _ => rfl⟩

theorem allocateChunk_atomic_iff (hfits : FreeFits state) (type : ChunkType) :
    Atomic state (.allocateChunk type)
        ((StoreCall.allocateChunk type).run device syncOnWrite state) ↔
      (StoreCall.allocateChunk type).Spared device syncOnWrite state := by
  by_cases hfree : (state.slots type).free = []
  · obtain ⟨hnext, hresult⟩ := device.allocateChunk_grown hfree
    have hspared : (StoreCall.allocateChunk type).Spared device syncOnWrite state ↔
        device.Grows state type := or_iff_right (not_not.mpr hfree)
    rw [hspared]
    have hcount : ((device.allocateChunk state type).1.slots type).count =
        (state.slots type).count + 1 := by
      rw [hnext]
      simp
    simp only [StoreCall.run]
    cases hcall : (device.allocateChunk state type).2 with
    | ok chunkId =>
      have hgrows := ((hresult chunkId).mp hcall).1
      exact ⟨fun _ => hgrows, fun _ => ⟨fun _ => nofun, trivial⟩⟩
    | error error =>
      have hfails : ¬ device.Grows state type := fun hgrows => by
        cases hcall.symm.trans ((hresult _).mpr ⟨hgrows, rfl⟩)
      refine iff_of_false (fun hatomic => ?_) hfails
      exact not_kept_of_count type hcount (hatomic.throws error rfl)
  · have hspared : (StoreCall.allocateChunk type).Spared device syncOnWrite state := .inl hfree
    simp only [StoreCall.run, device.allocateChunk_reused hfits hfree, hspared, iff_true]
    exact ⟨fun _ => nofun, trivial⟩

theorem deleteChunk_atomic (state : State) (chunkId : ChunkId) :
    Atomic state (.deleteChunk chunkId)
      ((StoreCall.deleteChunk chunkId).run device syncOnWrite state) := by
  refine ⟨fun error herror => ?_, trivial⟩
  simp only [StoreCall.run] at herror ⊢
  by_cases hlive : IsLive state chunkId
  · obtain ⟨type, no, hno, rfl⟩ := exists_encodeId chunkId
    rw [deleteChunk_of_live hno hlive] at herror
    cases herror
  · obtain ⟨_, hcall⟩ := deleteChunk_rejects hlive
    rw [hcall]
    exact .refl state _

theorem writeChunk_atomic_iff (chunkId : ChunkId) (data : Option (List UInt8)) :
    Atomic state (.writeChunk chunkId data)
        ((StoreCall.writeChunk chunkId data).run device syncOnWrite state) ↔
      (StoreCall.writeChunk chunkId data).Spared device syncOnWrite state := by
  obtain ⟨type, no, hno, rfl⟩ := exists_encodeId chunkId
  have hkept := device.writeChunk_kept syncOnWrite state (encodeId type no) data
  obtain ⟨-, -, -, hresult, -⟩ := device.writeChunk_store syncOnWrite state type hno data
  have hok : ((StoreCall.writeChunk (encodeId type no) data).run device syncOnWrite state).2 =
      .ok none ↔ (device.writeChunk syncOnWrite state (encodeId type no) data).2 = .ok () := by
    simp only [StoreCall.run]
    cases (device.writeChunk syncOnWrite state (encodeId type no) data).2 <;> simp [Except.map]
  constructor
  · intro hatomic other htype hlive hwrites
    obtain rfl : type = other := Except.ok.inj ((chunkType_encodeId hno).symm.trans htype)
    rw [chunkNo_encodeId hno] at hwrites ⊢
    obtain ⟨bytes, rfl, -, -⟩ := id hwrites
    exact (device.writeChunk_holds_iff syncOnWrite state hno hlive hwrites).mp
      (hatomic.stores bytes rfl (hok.mpr (hresult.mpr ⟨hlive, hwrites⟩)))
  · intro hspared
    refine ⟨fun _ _ => hkept, ?_⟩
    rintro bytes rfl hreturns
    obtain ⟨hlive, hwrites⟩ := hresult.mp (hok.mp hreturns)
    have hfills := hspared type (chunkType_encodeId hno) hlive
    rw [chunkNo_encodeId hno] at hfills
    exact (device.writeChunk_holds_iff syncOnWrite state hno hlive hwrites).mpr (hfills hwrites)

section Allocated

variable {middle : State} {type : ChunkType} {no : Nat}
  (hallocate : device.allocateChunk state type = (middle, .ok (encodeId type no)))
  (hno : no < 2 ^ kChunkNoBits) (hlive : IsLive middle (encodeId type no))
  (data : Option (List UInt8))
include hallocate hno hlive

theorem writeNewChunk_written (hwrites : device.Writes syncOnWrite type no data) :
    Atomic state (.writeNewChunk type data)
        ((StoreCall.writeNewChunk type data).run device syncOnWrite state) ↔
      device.Fills (middle.chunkFiles type) type no := by
  obtain ⟨taken, -, hwritten, hreturns, -⟩ :=
    device.writeChunk_store syncOnWrite middle type hno data
  have hcalled : device.writeChunk syncOnWrite middle (encodeId type no) data = (_, .ok ()) :=
    Prod.ext rfl (hreturns.mpr ⟨hlive, hwrites⟩)
  obtain ⟨bytes, rfl, -, -⟩ := id hwrites
  simp only [StoreCall.run, Device.writeNewChunk, hallocate]
  rw [hcalled, ← device.writeChunk_holds_iff syncOnWrite middle hno hlive hwrites]
  constructor
  · exact fun hatomic => hatomic.stores bytes _ rfl rfl
  · intro hholds
    refine ⟨fun _ => nofun, fun other chunkId hother hid => ?_⟩
    obtain rfl := Option.some.inj hother
    obtain rfl := Option.some.inj (Except.ok.inj hid)
    exact hholds

theorem writeNewChunk_refused (hrefused : ¬ device.Writes syncOnWrite type no data) :
    ∃ next error, Kept middle next (some (encodeId type no)) ∧
      (StoreCall.writeNewChunk type data).run device syncOnWrite state =
        ({ next with
            slots := Function.update next.slots type ((next.slots type).release no)
            freeCounts := Function.update next.freeCounts type
              ((next.slots type).release no).free.length }, .error error) := by
  obtain ⟨taken, -, hwritten, hreturns, -⟩ :=
    device.writeChunk_store syncOnWrite middle type hno data
  have hkept := device.writeChunk_kept syncOnWrite middle (encodeId type no) data
  cases hwrite : (device.writeChunk syncOnWrite middle (encodeId type no) data).2 with
  | ok result => exact absurd (hreturns.mp hwrite).2 hrefused
  | error error =>
    have hcalled : device.writeChunk syncOnWrite middle (encodeId type no) data =
        (_, .error error) := Prod.ext rfl hwrite
    refine ⟨_, error, hkept, ?_⟩
    simp only [StoreCall.run, Device.writeNewChunk, hallocate]
    rw [hcalled]
    simp only [deleteChunk_of_live hno ((hkept.live _).mpr hlive)]
    rfl

end Allocated

theorem writeNewChunk_grown_atomic_iff (hfree : (state.slots type).free = [])
    (data : Option (List UInt8)) :
    Atomic state (.writeNewChunk type data)
        ((StoreCall.writeNewChunk type data).run device syncOnWrite state) ↔
      (StoreCall.writeNewChunk type data).Spared device syncOnWrite state := by
  obtain ⟨hnext, hresult⟩ := device.allocateChunk_grown hfree
  have hcount : ((device.allocateChunk state type).1.slots type).count =
      (state.slots type).count + 1 := by
    rw [hnext]
    simp
  have hfile : (device.allocateChunk state type).1.chunkFiles type = device.nextFile state type := by
    rw [hnext]
    simp
  have hspared : (StoreCall.writeNewChunk type data).Spared device syncOnWrite state ↔
      (device.Grows state type ∧ device.Writes syncOnWrite type (nextChunk state type) data) ∧
        (device.Writes syncOnWrite type (nextChunk state type) data →
          device.Fills (device.nextFile state type) type (nextChunk state type)) :=
    and_congr_left' (or_iff_right (not_not.mpr hfree))
  rw [hspared]
  generalize hmiddle : (device.allocateChunk state type).1 = middle at hnext hcount hfile
  cases hcall : (device.allocateChunk state type).2 with
  | error error =>
    have hallocate : device.allocateChunk state type = (middle, .error error) :=
      Prod.ext hmiddle hcall
    have hfails : ¬ device.Grows state type := fun hgrows => by
      cases hcall.symm.trans ((hresult _).mpr ⟨hgrows, rfl⟩)
    refine iff_of_false (fun hatomic => ?_) fun hboth => hfails hboth.1.1
    simp only [StoreCall.run, Device.writeNewChunk, hallocate] at hatomic
    exact not_kept_of_count type hcount (hatomic.throws error rfl)
  | ok chunkId =>
    obtain ⟨hgrows, rfl⟩ := (hresult _).mp hcall
    have hallocate : device.allocateChunk state type =
        (middle, .ok (encodeId type (nextChunk state type))) := Prod.ext hmiddle hcall
    have hno : nextChunk state type < 2 ^ kChunkNoBits := by
      rw [nextChunk, SlotPool.take_of_nil hfree]
      exact hgrows.2.2.2.2
    have hlive : IsLive middle (encodeId type (nextChunk state type)) := by
      rw [isLive_encodeId hno, hnext, nextChunk, SlotPool.take_of_nil hfree]
      simp [SlotPool.Live, hfree]
    by_cases hwrites : device.Writes syncOnWrite type (nextChunk state type) data
    · rw [writeNewChunk_written device syncOnWrite hallocate hno hlive data hwrites, hfile]
      exact ⟨fun hfills => ⟨⟨hgrows, hwrites⟩, fun _ => hfills⟩, fun hboth => hboth.2 hwrites⟩
    · obtain ⟨next, error, hkept, hrun⟩ :=
        writeNewChunk_refused device syncOnWrite hallocate hno hlive data hwrites
      refine iff_of_false (fun hatomic => ?_) fun hboth => hwrites hboth.1.2
      rw [hrun] at hatomic
      refine not_kept_of_count type ?_ (hatomic.throws error rfl)
      dsimp only
      rw [Function.update_self, hkept.slots]
      exact hcount

/-- A reused chunk that could not be written goes back to its place on the free list. -/
theorem Kept.takenBack (hpooled : Pooled state) {middle next : State}
    (hfree : (state.slots type).free ≠ []) (hno : nextChunk state type < 2 ^ kChunkNoBits)
    (hslots : middle.slots = Function.update state.slots type (state.slots type).take.2)
    (hcounts : middle.freeCounts = Function.update state.freeCounts type
      (state.slots type).take.2.free.length) (hfiles : middle.chunkFiles = state.chunkFiles)
    (hkept : Kept middle next (some (encodeId type (nextChunk state type)))) :
    Kept state { next with
      slots := Function.update next.slots type
        ((next.slots type).release (nextChunk state type))
      freeCounts := Function.update next.freeCounts type
        ((next.slots type).release (nextChunk state type)).free.length } none := by
  have hback : Function.update next.slots type
      ((next.slots type).release (nextChunk state type)) = state.slots := by
    rw [hkept.slots, hslots, Function.update_idem, Function.update_self, nextChunk,
      SlotPool.release_take hfree, Function.update_eq_self]
  have hcounted : Function.update next.freeCounts type
      ((next.slots type).release (nextChunk state type)).free.length = state.freeCounts := by
    rw [hkept.freeCounts, hcounts, Function.update_idem, hkept.slots, hslots,
      Function.update_self, nextChunk, SlotPool.release_take hfree, ← (hpooled type).counted,
      Function.update_eq_self]
  have hlive : ∀ other, IsLive { next with
      slots := Function.update next.slots type
        ((next.slots type).release (nextChunk state type))
      freeCounts := Function.update next.freeCounts type
        ((next.slots type).release (nextChunk state type)).free.length } other ↔
      IsLive state other := by
    intro other
    simp only [IsLive, hback]
  refine ⟨hlive, hback, hcounted, fun other hother _ => ?_⟩
  have hadded : IsLive middle other ↔
      other = encodeId type (nextChunk state type) ∨ IsLive state other := by
    apply isLive_changed Or (by simp) hno
    · intro otherType hne
      rw [hslots, Function.update_of_ne hne]
    · intro slot
      rw [hslots, Function.update_self]
      exact (hpooled type).valid.live_take
  have hapart : some other ≠ some (encodeId type (nextChunk state type)) := by
    intro hsame
    rw [Option.some.inj hsame, isLive_encodeId hno] at hother
    exact SlotPool.take_not_live _ hother
  have hmiddle : IsLive middle other := hadded.mpr (.inr hother)
  have hsame := hkept.contents other hmiddle hapart
  rw [loadChunk_of_live ((hkept.live other).mpr hmiddle), loadChunk_of_live hmiddle, hfiles]
    at hsame
  refine (loadChunk_of_live ?_).trans ?_
  · exact (hlive other).mpr hother
  · rw [loadChunk_of_live hother]
    exact hsame

theorem writeNewChunk_reused_atomic_iff (hpooled : Pooled state) (hfits : FreeFits state)
    (hfree : (state.slots type).free ≠ []) (data : Option (List UInt8)) :
    Atomic state (.writeNewChunk type data)
        ((StoreCall.writeNewChunk type data).run device syncOnWrite state) ↔
      (StoreCall.writeNewChunk type data).Spared device syncOnWrite state := by
  have hno : nextChunk state type < 2 ^ kChunkNoBits := hfits type _ (SlotPool.take_mem hfree)
  have hspared : (StoreCall.writeNewChunk type data).Spared device syncOnWrite state ↔
      (device.Writes syncOnWrite type (nextChunk state type) data →
        device.Fills (state.chunkFiles type) type (nextChunk state type)) := by
    simp only [StoreCall.Spared, hfree, ne_eq, not_false_eq_true, true_or, true_and,
      Device.nextFile, if_true]
  have hallocate := device.allocateChunk_reused hfits hfree
  generalize hmiddle : { state with
      slots := Function.update state.slots type (state.slots type).take.2
      freeCounts := Function.update state.freeCounts type
        (state.slots type).take.2.free.length } = middle at hallocate
  have hlive : IsLive middle (encodeId type (nextChunk state type)) := by
    rw [isLive_encodeId hno, ← hmiddle]
    simp only [Function.update_self]
    exact (hpooled type).valid.live_take.mpr (.inl rfl)
  have hfile : middle.chunkFiles = state.chunkFiles := hmiddle ▸ rfl
  rw [hspared]
  by_cases hwrites : device.Writes syncOnWrite type (nextChunk state type) data
  · rw [writeNewChunk_written device syncOnWrite hallocate hno hlive data hwrites, hfile]
    exact ⟨fun hfills _ => hfills, fun hspares => hspares hwrites⟩
  · obtain ⟨next, error, hkept, hrun⟩ :=
      writeNewChunk_refused device syncOnWrite hallocate hno hlive data hwrites
    refine iff_of_true ?_ fun hwritten => absurd hwritten hwrites
    rw [hrun]
    refine ⟨fun _ _ => ?_, fun _ _ _ => nofun⟩
    exact hkept.takenBack hpooled hfree hno (hmiddle ▸ rfl) (hmiddle ▸ rfl) hfile

theorem StoreCall.kept_iff (hpooled : Pooled state) (hfits : FreeFits state) (call : StoreCall) :
    Atomic state call (call.run device syncOnWrite state) ↔
      call.Spared device syncOnWrite state := by
  cases call with
  | allocateChunk type => exact allocateChunk_atomic_iff device syncOnWrite hfits type
  | deleteChunk chunkId =>
    exact iff_of_true (deleteChunk_atomic device syncOnWrite state chunkId) trivial
  | writeChunk chunkId data => exact writeChunk_atomic_iff device syncOnWrite chunkId data
  | writeNewChunk type data =>
    by_cases hfree : (state.slots type).free = []
    · exact writeNewChunk_grown_atomic_iff device syncOnWrite hfree data
    · exact writeNewChunk_reused_atomic_iff device syncOnWrite hpooled hfits hfree data

end Calls

/-! ## Runs on a device that refuses -/

section Runs

variable {state : State}

/-- The pools are sound, and what is on a free list can be handed out. -/
structure Sound (state : State) : Prop where
  pooled : Pooled state
  freeFits : FreeFits state

section

variable (hstate : Sound state)
include hstate

theorem Sound.of_one {next : State} (type : ChunkType)
    (hslots : ∀ other, other ≠ type → next.slots other = state.slots other)
    (hcounts : ∀ other, other ≠ type → next.freeCounts other = state.freeCounts other)
    (hone : PoolConsistent (next.slots type) (next.freeCounts type))
    (hfits : ∀ no ∈ (next.slots type).free, no < 2 ^ kChunkNoBits) : Sound next := by
  constructor
  · intro other
    by_cases hsame : other = type
    · exact hsame ▸ hone
    · rw [hslots other hsame, hcounts other hsame]
      exact hstate.pooled other
  · intro other
    by_cases hsame : other = type
    · exact hsame ▸ hfits
    · rw [hslots other hsame]
      exact hstate.freeFits other

theorem Sound.of_same {next : State} (hslots : next.slots = state.slots)
    (hcounts : next.freeCounts = state.freeCounts) : Sound next := by
  constructor
  · intro type
    rw [hslots, hcounts]
    exact hstate.pooled type
  · intro type
    rw [hslots]
    exact hstate.freeFits type

theorem Sound.allocateChunk (device : Device) {type : ChunkType}
    (hcount : (state.slots type).count + 1 < 2 ^ 64) :
    Sound (device.allocateChunk state type).1 := by
  by_cases hfree : (state.slots type).free = []
  · rw [(device.allocateChunk_grown hfree).1]
    apply hstate.of_one type
    · exact fun other hother => Function.update_of_ne hother _ _
    · exact fun _ _ => rfl
    · simp only [Function.update_self]
      have hone := hstate.pooled type
      exact ⟨⟨hone.valid.nodup, fun slot hslot => (hone.valid.lt slot hslot).trans (Nat.lt_succ_self _)⟩,
        hone.counted, hcount⟩
    · simp only [Function.update_self]
      exact hstate.freeFits type
  · rw [device.allocateChunk_reused hstate.freeFits hfree]
    have hone := hstate.pooled type
    apply hstate.of_one type
    · exact fun other hother => Function.update_of_ne hother _ _
    · exact fun other hother => Function.update_of_ne hother _ _
    · simp only [Function.update_self]
      exact ⟨hone.valid.take, rfl, SlotPool.take_count hfree ▸ hone.count_lt⟩
    · simp only [Function.update_self]
      intro no hno
      have hback := SlotPool.release_take hfree
      apply hstate.freeFits type
      rw [← hback]
      exact List.mem_append_left _ hno

theorem Sound.deleteChunk (chunkId : ChunkId) :
    Sound (DiskManager.deleteChunk state chunkId).1 := by
  by_cases hlive : IsLive state chunkId
  · obtain ⟨type, no, hno, rfl⟩ := exists_encodeId chunkId
    have hslot := (isLive_encodeId hno).mp hlive
    have hone := hstate.pooled type
    rw [deleteChunk_of_live hno hlive]
    apply hstate.of_one type
    · exact fun other hother => Function.update_of_ne hother _ _
    · exact fun other hother => Function.update_of_ne hother _ _
    · simp only [Function.update_self]
      exact ⟨hone.valid.release hslot, rfl, hone.count_lt⟩
    · simp only [Function.update_self]
      intro other hother
      rcases List.mem_append.mp hother with hfree | hlast
      · exact hstate.freeFits type other hfree
      · exact List.mem_singleton.mp hlast ▸ hno
  · obtain ⟨_, hcall⟩ := deleteChunk_rejects hlive
    rw [hcall]
    exact hstate

theorem Sound.writeNewChunk (device : Device) (syncOnWrite : Bool) {type : ChunkType}
    (hcount : (state.slots type).count + 1 < 2 ^ 64) (data : Option (List UInt8)) :
    Sound (device.writeNewChunk syncOnWrite state type data).1 := by
  have hallocated := hstate.allocateChunk device hcount
  unfold Device.writeNewChunk
  split
  next middle error hcall =>
    rw [hcall] at hallocated
    exact hallocated
  next middle chunkId hcall =>
    rw [hcall] at hallocated
    have hkept := device.writeChunk_kept syncOnWrite middle chunkId data
    have hwritten := Sound.of_same hallocated hkept.slots hkept.freeCounts
    split
    next next hwrite =>
      rw [hwrite] at hwritten
      exact hwritten
    next next error hwrite =>
      rw [hwrite] at hwritten
      have hdeleted := hwritten.deleteChunk chunkId
      split <;> rename_i hdelete <;> rw [hdelete] at hdeleted <;> exact hdeleted

theorem Sound.run (device : Device) (syncOnWrite : Bool)
    (hcounts : ∀ type, (state.slots type).count + 1 < 2 ^ 64) (call : StoreCall) :
    Sound (call.run device syncOnWrite state).1 := by
  cases call with
  | allocateChunk type => exact hstate.allocateChunk device (hcounts type)
  | deleteChunk chunkId => exact hstate.deleteChunk chunkId
  | writeChunk chunkId data =>
    have hkept := device.writeChunk_kept syncOnWrite state chunkId data
    exact hstate.of_same hkept.slots hkept.freeCounts
  | writeNewChunk type data => exact hstate.writeNewChunk device syncOnWrite (hcounts type) data

end

inductive StoreStep
  | call (device : Device) (syncOnWrite : Bool) (made : StoreCall)
  | flushMeta
  | reopen (policy : HugePagePolicy) (available : Bool)

def StoreStep.next (state : State) : StoreStep → State
  | .call device syncOnWrite made => (made.run device syncOnWrite state).1
  | .flushMeta => DiskManager.flushMeta state
  | .reopen policy available => (DiskManager.reopen state policy available).1

/-- A store that is opened for the first time, whatever its chunk files hold. -/
def OpenedFirst (state : State) : Prop :=
  ∃ metaFile chunkFiles policy available, metaFile.length < metaSize ∧
    state = (openFiles metaFile chunkFiles policy available).1

/-- No counter of 64 bits comes to its end. -/
def CountersFit (state : State) (_ : StoreStep) : Prop :=
  ∀ type, (state.slots type).count + 1 < 2 ^ 64

/-- The store over calls that may fail in every way; closing and opening succeed. -/
def refusing : Transition State StoreStep := .guarded OpenedFirst CountersFit StoreStep.next

theorem Sound.openedFirst (hopened : OpenedFirst state) : Sound state := by
  obtain ⟨metaFile, chunkFiles, policy, available, hshort, rfl⟩ := hopened
  have hstore := ChunkStore.Accounted.opened ⟨metaFile, chunkFiles, policy, available, hshort, rfl⟩
  refine ⟨hstore.consistent.pooled, fun type no hno => ?_⟩
  have hone := hstore.consistent type
  exact hone.fitsId (hone.valid.lt no hno).le

theorem sound_of_reachable (hreach : refusing.Reachable state) : Sound state := by
  apply hreach.invariant
  · exact fun _ hopened => .openedFirst hopened
  · rintro state step next hstate ⟨hcounts, rfl⟩
    cases step with
    | call device syncOnWrite call => exact hstate.run device syncOnWrite hcounts call
    | flushMeta =>
      have hsame := sameChunks_flushMeta hstate.pooled
      exact hstate.of_same hsame.slots hsame.freeCounts
    | reopen policy available =>
      have hsame := sameChunks_reopen hstate.pooled policy available
      exact hstate.of_same hsame.slots hsame.freeCounts

/-- In a store that was reached over failing calls too, a call is atomic, and a write
complete, exactly if it is spared. -/
theorem atomic_iff_spared (hreach : refusing.Reachable state) (device : Device)
    (syncOnWrite : Bool) (call : StoreCall) :
    Atomic state call (call.run device syncOnWrite state) ↔ call.Spared device syncOnWrite state :=
  call.kept_iff device syncOnWrite (sound_of_reachable hreach).pooled
    (sound_of_reachable hreach).freeFits

/-- A new store on chunk files that are left over, one chunk of sevens each. -/
def leftOver : State := (openFiles [] (fun _ => ⟨4096, fun _ => 7⟩) .prefer false).1

def twoBytes : Device := ⟨true, true, 0, true, true, 2, true⟩

theorem atomic_iff_spared_twoBytes :
    Atomic leftOver (.writeNewChunk .chunk4kb (some [1]))
        ((StoreCall.writeNewChunk .chunk4kb (some [1])).run twoBytes false leftOver) ↔
      (StoreCall.writeNewChunk .chunk4kb (some [1])).Spared twoBytes false leftOver :=
  atomic_iff_spared (.of_initial ⟨[], fun _ => ⟨4096, fun _ => 7⟩, .prefer, false, by decide, rfl⟩)
    twoBytes false _

/-- A file that cannot be opened leaves the counter raised, and a chunk whose zeros are
refused is returned with the old bytes. -/
theorem onDevice_refuted : refusing.Reachable leftOver ∧
    ¬ Atomic leftOver (.allocateChunk .chunk4kb)
      ((StoreCall.allocateChunk .chunk4kb).run { twoBytes with opens := false } false leftOver) ∧
    ¬ Atomic leftOver (.writeNewChunk .chunk4kb (some [1]))
      ((StoreCall.writeNewChunk .chunk4kb (some [1])).run twoBytes false leftOver) := by
  have hopened : OpenedFirst leftOver :=
    ⟨[], fun _ => ⟨4096, fun _ => 7⟩, .prefer, false, by decide, rfl⟩
  have hsound := Sound.openedFirst hopened
  refine ⟨.of_initial hopened, ?_, ?_⟩
  · rw [StoreCall.kept_iff _ _ hsound.pooled hsound.freeFits]
    rintro (hfree | ⟨hopens, -⟩)
    · exact hfree rfl
    · cases hopens
  · rw [StoreCall.kept_iff _ _ hsound.pooled hsound.freeFits]
    rintro ⟨-, hfills⟩
    have hwrites : twoBytes.Writes false .chunk4kb (nextChunk leftOver .chunk4kb) (some [1]) :=
      ⟨[1], rfl, by decide, by decide, by decide, nofun⟩
    rcases hfills hwrites with hroom | hread
    · exact absurd hroom (by decide)
    · have hbyte := (ByteFile.read_eq_some.mp hread).2.2 0 (by decide)
      rw [List.getElem?_replicate] at hbyte
      exact absurd hbyte (by decide)

end Runs

end SkipCell.Storage.DiskManager

import SkipCell.Foundation.ByteCodec
import SkipCell.Foundation.Checks
import SkipCell.Foundation.Subspan

/-! # Two byte sequences read in step

Two files are compared without holding either in memory: pieces of both are read, hashed and
compared, until a number of records or of bytes has passed.
-/

namespace Foundation

variable {Failure : Type}

/-- What is left of two byte sequences, and the hashes of what was read. -/
structure PairedStreams where
  left : List UInt8
  right : List UInt8
  leftHash : UInt64
  rightHash : UInt64

namespace PairedStreams

/-- The streams behind so many bytes of each. -/
def advance (streams : PairedStreams) (leftBytes rightBytes : Nat) : PairedStreams where
  left := streams.left.drop leftBytes
  right := streams.right.drop rightBytes
  leftHash := fnvBytes streams.leftHash (streams.left.take leftBytes)
  rightHash := fnvBytes streams.rightHash (streams.right.take rightBytes)

/-- A piece of each sequence. -/
def read (truncated : Failure) (leftBytes rightBytes : Nat) (streams : PairedStreams) :
    Except Failure ((List UInt8 × List UInt8) × PairedStreams) :=
  if streams.left.length < leftBytes ∨ streams.right.length < rightBytes then .error truncated
  else
    .ok ((streams.left.take leftBytes, streams.right.take rightBytes),
      streams.advance leftBytes rightBytes)

/-- Reads records of both sequences, and rejects the first two that differ. -/
def compareRecords (truncated different : Failure) (leftBytes rightBytes : Nat)
    (same : List UInt8 → List UInt8 → Bool) :
    Nat → PairedStreams → Except Failure PairedStreams
  | 0, streams => .ok streams
  | count + 1, streams => do
    let ((left, right), streams) ← streams.read truncated leftBytes rightBytes
    reject (same left right = false) different
    compareRecords truncated different leftBytes rightBytes same count streams

/-- Compares `remaining` bytes, no more than a buffer of them at a time. -/
def compareBytes (truncated different : Failure) (buffer : Nat) (hbuffer : 0 < buffer)
    (remaining : Nat) (streams : PairedStreams) : Except Failure PairedStreams :=
  if remaining = 0 then .ok streams
  else do
    let count := min remaining buffer
    let ((left, right), streams) ← streams.read truncated count count
    reject (left ≠ right) different
    compareBytes truncated different buffer hbuffer (remaining - count) streams
termination_by remaining

variable {streams last : PairedStreams} {truncated different : Failure}
  {leftBytes rightBytes : Nat}

@[simp]
theorem advance_zero (streams : PairedStreams) : streams.advance 0 0 = streams := rfl

theorem advance_advance (streams : PairedStreams) (leftFirst rightFirst leftMore rightMore : Nat) :
    (streams.advance leftFirst rightFirst).advance leftMore rightMore =
      streams.advance (leftFirst + leftMore) (rightFirst + rightMore) := by
  simp only [advance, List.take_add, fnvBytes_append, List.drop_drop]

theorem read_eq_ok {pair : List UInt8 × List UInt8} :
    streams.read truncated leftBytes rightBytes = .ok (pair, last) ↔
      leftBytes ≤ streams.left.length ∧ rightBytes ≤ streams.right.length ∧
      pair = (streams.left.take leftBytes, streams.right.take rightBytes) ∧
      last = streams.advance leftBytes rightBytes := by
  unfold read
  split
  next hshort =>
    constructor
    · nofun
    · rintro ⟨hleft, hright, -⟩
      exact absurd hshort (not_or.mpr ⟨Nat.not_lt.mpr hleft, Nat.not_lt.mpr hright⟩)
  next hlong =>
    rw [not_or, Nat.not_lt, Nat.not_lt] at hlong
    rw [Except.ok.injEq, Prod.mk.injEq]
    constructor
    · rintro ⟨rfl, rfl⟩
      exact ⟨hlong.1, hlong.2, rfl, rfl⟩
    · rintro ⟨-, -, rfl, rfl⟩
      exact ⟨rfl, rfl⟩

theorem compareRecords_eq_ok {same : List UInt8 → List UInt8 → Bool} {count : Nat} :
    compareRecords truncated different leftBytes rightBytes same count streams = .ok last ↔
      count * leftBytes ≤ streams.left.length ∧ count * rightBytes ≤ streams.right.length ∧
      (∀ record < count, same (subspan streams.left (record * leftBytes) leftBytes)
        (subspan streams.right (record * rightBytes) rightBytes) = true) ∧
      last = streams.advance (count * leftBytes) (count * rightBytes) := by
  induction count generalizing streams with
  | zero =>
    rw [compareRecords, Except.ok.injEq, eq_comm]
    simp
  | succ count ih =>
    simp only [compareRecords, bind_ok, Prod.exists, read_eq_ok, reject_ok,
      Bool.not_eq_false, ih, exists_const]
    have hshift : ∀ (bytes : List UInt8) (width record : Nat),
        subspan (bytes.drop width) (record * width) width =
          subspan bytes ((record + 1) * width) width := by
      intro bytes width record
      rw [subspan, subspan, List.drop_drop, Nat.succ_mul, Nat.add_comm]
    have hfirst : ∀ (bytes : List UInt8) (width : Nat),
        subspan bytes (0 * width) width = bytes.take width := by
      intro bytes width
      rw [Nat.zero_mul, subspan, List.drop_zero]
    constructor
    · rintro ⟨left, right, middle, ⟨hleft, hright, hpair, rfl⟩, hsame, hmoreLeft, hmoreRight,
        hrecords, rfl⟩
      obtain ⟨rfl, rfl⟩ := Prod.mk.inj hpair
      simp only [advance, List.length_drop] at hmoreLeft hmoreRight hrecords
      refine ⟨?_, ?_, ?_, ?_⟩
      · rw [Nat.succ_mul]
        omega
      · rw [Nat.succ_mul]
        omega
      · intro record hrecord
        cases record with
        | zero => rwa [hfirst, hfirst]
        | succ record =>
          rw [← hshift, ← hshift]
          exact hrecords record (Nat.lt_of_succ_lt_succ hrecord)
      · rw [advance_advance, Nat.succ_mul, Nat.succ_mul, Nat.add_comm leftBytes,
          Nat.add_comm rightBytes]
    · rintro ⟨hleft, hright, hrecords, rfl⟩
      rw [Nat.succ_mul] at hleft hright
      refine ⟨_, _, _, ⟨by omega, by omega, rfl, rfl⟩, ?_, ?_, ?_, ?_, ?_⟩
      · have hhead := hrecords 0 (Nat.succ_pos count)
        rwa [hfirst, hfirst] at hhead
      · rw [advance, List.length_drop]
        omega
      · rw [advance, List.length_drop]
        omega
      · intro record hrecord
        rw [advance, hshift, hshift]
        exact hrecords (record + 1) (Nat.succ_lt_succ hrecord)
      · rw [advance_advance, Nat.succ_mul, Nat.succ_mul, Nat.add_comm leftBytes,
          Nat.add_comm rightBytes]

theorem compareBytes_eq_ok {buffer remaining : Nat} {hbuffer : 0 < buffer} :
    compareBytes truncated different buffer hbuffer remaining streams = .ok last ↔
      remaining ≤ streams.left.length ∧ remaining ≤ streams.right.length ∧
      streams.left.take remaining = streams.right.take remaining ∧
      last = streams.advance remaining remaining := by
  induction remaining using Nat.strongRecOn generalizing streams with
  | ind remaining ih =>
    rw [compareBytes]
    split
    next hzero =>
      subst hzero
      rw [Except.ok.injEq, eq_comm]
      simp
    next hmore =>
      obtain ⟨rest, hrest⟩ : ∃ rest, remaining = min remaining buffer + rest :=
        ⟨remaining - min remaining buffer, by omega⟩
      have hbehind : remaining - min remaining buffer = rest := by omega
      have hsmaller : rest < remaining := by omega
      simp only [hbehind, bind_ok, Prod.exists, read_eq_ok, reject_ok, not_not,
        ih rest hsmaller, exists_const]
      generalize min remaining buffer = count at hrest
      subst hrest
      constructor
      · rintro ⟨left, right, middle, ⟨hleft, hright, hpair, rfl⟩, hsame, hmoreLeft, hmoreRight,
          hbytes, rfl⟩
        obtain ⟨rfl, rfl⟩ := Prod.mk.inj hpair
        simp only [advance, List.length_drop] at hmoreLeft hmoreRight hbytes
        refine ⟨by omega, by omega, ?_, advance_advance _ _ _ _ _⟩
        rw [List.take_add, List.take_add, hsame, hbytes]
      · rintro ⟨hleft, hright, hbytes, rfl⟩
        have hhead := congrArg (List.take count) hbytes
        rw [List.take_take, List.take_take, Nat.min_eq_left (Nat.le_add_right _ _)] at hhead
        rw [List.take_add, List.take_add, hhead] at hbytes
        refine ⟨_, _, _, ⟨by omega, by omega, rfl, rfl⟩, hhead, ?_, ?_,
          List.append_cancel_left hbytes, (advance_advance _ _ _ _ _).symm⟩
        · rw [advance, List.length_drop]
          omega
        · rw [advance, List.length_drop]
          omega

end PairedStreams

end Foundation

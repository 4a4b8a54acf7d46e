import Mathlib

/-! # Byte files with positioned reads and writes

A file is a size and its bytes. A read of a range that does not lie in the file
fails; a write past the end leaves zero bytes in the gap.
-/

namespace Foundation

structure ByteFile where
  size : Nat
  byteAt : Nat → UInt8

namespace ByteFile

def zeros (size : Nat) : ByteFile := ⟨size, fun _ => 0⟩

def contents (file : ByteFile) : List UInt8 := (List.range file.size).map file.byteAt

/-- The bytes of a range, which must lie in the file. -/
def read (file : ByteFile) (offset count : Nat) : Option (List UInt8) :=
  if offset + count ≤ file.size then
    some ((List.range count).map fun index => file.byteAt (offset + index))
  else
    none

def write (file : ByteFile) (offset : Nat) (bytes : List UInt8) : ByteFile where
  size := max file.size (offset + bytes.length)
  byteAt position :=
    if offset ≤ position ∧ position < offset + bytes.length then bytes.getD (position - offset) 0
    else if position < file.size then file.byteAt position
    else 0

/-- What a write that takes these bytes leaves: a write of nothing does not grow the file. -/
def store (file : ByteFile) (offset : Nat) (bytes : List UInt8) : ByteFile :=
  if bytes = [] then file else file.write offset bytes

/-- The byte that a reader sees at a position, zero behind the end. -/
def seen (file : ByteFile) (position : Nat) : UInt8 :=
  if position < file.size then file.byteAt position else 0

variable {file : ByteFile} {offset count : Nat} {bytes : List UInt8}

@[ext]
theorem ext {first second : ByteFile} (hsize : first.size = second.size)
    (hbyte : ∀ position, first.byteAt position = second.byteAt position) : first = second := by
  cases first
  cases second
  obtain rfl : _ = _ := hsize
  obtain rfl : _ = _ := funext hbyte
  rfl

theorem read_eq_some : file.read offset count = some bytes ↔
    offset + count ≤ file.size ∧ bytes.length = count ∧
      ∀ index < count, bytes[index]? = some (file.byteAt (offset + index)) := by
  unfold read
  constructor
  · intro hread
    split at hread
    · next hfits =>
        obtain rfl := Option.some.inj hread
        refine ⟨hfits, by simp, fun index hindex => ?_⟩
        simp [hindex]
    · cases hread
  · rintro ⟨hfits, hlength, hbytes⟩
    rw [if_pos hfits]
    refine congrArg some (List.ext_getElem? fun index => ?_)
    by_cases hindex : index < count
    · rw [hbytes index hindex]
      simp [hindex]
    · rw [List.getElem?_eq_none (by simpa using hindex), List.getElem?_eq_none (by omega)]

theorem length_of_read (hread : file.read offset count = some bytes) : bytes.length = count :=
  (read_eq_some.mp hread).2.1

@[simp]
theorem length_contents (file : ByteFile) : file.contents.length = file.size := by
  simp [contents]

theorem read_contents (file : ByteFile) : file.read 0 file.size = some file.contents := by
  simp [read, contents]

theorem read_write_self (file : ByteFile) (offset : Nat) (bytes : List UInt8) :
    (file.write offset bytes).read offset bytes.length = some bytes := by
  refine read_eq_some.mpr ⟨Nat.le_max_right _ _, rfl, fun index hindex => ?_⟩
  have hinside : offset ≤ offset + index ∧ offset + index < offset + bytes.length := by omega
  simp only [write, if_pos hinside, Nat.add_sub_cancel_left, List.getD_eq_getElem?_getD]
  rw [List.getElem?_eq_getElem hindex, Option.getD_some]

theorem read_write_of_disjoint (hread : file.read offset count = some bytes) {position : Nat}
    {written : List UInt8}
    (hapart : offset + count ≤ position ∨ position + written.length ≤ offset) :
    (file.write position written).read offset count = some bytes := by
  obtain ⟨hfits, hlength, hbytes⟩ := read_eq_some.mp hread
  refine read_eq_some.mpr ⟨hfits.trans (Nat.le_max_left _ _), hlength, fun index hindex => ?_⟩
  have houtside : ¬ (position ≤ offset + index ∧ offset + index < position + written.length) := by
    omega
  have hinside : offset + index < file.size := by omega
  simp only [write, if_neg houtside, if_pos hinside, hbytes index hindex]

theorem write_write (file : ByteFile) (offset : Nat) (first second : List UInt8) :
    (file.write offset first).write (offset + first.length) second =
      file.write offset (first ++ second) := by
  refine ext ?_ fun position => ?_
  · simp only [write, List.length_append]
    omega
  · simp only [write, List.length_append, List.getD_eq_getElem?_getD, List.getElem?_append]
    grind

theorem store_store (file : ByteFile) (offset : Nat) (first second : List UInt8) :
    (file.store offset first).store (offset + first.length) second =
      file.store offset (first ++ second) := by
  by_cases hfirst : first = []
  · subst hfirst
    rfl
  · by_cases hsecond : second = []
    · subst hsecond
      rw [List.append_nil]
      rfl
    · simp only [store, if_neg hsecond, List.append_eq_nil_iff, hfirst, false_and, if_false,
        write_write]

theorem seen_store_of_disjoint (file : ByteFile) {offset position : Nat} {bytes : List UInt8}
    (hapart : position < offset ∨ offset + bytes.length ≤ position) :
    (file.store offset bytes).seen position = file.seen position := by
  unfold store
  split
  · rfl
  · have houtside : ¬ (offset ≤ position ∧ position < offset + bytes.length) := by omega
    simp only [seen, write, if_neg houtside]
    grind

/-- A write of which only the first bytes are taken leaves the whole in the file if the
rest was there before. -/
theorem read_store_take_iff (hcount : 0 < count) (hlength : bytes.length = count) (room : Nat) :
    (file.store offset (bytes.take room)).read offset count = some bytes ↔
      count ≤ room ∨ file.read (offset + room) (count - room) = some (bytes.drop room) := by
  by_cases hroom : count ≤ room
  · have hnil : bytes ≠ [] := List.ne_nil_of_length_pos (hlength ▸ hcount)
    have hread := file.read_write_self offset bytes
    rw [hlength] at hread
    rw [List.take_of_length_le (hlength ▸ hroom), store, if_neg hnil, hread]
    simp [hroom]
  · have htaken : (bytes.take room).length = room := by
      rw [List.length_take]
      omega
    have hsize : offset + count ≤ (file.store offset (bytes.take room)).size ↔
        offset + room + (count - room) ≤ file.size := by
      unfold store
      split
      · omega
      · simp only [write, htaken]
        omega
    simp only [hroom, false_or, read_eq_some, hsize, List.length_drop, List.getElem?_drop, hlength,
      true_and]
    apply and_congr_right
    intro hfits
    have hbyte : ∀ index < count, (file.store offset (bytes.take room)).byteAt (offset + index) =
        if index < room then bytes.getD index 0 else file.byteAt (offset + index) := by
      intro index hindex
      unfold store
      split
      next hnil =>
        have hzero : room = 0 := by
          rw [hnil] at htaken
          exact htaken.symm
        simp [hzero]
      next =>
        have hinside : offset + index < file.size := by omega
        simp only [write, htaken, List.getD_eq_getElem?_getD, List.getElem?_take]
        grind
    constructor
    · intro hall index hindex
      rw [hall (room + index) (by omega), hbyte _ (by omega), if_neg (by omega), Nat.add_assoc]
    · intro hall index hindex
      rw [hbyte index hindex]
      by_cases hearly : index < room
      · rw [if_pos hearly, List.getD_eq_getElem?_getD, List.getElem?_eq_getElem (by omega),
          Option.getD_some]
      · rw [if_neg hearly]
        have hlater := hall (index - room) (by omega)
        rwa [Nat.add_sub_cancel' (by omega), Nat.add_assoc, Nat.add_sub_cancel' (by omega)] at hlater

theorem read_within (hread : file.read offset count = some bytes) {inner part : Nat}
    (hfits : inner + part ≤ count) :
    file.read (offset + inner) part = some ((bytes.drop inner).take part) := by
  obtain ⟨hsize, hlength, hbytes⟩ := read_eq_some.mp hread
  refine read_eq_some.mpr ⟨by omega, ?_, fun index hindex => ?_⟩
  · rw [List.length_take, List.length_drop]
    omega
  · rw [List.getElem?_take_of_lt hindex, List.getElem?_drop, hbytes (inner + index) (by omega),
      Nat.add_assoc]

theorem read_embedded {inner : ByteFile} (hread : file.read offset inner.size = some inner.contents)
    {position : Nat} (hpart : inner.read position count = some bytes) :
    file.read (offset + position) count = some bytes := by
  have hfits := (read_eq_some.mp hpart).1
  have hinner := read_within inner.read_contents hfits
  rw [Nat.zero_add] at hinner
  rw [read_within hread hfits, ← hinner, hpart]

end ByteFile

end Foundation

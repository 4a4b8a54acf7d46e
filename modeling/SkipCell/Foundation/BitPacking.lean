import Mathlib

/-! # Fields of a few bits in a byte sequence

Fields of one width of at most eight bits lie one behind the other, the low bits
first. A field may cross from one byte into the next.
-/

namespace Foundation

/-- The bit at a position, counted from the low bit of the first byte. -/
def bitAt (bytes : List UInt8) (position : Nat) : Bool :=
  (bytes.getD (position / 8) 0).toNat.testBit (position % 8)

/-- Adds the bits of a byte to those at an index. -/
def orByte (bytes : List UInt8) (index : Nat) (byte : UInt8) : List UInt8 :=
  bytes.set index (bytes.getD index 0 ||| byte)

/-- Writes a field over zero bits. -/
def packField (bits : Nat) (bytes : List UInt8) (index : Nat) (value : UInt8) : List UInt8 :=
  let bit := index * bits
  let byte := bit / 8
  let shifted := value.toNat <<< (bit % 8)
  let low := orByte bytes byte (.ofNat shifted)
  if byte + 1 < bytes.length then orByte low (byte + 1) (.ofNat (shifted >>> 8)) else low

/-- Writes one field after the other, from an index on. -/
def packFields (bits : Nat) : Nat → List UInt8 → List UInt8 → List UInt8
  | _, bytes, [] => bytes
  | index, bytes, value :: values =>
    packFields bits (index + 1) (packField bits bytes index value) values

def unpackField (bits : Nat) (bytes : List UInt8) (index : Nat) : UInt8 :=
  let bit := index * bits
  let byte := bit / 8
  let low := (bytes.getD byte 0).toNat
  let packed :=
    if byte + 1 < bytes.length then low ||| (bytes.getD (byte + 1) 0).toNat <<< 8 else low
  .ofNat ((packed >>> (bit % 8)) &&& (2 ^ bits - 1))

variable {bits : Nat} {bytes : List UInt8}

@[simp]
theorem length_orByte (index : Nat) (byte : UInt8) : (orByte bytes index byte).length = bytes.length :=
  List.length_set

@[simp]
theorem length_packField (index : Nat) (value : UInt8) :
    (packField bits bytes index value).length = bytes.length := by
  unfold packField
  dsimp only
  split <;> simp

@[simp]
theorem length_packFields (index : Nat) (values : List UInt8) :
    (packFields bits index bytes values).length = bytes.length := by
  induction values generalizing index bytes with
  | nil => rfl
  | cons value values ih => rw [packFields, ih, length_packField]

theorem bitAt_replicate (length position : Nat) : bitAt (List.replicate length 0) position = false := by
  have hzero : (List.replicate length (0 : UInt8)).getD (position / 8) 0 = 0 := by
    rw [List.getD_eq_getElem?_getD, List.getElem?_replicate]
    split <;> rfl
  rw [bitAt, hzero]
  exact Nat.zero_testBit _

variable {index position : Nat}

theorem bitAt_orByte (hindex : index < bytes.length) (byte : UInt8) (position : Nat) :
    bitAt (orByte bytes index byte) position =
      (bitAt bytes position ||
        (decide (position / 8 = index) && byte.toNat.testBit (position % 8))) := by
  unfold bitAt orByte
  by_cases hsame : position / 8 = index
  · subst hsame
    have hget : (bytes.set (position / 8) (bytes.getD (position / 8) 0 ||| byte)).getD
        (position / 8) 0 = bytes.getD (position / 8) 0 ||| byte := by
      rw [List.getD_eq_getElem?_getD, List.getElem?_set_self hindex, Option.getD_some]
    rw [hget, UInt8.toNat_or, Nat.testBit_or]
    simp
  · have hget : (bytes.set index (bytes.getD index 0 ||| byte)).getD (position / 8) 0 =
        bytes.getD (position / 8) 0 := by
      rw [List.getD_eq_getElem?_getD, List.getElem?_set_ne (Ne.symm hsame),
        List.getD_eq_getElem?_getD]
    rw [hget]
    simp [hsame]

theorem testBit_ofNat (value position : Nat) :
    (UInt8.ofNat value).toNat.testBit position =
      (decide (position < 8) && value.testBit position) := by
  rw [UInt8.toNat_ofNat', Nat.testBit_mod_two_pow]

theorem testBit_byte (value : UInt8) (hposition : 8 ≤ position) :
    value.toNat.testBit position = false := by
  apply Nat.testBit_lt_two_pow
  have hlt : value.toNat < 2 ^ 8 := value.toNat_lt
  exact hlt.trans_le (Nat.pow_le_pow_right (by decide) hposition)

theorem shifted_bits (value : UInt8) (bit position : Nat) :
    (decide (position / 8 = bit / 8) && (decide (bit % 8 ≤ position % 8) &&
        value.toNat.testBit (position % 8 - bit % 8)) ||
      decide (position / 8 = bit / 8 + 1) && value.toNat.testBit (8 + position % 8 - bit % 8)) =
    (decide (bit ≤ position) && value.toNat.testBit (position - bit)) := by
  rcases Nat.lt_trichotomy (position / 8) (bit / 8) with hbefore | hsame | hbehind
  · have hlt : ¬ bit ≤ position := by omega
    have hfar : position / 8 ≠ bit / 8 + 1 := by omega
    simp [hbefore.ne, hfar, hlt]
  · have hfar : position / 8 ≠ bit / 8 + 1 := by omega
    by_cases hwithin : bit % 8 ≤ position % 8
    · have hle : bit ≤ position := by omega
      have hdistance : position % 8 - bit % 8 = position - bit := by omega
      simp [hsame, hwithin, hle, hdistance]
    · have hlt : ¬ bit ≤ position := by omega
      simp [hsame, hwithin, hlt]
  · have hle : bit ≤ position := by omega
    by_cases hnext : position / 8 = bit / 8 + 1
    · have hdistance : 8 + position % 8 - bit % 8 = position - bit := by omega
      simp [hnext, hle, hdistance]
    · have hnone := testBit_byte value (show 8 ≤ position - bit by omega)
      simp [hbehind.ne', hnext, hnone]

theorem bitAt_packField {value : UInt8} (hfits : index * bits / 8 < bytes.length)
    (hposition : position < 8 * bytes.length) :
    bitAt (packField bits bytes index value) position =
      (bitAt bytes position ||
        (decide (index * bits ≤ position) && value.toNat.testBit (position - index * bits))) := by
  generalize hbit : index * bits = bit at hfits
  have hremainder := Nat.mod_lt position (show 0 < 8 by decide)
  have hlow : bitAt (orByte bytes (bit / 8) (.ofNat (value.toNat <<< (bit % 8)))) position =
      (bitAt bytes position || (decide (position / 8 = bit / 8) &&
        (decide (bit % 8 ≤ position % 8) && value.toNat.testBit (position % 8 - bit % 8)))) := by
    rw [bitAt_orByte hfits, testBit_ofNat, Nat.testBit_shiftLeft]
    simp [hremainder]
  simp only [packField, hbit, ← shifted_bits value bit position]
  split
  next hnext =>
    have hshift : bit % 8 ≤ 8 + position % 8 := by omega
    rw [bitAt_orByte (by simpa using hnext), hlow, testBit_ofNat, Nat.testBit_shiftRight,
      Nat.testBit_shiftLeft, Bool.or_assoc]
    simp [hremainder, hshift]
  next hlast =>
    -- the last byte: nothing is shifted behind it
    have hinside : position / 8 ≠ bit / 8 + 1 := by omega
    rw [hlow]
    simp [hinside]

theorem testBit_unpackField (hbits : bits ≤ 8) (index offset : Nat) :
    (unpackField bits bytes index).toNat.testBit offset =
      (decide (offset < bits) && bitAt bytes (index * bits + offset)) := by
  by_cases hoffset : offset < bits
  · have hbyte : offset < 8 := by omega
    simp only [unpackField, testBit_ofNat, Nat.testBit_and, Nat.testBit_shiftRight,
      Nat.testBit_two_pow_sub_one, hoffset, hbyte, decide_true, Bool.true_and, Bool.and_true]
    generalize index * bits = bit
    by_cases hsame : bit % 8 + offset < 8
    · have hquotient : (bit + offset) / 8 = bit / 8 := by omega
      have hremainder : (bit + offset) % 8 = bit % 8 + offset := by omega
      rw [bitAt, hquotient, hremainder]
      split
      · rw [Nat.testBit_or, Nat.testBit_shiftLeft]
        simp [hsame]
      · rfl
    · have hquotient : (bit + offset) / 8 = bit / 8 + 1 := by omega
      have hremainder : (bit + offset) % 8 = bit % 8 + offset - 8 := by omega
      have hlow := testBit_byte (bytes.getD (bit / 8) 0) (Nat.not_lt.mp hsame)
      rw [bitAt, hquotient, hremainder]
      split
      next hnext =>
        rw [Nat.testBit_or, hlow, Nat.testBit_shiftLeft]
        simp [Nat.not_lt.mp hsame]
      next hlast =>
        rw [hlow, List.getD_eq_getElem?_getD, List.getElem?_eq_none (Nat.not_lt.mp hlast)]
        exact (Nat.zero_testBit _).symm
  · simp only [unpackField, testBit_ofNat, Nat.testBit_and, Nat.testBit_two_pow_sub_one]
    simp [hoffset]

theorem bitAt_packFields {values : List UInt8} (hbits : 0 < bits)
    (hvalues : ∀ value ∈ values, value.toNat < 2 ^ bits)
    (hfits : (index + values.length) * bits ≤ 8 * bytes.length)
    (hposition : position < 8 * bytes.length) :
    bitAt (packFields bits index bytes values) position =
      (bitAt bytes position || (decide (index ≤ position / bits) &&
        (values.getD (position / bits - index) 0).toNat.testBit (position % bits))) := by
  induction values generalizing index bytes with
  | nil => simp [packFields]
  | cons value values ih =>
    obtain ⟨hvalue, hrest⟩ := List.forall_mem_cons.mp hvalues
    have hlength : (value :: values).length = values.length + 1 := rfl
    have hthis : (index + 1) * bits ≤ 8 * bytes.length :=
      (Nat.mul_le_mul_right bits (by omega)).trans hfits
    have hbyte : index * bits / 8 < bytes.length := by
      rw [Nat.succ_mul] at hthis
      omega
    have hlater : (index + 1 + values.length) * bits ≤
        8 * (packField bits bytes index value).length := by
      rw [length_packField, Nat.add_assoc, Nat.add_comm 1]
      exact hfits
    rw [packFields, ih hrest hlater (by rwa [length_packField]), bitAt_packField hbyte hposition,
      Bool.or_assoc]
    congr 1
    have hsplit := Nat.div_add_mod' position bits
    have hremainder := Nat.mod_lt position hbits
    rcases Nat.lt_trichotomy (position / bits) index with hbefore | hsame | hbehind
    · have hlt : ¬ index * bits ≤ position := by
        rw [Nat.not_le]
        exact Nat.lt_mul_of_div_lt hbefore hbits
      simp [hlt, Nat.not_le.mpr hbefore, Nat.not_le.mpr (hbefore.trans (Nat.lt_succ_self _))]
    · have hdistance : position - index * bits = position % bits := by
        rw [← hsame]
        omega
      have hle : index * bits ≤ position := by
        rw [← hsame]
        omega
      simp [hdistance, hle, hsame]
    · have hfar : (index + 1) * bits ≤ position :=
        (Nat.mul_le_mul_right bits hbehind).trans (Nat.div_mul_le_self _ _)
      have hnone : value.toNat.testBit (position - index * bits) = false := by
        apply Nat.testBit_lt_two_pow
        apply hvalue.trans_le
        apply Nat.pow_le_pow_right (by decide)
        rw [Nat.succ_mul] at hfar
        omega
      obtain ⟨ahead, hahead⟩ := Nat.exists_eq_add_of_lt hbehind
      have hnext : position / bits - (index + 1) = ahead := by omega
      have hindex : position / bits - index = ahead + 1 := by omega
      rw [hnone, hnext, hindex]
      simp [hbehind.le, Nat.succ_le_of_lt hbehind]

theorem unpackField_packFields {values : List UInt8} {length : Nat} (hbits : bits ≤ 8)
    (hpos : 0 < bits) (hvalues : ∀ value ∈ values, value.toNat < 2 ^ bits)
    (hfits : values.length * bits ≤ 8 * length) {value : UInt8}
    (hvalue : values[index]? = some value) :
    unpackField bits (packFields bits 0 (List.replicate length 0) values) index = value := by
  obtain ⟨hindex, -⟩ := List.getElem_of_getElem? hvalue
  have hlt := hvalues value (List.mem_of_getElem? hvalue)
  apply UInt8.toNat_inj.mp
  apply Nat.eq_of_testBit_eq
  intro offset
  rw [testBit_unpackField hbits]
  by_cases hoffset : offset < bits
  · have hend : (index + 1) * bits ≤ values.length * bits := Nat.mul_le_mul_right _ hindex
    have hposition : index * bits + offset < 8 * (List.replicate length (0 : UInt8)).length := by
      rw [Nat.succ_mul] at hend
      rw [List.length_replicate]
      omega
    have hquotient : (index * bits + offset) / bits = index := by
      rw [Nat.mul_comm, Nat.mul_add_div hpos, Nat.div_eq_of_lt hoffset, Nat.add_zero]
    have hremainder : (index * bits + offset) % bits = offset := by
      rw [Nat.mul_comm, Nat.mul_add_mod, Nat.mod_eq_of_lt hoffset]
    rw [bitAt_packFields hpos hvalues (by simpa using hfits) hposition, bitAt_replicate, hquotient,
      hremainder, Nat.sub_zero, List.getD_eq_getElem?_getD, hvalue]
    simp [hoffset]
  · have hnone : value.toNat.testBit offset = false := by
      apply Nat.testBit_lt_two_pow
      exact hlt.trans_le (Nat.pow_le_pow_right (by decide) (Nat.not_lt.mp hoffset))
    simp [hoffset, hnone]

end Foundation

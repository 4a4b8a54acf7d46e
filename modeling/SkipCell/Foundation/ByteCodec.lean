import Mathlib

/-! # Little-endian words and running checksums

Fixed-width little-endian encodings of natural numbers, and the FNV-1a hash of a
byte sequence as a fold that can be continued over further bytes.
-/

namespace Foundation

/-- The `width` low bytes of a value, least significant first. -/
def encodeLittle : Nat → Nat → List UInt8
  | 0, _ => []
  | width + 1, value => UInt8.ofNat value :: encodeLittle width (value / 256)

/-- The value of a byte sequence, least significant byte first. -/
def decodeLittle : List UInt8 → Nat
  | [] => 0
  | byte :: bytes => byte.toNat + 256 * decodeLittle bytes

@[simp]
theorem length_encodeLittle (width value : Nat) : (encodeLittle width value).length = width := by
  induction width generalizing value with
  | zero => rfl
  | succ width ih => rw [encodeLittle, List.length_cons, ih]

@[simp]
theorem encodeLittle_zero (width : Nat) : encodeLittle width 0 = List.replicate width 0 := by
  induction width with
  | zero => rfl
  | succ width ih =>
    rw [encodeLittle, Nat.zero_div, ih]
    rfl

theorem decodeLittle_encodeLittle (width value : Nat) :
    decodeLittle (encodeLittle width value) = value % 256 ^ width := by
  induction width generalizing value with
  | zero => rw [pow_zero, Nat.mod_one]; rfl
  | succ width ih =>
    have hsplit : value % (256 * 256 ^ width) = value % 256 + 256 * (value / 256 % 256 ^ width) :=
      Nat.mod_mul
    rw [encodeLittle, decodeLittle, ih, UInt8.toNat_ofNat', pow_succ' 256 width, hsplit]

theorem decodeLittle_encodeLittle_of_lt {width value : Nat} (hvalue : value < 256 ^ width) :
    decodeLittle (encodeLittle width value) = value := by
  rw [decodeLittle_encodeLittle, Nat.mod_eq_of_lt hvalue]

theorem decodeLittle_lt (bytes : List UInt8) : decodeLittle bytes < 256 ^ bytes.length := by
  induction bytes with
  | nil => simp [decodeLittle]
  | cons byte bytes ih =>
    have hbyte := byte.toNat_lt
    rw [decodeLittle, List.length_cons, pow_succ']
    omega

/-- Running FNV-1a hash of 64 bits. -/
def fnvOffsetBasis : UInt64 := 14695981039346656037

def fnvPrime : UInt64 := 1099511628211

def fnvStep (hash : UInt64) (byte : UInt8) : UInt64 := (hash ^^^ byte.toUInt64) * fnvPrime

def fnvBytes (hash : UInt64) (bytes : List UInt8) : UInt64 := bytes.foldl fnvStep hash

@[simp]
theorem fnvBytes_append (hash : UInt64) (first second : List UInt8) :
    fnvBytes hash (first ++ second) = fnvBytes (fnvBytes hash first) second :=
  List.foldl_append

/-- The inverse of the prime, which is odd, modulo `2 ^ 64`. -/
def fnvPrimeInverse : UInt64 := 14886173955864302971

theorem fnvPrime_mul_inverse : fnvPrime * fnvPrimeInverse = 1 := rfl

variable {first second hash : UInt64}

theorem mul_fnvPrime_inj :
    first * fnvPrime = second * fnvPrime ↔ first = second := by
  constructor
  · intro hsame
    have hscaled := congrArg (· * fnvPrimeInverse) hsame
    simpa only [UInt64.mul_assoc, fnvPrime_mul_inverse, UInt64.mul_one] using hscaled
  · exact congrArg (· * fnvPrime)

theorem fnvStep_inj {byte : UInt8} :
    fnvStep first byte = fnvStep second byte ↔ first = second := by
  rw [fnvStep, fnvStep, mul_fnvPrime_inj, UInt64.xor_left_inj]

theorem fnvStep_byte_inj {first second : UInt8} :
    fnvStep hash first = fnvStep hash second ↔ first = second := by
  rw [fnvStep, fnvStep, mul_fnvPrime_inj, UInt64.xor_right_inj]
  constructor
  · intro hsame
    have hvalue := congrArg UInt64.toNat hsame
    rw [UInt8.toNat_toUInt64, UInt8.toNat_toUInt64] at hvalue
    exact UInt8.toNat_inj.mp hvalue
  · exact congrArg UInt8.toUInt64

theorem fnvBytes_inj {bytes : List UInt8} :
    fnvBytes first bytes = fnvBytes second bytes ↔ first = second := by
  induction bytes generalizing first second with
  | nil => rfl
  | cons byte bytes ih => exact ih.trans fnvStep_inj

theorem fnvBytes_set_ne {bytes : List UInt8} {position : Nat} {old new : UInt8}
    (hold : bytes[position]? = some old) (hnew : new ≠ old) :
    fnvBytes hash (bytes.set position new) ≠ fnvBytes hash bytes := by
  induction bytes generalizing hash position with
  | nil => simp at hold
  | cons byte bytes ih =>
    cases position with
    | zero =>
      obtain rfl := Option.some.inj hold
      intro hsame
      exact hnew (fnvStep_byte_inj.mp (fnvBytes_inj.mp hsame))
    | succ position => exact ih hold

section

variable {α : Type} {encode : α → List UInt8} {width : Nat}
  (hwidth : ∀ value, (encode value).length = width) (values : List α)
include hwidth values

theorem length_records :
    (values.flatMap encode).length = values.length * width := by
  rw [List.length_flatMap, List.map_congr_left fun value _ => hwidth value]
  simp

theorem drop_records (index : Nat) :
    (values.flatMap encode).drop (index * width) = (values.drop index).flatMap encode := by
  induction values generalizing index with
  | nil => simp
  | cons value values ih =>
    cases index with
    | zero => rw [Nat.zero_mul, List.drop_zero, List.drop_zero]
    | succ index =>
      rw [List.flatMap_cons, List.drop_succ_cons, ← ih, Nat.succ_mul, Nat.add_comm,
        ← List.drop_drop, List.drop_left' (hwidth value)]

end

end Foundation

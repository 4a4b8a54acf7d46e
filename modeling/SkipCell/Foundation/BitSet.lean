import Mathlib

/-! # Sets of numbers as bits

A set of numbers below a bound is kept in words of 64 bits. Adding, removing and asking for
a number touch one word.
-/

namespace Foundation

def bitMask (number : Nat) : BitVec 64 := 1#64 <<< (number % 64)

theorem getLsbD_bitMask (number bit : Nat) :
    (bitMask number).getLsbD bit = decide (number % 64 = bit) := by
  have hmask : bitMask number = BitVec.twoPow 64 (number % 64) := rfl
  rw [hmask, BitVec.getLsbD_twoPow, decide_eq_true (Nat.mod_lt number (by decide)), Bool.true_and]

theorem and_bitMask_eq_zero {word : BitVec 64} {number : Nat} :
    word &&& bitMask number = 0 ↔ word.getLsbD (number % 64) = false := by
  constructor
  · intro hzero
    have hsame := congrArg (·.getLsbD (number % 64)) hzero
    simpa [BitVec.getLsbD_and, getLsbD_bitMask] using hsame
  · intro hclear
    apply BitVec.eq_of_getLsbD_eq
    intro bit _
    rw [BitVec.getLsbD_and, getLsbD_bitMask]
    by_cases hsame : number % 64 = bit
    · rw [← hsame, hclear]
      simp
    · simp [hsame]

namespace BitSet

def contains (words : List (BitVec 64)) (number : Nat) : Bool :=
  match words[number / 64]? with
  | none => false
  | some word => decide (word &&& bitMask number ≠ 0)

def insert (words : List (BitVec 64)) (number : Nat) : List (BitVec 64) :=
  words.modify (number / 64) fun word => word ||| bitMask number

def erase (words : List (BitVec 64)) (number : Nat) : List (BitVec 64) :=
  words.modify (number / 64) fun word => word &&& ~~~ bitMask number

/-- Drops words from the end, or appends words without a bit. -/
def resize (words : List (BitVec 64)) (count : Nat) : List (BitVec 64) :=
  words.take count ++ List.replicate (count - words.length) 0

variable {words : List (BitVec 64)} {number other : Nat}

theorem contains_of_word {word : BitVec 64} (hword : words[number / 64]? = some word) :
    contains words number = word.getLsbD (number % 64) := by
  simp only [contains, hword, ne_eq, and_bitMask_eq_zero, Bool.not_eq_false, Bool.decide_eq_true]

theorem contains_of_none (hword : words[number / 64]? = none) : contains words number = false := by
  simp only [contains, hword]

theorem eq_of_div_eq (hword : number / 64 = other / 64) (hbit : number % 64 = other % 64) :
    number = other := by
  omega

theorem contains_insert (hnumber : number / 64 < words.length) :
    contains (insert words number) other = (decide (number = other) || contains words other) := by
  by_cases hsame : number / 64 = other / 64
  · have hword := List.getElem?_eq_getElem (hsame ▸ hnumber)
    have hinserted : (insert words number)[other / 64]? =
        some (words[other / 64] ||| bitMask number) := by
      rw [insert, hsame, List.getElem?_modify_eq, hword]
      rfl
    rw [contains_of_word hinserted, contains_of_word hword, BitVec.getLsbD_or, getLsbD_bitMask,
      Bool.or_comm]
    congr 1
    exact decide_eq_decide.mpr ⟨eq_of_div_eq hsame, congrArg (· % 64)⟩
  · have hother : number ≠ other := fun heq => hsame (congrArg (· / 64) heq)
    simp [contains, insert, hsame, hother]

theorem contains_erase :
    contains (erase words number) other = (decide (number ≠ other) && contains words other) := by
  by_cases hsame : number / 64 = other / 64
  · cases hword : words[other / 64]? with
    | none =>
      have herased : (erase words number)[other / 64]? = none := by
        rw [erase, hsame, List.getElem?_modify_eq, hword]
        rfl
      rw [contains_of_none herased, contains_of_none hword, Bool.and_false]
    | some word =>
      have herased : (erase words number)[other / 64]? = some (word &&& ~~~ bitMask number) := by
        rw [erase, hsame, List.getElem?_modify_eq, hword]
        rfl
      have hbit : other % 64 < 64 := Nat.mod_lt _ (by decide)
      rw [contains_of_word herased, contains_of_word hword, BitVec.getLsbD_and,
        BitVec.getLsbD_not, getLsbD_bitMask, Bool.and_comm, decide_eq_true hbit, Bool.true_and]
      congr 1
      rw [← decide_not]
      exact decide_eq_decide.mpr (not_congr ⟨eq_of_div_eq hsame, congrArg (· % 64)⟩)
  · have hother : number ≠ other := fun heq => hsame (congrArg (· / 64) heq)
    simp [contains, erase, hsame, hother]

theorem contains_resize (hclear : ∀ number, contains words number = false) (count : Nat) :
    contains (resize words count) number = false := by
  rcases Nat.lt_or_ge (number / 64) (words.take count).length with htaken | hadded
  · have hword : (resize words count)[number / 64]? = words[number / 64]? := by
      rw [List.length_take] at htaken
      rw [resize, List.getElem?_append_left (by rw [List.length_take]; exact htaken),
        List.getElem?_take_of_lt (by omega)]
    have hbefore := hclear number
    simp only [contains] at hbefore ⊢
    rwa [hword]
  · cases hword : (resize words count)[number / 64]? with
    | none => exact contains_of_none hword
    | some word =>
      rw [resize, List.getElem?_append_right hadded] at hword
      obtain rfl := List.eq_of_mem_replicate (List.mem_of_getElem? hword)
      rw [contains, resize, List.getElem?_append_right hadded, hword]
      simp

@[simp]
theorem length_insert : (insert words number).length = words.length := List.length_modify _ _ _

@[simp]
theorem length_erase : (erase words number).length = words.length := List.length_modify _ _ _

@[simp]
theorem length_resize (count : Nat) : (resize words count).length = count := by
  rw [resize, List.length_append, List.length_take, List.length_replicate]
  omega

end BitSet

end Foundation

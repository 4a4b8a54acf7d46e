import Mathlib

/-! # Numbers in text

Text is cut at a separator, and a number is read from the front of a field: blanks, a sign and
digits. What stands behind the digits is not looked at, so a field may be read without being a
numeral.
-/

namespace Foundation

/-- The pieces that a separator ends. Nothing follows a separator at the end. -/
def getlines (separator : Char) : List Char → List (List Char)
  | [] => []
  | character :: text =>
    if character = separator then [] :: getlines separator text
    else
      match getlines separator text with
      | [] => [[character]]
      | line :: lines => (character :: line) :: lines

/-- `isspace` in the C locale. -/
def isSpace (character : Char) : Bool :=
  character = ' ' || (9 ≤ character.toNat && character.toNat ≤ 13)

def decimal (digits : List Char) : Nat :=
  digits.foldl (fun value digit => 10 * value + (digit.toNat - '0'.toNat)) 0

/-- The sign in front of a number, and what follows it. -/
def splitSign (field : List Char) : Bool × List Char :=
  match field.dropWhile isSpace with
  | '-' :: text => (true, text)
  | '+' :: text => (false, text)
  | text => (false, text)

/-- `std::stoul` of 64 bits. A number below zero is taken from the number of values. -/
def stoul (field : List Char) : Except String Nat :=
  let (negative, text) := splitSign field
  let digits := text.takeWhile Char.isDigit
  if digits = [] ∨ 2 ^ 64 ≤ decimal digits then .error "stoul"
  else if negative = true then .ok ((2 ^ 64 - decimal digits) % 2 ^ 64)
  else .ok (decimal digits)

/-- The natural number that a whole field denotes. -/
def numeral (field : List Char) : Option Nat :=
  let (negative, digits) := splitSign field
  if digits ≠ [] ∧ (∀ digit ∈ digits, digit.isDigit = true) ∧
      (negative = true → decimal digits = 0) then
    some (decimal digits)
  else none

theorem stoul_numeral {field : List Char} {value : Nat} (hnumeral : numeral field = some value)
    (hvalue : value < 2 ^ 64) : stoul field = .ok value := by
  unfold numeral at hnumeral
  unfold stoul
  cases hsign : splitSign field with
  | mk negative digits =>
    rw [hsign] at hnumeral
    dsimp only at hnumeral ⊢
    split at hnumeral
    next hwhole =>
      obtain ⟨hsome, hdigits, hzero⟩ := hwhole
      rw [Option.some.injEq] at hnumeral
      rw [List.takeWhile_eq_self_iff.mpr hdigits, hnumeral,
        if_neg (not_or.mpr ⟨hsome, Nat.not_le.mpr hvalue⟩)]
      split
      next hnegative =>
        rw [← hnumeral, hzero hnegative, Nat.sub_zero, Nat.mod_self]
      next => rfl
    next => cases hnumeral

end Foundation

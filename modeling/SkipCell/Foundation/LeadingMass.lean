import Mathlib

/-! # Mass of the leading values

The values of a sequence have weights. The mass of the first values is what a pass has added
after as many steps, and it grows with their number.
-/

namespace Foundation

universe u v

variable {α : Type u} {Mass : Type v} [AddCommMonoid Mass] {weight : α → Mass} {values : List α}

/-- The mass of the first `count` values. -/
def leadingMass (weight : α → Mass) (values : List α) (count : Nat) : Mass :=
  ((values.take count).map weight).sum

@[simp]
theorem leadingMass_zero (weight : α → Mass) (values : List α) : leadingMass weight values 0 = 0 :=
  rfl

theorem leadingMass_succ {count : Nat} {value : α} (hvalue : values[count]? = some value) :
    leadingMass weight values (count + 1) = leadingMass weight values count + weight value := by
  simp [leadingMass, List.take_add_one, hvalue]

theorem leadingMass_length (weight : α → Mass) (values : List α) :
    leadingMass weight values values.length = (values.map weight).sum := by
  rw [leadingMass, List.take_length]

variable [PartialOrder Mass] [IsOrderedAddMonoid Mass]

theorem leadingMass_mono (hweight : ∀ value ∈ values, 0 ≤ weight value) :
    Monotone (leadingMass weight values) := by
  refine monotone_nat_of_le_succ fun count => ?_
  cases hvalue : values[count]? with
  | none =>
    have hlength := List.getElem?_eq_none_iff.mp hvalue
    rw [leadingMass, leadingMass, List.take_of_length_le hlength,
      List.take_of_length_le (Nat.le_succ_of_le hlength)]
  | some value =>
    rw [leadingMass_succ hvalue]
    exact le_add_of_nonneg_right (hweight value (List.mem_of_getElem? hvalue))

end Foundation

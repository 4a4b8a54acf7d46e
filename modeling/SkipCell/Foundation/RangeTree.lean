import Mathlib

/-! # Splitting a range into a tree

A range longer than a leaf is split into nearly equal parts, each the share of
what remains, and every part is split again. What the shares add up to and how
many nodes the tree has depend on the counts only.
-/

namespace Foundation

/-- The next part of what remains, when `later` parts follow it. -/
def share (remaining later : Nat) : Nat := (remaining + later) / (later + 1)

theorem share_le (remaining later : Nat) : share remaining later ≤ remaining := by
  obtain rfl | hpos := Nat.eq_zero_or_pos remaining
  · exact Nat.le_of_eq (Nat.div_eq_of_lt (by omega))
  · apply Nat.div_le_of_le_mul
    have := Nat.le_mul_of_pos_right later hpos
    rw [Nat.add_one_mul]
    omega

section Share

variable {remaining later : Nat}

theorem share_pos (hremaining : later < remaining) : 0 < share remaining later := by
  apply Nat.div_pos _ (Nat.succ_pos later)
  omega

theorem share_add_le (hremaining : later < remaining) :
    share remaining later + later ≤ remaining := by
  obtain ⟨extra, rfl⟩ := Nat.exists_eq_add_of_lt hremaining
  have hshare : share (later + extra + 1) later = share extra later + 1 := by
    rw [share, share, ← Nat.add_div_right _ (Nat.succ_pos later)]
    congr 1
    omega
  have := share_le extra later
  omega

end Share

/-- The parts of a range, as many as asked for. -/
def shares : Nat → Nat → List Nat
  | _, 0 => []
  | remaining, later + 1 =>
    share remaining later :: shares (remaining - share remaining later) later

theorem length_shares (remaining parts : Nat) : (shares remaining parts).length = parts := by
  induction parts generalizing remaining with
  | zero => rfl
  | succ later ih => rw [shares, List.length_cons, ih]

theorem sum_shares {remaining parts : Nat} (hparts : 0 < parts) (hremaining : parts ≤ remaining) :
    (shares remaining parts).sum = remaining := by
  induction parts generalizing remaining with
  | zero => omega
  | succ later ih =>
    rw [shares, List.sum_cons]
    have hshare := share_add_le hremaining
    obtain rfl | hlater := Nat.eq_zero_or_pos later
    · simp [shares, share]
    · rw [ih hlater (by omega)]
      omega

theorem mem_shares {remaining parts part : Nat} (hremaining : parts ≤ remaining)
    (hpart : part ∈ shares remaining parts) :
    0 < part ∧ part + parts ≤ remaining + 1 := by
  induction parts generalizing remaining with
  | zero => simp [shares] at hpart
  | succ later ih =>
    have hpos := share_pos hremaining
    have hshare := share_add_le hremaining
    rw [shares, List.mem_cons] at hpart
    obtain rfl | hlater := hpart
    · omega
    · have := ih (by omega) hlater
      omega

/-- The nodes of the tree over a range. The fuel bounds the depth. -/
def treeNodes (branching leafSize : Nat) : Nat → Nat → Nat
  | 0, _ => 1
  | fuel + 1, count =>
    if count ≤ leafSize then 1
    else 1 + ((shares count (min branching count)).map (treeNodes branching leafSize fuel)).sum

section Tree

variable {branching leafSize : Nat}

theorem treeNodes_pos (branching leafSize fuel count : Nat) :
    0 < treeNodes branching leafSize fuel count := by
  cases fuel with
  | zero => exact Nat.one_pos
  | succ fuel =>
    unfold treeNodes
    split <;> omega

theorem le_treeNodes (branching fuel : Nat) {count : Nat} (hcount : leafSize < count) :
    1 + min branching count ≤ treeNodes branching leafSize (fuel + 1) count := by
  rw [treeNodes, if_neg (by omega)]
  have hlength := List.length_le_sum_of_one_le
    ((shares count (min branching count)).map (treeNodes branching leafSize fuel))
    (by simp only [List.mem_map]; rintro _ ⟨part, -, rfl⟩; exact treeNodes_pos _ _ fuel part)
  rw [List.length_map, length_shares] at hlength
  omega

theorem lt_of_mem_shares (hbranching : 2 ≤ branching) (hleaf : 1 ≤ leafSize) {count part : Nat}
    (hcount : leafSize < count) (hpart : part ∈ shares count (min branching count)) :
    0 < part ∧ part < count := by
  have := mem_shares (Nat.min_le_right branching count) hpart
  omega

theorem treeNodes_succ (hbranching : 2 ≤ branching) (hleaf : 1 ≤ leafSize) {fuel count : Nat}
    (hfuel : count ≤ fuel) :
    treeNodes branching leafSize (fuel + 1) count = treeNodes branching leafSize fuel count := by
  induction fuel generalizing count with
  | zero =>
    obtain rfl := Nat.le_zero.mp hfuel
    simp [treeNodes]
  | succ fuel ih =>
    rw [treeNodes, treeNodes]
    split
    next => rfl
    next hcount =>
      congr 2
      apply List.map_congr_left
      intro part hpart
      have := lt_of_mem_shares hbranching hleaf (by omega) hpart
      exact ih (by omega)

theorem treeNodes_fuel (hbranching : 2 ≤ branching) (hleaf : 1 ≤ leafSize) {fuel count : Nat}
    (hfuel : count ≤ fuel) :
    treeNodes branching leafSize fuel count = treeNodes branching leafSize count count := by
  induction hfuel with
  | refl => rfl
  | step hfuel ih => rw [treeNodes_succ hbranching hleaf hfuel, ih]

end Tree

end Foundation

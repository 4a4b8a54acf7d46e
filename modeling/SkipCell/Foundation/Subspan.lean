import Mathlib

/-! # Ranges of a sequence

`subspan` reads a range and `patch` overwrites one. A range keeps its elements when
the sequence is extended or overwritten elsewhere.
-/

namespace Foundation

universe u

variable {α : Type u}

/-- The elements from `start` on, `count` of them where there are as many. -/
def subspan (values : List α) (start count : Nat) : List α := (values.drop start).take count

/-- Overwrites the elements from `start` on. -/
def patch (values : List α) (start : Nat) (written : List α) : List α :=
  values.take start ++ written ++ values.drop (start + written.length)

variable {values written more : List α} {start count : Nat}

theorem length_subspan (hfits : start + count ≤ values.length) :
    (subspan values start count).length = count := by
  rw [subspan, List.length_take, List.length_drop]
  omega

variable {width position index : Nat} {rows : List (List α)}

theorem subspan_subspan (values : List α) {start count offset : Nat}
    (hinside : offset + width ≤ count) :
    subspan (subspan values start count) offset width = subspan values (start + offset) width := by
  rw [subspan, subspan, subspan, List.drop_take, List.drop_drop, List.take_take,
    Nat.min_eq_left (by omega)]

theorem subspan_add (values : List α) (start first second : Nat) :
    subspan values start first ++ subspan values (start + first) second =
      subspan values start (first + second) := by
  rw [subspan, subspan, subspan, List.take_add, List.drop_drop]

theorem length_patch (hfits : start + written.length ≤ values.length) :
    (patch values start written).length = values.length := by
  simp only [patch, List.length_append, List.length_take, List.length_drop]
  omega

theorem subspan_append_left (more : List α) (hfits : start + count ≤ values.length) :
    subspan (values ++ more) start count = subspan values start count := by
  rw [subspan, subspan, List.drop_append_of_le_length (by omega), List.take_append_of_le_length]
  rw [List.length_drop]
  omega

theorem subspan_append_right (values more : List α) (start count : Nat) :
    subspan (values ++ more) (values.length + start) count = subspan more start count := by
  rw [subspan, List.drop_append, List.drop_of_length_le (by omega), List.nil_append,
    Nat.add_sub_cancel_left]
  rfl

theorem subspan_patch_self (hfits : start + written.length ≤ values.length) :
    subspan (patch values start written) start written.length = written := by
  have htake : (values.take start).length = start := by
    rw [List.length_take]
    omega
  rw [patch, List.append_assoc]
  have hright := subspan_append_right (values.take start)
    (written ++ values.drop (start + written.length)) 0 written.length
  rw [htake, Nat.add_zero] at hright
  rw [hright, subspan, List.drop_zero, List.take_left]

theorem patch_patch (hfits : start ≤ values.length) :
    patch (patch values start written) (start + written.length) more =
      patch values start (written ++ more) := by
  have hfront : (values.take start ++ written).length = start + written.length := by
    rw [List.length_append, List.length_take_of_le hfits]
  have hdrop : (patch values start written).drop (start + written.length + more.length) =
      values.drop (start + (written ++ more).length) := by
    rw [patch, ← hfront, List.drop_length_add_append, List.drop_drop, hfront, List.length_append,
      Nat.add_assoc]
  have htake : (patch values start written).take (start + written.length) =
      values.take start ++ written := by
    rw [patch, List.take_left' hfront]
  rw [patch, htake, hdrop, patch]
  simp only [List.append_assoc]

theorem patch_between (before old behind : List α) {new : List α} (hwidth : old.length = new.length) :
    patch (before ++ (old ++ behind)) before.length new = before ++ (new ++ behind) := by
  have hdrop : (before ++ (old ++ behind)).drop (before.length + new.length) = behind := by
    rw [← hwidth, ← List.length_append, ← List.append_assoc, List.drop_left]
  rw [patch, List.take_left, hdrop, List.append_assoc]

theorem subspan_patch_before (hbefore : start + count ≤ position)
    (hfits : position ≤ values.length) :
    subspan (patch values position written) start count = subspan values start count := by
  have htake : (values.take position).length = position := by
    rw [List.length_take]
    omega
  rw [patch, List.append_assoc, subspan_append_left _ (by omega)]
  have hwhole := subspan_append_left (values.drop position)
    (show start + count ≤ (values.take position).length by omega)
  rw [List.take_append_drop] at hwhole
  exact hwhole.symm

theorem subspan_patch_behind (hbehind : position + written.length ≤ start)
    (hfits : position + written.length ≤ values.length) :
    subspan (patch values position written) start count = subspan values start count := by
  obtain ⟨offset, rfl⟩ := Nat.exists_eq_add_of_le hbehind
  have hfront : (values.take position ++ written).length = position + written.length := by
    rw [List.length_append, List.length_take]
    omega
  have hright := subspan_append_right (values.take position ++ written)
    (values.drop (position + written.length)) offset count
  rw [hfront] at hright
  rw [patch, hright, subspan, subspan, List.drop_drop]

theorem subspan_append_patch (hbefore : start + count ≤ values.length + position)
    (hfits : position ≤ more.length) :
    subspan (values ++ patch more position written) start count =
      subspan (values ++ more) start count := by
  have hpatch : values ++ patch more position written =
      patch (values ++ more) (values.length + position) written := by
    have htake : (values ++ more).take (values.length + position) =
        values ++ more.take position := by
      rw [List.take_append, List.take_of_length_le (by omega), Nat.add_sub_cancel_left]
    have hdrop : (values ++ more).drop (values.length + position + written.length) =
        more.drop (position + written.length) := by
      rw [Nat.add_assoc, List.drop_append, List.drop_of_length_le (by omega), List.nil_append,
        Nat.add_sub_cancel_left]
    rw [patch, patch, htake, hdrop]
    simp only [List.append_assoc]
  rw [hpatch, subspan_patch_before hbefore]
  rw [List.length_append]
  omega

theorem subspan_flatten (hwidth : ∀ row ∈ rows, row.length = width) {row : List α}
    (hrow : rows[index]? = some row) : subspan rows.flatten (index * width) width = row := by
  induction rows generalizing index with
  | nil => cases hrow
  | cons first rows ih =>
    obtain ⟨hfirst, hrest⟩ := List.forall_mem_cons.mp hwidth
    rw [List.flatten_cons]
    cases index with
    | zero =>
      obtain rfl := Option.some.inj hrow
      rw [Nat.zero_mul, subspan, List.drop_zero, List.take_left' hfirst]
    | succ index =>
      rw [List.getElem?_cons_succ] at hrow
      have hright := subspan_append_right first rows.flatten (index * width) width
      rw [hfirst] at hright
      rw [Nat.succ_mul, Nat.add_comm, hright, ih hrest hrow]

theorem flatten_split {row : List α} (hrow : rows[index]? = some row) :
    rows.flatten = (rows.take index).flatten ++ (row ++ (rows.drop (index + 1)).flatten) := by
  obtain ⟨hindex, rfl⟩ := List.getElem_of_getElem? hrow
  rw [← List.flatten_cons, ← List.drop_eq_getElem_cons hindex, ← List.flatten_append,
    List.take_append_drop]

theorem subspan_between (before row behind : List α) :
    subspan (before ++ (row ++ behind)) before.length row.length = row := by
  have hright : subspan (before ++ (row ++ behind)) before.length row.length =
      subspan (row ++ behind) 0 row.length := subspan_append_right _ _ 0 _
  rw [hright, subspan, List.drop_zero, List.take_left]

theorem subspan_flatten_take {row : List α} (hrow : rows[index]? = some row) :
    subspan rows.flatten (rows.take index).flatten.length row.length = row := by
  rw [flatten_split hrow, subspan_between]

/-- Where each row begins in the concatenation of the rows, and where the last one ends. -/
def rowOffsets (rows : List (List α)) : List Nat :=
  rows.scanl (fun offset row => offset + row.length) 0

section Offsets

variable {rows : List (List α)} {index : Nat}

theorem foldl_length (rows : List (List α)) (offset : Nat) :
    rows.foldl (fun offset row => offset + row.length) offset = offset + rows.flatten.length := by
  induction rows generalizing offset with
  | nil => rfl
  | cons row rows ih => rw [List.foldl_cons, ih, List.flatten_cons, List.length_append, Nat.add_assoc]

theorem length_flatten_take (rows : List (List α)) (index : Nat) :
    (rows.take index).flatten.length ≤ rows.flatten.length := by
  have hsplit := congrArg (fun rows => rows.flatten.length) (List.take_append_drop index rows)
  simp only [List.flatten_append, List.length_append] at hsplit
  omega

theorem length_take_succ {row : List α} (hrow : rows[index]? = some row) :
    (rows.take (index + 1)).flatten.length = (rows.take index).flatten.length + row.length := by
  rw [List.take_add_one, hrow, List.flatten_append, List.length_append]
  simp

@[simp]
theorem length_rowOffsets (rows : List (List α)) : (rowOffsets rows).length = rows.length + 1 := by
  rw [rowOffsets, List.length_scanl]

theorem getElem?_rowOffsets (hindex : index ≤ rows.length) :
    (rowOffsets rows)[index]? = some (rows.take index).flatten.length := by
  rw [rowOffsets, List.getElem?_scanl, if_pos hindex, foldl_length, Nat.zero_add]

theorem take_rowOffsets_succ (hindex : index ≤ rows.length) :
    (rowOffsets rows).take index ++ [(rows.take index).flatten.length] =
      (rowOffsets rows).take (index + 1) := by
  rw [List.take_add_one, getElem?_rowOffsets hindex]
  rfl

theorem flatten_take_succ {row : List α} (hrow : rows[index]? = some row) :
    (rows.take index).flatten ++ row = (rows.take (index + 1)).flatten := by
  rw [List.take_add_one, hrow, List.flatten_append]
  simp

theorem take_rowOffsets_length (rows : List (List α)) :
    (rowOffsets rows).take rows.length ++ [rows.flatten.length] = rowOffsets rows := by
  have hsucc := take_rowOffsets_succ (Nat.le_refl rows.length)
  rw [List.take_length] at hsucc
  rw [hsucc]
  exact List.take_of_length_le (Nat.le_of_eq (length_rowOffsets rows))

theorem subspan_rowOffsets {row : List α} (hrow : rows[index]? = some row) :
    (rowOffsets rows).getD index 0 ≤ (rowOffsets rows).getD (index + 1) 0 ∧
    (rowOffsets rows).getD (index + 1) 0 ≤ rows.flatten.length ∧
    subspan rows.flatten ((rowOffsets rows).getD index 0)
      ((rowOffsets rows).getD (index + 1) 0 - (rowOffsets rows).getD index 0) = row := by
  have hindex := (List.getElem_of_getElem? hrow).1
  rw [List.getD_eq_getElem?_getD, List.getD_eq_getElem?_getD,
    getElem?_rowOffsets (Nat.le_of_lt hindex), getElem?_rowOffsets hindex, Option.getD_some,
    Option.getD_some, length_take_succ hrow, Nat.add_sub_cancel_left]
  refine ⟨Nat.le_add_right _ _, ?_, subspan_flatten_take hrow⟩
  rw [← length_take_succ hrow]
  exact length_flatten_take rows (index + 1)

end Offsets

theorem getElem?_concat_forall {property : Nat → α → Prop} {values : List α} {last : α}
    (hvalues : ∀ (position : Nat) value, values[position]? = some value → property position value)
    (hlast : property values.length last) :
    ∀ (position : Nat) value, (values ++ [last])[position]? = some value →
      property position value := by
  intro position value hvalue
  rw [List.getElem?_append] at hvalue
  split at hvalue
  · exact hvalues position value hvalue
  · next hbehind =>
      obtain ⟨hzero, rfl⟩ : position - values.length = 0 ∧ last = value := by
        simpa [List.getElem?_singleton] using hvalue
      rwa [show position = values.length by omega]

end Foundation

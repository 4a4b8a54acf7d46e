import Mathlib

/-! # Tables that partition their slots into groups

Every slot of a table stores a group, and a group lists the slots that belong to
it. The table is a partition when a slot is listed by the group it stores and by
no other. Merging two groups rewrites the slots of both; it keeps the partition
and the total weight of the groups.
-/

namespace Foundation.GroupTable

universe uGroup

variable {Group : Type uGroup} (members : Group → List Nat) (weight : Group → Nat)

/-- Each slot is listed by its own group, and all slots a group lists store it. -/
def Partitions (table : List Group) : Prop :=
  ∀ slot group, table[slot]? = some group →
    slot ∈ members group ∧ ∀ other ∈ members group, table[other]? = some group

/-- Stores one group in every listed slot. -/
def assign (slots : List Nat) (group : Group) (table : List Group) : List Group :=
  slots.foldl (fun table slot => table.set slot group) table

def totalWeight [DecidableEq Group] (table : List Group) : Nat :=
  ∑ group ∈ table.toFinset, weight group

@[simp]
theorem length_assign (slots : List Nat) (group : Group) (table : List Group) :
    (assign slots group table).length = table.length := by
  induction slots generalizing table with
  | nil => rfl
  | cons slot slots ih => exact (ih _).trans List.length_set

theorem getElem?_assign (slots : List Nat) (group : Group) (table : List Group) (slot : Nat) :
    (assign slots group table)[slot]? =
      if slot ∈ slots ∧ slot < table.length then some group else table[slot]? := by
  induction slots generalizing table with
  | nil => simp [assign]
  | cons first slots ih =>
    have hstep : assign (first :: slots) group table = assign slots group (table.set first group) :=
      rfl
    rw [hstep, ih, List.length_set, List.getElem?_set]
    by_cases hslot : slot = first
    · subst hslot
      by_cases hlength : slot < table.length
      · simp [hlength]
      · simp [hlength]
    · simp [hslot, Ne.symm hslot]

variable {members} {weight}

theorem Partitions.group_eq {table : List Group} (htable : Partitions members table)
    {slot other common : Nat} {left right : Group} (hleft : table[slot]? = some left)
    (hright : table[other]? = some right) (hmember : common ∈ members left)
    (hshared : common ∈ members right) : left = right := by
  have hfirst := (htable slot left hleft).2 common hmember
  have hsecond := (htable other right hright).2 common hshared
  exact Option.some.inj (hfirst.symm.trans hsecond)

section Merge

variable {table : List Group} {leftSlot rightSlot : Nat} {left right merged : Group}

theorem Partitions.outside_merge (htable : Partitions members table)
    (hmembers : ∀ slot, slot ∈ members merged ↔ slot ∈ members left ∨ slot ∈ members right)
    {slot : Nat} {group : Group} (hslot : table[slot]? = some group)
    (houtside : slot ∉ members merged) : group ≠ left ∧ group ≠ right := by
  have hself := (htable slot group hslot).1
  constructor
  · rintro rfl
    exact houtside ((hmembers slot).mpr (.inl hself))
  · rintro rfl
    exact houtside ((hmembers slot).mpr (.inr hself))

section

variable (htable : Partitions members table) (hleft : table[leftSlot]? = some left)
  (hright : table[rightSlot]? = some right)
  (hmembers : ∀ slot, slot ∈ members merged ↔ slot ∈ members left ∨ slot ∈ members right)
include htable hleft hright hmembers

theorem Partitions.merged_slot_lt {slot : Nat} (hslot : slot ∈ members merged) :
    slot < table.length := by
  rcases (hmembers slot).mp hslot with hslot | hslot
  · exact (List.getElem_of_getElem? ((htable leftSlot left hleft).2 slot hslot)).1
  · exact (List.getElem_of_getElem? ((htable rightSlot right hright).2 slot hslot)).1

theorem Partitions.getElem?_merge (slot : Nat) : (assign (members merged) merged table)[slot]? =
      if slot ∈ members merged then some merged else table[slot]? := by
  rw [getElem?_assign]
  by_cases hslot : slot ∈ members merged
  · rw [if_pos ⟨hslot, htable.merged_slot_lt hleft hright hmembers hslot⟩, if_pos hslot]
  · rw [if_neg (fun hboth => hslot hboth.1), if_neg hslot]

theorem Partitions.merge :
    Partitions members (assign (members merged) merged table) := by
  have hget := htable.getElem?_merge hleft hright hmembers
  intro slot group hslot
  rw [hget] at hslot
  split at hslot
  · next hmember =>
      obtain rfl := Option.some.inj hslot
      refine ⟨hmember, fun other hother => ?_⟩
      rw [hget, if_pos hother]
  · next houtside =>
      obtain ⟨hself, hall⟩ := htable slot group hslot
      obtain ⟨hneLeft, hneRight⟩ := htable.outside_merge hmembers hslot houtside
      refine ⟨hself, fun other hother => ?_⟩
      rw [hget, if_neg, hall other hother]
      -- a merged slot among the members would make this group one of the merged two
      intro hmerged
      rcases (hmembers other).mp hmerged with hmember | hmember
      · exact hneLeft (htable.group_eq hslot hleft hother hmember)
      · exact hneRight (htable.group_eq hslot hright hother hmember)

end

variable [DecidableEq Group]

section

variable (htable : Partitions members table) (hleft : table[leftSlot]? = some left)
  (hright : table[rightSlot]? = some right)
  (hmembers : ∀ slot, slot ∈ members merged ↔ slot ∈ members left ∨ slot ∈ members right)
include htable hleft hright hmembers

theorem Partitions.toFinset_merge :
    (assign (members merged) merged table).toFinset =
      insert merged ((table.toFinset.erase left).erase right) := by
  have hget := htable.getElem?_merge hleft hright hmembers
  ext group
  simp only [List.mem_toFinset, Finset.mem_insert, Finset.mem_erase, List.mem_iff_getElem?, hget]
  constructor
  · rintro ⟨slot, hslot⟩
    split at hslot
    · exact .inl (Option.some.inj hslot).symm
    · next houtside =>
        obtain ⟨hneLeft, hneRight⟩ := htable.outside_merge hmembers hslot houtside
        exact .inr ⟨hneRight, hneLeft, slot, hslot⟩
  · rintro (rfl | ⟨hneRight, hneLeft, slot, hslot⟩)
    · have hself := (hmembers leftSlot).mpr (.inl (htable leftSlot left hleft).1)
      exact ⟨leftSlot, by rw [if_pos hself]⟩
    · refine ⟨slot, ?_⟩
      have hself := (htable slot group hslot).1
      rw [if_neg, hslot]
      intro hmerged
      rcases (hmembers slot).mp hmerged with hmember | hmember
      · exact hneLeft (htable.group_eq hslot hleft hself hmember)
      · exact hneRight (htable.group_eq hslot hright hself hmember)

theorem Partitions.totalWeight_merge (hne : left ≠ right)
    (hweight : weight merged = weight left + weight right) :
    totalWeight weight (assign (members merged) merged table) = totalWeight weight table := by
  have hmemLeft : left ∈ table.toFinset :=
    List.mem_toFinset.mpr (List.mem_of_getElem? hleft)
  have hmemRight : right ∈ table.toFinset.erase left :=
    Finset.mem_erase.mpr ⟨hne.symm, List.mem_toFinset.mpr (List.mem_of_getElem? hright)⟩
  have hnew : merged ∉ (table.toFinset.erase left).erase right := by
    -- a group with all the merged members would store them, and so be both of the two
    simp only [Finset.mem_erase, List.mem_toFinset, List.mem_iff_getElem?]
    rintro ⟨hneRight, -, slot, hslot⟩
    have hself := (htable rightSlot right hright).1
    exact hneRight (htable.group_eq hslot hright ((hmembers rightSlot).mpr (.inr hself)) hself)
  have houter := Finset.add_sum_erase table.toFinset weight hmemLeft
  have hinner := Finset.add_sum_erase (table.toFinset.erase left) weight hmemRight
  rw [totalWeight, htable.toFinset_merge hleft hright hmembers, Finset.sum_insert hnew, hweight,
    totalWeight]
  omega

end

end Merge

end Foundation.GroupTable

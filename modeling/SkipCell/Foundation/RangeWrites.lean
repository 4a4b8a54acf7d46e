import Mathlib

/-! # Writes to ranges

A memory maps addresses to values, and a write fills a range of it. Where the ranges of
some writes do not overlap, each of them holds its own content after all writes, in
whatever order they are done.
-/

namespace Foundation

universe u

variable {Value : Type u}

structure RangeWrite (Value : Type u) where
  start : Nat
  length : Nat
  content : Nat → Value

namespace RangeWrite

def apply (memory : Nat → Value) (write : RangeWrite Value) : Nat → Value := fun address =>
  if write.start ≤ address ∧ address < write.start + write.length then
    write.content (address - write.start)
  else memory address

/-- The ranges do not overlap. -/
def Apart (first second : RangeWrite Value) : Prop :=
  first.start + first.length ≤ second.start ∨ second.start + second.length ≤ first.start

theorem Apart.symm {first second : RangeWrite Value} (hapart : first.Apart second) :
    second.Apart first :=
  Or.symm hapart

variable {memory : Nat → Value} {writes : List (RangeWrite Value)}

theorem foldl_outside {address : Nat}
    (houtside : ∀ write ∈ writes, ¬ (write.start ≤ address ∧ address < write.start + write.length)) :
    writes.foldl apply memory address = memory address := by
  induction writes generalizing memory with
  | nil => rfl
  | cons write writes ih =>
    obtain ⟨hfirst, hrest⟩ := List.forall_mem_cons.mp houtside
    rw [List.foldl_cons, ih hrest, apply, if_neg hfirst]

theorem foldl_of_mem (memory : Nat → Value) {write : RangeWrite Value} {offset : Nat}
    (happart : writes.Pairwise Apart)
    (hwrite : write ∈ writes) (hoffset : offset < write.length) :
    writes.foldl apply memory (write.start + offset) = write.content offset := by
  induction writes generalizing memory with
  | nil => cases hwrite
  | cons first writes ih =>
    obtain ⟨hfirst, hrest⟩ := List.pairwise_cons.mp happart
    rcases List.mem_cons.mp hwrite with rfl | hlater
    · have houtside : ∀ other ∈ writes,
          ¬ (other.start ≤ write.start + offset ∧
            write.start + offset < other.start + other.length) := by
        intro other hother hinside
        rcases hfirst other hother with hbefore | hbehind <;> omega
      rw [List.foldl_cons, foldl_outside houtside, apply, if_pos (by omega),
        Nat.add_sub_cancel_left]
    · exact ih (first.apply memory) hrest hlater

end RangeWrite

structure RangeCopy where
  source : Nat
  destination : Nat
  length : Nat
  deriving DecidableEq

namespace RangeCopy

def write (memory : Nat → Value) (copy : RangeCopy) : RangeWrite Value where
  start := copy.destination
  length := copy.length
  content offset := memory (copy.source + offset)

def apply (memory : Nat → Value) (copy : RangeCopy) : Nat → Value :=
  (copy.write memory).apply memory

variable {memory now : Nat → Value} {copies : List RangeCopy}

/-- What a copy reads is what `memory` holds. -/
def Reads (memory now : Nat → Value) (copy : RangeCopy) : Prop :=
  ∀ offset < copy.length, now (copy.source + offset) = memory (copy.source + offset)

theorem Reads.apply_eq {copy : RangeCopy} (hreads : copy.Reads memory now) :
    apply now copy = (copy.write memory).apply now := by
  funext address
  refine ite_congr rfl (fun hinside => ?_) fun _ => rfl
  obtain ⟨hstart, hend⟩ : copy.destination ≤ address ∧ address < copy.destination + copy.length :=
    hinside
  exact hreads (address - copy.destination) (by omega)

theorem Reads.apply {copy other : RangeCopy} (hreads : copy.Reads memory now)
    (hapart : other.destination + other.length ≤ copy.source ∨
      copy.source + copy.length ≤ other.destination) : copy.Reads memory (apply now other) := by
  intro offset hoffset
  rw [← hreads offset hoffset]
  exact if_neg (by dsimp only [write]; omega)

theorem foldl_eq_foldl_write (hreads : ∀ copy ∈ copies, copy.Reads memory now)
    (hsources : ∀ first ∈ copies, ∀ second ∈ copies,
      first.destination + first.length ≤ second.source ∨
        second.source + second.length ≤ first.destination) :
    copies.foldl RangeCopy.apply now =
      (copies.map fun copy => copy.write memory).foldl RangeWrite.apply now := by
  induction copies generalizing now with
  | nil => rfl
  | cons copy copies ih =>
    obtain ⟨hfirst, hrest⟩ := List.forall_mem_cons.mp hreads
    have hlater : ∀ other ∈ copies, other.Reads memory (RangeCopy.apply now copy) :=
      fun other hother => (hrest other hother).apply
        (hsources copy List.mem_cons_self other (List.mem_cons_of_mem _ hother))
    rw [List.foldl_cons, List.map_cons, List.foldl_cons, ih hlater fun first hmem second hother =>
      hsources first (List.mem_cons_of_mem _ hmem) second (List.mem_cons_of_mem _ hother),
      hfirst.apply_eq]

/-- Where no copy reads what another one wrote, each destination holds what its source held. -/
theorem foldl_of_mem (memory : Nat → Value) {copy : RangeCopy} {offset : Nat}
    (hsources : ∀ first ∈ copies, ∀ second ∈ copies,
      first.destination + first.length ≤ second.source ∨
        second.source + second.length ≤ first.destination)
    (happart : copies.Pairwise fun first second =>
      first.destination + first.length ≤ second.destination ∨
        second.destination + second.length ≤ first.destination)
    (hcopy : copy ∈ copies) (hoffset : offset < copy.length) :
    copies.foldl apply memory (copy.destination + offset) = memory (copy.source + offset) := by
  rw [foldl_eq_foldl_write (fun _ _ _ _ => rfl) hsources]
  have hwrites : (copies.map fun copy => copy.write memory).Pairwise RangeWrite.Apart :=
    List.pairwise_map.mpr happart
  exact RangeWrite.foldl_of_mem memory hwrites (List.mem_map_of_mem hcopy) hoffset

theorem foldl_outside {address : Nat} (houtside : ∀ copy ∈ copies,
      ¬ (copy.destination ≤ address ∧ address < copy.destination + copy.length)) :
    copies.foldl apply memory address = memory address := by
  induction copies generalizing memory with
  | nil => rfl
  | cons copy copies ih =>
    obtain ⟨hfirst, hrest⟩ := List.forall_mem_cons.mp houtside
    rw [List.foldl_cons, ih hrest]
    exact if_neg hfirst

end RangeCopy

end Foundation

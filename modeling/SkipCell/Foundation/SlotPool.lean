import Mathlib

/-! # Slots with a free list

A pool hands out slot numbers: a released one where there is any, else the next
number that was never used. A slot is live from the time it is handed out until it
is released.
-/

namespace Foundation

/-- The slots below `count` were used; the last element of `free` is the next one reused. -/
structure SlotPool where
  count : Nat := 0
  free : List Nat := []

namespace SlotPool

def Live (pool : SlotPool) (slot : Nat) : Prop := slot < pool.count ∧ slot ∉ pool.free

instance (pool : SlotPool) (slot : Nat) : Decidable (pool.Live slot) :=
  inferInstanceAs (Decidable (_ ∧ _))

/-- The slot that is handed out next, and the pool without it. -/
def take (pool : SlotPool) : Nat × SlotPool :=
  match pool.free.getLast? with
  | some slot => (slot, { pool with free := pool.free.dropLast })
  | none => (pool.count, { pool with count := pool.count + 1 })

def release (pool : SlotPool) (slot : Nat) : SlotPool :=
  { pool with free := pool.free ++ [slot] }

/-- Every free slot was used and is listed once. -/
structure Valid (pool : SlotPool) : Prop where
  nodup : pool.free.Nodup
  lt : ∀ slot ∈ pool.free, slot < pool.count

variable {pool : SlotPool} {slot : Nat}

theorem valid_empty : ({} : SlotPool).Valid := ⟨.nil, by simp⟩

theorem Valid.length_free_le (hvalid : pool.Valid) : pool.free.length ≤ pool.count := by
  have hsubset : pool.free ⊆ List.range pool.count :=
    fun slot hslot => List.mem_range.mpr (hvalid.lt slot hslot)
  have hlength := (List.Nodup.subperm hvalid.nodup hsubset).length_le
  rwa [List.length_range] at hlength

theorem take_of_free {last : Nat} {before : List Nat} (hfree : pool.free = before ++ [last]) :
    pool.take = (last, { pool with free := before }) := by
  rw [take, hfree, List.getLast?_concat]
  simp

theorem take_of_nil (hfree : pool.free = []) :
    pool.take = (pool.count, { pool with count := pool.count + 1 }) := by
  rw [take, hfree]
  rfl

theorem take_count (hfree : pool.free ≠ []) : pool.take.2.count = pool.count := by
  rcases List.eq_nil_or_concat pool.free with hnil | ⟨before, last, hlast⟩
  · exact absurd hnil hfree
  · rw [List.concat_eq_append] at hlast
    rw [take_of_free hlast]

theorem take_mem (hfree : pool.free ≠ []) : pool.take.1 ∈ pool.free := by
  rcases List.eq_nil_or_concat pool.free with hnil | ⟨before, last, hlast⟩
  · exact absurd hnil hfree
  · rw [List.concat_eq_append] at hlast
    rw [take_of_free hlast, hlast]
    exact List.mem_append_right _ List.mem_cons_self

theorem release_take (hfree : pool.free ≠ []) : pool.take.2.release pool.take.1 = pool := by
  rcases List.eq_nil_or_concat pool.free with hnil | ⟨before, last, hlast⟩
  · exact absurd hnil hfree
  · rw [List.concat_eq_append] at hlast
    rw [take_of_free hlast, release, ← hlast]

theorem take_not_live (pool : SlotPool) : ¬ pool.Live pool.take.1 := by
  rcases List.eq_nil_or_concat pool.free with hnil | ⟨before, last, hlast⟩
  · rw [take_of_nil hnil]
    exact fun hlive => Nat.lt_irrefl _ hlive.1
  · rw [List.concat_eq_append] at hlast
    rw [take_of_free hlast]
    exact fun hlive => hlive.2 (by rw [hlast]; exact List.mem_append_right _ List.mem_cons_self)

theorem Valid.live_take (hvalid : pool.Valid) :
    pool.take.2.Live slot ↔ slot = pool.take.1 ∨ pool.Live slot := by
  rcases List.eq_nil_or_concat pool.free with hnil | ⟨before, last, hlast⟩
  · rw [take_of_nil hnil]
    simp only [Live, hnil, List.not_mem_nil, not_false_eq_true, and_true]
    omega
  · rw [List.concat_eq_append] at hlast
    have hnodup := hvalid.nodup
    have hlt := hvalid.lt last (by simp [hlast])
    rw [hlast, List.nodup_append] at hnodup
    rw [take_of_free hlast]
    simp only [Live, hlast, List.mem_append, List.mem_singleton]
    constructor
    · rintro ⟨hcount, hother⟩
      by_cases hsame : slot = last
      · exact .inl hsame
      · exact .inr ⟨hcount, fun hfree => hfree.elim hother hsame⟩
    · rintro (rfl | ⟨hcount, hother⟩)
      · exact ⟨hlt, fun hbefore => hnodup.2.2 _ hbefore _ List.mem_cons_self rfl⟩
      · exact ⟨hcount, fun hbefore => hother (.inl hbefore)⟩

theorem Valid.take (hvalid : pool.Valid) : pool.take.2.Valid := by
  rcases List.eq_nil_or_concat pool.free with hnil | ⟨before, last, hlast⟩
  · rw [take_of_nil hnil]
    exact ⟨hvalid.nodup, by simp [hnil]⟩
  · rw [List.concat_eq_append] at hlast
    have hnodup := hvalid.nodup
    have hlt := hvalid.lt
    rw [hlast] at hnodup hlt
    rw [take_of_free hlast]
    exact ⟨hnodup.of_append_left, fun slot hslot => hlt slot (List.mem_append_left _ hslot)⟩

theorem live_release {other : Nat} :
    (pool.release slot).Live other ↔ pool.Live other ∧ other ≠ slot := by
  simp only [Live, release, List.mem_append, List.mem_singleton, not_or, and_assoc]

theorem Valid.release (hvalid : pool.Valid) (hlive : pool.Live slot) :
    (pool.release slot).Valid where
  nodup := by
    rw [SlotPool.release, List.nodup_append]
    refine ⟨hvalid.nodup, List.nodup_singleton slot, ?_⟩
    intro other hother last hlast hsame
    obtain rfl := List.mem_singleton.mp hlast
    exact hlive.2 (hsame ▸ hother)
  lt := by
    intro other hother
    rcases List.mem_append.mp hother with hfree | hsame
    · exact hvalid.lt other hfree
    · obtain rfl := List.mem_singleton.mp hsame
      exact hlive.1

end SlotPool

end Foundation

import Mathlib

/-! # Filling up a choice greedily

A choice is extended by the entry of a pool that comes before all that are left there. What comes
first may depend on the entries that were chosen already.
-/

namespace Foundation

universe u v

variable {α : Type u} {β : Type v}

/-- Of what is left of a pool the entry comes before all others. -/
structure NextOf (before : α → α → Prop) (pool chosen : List α) (entry : α) : Prop where
  mem : entry ∈ pool
  fresh : entry ∉ chosen
  first : ∀ other ∈ pool, other ∉ chosen → other ≠ entry → before entry other

/-- Every entry behind the start was the next one of the pool. -/
structure GreedyFill (before : List α → α → α → Prop) (pool start filled : List α) : Prop where
  starts : start <+: filled
  distinct : filled.Nodup
  greedy : ∀ position entry, filled[position]? = some entry → start.length ≤ position →
    NextOf (before (filled.take position)) pool (filled.take position) entry

theorem exists_fresh {pool chosen : List α} (hpool : pool.Nodup)
    (hlength : chosen.length < pool.length) : ∃ entry ∈ pool, entry ∉ chosen := by
  by_contra hnone
  push Not at hnone
  have hle := (hpool.subperm hnone).length_le
  omega

namespace GreedyFill

variable {before : List α → α → α → Prop} {pool start filled : List α}

theorem refl (hstart : start.Nodup) : GreedyFill before pool start start where
  starts := List.prefix_rfl
  distinct := hstart
  greedy := fun position entry hentry hlater => by
    have hplace := (List.getElem_of_getElem? hentry).1
    omega

theorem push (hfilled : GreedyFill before pool start filled) {entry : α}
    (hnext : NextOf (before filled) pool filled entry) :
    GreedyFill before pool start (filled ++ [entry]) where
  starts := hfilled.starts.trans (List.prefix_append _ _)
  distinct := by
    refine List.nodup_append.mpr ⟨hfilled.distinct, List.nodup_singleton _, ?_⟩
    intro old hold new hnew hsame
    rw [List.mem_singleton.mp hnew] at hsame
    exact hnext.fresh (hsame ▸ hold)
  greedy := by
    intro position other hother hlater
    rcases Nat.lt_trichotomy position filled.length with hless | rfl | hmore
    · rw [List.getElem?_append_left hless] at hother
      rw [List.take_append_of_le_length (Nat.le_of_lt hless)]
      exact hfilled.greedy position other hother hlater
    · rw [List.getElem?_concat_length] at hother
      rw [List.take_left, ← Option.some.inj hother]
      exact hnext
    · have hplace := (List.getElem_of_getElem? hother).1
      rw [List.length_append, List.length_singleton] at hplace
      omega

theorem mem (hfilled : GreedyFill before pool start filled) {entry : α} (hentry : entry ∈ filled) :
    entry ∈ start ∨ entry ∈ pool := by
  obtain ⟨position, hposition⟩ := List.mem_iff_getElem?.mp hentry
  obtain ⟨rest, rfl⟩ := hfilled.starts
  rcases Nat.lt_or_ge position start.length with hfront | hlater
  · rw [List.getElem?_append_left hfront] at hposition
    exact .inl (List.mem_of_getElem? hposition)
  · exact .inr (hfilled.greedy position entry hposition hlater).mem

theorem map {behind : List β → β → β → Prop} (name : α → β)
    (hname : ∀ left ∈ pool ++ filled, ∀ right ∈ pool ++ filled, name left = name right →
      left = right)
    (hbefore : ∀ chosen, chosen <+: filled → ∀ left ∈ pool, ∀ right ∈ pool,
      before chosen left right → behind (chosen.map name) (name left) (name right))
    (hfilled : GreedyFill before pool start filled) :
    GreedyFill behind (pool.map name) (start.map name) (filled.map name) where
  starts := hfilled.starts.map name
  distinct := List.Nodup.map_on (fun left hleft right hright hsame =>
    hname left (List.mem_append_right _ hleft) right (List.mem_append_right _ hright) hsame)
      hfilled.distinct
  greedy := by
    intro position named hnamed hlater
    rw [List.getElem?_map, Option.map_eq_some_iff] at hnamed
    obtain ⟨entry, hentry, rfl⟩ := hnamed
    rw [List.length_map] at hlater
    have hnext := hfilled.greedy position entry hentry hlater
    have hpool : ∀ other ∈ pool, other ∈ pool ++ filled := fun other hother =>
      List.mem_append_left _ hother
    rw [← List.map_take]
    refine ⟨List.mem_map_of_mem hnext.mem, fun hmem => ?_, fun other hother hfresh hne => ?_⟩
    · obtain ⟨old, hold, hsame⟩ := List.mem_map.mp hmem
      have hmember : old ∈ pool ++ filled := List.mem_append_right _ (List.mem_of_mem_take hold)
      rw [hname old hmember entry (hpool entry hnext.mem) hsame] at hold
      exact hnext.fresh hold
    · obtain ⟨source, hsource, rfl⟩ := List.mem_map.mp hother
      refine hbefore _ (List.take_prefix _ _) entry hnext.mem source hsource ?_
      refine hnext.first source hsource (fun hmem => hfresh (List.mem_map_of_mem hmem)) ?_
      rintro rfl
      exact hne rfl

end GreedyFill

end Foundation

import Mathlib

/-! # Replacing the least recently used page

A cache as the list of its pages, the most recently used one first. A page that is asked for
comes to the front; when the cache is full and does not have it, the last page leaves.
-/

namespace Foundation

universe u

variable {Page : Type u} [DecidableEq Page]

/-- The cache after a page was asked for, and the page that left it. -/
def lruAccess (capacity : Nat) (cache : List Page) (page : Page) : List Page × Option Page :=
  if page ∈ cache then (page :: cache.erase page, none)
  else if capacity = 0 then (cache, none)
  else if cache.length < capacity then (page :: cache, none)
  else (page :: cache.dropLast, cache.getLast?)

/-- The cache after a sequence of pages. -/
def lruRun (capacity : Nat) (pages : List Page) : List Page :=
  pages.foldl (fun cache page => (lruAccess capacity cache page).1) []

variable {capacity : Nat} {cache : List Page} {page : Page}

theorem lruAccess_victim (hnodup : cache.Nodup) {other : Page} :
    other ∈ cache ∧ other ∉ (lruAccess capacity cache page).1 ↔
      (lruAccess capacity cache page).2 = some other := by
  unfold lruAccess
  split
  next hhit =>
    have hsame := (List.perm_cons_erase hhit).mem_iff (a := other)
    constructor
    · rintro ⟨hmem, hgone⟩
      exact absurd (hsame.mp hmem) hgone
    · nofun
  next hmiss =>
    split
    next => exact ⟨fun ⟨hmem, hgone⟩ => absurd hmem hgone, nofun⟩
    next =>
      split
      next => exact ⟨fun ⟨hmem, hgone⟩ => absurd (List.mem_cons_of_mem _ hmem) hgone, nofun⟩
      next =>
        rcases List.eq_nil_or_concat cache with rfl | ⟨front, last, rfl⟩
        · simp
        · rw [List.concat_eq_append] at hnodup hmiss ⊢
          rw [List.dropLast_concat, List.getLast?_concat, List.mem_append, List.mem_singleton,
            Option.some.injEq, List.mem_cons]
          have hlast : last ∉ front := by
            intro hmem
            exact (List.nodup_append.mp hnodup).2.2 last hmem last (List.mem_singleton_self last) rfl
          have hpage : last ≠ page := by
            rintro rfl
            exact hmiss (List.mem_append_right _ (List.mem_singleton_self _))
          constructor
          · rintro ⟨hfront | hsame, hgone⟩
            · exact absurd (.inr hfront) hgone
            · exact hsame.symm
          · rintro rfl
            exact ⟨.inr rfl, fun hstill => hstill.elim hpage hlast⟩

end Foundation

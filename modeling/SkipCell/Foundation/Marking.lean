import Mathlib

/-! # Marks

A traversal marks positions of an array, each of them once: a position is fresh
before it is marked. The positions that one part of a traversal marks are
therefore distinct from those of the next.
-/

namespace Foundation

variable {α : Type} {fresh marked : α} {before between after : List α}

/-- `after` is `before` with `positions`, which were fresh, marked. -/
structure Marks (fresh marked : α) (before after : List α) (positions : List Nat) : Prop where
  nodup : positions.Nodup
  fresh : ∀ position ∈ positions, before[position]? = some fresh
  result : ∀ position, after[position]? =
    if position ∈ positions then some marked else before[position]?

theorem count_le_of_getElem? [DecidableEq α] {value : α} {larger smaller : List α}
    (hvalues : ∀ position : Nat, smaller[position]? = some value →
      larger[position]? = some value) :
    smaller.count value ≤ larger.count value := by
  induction smaller generalizing larger with
  | nil => exact Nat.zero_le _
  | cons head smaller ih =>
    cases larger with
    | nil =>
      apply Nat.le_of_eq
      apply List.count_eq_zero_of_not_mem
      intro hmem
      obtain ⟨position, hposition⟩ := List.mem_iff_getElem?.mp hmem
      exact absurd (hvalues position hposition) nofun
    | cons other larger =>
      have hrest := ih fun position => hvalues (position + 1)
      rw [List.count_cons, List.count_cons]
      by_cases hhead : head = value
      · subst hhead
        obtain rfl := Option.some.inj (hvalues 0 rfl)
        omega
      · simp only [beq_iff_eq, hhead, if_false]
        omega

namespace Marks

theorem refl (values : List α) : Marks fresh marked values values [] :=
  ⟨List.nodup_nil, fun _ hmem => absurd hmem List.not_mem_nil, fun _ => by simp⟩

theorem set {position : Nat} (hfresh : before[position]? = some fresh) :
    Marks fresh marked before (before.set position marked) [position] := by
  refine ⟨List.nodup_singleton position, ?_, fun other => ?_⟩
  · intro other hother
    rwa [List.mem_singleton.mp hother]
  · obtain ⟨hbound, -⟩ := List.getElem_of_getElem? hfresh
    by_cases hsame : position = other
    · subst hsame
      simp [hbound]
    · rw [List.getElem?_set_ne hsame, if_neg (by simpa using Ne.symm hsame)]

theorem append (hne : fresh ≠ marked) {first second : List Nat}
    (hfirst : Marks fresh marked before between first)
    (hsecond : Marks fresh marked between after second) :
    Marks fresh marked before after (first ++ second) := by
  have hdisjoint : ∀ position ∈ second, position ∉ first := by
    intro position hposition hmem
    have hmarked := hfirst.result position
    rw [if_pos hmem, hsecond.fresh position hposition] at hmarked
    exact hne (Option.some.inj hmarked)
  refine ⟨?_, fun position hposition => ?_, fun position => ?_⟩
  · apply List.nodup_append.mpr
    refine ⟨hfirst.nodup, hsecond.nodup, ?_⟩
    rintro position hmem other hother rfl
    exact hdisjoint position hother hmem
  · rcases List.mem_append.mp hposition with hmem | hmem
    · exact hfirst.fresh position hmem
    · have hbefore := hfirst.result position
      rw [if_neg (hdisjoint position hmem), hsecond.fresh position hmem] at hbefore
      exact hbefore.symm
  · rw [hsecond.result, hfirst.result]
    by_cases hmem : position ∈ second
    · simp [hmem]
    · simp [hmem]

section

variable {positions : List Nat} (hmarks : Marks fresh marked before after positions)
include hmarks

theorem marked_of_mem {position : Nat} (hposition : position ∈ positions) :
    after[position]? = some marked := by
  rw [hmarks.result, if_pos hposition]

theorem lt_length {position : Nat} (hposition : position ∈ positions) : position < before.length :=
  (List.getElem_of_getElem? (hmarks.fresh position hposition)).1

theorem mem_of_complete (hcomplete : fresh ∉ after) {position : Nat}
    (hfresh : before[position]? = some fresh) : position ∈ positions := by
  by_contra hmem
  have hafter := hmarks.result position
  rw [if_neg hmem, hfresh] at hafter
  exact hcomplete (List.mem_of_getElem? hafter)

end

theorem count_le [DecidableEq α] {positions : List Nat} (hne : fresh ≠ marked)
    (hmarks : Marks fresh marked before after positions) :
    after.count fresh ≤ before.count fresh := by
  apply count_le_of_getElem?
  intro position hafter
  have hresult := hmarks.result position
  split at hresult
  next hmem => exact absurd (Option.some.inj (hafter.symm.trans hresult)) hne
  next hmem => rw [← hresult, hafter]

end Marks

end Foundation

import SkipCell.Foundation.AssocMap

/-! # The front of a ranking

The leading values of a ranking are the front of the wanted values in order; there is one such
list.
-/

namespace Foundation

universe u

section Ranking

variable {α : Type u} {before : α → α → Prop} {wanted : α → Prop} {limit : Nat}

/-- The first wanted values, at most `limit` of them. -/
structure Leading (before : α → α → Prop) (wanted : α → Prop) (limit : Nat) (list : List α) :
    Prop where
  ordered : list.Pairwise before
  bounded : list.length ≤ limit
  chosen : ∀ value ∈ list, wanted value
  rest : ∀ value, wanted value → value ∉ list →
    list.length = limit ∧ ∀ listed ∈ list, before listed value

theorem leading_take {all : List α} (hordered : all.Pairwise before)
    (hwanted : ∀ value, value ∈ all ↔ wanted value) : Leading before wanted limit (all.take limit) where
  ordered := hordered.take
  bounded := List.length_take_le limit all
  chosen value hvalue := (hwanted value).mp (List.mem_of_mem_take hvalue)
  rest value hvalue hbehind := by
    have hsplit := List.take_append_drop limit all
    have hmem := (hwanted value).mpr hvalue
    rw [← hsplit] at hmem hordered
    have hdropped := (List.mem_append.mp hmem).resolve_left hbehind
    constructor
    · have hsome := List.length_pos_of_mem hdropped
      rw [List.length_drop] at hsome
      exact List.length_take_of_le (by omega)
    · intro listed hlisted
      exact (List.pairwise_append.mp hordered).2.2 listed hlisted value hdropped

variable {first second : List α}

theorem Leading.subset_or [Std.Asymm before] (hfirst : Leading before wanted limit first)
    (hsecond : Leading before wanted limit second) :
    first ⊆ second ∨ second ⊆ first := by
  by_contra hneither
  simp only [not_or, List.subset_def, not_forall] at hneither
  obtain ⟨⟨left, hleft, hleftOut⟩, right, hright, hrightOut⟩ := hneither
  have hbefore := (hfirst.rest right (hsecond.chosen right hright) hrightOut).2 left hleft
  have hbehind := (hsecond.rest left (hfirst.chosen left hleft) hleftOut).2 right hright
  exact asymm hbefore hbehind

theorem Leading.subset_symm [Std.Irrefl before] (hfirst : Leading before wanted limit first)
    (hsecond : Leading before wanted limit second) (hinside : first ⊆ second) : second ⊆ first := by
  intro value hvalue
  by_contra hout
  have hlength := (hfirst.rest value (hsecond.chosen value hvalue) hout).1
  have hperm := (List.subperm_of_subset hfirst.ordered.nodup hinside).perm_of_length_le
    (hlength ▸ hsecond.bounded)
  exact hout (hperm.mem_iff.mpr hvalue)

theorem Leading.unique [Std.Asymm before] (hfirst : Leading before wanted limit first)
    (hsecond : Leading before wanted limit second) :
    first = second := by
  refine hfirst.ordered.eq_of_mem_iff hsecond.ordered fun value => ?_
  rcases hfirst.subset_or hsecond with hinside | hinside
  · exact ⟨fun hvalue => hinside hvalue, fun hvalue => hfirst.subset_symm hsecond hinside hvalue⟩
  · exact ⟨fun hvalue => hsecond.subset_symm hfirst hinside hvalue, fun hvalue => hinside hvalue⟩

theorem Leading.insert [IsTrans α before] [Std.Irrefl before] {list whole : List α} {value : α}
    (hleading : Leading before wanted limit list) (hperm : whole.Perm (value :: list))
    (hordered : whole.Pairwise before) :
    Leading before (fun other => wanted other ∨ other = value) limit (whole.take limit) where
  ordered := hordered.take
  bounded := List.length_take_le limit whole
  chosen other hother := by
    rcases List.mem_cons.mp (hperm.mem_iff.mp (List.mem_of_mem_take hother)) with rfl | hlisted
    · exact .inr rfl
    · exact .inl (hleading.chosen other hlisted)
  rest other hother hout := by
    have hsplit := List.take_append_drop limit whole
    have hcross : ∀ front ∈ whole.take limit, ∀ behind ∈ whole.drop limit, before front behind :=
      (List.pairwise_append.mp (hsplit.symm ▸ hordered)).2.2
    by_cases hmem : other ∈ whole
    · have hdropped := (List.mem_append.mp (hsplit.symm ▸ hmem)).resolve_left hout
      refine ⟨?_, fun listed hlisted => hcross listed hlisted other hdropped⟩
      have hsome := List.length_pos_of_mem hdropped
      rw [List.length_drop] at hsome
      exact List.length_take_of_le (by omega)
    · have hnew : other ≠ value := fun hsame =>
        hmem (hperm.mem_iff.mpr (hsame ▸ List.mem_cons_self))
      have hold : other ∉ list := fun hlisted =>
        hmem (hperm.mem_iff.mpr (List.mem_cons_of_mem _ hlisted))
      obtain ⟨hfull, hbefore⟩ := hleading.rest other (hother.resolve_right hnew) hold
      have hlength : whole.length = limit + 1 := by
        rw [hperm.length_eq, List.length_cons, hfull]
      refine ⟨List.length_take_of_le (by omega), fun listed hlisted => ?_⟩
      rcases List.mem_cons.mp (hperm.mem_iff.mp (List.mem_of_mem_take hlisted)) with rfl | hlisted'
      · -- something is cut off, and it is in front of what never was in the list
        have hinside : limit < whole.length := by omega
        have hlast := List.mem_drop_iff_getElem.mpr
          ⟨0, by omega, (show whole[limit + 0] = whole[limit] from rfl)⟩
        have hcut := hcross _ hlisted _ hlast
        refine IsTrans.trans _ _ _ hcut (hbefore _ ?_)
        refine (List.mem_cons.mp (hperm.mem_iff.mp (List.getElem_mem hinside))).resolve_left ?_
        intro hsame
        rw [hsame] at hcut
        exact irrefl _ hcut
      · exact hbefore listed hlisted'

end Ranking

end Foundation

import Mathlib

/-! # Blocks numbered by their first occurrence

A sequence of labels divides its positions into blocks. Of all sequences with the same blocks one
has the labels `0, 1, ..` in the order in which they first occur, so a relabelling that ends in
such a sequence does not depend on the labels that it started from.
-/

namespace Foundation

universe u v w

variable {α : Type u} {β : Type v} {γ : Type w}

/-- Two sequences have equal labels at the same pairs of positions. -/
structure SameBlocks (first : List α) (second : List β) : Prop where
  length : first.length = second.length
  blocks : ∀ left right : Nat, first[left]? = first[right]? ↔ second[left]? = second[right]?

namespace SameBlocks

variable {first : List α} {second : List β} {third : List γ}

theorem refl (labels : List α) : SameBlocks labels labels := ⟨rfl, fun _ _ => Iff.rfl⟩

theorem symm (hsame : SameBlocks first second) : SameBlocks second first :=
  ⟨hsame.length.symm, fun left right => (hsame.blocks left right).symm⟩

theorem trans (hfirst : SameBlocks first second) (hsecond : SameBlocks second third) :
    SameBlocks first third :=
  ⟨hfirst.length.trans hsecond.length,
    fun left right => (hfirst.blocks left right).trans (hsecond.blocks left right)⟩

theorem map {convert : α → β}
    (hinjective : ∀ label ∈ first, ∀ other ∈ first, convert label = convert other → label = other) :
    SameBlocks first (first.map convert) := by
  refine ⟨(List.length_map _).symm, fun left right => ?_⟩
  rw [List.getElem?_map, List.getElem?_map]
  constructor
  · intro hsame
    rw [hsame]
  · intro hsame
    cases hleft : first[left]? with
    | none =>
      rw [hleft, Option.map_none, eq_comm, Option.map_eq_none_iff] at hsame
      exact hsame.symm
    | some label =>
      rw [hleft, Option.map_some, eq_comm, Option.map_eq_some_iff] at hsame
      obtain ⟨other, hother, hconvert⟩ := hsame
      rw [hother, hinjective label (List.mem_of_getElem? hleft) other
        (List.mem_of_getElem? hother) hconvert.symm]

variable [DecidableEq α] [DecidableEq β]

theorem idxOf_le {label : β} {position : Nat} (hposition : second[position]? = some label) :
    second.idxOf label ≤ position := by
  have hmem := List.mem_of_getElem? hposition
  refine Nat.le_of_lt_succ ((List.mem_take_iff_idxOf_lt hmem).mp ?_)
  refine List.mem_of_getElem? (i := position) ?_
  rwa [List.getElem?_take_of_lt (Nat.lt_succ_self position)]

section

variable (hsame : SameBlocks first second) {position : Nat} {label : α} {other : β}
  (hlabel : first[position]? = some label) (hother : second[position]? = some other)
include hsame hlabel hother

theorem idxOf_le_idxOf :
    second.idxOf other ≤ first.idxOf label := by
  have hfound := List.getElem?_idxOf (List.mem_of_getElem? hlabel)
  exact idxOf_le (((hsame.blocks _ position).mp (hfound.trans hlabel.symm)).trans hother)

theorem idxOf_eq :
    first.idxOf label = second.idxOf other :=
  Nat.le_antisymm (hsame.symm.idxOf_le_idxOf hother hlabel) (hsame.idxOf_le_idxOf hlabel hother)

end

end SameBlocks

/-- The labels are the numbers below `count`, in the order in which they first occur. -/
structure FirstOccurrence (count : Nat) (labels : List Nat) : Prop where
  dense : ∀ label, label ∈ labels ↔ label < count
  ordered : ∀ first second, first < second → second < count →
    labels.idxOf first < labels.idxOf second

namespace FirstOccurrence

variable {count other : Nat} {first second : List Nat}

theorem label_eq (hfirst : FirstOccurrence count first) (hsecond : FirstOccurrence other second)
    (hsame : SameBlocks first second) {label : Nat}
    (hbelow : ∀ smaller < label, ∀ position : Nat,
      first[position]? = some smaller ↔ second[position]? = some smaller)
    {position : Nat} (hposition : first[position]? = some label) :
    second[position]? = some label := by
  have hinside := (List.getElem_of_getElem? hposition).1
  have hother : position < second.length := hsame.length ▸ hinside
  have hlabel := List.getElem?_eq_getElem hother
  generalize second[position] = found at hlabel
  rcases Nat.lt_trichotomy found label with hless | rfl | hgreater
  · have hback := (hbelow found hless position).mpr hlabel
    rw [hposition] at hback
    exact absurd (Option.some.inj hback) (Nat.ne_of_gt hless)
  · exact hlabel
  · -- then `label` stands elsewhere in `second`, in front of this block, and behind it in `first`
    have hbound := (hsecond.dense found).mp (List.mem_of_getElem? hlabel)
    have hmem := (hsecond.dense label).mpr (Nat.lt_trans hgreater hbound)
    have hplace := List.getElem?_idxOf hmem
    have hbefore := hsecond.ordered label found hgreater hbound
    have hfront : second.idxOf label < first.length :=
      hsame.length.symm ▸ List.idxOf_lt_length_of_mem hmem
    have hfound := List.getElem?_eq_getElem hfront
    generalize first[second.idxOf label] = behind at hfound
    have hne : behind ≠ label := by
      rintro rfl
      have hboth := (hsame.blocks _ position).mp (hfound.trans hposition.symm)
      rw [hplace, hlabel] at hboth
      exact absurd (Option.some.inj hboth) (Nat.ne_of_lt hgreater)
    have hnotBelow : ¬ behind < label := by
      intro hless
      have hback := (hbelow behind hless _).mp hfound
      rw [hplace] at hback
      exact absurd (Option.some.inj hback) hne.symm
    have hafter := hfirst.ordered label behind (by omega)
      ((hfirst.dense behind).mp (List.mem_of_getElem? hfound))
    rw [hsame.idxOf_eq hposition hlabel, hsame.idxOf_eq hfound hplace] at hafter
    omega

theorem unique (hfirst : FirstOccurrence count first) (hsecond : FirstOccurrence other second)
    (hsame : SameBlocks first second) : first = second := by
  have hlabels : ∀ label position : Nat,
      first[position]? = some label ↔ second[position]? = some label := by
    intro label
    induction label using Nat.strongRecOn with
    | _ label ih =>
      intro position
      exact ⟨hfirst.label_eq hsecond hsame ih,
        hsecond.label_eq hfirst hsame.symm fun smaller hsmaller position =>
          (ih smaller hsmaller position).symm⟩
  exact List.ext_getElem? fun position => Option.ext fun label => hlabels label position

end FirstOccurrence

theorem firstOccurrence_map {labels order : List Nat} {count : Nat}
    (hperm : order.Perm (List.range count)) (hdense : ∀ label, label ∈ labels ↔ label < count)
    (hsorted : order.Pairwise fun left right => labels.idxOf left < labels.idxOf right) :
    FirstOccurrence count (labels.map order.idxOf) ∧
      SameBlocks labels (labels.map order.idxOf) := by
  have hlisted : ∀ label, label ∈ labels ↔ label ∈ order := fun label => by
    rw [hdense, hperm.mem_iff, List.mem_range]
  have hnodup : order.Nodup := hperm.nodup_iff.mpr List.nodup_range
  have hlength : order.length = count := by rw [hperm.length_eq, List.length_range]
  have hsame : SameBlocks labels (labels.map order.idxOf) := by
    refine .map fun label hlabel other _ hidx => ?_
    exact (List.idxOf_inj ((hlisted label).mp hlabel)).mp hidx
  refine ⟨⟨fun number => ?_, fun first second hless hbound => ?_⟩, hsame⟩
  · rw [List.mem_map]
    constructor
    · rintro ⟨label, hlabel, rfl⟩
      rw [← hlength]
      exact List.idxOf_lt_length_of_mem ((hlisted label).mp hlabel)
    · intro hnumber
      have hinside : number < order.length := hlength.symm ▸ hnumber
      exact ⟨order[number], (hlisted _).mpr (List.getElem_mem hinside),
        hnodup.idxOf_getElem number hinside⟩
  · have hinside : second < order.length := hlength.symm ▸ hbound
    have hfront : first < order.length := Nat.lt_trans hless hinside
    have hplace : ∀ number (hnumber : number < order.length),
        labels.idxOf order[number] = (labels.map order.idxOf).idxOf number := by
      intro number hnumber
      have hmem := (hlisted _).mpr (List.getElem_mem hnumber)
      have hfound := List.getElem?_idxOf hmem
      refine hsame.idxOf_eq hfound ?_
      rw [List.getElem?_map, hfound, Option.map_some, hnodup.idxOf_getElem number hnumber]
    rw [← hplace first hfront, ← hplace second hinside]
    exact List.pairwise_iff_getElem.mp hsorted first second hfront hinside hless

end Foundation

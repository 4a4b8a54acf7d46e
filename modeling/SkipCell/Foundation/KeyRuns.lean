import Mathlib

/-! # Runs of equal keys

A sequence that is sorted by the keys of its elements falls into runs of equal keys, and the keys
of later runs are larger.
-/

namespace Foundation

universe u v

variable {α : Type u} {Key : Type v} [LinearOrder Key] {key : α → Key}

/-- Runs of equal keys in a sequence sorted by them. -/
structure KeyRuns (key : α → Key) (runs : List (List α)) : Prop where
  nonempty : [] ∉ runs
  same : ∀ run ∈ runs, ∀ first ∈ run, ∀ second ∈ run, key first = key second
  later : runs.Pairwise fun left right => ∀ first ∈ left, ∀ second ∈ right, key first < key second

theorem KeyRuns.unique {runs : List (List α)} (hruns : KeyRuns key runs) {left right : List α}
    (hleft : left ∈ runs) (hright : right ∈ runs) {first second : α} (hfirst : first ∈ left)
    (hsecond : second ∈ right) (hsame : key first = key second) : left = right := by
  by_contra hne
  have : Std.Symm fun left right : List α =>
      ∀ first ∈ left, ∀ second ∈ right, key first ≠ key second :=
    ⟨fun left right hother first hfirst second hsecond =>
      (hother second hsecond first hfirst).symm⟩
  have hapart : runs.Pairwise fun left right =>
      ∀ first ∈ left, ∀ second ∈ right, key first ≠ key second :=
    hruns.later.imp fun hless first hfirst second hsecond => (hless first hfirst second hsecond).ne
  exact hapart.forall hleft hright hne first hfirst second hsecond hsame

omit [LinearOrder Key] in
theorem key_eq_of_isChain {first : α} {rest : List α}
    (hrun : (first :: rest).IsChain fun left right => key left = key right) :
    ∀ value ∈ first :: rest, key value = key first := by
  induction rest generalizing first with
  | nil =>
    intro value hvalue
    rw [List.mem_singleton.mp hvalue]
  | cons second rest ih =>
    obtain ⟨hsame, hrest⟩ := List.isChain_cons_cons.mp hrun
    intro value hvalue
    rcases List.mem_cons.mp hvalue with rfl | hvalue
    · rfl
    · rw [ih hrest value hvalue, hsame]

theorem keyRuns_of_isChain {runs : List (List α)} (hnonempty : [] ∉ runs)
    (hsame : ∀ run ∈ runs, run.IsChain fun left right => key left = key right)
    (hapart : runs.IsChain fun left right => ∃ hleft hright,
      key (left.getLast hleft) ≠ key (right.head hright))
    (hsorted : runs.flatten.Pairwise fun left right => key left ≤ key right) :
    KeyRuns key runs := by
  have hequal : ∀ run ∈ runs, ∀ first ∈ run, ∀ second ∈ run, key first = key second := by
    intro run hrun first hfirst second hsecond
    cases run with
    | nil => exact absurd hfirst List.not_mem_nil
    | cons value rest =>
      have hkeys := key_eq_of_isChain (hsame _ hrun)
      rw [hkeys first hfirst, hkeys second hsecond]
  refine ⟨hnonempty, hequal, ?_⟩
  clear hsame
  induction runs with
  | nil => exact .nil
  | cons run runs ih =>
    have hlater := ih (fun hnone => hnonempty (List.mem_cons_of_mem _ hnone)) hapart.tail
      (List.pairwise_append.mp (List.flatten_cons ▸ hsorted)).2.1
      fun other hother => hequal other (List.mem_cons_of_mem _ hother)
    refine List.pairwise_cons.mpr ⟨fun other hother first hfirst second hsecond => ?_, hlater⟩
    obtain ⟨-, -, hcross⟩ := List.pairwise_append.mp (List.flatten_cons ▸ hsorted)
    refine lt_of_le_of_ne
      (hcross first hfirst second (List.mem_flatten.mpr ⟨other, hother, hsecond⟩)) ?_
    cases runs with
    | nil => exact absurd hother List.not_mem_nil
    | cons next rest =>
      obtain ⟨⟨hleft, hright, hne⟩, -⟩ := List.isChain_cons_cons.mp hapart
      have hlast := hequal run List.mem_cons_self first hfirst _ (List.getLast_mem hleft)
      rcases List.mem_cons.mp hother with rfl | hother
      · rw [hlast, hequal other (List.mem_cons_of_mem _ List.mem_cons_self) second hsecond _
          (List.head_mem hright)]
        exact hne
      · -- the run between them is above the one and below the other
        have hmiddle : next ∈ next :: rest := List.mem_cons_self
        have hle := hcross first hfirst _
          (List.mem_flatten.mpr ⟨next, hmiddle, List.head_mem hright⟩)
        have hless := (List.pairwise_cons.mp hlater).1 other hother _ (List.head_mem hright)
          second hsecond
        exact (lt_of_le_of_lt hle hless).ne

theorem keyRuns_splitBy {values : List α}
    (hsorted : values.Pairwise fun left right => key left ≤ key right) :
    KeyRuns key (values.splitBy fun left right => key left = key right) := by
  refine keyRuns_of_isChain (List.nil_notMem_splitBy _ _) (fun run hrun => ?_) ?_ ?_
  · exact (List.isChain_of_mem_splitBy hrun).imp fun _ _ hsame => of_decide_eq_true hsame
  · refine (List.isChain_getLast_head_splitBy _ values).imp fun left right hapart => ?_
    obtain ⟨hleft, hright, hne⟩ := hapart
    exact ⟨hleft, hright, of_decide_eq_false hne⟩
  · rwa [List.flatten_splitBy]

end Foundation

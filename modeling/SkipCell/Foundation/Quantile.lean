import Mathlib

/-! # Cutting a sorted list at quantiles

The keys of a sorted list at given ranks cut every key into bins: the bin of a key
is the first cut that is not below it. A bin ends at its rank and takes in the
keys behind the rank that equal the cut.
-/

namespace Foundation

/-- The rank at which the first `boundary` of `bins` nearly equal bins end. -/
def nearestRank (count bins boundary : Nat) : Nat :=
  count / bins * boundary + (count % bins * boundary + bins - 1) / bins

section Rank

variable {count bins boundary : Nat}

@[simp]
theorem nearestRank_zero : nearestRank count bins 0 = 0 := by
  obtain rfl | hbins := Nat.eq_zero_or_pos bins
  · simp [nearestRank]
  · have hlast : (bins - 1) / bins = 0 := Nat.div_eq_of_lt (by omega)
    simp [nearestRank, hlast]

@[simp]
theorem nearestRank_last (hbins : 0 < bins) : nearestRank count bins bins = count := by
  have hceil : (count % bins * bins + bins - 1) / bins = count % bins := by
    rw [Nat.add_sub_assoc hbins, Nat.add_comm, Nat.add_mul_div_right _ _ hbins,
      Nat.div_eq_of_lt (by omega), Nat.zero_add]
  rw [nearestRank, hceil, Nat.mul_comm]
  exact Nat.div_add_mod count bins

theorem nearestRank_mono {first second : Nat} (hle : first ≤ second) :
    nearestRank count bins first ≤ nearestRank count bins second := by
  unfold nearestRank
  have hbase := Nat.mul_le_mul_left (count / bins) hle
  have hrest := Nat.mul_le_mul_left (count % bins) hle
  have hceil : (count % bins * first + bins - 1) / bins ≤
      (count % bins * second + bins - 1) / bins := Nat.div_le_div_right (by omega)
  omega

theorem le_nearestRank (hcount : bins ≤ count) (hbins : 0 < bins) :
    boundary ≤ nearestRank count bins boundary := by
  have hbase : 1 ≤ count / bins := (Nat.one_le_div_iff hbins).mpr hcount
  calc boundary
      = 1 * boundary := (Nat.one_mul boundary).symm
    _ ≤ count / bins * boundary := Nat.mul_le_mul_right boundary hbase
    _ ≤ nearestRank count bins boundary := Nat.le_add_right _ _

end Rank

variable {Key : Type} [LinearOrder Key]

/-- How many keys behind a rank equal the last key before it. -/
def tiesAfter (sorted : List Key) : Nat → Nat
  | 0 => 0
  | rank + 1 => (sorted.drop (rank + 1)).countP fun key => sorted[rank]? = some key

theorem countP_le_rank {sorted : List Key} (hsorted : sorted.Pairwise (· ≤ ·)) {rank : Nat}
    {cut : Key} (hcut : sorted[rank]? = some cut) :
    sorted.countP (· ≤ cut) = rank + 1 + tiesAfter sorted (rank + 1) := by
  obtain ⟨hrank, rfl⟩ := List.getElem_of_getElem? hcut
  have hbefore : (sorted.take (rank + 1)).countP (· ≤ sorted[rank]) = rank + 1 := by
    rw [List.countP_eq_length.mpr, List.length_take_of_le hrank]
    intro key hkey
    obtain ⟨position, hposition, rfl⟩ := List.mem_iff_getElem.mp hkey
    rw [List.length_take] at hposition
    rw [List.getElem_take, decide_eq_true_iff]
    obtain heq | hlt := Nat.eq_or_lt_of_le (show position ≤ rank by omega)
    · subst heq
      exact le_rfl
    · exact List.pairwise_iff_getElem.mp hsorted position rank _ _ hlt
  have hbehind : (sorted.drop (rank + 1)).countP (· ≤ sorted[rank]) =
      tiesAfter sorted (rank + 1) := by
    unfold tiesAfter
    apply List.countP_congr
    intro key hkey
    obtain ⟨position, hposition, rfl⟩ := List.mem_iff_getElem.mp hkey
    rw [List.length_drop] at hposition
    have hle := List.pairwise_iff_getElem.mp hsorted rank (rank + 1 + position) hrank
      (by omega) (by omega)
    simp only [List.getElem_drop, decide_eq_true_iff, hcut, Option.some.injEq]
    exact ⟨fun hge => le_antisymm hle hge, fun heq => heq.symm.le⟩
  calc sorted.countP (· ≤ sorted[rank])
      = (sorted.take (rank + 1) ++ sorted.drop (rank + 1)).countP (· ≤ sorted[rank]) := by
        rw [List.take_append_drop]
    _ = rank + 1 + tiesAfter sorted (rank + 1) := by
        rw [List.countP_append, hbefore, hbehind]

/-- The first cut that is not below the key, or the bin behind all cuts. -/
def lowerBound (cuts : List Key) (key : Key) : Nat := cuts.findIdx (key ≤ ·)

theorem lowerBound_le_length (cuts : List Key) (key : Key) : lowerBound cuts key ≤ cuts.length :=
  List.findIdx_le_length

theorem lowerBound_le_iff {cuts : List Key} (hcuts : cuts.Pairwise (· ≤ ·)) {bin : Nat}
    {cut : Key} (hcut : cuts[bin]? = some cut) (key : Key) :
    lowerBound cuts key ≤ bin ↔ key ≤ cut := by
  obtain ⟨hbin, rfl⟩ := List.getElem_of_getElem? hcut
  constructor
  · intro hle
    have hlt : lowerBound cuts key < cuts.length := by omega
    have hkey : key ≤ cuts[lowerBound cuts key] :=
      of_decide_eq_true (List.findIdx_getElem (w := hlt))
    obtain heq | hbefore := Nat.eq_or_lt_of_le hle
    · simpa only [heq] using hkey
    · exact hkey.trans (List.pairwise_iff_getElem.mp hcuts _ _ hlt hbin hbefore)
  · intro hkey
    by_contra hafter
    have hnot := List.not_of_lt_findIdx (Nat.lt_of_not_le hafter)
    simp [hkey] at hnot

/-- Where a bin ends once it has taken in its ties. -/
def binEnd (sorted : List Key) (bins boundary : Nat) : Nat :=
  nearestRank sorted.length bins boundary +
    tiesAfter sorted (nearestRank sorted.length bins boundary)

section Ends

variable {sorted : List Key} {bins : Nat}

@[simp]
theorem binEnd_zero : binEnd sorted bins 0 = 0 := by
  simp [binEnd, tiesAfter]

theorem binEnd_last (hbins : 0 < bins) : binEnd sorted bins bins = sorted.length := by
  have hties : tiesAfter sorted sorted.length = 0 := by
    cases hlength : sorted.length with
    | zero => rfl
    | succ rank => simp [tiesAfter, List.drop_eq_nil_of_le (Nat.le_of_eq hlength)]
  rw [binEnd, nearestRank_last hbins, hties, Nat.add_zero]

end Ends

omit [LinearOrder Key] in
theorem countP_lt_succ (value : Key → Nat) (keys : List Key) (bound : Nat) :
    keys.countP (value · < bound + 1) =
      keys.countP (value · < bound) + keys.countP (value · = bound) := by
  induction keys with
  | nil => rfl
  | cons key keys ih =>
    simp only [List.countP_cons, decide_eq_true_eq, ih]
    split_ifs <;> omega

/-- The cuts of a sorted list: the keys at the ranks where the bins but the last end. -/
structure QuantileCuts (sorted : List Key) (bins : Nat) (cuts : List Key) : Prop where
  length_cuts : cuts.length + 1 = bins
  bins_le : bins ≤ sorted.length
  getElem?_cuts : ∀ bin, bin < cuts.length →
    cuts[bin]? = sorted[nearestRank sorted.length bins (bin + 1) - 1]?

namespace QuantileCuts

variable {sorted cuts : List Key} {bins : Nat}

omit [LinearOrder Key] in
theorem bins_pos (hquantiles : QuantileCuts sorted bins cuts) : 0 < bins := by
  have := hquantiles.length_cuts
  omega

section

variable (hquantiles : QuantileCuts sorted bins cuts) (hsorted : sorted.Pairwise (· ≤ ·))
include hquantiles hsorted

theorem pairwise_cuts : cuts.Pairwise (· ≤ ·) := by
  apply List.pairwise_iff_getElem.mpr
  intro first second hfirst hsecond hlt
  have hleft := hquantiles.getElem?_cuts first hfirst
  have hright := hquantiles.getElem?_cuts second hsecond
  rw [List.getElem?_eq_getElem hfirst, eq_comm, List.getElem?_eq_some_iff] at hleft
  rw [List.getElem?_eq_getElem hsecond, eq_comm, List.getElem?_eq_some_iff] at hright
  obtain ⟨hfirstRank, hleft⟩ := hleft
  obtain ⟨hsecondRank, hright⟩ := hright
  have hranks : nearestRank sorted.length bins (first + 1) - 1 ≤
      nearestRank sorted.length bins (second + 1) - 1 := by
    have hmono : nearestRank sorted.length bins (first + 1) ≤
        nearestRank sorted.length bins (second + 1) := nearestRank_mono (by omega)
    omega
  rw [← hleft, ← hright]
  obtain heq | hbefore := Nat.eq_or_lt_of_le hranks
  · simp only [heq, le_refl]
  · exact List.pairwise_iff_getElem.mp hsorted _ _ hfirstRank hsecondRank hbefore

theorem countP_lowerBound_lt {boundary : Nat} (hboundary : boundary ≤ bins) :
    sorted.countP (lowerBound cuts · < boundary) = binEnd sorted bins boundary := by
  have hlength := hquantiles.length_cuts
  cases boundary with
  | zero => simp
  | succ bin =>
    obtain hlast | hbin := Nat.eq_or_lt_of_le (show bin ≤ cuts.length by omega)
    · -- Behind the last cut there is only the last bin.
      rw [hlast, hlength, binEnd_last hquantiles.bins_pos, List.countP_eq_length.mpr]
      intro key _
      have := lowerBound_le_length cuts key
      rw [decide_eq_true_iff]
      omega
    · obtain ⟨cut, hcut⟩ : ∃ cut, cuts[bin]? = some cut := ⟨_, List.getElem?_eq_getElem hbin⟩
      have hrank := hquantiles.getElem?_cuts bin hbin
      have hge : bin + 1 ≤ nearestRank sorted.length bins (bin + 1) :=
        le_nearestRank hquantiles.bins_le hquantiles.bins_pos
      obtain ⟨rank, hsucc⟩ : ∃ rank, nearestRank sorted.length bins (bin + 1) = rank + 1 :=
        ⟨_, (Nat.sub_add_cancel (by omega)).symm⟩
      rw [hcut, hsucc, Nat.add_sub_cancel] at hrank
      rw [binEnd, hsucc, ← countP_le_rank hsorted hrank.symm]
      apply List.countP_congr
      intro key _
      rw [decide_eq_true_iff, decide_eq_true_iff, Nat.lt_succ_iff]
      exact lowerBound_le_iff (hquantiles.pairwise_cuts hsorted) hcut key

theorem countP_lowerBound_eq {bin : Nat} (hbin : bin < bins) :
    binEnd sorted bins bin + sorted.countP (lowerBound cuts · = bin) =
      binEnd sorted bins (bin + 1) := by
  rw [← hquantiles.countP_lowerBound_lt hsorted hbin,
    ← hquantiles.countP_lowerBound_lt hsorted (Nat.le_of_lt hbin), countP_lt_succ]

end

end QuantileCuts

end Foundation

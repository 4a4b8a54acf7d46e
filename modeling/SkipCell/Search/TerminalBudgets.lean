import SkipCell.Search.Config

/-! # The hop and Cell budgets of the terminal phase

Three functions of the search list size, with the 32- and 64-bit sums of the
source, against the same formulas over the natural numbers.
-/

namespace SkipCell.Search

open Foundation

namespace SearchConfig

variable (config : SearchConfig)

def terminalApproachHops (searchListSize : UInt64) : UInt32 :=
  if !config.cellTerminalLAwareApproach then
    config.cellTerminalApproachHops
  else
    let scaledHops :=
      if searchListSize = 0 then 0
      else 1 + (searchListSize - 1) / config.cellTerminalApproachLDivisor.toUInt64
    let remainingHops := config.cellTerminalApproachHops - config.cellTerminalApproachBaseHops
    let baseHops :=
      if remainingHops.toUInt64 ≤ scaledHops then config.cellTerminalApproachHops
      else config.cellTerminalApproachBaseHops + scaledHops.toUInt32
    let extraHops :=
      if config.cellTerminalLowLStitchMaxL ≠ 0 ∧
          searchListSize ≤ config.cellTerminalLowLStitchMaxL.toUInt64 then
        config.cellTerminalLowLStitchExtraHops
      else 0
    min config.cellTerminalApproachHops (baseHops + extraHops)

def terminalCellBudget (searchListSize : UInt64) : UInt32 :=
  if !config.cellTerminalLAwareForest then
    config.cellRoutingCellBudget
  else
    let scaledCells :=
      if searchListSize = 0 then 0
      else 1 + (searchListSize - 1) / config.cellTerminalForestLDivisor.toUInt64
    let budget := max config.cellTerminalForestBaseCells.toUInt64 scaledCells
    let budget :=
      if config.cellTerminalLowLForestMaxL ≠ 0 ∧
          searchListSize ≤ config.cellTerminalLowLForestMaxL.toUInt64 then
        budget + config.cellTerminalLowLForestExtraCells.toUInt64
      else budget
    let budget :=
      if config.cellTerminalHighLForestMinL ≠ 0 ∧
          config.cellTerminalHighLForestMinL.toUInt64 ≤ searchListSize then
        let highLCap := config.cellTerminalHighLForestCellCap.toUInt64
        let highLCap :=
          if config.cellTerminalHighLForestCapLDivisor ≠ 0 then
            let reduction := (searchListSize - config.cellTerminalHighLForestMinL.toUInt64) /
              config.cellTerminalHighLForestCapLDivisor.toUInt64
            if highLCap ≤ reduction then 1 else highLCap - reduction
          else highLCap
        min budget highLCap
      else budget
    (min config.cellRoutingCellBudget.toUInt64 budget).toUInt32

def terminalRefineHops (searchListSize : UInt64) : UInt32 :=
  if !config.cellTerminalLAwareRefine then
    config.cellTerminalRefineHops
  else
    let scaledHops := searchListSize / config.cellTerminalRefineLDivisor.toUInt64
    let extraHops :=
      if config.cellTerminalLowLStitchMaxL ≠ 0 ∧
          searchListSize ≤ config.cellTerminalLowLStitchMaxL.toUInt64 then
        config.cellTerminalLowLStitchExtraHops.toUInt64
      else 0
    (min config.cellTerminalRefineHops.toUInt64
      (config.cellTerminalRefineBaseHops.toUInt64 + scaledHops + extraHops)).toUInt32

/-- The number of steps of `divisor` that cover a search list. -/
def scaled (searchListSize divisor : Nat) : Nat := (searchListSize + divisor - 1) / divisor

/-- The hops added at or below the threshold of low search list sizes. -/
def lowStitchHops (searchListSize : Nat) : Nat :=
  if config.cellTerminalLowLStitchMaxL.toNat ≠ 0 ∧
      searchListSize ≤ config.cellTerminalLowLStitchMaxL.toNat then
    config.cellTerminalLowLStitchExtraHops.toNat
  else 0

def approachHopsFormula (searchListSize : Nat) : Nat :=
  if config.cellTerminalLAwareApproach then
    min config.cellTerminalApproachHops.toNat
      (config.cellTerminalApproachBaseHops.toNat +
        scaled searchListSize config.cellTerminalApproachLDivisor.toNat +
        config.lowStitchHops searchListSize)
  else config.cellTerminalApproachHops.toNat

def lowForestCells (searchListSize : Nat) : Nat :=
  if config.cellTerminalLowLForestMaxL.toNat ≠ 0 ∧
      searchListSize ≤ config.cellTerminalLowLForestMaxL.toNat then
    config.cellTerminalLowLForestExtraCells.toNat
  else 0

/-- The cap at or above the threshold of high search list sizes, which falls
with the list size and stays positive. -/
def highForestCap (searchListSize : Nat) : Nat :=
  if config.cellTerminalHighLForestCapLDivisor.toNat = 0 then
    config.cellTerminalHighLForestCellCap.toNat
  else
    max 1 (config.cellTerminalHighLForestCellCap.toNat -
      (searchListSize - config.cellTerminalHighLForestMinL.toNat) /
        config.cellTerminalHighLForestCapLDivisor.toNat)

def cellBudgetFormula (searchListSize : Nat) : Nat :=
  if config.cellTerminalLAwareForest then
    let budget := max config.cellTerminalForestBaseCells.toNat
      (scaled searchListSize config.cellTerminalForestLDivisor.toNat) +
        config.lowForestCells searchListSize
    min config.cellRoutingCellBudget.toNat
      (if config.cellTerminalHighLForestMinL.toNat ≠ 0 ∧
          config.cellTerminalHighLForestMinL.toNat ≤ searchListSize then
        min budget (config.highForestCap searchListSize)
      else budget)
  else config.cellRoutingCellBudget.toNat

def refineHopsFormula (searchListSize : Nat) : Nat :=
  if config.cellTerminalLAwareRefine then
    min config.cellTerminalRefineHops.toNat
      (config.cellTerminalRefineBaseHops.toNat +
        searchListSize / config.cellTerminalRefineLDivisor.toNat +
        config.lowStitchHops searchListSize)
  else config.cellTerminalRefineHops.toNat

variable {config}

theorem ne_zero_iff {value : UInt32} : value ≠ 0 ↔ value.toNat ≠ 0 := by
  rw [Ne, ← UInt32.toNat_inj, UInt32.toNat_zero]

variable {searchListSize : UInt64}

theorem le_toUInt64_iff {value : UInt32} :
    searchListSize ≤ value.toUInt64 ↔ searchListSize.toNat ≤ value.toNat := by
  rw [UInt64.le_iff_toNat_le, UInt32.toNat_toUInt64]

theorem toNat_scaled (searchListSize : UInt64) {divisor : UInt32} (hdivisor : divisor ≠ 0) :
    (if searchListSize = 0 then 0 else 1 + (searchListSize - 1) / divisor.toUInt64 : UInt64).toNat =
      scaled searchListSize.toNat divisor.toNat := by
  have hpositive : 0 < divisor.toNat := Nat.pos_of_ne_zero (ne_zero_iff.mp hdivisor)
  unfold scaled
  split
  · next hzero =>
      rw [hzero, UInt64.toNat_zero, Nat.zero_add, Nat.div_eq_of_lt (by omega)]
  · next hsize =>
      have hsize : 1 ≤ searchListSize.toNat := by
        have : searchListSize.toNat ≠ 0 := fun hzero => hsize (UInt64.toNat_inj.mp hzero)
        omega
      have hquotient : (searchListSize.toNat - 1) / divisor.toNat ≤ searchListSize.toNat - 1 :=
        Nat.div_le_self _ _
      have hbound := searchListSize.toNat_lt
      rw [UInt64.toNat_add, UInt64.toNat_div, UInt64.toNat_sub_of_le _ _ (by
          rw [UInt64.le_iff_toNat_le]; exact hsize), UInt32.toNat_toUInt64, UInt64.toNat_one,
        Nat.mod_eq_of_lt (by omega),
        show searchListSize.toNat + divisor.toNat - 1 = searchListSize.toNat - 1 + divisor.toNat by
          omega, Nat.add_div_right _ hpositive, Nat.add_comm]

theorem toNat_min (left right : UInt64) : (min left right).toNat = min left.toNat right.toNat := by
  rw [show min left right = if left ≤ right then left else right from rfl, Nat.min_def]
  simp only [UInt64.le_iff_toNat_le]
  split <;> rfl

theorem toNat_max (left right : UInt64) : (max left right).toNat = max left.toNat right.toNat := by
  rw [show max left right = if left ≤ right then right else left from rfl, Nat.max_def]
  simp only [UInt64.le_iff_toNat_le]
  split <;> rfl

theorem toNat_min_single (left right : UInt32) :
    (min left right).toNat = min left.toNat right.toNat := by
  rw [show min left right = if left ≤ right then left else right from rfl, Nat.min_def]
  simp only [UInt32.le_iff_toNat_le]
  split <;> rfl

theorem toNat_capped (cap : UInt32) (budget : UInt64) :
    (min cap.toUInt64 budget).toUInt32.toNat = min cap.toNat budget.toNat := by
  have hbound := cap.toNat_lt
  rw [UInt64.toNat_toUInt32, toNat_min, UInt32.toNat_toUInt64]
  exact Nat.mod_eq_of_lt (by omega)

theorem toNat_lowStitch (searchListSize : UInt64) :
    (if config.cellTerminalLowLStitchMaxL ≠ 0 ∧
        searchListSize ≤ config.cellTerminalLowLStitchMaxL.toUInt64 then
      config.cellTerminalLowLStitchExtraHops else 0).toNat =
      config.lowStitchHops searchListSize.toNat := by
  unfold lowStitchHops
  simp only [ne_zero_iff, le_toUInt64_iff]
  split <;> rfl

theorem validateTerminal_of_validate (hhybrid : config.isHybrid = true)
    (hvalid : config.validate = .ok ()) : config.validateTerminal = .ok () :=
  ((validate_hybrid hhybrid).mp hvalid).2.2.1

theorem approach_accepted (hterminal : config.validateTerminal = .ok ())
    (haware : config.cellTerminalLAwareApproach = true) :
    config.cellTerminalApproachLDivisor ≠ 0 ∧
      config.cellTerminalApproachBaseHops ≤ config.cellTerminalApproachHops := by
  simp only [validateTerminal, bind_ok, reject_ok, haware] at hterminal
  grind

theorem forest_accepted (hterminal : config.validateTerminal = .ok ())
    (haware : config.cellTerminalLAwareForest = true) :
    config.cellTerminalForestLDivisor ≠ 0 ∧ config.cellTerminalForestBaseCells ≠ 0 ∧
      config.cellTerminalForestBaseCells ≤ config.cellRoutingCellBudget ∧
      (config.cellTerminalHighLForestMinL ≠ 0 → config.cellTerminalHighLForestCellCap ≠ 0) := by
  simp only [validateTerminal, bind_ok, reject_ok, haware] at hterminal
  grind

/-- The base hops of the source are the capped sum: the difference that bounds
the scaled hops does not wrap, and below it neither does the sum. -/
theorem toNat_baseHops {cap base : UInt32} {scaledHops : UInt64} (hbase : base ≤ cap) :
    (if (cap - base).toUInt64 ≤ scaledHops then cap else base + scaledHops.toUInt32).toNat =
      min cap.toNat (base.toNat + scaledHops.toNat) := by
  have hle := UInt32.le_iff_toNat_le.mp hbase
  have hcap := cap.toNat_lt
  have hremaining : (cap - base).toUInt64 ≤ scaledHops ↔
      cap.toNat - base.toNat ≤ scaledHops.toNat := by
    rw [UInt64.le_iff_toNat_le, UInt32.toNat_toUInt64, UInt32.toNat_sub_of_le _ _ hbase]
  by_cases henough : cap.toNat - base.toNat ≤ scaledHops.toNat
  · rw [if_pos (hremaining.mpr henough)]
    omega
  · rw [if_neg (mt hremaining.mp henough), UInt32.toNat_add, UInt64.toNat_toUInt32,
      Nat.mod_eq_of_lt (show scaledHops.toNat < 2 ^ 32 by omega), Nat.mod_eq_of_lt (by omega)]
    omega

theorem toNat_terminalApproachHops (hterminal : config.validateTerminal = .ok ())
    (searchListSize : UInt64)
    (hfits : min config.cellTerminalApproachHops.toNat (config.cellTerminalApproachBaseHops.toNat +
        scaled searchListSize.toNat config.cellTerminalApproachLDivisor.toNat) +
      config.lowStitchHops searchListSize.toNat < 2 ^ 32) :
    (config.terminalApproachHops searchListSize).toNat =
      config.approachHopsFormula searchListSize.toNat := by
  unfold terminalApproachHops approachHopsFormula
  cases haware : config.cellTerminalLAwareApproach with
  | false => rfl
  | true =>
    obtain ⟨hdivisor, hbase⟩ := approach_accepted hterminal haware
    simp only [Bool.not_true, Bool.false_eq_true, if_false, if_true]
    rw [toNat_min_single, UInt32.toNat_add, toNat_baseHops hbase, toNat_scaled _ hdivisor,
      toNat_lowStitch, Nat.mod_eq_of_lt hfits]
    omega

theorem toNat_terminalRefineHops (searchListSize : UInt64)
    (hfits : config.cellTerminalRefineBaseHops.toNat +
      searchListSize.toNat / config.cellTerminalRefineLDivisor.toNat +
      config.lowStitchHops searchListSize.toNat < 2 ^ 64) :
    (config.terminalRefineHops searchListSize).toNat =
      config.refineHopsFormula searchListSize.toNat := by
  unfold terminalRefineHops refineHopsFormula
  cases haware : config.cellTerminalLAwareRefine with
  | false => rfl
  | true =>
    have hextra : (if config.cellTerminalLowLStitchMaxL ≠ 0 ∧
          searchListSize ≤ config.cellTerminalLowLStitchMaxL.toUInt64 then
        config.cellTerminalLowLStitchExtraHops.toUInt64 else 0).toNat =
        config.lowStitchHops searchListSize.toNat := by
      rw [← toNat_lowStitch]
      split <;> rfl
    simp only [Bool.not_true, Bool.false_eq_true, if_false, if_true]
    rw [toNat_capped, UInt64.toNat_add, UInt64.toNat_add, hextra, UInt64.toNat_div,
      UInt32.toNat_toUInt64, UInt32.toNat_toUInt64, Nat.mod_add_mod, Nat.mod_eq_of_lt hfits]

/-- The low forest threshold is a 32-bit size, so the sum with the extra Cells
stays within 64 bits. -/
theorem toNat_lowForest {budget : UInt64}
    (hbudget : budget.toNat ≤ max (2 ^ 32) searchListSize.toNat) :
    (if config.cellTerminalLowLForestMaxL ≠ 0 ∧
        searchListSize ≤ config.cellTerminalLowLForestMaxL.toUInt64 then
      budget + config.cellTerminalLowLForestExtraCells.toUInt64 else budget).toNat =
      budget.toNat + config.lowForestCells searchListSize.toNat := by
  unfold lowForestCells
  simp only [ne_zero_iff, le_toUInt64_iff]
  split
  · next hlow =>
      have hmaximum := config.cellTerminalLowLForestMaxL.toNat_lt
      have hextra := config.cellTerminalLowLForestExtraCells.toNat_lt
      rw [UInt64.toNat_add, UInt32.toNat_toUInt64]
      exact Nat.mod_eq_of_lt (by omega)
  · rfl

theorem toNat_highForestCap (hhigh : config.cellTerminalHighLForestMinL.toUInt64 ≤ searchListSize) :
    (if config.cellTerminalHighLForestCapLDivisor ≠ 0 then
      if config.cellTerminalHighLForestCellCap.toUInt64 ≤
          (searchListSize - config.cellTerminalHighLForestMinL.toUInt64) /
            config.cellTerminalHighLForestCapLDivisor.toUInt64 then 1
      else config.cellTerminalHighLForestCellCap.toUInt64 -
        (searchListSize - config.cellTerminalHighLForestMinL.toUInt64) /
          config.cellTerminalHighLForestCapLDivisor.toUInt64
    else config.cellTerminalHighLForestCellCap.toUInt64).toNat =
      config.highForestCap searchListSize.toNat := by
  unfold highForestCap
  have hreduction : ((searchListSize - config.cellTerminalHighLForestMinL.toUInt64) /
      config.cellTerminalHighLForestCapLDivisor.toUInt64).toNat =
      (searchListSize.toNat - config.cellTerminalHighLForestMinL.toNat) /
        config.cellTerminalHighLForestCapLDivisor.toNat := by
    rw [UInt64.toNat_div, UInt64.toNat_sub_of_le _ _ hhigh, UInt32.toNat_toUInt64,
      UInt32.toNat_toUInt64]
  by_cases hdivisor : config.cellTerminalHighLForestCapLDivisor = 0
  · simp [hdivisor]
  · rw [if_pos hdivisor, if_neg (ne_zero_iff.mp hdivisor)]
    split
    · next hle =>
        rw [UInt64.le_iff_toNat_le, UInt32.toNat_toUInt64, hreduction] at hle
        rw [UInt64.toNat_one]
        omega
    · next hlt =>
        have hle : ¬ config.cellTerminalHighLForestCellCap.toNat ≤ _ := fun hle =>
          hlt (UInt64.le_iff_toNat_le.mpr (by rw [UInt32.toNat_toUInt64, hreduction]; exact hle))
        rw [UInt64.toNat_sub_of_le _ _ (by
            rw [UInt64.le_iff_toNat_le, UInt32.toNat_toUInt64, hreduction]; omega),
          UInt32.toNat_toUInt64, hreduction]
        omega

theorem toNat_terminalCellBudget (hterminal : config.validateTerminal = .ok ())
    (searchListSize : UInt64) :
    (config.terminalCellBudget searchListSize).toNat =
      config.cellBudgetFormula searchListSize.toNat := by
  unfold terminalCellBudget cellBudgetFormula
  cases haware : config.cellTerminalLAwareForest with
  | false => rfl
  | true =>
    obtain ⟨hdivisor, -, -, -⟩ := forest_accepted hterminal haware
    simp only [Bool.not_true, Bool.false_eq_true, if_false, if_true]
    have hscaled : scaled searchListSize.toNat config.cellTerminalForestLDivisor.toNat ≤
        searchListSize.toNat := by
      have hpositive : 0 < config.cellTerminalForestLDivisor.toNat :=
        Nat.pos_of_ne_zero (ne_zero_iff.mp hdivisor)
      unfold scaled
      rw [Nat.div_le_iff_le_mul hpositive]
      have := Nat.le_mul_of_pos_right searchListSize.toNat hpositive
      omega
    have hbase := config.cellTerminalForestBaseCells.toNat_lt
    rw [toNat_capped]
    congr 1
    have hlow : ∀ budget : UInt64, budget.toNat = max config.cellTerminalForestBaseCells.toNat
        (scaled searchListSize.toNat config.cellTerminalForestLDivisor.toNat) →
        budget.toNat ≤ max (2 ^ 32) searchListSize.toNat := by
      intro budget hbudget
      omega
    have hbudget : (max config.cellTerminalForestBaseCells.toUInt64
        (if searchListSize = 0 then 0
          else 1 + (searchListSize - 1) / config.cellTerminalForestLDivisor.toUInt64)).toNat =
        max config.cellTerminalForestBaseCells.toNat
          (scaled searchListSize.toNat config.cellTerminalForestLDivisor.toNat) := by
      rw [toNat_max, toNat_scaled _ hdivisor, UInt32.toNat_toUInt64]
    have hforest := @toNat_lowForest config _ _ (hlow _ hbudget)
    rw [hbudget] at hforest
    have hthreshold : config.cellTerminalHighLForestMinL ≠ 0 ∧
        config.cellTerminalHighLForestMinL.toUInt64 ≤ searchListSize ↔
        config.cellTerminalHighLForestMinL.toNat ≠ 0 ∧
          config.cellTerminalHighLForestMinL.toNat ≤ searchListSize.toNat := by
      rw [ne_zero_iff, UInt64.le_iff_toNat_le, UInt32.toNat_toUInt64]
    by_cases hhigh : config.cellTerminalHighLForestMinL ≠ 0 ∧
        config.cellTerminalHighLForestMinL.toUInt64 ≤ searchListSize
    · rw [if_pos hhigh, if_pos (hthreshold.mp hhigh), toNat_min, hforest,
        toNat_highForestCap hhigh.2]
    · rw [if_neg hhigh, if_neg (mt hthreshold.mpr hhigh), hforest]

/-- The budget is positive where the routing budget is: the L-aware forest starts
from a positive number of Cells, and its cap stays positive. -/
theorem cellBudgetFormula_bounds (hterminal : config.validateTerminal = .ok ())
    (searchListSize : Nat) :
    config.cellBudgetFormula searchListSize ≤ config.cellRoutingCellBudget.toNat ∧
      (0 < config.cellRoutingCellBudget.toNat → 1 ≤ config.cellBudgetFormula searchListSize) := by
  unfold cellBudgetFormula
  cases haware : config.cellTerminalLAwareForest with
  | false => exact ⟨Nat.le_refl _, id⟩
  | true =>
    obtain ⟨-, hbase, -, hcap⟩ := forest_accepted hterminal haware
    have hbase : 0 < config.cellTerminalForestBaseCells.toNat :=
      Nat.pos_of_ne_zero (ne_zero_iff.mp hbase)
    simp only [if_true]
    refine ⟨Nat.min_le_left _ _, fun hrouting => ?_⟩
    split
    · next hhigh =>
        have hcap : 1 ≤ config.highForestCap searchListSize := by
          have hpositive := ne_zero_iff.mp (hcap (ne_zero_iff.mpr hhigh.1))
          unfold highForestCap
          split <;> omega
        omega
    · omega

/-- Every accepted Hybrid configuration computes its budgets by the formulas over
the natural numbers, where the sums of hops fit their types. -/
theorem terminal_budgets (hhybrid : config.isHybrid = true) (hvalid : config.validate = .ok ())
    (searchListSize : UInt64) :
    (min config.cellTerminalApproachHops.toNat (config.cellTerminalApproachBaseHops.toNat +
          scaled searchListSize.toNat config.cellTerminalApproachLDivisor.toNat) +
        config.lowStitchHops searchListSize.toNat < 2 ^ 32 →
      (config.terminalApproachHops searchListSize).toNat =
        config.approachHopsFormula searchListSize.toNat) ∧
    (config.terminalCellBudget searchListSize).toNat =
      config.cellBudgetFormula searchListSize.toNat ∧
    (config.cellTerminalRefineBaseHops.toNat +
          searchListSize.toNat / config.cellTerminalRefineLDivisor.toNat +
        config.lowStitchHops searchListSize.toNat < 2 ^ 64 →
      (config.terminalRefineHops searchListSize).toNat =
        config.refineHopsFormula searchListSize.toNat) ∧
    config.terminalCellBudget searchListSize ≤ config.cellRoutingCellBudget ∧
    (config.cellRoutingCellBudget ≠ 0 → 1 ≤ config.terminalCellBudget searchListSize) := by
  have hterminal := validateTerminal_of_validate hhybrid hvalid
  have hbudget := toNat_terminalCellBudget hterminal searchListSize
  obtain ⟨hrouting, hpositive⟩ := cellBudgetFormula_bounds hterminal searchListSize.toNat
  refine ⟨toNat_terminalApproachHops hterminal searchListSize, hbudget,
    toNat_terminalRefineHops searchListSize, ?_, fun hne => ?_⟩
  · rw [UInt32.le_iff_toNat_le, hbudget]
    exact hrouting
  · rw [UInt32.le_iff_toNat_le, hbudget]
    exact hpositive (Nat.pos_of_ne_zero (ne_zero_iff.mp hne))

/-- Terminal convergence with an approach of 2 to 4 hops, low-L stitching and an
L-aware forest. -/
def stitching (extraHops : UInt32) : SearchConfig where
  mode := .hybrid
  cellExpansion := true
  cellWholeCellScan := true
  cellCentroidRouting := true
  cellTerminalConvergence := true
  cellTerminalLAwareApproach := true
  cellTerminalLowLStitchMaxL := 100
  cellTerminalLowLStitchExtraHops := extraHops
  cellTerminalLAwareForest := true

/-- The 32-bit sum of the hops wraps to 3, below the cap of 4, and without Cell
routing a budget of no Cell is accepted. -/
theorem terminal_budgets_refuted :
    ((stitching 0xFFFFFFFF).isHybrid = true ∧ (stitching 0xFFFFFFFF).validate = .ok () ∧
      (stitching 0xFFFFFFFF).terminalApproachHops 10 = 3 ∧
      (stitching 0xFFFFFFFF).approachHopsFormula 10 = 4) ∧
    ∃ config : SearchConfig, config.isHybrid = true ∧ config.validate = .ok () ∧
      config.terminalCellBudget 10 = 0 := by
  refine ⟨by decide +kernel,
    { mode := .hybrid, communitySkip := true, cellRoutingCellBudget := 0 }, by decide +kernel⟩

theorem terminal_budgets_stitching :
    ((stitching 3).terminalApproachHops 10).toNat = (stitching 3).approachHopsFormula 10 ∧
      1 ≤ (stitching 3).terminalCellBudget 10 := by
  obtain ⟨happroach, -, -, -, hpositive⟩ :=
    @terminal_budgets (stitching 3) (by decide) (by decide +kernel) 10
  exact ⟨happroach (by decide +kernel), hpositive (by decide)⟩

end SearchConfig

end SkipCell.Search

import SkipCell.Foundation.Quantile
import SkipCell.Sidecar.Index

/-! # Radial quantiles

The nodes around a Hub are cut into radial bins at the quantiles of their radii.
-/

namespace SkipCell.Build

open Foundation Sidecar

/-- `compute_radial_quantile_boundaries`. -/
def computeRadialQuantileBoundaries (radii : List Single) (radialBinCount : UInt32) :
    Except Error (List Single) := do
  reject (radii = []) (.invalidArgument "Polar radial quantiles require at least one radius")
  reject (radialBinCount = 0)
    (.invalidArgument "Polar radial-bin count must be greater than zero")
  scan (fun _ radius _ => reject (radius.isFinite = false ∨ radius < .zero)
    (.invalidArgument "Polar radii must be finite and non-negative")) 0 radii ()
  let sortedRadii := radii.insertionSort fun left right => ¬ right < left
  (List.range (radialBinCount.toNat - 1)).mapM fun bin =>
    element .outOfBounds sortedRadii
      (nearestRank sortedRadii.length radialBinCount.toNat (bin + 1) - 1)

/-- `find_polar_radial_bin`. On boundaries that do not decrease `std::lower_bound`
finds the first that is not below the radius. -/
def findPolarRadialBin (radius : Single) (boundaries : List Single) : Except Error UInt32 := do
  reject (radius.isFinite = false ∨ radius < .zero)
    (.invalidArgument "Polar radius must be finite and non-negative")
  reject (2 ^ 32 - 1 ≤ boundaries.length)
    (.invalidArgument "Polar radial-bin count exceeds the uint32 range")
  let _ ← scan (fun boundary value previous => do
    reject (value.isFinite = false ∨ value < .zero ∨ 0 < boundary ∧ value < previous)
      (.invalidArgument "Polar radial boundaries must be finite and non-decreasing")
    .ok value) 0 boundaries Single.zero
  .ok (.ofNat (boundaries.findIdx fun boundary => ¬ boundary < radius))

/-- The places of the radii in the order of numbers, sorted. -/
def sortedKeys (radii : List Single) : List Int := (radii.map Single.key).insertionSort (· ≤ ·)

theorem pairwise_sortedKeys (radii : List Single) : (sortedKeys radii).Pairwise (· ≤ ·) :=
  List.pairwise_insertionSort (· ≤ ·) _

theorem length_sortedKeys (radii : List Single) : (sortedKeys radii).length = radii.length := by
  simp [sortedKeys, List.length_insertionSort]

theorem countP_sortedKeys (accepts : Int → Bool) (radii : List Single) :
    (sortedKeys radii).countP accepts = radii.countP fun radius => accepts radius.key := by
  rw [sortedKeys, (List.perm_insertionSort (· ≤ ·) _).countP_eq, List.countP_map]
  rfl

theorem map_key_insertionSort {radii : List Single}
    (hfinite : ∀ radius ∈ radii, radius.isFinite = true) :
    (radii.insertionSort fun left right => ¬ right < left).map Single.key = sortedKeys radii := by
  apply List.map_insertionSort
  intro left hleft right hright
  rw [Single.lt_iff_key (hfinite right hright) (hfinite left hleft), not_lt]

section Boundaries

variable {radii boundaries : List Single} {radialBinCount : UInt32}

theorem isFinite_of_boundaries
    (hboundaries : computeRadialQuantileBoundaries radii radialBinCount = .ok boundaries) :
    ∀ radius ∈ radii, radius.isFinite = true := by
  unfold computeRadialQuantileBoundaries at hboundaries
  simp only [bind_ok, reject_ok] at hboundaries
  obtain ⟨_, _, _, _, _, hscan, _⟩ := hboundaries
  intro radius hradius
  obtain ⟨index, hindex⟩ := List.mem_iff_getElem?.mp hradius
  obtain ⟨_, _, haccepted⟩ := scan_accepts hscan hindex
  rw [reject_ok] at haccepted
  exact Bool.eq_true_of_not_eq_false fun hnot => haccepted (Or.inl hnot)

theorem quantileCuts_boundaries
    (hboundaries : computeRadialQuantileBoundaries radii radialBinCount = .ok boundaries)
    (hbins : radialBinCount.toNat ≤ radii.length) :
    QuantileCuts (sortedKeys radii) radialBinCount.toNat (boundaries.map Single.key) := by
  have hfinite := isFinite_of_boundaries hboundaries
  unfold computeRadialQuantileBoundaries at hboundaries
  simp only [bind_ok, reject_ok, mapM_eq_ok, element_eq_ok,
    List.length_insertionSort] at hboundaries
  obtain ⟨_, _, _, hpositive, _, _, hranks⟩ := hboundaries
  have hcount : radialBinCount.toNat ≠ 0 := fun hzero =>
    hpositive (UInt32.toNat_inj.mp hzero)
  have hlength := hranks.length_eq
  rw [List.length_range] at hlength
  constructor
  case length_cuts =>
    rw [List.length_map]
    omega
  case bins_le => rwa [length_sortedKeys]
  case getElem?_cuts =>
    intro bin hbin
    rw [List.length_map] at hbin
    have hrank := List.forall₂_iff_get.mp hranks |>.2 bin (by simp; omega) hbin
    rw [length_sortedKeys, ← map_key_insertionSort hfinite, List.getElem?_map, List.getElem?_map]
    simp only [List.get_eq_getElem, List.getElem_range] at hrank
    rw [hrank, List.getElem?_eq_getElem hbin]

end Boundaries

theorem findPolarRadialBin_eq {radius : Single} {boundaries : List Single} {bin : UInt32}
    (hbin : findPolarRadialBin radius boundaries = .ok bin) :
    bin.toNat = lowerBound (boundaries.map Single.key) radius.key := by
  unfold findPolarRadialBin at hbin
  simp only [bind_ok, reject_ok] at hbin
  obtain ⟨_, hradius, _, hcount, _, hscan, hfound⟩ := hbin
  have hradiusFinite := Bool.eq_true_of_not_eq_false fun hnot => hradius (Or.inl hnot)
  have hfinite : ∀ boundary ∈ boundaries, boundary.isFinite = true := by
    intro boundary hboundary
    obtain ⟨index, hindex⟩ := List.mem_iff_getElem?.mp hboundary
    obtain ⟨_, _, haccepted⟩ := scan_accepts hscan hindex
    simp only [bind_ok, reject_ok] at haccepted
    obtain ⟨_, haccepted, _⟩ := haccepted
    exact Bool.eq_true_of_not_eq_false fun hnot => haccepted (Or.inl hnot)
  have hsame : boundaries.findIdx (fun boundary => ¬ boundary < radius) =
      lowerBound (boundaries.map Single.key) radius.key := by
    have hagree : ∀ boundary ∈ boundaries,
        ¬ boundary < radius ↔ radius.key ≤ boundary.key := fun boundary hboundary => by
      rw [Single.lt_iff_key (hfinite boundary hboundary) hradiusFinite, not_lt]
    rw [lowerBound, List.findIdx_map]
    apply le_antisymm
    · apply List.findIdx_le_findIdx
      intro boundary hboundary
      simp [hagree boundary hboundary]
    · apply List.findIdx_le_findIdx
      intro boundary hboundary
      simp [hagree boundary hboundary]
  obtain rfl := Except.ok.inj hfound
  rw [UInt32.toNat_ofNat', hsame, Nat.mod_eq_of_lt]
  have hle := lowerBound_le_length (boundaries.map Single.key) radius.key
  rw [List.length_map] at hle
  omega

end SkipCell.Build

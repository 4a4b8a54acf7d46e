import SkipCell.Vamana.Builder

/-! # Pruning a candidate pool of the index

The neighbors of a location are selected from its candidates by occlusion, in rounds with a
growing threshold. Labels and the metric decide how one candidate occludes another, and a
saturated graph takes further candidates up to its degree.
-/

namespace SkipCell.Vamana

open Foundation

universe uDistance uFactor uLabel

variable {Distance : Type uDistance} {Factor : Type uFactor} {Label : Type uLabel}
  [LinearOrder Distance] [LinearOrder Factor] [DecidableEq Label]

inductive Metric
  | l2
  | cosine
  | innerProduct
  deriving DecidableEq

/-- What the index computes with beside the values of the builder. -/
structure IndexFloats (Distance : Type uDistance) (Factor : Type uFactor) extends
    Floats Distance Factor where
  /-- `cur_alpha + 0.01f`. -/
  eps : Factor → Factor
  /-- `-djk > cur_alpha * -distance`. -/
  outweighs : Factor → Distance → Distance → Bool

/-- An `alpha`, with the values that `cur_alpha` takes up to it. -/
structure Alpha (Factor : Type uFactor) where
  value : Factor
  curAlphas : List Factor

/-- One whose rounds stay below the factor of what is selected. -/
structure FiniteAlpha (floats : IndexFloats Distance Factor) extends Alpha Factor where
  curAlphas_lt : ∀ curAlpha ∈ curAlphas, curAlpha < floats.max

/-- The stores that a pruning reads. -/
structure Space (Distance : Type uDistance) (Factor : Type uFactor) (Label : Type uLabel) where
  floats : IndexFloats Distance Factor
  distMetric : Metric
  /-- `data_store_->get_distance`. -/
  getDistance : Nat → Nat → Distance
  /-- Whether the distances of a search are approximate. -/
  pqDist : Bool
  filteredIndex : Bool
  locationToLabels : Nat → List Label
  /-- `location_to_labels_.size()`. -/
  labelledLocations : Nat
  saturateGraph : Bool

/-- The candidates that fill a list up to the degree. -/
def saturate (location range : Nat) (pool : List (Candidate Nat Distance)) (pruned : List Nat) :
    List Nat :=
  pool.foldl (fun pruned candidate =>
    if range ≤ pruned.length then pruned
    else if candidate.id ∉ pruned ∧ candidate.id ≠ location then pruned ++ [candidate.id]
    else pruned) pruned

omit [LinearOrder Distance] in
theorem saturate_spec {location range : Nat} {pool : List (Candidate Nat Distance)}
    {pruned : List Nat} (hnodup : pruned.Nodup) (hnoLoop : location ∉ pruned)
    (hlength : pruned.length ≤ range) :
    (saturate location range pool pruned).Nodup ∧ location ∉ saturate location range pool pruned ∧
      (∀ id ∈ saturate location range pool pruned, id ∈ pruned ∨ id ∈ pool.map Candidate.id) ∧
      (saturate location range pool pruned).length ≤ range := by
  induction pool generalizing pruned with
  | nil => exact ⟨hnodup, hnoLoop, fun id hid => .inl hid, hlength⟩
  | cons candidate pool ih =>
    rw [saturate, List.foldl_cons, ← saturate]
    split
    · obtain ⟨hdistinct, hother, hmem, hshort⟩ := ih hnodup hnoLoop hlength
      exact ⟨hdistinct, hother, fun id hid => (hmem id hid).imp_right (List.mem_cons_of_mem _),
        hshort⟩
    · next hroom =>
        split
        · next hnew =>
            obtain ⟨hdistinct, hother, hmem, hshort⟩ := @ih (pruned ++ [candidate.id])
              (List.nodup_append.mpr ⟨hnodup, List.nodup_singleton _, by
                rintro first hfirst _ hlast rfl
                exact hnew.1 (List.mem_singleton.mp hlast ▸ hfirst)⟩)
              (by simpa [hnoLoop] using hnew.2.symm)
              (by simpa using Nat.succ_le_of_lt (Nat.not_le.mp hroom))
            refine ⟨hdistinct, hother, fun id hid => ?_, hshort⟩
            rcases hmem id hid with hold | hlater
            · rcases List.mem_append.mp hold with hold | hlast
              · exact .inl hold
              · exact .inr (List.mem_singleton.mp hlast ▸ List.mem_cons_self)
            · exact .inr (List.mem_cons_of_mem _ hlater)
        · obtain ⟨hdistinct, hother, hmem, hshort⟩ := ih hnodup hnoLoop hlength
          exact ⟨hdistinct, hother,
            fun id hid => (hmem id hid).imp_right (List.mem_cons_of_mem _), hshort⟩

namespace Space

variable (space : Space Distance Factor Label)

/-- In a filtered index a location can only occlude one whose labels it has, too. -/
def pruneAllowed (occluder candidate : Nat) : Bool :=
  !space.filteredIndex ||
    (decide (candidate ≤ space.labelledLocations ∧ occluder ≤ space.labelledLocations) &&
      (space.locationToLabels candidate).all fun label =>
        decide (label ∈ space.locationToLabels occluder))

/-- `candidate_factor`. -/
def candidateFactor (candidate : Candidate Nat Distance) (djk : Distance) : Factor :=
  if djk = space.floats.zeroDistance then space.floats.max
  else space.floats.divide candidate.distance djk

def occlusion (alpha : Alpha Factor) : Occlusion (Candidate Nat Distance) Factor where
  rounds := alpha.curAlphas
  limit := alpha.value
  zero := space.floats.zero
  full := space.floats.max
  raise curAlpha occluder candidate factor :=
    if space.pruneAllowed occluder.id candidate.id then
      let djk := space.getDistance candidate.id occluder.id
      match space.distMetric with
      | .innerProduct =>
        if space.floats.outweighs curAlpha candidate.distance djk then
          max factor (space.floats.eps curAlpha)
        else factor
      | _ => max factor (space.candidateFactor candidate djk)
    else factor

/-- `occlude_list` of a sorted pool, without deleted locations. -/
def occludeList (location : Nat) (pool : List (Candidate Nat Distance)) (alpha : Alpha Factor)
    (degree maxc : Nat) (deleteSet : Finset Nat) : List Nat :=
  if pool.isEmpty then []
  else
    ((space.occlusion alpha).select degree
      (fun candidate => candidate.id ∉ deleteSet ∧ candidate.id ≠ location)
      (pool.take maxc)).map Candidate.id

/-- Approximate distances are replaced by the actual ones. -/
def actual (location : Nat) (pool : List (Candidate Nat Distance)) :
    List (Candidate Nat Distance) :=
  if space.pqDist then
    pool.map fun candidate =>
      { candidate with distance := space.getDistance candidate.id location }
  else pool

def pruneNeighbors (location : Nat) (pool : List (Candidate Nat Distance))
    (range maxCandidateSize : Nat) (alpha : Alpha Factor) : List Nat :=
  if pool.isEmpty then []
  else
    let sorted := (space.actual location pool).insertionSort Candidate.Before
    let pruned := space.occludeList location sorted alpha range maxCandidateSize ∅
    if space.saturateGraph ∧ space.floats.one < alpha.value then
      saturate location range (sorted.take maxCandidateSize) pruned
    else pruned

variable {space} {pool : List (Candidate Nat Distance)}

theorem occlusion_lawful (alpha : FiniteAlpha space.floats) :
    (space.occlusion alpha.toAlpha).Lawful where
  rounds_lt := alpha.curAlphas_lt
  le_raise curAlpha occluder candidate factor hfull := by
    simp only [occlusion]
    split
    · split
      · split
        · exact hfull.trans (le_max_left _ _)
        · exact hfull
      · exact hfull.trans (le_max_left _ _)
    · exact hfull

theorem occludeList_spec (alpha : FiniteAlpha space.floats) (hnodup : (pool.map Candidate.id).Nodup)
    (location degree maxc : Nat) (deleteSet : Finset Nat) :
    (space.occludeList location pool alpha.toAlpha degree maxc deleteSet).Nodup ∧
      (∀ id ∈ space.occludeList location pool alpha.toAlpha degree maxc deleteSet,
        id ∈ pool.map Candidate.id ∧ id ∉ deleteSet ∧ id ≠ location) ∧
      (space.occludeList location pool alpha.toAlpha degree maxc deleteSet).length ≤ degree := by
  rw [occludeList]
  split
  · simp
  · have htaken : ((pool.take maxc).map Candidate.id).Nodup :=
      hnodup.sublist ((List.take_sublist _ _).map _)
    obtain ⟨hdistinct, hmem, hlength⟩ := map_select_spec (occlusion_lawful alpha) degree
      (fun candidate => decide (candidate.id ∉ deleteSet ∧ candidate.id ≠ location)) htaken
    refine ⟨hdistinct, fun id hid => ?_, hlength⟩
    obtain ⟨candidate, hcandidate, rfl, hkept⟩ := hmem id hid
    exact ⟨List.mem_map_of_mem (List.mem_of_mem_take hcandidate), of_decide_eq_true hkept⟩

omit [LinearOrder Distance] [LinearOrder Factor] [DecidableEq Label] in
theorem map_actual (location : Nat) (pool : List (Candidate Nat Distance)) :
    (space.actual location pool).map Candidate.id = pool.map Candidate.id := by
  rw [actual]
  split
  · rw [List.map_map]
    rfl
  · rfl

theorem pruneNeighbors_spec (alpha : FiniteAlpha space.floats)
    (hnodup : (pool.map Candidate.id).Nodup) (location range maxc : Nat) :
    (space.pruneNeighbors location pool range maxc alpha.toAlpha).Nodup ∧
      location ∉ space.pruneNeighbors location pool range maxc alpha.toAlpha ∧
      (∀ id ∈ space.pruneNeighbors location pool range maxc alpha.toAlpha,
        id ∈ pool.map Candidate.id) ∧
      (space.pruneNeighbors location pool range maxc alpha.toAlpha).length ≤ range := by
  rw [pruneNeighbors]
  split
  · simp
  · extract_lets sorted pruned
    have hperm : (sorted.map Candidate.id).Perm (pool.map Candidate.id) := by
      rw [← map_actual location pool]
      exact (List.perm_insertionSort _ _).map _
    obtain ⟨hdistinct, hmem, hlength⟩ := occludeList_spec alpha (hperm.nodup_iff.mpr hnodup)
      location range maxc ∅
    have hnoLoop : location ∉ pruned := fun hlocation => (hmem location hlocation).2.2 rfl
    have hpool : ∀ id ∈ pruned, id ∈ pool.map Candidate.id := fun id hid =>
      hperm.mem_iff.mp (hmem id hid).1
    split
    · obtain ⟨hnodup, hother, hall, hshort⟩ :=
        @saturate_spec _ _ _ (sorted.take maxc) _ hdistinct hnoLoop hlength
      refine ⟨hnodup, hother, fun id hid => (hall id hid).elim (hpool id) fun htaken => ?_, hshort⟩
      exact hperm.mem_iff.mp (((List.take_sublist _ _).map _).subset htaken)
    · exact ⟨hdistinct, hnoLoop, hpool, hlength⟩

end Space

end SkipCell.Vamana

import SkipCell.Foundation.Checks

/-! # Balanced k-means

`balanced_kmeans` of `train_geometric_cells.py` places the points one by one, each in the first
cluster of its preferences that has room. The arithmetic of the coordinates is a parameter.
-/

namespace SkipCell.Training

open Foundation

/-- Points are row numbers. -/
structure PointSpace (Centroid Value : Type) where
  /-- `points @ direction`. -/
  projection : Nat → Value
  row : Nat → Centroid
  distances : List Centroid → Nat → Nat → Value
  sub : Value → Value → Value
  neg : Value → Value
  le : Value → Value → Bool
  mean : List Nat → Centroid

def flatnonzero (assignment : List (Option Nat)) (cluster : Nat) : List Nat :=
  (List.range assignment.length).filter fun point => assignment[point]? = some (some cluster)

def capacityOf (count clusterCount cluster : Nat) : Nat :=
  count / clusterCount + if cluster < count % clusterCount then 1 else 0

/-- The assignment, and the room that is left in the clusters. -/
abbrev Placement := List (Option Nat) × List Nat

def placePoint (preferences : Nat → List Nat) (placement : Placement) (point : Nat) : Placement :=
  match (preferences point).find? fun cluster => placement.2.getD cluster 0 ≠ 0 with
  | none => placement
  | some cluster =>
    (placement.1.set point (some cluster),
      placement.2.set cluster (placement.2.getD cluster 0 - 1))

namespace PointSpace

variable {Centroid Value : Type} (space : PointSpace Centroid Value)

/-- `np.argsort` with `kind="stable"`. -/
def argsort (count : Nat) (values : Nat → Value) : List Nat :=
  (List.range count).mergeSort fun left right => space.le (values left) (values right)

def assign (count clusterCount : Nat) (centroids : List Centroid) : List (Option Nat) :=
  let distances := space.distances centroids
  let preferences := fun point => space.argsort clusterCount (distances point)
  let confidence := fun point =>
    space.sub (distances point ((preferences point).getD 1 0))
      (distances point ((preferences point).getD 0 0))
  ((space.argsort count fun point => space.neg (confidence point)).foldl (placePoint preferences)
    (List.replicate count none, (List.range clusterCount).map (capacityOf count clusterCount))).1

/-- The mean of no rows, which is no number, is an error here. -/
def recenter (clusterCount : Nat) (assignment : List (Option Nat)) :
    Except String (List Centroid) :=
  (List.range clusterCount).mapM fun cluster => do
    let members := flatnonzero assignment cluster
    reject (members = []) "Mean of empty slice"
    .ok (space.mean members)

def iterate (count clusterCount : Nat) :
    Nat → List Centroid → List (Option Nat) → Except String (List (Option Nat))
  | 0, _, assignment => .ok assignment
  | iterations + 1, centroids, _ => do
    let assignment := space.assign count clusterCount centroids
    let centroids ← space.recenter clusterCount assignment
    iterate count clusterCount iterations centroids assignment

def balancedKmeans (count targetSize iterations : Nat) : Except String (List (List Nat)) := do
  let clusterCount := max 1 ((count + targetSize - 1) / targetSize)
  if clusterCount = 1 then return [List.range count]
  let initialOrder := space.argsort count space.projection
  let seeds := (List.range clusterCount).map fun cluster =>
    initialOrder.getD (min (count - 1) ((cluster * 2 + 1) * count / (2 * clusterCount))) 0
  let assignment ← space.iterate count clusterCount iterations (seeds.map space.row)
    (List.replicate count none)
  return (List.range clusterCount).map (flatnonzero assignment)

end PointSpace

theorem length_flatnonzero (assignment : List (Option Nat)) (cluster : Nat) :
    (flatnonzero assignment cluster).length = assignment.count (some cluster) := by
  have hall : (List.range assignment.length).map (assignment[·]?) = assignment.map some := by
    apply List.ext_getElem
    · simp
    · intro position hleft hright
      simp
  rw [← List.count_map_of_injective assignment some (Option.some_injective _), ← hall, List.count,
    List.countP_map, List.countP_eq_length_filter, flatnonzero]
  exact congrArg List.length (List.filter_congr fun point _ => Bool.eq_iff_iff.mpr (by simp))

theorem mem_flatnonzero {assignment : List (Option Nat)} {cluster point : Nat} :
    point ∈ flatnonzero assignment cluster ↔ assignment[point]? = some (some cluster) := by
  rw [flatnonzero, List.mem_filter, List.mem_range, decide_eq_true_iff]
  exact and_iff_right_of_imp fun hsome => (List.getElem_of_getElem? hsome).1

theorem sum_capacityOf {clusterCount : Nat} (hclusters : 0 < clusterCount) (count : Nat) :
    ∑ cluster ∈ Finset.range clusterCount, capacityOf count clusterCount cluster = count := by
  have hrest : ∀ rest ≤ clusterCount,
      ∑ cluster ∈ Finset.range clusterCount, (if cluster < rest then 1 else 0) = rest := by
    intro rest hrest
    have hfilter : (Finset.range clusterCount).filter (· < rest) = Finset.range rest := by
      ext cluster
      simp only [Finset.mem_filter, Finset.mem_range]
      omega
    rw [Finset.sum_boole, hfilter, Finset.card_range, Nat.cast_id]
  simp only [capacityOf, Finset.sum_add_distrib, Finset.sum_const, Finset.card_range, nsmul_eq_mul,
    Nat.cast_id]
  rw [hrest _ (Nat.mod_lt _ hclusters).le, Nat.div_add_mod]

theorem capacityOf_le {clusterCount count targetSize : Nat}
    (hroom : count ≤ clusterCount * targetSize) (cluster : Nat) :
    capacityOf count clusterCount cluster ≤ targetSize := by
  have hdivision := Nat.div_add_mod count clusterCount
  unfold capacityOf
  split
  next hrest =>
    have hless : clusterCount * (count / clusterCount) < clusterCount * targetSize := by omega
    exact Nat.lt_of_mul_lt_mul_left hless
  next => exact Nat.div_le_of_le_mul hroom

theorem length_eq_sum_count {assignment : List (Option Nat)} {clusterCount : Nat}
    (hinside : ∀ cluster, some cluster ∈ assignment → cluster < clusterCount) :
    assignment.length = assignment.count none +
      ∑ cluster ∈ Finset.range clusterCount, assignment.count (some cluster) := by
  induction assignment with
  | nil => simp
  | cons entry assignment ih =>
    have hrest := ih fun cluster hcluster => hinside cluster (List.mem_cons_of_mem _ hcluster)
    simp only [List.count_cons, Finset.sum_add_distrib]
    rw [List.length_cons, hrest]
    cases entry with
    | none => simp; omega
    | some cluster =>
      have hcluster := hinside cluster List.mem_cons_self
      simp [Finset.sum_ite_eq, hcluster]
      omega

/-- The points so far are placed, and no cluster has more of them than it takes. -/
structure Placed (count clusterCount : Nat) (done : List Nat) (placement : Placement) : Prop where
  points : placement.1.length = count
  clusters : placement.2.length = clusterCount
  waiting : ∀ point < count, placement.1[point]? = some none ↔ point ∉ done
  inside : ∀ cluster, some cluster ∈ placement.1 → cluster < clusterCount
  room : ∀ cluster < clusterCount, placement.1.count (some cluster) +
    placement.2.getD cluster 0 = capacityOf count clusterCount cluster

variable {count clusterCount : Nat} {done : List Nat} {placement : Placement}

theorem placed_nil (count clusterCount : Nat) : Placed count clusterCount []
    (List.replicate count none, (List.range clusterCount).map (capacityOf count clusterCount)) where
  points := List.length_replicate
  clusters := by simp
  waiting point hpoint := by simp [hpoint]
  inside cluster hcluster := by simp [List.mem_replicate] at hcluster
  room cluster hcluster := by simp [List.count_replicate, hcluster]

theorem Placed.step (hplaced : Placed count clusterCount done placement)
    (hclusters : 0 < clusterCount) {preferences : Nat → List Nat} {point : Nat}
    (hpreferences : (preferences point).Perm (List.range clusterCount)) (hpoint : point < count)
    (hnew : point ∉ done) :
    Placed count clusterCount (done ++ [point]) (placePoint preferences placement point) := by
  have hnone := (hplaced.waiting point hpoint).mpr hnew
  unfold placePoint
  split
  next hfull =>
    -- full clusters would hold as many points as there are, but this one waits
    have hcounts : ∀ cluster ∈ Finset.range clusterCount,
        placement.1.count (some cluster) = capacityOf count clusterCount cluster := by
      intro cluster hcluster
      rw [Finset.mem_range] at hcluster
      have hroom := List.find?_eq_none.mp hfull cluster
        (hpreferences.mem_iff.mpr (List.mem_range.mpr hcluster))
      have hsum := hplaced.room cluster hcluster
      simp only [ne_eq, decide_not, Bool.not_eq_true', decide_eq_false_iff_not, not_not] at hroom
      omega
    have htotal := length_eq_sum_count hplaced.inside
    rw [Finset.sum_congr rfl hcounts, sum_capacityOf hclusters, hplaced.points] at htotal
    have hwaits := List.count_pos_iff.mpr (List.mem_of_getElem? hnone)
    omega
  next cluster hfound =>
    have hroom : placement.2.getD cluster 0 ≠ 0 := by simpa using List.find?_some hfound
    have hcluster : cluster < clusterCount :=
      List.mem_range.mp (hpreferences.mem_iff.mp (List.mem_of_find?_eq_some hfound))
    have hbound : point < placement.1.length := hplaced.points.symm ▸ hpoint
    have hentry : placement.1[point] = none :=
      Option.some.inj ((List.getElem?_eq_getElem hbound).symm.trans hnone)
    refine ⟨List.length_set.trans hplaced.points, List.length_set.trans hplaced.clusters,
      fun other hother => ?_, fun other hmem => ?_, fun other hother => ?_⟩
    · rw [List.getElem?_set, List.mem_append, List.mem_singleton]
      by_cases hsame : point = other
      · subst hsame
        simp [hbound]
      · rw [if_neg hsame, hplaced.waiting other hother]
        simp [Ne.symm hsame]
    · rcases List.mem_or_eq_of_mem_set hmem with hold | hsame
      · exact hplaced.inside other hold
      · rw [Option.some.inj hsame]
        exact hcluster
    · have hbefore := hplaced.room other hother
      simp only [List.getD_eq_getElem?_getD] at hroom hbefore ⊢
      rw [List.count_set hbound, hentry, List.getElem?_set]
      by_cases hsame : cluster = other
      · subst hsame
        generalize placement.2[cluster]?.getD 0 = room at hroom hbefore ⊢
        simp [hplaced.clusters, hcluster]
        omega
      · simp [hsame]
        omega

theorem Placed.foldl (hplaced : Placed count clusterCount done placement)
    (hclusters : 0 < clusterCount) {preferences : Nat → List Nat}
    (hpreferences : ∀ point, (preferences point).Perm (List.range clusterCount)) {order : List Nat}
    (horder : ∀ point ∈ order, point < count) (hnodup : (done ++ order).Nodup) :
    Placed count clusterCount (done ++ order) (order.foldl (placePoint preferences) placement) := by
  induction order generalizing done placement with
  | nil => simpa using hplaced
  | cons point order ih =>
    obtain ⟨hpoint, horder⟩ := List.forall_mem_cons.mp horder
    rw [List.append_cons] at hnodup ⊢
    have hnew : point ∉ done := fun hmem =>
      (List.nodup_append.mp (List.nodup_append.mp hnodup).1).2.2 point hmem point
        (List.mem_singleton_self point) rfl
    exact ih (hplaced.step hclusters (hpreferences point) hpoint hnew) horder hnodup

/-- Every point gets a cluster, and every cluster as many points as it takes. -/
structure Balanced (count clusterCount : Nat) (assignment : List (Option Nat)) : Prop where
  assigned : ∀ point < count, ∃ cluster < clusterCount, assignment[point]? = some (some cluster)
  length : assignment.length = count
  filled : ∀ cluster < clusterCount,
    (flatnonzero assignment cluster).length = capacityOf count clusterCount cluster

theorem Placed.balanced (hplaced : Placed count clusterCount done placement)
    (hclusters : 0 < clusterCount) (hdone : done.Perm (List.range count)) :
    Balanced count clusterCount placement.1 := by
  have hassigned : ∀ point < count, ∃ cluster < clusterCount,
      placement.1[point]? = some (some cluster) := by
    intro point hpoint
    have hbound : point < placement.1.length := hplaced.points.symm ▸ hpoint
    have hentry := List.getElem?_eq_getElem hbound
    cases hcluster : placement.1[point] with
    | none =>
      rw [hcluster, hplaced.waiting point hpoint] at hentry
      exact absurd (hdone.mem_iff.mpr (List.mem_range.mpr hpoint)) hentry
    | some cluster =>
      rw [hcluster] at hentry
      exact ⟨cluster, hplaced.inside cluster (List.mem_of_getElem? hentry), hentry⟩
  have hnone : placement.1.count none = 0 := by
    rw [List.count_eq_zero]
    intro hmem
    obtain ⟨point, hentry⟩ := List.mem_iff_getElem?.mp hmem
    have hbound := (List.getElem_of_getElem? hentry).1
    obtain ⟨cluster, -, hcluster⟩ := hassigned point (hplaced.points ▸ hbound)
    cases hentry.symm.trans hcluster
  have hle : ∀ cluster ∈ Finset.range clusterCount,
      placement.1.count (some cluster) ≤ capacityOf count clusterCount cluster := by
    intro cluster hcluster
    have hroom := hplaced.room cluster (Finset.mem_range.mp hcluster)
    omega
  have htotal := length_eq_sum_count hplaced.inside
  rw [hnone, Nat.zero_add, hplaced.points] at htotal
  have hequal := (Finset.sum_eq_sum_iff_of_le hle).mp
    (htotal.symm.trans (sum_capacityOf hclusters count).symm)
  exact ⟨hassigned, hplaced.points, fun cluster hcluster =>
    (length_flatnonzero _ _).trans (hequal cluster (Finset.mem_range.mpr hcluster))⟩

/-- The groups of a balanced assignment. -/
structure BalancedGroups (count targetSize : Nat) (groups : List (List Nat)) : Prop where
  partitions : groups.flatten.Perm (List.range count)
  sizes : ∀ group ∈ groups, group ≠ [] ∧ group.length ≤ targetSize
  even : ∀ group ∈ groups, ∀ other ∈ groups, group.length ≤ other.length + 1

theorem Balanced.partitions {assignment : List (Option Nat)}
    (hbalanced : Balanced count clusterCount assignment) :
    ((List.range clusterCount).map (flatnonzero assignment)).flatten.Perm (List.range count) := by
  rw [List.perm_ext_iff_of_nodup _ List.nodup_range]
  · intro point
    simp only [List.mem_flatten, List.mem_map, List.mem_range, exists_exists_and_eq_and,
      mem_flatnonzero]
    constructor
    · rintro ⟨cluster, -, hentry⟩
      exact hbalanced.length ▸ (List.getElem_of_getElem? hentry).1
    · exact hbalanced.assigned point
  · rw [List.nodup_flatten]
    constructor
    · intro group hgroup
      obtain ⟨cluster, -, rfl⟩ := List.mem_map.mp hgroup
      exact List.nodup_range.filter _
    · rw [List.pairwise_map]
      refine List.nodup_range.imp fun {first second} hne point hfirst hsecond => hne ?_
      rw [mem_flatnonzero] at hfirst hsecond
      exact Option.some.inj (Option.some.inj (hfirst.symm.trans hsecond))

namespace PointSpace

variable {Centroid Value : Type} (space : PointSpace Centroid Value)

theorem argsort_perm (count : Nat) (values : Nat → Value) :
    (space.argsort count values).Perm (List.range count) :=
  List.mergeSort_perm _ _

theorem assign_balanced (hclusters : 0 < clusterCount) (centroids : List Centroid) :
    Balanced count clusterCount (space.assign count clusterCount centroids) := by
  refine Placed.balanced ((placed_nil count clusterCount).foldl hclusters
    (fun point => space.argsort_perm clusterCount _) (fun point hpoint => ?_) ?_) hclusters
    (space.argsort_perm count _)
  · exact List.mem_range.mp ((space.argsort_perm count _).mem_iff.mp hpoint)
  · exact (space.argsort_perm count _).nodup_iff.mpr List.nodup_range

/-- No mean is taken of no rows. -/
theorem iterate_balanced (hclusters : 0 < clusterCount) (hcount : clusterCount ≤ count)
    {iterations : Nat} (hiterations : 0 < iterations) (centroids : List Centroid)
    (assignment : List (Option Nat)) :
    ∃ final, space.iterate count clusterCount iterations centroids assignment = .ok final ∧
      Balanced count clusterCount final := by
  induction iterations generalizing centroids assignment with
  | zero => exact absurd hiterations (Nat.lt_irrefl 0)
  | succ iterations ih =>
    have hbalanced := @assign_balanced count clusterCount _ _ space hclusters centroids
    obtain ⟨means, hmeans⟩ : ∃ means, space.recenter clusterCount
        (space.assign count clusterCount centroids) = .ok means := by
      refine exists_mapM_ok fun cluster hcluster => ?_
      have hfilled := hbalanced.filled cluster (List.mem_range.mp hcluster)
      have hpositive := Nat.div_pos hcount hclusters
      have hsome : flatnonzero (space.assign count clusterCount centroids) cluster ≠ [] := by
        rw [← List.length_pos_iff, hfilled, capacityOf]
        omega
      exact ⟨_, bind_ok.mpr ⟨(), reject_ok.mpr hsome, rfl⟩⟩
    rcases Nat.eq_zero_or_pos iterations with rfl | hmore
    · exact ⟨_, bind_ok.mpr ⟨means, hmeans, rfl⟩, hbalanced⟩
    · obtain ⟨final, hfinal, hend⟩ := ih hmore means (space.assign count clusterCount centroids)
      exact ⟨final, bind_ok.mpr ⟨means, hmeans, hfinal⟩, hend⟩

theorem balancedKmeans_balanced {count targetSize iterations : Nat} (hcount : 1 ≤ count)
    (htarget : 1 ≤ targetSize) (hiterations : 1 ≤ iterations) :
    ∃ groups, space.balancedKmeans count targetSize iterations = .ok groups ∧
      BalancedGroups count targetSize groups := by
  unfold balancedKmeans
  generalize hceil : max 1 ((count + targetSize - 1) / targetSize) = clusterCount
  have hclusters : 0 < clusterCount ∧ clusterCount ≤ count ∧
      count ≤ clusterCount * targetSize := by
    have hdivision := Nat.div_add_mod (count + targetSize - 1) targetSize
    have hrest := Nat.mod_lt (count + targetSize - 1) htarget
    have hfew : (count + targetSize - 1) / targetSize ≤ count := by
      refine Nat.div_le_of_le_mul ?_
      obtain ⟨fewer, rfl⟩ := Nat.exists_eq_add_of_le' htarget
      have hmul := Nat.le_mul_of_pos_left fewer hcount
      rw [Nat.add_mul, Nat.one_mul, Nat.mul_comm]
      omega
    rw [← hceil, Nat.mul_comm]
    have hmul := Nat.mul_le_mul_left targetSize
      (Nat.le_max_right 1 ((count + targetSize - 1) / targetSize))
    omega
  obtain ⟨hpositive, hfew, hroom⟩ := hclusters
  by_cases hone : clusterCount = 1
  · subst hone
    rw [Nat.one_mul] at hroom
    exact ⟨_, rfl, by simp, by simp; omega, by simp⟩
  · rw [if_neg hone]
    obtain ⟨assignment, hassignment, hbalanced⟩ := space.iterate_balanced hpositive hfew
      hiterations _ (List.replicate count none)
    have hfilled : ∀ group ∈ (List.range clusterCount).map (flatnonzero assignment),
        ∃ cluster, group.length = capacityOf count clusterCount cluster := by
      intro group hgroup
      obtain ⟨cluster, hcluster, rfl⟩ := List.mem_map.mp hgroup
      exact ⟨cluster, hbalanced.filled cluster (List.mem_range.mp hcluster)⟩
    have hleast := Nat.div_pos hfew hpositive
    refine ⟨_, bind_ok.mpr ⟨assignment, hassignment, rfl⟩, hbalanced.partitions,
      fun group hgroup => ?_, fun group hgroup other hother => ?_⟩
    · obtain ⟨cluster, hlength⟩ := hfilled group hgroup
      rw [← List.length_pos_iff, hlength]
      exact ⟨by unfold capacityOf; omega, capacityOf_le hroom cluster⟩
    · obtain ⟨cluster, hlength⟩ := hfilled group hgroup
      obtain ⟨another, hanother⟩ := hfilled other hother
      rw [hlength, hanother, capacityOf, capacityOf]
      split <;> omega

/-- Points on a line, with numbers as distances. -/
def line : PointSpace Nat Int where
  projection point := point
  row point := point
  distances centroids point cluster := ((centroids.getD cluster 0 : Int) - point).natAbs
  sub := (· - ·)
  neg := (- ·)
  le := (· ≤ ·)
  mean members := members.sum / members.length

theorem balancedKmeans_balanced_fivePoints :
    ∃ groups, line.balancedKmeans 5 2 3 = .ok groups ∧ BalancedGroups 5 2 groups :=
  line.balancedKmeans_balanced (by decide) (by decide) (by decide)

/-- Without points there is one group, which is empty. -/
theorem balancedKmeans_noPoints : line.balancedKmeans 0 2 3 = .ok [[]] ∧
    ¬ BalancedGroups 0 2 [[]] :=
  ⟨by decide, fun hgroups => (hgroups.sizes [] (by simp)).1 rfl⟩

end PointSpace

end SkipCell.Training

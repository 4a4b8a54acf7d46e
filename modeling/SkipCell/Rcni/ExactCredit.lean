import SkipCell.Rcni.EventCredit

/-! # Credits without rounding

The credit of an event over an ordered field, step by step as `compute_rcni_event_credit` takes
it. Only the square root is left to a parameter: it keeps the sign and the order of distances.
Numbers are exact, so no quotient overflows and nothing has to be tested for being finite.
-/

namespace SkipCell.Rcni.Exact

open Foundation

variable {Number : Type} [Field Number] [LinearOrder Number]

structure NeighborDistance (Number : Type) where
  nodeId : Nat
  victimDistance : Number
  deriving DecidableEq

structure EventInput (Number : Type) where
  witnessId : Nat
  sourceVictimDistance : Number
  witnessVictimDistance : Number
  selectedNeighbors : List (NeighborDistance Number) := []
  alpha : Number
  epsilon : Number
  distanceSemantics : DistanceSemantics := .squaredL2

structure EventCredit (Number : Type) where
  witnessRatio : Number
  counterfactualRatio : Number
  certifiedProgress : Number
  counterfactualIrreplaceability : Number
  eventCredit : Number
  alternativeId : Option Nat

section Computation

variable (root : Number → Number)

def validateAndConvertDistance (distance : Number) (semantics : DistanceSemantics) :
    Except Error Number := do
  reject (distance < 0) (.invalidArgument "RCNI distances must be finite and non-negative")
  match semantics with
  | .trueL2 => .ok distance
  | .squaredL2 => .ok (root distance)
  | .other _ => .error (.invalidArgument "RCNI distance semantics are invalid")

def clampUnit (value : Number) : Number := max 0 (min value 1)

/-- `std::numeric_limits<float>::max()` -/
def largestFloat : Number := (2 ^ 24 - 1) * 2 ^ 104

/-- The nearest of the neighbors that were compared so far, with its distance. -/
abbrev Alternative (Number : Type) := Option (NeighborDistance Number × Number)

def considerNeighbor (input : EventInput Number) (neighbor : NeighborDistance Number)
    (alternative : Alternative Number) : Except Error (Alternative Number) := do
  let distance ← validateAndConvertDistance root neighbor.victimDistance input.distanceSemantics
  if neighbor.nodeId = input.witnessId then
    .ok alternative
  else
    match alternative with
    | none => .ok (some (neighbor, distance))
    | some (nearest, nearestDistance) =>
      if distance < nearestDistance ∨
          distance = nearestDistance ∧ neighbor.nodeId < nearest.nodeId then
        .ok (some (neighbor, distance))
      else .ok alternative

def counterfactual (alternative : Option Number) (sourceDistance witnessRatio : Number) : Number :=
  match alternative with
  | none => 1
  | some distance => min (max (distance / sourceDistance) witnessRatio) 1

def irreplaceability (epsilon witnessRatio counterfactualRatio : Number) : Number :=
  if epsilon < counterfactualRatio ∧ witnessRatio < counterfactualRatio then
    1 - witnessRatio / counterfactualRatio
  else 0

def progress (alpha witnessRatio : Number) : Number :=
  if 1 ≤ alpha * witnessRatio then 0 else 1 - alpha * witnessRatio

def computeRcniEventCredit (input : EventInput Number) : Except Error (EventCredit Number) := do
  reject (input.alpha < 1)
    (.invalidArgument "RCNI alpha must be finite and greater than or equal to one")
  reject (input.epsilon ≤ 0)
    (.invalidArgument "RCNI epsilon must be finite and greater than zero")
  let sourceDistance ←
    validateAndConvertDistance root input.sourceVictimDistance input.distanceSemantics
  let witnessDistance ←
    validateAndConvertDistance root input.witnessVictimDistance input.distanceSemantics
  let alternative ← scan (fun _ => considerNeighbor root input) 0 input.selectedNeighbors none
  let result : EventCredit Number :=
    ⟨0, 1, 0, 0, 0, alternative.map fun entry => entry.1.nodeId⟩
  if sourceDistance ≤ input.epsilon then
    .ok result
  else
    let witnessRatio := witnessDistance / sourceDistance
    let counterfactualRatio :=
      counterfactual (alternative.map Prod.snd) sourceDistance witnessRatio
    let certifiedProgress := clampUnit (progress input.alpha witnessRatio)
    let replaced := irreplaceability input.epsilon witnessRatio counterfactualRatio
    .ok { result with
      witnessRatio := min witnessRatio largestFloat
      counterfactualRatio := counterfactualRatio
      certifiedProgress := certifiedProgress
      counterfactualIrreplaceability := clampUnit replaced
      eventCredit := clampUnit (certifiedProgress * replaced) }

end Computation

/-! ## The nearest alternative -/

section Alternatives

variable {root : Number → Number} {input : EventInput Number}

/-- The distance of a neighbor that passed the check. -/
def converted (root : Number → Number) (semantics : DistanceSemantics) (distance : Number) : Number :=
  match semantics with
  | .squaredL2 => root distance
  | _ => distance

theorem eq_converted {distance result : Number} {semantics : DistanceSemantics}
    (hvalid : validateAndConvertDistance root distance semantics = .ok result) :
    0 ≤ distance ∧ result = converted root semantics distance := by
  simp only [validateAndConvertDistance, bind_ok, reject_ok, not_lt, exists_const]
    at hvalid
  obtain ⟨hnonnegative, hresult⟩ := hvalid
  refine ⟨hnonnegative, ?_⟩
  cases semantics with
  | trueL2 => exact (Except.ok.inj hresult).symm
  | squaredL2 => exact (Except.ok.inj hresult).symm
  | other raw => cases hresult

/-- What a neighbor offers in the witness's place: its distance, and its ID among equals. -/
def offer (root : Number → Number) (input : EventInput Number)
    (neighbor : NeighborDistance Number) : Lex (Number × Nat) :=
  toLex (converted root input.distanceSemantics neighbor.victimDistance, neighbor.nodeId)

/-- The offers of the neighbors other than the witness. -/
def offers (root : Number → Number) (input : EventInput Number)
    (neighbors : List (NeighborDistance Number)) : Set (Lex (Number × Nat)) :=
  {offered | ∃ neighbor ∈ neighbors, neighbor.nodeId ≠ input.witnessId ∧
    offered = offer root input neighbor}

/-- The alternative is the least offer, if there is one. -/
def Nearest (offered : Set (Lex (Number × Nat))) (alternative : Alternative Number) : Prop :=
  (alternative = none → offered = ∅) ∧
    ∀ entry ∈ alternative, IsLeast offered (toLex (entry.2, entry.1.nodeId))

omit [Field Number] [LinearOrder Number] in
theorem offers_append (before : List (NeighborDistance Number)) (neighbor : NeighborDistance Number) :
    offers root input (before ++ [neighbor]) =
      offers root input before ∪
        {offered | neighbor.nodeId ≠ input.witnessId ∧ offered = offer root input neighbor} := by
  ext offered
  simp only [offers, Set.mem_ofPred_eq, Set.mem_union, List.mem_append, List.mem_singleton]
  constructor
  · rintro ⟨other, hother | rfl, hoffer⟩
    · exact .inl ⟨other, hother, hoffer⟩
    · exact .inr hoffer
  · rintro (⟨other, hother, hoffer⟩ | hoffer)
    · exact ⟨other, .inl hother, hoffer⟩
    · exact ⟨neighbor, .inr rfl, hoffer⟩

variable {offered : Set (Lex (Number × Nat))}

theorem Nearest.consider {before after : Alternative Number} {neighbor : NeighborDistance Number}
    (hbefore : Nearest offered before)
    (hconsidered : considerNeighbor root input neighbor before = .ok after) :
    Nearest (offered ∪
      {other | neighbor.nodeId ≠ input.witnessId ∧ other = offer root input neighbor}) after := by
  obtain ⟨distance, hvalid, hrest⟩ := bind_ok.mp hconsidered
  obtain ⟨-, hdistance⟩ := eq_converted hvalid
  have hoffer : offer root input neighbor = toLex (distance, neighbor.nodeId) := by
    rw [offer, ← hdistance]
  rw [hoffer]
  split at hrest
  next hwitness =>
    obtain rfl := Except.ok.inj hrest
    simpa [hwitness] using hbefore
  next hother =>
    simp only [hother, ne_eq, not_false_eq_true, true_and, Set.ofPred_eq_eq_singleton]
    split at hrest
    next =>
      obtain rfl := Except.ok.inj hrest
      refine ⟨nofun, fun entry hentry => ?_⟩
      obtain rfl := Option.some.inj hentry
      rw [hbefore.1 rfl, Set.empty_union]
      exact isLeast_singleton
    next nearest nearestDistance =>
      have hleast := hbefore.2 _ rfl
      split at hrest
      next hnearer =>
        obtain rfl := Except.ok.inj hrest
        refine ⟨nofun, fun entry hentry => ?_⟩
        obtain rfl := Option.some.inj hentry
        refine ⟨.inr rfl, ?_⟩
        rintro other (hold | rfl)
        · refine le_trans ?_ (hleast.2 hold)
          rw [Prod.Lex.toLex_le_toLex]
          exact hnearer.imp_right fun htie => ⟨htie.1, htie.2.le⟩
        · exact le_rfl
      next hfarther =>
        obtain rfl := Except.ok.inj hrest
        refine ⟨nofun, fun entry hentry => ?_⟩
        obtain rfl := Option.some.inj hentry
        refine ⟨.inl hleast.1, ?_⟩
        rintro other (hold | rfl)
        · exact hleast.2 hold
        · rw [← not_lt, Prod.Lex.toLex_lt_toLex]
          exact hfarther

theorem nearest_of_scan {neighbors : List (NeighborDistance Number)}
    {alternative : Alternative Number}
    (hscan : scan (fun _ => considerNeighbor root input) 0 neighbors none = .ok alternative) :
    Nearest (offers root input neighbors) alternative := by
  have hall := scan_invariant
    (motive := fun index found => Nearest (offers root input (neighbors.take index)) found) hscan
    ⟨fun _ => by simp [offers], nofun⟩ ?_
  · rwa [Nat.zero_add, List.take_length] at hall
  · intro index neighbor before after hneighbor hbefore hconsidered
    rw [Nat.zero_add] at hbefore ⊢
    rw [List.take_add_one, hneighbor, Option.toList_some, offers_append]
    exact hbefore.consider hconsidered

omit [Field Number] in
theorem Nearest.unique {first second : Alternative Number} (hfirst : Nearest offered first)
    (hsecond : Nearest offered second) :
    first.map Prod.snd = second.map Prod.snd ∧
      first.map (fun entry => entry.1.nodeId) = second.map fun entry => entry.1.nodeId := by
  cases first with
  | none =>
    cases second with
    | none => exact ⟨rfl, rfl⟩
    | some entry =>
      have hmem := (hsecond.2 entry rfl).1
      rw [hfirst.1 rfl] at hmem
      exact absurd hmem (Set.notMem_empty _)
  | some entry =>
    have hleast := hfirst.2 entry rfl
    cases second with
    | none =>
      have hmem := hleast.1
      rw [hsecond.1 rfl] at hmem
      exact absurd hmem (Set.notMem_empty _)
    | some other =>
      have hsame := hleast.unique (hsecond.2 other rfl)
      obtain ⟨hdistance, hid⟩ := Prod.mk.inj (toLex.injective hsame)
      exact ⟨congrArg some hdistance, congrArg some hid⟩

omit [Field Number] in
theorem Nearest.nearer {more : Set (Lex (Number × Nat))} {nearest alternative : Alternative Number}
    (hnearest : Nearest more nearest) (hsubset : offered ⊆ more)
    (halternative : Nearest offered alternative) {entry : NeighborDistance Number × Number}
    (hentry : entry ∈ alternative) :
    ∃ near ∈ nearest.map Prod.snd, near ≤ entry.2 := by
  have hmem := hsubset (halternative.2 entry hentry).1
  cases nearest with
  | none =>
    rw [hnearest.1 rfl] at hmem
    exact absurd hmem (Set.notMem_empty _)
  | some near =>
    refine ⟨near.2, rfl, ?_⟩
    have hle := (hnearest.2 near rfl).2 hmem
    rcases Prod.Lex.toLex_le_toLex.mp hle with hlt | ⟨heq, -⟩
    · exact hlt.le
    · exact heq.le

end Alternatives

/-! ## Ratios -/

section Ratios

variable [IsStrictOrderedRing Number] {epsilon witnessRatio otherRatio : Number}

omit [IsStrictOrderedRing Number] in
theorem clampUnit_mono {value other : Number} (hle : value ≤ other) :
    clampUnit value ≤ clampUnit other :=
  max_le_max_left 0 (min_le_min_right 1 hle)

theorem clampUnit_inUnit (value : Number) : 0 ≤ clampUnit value ∧ clampUnit value ≤ 1 :=
  ⟨le_max_left _ _, max_le zero_le_one (min_le_right _ _)⟩

theorem progress_antitone {alpha : Number} (halpha : 0 ≤ alpha) (hle : witnessRatio ≤ otherRatio) :
    progress alpha otherRatio ≤ progress alpha witnessRatio := by
  have hscaled : alpha * witnessRatio ≤ alpha * otherRatio := mul_le_mul_of_nonneg_left hle halpha
  unfold progress
  split
  next hfull =>
    split
    next => exact le_rfl
    next hpart => exact sub_nonneg.mpr (not_le.mp hpart).le
  next hpart =>
    rw [if_neg fun hfull => hpart (hfull.trans hscaled)]
    exact sub_le_sub_left hscaled 1

theorem irreplaceability_nonneg (hwitness : 0 ≤ witnessRatio) (counterfactualRatio : Number) :
    0 ≤ irreplaceability epsilon witnessRatio counterfactualRatio := by
  unfold irreplaceability
  split
  next hcondition =>
    have hpositive : 0 < counterfactualRatio := hwitness.trans_lt hcondition.2
    exact sub_nonneg.mpr ((div_lt_one hpositive).mpr hcondition.2).le
  next => exact le_rfl

theorem irreplaceability_mono (hwitness : 0 ≤ witnessRatio) {nearer farther : Number}
    (hle : nearer ≤ farther) :
    irreplaceability epsilon witnessRatio nearer ≤ irreplaceability epsilon witnessRatio farther := by
  by_cases hcondition : epsilon < nearer ∧ witnessRatio < nearer
  · have hpositive : 0 < nearer := hwitness.trans_lt hcondition.2
    have hfarther : epsilon < farther ∧ witnessRatio < farther :=
      ⟨hcondition.1.trans_le hle, hcondition.2.trans_le hle⟩
    rw [irreplaceability, irreplaceability, if_pos hcondition, if_pos hfarther]
    exact sub_le_sub_left (div_le_div_of_nonneg_left hwitness hpositive hle) 1
  · rw [irreplaceability, if_neg hcondition]
    exact irreplaceability_nonneg hwitness _

omit [IsStrictOrderedRing Number] in
theorem counterfactual_le_one (alternative : Option Number) (sourceDistance : Number) :
    counterfactual alternative sourceDistance witnessRatio ≤ 1 := by
  cases alternative with
  | none => exact le_rfl
  | some distance => exact min_le_right _ _

/-- A farther witness is easier to replace: where it still counts, the counterfactual ratio
is that of the alternative alone. -/
theorem irreplaceability_antitone (hwitness : 0 ≤ witnessRatio) (hle : witnessRatio ≤ otherRatio)
    (alternative : Option Number) (sourceDistance : Number) :
    irreplaceability epsilon otherRatio (counterfactual alternative sourceDistance otherRatio) ≤
      irreplaceability epsilon witnessRatio
        (counterfactual alternative sourceDistance witnessRatio) := by
  by_cases hcondition : epsilon < counterfactual alternative sourceDistance otherRatio ∧
      otherRatio < counterfactual alternative sourceDistance otherRatio
  · have hsame : counterfactual alternative sourceDistance witnessRatio =
        counterfactual alternative sourceDistance otherRatio := by
      cases alternative with
      | none => rfl
      | some distance =>
        have hnear : otherRatio < distance / sourceDistance := by
          have hmaximum := hcondition.2.trans_le (min_le_left _ _)
          exact (lt_max_iff.mp hmaximum).resolve_right (lt_irrefl _)
        rw [counterfactual, counterfactual, max_eq_left hnear.le, max_eq_left (hle.trans hnear.le)]
    have hpositive : 0 < counterfactual alternative sourceDistance otherRatio :=
      (hwitness.trans hle).trans_lt hcondition.2
    rw [hsame, irreplaceability, irreplaceability, if_pos hcondition,
      if_pos ⟨hcondition.1, hle.trans_lt hcondition.2⟩]
    exact sub_le_sub_left (div_le_div_of_nonneg_right hle hpositive.le) 1
  · rw [irreplaceability, if_neg hcondition]
    exact irreplaceability_nonneg hwitness _

end Ratios

/-! ## The credit -/

section Credit

variable [IsStrictOrderedRing Number] {root : Number → Number}

/-- The credit over converted distances, for a source beyond epsilon. -/
def creditOf (alpha epsilon sourceDistance witnessDistance : Number)
    (alternative : Option Number) : Number :=
  clampUnit (clampUnit (progress alpha (witnessDistance / sourceDistance)) *
    irreplaceability epsilon (witnessDistance / sourceDistance)
      (counterfactual alternative sourceDistance (witnessDistance / sourceDistance)))

variable {alpha epsilon sourceDistance witnessDistance distance : Number}

theorem creditOf_antitone {otherDistance : Number} (halpha : 0 ≤ alpha)
    (hsource : 0 < sourceDistance) (hwitness : 0 ≤ witnessDistance)
    (hle : witnessDistance ≤ otherDistance) (alternative : Option Number) :
    creditOf alpha epsilon sourceDistance otherDistance alternative ≤
      creditOf alpha epsilon sourceDistance witnessDistance alternative := by
  have hratio : witnessDistance / sourceDistance ≤ otherDistance / sourceDistance :=
    div_le_div_of_nonneg_right hle hsource.le
  have hnonnegative : 0 ≤ witnessDistance / sourceDistance := div_nonneg hwitness hsource.le
  apply clampUnit_mono
  apply mul_le_mul
  · exact clampUnit_mono (progress_antitone halpha hratio)
  · exact irreplaceability_antitone hnonnegative hratio alternative sourceDistance
  · exact irreplaceability_nonneg (hnonnegative.trans hratio) _
  · exact (clampUnit_inUnit _).1

theorem creditOf_mono (hsource : 0 < sourceDistance) (hwitness : 0 ≤ witnessDistance)
    {nearer farther : Option Number}
    (hle : ∀ distance ∈ farther, ∃ near ∈ nearer, near ≤ distance) :
    creditOf alpha epsilon sourceDistance witnessDistance nearer ≤
      creditOf alpha epsilon sourceDistance witnessDistance farther := by
  have hcounterfactual : counterfactual nearer sourceDistance (witnessDistance / sourceDistance) ≤
      counterfactual farther sourceDistance (witnessDistance / sourceDistance) := by
    cases farther with
    | none => exact counterfactual_le_one _ _
    | some distance =>
      obtain ⟨near, hnear, hdistance⟩ := hle distance rfl
      obtain rfl := Option.mem_def.mp hnear
      exact min_le_min_right 1 (max_le_max_right _
        (div_le_div_of_nonneg_right hdistance hsource.le))
  apply clampUnit_mono
  apply mul_le_mul_of_nonneg_left
  · exact irreplaceability_mono (div_nonneg hwitness hsource.le) hcounterfactual
  · exact (clampUnit_inUnit _).1

/-- A square root keeps the sign and the order of distances. -/
structure Root (root : Number → Number) : Prop where
  nonneg : ∀ distance, 0 ≤ distance → 0 ≤ root distance
  mono : ∀ distance other, 0 ≤ distance → distance ≤ other → root distance ≤ root other

omit [IsStrictOrderedRing Number] in
theorem Root.converted_nonneg (hroot : Root root) (hdistance : 0 ≤ distance)
    (semantics : DistanceSemantics) : 0 ≤ converted root semantics distance := by
  cases semantics with
  | squaredL2 => exact hroot.nonneg distance hdistance
  | trueL2 => exact hdistance
  | other raw => exact hdistance

omit [IsStrictOrderedRing Number] in
theorem Root.converted_mono (hroot : Root root) {other : Number} (hdistance : 0 ≤ distance)
    (hle : distance ≤ other) (semantics : DistanceSemantics) :
    converted root semantics distance ≤ converted root semantics other := by
  cases semantics with
  | squaredL2 => exact hroot.mono distance other hdistance hle
  | trueL2 => exact hle
  | other raw => exact hle

omit [IsStrictOrderedRing Number] in
/-- An accepted event: its checks, and its credit by the nearest alternative. -/
theorem computeRcniEventCredit_eq_ok {input : EventInput Number} {result : EventCredit Number} :
    computeRcniEventCredit root input = .ok result →
      1 ≤ input.alpha ∧ 0 < input.epsilon ∧ 0 ≤ input.witnessVictimDistance ∧
        ∃ alternative, Nearest (offers root input input.selectedNeighbors) alternative ∧
          result =
            if converted root input.distanceSemantics input.sourceVictimDistance ≤ input.epsilon then
              ⟨0, 1, 0, 0, 0, alternative.map fun entry => entry.1.nodeId⟩
            else
              let sourceDistance := converted root input.distanceSemantics input.sourceVictimDistance
              let witnessRatio :=
                converted root input.distanceSemantics input.witnessVictimDistance / sourceDistance
              let counterfactualRatio :=
                counterfactual (alternative.map Prod.snd) sourceDistance witnessRatio
              { witnessRatio := min witnessRatio largestFloat
                counterfactualRatio := counterfactualRatio
                certifiedProgress := clampUnit (progress input.alpha witnessRatio)
                counterfactualIrreplaceability :=
                  clampUnit (irreplaceability input.epsilon witnessRatio counterfactualRatio)
                eventCredit := creditOf input.alpha input.epsilon sourceDistance
                  (converted root input.distanceSemantics input.witnessVictimDistance)
                  (alternative.map Prod.snd)
                alternativeId := alternative.map fun entry => entry.1.nodeId } := by
  intro hcomputed
  simp only [computeRcniEventCredit, bind_ok, reject_ok, not_lt, not_le, exists_const]
    at hcomputed
  obtain ⟨halpha, hepsilon, sourceDistance, hsource, witnessDistance, hwitness, alternative, hscan,
    hresult⟩ := hcomputed
  obtain ⟨-, rfl⟩ := eq_converted hsource
  obtain ⟨hnonnegative, rfl⟩ := eq_converted hwitness
  refine ⟨halpha, hepsilon, hnonnegative, alternative, nearest_of_scan hscan, ?_⟩
  split at hresult
  next hnear =>
    rw [if_pos hnear]
    exact (Except.ok.inj hresult).symm
  next hfar =>
    rw [if_neg hfar]
    exact (Except.ok.inj hresult).symm

/-- What holds of the credit of an accepted event. -/
structure Lawful (root : Number → Number) (input : EventInput Number)
    (result : EventCredit Number) : Prop where
  certifiedProgress : 0 ≤ result.certifiedProgress ∧ result.certifiedProgress ≤ 1
  counterfactualIrreplaceability :
    0 ≤ result.counterfactualIrreplaceability ∧ result.counterfactualIrreplaceability ≤ 1
  eventCredit : 0 ≤ result.eventCredit ∧ result.eventCredit ≤ 1
  /-- Only the set of the neighbors other than the witness counts. -/
  sameSet : ∀ neighbors other,
    (∀ neighbor, neighbor.nodeId ≠ input.witnessId →
      (neighbor ∈ neighbors ↔ neighbor ∈ input.selectedNeighbors)) →
    computeRcniEventCredit root { input with selectedNeighbors := neighbors } = .ok other →
    other = result
  moreNeighbors : ∀ neighbors other, input.selectedNeighbors ⊆ neighbors →
    computeRcniEventCredit root { input with selectedNeighbors := neighbors } = .ok other →
    other.eventCredit ≤ result.eventCredit
  fartherWitness : ∀ distance other, input.witnessVictimDistance ≤ distance →
    computeRcniEventCredit root { input with witnessVictimDistance := distance } = .ok other →
    other.eventCredit ≤ result.eventCredit

theorem Root.lawful (hroot : Root root) {input : EventInput Number} {result : EventCredit Number}
    (hcomputed : computeRcniEventCredit root input = .ok result) : Lawful root input result := by
  obtain ⟨halpha, hepsilon, hwitness, alternative, hnearest, hresult⟩ :=
    computeRcniEventCredit_eq_ok hcomputed
  have hunit : (0 : Number) ≤ 0 ∧ (0 : Number) ≤ 1 := ⟨le_rfl, zero_le_one⟩
  have halphaNonneg : 0 ≤ input.alpha := zero_le_one.trans halpha
  have hconverted := hroot.converted_nonneg hwitness input.distanceSemantics
  constructor
  · rw [hresult]
    split
    next => exact hunit
    next => exact clampUnit_inUnit _
  · rw [hresult]
    split
    next => exact hunit
    next => exact clampUnit_inUnit _
  · rw [hresult]
    split
    next => exact hunit
    next => exact clampUnit_inUnit _
  · intro neighbors other hsame hother
    obtain ⟨-, -, -, otherAlternative, hotherNearest, rfl⟩ := computeRcniEventCredit_eq_ok hother
    have hoffers : offers root { input with selectedNeighbors := neighbors } neighbors =
        offers root input input.selectedNeighbors := by
      ext offered
      constructor
      · rintro ⟨neighbor, hmem, hwitnessId, hoffer⟩
        exact ⟨neighbor, (hsame neighbor hwitnessId).mp hmem, hwitnessId, hoffer⟩
      · rintro ⟨neighbor, hmem, hwitnessId, hoffer⟩
        exact ⟨neighbor, (hsame neighbor hwitnessId).mpr hmem, hwitnessId, hoffer⟩
    obtain ⟨hdistances, hids⟩ := (hoffers ▸ hotherNearest).unique hnearest
    rw [hresult, hdistances, hids]
  · intro neighbors other hsubset hother
    obtain ⟨-, -, -, otherAlternative, hotherNearest, rfl⟩ := computeRcniEventCredit_eq_ok hother
    have hoffers : offers root input input.selectedNeighbors ⊆
        offers root { input with selectedNeighbors := neighbors } neighbors := by
      rintro offered ⟨neighbor, hmem, hwitnessId, hoffer⟩
      exact ⟨neighbor, hsubset hmem, hwitnessId, hoffer⟩
    rw [hresult]
    dsimp only
    split
    next => exact le_rfl
    next hfar =>
      refine creditOf_mono (hepsilon.trans (not_le.mp hfar)) hconverted fun distance hdistance => ?_
      obtain ⟨entry, hentry, rfl⟩ := Option.mem_map.mp hdistance
      exact hotherNearest.nearer hoffers hnearest hentry
  · intro distance other hfarther hother
    obtain ⟨-, -, -, otherAlternative, hotherNearest, rfl⟩ := computeRcniEventCredit_eq_ok hother
    obtain ⟨hdistances, -⟩ := hotherNearest.unique hnearest
    rw [hresult, hdistances]
    dsimp only
    split
    next => exact le_rfl
    next hfar =>
      exact creditOf_antitone halphaNonneg (hepsilon.trans (not_le.mp hfar)) hconverted
        (hroot.converted_mono hwitness hfarther _) _

/-- In exact arithmetic the credit of every accepted event is lawful. -/
theorem computeRcniEventCredit_lawful {input : EventInput ℝ} {result : EventCredit ℝ}
    (hcomputed : computeRcniEventCredit Real.sqrt input = .ok result) :
    Lawful Real.sqrt input result :=
  Root.lawful ⟨fun _ _ => Real.sqrt_nonneg _, fun _ _ _ hle => Real.sqrt_le_sqrt hle⟩ hcomputed

/-- A witness that lies at the victim, and an alternative beyond the source. -/
noncomputable def eventFour : EventInput ℝ where
  witnessId := 1
  sourceVictimDistance := 4
  witnessVictimDistance := 0
  selectedNeighbors := [⟨1, 0⟩, ⟨2, 9⟩]
  alpha := 1
  epsilon := 1

theorem computeRcniEventCredit_lawful_four : ∃ result,
    computeRcniEventCredit Real.sqrt eventFour = .ok result ∧ Lawful Real.sqrt eventFour result := by
  obtain ⟨result, hcomputed⟩ : ∃ result,
      computeRcniEventCredit Real.sqrt eventFour = .ok result := by
    have hfour : Real.sqrt 4 = 2 := by
      rw [show (4 : ℝ) = 2 ^ 2 by norm_num, Real.sqrt_sq zero_le_two]
    simp only [computeRcniEventCredit, validateAndConvertDistance, eventFour, scan,
      considerNeighbor, bind_ok, reject_ok]
    norm_num [hfour]
  exact ⟨result, hcomputed, computeRcniEventCredit_lawful hcomputed⟩

end Credit

end SkipCell.Rcni.Exact

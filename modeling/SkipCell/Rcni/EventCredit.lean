import SkipCell.Foundation.Checks
import SkipCell.Foundation.UnitInterval

/-! # Credits of prune events

A witness that brings a victim nearer than its source is credited, the more so when no other
neighbor of the source could replace it. A credit is a `float` from zero to one; it is neither
the negative zero nor a NaN, so credits are ordered as their bits are.
-/

namespace SkipCell.Rcni

open Foundation

/-- The exceptions of the importance functions. -/
inductive Error
  | invalidArgument (what : String)
  | outOfRange (what : String)
  | logicError (what : String)
  deriving DecidableEq

/-- `rcni_node_importance_t`, over the number type of its sums. -/
structure NodeImportance (Value : Type) where
  nodeId : Nat
  rawImportance : Value
  normalizedImportance : Value
  importancePercentile : Value
  sourceSupport : Nat := 0
  witnessEventCount : Nat := 0

/-- How a distance is encoded, or what a cast did not find among the enumerators. -/
inductive DistanceSemantics
  | trueL2
  | squaredL2
  | other (raw : UInt32)
  deriving DecidableEq

structure NeighborDistance where
  nodeId : Nat
  victimDistance : Single
  deriving DecidableEq

structure EventInput where
  witnessId : Nat
  sourceVictimDistance : Single
  witnessVictimDistance : Single
  selectedNeighbors : List NeighborDistance := []
  alpha : Single
  epsilon : Single
  distanceSemantics : DistanceSemantics := .squaredL2

structure EventCredit where
  witnessRatio : Single := .zero
  counterfactualRatio : Single := .one
  certifiedProgress : Single := .zero
  counterfactualIrreplaceability : Single := .zero
  eventCredit : Single := .zero
  alternativeId : Option Nat := none

def kRcniDefaultEpsilon : Single := ⟨0x2B8CBCCC⟩

def validateAndConvertDistance (distance : Single) (semantics : DistanceSemantics) :
    Except Error Single := do
  reject (distance.isFinite = false ∨ distance < .zero)
    (.invalidArgument "RCNI distances must be finite and non-negative")
  match semantics with
  | .trueL2 => .ok distance
  | .squaredL2 => .ok distance.sqrt
  | .other _ => .error (.invalidArgument "RCNI distance semantics are invalid")

def clampUnit (value : Double) : Single := (value.clamp .zero .one).toSingle

def safeRatio (numerator denominator : Single) : Double :=
  let ratio := numerator.toDouble / denominator.toDouble
  if ratio.isFinite then ratio else .largest

/-- `std::numeric_limits<float>::max()` -/
def largestSingle : Single := ⟨0x7F7FFFFF⟩

/-- The nearest of the neighbors that were compared so far, with its distance. -/
abbrev Alternative := Option (NeighborDistance × Single)

def considerNeighbor (input : EventInput) (neighbor : NeighborDistance) (alternative : Alternative) :
    Except Error Alternative := do
  let distance ← validateAndConvertDistance neighbor.victimDistance input.distanceSemantics
  if neighbor.nodeId = input.witnessId then
    .ok alternative
  else
    match alternative with
    | none => .ok (some (neighbor, distance))
    | some (nearest, nearestDistance) =>
      if distance < nearestDistance ∨
          (distance ≤ nearestDistance ∧ nearestDistance ≤ distance) ∧
            neighbor.nodeId < nearest.nodeId then
        .ok (some (neighbor, distance))
      else .ok alternative

def counterfactual (alternative : Alternative) (sourceDistance : Single) (witnessRatio : Double) :
    Double :=
  match alternative with
  | none => .one
  | some (_, distance) =>
    (((safeRatio distance sourceDistance).maximum witnessRatio).minimum .one)

def irreplaceability (epsilon : Single) (witnessRatio counterfactualRatio : Double) : Double :=
  if epsilon.toDouble < counterfactualRatio ∧ witnessRatio < counterfactualRatio then
    .one - witnessRatio / counterfactualRatio
  else .zero

def progress (alpha : Single) (witnessRatio : Double) : Double :=
  let scaledWitnessRatio := alpha.toDouble * witnessRatio
  if .one ≤ scaledWitnessRatio then .zero else .one - scaledWitnessRatio

def computeRcniEventCredit (input : EventInput) : Except Error EventCredit := do
  reject (input.alpha.isFinite = false ∨ input.alpha < .one)
    (.invalidArgument "RCNI alpha must be finite and greater than or equal to one")
  reject (input.epsilon.isFinite = false ∨ input.epsilon ≤ .zero)
    (.invalidArgument "RCNI epsilon must be finite and greater than zero")
  let sourceDistance ←
    validateAndConvertDistance input.sourceVictimDistance input.distanceSemantics
  let witnessDistance ←
    validateAndConvertDistance input.witnessVictimDistance input.distanceSemantics
  let alternative ← scan (fun _ => considerNeighbor input) 0 input.selectedNeighbors none
  let result : EventCredit := { alternativeId := alternative.map fun entry => entry.1.nodeId }
  -- a source at the victim is no baseline for a contraction
  if sourceDistance ≤ input.epsilon then
    .ok result
  else
    let witnessRatio := safeRatio witnessDistance sourceDistance
    let counterfactualRatio := counterfactual alternative sourceDistance witnessRatio
    let certifiedProgress := clampUnit (progress input.alpha witnessRatio)
    let replaced := irreplaceability input.epsilon witnessRatio counterfactualRatio
    .ok { result with
      witnessRatio := (witnessRatio.minimum largestSingle.toDouble).toSingle
      counterfactualRatio := counterfactualRatio.toSingle
      certifiedProgress := certifiedProgress
      counterfactualIrreplaceability := clampUnit replaced
      eventCredit := clampUnit (certifiedProgress.toDouble * replaced) }

theorem clampUnit_inUnit {value : Double} (hvalue : value.InUnit) : (clampUnit value).InUnit :=
  hvalue.clamp.toSingle

theorem nonnegative_of_validated {distance result : Single} {semantics : DistanceSemantics}
    (hvalid : validateAndConvertDistance distance semantics = .ok result) : result.Nonnegative := by
  simp only [validateAndConvertDistance, bind_ok, reject_ok, not_or, exists_const,
    Bool.not_eq_false] at hvalid
  obtain ⟨⟨hfinite, hnot⟩, hresult⟩ := hvalid
  have hdistance := Single.nonnegative_of_not_lt hfinite hnot
  cases semantics with
  | trueL2 =>
    obtain rfl := Except.ok.inj hresult
    exact hdistance
  | squaredL2 =>
    obtain rfl := Except.ok.inj hresult
    exact hdistance.sqrt
  | other raw => cases hresult

theorem safeRatio_nonnegative {numerator denominator : Single} (hnumerator : numerator.Nonnegative)
    (hdenominator : denominator.bits.toNat ≤ FloatFormat.single.infinity) :
    (safeRatio numerator denominator).Nonnegative ∧
      (safeRatio numerator denominator).isFinite = true := by
  rw [safeRatio]
  split
  next hfinite =>
    exact ⟨hnumerator.toDouble.div (Single.toDouble_le_infinity hdenominator) hfinite, hfinite⟩
  next => exact ⟨.inl (by decide), by decide⟩

theorem considerNeighbor_nonnegative {input : EventInput} {neighbor : NeighborDistance}
    {before after : Alternative} (hconsidered : considerNeighbor input neighbor before = .ok after)
    (hbefore : ∀ entry ∈ before, entry.2.Nonnegative) : ∀ entry ∈ after, entry.2.Nonnegative := by
  obtain ⟨distance, hvalid, hrest⟩ := bind_ok.mp hconsidered
  have hdistance := nonnegative_of_validated hvalid
  have hnew : ∀ entry ∈ (some (neighbor, distance) : Alternative), entry.2.Nonnegative := by
    rintro entry hentry
    obtain rfl := Option.some.inj hentry
    exact hdistance
  split at hrest
  next =>
    obtain rfl := Except.ok.inj hrest
    exact hbefore
  next =>
    split at hrest
    next =>
      obtain rfl := Except.ok.inj hrest
      exact hnew
    next =>
      split at hrest
      next =>
        obtain rfl := Except.ok.inj hrest
        exact hnew
      next =>
        obtain rfl := Except.ok.inj hrest
        exact hbefore

theorem counterfactual_nonnegative {alternative : Alternative} {sourceDistance : Single}
    {witnessRatio : Double} (halternative : ∀ entry ∈ alternative, entry.2.Nonnegative)
    (hsource : sourceDistance.bits.toNat ≤ FloatFormat.single.infinity)
    (hwitness : witnessRatio.Nonnegative) (hfinite : witnessRatio.isFinite = true) :
    (counterfactual alternative sourceDistance witnessRatio).Nonnegative ∧
      (counterfactual alternative sourceDistance witnessRatio).isFinite = true := by
  have hone : Double.one.Nonnegative ∧ Double.one.isFinite = true := ⟨.inl (by decide), by decide⟩
  unfold counterfactual
  split
  next => exact hone
  next neighbor distance =>
    have hratio := safeRatio_nonnegative (halternative _ rfl) hsource
    have hmaximum : ((safeRatio distance sourceDistance).maximum witnessRatio).Nonnegative ∧
        ((safeRatio distance sourceDistance).maximum witnessRatio).isFinite = true := by
      rw [Double.maximum]
      split
      next => exact ⟨hwitness, hfinite⟩
      next => exact hratio
    rw [Double.minimum]
    split
    next => exact hone
    next => exact hmaximum

theorem irreplaceability_inUnit {epsilon : Single} {witnessRatio counterfactualRatio : Double}
    (hwitness : witnessRatio.Nonnegative)
    (hcounterfactual : counterfactualRatio.Nonnegative)
    (hfinite : counterfactualRatio.isFinite = true) :
    (irreplaceability epsilon witnessRatio counterfactualRatio).InUnit := by
  unfold irreplaceability
  split
  next hcondition =>
    obtain ⟨hratio, hratioFinite, hle⟩ :=
      Double.div_toRat_le_one hwitness hcounterfactual hfinite hcondition.2
    exact Double.one_sub_inUnit hratio hratioFinite hle
  next => exact Nat.zero_le _

theorem progress_inUnit {alpha : Single} {witnessRatio : Double}
    (halpha : alpha.bits.toNat < FloatFormat.single.infinity)
    (hwitness : witnessRatio.Nonnegative) (hfinite : witnessRatio.isFinite = true) :
    (progress alpha witnessRatio).InUnit := by
  rw [progress]
  split
  next => exact Nat.zero_le _
  next hnot =>
    have hscaled : (alpha.toDouble * witnessRatio).Nonnegative :=
      .mul (Single.toDouble_lt_infinity halpha) hwitness hfinite
    obtain ⟨hscaledFinite, hle⟩ := Double.toRat_le_one hscaled hnot
    exact Double.one_sub_inUnit hscaled hscaledFinite hle

theorem lt_infinity_of_not_lt {value least : Single} (hfinite : value.isFinite = true)
    (hleastFinite : least.isFinite = true) (hleast : 0 < least.key) (hnot : ¬ value < least) :
    value.bits.toNat < FloatFormat.single.infinity := by
  have hkey : 0 < value.key := by
    rw [Single.lt_iff_key hfinite hleastFinite, not_lt] at hnot
    exact hleast.trans_le hnot
  rcases FloatFormat.Nonnegative.of_orderKey value.bits.toNat_lt hfinite hkey.le with hle | hsign
  · exact (FloatFormat.isFinite_iff hle).mp hfinite
  · rw [Single.key, hsign, FloatFormat.orderKey_signBit] at hkey
    exact absurd hkey (lt_irrefl 0)

theorem eventCredit_inUnit {input : EventInput} {result : EventCredit}
    (hcomputed : computeRcniEventCredit input = .ok result) : result.eventCredit.InUnit := by
  simp only [computeRcniEventCredit, bind_ok, reject_ok, not_or, exists_const,
    Bool.not_eq_false] at hcomputed
  obtain ⟨⟨halphaFinite, halpha⟩, ⟨hepsilonFinite, hepsilon⟩, sourceDistance, hsource,
    witnessDistance, hwitness, alternative, hscan, hresult⟩ := hcomputed
  split at hresult
  next =>
    obtain rfl := Except.ok.inj hresult
    exact Nat.zero_le _
  next hfar =>
    obtain rfl := Except.ok.inj hresult
    have hsourceNonnegative := nonnegative_of_validated hsource
    -- a distance above epsilon is not the negative zero
    have hsourceWord : sourceDistance.bits.toNat ≤ FloatFormat.single.infinity := by
      rcases hsourceNonnegative with hle | hsign
      · exact hle
      · refine absurd ?_ hfar
        have hfinite : sourceDistance.isFinite = true := by
          rw [Single.isFinite, hsign]
          decide
        have hkey : ¬ input.epsilon.key ≤ 0 := fun hle => hepsilon
          ((FloatFormat.le_iff_orderKey _ hepsilonFinite (by decide)).mpr hle)
        refine (FloatFormat.le_iff_orderKey _ hfinite hepsilonFinite).mpr ?_
        rw [hsign, FloatFormat.orderKey_signBit]
        exact (not_le.mp hkey).le
    have halphaWord := lt_infinity_of_not_lt halphaFinite (by decide) (by decide) halpha
    obtain ⟨hratio, hratioFinite⟩ :=
      safeRatio_nonnegative (nonnegative_of_validated hwitness) hsourceWord
    have halternative : ∀ entry ∈ alternative, entry.2.Nonnegative := by
      refine scan_invariant (motive := fun _ found => ∀ entry ∈ found, entry.2.Nonnegative) hscan
        (by simp) ?_
      intro index neighbor before after _ hbefore hconsidered
      exact considerNeighbor_nonnegative hconsidered hbefore
    obtain ⟨hcounterfactual, hcounterfactualFinite⟩ :=
      counterfactual_nonnegative halternative hsourceWord hratio hratioFinite
    have hprogress := clampUnit_inUnit (progress_inUnit halphaWord hratio hratioFinite)
    exact clampUnit_inUnit (hprogress.toDouble.mul
      (irreplaceability_inUnit hratio hcounterfactual hcounterfactualFinite))

end SkipCell.Rcni

import SkipCell.Foundation.LeadingMass
import SkipCell.Foundation.SortedMap
import SkipCell.Rcni.EventCredit

/-! # Candidate Hubs

The nodes are ranked by their importance, and the first of them are the candidate Hubs: a share
of all nodes, or as many as have a share of the total importance. The sums are exact here, so
this is the selection without the rounding of its `long double` arithmetic.
-/

namespace SkipCell.Rcni

open Foundation

/-- A value that a cast did not find among the enumerators. -/
inductive CandidateHubSelectionMode
  | topRatio
  | importanceMass
  | other (raw : UInt32)
  deriving DecidableEq

structure CandidateHubSelectionConfig where
  mode : CandidateHubSelectionMode := .topRatio
  topRatio : Double := .zero
  importanceMass : Double := .zero

structure CandidateHub where
  nodeId : Nat
  rawImportance : Double
  normalizedImportance : Double
  cumulativeImportanceMass : ℚ
  deriving DecidableEq

structure CandidateHubSelectionResult where
  mode : CandidateHubSelectionMode
  selectionValue : Double
  totalImportance : ℚ := 0
  selectedImportance : ℚ := 0
  selectedImportanceMass : ℚ := 0
  candidateHubs : List CandidateHub := []

/-- The number that a finite `double` stands for. -/
def exact (value : Double) : ℚ := FloatFormat.double.toRat value.bits.toNat

def validateCandidateHubSelectionConfig (config : CandidateHubSelectionConfig) :
    Except Error Unit := do
  let activeValue ← match config.mode with
    | .topRatio => .ok config.topRatio
    | .importanceMass => .ok config.importanceMass
    | .other _ => .error (.invalidArgument "candidate-Hub selection mode is invalid")
  reject (activeValue.isFinite = false ∨ exact activeValue < 0 ∨ 1 < exact activeValue)
    (.invalidArgument "candidate-Hub selection value must be finite and within [0, 1]")

/-- An importance that is not finite, negative, or not normalized. -/
def BadImportance (record : NodeImportance Double) : Prop :=
  record.rawImportance.isFinite = false ∨ exact record.rawImportance < 0 ∨
    record.normalizedImportance.isFinite = false ∨ exact record.normalizedImportance < 0 ∨
    1 < exact record.normalizedImportance

instance (record : NodeImportance Double) : Decidable (BadImportance record) :=
  inferInstanceAs (Decidable (_ ∨ _))

/-- `std::adjacent_find` finds something in the sorted IDs. -/
def HasRepeatedId (records : List (NodeImportance Double)) : Prop :=
  let nodeIds := (records.map NodeImportance.nodeId).insertionSort (· ≤ ·)
  ∃ pair ∈ nodeIds.zip nodeIds.tail, pair.1 = pair.2

instance (records : List (NodeImportance Double)) : Decidable (HasRepeatedId records) :=
  inferInstanceAs (Decidable (∃ pair ∈ _, _))

def RankedBefore (left right : NodeImportance Double) : Prop :=
  if exact left.normalizedImportance ≠ exact right.normalizedImportance then
    exact right.normalizedImportance < exact left.normalizedImportance
  else left.nodeId ≤ right.nodeId

instance : DecidableRel RankedBefore := fun _ _ => inferInstanceAs (Decidable (ite _ _ _))

def rankRecords (records : List (NodeImportance Double)) : List (NodeImportance Double) :=
  records.insertionSort RankedBefore

/-- The state of the loop over the ranked records. -/
structure HubScan where
  selectedImportance : ℚ := 0
  candidateHubs : List CandidateHub := []
  deriving DecidableEq

def appendHub (total : ℚ) (record : NodeImportance Double) (state : HubScan) : HubScan :=
  let selected := state.selectedImportance + exact record.normalizedImportance
  { selectedImportance := selected
    candidateHubs := state.candidateHubs ++ [{
      nodeId := record.nodeId
      rawImportance := record.rawImportance
      normalizedImportance := record.normalizedImportance
      cumulativeImportanceMass := selected / total }] }

/-- The loop over the records from `rank` on, with both of its exits. -/
def collectHubs (config : CandidateHubSelectionConfig) (total : ℚ) (selectedCount : Nat) :
    Nat → List (NodeImportance Double) → HubScan → HubScan
  | _, [], state => state
  | rank, record :: ranked, state =>
    if config.mode = .topRatio ∧ selectedCount ≤ rank then state
    else
      let state := appendHub total record state
      if config.mode = .importanceMass ∧
          exact config.importanceMass * total ≤ state.selectedImportance then state
      else collectHubs config total selectedCount (rank + 1) ranked state

def selectCandidateHubs (records : List (NodeImportance Double))
    (config : CandidateHubSelectionConfig) : Except Error CandidateHubSelectionResult := do
  validateCandidateHubSelectionConfig config
  let selectionValue :=
    if config.mode = .topRatio then config.topRatio else config.importanceMass
  reject (∃ record ∈ records, BadImportance record) (.invalidArgument
    "candidate-Hub importance must be finite, non-negative, and normalized within [0, 1]")
  reject (HasRepeatedId records)
    (.invalidArgument "candidate-Hub importance contains duplicate node IDs")
  let ranked := rankRecords records
  let total := (ranked.map fun record => exact record.normalizedImportance).sum
  let result : CandidateHubSelectionResult :=
    { mode := config.mode, selectionValue := selectionValue, totalImportance := total }
  if ranked = [] ∨ exact selectionValue = 0 ∨ total = 0 then
    .ok result
  else
    let selectedCount :=
      if config.mode = .topRatio then
        min ⌈(ranked.length : ℚ) * exact config.topRatio⌉.toNat ranked.length
      else 0
    let state := collectHubs config total selectedCount 0 ranked {}
    .ok { result with
      selectedImportance := state.selectedImportance
      selectedImportanceMass := state.selectedImportance / total
      candidateHubs := state.candidateHubs }

def importance (record : NodeImportance Double) : ℚ := exact record.normalizedImportance

structure AcceptedRecords (records : List (NodeImportance Double)) : Prop where
  normalized : ∀ record ∈ records, ¬ BadImportance record
  distinct : (records.map NodeImportance.nodeId).Nodup

def CandidateHubSelectionConfig.selectionValue (config : CandidateHubSelectionConfig) : Double :=
  if config.mode = .topRatio then config.topRatio else config.importanceMass

theorem validateConfig_eq_ok {config : CandidateHubSelectionConfig} {result : Unit} :
    validateCandidateHubSelectionConfig config = .ok result ↔
      (config.mode = .topRatio ∨ config.mode = .importanceMass) ∧
        config.selectionValue.isFinite = true ∧ 0 ≤ exact config.selectionValue ∧
        exact config.selectionValue ≤ 1 := by
  unfold validateCandidateHubSelectionConfig CandidateHubSelectionConfig.selectionValue
  cases config.mode with
  | topRatio => simp
  | importanceMass => simp
  | other raw => simp

theorem hasRepeatedId_iff {records : List (NodeImportance Double)} :
    HasRepeatedId records ↔ ¬ (records.map NodeImportance.nodeId).Nodup := by
  have hsorted := List.pairwise_insertionSort (· ≤ ·) (records.map NodeImportance.nodeId)
  rw [← (List.perm_insertionSort (· ≤ ·) (records.map NodeImportance.nodeId)).nodup_iff]
  exact exists_adjacent_eq_iff hsorted

namespace AcceptedRecords

variable {records others : List (NodeImportance Double)}

theorem importance_nonneg (hrecords : AcceptedRecords records) :
    ∀ record ∈ records, 0 ≤ importance record := by
  intro record hrecord
  have hnormalized := hrecords.normalized record hrecord
  simp only [BadImportance, not_or, not_lt] at hnormalized
  exact hnormalized.2.2.2.1

theorem perm (hrecords : AcceptedRecords records) (hperm : others.Perm records) :
    AcceptedRecords others :=
  ⟨fun record hrecord => hrecords.normalized record (hperm.mem_iff.mp hrecord),
    (hperm.map _).nodup_iff.mpr hrecords.distinct⟩

end AcceptedRecords

section Ranking

variable {records others : List (NodeImportance Double)}

theorem rankRecords_perm (records : List (NodeImportance Double)) :
    (rankRecords records).Perm records := List.perm_insertionSort _ _

theorem rankedBefore_iff {left right : NodeImportance Double} :
    RankedBefore left right ↔ importance right < importance left ∨
      importance left = importance right ∧ left.nodeId ≤ right.nodeId := by
  unfold RankedBefore importance
  split
  next hne => simp [hne]
  next hsame => simp [not_not.mp hsame]

theorem rankRecords_pairwise (records : List (NodeImportance Double)) :
    (rankRecords records).Pairwise RankedBefore := by
  have : Std.Total RankedBefore := ⟨fun left right => by
    simp only [rankedBefore_iff]
    rcases lt_trichotomy (importance left) (importance right) with hless | hsame | hgreater
    · exact .inr (.inl hless)
    · rcases Nat.le_total left.nodeId right.nodeId with hid | hid
      · exact .inl (.inr ⟨hsame, hid⟩)
      · exact .inr (.inr ⟨hsame.symm, hid⟩)
    · exact .inl (.inl hgreater)⟩
  have : IsTrans _ RankedBefore := ⟨fun left middle right hfirst hsecond => by
    rw [rankedBefore_iff] at hfirst hsecond ⊢
    rcases hfirst with hfirst | ⟨hfirst, hid⟩
    · rcases hsecond with hsecond | ⟨hsecond, -⟩
      · exact .inl (hsecond.trans hfirst)
      · exact .inl (hsecond ▸ hfirst)
    · rcases hsecond with hsecond | ⟨hsecond, hlater⟩
      · exact .inl (hfirst ▸ hsecond)
      · exact .inr ⟨hfirst.trans hsecond, hid.trans hlater⟩⟩
  exact List.pairwise_insertionSort _ _

theorem rankRecords_strict (hrecords : AcceptedRecords records) :
    (rankRecords records).Pairwise fun left right => importance right < importance left ∨
      importance left = importance right ∧ left.nodeId < right.nodeId := by
  have hdistinct : (rankRecords records).Pairwise fun left right => left.nodeId ≠ right.nodeId :=
    List.pairwise_map.mp (((rankRecords_perm records).map _).nodup_iff.mpr hrecords.distinct)
  refine ((rankRecords_pairwise records).and hdistinct).imp ?_
  rintro left right ⟨hbefore, hne⟩
  rcases rankedBefore_iff.mp hbefore with hless | ⟨hsame, hid⟩
  · exact .inl hless
  · exact .inr ⟨hsame, Nat.lt_of_le_of_ne hid hne⟩

theorem rankRecords_congr (hrecords : AcceptedRecords records) (hperm : others.Perm records) :
    rankRecords others = rankRecords records := by
  have hall := (rankRecords_perm others).trans hperm
  refine (hall.trans (rankRecords_perm records).symm).eq_of_pairwise ?_
    (rankRecords_pairwise others) (rankRecords_pairwise records)
  intro left right hleft hright hbefore hafter
  have hid : left.nodeId = right.nodeId := by
    rcases rankedBefore_iff.mp hbefore with hless | ⟨hsame, hid⟩
    · rcases rankedBefore_iff.mp hafter with hmore | ⟨hsame, -⟩
      · exact absurd hless hmore.asymm
      · exact absurd hsame hless.ne
    · rcases rankedBefore_iff.mp hafter with hmore | ⟨-, hother⟩
      · exact absurd hsame hmore.ne
      · exact Nat.le_antisymm hid hother
  exact List.inj_on_of_nodup_map hrecords.distinct (hall.mem_iff.mp hleft)
    ((rankRecords_perm records).mem_iff.mp hright) hid

end Ranking

section Loop

variable {config : CandidateHubSelectionConfig} {ranked : List (NodeImportance Double)} {total : ℚ}
variable {selectedCount count : Nat}

/-- The Hub at a rank, with the share of all records up to it. -/
def hubAt (ranked : List (NodeImportance Double)) (total : ℚ) (rank : Nat)
    (record : NodeImportance Double) : CandidateHub where
  nodeId := record.nodeId
  rawImportance := record.rawImportance
  normalizedImportance := record.normalizedImportance
  cumulativeImportanceMass := leadingMass importance ranked (rank + 1) / total

/-- What the loop holds when it comes to a rank. -/
def hubsBefore (ranked : List (NodeImportance Double)) (total : ℚ) (rank : Nat) : HubScan where
  selectedImportance := leadingMass importance ranked rank
  candidateHubs := (ranked.take rank).mapIdx (hubAt ranked total)

theorem appendHub_hubsBefore {rank : Nat} {record : NodeImportance Double}
    (hrecord : ranked[rank]? = some record) :
    appendHub total record (hubsBefore ranked total rank) = hubsBefore ranked total (rank + 1) := by
  have hrank := (List.getElem_of_getElem? hrecord).1
  have hmass : leadingMass importance ranked (rank + 1) =
      leadingMass importance ranked rank + importance record := leadingMass_succ hrecord
  simp only [appendHub, hubsBefore, HubScan.mk.injEq]
  refine ⟨hmass.symm, ?_⟩
  rw [List.take_add_one, hrecord, Option.toList_some, List.mapIdx_append, List.mapIdx_cons,
    List.mapIdx_nil, List.length_take_of_le hrank.le, Nat.zero_add, hubAt, hmass]
  rfl

/-- The loop ends at `count` when no exit is taken in front of it, and one at it. -/
theorem collectHubs_eq (hcount : count ≤ ranked.length)
    (hgoes : ∀ rank < count, ¬ (config.mode = .topRatio ∧ selectedCount ≤ rank))
    (hruns : ∀ rank < count, 0 < rank → ¬ (config.mode = .importanceMass ∧
      exact config.importanceMass * total ≤ leadingMass importance ranked rank))
    (hstops : count = ranked.length ∨ (config.mode = .topRatio ∧ selectedCount ≤ count) ∨
      (config.mode = .importanceMass ∧
        exact config.importanceMass * total ≤ leadingMass importance ranked count))
    {rank : Nat} (hrank : rank < count) :
    collectHubs config total selectedCount rank (ranked.drop rank) (hubsBefore ranked total rank) =
      hubsBefore ranked total count := by
  induction hleft : count - rank generalizing rank with
  | zero => omega
  | succ left ih =>
    have hinside : rank < ranked.length := Nat.lt_of_lt_of_le hrank hcount
    rw [List.drop_eq_getElem_cons hinside, collectHubs, if_neg (hgoes rank hrank),
      appendHub_hubsBefore (List.getElem?_eq_getElem hinside)]
    by_cases hlast : rank + 1 = count
    · subst hlast
      by_cases hreached : config.mode = .importanceMass ∧
          exact config.importanceMass * total ≤ leadingMass importance ranked (rank + 1)
      · exact if_pos hreached
      · refine (if_neg hreached).trans ?_
        rcases hstops with hend | hratio | hmass
        · rw [hend, List.drop_length, collectHubs]
        · cases ranked.drop (rank + 1) with
          | nil => rfl
          | cons record rest => exact if_pos hratio
        · exact absurd hmass hreached
    · have hnext : rank + 1 < count := by omega
      refine (if_neg (hruns (rank + 1) hnext (Nat.succ_pos rank))).trans (ih hnext ?_)
      omega

end Loop

section Selection

variable {records others : List (NodeImportance Double)} {config : CandidateHubSelectionConfig}

def totalImportance (records : List (NodeImportance Double)) : ℚ := (records.map importance).sum

theorem totalImportance_rank (records : List (NodeImportance Double)) :
    totalImportance (rankRecords records) = totalImportance records :=
  ((rankRecords_perm records).map _).sum_eq

/-- The number of Hubs that a selection with a positive value has. -/
structure HubCount (config : CandidateHubSelectionConfig) (records : List (NodeImportance Double))
    (count : Nat) : Prop where
  positive : 0 < count
  bounded : count ≤ records.length
  ratio : config.mode = .topRatio → (count : ℤ) = ⌈(records.length : ℚ) * exact config.topRatio⌉
  mass : config.mode = .importanceMass →
    IsLeast { length | exact config.importanceMass * totalImportance records ≤
      leadingMass importance (rankRecords records) length } count

theorem exists_hubCount (hrecords : AcceptedRecords records)
    (hconfig : validateCandidateHubSelectionConfig config = .ok ())
    (hvalue : 0 < exact config.selectionValue) (htotal : 0 < totalImportance records) :
    ∃ count, HubCount config records count := by
  obtain ⟨hmode, -, -, hone⟩ := validateConfig_eq_ok.mp hconfig
  unfold CandidateHubSelectionConfig.selectionValue at hvalue hone
  rcases hmode with hratio | hmass
  · rw [if_pos hratio] at hvalue hone
    have hlength : (0 : ℚ) < records.length := by
      refine Nat.cast_pos.mpr (List.length_pos_iff.mpr ?_)
      rintro rfl
      exact htotal.false
    have hpositive : 0 < ⌈(records.length : ℚ) * exact config.topRatio⌉ :=
      Int.ceil_pos.mpr (mul_pos hlength hvalue)
    have hbounded : ⌈(records.length : ℚ) * exact config.topRatio⌉ ≤ records.length :=
      Int.ceil_le.mpr (by simpa using mul_le_mul_of_nonneg_left hone hlength.le)
    refine ⟨⌈(records.length : ℚ) * exact config.topRatio⌉.toNat, by omega, by omega,
      fun _ => Int.toNat_of_nonneg hpositive.le, fun hmass => ?_⟩
    rw [hratio] at hmass
    exact nomatch hmass
  · rw [if_neg (by rw [hmass]; exact nofun)] at hvalue hone
    have hall : exact config.importanceMass * totalImportance records ≤
        leadingMass importance (rankRecords records) (rankRecords records).length := by
      rw [leadingMass_length]
      change _ ≤ totalImportance (rankRecords records)
      rw [totalImportance_rank]
      exact mul_le_of_le_one_left htotal.le hone
    classical
    refine ⟨Nat.find ⟨_, hall⟩, ?_, ?_, fun hratio => ?_, fun _ => Nat.isLeast_find ⟨_, hall⟩⟩
    · rw [Nat.find_pos, leadingMass_zero, not_le]
      exact mul_pos hvalue htotal
    · rw [← (rankRecords_perm records).length_eq]
      exact Nat.find_min' _ hall
    · rw [hmass] at hratio
      exact nomatch hratio

theorem selectCandidateHubs_eq {count : Nat} (hrecords : AcceptedRecords records)
    (hconfig : validateCandidateHubSelectionConfig config = .ok ())
    (hvalue : 0 < exact config.selectionValue) (htotal : 0 < totalImportance records)
    (hcount : HubCount config records count) :
    selectCandidateHubs records config = .ok {
      mode := config.mode
      selectionValue := config.selectionValue
      totalImportance := totalImportance records
      selectedImportance := leadingMass importance (rankRecords records) count
      selectedImportanceMass :=
        leadingMass importance (rankRecords records) count / totalImportance records
      candidateHubs := ((rankRecords records).take count).mapIdx
        (hubAt (rankRecords records) (totalImportance records)) } := by
  have hlength := (rankRecords_perm records).length_eq
  have hsum : ((rankRecords records).map fun record => exact record.normalizedImportance).sum =
      totalImportance records := totalImportance_rank records
  have hnonempty : ¬ (rankRecords records = [] ∨ exact config.selectionValue = 0 ∨
      totalImportance records = 0) := by
    rintro (hempty | hzero | hnone)
    · have hnothing := totalImportance_rank records
      rw [hempty] at hnothing
      exact htotal.ne hnothing
    · exact hvalue.ne' hzero
    · exact htotal.ne' hnone
  have hscan : collectHubs config (totalImportance records)
      (if config.mode = .topRatio then
        min ⌈((rankRecords records).length : ℚ) * exact config.topRatio⌉.toNat
          (rankRecords records).length
      else 0) 0 (rankRecords records) {} =
        hubsBefore (rankRecords records) (totalImportance records) count := by
    refine collectHubs_eq (hlength ▸ hcount.bounded) ?_ ?_ ?_ hcount.positive
    · rintro rank hrank ⟨hratio, hexit⟩
      have hceil := hcount.ratio hratio
      rw [if_pos hratio, hlength] at hexit
      have hbounded := hcount.bounded
      omega
    · rintro rank hrank - ⟨hmass, hexit⟩
      exact Nat.not_le_of_lt hrank ((hcount.mass hmass).2 hexit)
    · rcases (validateConfig_eq_ok.mp hconfig).1 with hratio | hmass
      · have hceil := hcount.ratio hratio
        refine .inr (.inl ⟨hratio, ?_⟩)
        rw [if_pos hratio, hlength]
        omega
      · exact .inr (.inr ⟨hmass, (hcount.mass hmass).1⟩)
  unfold selectCandidateHubs
  refine bind_ok.mpr ⟨(), hconfig, bind_ok.mpr ⟨(), reject_ok.mpr ?_,
    bind_ok.mpr ⟨(), reject_ok.mpr ?_, ?_⟩⟩⟩
  · rintro ⟨record, hrecord, hbad⟩
    exact hrecords.normalized record hrecord hbad
  · exact fun hrepeat => hasRepeatedId_iff.mp hrepeat hrecords.distinct
  · dsimp only
    rw [hsum]
    refine (if_neg hnonempty).trans ?_
    rw [hscan]
    rfl

/-- The number of Hubs is the least with the requested share of the importance, or the requested
share of the nodes. They are the most important nodes, each with the share of the nodes up to it,
in whatever order the records come. -/
theorem selectCandidateHubs_leading (hrecords : AcceptedRecords records)
    (hconfig : validateCandidateHubSelectionConfig config = .ok ())
    (hvalue : 0 < exact config.selectionValue) (htotal : 0 < totalImportance records) :
    ∃ (result : CandidateHubSelectionResult) (ranked : List (NodeImportance Double)) (count : Nat),
      selectCandidateHubs records config = .ok result ∧ ranked.Perm records ∧
      ranked.Pairwise (fun left right => importance right < importance left ∨
        importance left = importance right ∧ left.nodeId < right.nodeId) ∧
      result.candidateHubs.map (fun hub =>
          (hub.nodeId, hub.rawImportance, hub.normalizedImportance)) =
        (ranked.take count).map (fun record =>
          (record.nodeId, record.rawImportance, record.normalizedImportance)) ∧
      count ≤ records.length ∧
      (config.mode = .importanceMass →
        IsLeast { length | exact config.importanceMass * totalImportance records ≤
          ((ranked.take length).map importance).sum } count) ∧
      (config.mode = .topRatio →
        (count : ℤ) = ⌈(records.length : ℚ) * exact config.topRatio⌉) ∧
      result.totalImportance = totalImportance records ∧
      result.selectedImportanceMass =
        ((ranked.take count).map importance).sum / totalImportance records ∧
      (result.candidateHubs.map CandidateHub.cumulativeImportanceMass).Pairwise (· ≤ ·) ∧
      (result.candidateHubs.getLast?.map CandidateHub.cumulativeImportanceMass) =
        some result.selectedImportanceMass ∧
      ∀ others, others.Perm records → selectCandidateHubs others config = .ok result := by
  obtain ⟨count, hcount⟩ := exists_hubCount hrecords hconfig hvalue htotal
  have hresult := selectCandidateHubs_eq hrecords hconfig hvalue htotal hcount
  have hbounded : count ≤ (rankRecords records).length :=
    (rankRecords_perm records).length_eq ▸ hcount.bounded
  have hnonneg : ∀ record ∈ rankRecords records, 0 ≤ importance record :=
    (hrecords.perm (rankRecords_perm records)).importance_nonneg
  refine ⟨_, rankRecords records, count, hresult, rankRecords_perm records,
    rankRecords_strict hrecords, ?_, hcount.bounded, hcount.mass, hcount.ratio, rfl, rfl, ?_, ?_,
    fun others hperm => ?_⟩
  · refine List.ext_getElem (by simp) fun rank hleft hright => ?_
    simp [hubAt]
  · rw [List.pairwise_iff_getElem]
    intro first second hfirst hsecond hless
    simp only [List.getElem_map, List.getElem_mapIdx, hubAt]
    exact div_le_div_of_nonneg_right (leadingMass_mono hnonneg (by omega)) htotal.le
  · -- the last Hub has the rank in front of `count`
    have hlast : count - 1 < ((rankRecords records).take count).length := by
      rw [List.length_take_of_le hbounded]
      exact Nat.sub_one_lt hcount.positive.ne'
    rw [List.getLast?_eq_getElem?, List.length_mapIdx, List.length_take_of_le hbounded,
      List.getElem?_mapIdx, List.getElem?_eq_getElem hlast]
    simp only [Option.map_some, hubAt, Nat.sub_add_cancel hcount.positive]
  · have hother : HubCount config others count := by
      refine ⟨hcount.positive, hperm.length_eq ▸ hcount.bounded, ?_, ?_⟩
      · rw [hperm.length_eq]
        exact hcount.ratio
      · rw [rankRecords_congr hrecords hperm, totalImportance, (hperm.map importance).sum_eq]
        exact hcount.mass
    have hsame : totalImportance others = totalImportance records :=
      (hperm.map importance).sum_eq
    rw [selectCandidateHubs_eq (hrecords.perm hperm) hconfig hvalue (hsame ▸ htotal) hother,
      rankRecords_congr hrecords hperm, hsame]

/-- Three nodes, of which one has half of the importance of each of the others. -/
def threeRecords : List (NodeImportance Double) :=
  [⟨0, .one, ⟨0x3FD0000000000000⟩, .one, 1, 1⟩, ⟨1, .one, ⟨0x3FE0000000000000⟩, .one, 1, 1⟩,
    ⟨2, .one, ⟨0x3FE0000000000000⟩, .one, 1, 1⟩]

def halfOfMass : CandidateHubSelectionConfig :=
  { mode := .importanceMass, importanceMass := ⟨0x3FE0000000000000⟩ }

theorem threeRecords_accepted : AcceptedRecords threeRecords :=
  ⟨by decide +kernel, by decide⟩

theorem selectCandidateHubs_three :
    ∃ (result : CandidateHubSelectionResult) (ranked : List (NodeImportance Double)) (count : Nat),
      selectCandidateHubs threeRecords halfOfMass = .ok result ∧ ranked.Perm threeRecords ∧
      IsLeast { length | exact halfOfMass.importanceMass * totalImportance threeRecords ≤
        ((ranked.take length).map importance).sum } count := by
  have hconfig : validateCandidateHubSelectionConfig halfOfMass = .ok () := by decide +kernel
  obtain ⟨result, ranked, count, hresult, hperm, -, -, -, hmass, -⟩ := selectCandidateHubs_leading
    threeRecords_accepted hconfig (by decide +kernel) (by decide +kernel)
  exact ⟨result, ranked, count, hresult, hperm, hmass rfl⟩

end Selection

end SkipCell.Rcni

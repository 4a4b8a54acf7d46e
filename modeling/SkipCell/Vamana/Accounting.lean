import SkipCell.Foundation.Transition
import SkipCell.Vamana.Index

/-! # Slot accounting

Every location of a dynamic index has one use. The containers of the index represent
the uses, and each operation changes them as a step of the uses would; a reserved
location is one that an operation has taken and not yet used.
-/

namespace SkipCell.Vamana

open Foundation

/-- What a location is used for. -/
inductive Use (Tag : Type)
  | empty
  | reserved
  | tagged (tag : Tag)
  | deleted

variable {Tag Label Point : Type}

/-- The containers say what `uses` says. -/
structure Represents (state : State Tag Label Point) [DecidableEq Tag] (uses : Nat → Use Tag) :
    Prop where
  valid : state.emptySlots.Valid
  bits : state.emptySlots.bits.length = state.maxPoints
  empty : ∀ location, location ∈ state.emptySlots.values ↔
    location < state.maxPoints ∧ uses location = .empty
  deleted : ∀ location, location ∈ state.deleteSet ↔
    location < state.maxPoints ∧ uses location = .deleted
  tagged : ∀ location tag, state.locationToTag.tryGet location = some tag ↔
    location < state.maxPoints ∧ uses location = .tagged tag
  located : ∀ location tag, state.tagToLocation.lookup tag = some location ↔
    location < state.maxPoints ∧ uses location = .tagged tag
  tags : state.locationToTag.Valid
  sameSize : state.locationToTag.size = state.tagToLocation.keys.length
  total : state.emptySlots.values.length + state.nd = state.maxPoints
  start : state.start = state.maxPoints
  positive : 0 < state.maxPoints

/-- No location is reserved. -/
def Settled (uses : Nat → Use Tag) (maxPoints : Nat) : Prop :=
  ∀ location < maxPoints, uses location ≠ .reserved

variable [DecidableEq Tag] {state : State Tag Label Point} {uses : Nat → Use Tag} {location : Nat}

/-! ## Slots -/

theorem insertSlots_spec {slots : NaturalNumberSet} {first last : Nat} (hvalid : slots.Valid)
    (hbelow : ∀ id ∈ slots.values, id < first) (hbits : slots.bits.length ≤ last)
    (hfirst : first ≤ last) :
    (insertSlots slots first last).Valid ∧
      (first < last → (insertSlots slots first last).bits.length = last) ∧
      (insertSlots slots first last).values = slots.values ++ List.range' first (last - first) := by
  obtain ⟨count, rfl⟩ := Nat.exists_eq_add_of_le hfirst
  rw [insertSlots, Nat.add_sub_cancel_left]
  clear hfirst
  induction count generalizing slots first with
  | zero => exact ⟨hvalid, fun hless => absurd hless (Nat.lt_irrefl _), by simp⟩
  | succ count ih =>
    rw [List.range'_succ, List.foldl_cons]
    have hnew : first ∉ slots.values := fun hmem => Nat.lt_irrefl _ (hbelow _ hmem)
    have hlength := @NaturalNumberSet.length_insert_bits slots first
    obtain ⟨hrest, hlong, hvalues⟩ := @ih (slots.insert first) (first + 1)
      (hvalid.insert hnew) (fun id hid => by
        rcases NaturalNumberSet.mem_insert.mp hid with hold | rfl
        · exact (hbelow id hold).trans (Nat.lt_succ_self _)
        · exact Nat.lt_succ_self _) (by omega)
    refine ⟨hrest, fun _ => ?_, ?_⟩
    · cases count with
      | zero =>
        change (slots.insert first).bits.length = _
        omega
      | succ count =>
        rw [hlong (by omega)]
        omega
    · rw [hvalues]
      simp [NaturalNumberSet.insert]

theorem Represents.nd_pos (hrep : Represents state uses) (hlocation : location < state.maxPoints)
    (huse : uses location ≠ .empty) : 0 < state.nd := by
  have hsubset : location :: state.emptySlots.values ⊆ List.range state.maxPoints := by
    intro other hother
    rw [List.mem_range]
    rcases List.mem_cons.mp hother with rfl | hempty
    · exact hlocation
    · exact ((hrep.empty other).mp hempty).1
  have hnodup : (location :: state.emptySlots.values).Nodup :=
    List.nodup_cons.mpr ⟨fun hmem => huse ((hrep.empty location).mp hmem).2, hrep.valid.nodup⟩
  have hlength := (List.Nodup.subperm hnodup hsubset).length_le
  have htotal := hrep.total
  rw [List.length_cons, List.length_range] at hlength
  omega

omit [DecidableEq Tag] in
theorem update_use_iff {location other : Nat} {use what : Use Tag} (hold : uses location ≠ what)
    (hnew : use ≠ what) :
    Function.update uses location use other = what ↔ uses other = what := by
  by_cases hsame : other = location
  · subst hsame
    rw [Function.update_self]
    exact iff_of_false hnew hold
  · rw [Function.update_of_ne hsame]

theorem Represents.reserve (hrep : Represents state uses) (hroom : state.nd < state.maxPoints)
    (assertions : Bool) :
    ∃ location slots, state.reserveLocation assertions =
        ({ state with emptySlots := slots, nd := state.nd + 1 }, .ok (some location)) ∧
      location < state.maxPoints ∧ uses location = .empty ∧
      Represents { state with emptySlots := slots, nd := state.nd + 1 }
        (Function.update uses location .reserved) := by
  have htotal := hrep.total
  have hsome : state.emptySlots.values ≠ [] := by
    intro hnil
    rw [hnil, List.length_nil] at htotal
    omega
  have hsize : state.emptySlots.size ≠ 0 := fun hzero => hsome (List.length_eq_zero_iff.mp hzero)
  obtain ⟨location, slots, hpop, hvalues, hvalid, hout, hbits⟩ :=
    NaturalNumberSet.popAny_spec hrep.valid hsome
  have hempty : location < state.maxPoints ∧ uses location = .empty :=
    (hrep.empty location).mp (by simp [hvalues])
  have herase : state.deleteSet.erase location = state.deleteSet := by
    apply Finset.erase_eq_of_notMem
    intro hdeleted
    cases hempty.2.symm.trans ((hrep.deleted location).mp hdeleted).2
  refine ⟨location, slots, ?_, hempty.1, hempty.2, ?_⟩
  · have hnone : ¬ (state.dataCompacted = true ∧ state.emptySlots.isEmpty = true) := by
      rintro ⟨-, hisEmpty⟩
      exact hsome (List.isEmpty_iff.mp hisEmpty)
    rw [State.reserveLocation, if_neg (Nat.not_le.mpr hroom), if_neg hnone,
      if_neg (fun hassert => hsize hassert.2), if_neg (fun hassert => hassert.2 htotal), hpop]
    simp only [herase]
  · constructor
    case valid => exact hvalid
    case bits => exact hbits.trans hrep.bits
    case empty =>
      intro other
      have hother := hrep.empty other
      rw [hvalues, List.mem_append, List.mem_singleton] at hother
      by_cases hsame : other = location
      · subst hsame
        simp [hout]
      · rw [Function.update_of_ne hsame, ← hother]
        simp [hsame]
    case deleted =>
      intro other
      rw [update_use_iff (by simp [hempty.2]) (by simp)]
      exact hrep.deleted other
    case tagged =>
      intro other tag
      rw [update_use_iff (by simp [hempty.2]) (by simp)]
      exact hrep.tagged other tag
    case located =>
      intro other tag
      rw [update_use_iff (by simp [hempty.2]) (by simp)]
      exact hrep.located other tag
    case tags => exact hrep.tags
    case sameSize => exact hrep.sameSize
    case total =>
      rw [hvalues, List.length_append, List.length_singleton] at htotal
      change slots.values.length + (state.nd + 1) = state.maxPoints
      omega
    case start => exact hrep.start
    case positive => exact hrep.positive

theorem Represents.release (hrep : Represents state uses) (hlocation : location < state.maxPoints)
    (huse : uses location = .reserved) :
    state.releaseLocation location =
        ({ state with emptySlots := state.emptySlots.insert location, nd := state.nd - 1 },
          .ok (state.nd - 1)) ∧
      Represents
        { state with emptySlots := state.emptySlots.insert location, nd := state.nd - 1 }
        (Function.update uses location .empty) := by
  have hout : location ∉ state.emptySlots.values := by
    intro hmem
    cases huse.symm.trans ((hrep.empty location).mp hmem).2
  have hpos := hrep.nd_pos hlocation (by simp [huse])
  constructor
  · rw [State.releaseLocation, NaturalNumberSet.isInSet_eq_ok hrep.valid (hrep.bits ▸ hlocation),
      decide_eq_false hout]
  · constructor
    case valid => exact hrep.valid.insert hout
    case bits =>
      change (state.emptySlots.insert location).bits.length = state.maxPoints
      rw [NaturalNumberSet.length_insert_bits, hrep.bits]
      omega
    case empty =>
      intro other
      change other ∈ (state.emptySlots.insert location).values ↔ _
      rw [NaturalNumberSet.mem_insert, hrep.empty other]
      by_cases hsame : other = location
      · subst hsame
        simp [hlocation]
      · rw [Function.update_of_ne hsame]
        simp [hsame]
    case deleted =>
      intro other
      rw [update_use_iff (by simp [huse]) (by simp)]
      exact hrep.deleted other
    case tagged =>
      intro other tag
      rw [update_use_iff (by simp [huse]) (by simp)]
      exact hrep.tagged other tag
    case located =>
      intro other tag
      rw [update_use_iff (by simp [huse]) (by simp)]
      exact hrep.located other tag
    case tags => exact hrep.tags
    case sameSize => exact hrep.sameSize
    case total =>
      have htotal := hrep.total
      change (state.emptySlots.insert location).values.length + (state.nd - 1) = state.maxPoints
      rw [NaturalNumberSet.length_insert_values]
      omega
    case start => exact hrep.start
    case positive => exact hrep.positive

theorem Represents.placed (hrep : Represents state uses) (hlocation : location < state.maxPoints)
    (huse : uses location = .reserved) {tag : Tag} (htag : tag ∉ state.tagToLocation)
    (vectors : Nat → Point) (graph : Nat → List Nat) :
    Represents
      { state with
        tagToLocation := state.tagToLocation.insert tag location
        locationToTag := state.locationToTag.set location tag
        vectors := vectors
        graph := graph }
      (Function.update uses location (.tagged tag)) := by
  have hfree : state.locationToTag.contains location = false := by
    rw [Bool.eq_false_iff]
    intro hcontains
    obtain ⟨other, hother⟩ := NaturalNumberMap.contains_iff.mp hcontains
    cases huse.symm.trans ((hrep.tagged location other).mp hother).2
  constructor
  case valid => exact hrep.valid
  case bits => exact hrep.bits
  case empty =>
    intro other
    rw [update_use_iff (by simp [huse]) (by simp)]
    exact hrep.empty other
  case deleted =>
    intro other
    rw [update_use_iff (by simp [huse]) (by simp)]
    exact hrep.deleted other
  case tagged =>
    intro other found
    change (state.locationToTag.set location tag).tryGet other = _ ↔ _
    rw [NaturalNumberMap.tryGet_set]
    by_cases hsame : other = location
    · subst hsame
      simp [hlocation]
    · rw [if_neg hsame, Function.update_of_ne hsame]
      exact hrep.tagged other found
  case located =>
    intro other found
    change (state.tagToLocation.insert tag location).lookup found = _ ↔ _
    by_cases hfound : found = tag
    · subst hfound
      rw [AList.lookup_insert]
      by_cases hsame : other = location
      · subst hsame
        simp [hlocation]
      · have habsent : uses other ≠ .tagged found ∨ ¬ other < state.maxPoints := by
          by_contra hboth
          rw [not_or, not_not, not_not] at hboth
          exact htag (AssocMap.mem_of_lookup ((hrep.located other found).mpr ⟨hboth.2, hboth.1⟩))
        rw [Function.update_of_ne hsame]
        constructor
        · intro hlocated
          exact absurd (Option.some.inj hlocated).symm hsame
        · rintro ⟨hless, hused⟩
          exact (habsent.elim (absurd hused) (absurd hless))
    · rw [AList.lookup_insert_ne hfound, hrep.located]
      by_cases hsame : other = location
      · subst hsame
        simp [huse, Ne.symm hfound]
      · rw [Function.update_of_ne hsame]
  case tags => exact hrep.tags.set location tag
  case sameSize =>
    change (state.locationToTag.set location tag).size =
      (state.tagToLocation.insert tag location).keys.length
    rw [NaturalNumberMap.size_set_of_absent hfree, AList.keys_insert, List.length_cons,
      List.erase_of_not_mem htag, hrep.sameSize]
  case total => exact hrep.total
  case start => exact hrep.start
  case positive => exact hrep.positive

theorem Represents.markDeleted (hrep : Represents state uses) {tag : Tag}
    (hlookup : state.tagToLocation.lookup tag = some location) :
    Represents (state.markDeleted tag location) (Function.update uses location .deleted) := by
  obtain ⟨hlocation, huse⟩ := (hrep.located location tag).mp hlookup
  have hpresent : state.locationToTag.contains location = true :=
    NaturalNumberMap.contains_iff.mpr ⟨tag, (hrep.tagged location tag).mpr ⟨hlocation, huse⟩⟩
  constructor
  case valid => exact hrep.valid
  case bits => exact hrep.bits
  case empty =>
    intro other
    rw [update_use_iff (by simp [huse]) (by simp)]
    exact hrep.empty other
  case deleted =>
    intro other
    change other ∈ insert location state.deleteSet ↔ _
    rw [Finset.mem_insert, hrep.deleted]
    by_cases hsame : other = location
    · subst hsame
      simp [hlocation]
    · rw [Function.update_of_ne hsame]
      simp [hsame]
  case tagged =>
    intro other found
    change (state.locationToTag.erase location).tryGet other = _ ↔ _
    rw [NaturalNumberMap.tryGet_erase]
    by_cases hsame : other = location
    · subst hsame
      simp
    · rw [if_neg hsame, Function.update_of_ne hsame]
      exact hrep.tagged other found
  case located =>
    intro other found
    change (state.tagToLocation.erase tag).lookup found = _ ↔ _
    by_cases hfound : found = tag
    · subst hfound
      rw [AList.lookup_erase]
      by_cases hsame : other = location
      · subst hsame
        simp
      · rw [Function.update_of_ne hsame]
        -- No other location has the tag.
        refine iff_of_false (by simp) fun hother => hsame ?_
        exact Option.some.inj (((hrep.located other found).mpr hother).symm.trans hlookup)
    · rw [AList.lookup_erase_ne hfound, hrep.located]
      by_cases hsame : other = location
      · subst hsame
        simp [huse, Ne.symm hfound]
      · rw [Function.update_of_ne hsame, State.markDeleted_maxPoints]
  case tags => exact hrep.tags.erase location
  case sameSize =>
    change (state.locationToTag.erase location).size = (state.tagToLocation.erase tag).keys.length
    have hkeys := (AssocMap.keys_perm_of_lookup hlookup).length_eq
    have hsize := hrep.sameSize
    rw [List.length_cons] at hkeys
    rw [NaturalNumberMap.size_erase_of_present hpresent]
    omega
  case total => exact hrep.total
  case start => exact hrep.start
  case positive => exact hrep.positive

/-! ## What leaves the slots alone -/

/-- The two states agree on all that the uses speak about. -/
structure SameSlots (state other : State Tag Label Point) : Prop where
  maxPoints : other.maxPoints = state.maxPoints
  filteredIndex : other.filteredIndex = state.filteredIndex
  nd : other.nd = state.nd
  start : other.start = state.start
  emptySlots : other.emptySlots = state.emptySlots
  deleteSet : other.deleteSet = state.deleteSet
  locationToTag : other.locationToTag = state.locationToTag
  tagToLocation : other.tagToLocation = state.tagToLocation

omit [DecidableEq Tag] in
theorem SameSlots.refl (state : State Tag Label Point) : SameSlots state state :=
  ⟨rfl, rfl, rfl, rfl, rfl, rfl, rfl, rfl⟩

theorem SameSlots.represents {other : State Tag Label Point} (hsame : SameSlots state other)
    (hrep : Represents state uses) : Represents other uses where
  valid := hsame.emptySlots ▸ hrep.valid
  bits := by rw [hsame.emptySlots, hsame.maxPoints, hrep.bits]
  empty location := by rw [hsame.emptySlots, hsame.maxPoints, hrep.empty]
  deleted location := by rw [hsame.deleteSet, hsame.maxPoints, hrep.deleted]
  tagged location tag := by rw [hsame.locationToTag, hsame.maxPoints, hrep.tagged]
  located location tag := by rw [hsame.tagToLocation, hsame.maxPoints, hrep.located]
  tags := hsame.locationToTag ▸ hrep.tags
  sameSize := by rw [hsame.locationToTag, hsame.tagToLocation, hrep.sameSize]
  total := by rw [hsame.emptySlots, hsame.nd, hsame.maxPoints, hrep.total]
  start := by rw [hsame.start, hsame.maxPoints, hrep.start]
  positive := by
    rw [hsame.maxPoints]
    exact hrep.positive

/-- The labels in `labels` that are not known, each once. -/
def newLabels [DecidableEq Label] (known : List Label) : List Label → Nat
  | [] => 0
  | label :: labels =>
    if label ∈ known then newLabels known labels else newLabels (label :: known) labels + 1

/-- There is a frozen point for every new label. -/
def FrozenSuffice [DecidableEq Label] (state : State Tag Label Point) (labels : List Label) :
    Prop :=
  newLabels state.labels labels = 0 ∨
    state.frozenPtsUsed + newLabels state.labels labels ≤ state.numFrozenPts

omit [DecidableEq Tag] in
theorem registerLabels_sameSlots [DecidableEq Label] (point : Point) (labels : List Label)
    (state : State Tag Label Point) :
    SameSlots state (State.registerLabels point state labels).1 := by
  induction labels generalizing state with
  | nil => exact .refl state
  | cons label labels ih =>
    rw [State.registerLabels]
    split
    · exact ih state
    · split
      · exact .refl state
      · have hrest := ih { state with
          labels := label :: state.labels
          vectors := Function.update state.vectors (state.maxPoints + state.frozenPtsUsed) point
          frozenPtsUsed := state.frozenPtsUsed + 1 }
        exact ⟨hrest.maxPoints, hrest.filteredIndex, hrest.nd, hrest.start, hrest.emptySlots,
          hrest.deleteSet, hrest.locationToTag, hrest.tagToLocation⟩

omit [DecidableEq Tag] in
variable {labels : List Label}

theorem registerLabels_ok [DecidableEq Label] (point : Point) {state : State Tag Label Point}
    (hfrozen : FrozenSuffice state labels) :
    ∃ next, State.registerLabels point state labels = (next, .ok ()) := by
  induction labels generalizing state with
  | nil => exact ⟨state, rfl⟩
  | cons label labels ih =>
    rw [State.registerLabels]
    rw [FrozenSuffice, newLabels] at hfrozen
    by_cases hknown : label ∈ state.labels
    · rw [if_pos hknown] at hfrozen ⊢
      exact ih hfrozen
    · rw [if_neg hknown] at hfrozen ⊢
      rw [if_neg (by omega)]
      have hrest : state.frozenPtsUsed + 1 + newLabels (label :: state.labels) labels ≤
          state.numFrozenPts := by omega
      exact ih (.inr hrest)

/-! ## The operations -/

/-- The slots are accounted for: the containers represent some uses, and nothing is left
reserved. -/
def Consistent (state : State Tag Label Point) : Prop :=
  ∃ uses, Represents state uses ∧ Settled uses state.maxPoints

omit [DecidableEq Tag] in
theorem Settled.update {maxPoints : Nat} (hsettled : Settled uses maxPoints) (location : Nat)
    {use : Use Tag} (huse : use ≠ .reserved) :
    Settled (Function.update uses location use) maxPoints := by
  intro other hother
  by_cases hsame : other = location
  · subst hsame
    rwa [Function.update_self]
  · rw [Function.update_of_ne hsame]
    exact hsettled other hother

omit [DecidableEq Tag] in
theorem Settled.update_update {maxPoints : Nat} (hsettled : Settled uses maxPoints)
    (location : Nat) {use : Use Tag} (huse : use ≠ .reserved) :
    Settled (Function.update (Function.update uses location .reserved) location use) maxPoints := by
  rw [Function.update_idem]
  exact hsettled.update location huse

/-- In a filtered index, an insertion that gets as far as to reserve a location finds room
and a frozen point for each new label. -/
def InsertSafe [DecidableEq Label] [Zero Tag] (assertions : Bool) (state : State Tag Label Point)
    (tag : Tag) (labels : List Label) : Prop :=
  state.filteredIndex = true → ¬ (assertions = true ∧ ¬ state.hasBuilt = true) → tag ≠ 0 →
    state.nd < state.maxPoints ∧ FrozenSuffice state labels

theorem placePoint_consistent (hrep : Represents state uses) (hlocation : location < state.maxPoints)
    (huse : uses location = .reserved)
    (hothers : ∀ use : Use Tag, use ≠ .reserved →
      Settled (Function.update uses location use) state.maxPoints)
    (point : Point) (tag : Tag) (links : Nat → List Nat) :
    Consistent (state.placePoint point tag location links).1 := by
  rw [State.placePoint]
  split
  · obtain ⟨hrelease, hafter⟩ := hrep.release hlocation huse
    rw [hrelease]
    exact ⟨_, hafter, hothers .empty (by simp)⟩
  · next htag => exact ⟨_, hrep.placed hlocation huse htag _ _, hothers _ (by simp)⟩

theorem admitLabels_cases [DecidableEq Label] (hrep : Represents state uses)
    (hlocation : location < state.maxPoints) (huse : uses location = .reserved) (point : Point)
    (hfrozen : state.filteredIndex = true → FrozenSuffice state labels) :
    (∃ next, state.admitLabels point location labels = (next, .ok true) ∧ SameSlots state next) ∨
      ∃ next, state.admitLabels point location labels = (next, .ok false) ∧
        next.maxPoints = state.maxPoints ∧
        Represents next (Function.update uses location .empty) := by
  rw [State.admitLabels]
  split
  · exact .inl ⟨state, rfl, .refl state⟩
  · next hfiltered =>
      split
      · obtain ⟨hrelease, hafter⟩ := hrep.release hlocation huse
        rw [hrelease]
        exact .inr ⟨_, rfl, rfl, hafter⟩
      · have hsame := registerLabels_sameSlots point labels state
        obtain ⟨next, hnext⟩ := registerLabels_ok point (hfrozen (not_not.mp hfiltered))
        rw [hnext] at hsame ⊢
        exact .inl ⟨next, rfl, hsame⟩

theorem insertPoint_consistent [DecidableEq Label] [Zero Tag] (hstate : Consistent state)
    (assertions : Bool) (point : Point) (tag : Tag) (links : Nat → List Nat)
    (hsafe : InsertSafe assertions state tag labels) :
    Consistent (state.insertPoint assertions point tag labels links).1 := by
  obtain ⟨uses, hrep, hsettled⟩ := hstate
  rw [State.insertPoint]
  split
  · exact ⟨uses, hrep, hsettled⟩
  · next hbuilt =>
    split
    · exact ⟨uses, hrep, hsettled⟩
    · next htag =>
      have hsafe := fun hfiltered => hsafe hfiltered hbuilt htag
      by_cases hroom : state.nd < state.maxPoints
      · obtain ⟨location, slots, hreserve, hlocation, -, hafter⟩ := hrep.reserve hroom assertions
        rw [hreserve, Outcome.andThen_ok]
        dsimp only
        have hreserved : Function.update uses location .reserved location = .reserved :=
          Function.update_self _ _ _
        rcases admitLabels_cases hafter hlocation hreserved point
          (fun hfiltered => (hsafe hfiltered).2) with ⟨next, hlabels, hsame⟩ | ⟨next, hlabels, hmax, hnext⟩
        · rw [hlabels, Outcome.andThen_ok, if_pos rfl]
          refine placePoint_consistent (hsame.represents hafter) (hsame.maxPoints ▸ hlocation)
            hreserved (fun use huse => ?_) point tag links
          rw [hsame.maxPoints]
          exact hsettled.update_update location huse
        · rw [hlabels, Outcome.andThen_ok]
          refine ⟨_, hnext, ?_⟩
          change Settled _ next.maxPoints
          rw [hmax]
          exact hsettled.update_update location (by simp)
      · have hfull : state.filteredIndex = false := by
          rw [Bool.eq_false_iff]
          exact fun hfiltered => hroom (hsafe hfiltered).1
        rw [State.reserveLocation, if_pos (Nat.not_lt.mp hroom), Outcome.andThen_ok]
        simp only [hfull]
        exact ⟨uses, hrep, hsettled⟩

omit [DecidableEq Tag] in
theorem sameSlots_dataCompacted (state : State Tag Label Point) (dataCompacted : Bool) :
    SameSlots state { state with dataCompacted := dataCompacted } :=
  ⟨rfl, rfl, rfl, rfl, rfl, rfl, rfl, rfl⟩

theorem SameSlots.consistent {other : State Tag Label Point} (hsame : SameSlots state other)
    (hstate : Consistent state) : Consistent other := by
  obtain ⟨uses, hrep, hsettled⟩ := hstate
  refine ⟨uses, hsame.represents hrep, ?_⟩
  rw [hsame.maxPoints]
  exact hsettled

theorem markDeleted_consistent (hstate : Consistent state) {tag : Tag}
    (hlookup : state.tagToLocation.lookup tag = some location) :
    Consistent (state.markDeleted tag location) := by
  obtain ⟨uses, hrep, hsettled⟩ := hstate
  exact ⟨_, hrep.markDeleted hlookup, hsettled.update location (by simp)⟩

theorem lazyDelete_consistent (hstate : Consistent state) (assertions : Bool) (tag : Tag) :
    Consistent (state.lazyDelete assertions tag).1 := by
  have hstarted := (sameSlots_dataCompacted state false).consistent hstate
  rw [State.lazyDelete]
  cases hlookup : state.tagToLocation.lookup tag with
  | none => exact hstarted
  | some location =>
    dsimp only
    split
    · exact hstarted
    · exact markDeleted_consistent hstarted hlookup

theorem lazyDeleteAll_consistent (hstate : Consistent state) (tags failedTags : List Tag) :
    Consistent (state.lazyDeleteAll tags failedTags).1 := by
  rw [State.lazyDeleteAll]
  split
  · exact hstate
  · have hstarted := (sameSlots_dataCompacted state false).consistent hstate
    refine List.foldlRecOn
      (motive := fun outcome : State Tag Label Point × List Tag => Consistent outcome.1)
      tags _ hstarted ?_
    rintro ⟨current, failed⟩ hcurrent tag -
    cases hlookup : current.tagToLocation.lookup tag with
    | none =>
      simp only [hlookup]
      exact hcurrent
    | some location =>
      simp only [hlookup]
      exact markDeleted_consistent hcurrent hlookup

/-! ## Consolidation -/

theorem Represents.nd_eq (hrep : Represents state uses) (hsettled : Settled uses state.maxPoints) :
    state.nd = state.locationToTag.size + state.deleteSet.card := by
  have hpartition : Finset.range state.maxPoints =
      (state.locationToTag.keys ∪ state.deleteSet) ∪ state.emptySlots.values.toFinset := by
    ext location
    rw [Finset.mem_range, Finset.mem_union, Finset.mem_union, NaturalNumberMap.mem_keys,
      NaturalNumberMap.contains_iff, hrep.deleted, List.mem_toFinset, hrep.empty]
    simp only [hrep.tagged]
    constructor
    · intro hlocation
      cases huse : uses location with
      | empty => exact .inr ⟨hlocation, rfl⟩
      | reserved => exact absurd huse (hsettled location hlocation)
      | tagged tag => exact .inl (.inl ⟨tag, hlocation, rfl⟩)
      | deleted => exact .inl (.inr ⟨hlocation, rfl⟩)
    · rintro ((⟨tag, hlocation, -⟩ | ⟨hlocation, -⟩) | ⟨hlocation, -⟩) <;> exact hlocation
  have hused : Disjoint state.locationToTag.keys state.deleteSet := by
    rw [Finset.disjoint_left]
    intro location hkey hdeleted
    obtain ⟨tag, htag⟩ := NaturalNumberMap.contains_iff.mp (NaturalNumberMap.mem_keys.mp hkey)
    cases ((hrep.tagged location tag).mp htag).2.symm.trans ((hrep.deleted location).mp hdeleted).2
  have hempty : Disjoint (state.locationToTag.keys ∪ state.deleteSet)
      state.emptySlots.values.toFinset := by
    rw [Finset.disjoint_left]
    intro location hkey hmem
    have huse := ((hrep.empty location).mp (List.mem_toFinset.mp hmem)).2
    rcases Finset.mem_union.mp hkey with htagged | hdeleted
    · obtain ⟨tag, htag⟩ :=
        NaturalNumberMap.contains_iff.mp (NaturalNumberMap.mem_keys.mp htagged)
      cases huse.symm.trans ((hrep.tagged location tag).mp htag).2
    · cases huse.symm.trans ((hrep.deleted location).mp hdeleted).2
  have hcard := congrArg Finset.card hpartition
  rw [Finset.card_range, Finset.card_union_of_disjoint hempty, Finset.card_union_of_disjoint hused,
    List.toFinset_card_of_nodup hrep.valid.nodup, ← hrep.tags] at hcard
  have htotal := hrep.total
  omega

theorem Represents.takeDeleted (hrep : Represents state uses) (links : Nat → List Nat) :
    Represents { state with deleteSet := ∅, graph := links }
      (fun location => if location ∈ state.deleteSet then .reserved else uses location) where
  valid := hrep.valid
  bits := hrep.bits
  empty location := by
    have hempty := hrep.empty location
    rw [hempty]
    split
    · next hdeleted =>
        have huse := ((hrep.deleted location).mp hdeleted).2
        simp [huse]
    · rfl
  deleted location := by
    simp only [Finset.notMem_empty, false_iff]
    split
    · simp
    · next hdeleted => exact fun hused => hdeleted ((hrep.deleted location).mpr hused)
  tagged location tag := by
    rw [hrep.tagged]
    split
    · next hdeleted =>
        have huse := ((hrep.deleted location).mp hdeleted).2
        simp [huse]
    · rfl
  located location tag := by
    rw [hrep.located]
    split
    · next hdeleted =>
        have huse := ((hrep.deleted location).mp hdeleted).2
        simp [huse]
    · rfl
  tags := hrep.tags
  sameSize := hrep.sameSize
  total := hrep.total
  start := hrep.start
  positive := hrep.positive

theorem Represents.releaseLocations {order : List Nat} (hrep : Represents state uses)
    (hnodup : order.Nodup)
    (hreserved : ∀ location ∈ order, location < state.maxPoints ∧ uses location = .reserved) :
    ∃ next, state.releaseLocations order = (next, .ok next.nd) ∧
      next.maxPoints = state.maxPoints ∧
      Represents next (fun location => if location ∈ order then .empty else uses location) := by
  induction order generalizing state uses with
  | nil =>
    refine ⟨state, ?_, rfl, ?_⟩
    · rw [State.releaseLocations, if_neg (fun hcount => hcount hrep.total)]
    · simpa using hrep
  | cons location order ih =>
    obtain ⟨hout, hrest⟩ := List.nodup_cons.mp hnodup
    obtain ⟨hlocation, huse⟩ := hreserved location List.mem_cons_self
    obtain ⟨hrelease, hafter⟩ := hrep.release hlocation huse
    obtain ⟨next, hnext, hmax, hnextRep⟩ := ih hafter hrest fun other hother => by
      have hne : other ≠ location := fun hsame => hout (hsame ▸ hother)
      rw [Function.update_of_ne hne]
      exact hreserved other (List.mem_cons_of_mem _ hother)
    refine ⟨next, ?_, hmax, ?_⟩
    · rw [State.releaseLocations, hrelease, Outcome.andThen_ok, hnext]
    · convert hnextRep using 2 with other
      by_cases hsame : other = location
      · subst hsame
        simp [hout]
      · rw [Function.update_of_ne hsame]
        simp [hsame]

theorem Represents.processed (hrep : Represents state uses) (deleted : Finset Nat) :
    ∃ processed, state.processed deleted = .ok processed := by
  refine exists_mapM_ok fun location hlocation => ?_
  split
  · exact ⟨false, rfl⟩
  · rw [NaturalNumberSet.isInSet_eq_ok hrep.valid
      (hrep.bits.symm ▸ List.mem_range.mp hlocation)]
    exact ⟨_, rfl⟩

omit [DecidableEq Tag] in
theorem releaseLocations_graph (state : State Tag Label Point) (order : List Nat) :
    (state.releaseLocations order).1.graph = state.graph ∧
      (state.releaseLocations order).1.numFrozenPts = state.numFrozenPts := by
  induction order generalizing state with
  | nil =>
    rw [State.releaseLocations]
    split <;> exact ⟨rfl, rfl⟩
  | cons location order ih =>
    rw [State.releaseLocations, State.releaseLocation]
    split
    · exact ⟨rfl, rfl⟩
    · exact ⟨rfl, rfl⟩
    · exact ih _

section

variable (hstate : Consistent state) {order : List Nat} (hnodup : order.Nodup)
  (horder : order.toFinset = state.deleteSet) (links : Nat → List Nat)
include hstate hnodup horder links

theorem consolidateDeletes_releases :
    ∃ next report uses, state.consolidateDeletes order links = (next, .ok report) ∧
      report.status = .success ∧ report.slotsReleased = state.deleteSet.card ∧
      next.graph = links ∧ next.maxPoints = state.maxPoints ∧
      next.numFrozenPts = state.numFrozenPts ∧ Represents state uses ∧
      Settled uses state.maxPoints ∧
      Represents next fun location => if location ∈ state.deleteSet then .empty else uses location := by
  obtain ⟨uses, hrep, hsettled⟩ := hstate
  have hcount := hrep.nd_eq hsettled
  have hstart : state.start ∉ state.deleteSet := by
    intro hdeleted
    have hbelow := ((hrep.deleted _).mp hdeleted).1
    rw [hrep.start] at hbelow
    exact Nat.lt_irrefl _ hbelow
  have hmem : ∀ location, location ∈ order ↔ location ∈ state.deleteSet := by
    intro location
    rw [← horder, List.mem_toFinset]
  obtain ⟨next, hrelease, hmax, hnext⟩ :=
    (hrep.takeDeleted links).releaseLocations hnodup fun location hlocation => by
      have hdeleted := (hmem location).mp hlocation
      exact ⟨((hrep.deleted location).mp hdeleted).1, if_pos hdeleted⟩
  have hgraph := releaseLocations_graph { state with deleteSet := ∅, graph := links } order
  rw [hrelease] at hgraph
  obtain ⟨processed, hprocessed⟩ := hrep.processed state.deleteSet
  have hswapped : ({ state with deleteSet := ∅ } : State Tag Label Point).processed
      state.deleteSet = .ok processed := hprocessed
  refine ⟨next,
    { status := .success
      activePoints := next.nd
      maxPoints := next.maxPoints
      emptySlots := next.emptySlots.size
      slotsReleased := state.deleteSet.card
      deleteSetSize := next.deleteSet.card
      numCallsToProcessDelete := processed.count true + next.numFrozenPts },
    uses, ?_, rfl, rfl, hgraph.1, hmax, hgraph.2, hrep, hsettled, ?_⟩
  · rw [State.consolidateDeletes, if_neg (fun htotal => htotal hrep.total),
      if_neg (fun hnd => hnd hcount.symm), if_neg (fun hsize => hsize hrep.sameSize)]
    simp only [if_neg hstart, hswapped, hrelease, Outcome.andThen_ok]
  · have hafter : (fun location => if location ∈ order then Use.empty
        else if location ∈ state.deleteSet then Use.reserved else uses location) =
        fun location => if location ∈ state.deleteSet then Use.empty else uses location := by
      funext location
      simp only [hmem]
      split
      · rfl
      · rfl
    rwa [hafter] at hnext

theorem consolidateDeletes_consistent :
    ∃ next report, state.consolidateDeletes order links = (next, .ok report) ∧
      report.status = .success ∧ Consistent next := by
  obtain ⟨next, report, uses, hconsolidated, hsuccess, -, -, hmax, -, -, hsettled, hnext⟩ :=
    consolidateDeletes_releases hstate hnodup horder links
  refine ⟨next, report, hconsolidated, hsuccess, _, hnext, ?_⟩
  intro location hlocation
  dsimp only
  split
  · simp
  · exact hsettled location (hmax ▸ hlocation)

end

end SkipCell.Vamana

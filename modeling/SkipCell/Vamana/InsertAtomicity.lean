import SkipCell.Vamana.LabelledCompaction

/-! # Insertions that fail

An insertion reserves a slot and registers the labels before it looks at its tag, and a
filtered index uses the location before it looks whether there is one. So some insertions
that fail leave something behind.
-/

namespace SkipCell.Vamana

open Foundation

inductive LabelledOp (Tag Label Point : Type)
  | slots (op : Op Tag Label Point)
  | save (compactBeforeSave : Bool)

variable {Tag Label Point : Type} [DecidableEq Tag] [DecidableEq Label] [Zero Tag]

/-- The index after a call, also where the call throws. -/
def Labelled.perform (assertions : Bool) (zero : Point) (index : Labelled Tag Label Point) :
    LabelledOp Tag Label Point → Labelled Tag Label Point
  | .slots (.insertPoint point tag labels links) =>
    (index.insertPoint assertions point tag labels links).1
  | .slots (.lazyDelete tag) =>
    { index with toState := index.toState.perform assertions (.lazyDelete tag) }
  | .slots (.lazyDeleteAll tags failedTags) =>
    { index with toState := index.toState.perform assertions (.lazyDeleteAll tags failedTags) }
  | .slots (.consolidateDeletes order links) =>
    { index with toState := index.toState.perform assertions (.consolidateDeletes order links) }
  | .save compactBeforeSave => (index.save assertions compactBeforeSave zero).1

omit [DecidableEq Tag] [DecidableEq Label] [Zero Tag] in
/-- A consolidation enumerates the deleted locations. -/
def LabelledPermitted (index : Labelled Tag Label Point) : LabelledOp Tag Label Point → Prop
  | .slots op => Permitted index.toState op
  | .save _ => True

/-- A new index with a start, and the calls that follow. The start may have left any labels. -/
def labelledHistory (assertions : Bool) (config : IndexConfig) (zero : Point)
    (start : Start Tag Point) :
    Transition (Labelled Tag Label Point) (LabelledOp Tag Label Point) :=
  .guarded
    (fun index => ∃ labels : List Label, index.toState =
      { (State.construct config zero : State Tag Label Point).startWith start with
        labels := labels })
    LabelledPermitted fun index op => index.perform assertions zero op

omit [DecidableEq Tag] [DecidableEq Label] [Zero Tag] in
structure Kept (index next : Labelled Tag Label Point) : Prop where
  nd : next.nd = index.nd
  emptySlots : next.emptySlots = index.emptySlots
  deleteSet : next.deleteSet = index.deleteSet
  locationToTag : next.locationToTag = index.locationToTag
  tagToLocation : next.tagToLocation = index.tagToLocation
  labels : next.labels = index.labels
  labelToStartId : next.labelToStartId = index.labelToStartId
  frozenPtsUsed : next.frozenPtsUsed = index.frozenPtsUsed
  locationToLabels : next.locationToLabels = index.locationToLabels

/-- An insertion returns -1 or throws. -/
def Failed : Except Error Int → Prop
  | .ok status => status = -1
  | .error _ => True

/-- Without a location nothing is accessed out of bounds, and a failure leaves all as it was. -/
structure InsertAtomic (assertions : Bool) (index : Labelled Tag Label Point) (point : Point)
    (tag : Tag) (labels : List Label) (links : Nat → List Nat) : Prop where
  inBounds : (index.reserveLocation assertions).2 = .ok none →
    (index.insertPoint assertions point tag labels links).2 ≠ .error .outOfBounds
  kept : Failed (index.insertPoint assertions point tag labels links).2 →
    Kept index (index.insertPoint assertions point tag labels links).1

section Spared

variable (index : Labelled Tag Label Point) (tag : Tag) (labels : List Label)

omit [Zero Tag] in
/-- An insertion that has its slot fails: there are no labels, not enough frozen points for
them, or the tag is taken. -/
def Fails : Prop :=
  (index.filteredIndex = true ∧ (labels = [] ∨ ¬ FrozenSuffice index.toState labels)) ∨
    tag ∈ index.tagToLocation

omit [DecidableEq Tag] [Zero Tag] in
/-- What was written before the failure is what was there: the slot is not among the deleted
locations, no label is new, and the slot had the labels already. -/
def Unmarked (location : Nat) : Prop :=
  location ∉ index.deleteSet ∧
    (index.filteredIndex = true → labels = [] ∨
      newLabels index.labels labels = 0 ∧ index.locationToLabels location = labels)

/-- The insertion does not start; or a full index has no filter; or the insertion succeeds, finds
the slots miscounted, or has marked nothing but a slot that goes back. -/
def Spared (assertions : Bool) : Prop :=
  (assertions = true ∧ ¬ index.hasBuilt = true) ∨ tag = 0 ∨
    if index.maxPoints ≤ index.nd then ¬ index.filteredIndex = true
    else if index.dataCompacted = true ∧ index.emptySlots.isEmpty = true then
      ¬ Fails index tag labels
    else
      (assertions = true ∧ index.emptySlots.size + index.nd ≠ index.maxPoints) ∨
        ∀ location, index.emptySlots.values.getLast? = some location →
          Fails index tag labels → Unmarked index labels location

end Spared

section Labels

omit [DecidableEq Tag] [Zero Tag]

variable {point : Point} {labels : List Label} {index : Labelled Tag Label Point}

theorem registerLabels_of_known (hknown : newLabels index.labels labels = 0) :
    Labelled.registerLabels point index labels = (index, .ok ()) := by
  induction labels with
  | nil => rfl
  | cons label labels ih =>
    rw [newLabels] at hknown
    split at hknown
    · next hmem =>
        rw [Labelled.registerLabels, if_pos hmem]
        exact ih hknown
    · cases hknown

theorem registerLabels_sameSlots_toState (point : Point) (labels : List Label)
    (index : Labelled Tag Label Point) :
    SameSlots index.toState (Labelled.registerLabels point index labels).1.toState := by
  have hslots : (Labelled.registerLabels point index labels).1.toState =
      (State.registerLabels point index.toState labels).1 :=
    congrArg Prod.fst (registerLabels_slots point labels index)
  rw [hslots]
  exact registerLabels_sameSlots point labels index.toState

theorem registerLabels_length (hok : (Labelled.registerLabels point index labels).2 = .ok ()) :
    (Labelled.registerLabels point index labels).1.labels.length =
      index.labels.length + newLabels index.labels labels := by
  induction labels generalizing index with
  | nil => rfl
  | cons label labels ih =>
    rw [Labelled.registerLabels, newLabels] at *
    split
    · next hmem =>
        rw [if_pos hmem] at hok
        exact ih hok
    · next hmem =>
        rw [if_neg hmem] at hok
        split at hok
        · cases hok
        · next hroom =>
            have hrest := ih hok
            rw [List.length_cons] at hrest
            rw [if_neg hroom]
            exact hrest.trans (Nat.succ_add _ _)

theorem registerLabels_ok_iff :
    (Labelled.registerLabels point index labels).2 = .ok () ↔
      FrozenSuffice index.toState labels := by
  induction labels generalizing index with
  | nil => simp [Labelled.registerLabels, FrozenSuffice, newLabels]
  | cons label labels ih =>
    rw [Labelled.registerLabels, FrozenSuffice, newLabels]
    split
    · exact ih
    · split
      · next hshort =>
          refine iff_of_false (by simp) ?_
          omega
      · next hroom =>
          rw [ih, FrozenSuffice]
          dsimp only
          omega

end Labels

section Slots

omit [DecidableEq Label] [Zero Tag]

variable {index : Labelled Tag Label Point} {location : Nat}

inductive Reserving (assertions : Bool) (state : State Tag Label Point) :
    Outcome Tag Label Point (Option Nat) → Prop
  | full (hfull : state.maxPoints ≤ state.nd) : Reserving assertions state (state, .ok none)
  | fresh (hroom : ¬ state.maxPoints ≤ state.nd)
      (hnone : state.dataCompacted = true ∧ state.emptySlots.isEmpty = true) :
      Reserving assertions state ({ state with nd := state.nd + 1 }, .ok (some state.nd))
  | refused (hroom : ¬ state.maxPoints ≤ state.nd)
      (hsome : ¬ (state.dataCompacted = true ∧ state.emptySlots.isEmpty = true))
      (hcount : (assertions = true ∧ state.emptySlots.size + state.nd ≠ state.maxPoints) ∨
        state.emptySlots.values = []) (failure : Error) :
      Reserving assertions state (state, .error failure)
  | popped (hroom : ¬ state.maxPoints ≤ state.nd)
      (hsome : ¬ (state.dataCompacted = true ∧ state.emptySlots.isEmpty = true))
      (hcount : ¬ (assertions = true ∧ state.emptySlots.size + state.nd ≠ state.maxPoints))
      (location : Nat) (slots : NaturalNumberSet)
      (hlast : state.emptySlots.values.getLast? = some location)
      (hpop : state.emptySlots.popAny = .ok (location, slots)) :
      Reserving assertions state
        ({ state with
            emptySlots := slots
            deleteSet := state.deleteSet.erase location
            nd := state.nd + 1 }, .ok (some location))

omit [DecidableEq Tag] in
theorem reserving (assertions : Bool) (state : State Tag Label Point) :
    Reserving assertions state (state.reserveLocation assertions) := by
  rw [State.reserveLocation]
  split
  · next hfull => exact .full hfull
  · next hroom =>
      split
      · next hnone => exact .fresh hroom hnone
      · next hsome =>
          split
          · next hzero => exact .refused hroom hsome (.inr (List.length_eq_zero_iff.mp hzero.2)) _
          · split
            · next hcount => exact .refused hroom hsome (.inl hcount) _
            · next hcount =>
                cases hlast : state.emptySlots.values.getLast? with
                | none =>
                  have hpop : state.emptySlots.popAny = .error (.diskannException "No values available") := by
                    rw [NaturalNumberSet.popAny, hlast]
                  rw [hpop]
                  exact .refused hroom hsome (.inr (List.getLast?_eq_none_iff.mp hlast)) _
                | some location =>
                  have hpop : state.emptySlots.popAny = .ok (location,
                      ⟨state.emptySlots.values.dropLast, state.emptySlots.bits.set location false⟩) := by
                    rw [NaturalNumberSet.popAny, hlast]
                  rw [hpop]
                  exact .popped hroom hsome hcount location _ hlast hpop

end Slots

/-! ## The rest of an insertion -/

section Rest

omit [Zero Tag]

variable {index : Labelled Tag Label Point} {location : Nat} {labels : List Label}

/-- The location goes back, and the caller gets -1. -/
def turnBack (index : Labelled Tag Label Point) (location : Nat) :
    LabelledOutcome Tag Label Point Int :=
  LabelledOutcome.andThen (index.onSlots (index.releaseLocation location)) fun index _ =>
    (index, .ok (-1))

/-- The labels of the location are set and registered. -/
def marked (point : Point) (index : Labelled Tag Label Point) (location : Nat)
    (labels : List Label) : LabelledOutcome Tag Label Point Unit :=
  Labelled.registerLabels point
    { index with
      locationToLabels := Function.update index.locationToLabels location labels } labels

omit [DecidableEq Tag] in
theorem marked_of_known {point : Point} {index : Labelled Tag Label Point} {location : Nat}
    (hknown : newLabels index.labels labels = 0) :
    marked point index location labels =
      ({ index with
          locationToLabels := Function.update index.locationToLabels location labels }, .ok ()) := by
  rw [marked]
  exact registerLabels_of_known hknown

/-- What an insertion does with its location. -/
inductive Filling (index : Labelled Tag Label Point) (point : Point) (tag : Tag) (location : Nat)
    (labels : List Label) : LabelledOutcome Tag Label Point Int → Prop
  | placed (hfails : ¬ Fails index tag labels) (next : Labelled Tag Label Point) :
      Filling index point tag location labels (next, .ok 0)
  | short (hfiltered : index.filteredIndex = true) (hsome : labels ≠ [])
      (hshort : ¬ FrozenSuffice index.toState labels) (next : Labelled Tag Label Point)
      (hsame : SameSlots index.toState next.toState) (failure : Error) :
      Filling index point tag location labels (next, .error failure)
  | unlabelled (hfails : Fails index tag labels)
      (hnone : index.filteredIndex = true → labels = []) :
      Filling index point tag location labels (turnBack index location)
  | taken (hfiltered : index.filteredIndex = true) (hsome : labels ≠ [])
      (hfails : Fails index tag labels) (hok : (marked point index location labels).2 = .ok ()) :
      Filling index point tag location labels
        (turnBack (marked point index location labels).1 location)

omit [DecidableEq Label] in
theorem onSlots_placePoint_taken {tag : Tag} (htag : tag ∈ index.tagToLocation) (point : Point)
    (links : Nat → List Nat) :
    index.onSlots (index.placePoint point tag location links) = turnBack index location := by
  rw [State.placePoint, if_pos htag, turnBack]
  rcases hrelease : index.releaseLocation location with ⟨state, failure | released⟩ <;> rfl

omit [DecidableEq Label] in
theorem onSlots_placePoint_free {tag : Tag} (htag : tag ∉ index.tagToLocation) (point : Point)
    (links : Nat → List Nat) :
    (index.onSlots (index.placePoint point tag location links)).2 = .ok 0 := by
  rw [State.placePoint, if_neg htag]
  rfl

theorem filling (index : Labelled Tag Label Point) (point : Point) (tag : Tag) (location : Nat)
    (labels : List Label) (links : Nat → List Nat) :
    Filling index point tag location labels
      (index.insertAt point tag location labels links) := by
  have hplaced : ∀ outcome : LabelledOutcome Tag Label Point Int, outcome.2 = .ok 0 →
      ¬ Fails index tag labels → Filling index point tag location labels outcome := by
    rintro ⟨next, result⟩ rfl hfails
    exact .placed hfails next
  rw [Labelled.insertAt, Labelled.admitLabels]
  split
  · next hunfiltered =>
      rw [LabelledOutcome.andThen_ok, if_pos rfl]
      by_cases htag : tag ∈ index.tagToLocation
      · rw [onSlots_placePoint_taken htag]
        exact .unlabelled (.inr htag) fun hfiltered => absurd hfiltered hunfiltered
      · refine hplaced _ (onSlots_placePoint_free htag point links) ?_
        rintro (⟨hfiltered, -⟩ | htaken)
        · exact hunfiltered hfiltered
        · exact htag htaken
  · next hfiltered =>
      have hfiltered := not_not.mp hfiltered
      split
      · next hnone =>
          have hturned : Filling index point tag location labels (turnBack index location) :=
            .unlabelled (.inl ⟨hfiltered, .inl hnone⟩) fun _ => hnone
          rw [turnBack] at hturned
          rcases hrelease : index.releaseLocation location with ⟨state, failure | released⟩
          · rw [hrelease] at hturned
            exact hturned
          · rw [hrelease] at hturned
            exact hturned
      · next hsome =>
          change Filling index point tag location labels (LabelledOutcome.andThen
            (LabelledOutcome.andThen (marked point index location labels) _) _)
          have hfrozen : (marked point index location labels).2 = .ok () ↔
            FrozenSuffice index.toState labels := registerLabels_ok_iff
          have hsame : SameSlots index.toState (marked point index location labels).1.toState :=
            registerLabels_sameSlots_toState point labels
              { index with
                locationToLabels := Function.update index.locationToLabels location labels }
          have htaken : Fails index tag labels → (marked point index location labels).2 = .ok () →
              Filling index point tag location labels
                (turnBack (marked point index location labels).1 location) :=
            .taken hfiltered hsome
          generalize marked point index location labels = outcome at hfrozen hsame htaken ⊢
          rcases outcome with ⟨next, failure | ⟨⟩⟩
          · exact .short hfiltered hsome (fun hsuffice => by cases hfrozen.mpr hsuffice) next hsame
              failure
          · rw [LabelledOutcome.andThen_ok, LabelledOutcome.andThen_ok, if_pos rfl]
            by_cases htag : tag ∈ index.tagToLocation
            · rw [onSlots_placePoint_taken (hsame.tagToLocation ▸ htag)]
              exact htaken (.inr htag) rfl
            · refine hplaced _ (onSlots_placePoint_free (hsame.tagToLocation ▸ htag) point links) ?_
              rintro (⟨-, hnone | hshort⟩ | htaken)
              · exact hsome hnone
              · exact hshort (hfrozen.mp rfl)
              · exact htag htaken

omit [DecidableEq Tag] [DecidableEq Label]

theorem failed_turnBack : Failed (turnBack index location).2 := by
  rw [turnBack]
  rcases index.releaseLocation location with ⟨state, failure | released⟩
  · trivial
  · rfl

theorem turnBack_popped {slots : NaturalNumberSet} (hvalid : slots.Valid)
    (hpop : slots.popAny = .ok (location, index.emptySlots)) :
    turnBack index location =
      ({ index with emptySlots := slots, nd := index.nd - 1 }, .ok (-1)) := by
  obtain ⟨hback, hout⟩ := NaturalNumberSet.insert_of_popAny hvalid hpop
  rw [turnBack, State.releaseLocation, hout]
  dsimp only
  rw [hback]
  rfl

theorem turnBack_left (index : Labelled Tag Label Point) (location : Nat) :
    (turnBack index location).1.nd = index.nd ∨
      (turnBack index location).1.emptySlots.values ≠ index.emptySlots.values := by
  rw [turnBack, State.releaseLocation]
  cases index.emptySlots.isInSet location with
  | error failure => exact .inl rfl
  | ok taken =>
    cases taken with
    | true => exact .inl rfl
    | false =>
      refine .inr fun hsame => ?_
      have hlength := congrArg List.length hsame
      exact absurd hlength ((@NaturalNumberSet.length_insert_values index.emptySlots location).trans_ne
        (Nat.succ_ne_self _))

end Rest

/-! ## Atomicity -/

section Atomicity

variable {index : Labelled Tag Label Point} {assertions : Bool} {point : Point} {tag : Tag}
  {labels : List Label} {links : Nat → List Nat}

omit [DecidableEq Tag] [DecidableEq Label] [Zero Tag] in
theorem Kept.refl (index : Labelled Tag Label Point) : Kept index index :=
  ⟨rfl, rfl, rfl, rfl, rfl, rfl, rfl, rfl, rfl⟩

theorem insertAtomic_of_unchanged {result : Except Error Int}
    (houtcome : index.insertPoint assertions point tag labels links = (index, result))
    (hbounds : result ≠ .error .outOfBounds) :
    InsertAtomic assertions index point tag labels links := by
  constructor
  · rw [houtcome]
    exact fun _ => hbounds
  · rw [houtcome]
    exact fun _ => .refl index

omit [DecidableEq Tag] [Zero Tag] in
variable {outcome : LabelledOutcome Tag Label Point Int}

theorem fresh_atomic_iff {location : Nat}
    (hfilling : Filling { index with nd := index.nd + 1 } point tag location labels outcome) :
    (Failed outcome.2 → Kept index outcome.1) ↔ ¬ Fails index tag labels := by
  have hleft : ∀ next : Labelled Tag Label Point, next.nd = index.nd + 1 →
      next.emptySlots = index.emptySlots → ¬ Kept index (turnBack next location).1 := by
    intro next hnd hslots hkept
    rcases turnBack_left next location with hcounted | hempty
    · rw [hkept.nd, hnd] at hcounted
      exact Nat.succ_ne_self _ hcounted.symm
    · rw [hkept.emptySlots, hslots] at hempty
      exact hempty rfl
  cases hfilling with
  | placed hfails next => exact iff_of_true (fun hfailed => by cases hfailed) hfails
  | short hfiltered hsome hshort next hsame failure =>
    refine iff_of_false (fun hkept => ?_) fun hfails => hfails (.inl ⟨hfiltered, .inr hshort⟩)
    exact Nat.succ_ne_self _ (hsame.nd.symm.trans (hkept trivial).nd)
  | unlabelled hfails hnone =>
    have hleft := hleft { index with nd := index.nd + 1 } rfl rfl
    exact iff_of_false (fun hkept => hleft (hkept failed_turnBack)) fun hnot => hnot hfails
  | taken hfiltered hsome hfails hok =>
    have hsame := registerLabels_sameSlots_toState point labels
      { index with
        nd := index.nd + 1
        locationToLabels := Function.update index.locationToLabels location labels }
    exact iff_of_false
      (fun hkept => hleft _ hsame.nd hsame.emptySlots (hkept failed_turnBack))
      fun hnot => hnot hfails

omit [DecidableEq Tag] [Zero Tag] in
theorem popped_atomic_iff {location : Nat} {slots : NaturalNumberSet}
    (hvalid : index.emptySlots.Valid) (hpop : index.emptySlots.popAny = .ok (location, slots))
    (hfilling : Filling
      { index with
        emptySlots := slots
        deleteSet := index.deleteSet.erase location
        nd := index.nd + 1 } point tag location labels outcome) :
    (Failed outcome.2 → Kept index outcome.1) ↔
      (Fails index tag labels → Unmarked index labels location) := by
  have herase : index.deleteSet.erase location = index.deleteSet ↔ location ∉ index.deleteSet :=
    Finset.erase_eq_self
  cases hfilling with
  | placed hfails next =>
    exact iff_of_true (fun hfailed => by cases hfailed) fun hfailed => absurd hfailed hfails
  | short hfiltered hsome hshort next hsame failure =>
    refine iff_of_false (fun hkept => ?_) fun hunmarked => ?_
    · exact Nat.succ_ne_self _ (hsame.nd.symm.trans (hkept trivial).nd)
    · rcases (hunmarked (.inl ⟨hfiltered, .inr hshort⟩)).2 hfiltered with hnone | ⟨hknown, -⟩
      · exact hsome hnone
      · exact hshort (.inl hknown)
  | unlabelled hfails hnone =>
    rw [turnBack_popped hvalid hpop]
    constructor
    · intro hkept _
      exact ⟨herase.mp (hkept rfl).deleteSet, fun hfiltered => .inl (hnone hfiltered)⟩
    · intro hunmarked _
      exact ⟨rfl, rfl, herase.mpr (hunmarked hfails).1, rfl, rfl, rfl, rfl, rfl, rfl⟩
  | taken hfiltered hsome hfails hok =>
    have hsame := registerLabels_sameSlots_toState point labels
      { index with
        emptySlots := slots
        deleteSet := index.deleteSet.erase location
        nd := index.nd + 1
        locationToLabels := Function.update index.locationToLabels location labels }
    have hlength := registerLabels_length hok
    have hmarked := @marked_of_known _ _ _ _ labels point
      { index with
        emptySlots := slots
        deleteSet := index.deleteSet.erase location
        nd := index.nd + 1 } location
    rw [turnBack_popped hvalid (hsame.emptySlots ▸ hpop)]
    constructor
    · intro hkept _
      have hkept := hkept rfl
      have hknown : newLabels index.labels labels = 0 := by
        have hlabels := congrArg List.length hkept.labels
        exact Nat.left_eq_add.mp (hlabels.symm.trans hlength)
      refine ⟨herase.mp (hsame.deleteSet.symm.trans hkept.deleteSet), fun _ => .inr ⟨hknown, ?_⟩⟩
      have hlabels : Function.update index.locationToLabels location labels =
          index.locationToLabels := by
        have hsame := hkept.locationToLabels
        rw [hmarked hknown] at hsame
        exact hsame
      have hlocation := congrFun hlabels location
      rw [Function.update_self] at hlocation
      exact hlocation.symm
    · intro hunmarked _
      obtain ⟨hdeleted, hlabels⟩ := hunmarked hfails
      obtain ⟨hknown, hkept⟩ := (hlabels hfiltered).resolve_left hsome
      rw [hmarked hknown]
      refine ⟨rfl, rfl, herase.mpr hdeleted, rfl, rfl, rfl, rfl, rfl, ?_⟩
      change Function.update index.locationToLabels location labels = index.locationToLabels
      rw [← hkept, Function.update_eq_self]

theorem insertAtomic_iff_spared (hvalid : index.emptySlots.Valid) :
    InsertAtomic assertions index point tag labels links ↔
      Spared index tag labels assertions := by
  by_cases hbuilt : assertions = true ∧ ¬ index.hasBuilt = true
  · have hinsert : index.insertPoint assertions point tag labels links = (index, .error _) :=
      if_pos hbuilt
    exact iff_of_true (insertAtomic_of_unchanged hinsert (by simp)) (.inl hbuilt)
  by_cases htag : tag = 0
  · have hinsert : index.insertPoint assertions point tag labels links = (index, .error _) :=
      (if_neg hbuilt).trans (if_pos htag)
    exact iff_of_true (insertAtomic_of_unchanged hinsert (by simp)) (.inr (.inl htag))
  have hinsert := Labelled.insertPoint.eq_1 index assertions point tag labels links
  rw [if_neg hbuilt, if_neg htag] at hinsert
  have hatomic : ∀ {outcome}, index.insertPoint assertions point tag labels links = outcome →
      (index.reserveLocation assertions).2 ≠ .ok none →
      (InsertAtomic assertions index point tag labels links ↔
        (Failed outcome.2 → Kept index outcome.1)) := by
    rintro outcome rfl hreserved
    exact ⟨fun hall => hall.kept, fun hkept => ⟨fun hnone => absurd hnone hreserved, hkept⟩⟩
  rw [Spared, or_iff_right hbuilt, or_iff_right htag]
  have hreserving := reserving assertions index.toState
  generalize hreserve : index.reserveLocation assertions = reserved at hreserving hinsert hatomic
  cases hreserving with
  | full hfull =>
    rw [if_pos hfull]
    by_cases hfiltered : index.filteredIndex = true
    · refine iff_of_false (fun hall => hall.inBounds (by rw [hreserve]) ?_) (absurd hfiltered)
      rw [hinsert]
      change (if index.filteredIndex = true then _ else _ : LabelledOutcome _ _ _ _).2 = _
      rw [if_pos hfiltered]
    · have hinsert : index.insertPoint assertions point tag labels links = (index, .ok (-1)) :=
        hinsert.trans (if_neg hfiltered)
      exact iff_of_true (insertAtomic_of_unchanged hinsert (by simp)) hfiltered
  | fresh hroom hnone =>
    rw [if_neg hroom, if_pos hnone, hatomic hinsert (by simp)]
    exact fresh_atomic_iff (filling _ point tag _ labels links)
  | refused hroom hsome hcount failure =>
    rw [if_neg hroom, if_neg hsome, hatomic hinsert (by simp)]
    refine iff_of_true (fun _ => .refl index) (hcount.imp_right fun hempty location hlast => ?_)
    rw [hempty] at hlast
    cases hlast
  | popped hroom hsome hcount location slots hlast hpop =>
    rw [if_neg hroom, if_neg hsome, hatomic hinsert (by simp), or_iff_right hcount]
    refine (popped_atomic_iff hvalid hpop (filling _ point tag _ labels links)).trans ?_
    simp only [hlast, Option.some.injEq, forall_eq']

end Atomicity

/-! ## The empty slots over a history -/

section History

variable {state : State Tag Label Point} {index : Labelled Tag Label Point}

omit [DecidableEq Tag] [DecidableEq Label] [Zero Tag] in
/-- The vector of the empty slots agrees with its bitset. -/
def SlotsValid (state : State Tag Label Point) : Prop := state.emptySlots.Valid

omit [DecidableEq Tag] [DecidableEq Label] [Zero Tag] in
theorem releaseLocation_valid (hvalid : SlotsValid state) (location : Nat) :
    SlotsValid (state.releaseLocation location).1 := by
  rw [State.releaseLocation]
  cases hempty : state.emptySlots.isInSet location with
  | error failure => exact hvalid
  | ok taken =>
    cases taken with
    | true => exact hvalid
    | false =>
      refine hvalid.insert fun hmem => ?_
      have hbit := (hvalid.bits location).mpr hmem
      rw [NaturalNumberSet.isInSet, element_eq_ok, hbit] at hempty
      cases hempty

omit [DecidableEq Tag] [DecidableEq Label] [Zero Tag] in
theorem reserveLocation_valid (hvalid : SlotsValid state) (assertions : Bool) :
    SlotsValid (state.reserveLocation assertions).1 := by
  have hreserving := reserving assertions state
  generalize state.reserveLocation assertions = reserved at hreserving
  cases hreserving with
  | full hfull => exact hvalid
  | fresh hroom hnone => exact hvalid
  | refused hroom hsome hcount failure => exact hvalid
  | popped hroom hsome hcount location slots hlast hpop =>
    obtain ⟨_, _, hpopped, -, hrest, -⟩ :=
      NaturalNumberSet.popAny_spec hvalid (List.getLast?_isSome.mp (by rw [hlast]; rfl))
    cases hpop.symm.trans hpopped
    exact hrest

omit [Zero Tag] [DecidableEq Label] in
theorem placePoint_valid (hvalid : SlotsValid state) (point : Point) (tag : Tag)
    (location : Nat) (links : Nat → List Nat) :
    SlotsValid (state.placePoint point tag location links).1 := by
  rw [State.placePoint]
  split
  · exact Outcome.andThen_keeps SlotsValid (releaseLocation_valid hvalid location) fun _ _ hnext => hnext
  · exact hvalid

omit [DecidableEq Tag] [Zero Tag] in
theorem admitLabels_valid (hvalid : SlotsValid state) (point : Point) (location : Nat)
    (labels : List Label) : SlotsValid (state.admitLabels point location labels).1 := by
  rw [State.admitLabels]
  split
  · exact hvalid
  · split
    · exact Outcome.andThen_keeps SlotsValid (releaseLocation_valid hvalid location) fun _ _ hnext => hnext
    · refine Outcome.andThen_keeps SlotsValid ?_ fun _ _ hnext => hnext
      rw [SlotsValid, (registerLabels_sameSlots point labels state).emptySlots]
      exact hvalid

theorem insertPoint_valid (hvalid : SlotsValid state) (assertions : Bool) (point : Point)
    (tag : Tag) (labels : List Label) (links : Nat → List Nat) :
    SlotsValid (state.insertPoint assertions point tag labels links).1 := by
  rw [State.insertPoint]
  split
  · exact hvalid
  · split
    · exact hvalid
    · refine Outcome.andThen_keeps SlotsValid (reserveLocation_valid hvalid assertions)
        fun state reserved hvalid => ?_
      cases reserved with
      | none =>
        dsimp only
        split <;> exact hvalid
      | some location =>
        refine Outcome.andThen_keeps SlotsValid (admitLabels_valid hvalid point location labels)
          fun state admitted hvalid => ?_
        split
        · exact placePoint_valid hvalid point tag location links
        · exact hvalid

omit [DecidableEq Tag] [DecidableEq Label] [Zero Tag] in
theorem releaseLocations_valid (hvalid : SlotsValid state) (order : List Nat) :
    SlotsValid (state.releaseLocations order).1 := by
  induction order generalizing state with
  | nil =>
    rw [State.releaseLocations]
    split <;> exact hvalid
  | cons location order ih =>
    rw [State.releaseLocations]
    exact Outcome.andThen_keeps SlotsValid (releaseLocation_valid hvalid location)
      fun state _ hvalid => ih hvalid

omit [DecidableEq Tag] [DecidableEq Label] [Zero Tag] in
theorem consolidateDeletes_valid (hvalid : SlotsValid state) (order : List Nat)
    (links : Nat → List Nat) : SlotsValid (state.consolidateDeletes order links).1 := by
  rw [State.consolidateDeletes]
  split
  · exact hvalid
  · split
    · exact hvalid
    · split
      · exact hvalid
      · dsimp only
        split
        · exact hvalid
        · split
          · exact hvalid
          · have htaken : SlotsValid { state with deleteSet := ∅, graph := links } := hvalid
            exact Outcome.andThen_keeps SlotsValid (releaseLocations_valid htaken order)
              fun _ _ hnext => hnext

omit [DecidableEq Label] [Zero Tag] in
theorem lazyDelete_emptySlots (state : State Tag Label Point) (assertions : Bool) (tag : Tag) :
    (state.lazyDelete assertions tag).1.emptySlots = state.emptySlots := by
  rw [State.lazyDelete]
  dsimp only
  cases state.tagToLocation.lookup tag with
  | none => rfl
  | some location =>
    dsimp only
    split <;> rfl

omit [DecidableEq Label] [Zero Tag] in
theorem lazyDeleteAll_emptySlots (state : State Tag Label Point) (tags failedTags : List Tag) :
    (state.lazyDeleteAll tags failedTags).1.emptySlots = state.emptySlots := by
  rw [State.lazyDeleteAll]
  split
  · rfl
  · refine List.foldlRecOn
      (motive := fun outcome : State Tag Label Point × List Tag =>
        outcome.1.emptySlots = state.emptySlots) tags _ rfl ?_
    rintro ⟨current, failed⟩ hcurrent tag -
    dsimp only at hcurrent ⊢
    cases current.tagToLocation.lookup tag with
    | none => exact hcurrent
    | some location => exact hcurrent

omit [DecidableEq Label] [Zero Tag] in
theorem startWith_emptySlots (state : State Tag Label Point) (start : Start Tag Point) :
    (state.startWith start).emptySlots = state.emptySlots := by
  have hbuilt : ∀ (state : State Tag Label Point) (tags : List Tag) (medoid : Nat)
      (links : Nat → List Nat),
      (state.buildWithDataPopulated tags medoid links).1.emptySlots = state.emptySlots := by
    intro state tags medoid links
    obtain ⟨located, tagged, hassign, -⟩ := assignTags_spec state tags
    rw [State.buildWithDataPopulated, hassign]
    split
    · rfl
    · split
      · rfl
      · exact Outcome.andThen_keeps (fun next => next.emptySlots = state.emptySlots)
          (generateFrozenPoint_sameSlots _ medoid).emptySlots fun _ _ hnext => hnext
  cases start with
  | setStartPoints points => exact (setStartPoints_sameSlots state points).emptySlots
  | build points tags medoid links =>
    rw [State.startWith, State.build]
    split
    · rfl
    · split
      · rfl
      · exact hbuilt _ tags medoid links
  | buildFromFile points numPointsToLoad tags medoid links =>
    rw [State.startWith, State.buildFromFile]
    split
    · rfl
    · split
      · rfl
      · split
        · rfl
        · exact hbuilt _ tags medoid links

omit [DecidableEq Tag] [DecidableEq Label] [Zero Tag] in
theorem insertSlots_valid (first last : Nat) : (insertSlots {} first last).Valid := by
  rcases Nat.le_total first last with hle | hle
  · exact (insertSlots_spec NaturalNumberSet.valid_empty (by simp) (by simp) hle).1
  · rw [insertSlots, Nat.sub_eq_zero_of_le hle]
    exact NaturalNumberSet.valid_empty

omit [DecidableEq Label] [Zero Tag] in
theorem compactData_valid (hvalid : SlotsValid index.toState) :
    SlotsValid index.compactData.1.toState := by
  rw [Labelled.compactData]
  split
  · exact hvalid
  · split
    · exact hvalid
    · split
      · exact hvalid
      · split
        · exact hvalid
        · exact insertSlots_valid _ _

omit [DecidableEq Tag] [DecidableEq Label] [Zero Tag] in
theorem repositionPoints_valid (hvalid : SlotsValid index.toState) (assertions : Bool)
    (zero : Point) (old new count : Nat) :
    SlotsValid (index.repositionPoints assertions zero old new count).1.toState := by
  rw [Labelled.repositionPoints]
  split
  · exact hvalid
  · dsimp only
    split <;> exact hvalid

omit [DecidableEq Tag] [DecidableEq Label] [Zero Tag] in
theorem moveStarts_valid (hvalid : SlotsValid index.toState) (start old new : Nat) :
    SlotsValid (Labelled.moveStarts { index with start := start } old new).toState := by
  rw [Labelled.moveStarts]
  split <;> exact hvalid

omit [DecidableEq Label] [Zero Tag] in
theorem save_valid (hvalid : SlotsValid index.toState) (assertions compactBeforeSave : Bool)
    (zero : Point) : SlotsValid (index.save assertions compactBeforeSave zero).1.toState := by
  rw [Labelled.save]
  refine LabelledOutcome.andThen_keeps (fun index => SlotsValid index.toState) ?_
    fun index _ hvalid => ?_
  · split
    · refine LabelledOutcome.andThen_keeps (fun index => SlotsValid index.toState)
        (compactData_valid hvalid) fun index _ hvalid => ?_
      rw [Labelled.compactFrozenPoint]
      split
      · exact LabelledOutcome.andThen_keeps (fun index => SlotsValid index.toState)
          (repositionPoints_valid hvalid _ _ _ _ _) fun index _ hvalid =>
            moveStarts_valid hvalid _ _ _
      · exact hvalid
    · split <;> exact hvalid
  · rw [Labelled.repositionFrozenPointToEnd]
    split
    · exact hvalid
    · exact LabelledOutcome.andThen_keeps (fun index => SlotsValid index.toState)
        (repositionPoints_valid hvalid _ _ _ _ _) fun index _ hvalid =>
          moveStarts_valid hvalid _ _ _

theorem perform_valid (hvalid : SlotsValid index.toState) (assertions : Bool) (zero : Point)
    (op : LabelledOp Tag Label Point) :
    SlotsValid (index.perform assertions zero op).toState := by
  cases op with
  | save compactBeforeSave => exact save_valid hvalid assertions compactBeforeSave zero
  | slots op =>
    cases op with
    | insertPoint point tag labels links =>
      have hslots : (index.insertPoint assertions point tag labels links).1.toState =
          (index.toState.insertPoint assertions point tag labels links).1 :=
        congrArg Prod.fst (insertPoint_slots index assertions point tag labels links)
      rw [Labelled.perform, hslots]
      exact insertPoint_valid hvalid assertions point tag labels links
    | lazyDelete tag =>
      rw [SlotsValid, ← lazyDelete_emptySlots index.toState assertions tag] at hvalid
      exact hvalid
    | lazyDeleteAll tags failedTags =>
      rw [SlotsValid, ← lazyDeleteAll_emptySlots index.toState tags failedTags] at hvalid
      exact hvalid
    | consolidateDeletes order links => exact consolidateDeletes_valid hvalid order links

theorem labelledHistory_valid {assertions : Bool} {config : IndexConfig} {zero : Point}
    {start : Start Tag Point}
    (hreach : (labelledHistory assertions config zero start).Reachable index) :
    SlotsValid index.toState := by
  refine @Transition.Reachable.invariant _ _ _ _ (fun index => SlotsValid index.toState) ?_ ?_
    hreach
  · rintro first ⟨labels, hfirst⟩
    have hslots := startWith_emptySlots (State.construct config zero : State Tag Label Point) start
    rw [SlotsValid, hfirst]
    exact hslots ▸ (construct_represents config zero).valid
  · rintro current op next hcurrent ⟨-, rfl⟩
    exact perform_valid hcurrent assertions zero op

end History

/-- Whatever was called before, whether an insertion is atomic can be seen from the index. -/
theorem insertPoint_atomic_iff {assertions : Bool} {config : IndexConfig} {zero : Point}
    {start : Start Tag Point} {index : Labelled Tag Label Point}
    (hreach : (labelledHistory assertions config zero start).Reachable index)
    (point : Point) (tag : Tag) (labels : List Label) (links : Nat → List Nat) :
    InsertAtomic assertions index point tag labels links ↔
      Spared index tag labels assertions :=
  insertAtomic_iff_spared (labelledHistory_valid hreach)

/-- Two slots, and a frozen point for one label. -/
def filteredConfig : IndexConfig :=
  { smallConfig with filteredIndex := true }

def filteredHistory : Transition (Labelled Nat Nat Unit) (LabelledOp Nat Nat Unit) :=
  labelledHistory true filteredConfig () (.setStartPoints [()])

/-- One point is in the index, and its label has the frozen point. -/
def oneLabelled : Labelled Nat Nat Unit :=
  Labelled.perform true ()
    { toState := (State.construct filteredConfig ()).startWith (.setStartPoints [()]) }
    (.slots (.insertPoint () 5 [1] fun _ => []))

theorem oneLabelled_reachable : filteredHistory.Reachable oneLabelled := by
  have hstart : filteredHistory.Reachable
      { toState := (State.construct filteredConfig ()).startWith (.setStartPoints [()]) } :=
    .of_initial ⟨[], rfl⟩
  have hinsert : filteredHistory.step _ (.slots (.insertPoint () 5 [1] fun _ => [])) oneLabelled :=
    ⟨trivial, rfl⟩
  exact hstart.step hinsert

/-- A point without labels is turned away, and its slot goes back. -/
theorem insertPoint_atomic_iff_unlabelled :
    InsertAtomic true oneLabelled () 6 [] fun _ => [] := by
  refine (insertPoint_atomic_iff oneLabelled_reachable () 6 [] _).mpr (.inr (.inr ?_))
  rw [if_neg (by decide), if_neg (by decide)]
  exact .inr fun location _ _ => ⟨Finset.notMem_empty location, fun _ => .inl rfl⟩

/-- A second label finds no frozen point, and the slot stays taken. -/
theorem insertPoint_not_atomic :
    ¬ ∀ index : Labelled Nat Nat Unit, filteredHistory.Reachable index →
      InsertAtomic true index () 6 [2] fun _ => [] := by
  intro hall
  have hkept := (hall oneLabelled oneLabelled_reachable).kept trivial
  exact absurd hkept.nd (by decide)

end SkipCell.Vamana

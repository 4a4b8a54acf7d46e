import SkipCell.Vamana.Accounting

/-! # The slots over a history of the index

An index is constructed, gets its start, and then takes insertions, deletions and
consolidations one after the other. A start that loads no points leaves every slot empty,
and from there the operations keep the accounts.
-/

namespace SkipCell.Vamana

open Foundation

/-- How an index gets its first points. -/
inductive Start (Tag Point : Type)
  | setStartPoints (points : List Point)
  | build (points : List Point) (tags : List Tag) (medoid : Nat) (links : Nat → List Nat)
  | buildFromFile (points : List Point) (numPointsToLoad : Nat) (tags : List Tag) (medoid : Nat)
      (links : Nat → List Nat)

/-- What is called after that. -/
inductive Op (Tag Label Point : Type)
  | insertPoint (point : Point) (tag : Tag) (labels : List Label) (links : Nat → List Nat)
  | lazyDelete (tag : Tag)
  | lazyDeleteAll (tags failedTags : List Tag)
  | consolidateDeletes (order : List Nat) (links : Nat → List Nat)

variable {Tag Label Point : Type} [DecidableEq Tag]

namespace State

variable (state : State Tag Label Point)

def startWith : Start Tag Point → State Tag Label Point
  | .setStartPoints points => (state.setStartPoints points).1
  | .build points tags medoid links => (state.build points tags medoid links).1
  | .buildFromFile points numPointsToLoad tags medoid links =>
    (state.buildFromFile points numPointsToLoad tags medoid links).1

/-- The state after a call, also where the call throws. -/
def perform [DecidableEq Label] [Zero Tag] (assertions : Bool) :
    Op Tag Label Point → State Tag Label Point
  | .insertPoint point tag labels links =>
    (state.insertPoint assertions point tag labels links).1
  | .lazyDelete tag => (state.lazyDelete assertions tag).1
  | .lazyDeleteAll tags failedTags => (state.lazyDeleteAll tags failedTags).1
  | .consolidateDeletes order links => (state.consolidateDeletes order links).1

end State

omit [DecidableEq Tag] in
/-- A consolidation enumerates the deleted locations. -/
def Permitted (state : State Tag Label Point) : Op Tag Label Point → Prop
  | .consolidateDeletes order _ => order.Nodup ∧ order.toFinset = state.deleteSet
  | _ => True

instance Permitted.decidable (state : State Tag Label Point) :
    ∀ op, Decidable (Permitted state op)
  | .insertPoint .. => inferInstanceAs (Decidable True)
  | .lazyDelete _ => inferInstanceAs (Decidable True)
  | .lazyDeleteAll _ _ => inferInstanceAs (Decidable True)
  | .consolidateDeletes _ _ => inferInstanceAs (Decidable (_ ∧ _))

/-- A new index with a start, and the calls that follow. -/
def history [DecidableEq Label] [Zero Tag] (assertions : Bool) (config : IndexConfig)
    (zero : Point) (start : Start Tag Point) :
    Transition (State Tag Label Point) (Op Tag Label Point) :=
  .guarded (· = (State.construct config zero).startWith start) Permitted
    fun state op => state.perform assertions op

/-- No points come into the index: `set_start_points`, or a build that is refused before it
sets the number of points. -/
def Start.LoadsNothing (maxPoints : Nat) : Start Tag Point → Prop
  | .setStartPoints _ => True
  | .build points _ _ _ => points = []
  | .buildFromFile points numPointsToLoad _ _ _ =>
    numPointsToLoad = 0 ∨ maxPoints < points.length ∨ points.length < numPointsToLoad

/-- The steps that keep the accounts. -/
def OpSafe [DecidableEq Label] [Zero Tag] (assertions : Bool) (state : State Tag Label Point) :
    Op Tag Label Point → Prop
  | .insertPoint _ tag labels _ => InsertSafe assertions state tag labels
  | _ => True

instance OpSafe.decidable [DecidableEq Label] [Zero Tag] (assertions : Bool)
    (state : State Tag Label Point) : ∀ op, Decidable (OpSafe assertions state op)
  | .insertPoint .. => inferInstanceAs (Decidable (_ → _ → _ → _ ∧ (_ ∨ _)))
  | .lazyDelete _ => inferInstanceAs (Decidable True)
  | .lazyDeleteAll _ _ => inferInstanceAs (Decidable True)
  | .consolidateDeletes _ _ => inferInstanceAs (Decidable True)

omit [DecidableEq Tag] in
theorem construct_maxPoints_pos (config : IndexConfig) (zero : Point) :
    0 < (State.construct config zero : State Tag Label Point).maxPoints := by
  rw [State.construct, State.enableDelete, if_neg (by simp)]
  dsimp only
  split <;> omega

theorem construct_represents (config : IndexConfig) (zero : Point) :
    Represents (State.construct config zero : State Tag Label Point) fun _ => .empty := by
  have hpos : 0 < (State.construct config zero : State Tag Label Point).maxPoints :=
    construct_maxPoints_pos config zero
  rw [State.construct, State.enableDelete, if_neg (by simp)] at hpos ⊢
  dsimp only [if_pos] at hpos ⊢
  generalize (if config.maxPoints = 0 then 1 else config.maxPoints) = capacity at hpos ⊢
  obtain ⟨hvalid, hbits, hvalues⟩ := @insertSlots_spec {} 0 capacity
    NaturalNumberSet.valid_empty (by simp) (Nat.zero_le _) (Nat.zero_le _)
  rw [Nat.sub_zero, List.nil_append] at hvalues
  constructor
  case valid => exact hvalid
  case bits => exact hbits hpos
  case empty =>
    intro location
    simp [hvalues, List.mem_range'_1]
  case deleted => simp
  case tagged => simp
  case located => simp
  case tags => exact NaturalNumberMap.valid_empty
  case sameSize => rfl
  case total => simp [hvalues]
  case start => rfl
  case positive => exact hpos

theorem construct_consistent (config : IndexConfig) (zero : Point) :
    Consistent (State.construct config zero : State Tag Label Point) :=
  ⟨_, construct_represents config zero, fun _ _ => by simp⟩

omit [DecidableEq Tag] in
theorem setStartPoints_sameSlots (state : State Tag Label Point) (points : List Point) :
    SameSlots state (state.setStartPoints points).1 := by
  rw [State.setStartPoints]
  split
  · exact .refl state
  · split <;> exact ⟨rfl, rfl, rfl, rfl, rfl, rfl, rfl, rfl⟩

variable {state : State Tag Label Point}

theorem startWith_consistent (hstate : Consistent state) {start : Start Tag Point}
    (hstart : start.LoadsNothing state.maxPoints) :
    Consistent (state.startWith start) := by
  cases start with
  | setStartPoints points => exact (setStartPoints_sameSlots state points).consistent hstate
  | build points tags medoid links =>
    obtain rfl : points = [] := hstart
    exact hstate
  | buildFromFile points numPointsToLoad tags medoid links =>
    rw [State.startWith, State.buildFromFile]
    split
    · exact hstate
    · next hsome =>
        split
        · exact hstate
        · next hfits =>
            rw [if_pos (hstart.resolve_left hsome |>.resolve_left hfits)]
            exact hstate

theorem assignTags_spec (state : State Tag Label Point) (tags : List Tag) :
    ∃ located tagged, state.assignTags tags =
        { state with tagToLocation := located, locationToTag := tagged } ∧
      ∀ location, tagged.tryGet location =
        tags[location]?.or (state.locationToTag.tryGet location) := by
  suffices hfold : ∀ (offset : Nat) (state : State Tag Label Point), ∃ located tagged,
      (tags.zipIdx offset).foldl (fun state tagged => state.assignTag tagged) state =
        { state with tagToLocation := located, locationToTag := tagged } ∧
      ∀ location, tagged.tryGet location =
        (if offset ≤ location then tags[location - offset]? else none).or
          (state.locationToTag.tryGet location) by
    simpa [State.assignTags] using hfold 0 state
  induction tags with
  | nil => exact fun offset state => ⟨_, _, rfl, by simp⟩
  | cons tag tags ih =>
    intro offset state
    rw [List.zipIdx_cons, List.foldl_cons]
    obtain ⟨located, tagged, hfold, htagged⟩ := ih (offset + 1) (state.assignTag (tag, offset))
    refine ⟨located, tagged, hfold, fun location => ?_⟩
    rw [htagged, State.assignTag, NaturalNumberMap.tryGet_set]
    rcases Nat.lt_trichotomy location offset with hless | rfl | hmore
    · rw [if_neg (by omega), if_neg (by omega), if_neg (by omega)]
    · rw [if_neg (by omega), if_pos rfl, if_pos le_rfl, Nat.sub_self, List.getElem?_cons_zero,
        Option.none_or, Option.some_or]
    · obtain ⟨distance, rfl⟩ := Nat.exists_eq_add_of_lt hmore
      rw [if_pos (by omega), if_neg (by omega), if_pos (by omega),
        show offset + distance + 1 - offset = distance + 1 by omega,
        show offset + distance + 1 - (offset + 1) = distance by omega, List.getElem?_cons_succ]

theorem perform_consistent [DecidableEq Label] [Zero Tag] (hstate : Consistent state)
    (assertions : Bool) {op : Op Tag Label Point} (hpermitted : Permitted state op)
    (hsafe : OpSafe assertions state op) :
    Consistent (state.perform assertions op) := by
  cases op with
  | insertPoint point tag labels links =>
    exact insertPoint_consistent hstate assertions point tag links hsafe
  | lazyDelete tag => exact lazyDelete_consistent hstate assertions tag
  | lazyDeleteAll tags failedTags => exact lazyDeleteAll_consistent hstate tags failedTags
  | consolidateDeletes order links =>
    obtain ⟨next, report, hnext, -, hconsistent⟩ :=
      consolidateDeletes_consistent hstate hpermitted.1 hpermitted.2 links
    rw [State.perform, hnext]
    exact hconsistent

theorem history_consistent [DecidableEq Label] [Zero Tag] {assertions : Bool} {config : IndexConfig}
    {zero : Point} {start : Start Tag Point}
    (hstart : start.LoadsNothing (State.construct config zero : State Tag Label Point).maxPoints)
    (hreach : ((history assertions config zero start).restrict
      (OpSafe assertions)).Reachable state) : Consistent state := by
  refine hreach.invariant ?_ ?_
  · rintro first rfl
    exact startWith_consistent (construct_consistent config zero) hstart
  · rintro current op next hcurrent ⟨hsafe, hpermitted, rfl⟩
    exact perform_consistent hcurrent assertions hpermitted hsafe

/-- What the containers say of one another. -/
structure Accounted (state : State Tag Label Point) : Prop where
  covered : ∀ location < state.maxPoints,
    state.locationToTag.contains location = true ∨ location ∈ state.deleteSet ∨
      location ∈ state.emptySlots.values
  tagged_not_deleted : ∀ location, state.locationToTag.contains location = true →
    location ∉ state.deleteSet
  tagged_not_empty : ∀ location, state.locationToTag.contains location = true →
    location ∉ state.emptySlots.values
  deleted_not_empty : ∀ location ∈ state.deleteSet, location ∉ state.emptySlots.values
  count : state.nd = state.locationToTag.keys.card + state.deleteSet.card
  inverse : ∀ location tag, state.locationToTag.tryGet location = some tag ↔
    state.tagToLocation.lookup tag = some location

theorem Consistent.accounted (hstate : Consistent state) :
    Accounted state := by
  obtain ⟨uses, hrep, hsettled⟩ := hstate
  have htagged : ∀ location, state.locationToTag.contains location = true →
      ∃ tag, uses location = .tagged tag := by
    intro location hcontains
    obtain ⟨tag, htag⟩ := NaturalNumberMap.contains_iff.mp hcontains
    exact ⟨tag, ((hrep.tagged location tag).mp htag).2⟩
  constructor
  case covered =>
    intro location hlocation
    cases huse : uses location with
    | empty => exact .inr (.inr ((hrep.empty location).mpr ⟨hlocation, huse⟩))
    | reserved => exact absurd huse (hsettled location hlocation)
    | tagged tag =>
      refine .inl (NaturalNumberMap.contains_iff.mpr ⟨tag, ?_⟩)
      exact (hrep.tagged location tag).mpr ⟨hlocation, huse⟩
    | deleted => exact .inr (.inl ((hrep.deleted location).mpr ⟨hlocation, huse⟩))
  case tagged_not_deleted =>
    intro location hcontains hdeleted
    obtain ⟨tag, huse⟩ := htagged location hcontains
    cases huse.symm.trans ((hrep.deleted location).mp hdeleted).2
  case tagged_not_empty =>
    intro location hcontains hempty
    obtain ⟨tag, huse⟩ := htagged location hcontains
    cases huse.symm.trans ((hrep.empty location).mp hempty).2
  case deleted_not_empty =>
    intro location hdeleted hempty
    cases ((hrep.deleted location).mp hdeleted).2.symm.trans ((hrep.empty location).mp hempty).2
  case count =>
    rw [hrep.nd_eq hsettled, hrep.tags]
  case inverse =>
    intro location tag
    rw [hrep.tagged, hrep.located]

/-- A consolidation returns a report of success, whatever the order in which it enumerates
the deleted locations. -/
def Consolidates (state : State Tag Label Point) : Prop :=
  ∀ order links, Permitted state (.consolidateDeletes order links) →
    ∃ report, (state.consolidateDeletes order links).2 = .ok report ∧ report.status = .success

/-- Without points loaded at the start, and with room and frozen points for what a filtered
index takes, the slots are accounted for after any calls. -/
theorem history_accounted [DecidableEq Label] [Zero Tag] {assertions : Bool}
    {config : IndexConfig} {zero : Point} {start : Start Tag Point}
    {state : State Tag Label Point}
    (hstart : start.LoadsNothing (State.construct config zero : State Tag Label Point).maxPoints)
    (hreach : ((history assertions config zero start).restrict
      (OpSafe assertions)).Reachable state) : Accounted state ∧ Consolidates state := by
  have hstate := history_consistent hstart hreach
  refine ⟨hstate.accounted, fun order links hpermitted => ?_⟩
  obtain ⟨next, report, hnext, hstatus, -⟩ :=
    consolidateDeletes_consistent hstate hpermitted.1 hpermitted.2 links
  exact ⟨report, by rw [hnext], hstatus⟩

omit [DecidableEq Tag] in
theorem generateFrozenPoint_sameSlots (state : State Tag Label Point) (medoid : Nat) :
    SameSlots state (state.generateFrozenPoint medoid).1 := by
  rw [State.generateFrozenPoint]
  split
  · exact .refl state
  · split
    · exact .refl state
    · split <;> exact ⟨rfl, rfl, rfl, rfl, rfl, rfl, rfl, rfl⟩

/-- Two slots. -/
def smallConfig : IndexConfig where
  maxPoints := 2
  numFrozenPts := 1

def smallHistory (start : Start Nat Unit) : Transition (State Nat Nat Unit) (Op Nat Nat Unit) :=
  history true smallConfig () start

/-- The slot of a deleted point is consolidated, and taken again. -/
def mixedOps : List (Op Nat Nat Unit) :=
  [.insertPoint () 5 [] fun _ => [], .insertPoint () 6 [] fun _ => [], .lazyDelete 5,
    .insertPoint () 7 [] fun _ => [], .consolidateDeletes [1] fun _ => [],
    .insertPoint () 7 [] fun _ => []]

theorem history_accounted_mixedOps :
    let state := mixedOps.foldl (fun state op => state.perform true op)
      ((State.construct smallConfig ()).startWith (.setStartPoints [()]))
    Accounted state ∧ Consolidates state := by
  intro state
  have hstart : (Start.setStartPoints [()] : Start Nat Unit).LoadsNothing
      (State.construct smallConfig () : State Nat Nat Unit).maxPoints := trivial
  have hreach : ((smallHistory (.setStartPoints [()])).restrict (OpSafe true)).Reachable state := by
    refine Transition.reachable_restrict_of_permitted rfl ?_
    decide +kernel
  exact history_accounted hstart hreach

/-- One point is built into two slots, and both slots stay empty. -/
theorem built_slots_broken :
    ∃ start state, (smallHistory start).Reachable state ∧ ¬ Accounted state ∧
      ¬ Consolidates state := by
  refine ⟨.build [()] [5] 0 fun _ => [], _, .of_initial rfl, ?_, ?_⟩
  · intro haccounted
    exact haccounted.tagged_not_empty 0 (by decide) (by decide)
  · intro hconsolidates
    obtain ⟨report, hreport, -⟩ := hconsolidates [] (fun _ => []) ⟨List.nodup_nil, by decide⟩
    have hthrows := hreport.symm.trans
      (show _ = Except.error State.countMismatch by rfl)
    cases hthrows

end SkipCell.Vamana

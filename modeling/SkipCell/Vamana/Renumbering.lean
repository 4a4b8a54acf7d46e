import SkipCell.Vamana.InsertAtomicity

/-! # Compaction renumbers

A compaction moves the live points to the first slots in their order. What each of them had,
its image has, with the neighbors renumbered; the frozen points stay, and may go behind the live
ones and back.
-/

namespace SkipCell.Vamana

open Foundation

variable {Tag Label Point : Type}

/-! ## Nodes -/

section Nodes

variable (state : State Tag Label Point)

/-- A slot with a tag. -/
def Live (location : Nat) : Prop :=
  location < state.maxPoints ∧ state.locationToTag.contains location = true

def Frozen (location : Nat) : Prop :=
  state.maxPoints ≤ location ∧ location < state.maxPoints + state.numFrozenPts

def Node (location : Nat) : Prop := Live state location ∨ Frozen state location

def liveBelow (location : Nat) : Nat :=
  Nat.count (fun location => state.locationToTag.contains location = true) location

/-- Where compaction puts a node. -/
def renamed (location : Nat) : Nat :=
  if location < state.maxPoints then liveBelow state location else location

variable {state} {location other : Nat}

theorem newLocation_eq_some {new : Nat} :
    state.newLocation location = some new ↔ Node state location ∧ new = renamed state location := by
  rw [State.newLocation, renamed]
  split
  · next hslot =>
      split
      · next htagged =>
          rw [Option.some_inj, and_iff_right (.inl ⟨hslot, htagged⟩)]
          exact eq_comm
      · next htagged =>
          refine iff_of_false (by simp) ?_
          rintro ⟨hlive | hfrozen, -⟩
          · exact htagged hlive.2
          · exact absurd hslot (Nat.not_lt.mpr hfrozen.1)
  · next hslot =>
      split
      · next hallocated =>
          rw [Option.some_inj, and_iff_right (.inr ⟨Nat.not_lt.mp hslot, hallocated⟩)]
          exact eq_comm
      · next hallocated =>
          refine iff_of_false (by simp) ?_
          rintro ⟨hlive | hfrozen, -⟩
          · exact hslot hlive.1
          · exact hallocated hfrozen.2

theorem Live.renamed_eq (hlive : Live state location) :
    renamed state location = liveBelow state location := if_pos hlive.1

theorem Frozen.renamed_eq (hfrozen : Frozen state location) : renamed state location = location :=
  if_neg (Nat.not_lt.mpr hfrozen.1)

theorem Live.liveBelow_lt (hlive : Live state location) :
    liveBelow state location < liveBelow state state.maxPoints :=
  Nat.count_strict_mono hlive.2 hlive.1

theorem liveBelow_le (location : Nat) : liveBelow state location ≤ location := Nat.count_le _

theorem liveBelow_strictMonoOn : StrictMonoOn (renamed state) {location | Live state location} := by
  intro first hfirst second hsecond hless
  rw [hfirst.renamed_eq, hsecond.renamed_eq]
  exact Nat.count_strict_mono hfirst.2 hless

theorem renamed_inj (hfirst : Node state location) (hsecond : Node state other)
    (hsame : renamed state location = renamed state other) : location = other := by
  have hbelow : ∀ {place}, Live state place → renamed state place < state.maxPoints := by
    intro place hlive
    rw [hlive.renamed_eq]
    exact hlive.liveBelow_lt.trans_le (liveBelow_le _)
  rcases hfirst with hfirst | hfirst
  · rcases hsecond with hsecond | hsecond
    · exact liveBelow_strictMonoOn.injOn hfirst hsecond hsame
    · have hless := hbelow hfirst
      rw [hsame, hsecond.renamed_eq] at hless
      exact absurd hless (Nat.not_lt.mpr hsecond.1)
  · rcases hsecond with hsecond | hsecond
    · have hless := hbelow hsecond
      rw [← hsame, hfirst.renamed_eq] at hless
      exact absurd hless (Nat.not_lt.mpr hfirst.1)
    · rwa [hfirst.renamed_eq, hsecond.renamed_eq] at hsame

theorem exists_live {place : Nat} (hplace : place < liveBelow state state.maxPoints) :
    ∃ location, Live state location ∧ renamed state location = place := by
  obtain ⟨location, hslot, htagged, hcount⟩ := exists_of_lt_count hplace
  have hlive : Live state location := ⟨hslot, htagged⟩
  exact ⟨location, hlive, hlive.renamed_eq.trans hcount⟩

end Nodes

/-! ## The adjacency lists and the vectors -/

section Cells

variable {state : State Tag Label Point}

theorem renumber_eq {neighbors : List Nat} (hnodes : ∀ neighbor ∈ neighbors, Node state neighbor) :
    state.renumber neighbors = .ok (neighbors.map (renamed state)) := by
  have hkept : neighbors.filter (fun neighbor =>
      ¬ (neighbor < state.maxPoints ∧ ¬ state.locationToTag.contains neighbor)) = neighbors := by
    refine List.filter_eq_self.mpr fun neighbor hneighbor => ?_
    rcases hnodes neighbor hneighbor with hlive | hfrozen
    · simp [hlive.2]
    · simp [Nat.not_lt.mpr hfrozen.1]
  rw [State.renumber, hkept]
  clear hkept
  induction neighbors with
  | nil => rfl
  | cons neighbor neighbors ih =>
    have hnew := newLocation_eq_some.mpr ⟨hnodes neighbor List.mem_cons_self, rfl⟩
    rw [List.mapM_cons, hnew, ih fun other hother => hnodes other (List.mem_cons_of_mem _ hother)]
    rfl

def NeighborsAreNodes (state : State Tag Label Point) : Prop :=
  ∀ node, Node state node → ∀ neighbor ∈ state.graph node, Node state neighbor

/-- The lists as compaction leaves them, but where they were. -/
def renamedLists (state : State Tag Label Point) (location : Nat) : List Nat :=
  (state.graph location).map (renamed state)

theorem compactPoints_packed (hnodes : NeighborsAreNodes state) {count : Nat}
    (hcount : count ≤ state.maxPoints) :
    ∃ cells, state.compactPoints count = .ok cells ∧
      Packed [] (fun location => state.locationToTag.contains location = true) state.graph
        (renamedLists state) count cells.1 ∧
      Copied (fun location => state.locationToTag.contains location = true) state.vectors count
        cells.2 := by
  induction count with
  | zero => exact ⟨_, rfl, packed_zero, copied_zero⟩
  | succ count ih =>
    obtain ⟨cells, hcells, hpacked, hcopied⟩ := ih (by omega)
    rw [State.compactPoints, hcells]
    change ∃ next, state.compactPoint cells count = .ok next ∧ _
    by_cases htagged : state.locationToTag.contains count = true
    · have hlive : Live state count := ⟨by omega, htagged⟩
      have hnew := newLocation_eq_some.mpr ⟨.inl hlive, hlive.renamed_eq.symm⟩
      have hlist : state.renumber (cells.1 count) = .ok (renamedLists state count) := by
        rw [hpacked.untouched count le_rfl]
        exact renumber_eq (hnodes count (.inl hlive))
      refine ⟨(swapCells (liveBelow state count) count
          (Function.update cells.1 count (renamedLists state count)),
        Function.update cells.2 (liveBelow state count) (cells.2 count)), ?_,
        hpacked.step_kept htagged, hcopied.step_kept⟩
      rw [State.compactPoint, hnew]
      dsimp only
      rw [hlist]
      change (if liveBelow state count = count then
        Except.ok (Function.update cells.1 count (renamedLists state count), cells.2) else _) = _
      split
      · next hsame => rw [hsame, swapCells_self, Function.update_eq_self]
      · rfl
    · have hnone : state.newLocation count = none := by
        refine Option.eq_none_iff_forall_not_mem.mpr fun new hnew => ?_
        rcases (newLocation_eq_some.mp hnew).1 with hlive | hfrozen
        · exact htagged hlive.2
        · exact absurd hfrozen.1 (by omega)
      refine ⟨(Function.update cells.1 count [], cells.2), ?_, hpacked.step_dropped htagged,
        hcopied.step_dropped htagged⟩
      rw [State.compactPoint, hnone]

/-- The cells after the slots and `done` frozen points. -/
structure Compacted (state : State Tag Label Point) (done : Nat) (cells : State.Cells Point) :
    Prop where
  lists : ∀ location, Live state location →
    cells.1 (renamed state location) = renamedLists state location
  frozen : ∀ location, state.maxPoints ≤ location → location < state.maxPoints + done →
    cells.1 location = renamedLists state location
  vacated : ∀ location < state.maxPoints, liveBelow state state.maxPoints ≤ location →
    cells.1 location = []
  untouched : ∀ location, state.maxPoints + done ≤ location →
    cells.1 location = state.graph location
  vectors : ∀ location, Live state location →
    cells.2 (renamed state location) = state.vectors location
  frozenVectors : ∀ location, state.maxPoints ≤ location →
    cells.2 location = state.vectors location

theorem compactPoints_compacted (hnodes : NeighborsAreNodes state) {done : Nat}
    (hdone : done ≤ state.numFrozenPts) :
    ∃ cells, state.compactPoints (state.maxPoints + done) = .ok cells ∧
      Compacted state done cells := by
  induction done with
  | zero =>
    obtain ⟨cells, hcells, hpacked, hcopied⟩ := compactPoints_packed hnodes le_rfl
    refine ⟨cells, hcells, ?_⟩
    constructor
    case lists =>
      intro location hlive
      rw [hlive.renamed_eq]
      exact hpacked.kept location hlive.1 hlive.2
    case frozen => exact fun location hmin hmax => absurd hmax (Nat.not_lt.mpr hmin)
    case vacated => exact hpacked.vacated
    case untouched => exact hpacked.untouched
    case vectors =>
      intro location hlive
      rw [hlive.renamed_eq]
      exact hcopied.kept location hlive.1 hlive.2
    case frozenVectors => exact hcopied.untouched
  | succ done ih =>
    obtain ⟨cells, hcells, hcompacted⟩ := ih (by omega)
    have hfrozen : Frozen state (state.maxPoints + done) := ⟨by omega, by omega⟩
    have hlist : state.renumber (cells.1 (state.maxPoints + done)) =
        .ok (renamedLists state (state.maxPoints + done)) := by
      rw [hcompacted.untouched _ le_rfl]
      exact renumber_eq (hnodes _ (.inr hfrozen))
    have hbelow : ∀ {location}, Live state location →
        renamed state location ≠ state.maxPoints + done := by
      intro location hlive
      have hless := hlive.liveBelow_lt.trans_le (liveBelow_le _)
      rw [hlive.renamed_eq]
      omega
    refine ⟨(Function.update cells.1 (state.maxPoints + done)
      (renamedLists state (state.maxPoints + done)), cells.2), ?_, ?_⟩
    · rw [← Nat.add_assoc, State.compactPoints, hcells]
      change state.compactPoint cells (state.maxPoints + done) = _
      rw [State.compactPoint, newLocation_eq_some.mpr ⟨.inr hfrozen, hfrozen.renamed_eq.symm⟩]
      dsimp only
      rw [hlist]
      exact if_pos rfl
    · constructor
      case lists =>
        intro location hlive
        dsimp only
        rw [Function.update_of_ne (hbelow hlive)]
        exact hcompacted.lists location hlive
      case frozen =>
        intro location hmin hmax
        dsimp only
        by_cases hsame : location = state.maxPoints + done
        · rw [hsame, Function.update_self]
        · rw [Function.update_of_ne hsame]
          exact hcompacted.frozen location hmin (by omega)
      case vacated =>
        intro location hslot hempty
        dsimp only
        rw [Function.update_of_ne (by omega)]
        exact hcompacted.vacated location hslot hempty
      case untouched =>
        intro location hlocation
        dsimp only
        rw [Function.update_of_ne (by omega)]
        exact hcompacted.untouched location (by omega)
      case vectors => exact hcompacted.vectors
      case frozenVectors => exact hcompacted.frozenVectors

end Cells

section Labels

variable {index : Labelled Tag Label Point}

theorem labelsCompacted_succ (count : Nat) :
    index.labelsCompacted (count + 1) = index.moveLabels (index.labelsCompacted count) count := by
  rw [Labelled.labelsCompacted, List.range_succ, List.foldl_append]
  rfl

theorem labelsCompacted_copied (hfiltered : index.filteredIndex = true) {count : Nat}
    (hcount : count ≤ index.maxPoints) :
    Copied (fun location => index.locationToTag.contains location = true) index.locationToLabels
      count (index.labelsCompacted count) := by
  induction count with
  | zero => exact copied_zero
  | succ count ih =>
    have hcopied := ih (by omega)
    rw [labelsCompacted_succ, Labelled.moveLabels]
    by_cases htagged : index.locationToTag.contains count = true
    · have hlive : Live index.toState count := ⟨by omega, htagged⟩
      rw [newLocation_eq_some.mpr ⟨.inl hlive, hlive.renamed_eq.symm⟩]
      dsimp only
      split
      · exact hcopied.step_swapped
      · next hstays =>
          have hsame : liveBelow index.toState count = count := by
            by_contra hmoves
            exact hstays ⟨hmoves, hfiltered⟩
          have hswapped := hcopied.step_swapped
          rw [← liveBelow, hsame, swapCells_self] at hswapped
          exact hswapped
    · cases hnew : index.newLocation count with
      | none => exact hcopied.step_dropped htagged
      | some new =>
        rcases (newLocation_eq_some.mp hnew).1 with hlive | hfrozen
        · exact absurd hlive.2 htagged
        · exact absurd hfrozen.1 (by omega)

theorem labelsCompacted_frozen (done : Nat) :
    index.labelsCompacted (index.maxPoints + done) = index.labelsCompacted index.maxPoints := by
  induction done with
  | zero => rfl
  | succ done ih =>
    rw [← Nat.add_assoc, labelsCompacted_succ, ih, Labelled.moveLabels]
    cases hnew : index.newLocation (index.maxPoints + done) with
    | none => rfl
    | some new =>
      obtain ⟨-, rfl⟩ := newLocation_eq_some.mp hnew
      rw [renamed, if_neg (by omega)]
      exact if_neg fun hmoves => hmoves.1 rfl

end Labels

/-! ## The tags -/

section Tags

variable [DecidableEq Tag] {state : State Tag Label Point} {location other : Nat} {tag : Tag}

/-- The tag of a position and its new location, when it has both. -/
def retagged (state : State Tag Label Point) (old : Nat) : Option (Tag × Nat) :=
  match state.locationToTag.tryGet old, state.newLocation old with
  | some tag, some new => some (tag, new)
  | _, _ => none

omit [DecidableEq Tag] in
theorem retagged_eq_some {new : Nat} :
    retagged state location = some (tag, new) ↔
      state.locationToTag.tryGet location = some tag ∧ Node state location ∧
        new = renamed state location := by
  rw [← newLocation_eq_some, retagged]
  cases state.locationToTag.tryGet location <;> cases state.newLocation location <;> simp

theorem retaggedLocations_eq :
    state.retaggedLocations =
      AssocMap.insertAll (retagged state) state.locationToTag.positions := by
  rw [State.retaggedLocations, AssocMap.insertAll]
  congr 1
  funext located old
  rw [retagged]
  cases state.locationToTag.tryGet old <;> cases state.newLocation old <;> rfl

theorem lookup_retaggedLocations {new : Nat} :
    state.retaggedLocations.lookup tag = some new ↔
      ∃ location, state.locationToTag.tryGet location = some tag ∧ Node state location ∧
        new = renamed state location ∧
        ∀ other, location < other → Node state other →
          state.locationToTag.tryGet other ≠ some tag := by
  have hsorted : state.locationToTag.positions.Pairwise (· < ·) :=
    List.pairwise_lt_range.filter _
  have hmem : ∀ {position}, position ∈ state.locationToTag.positions ↔
      state.locationToTag.contains position = true := by
    intro position
    rw [NaturalNumberMap.positions, List.mem_filter, List.mem_range, and_iff_right_iff_imp]
    exact NaturalNumberMap.lt_of_contains
  rw [retaggedLocations_eq, AssocMap.lookup_insertAll]
  constructor
  · rintro ⟨before, location, after, hpositions, hlocation, hafter⟩
    obtain ⟨htag, hnode, hnew⟩ := retagged_eq_some.mp hlocation
    refine ⟨location, htag, hnode, hnew, fun other hless hother htagged => ?_⟩
    have hpresent : other ∈ before ++ location :: after :=
      hpositions ▸ hmem.mpr (NaturalNumberMap.contains_iff.mpr ⟨tag, htagged⟩)
    rw [hpositions, List.pairwise_append] at hsorted
    rcases List.mem_append.mp hpresent with hearly | hlate
    · exact absurd (hsorted.2.2 other hearly location List.mem_cons_self) (Nat.lt_asymm hless)
    · rcases List.mem_cons.mp hlate with rfl | hlate
      · exact absurd hless (Nat.lt_irrefl _)
      · exact hafter other hlate _ (retagged_eq_some.mpr ⟨htagged, hother, rfl⟩)
  · rintro ⟨location, htag, hnode, hnew, hlast⟩
    obtain ⟨before, after, hpositions⟩ := List.append_of_mem
      (hmem.mpr (NaturalNumberMap.contains_iff.mpr ⟨tag, htag⟩))
    refine ⟨before, location, after, hpositions, retagged_eq_some.mpr ⟨htag, hnode, hnew⟩,
      fun other hother found hfound => ?_⟩
    rw [hpositions, List.pairwise_append, List.pairwise_cons] at hsorted
    obtain ⟨htagged, hotherNode, -⟩ := retagged_eq_some.mp hfound
    exact hlast other (hsorted.2.1.1 other hother) hotherNode htagged

omit [DecidableEq Tag] in
theorem tryGet_setAll {entries : List (Sigma fun _ : Tag => Nat)}
    (hdistinct : (entries.map Sigma.snd).Nodup) (tagged : NaturalNumberMap Tag) :
    (entries.foldl (fun tagged entry => tagged.set entry.2 entry.1) tagged).tryGet location =
        some tag ↔
      ⟨tag, location⟩ ∈ entries ∨
        location ∉ entries.map Sigma.snd ∧ tagged.tryGet location = some tag := by
  induction entries generalizing tagged with
  | nil => simp
  | cons entry entries ih =>
    rw [List.map_cons, List.nodup_cons] at hdistinct
    rw [List.foldl_cons, ih hdistinct.2, NaturalNumberMap.tryGet_set, List.map_cons,
      List.mem_cons, List.mem_cons]
    obtain ⟨key, value⟩ := entry
    by_cases hsame : location = value
    · subst hsame
      have hout : (⟨tag, location⟩ : Sigma fun _ : Tag => Nat) ∉ entries :=
        fun hmem => hdistinct.1 (List.mem_map.mpr ⟨_, hmem, rfl⟩)
      have hfresh : location ∉ entries.map Sigma.snd := hdistinct.1
      simp [hout, hfresh, eq_comm]
    · simp [hsame]

theorem tryGet_retaggedTags :
    (State.retaggedTags state.retaggedLocations).tryGet location = some tag ↔
      state.retaggedLocations.lookup tag = some location := by
  have hdistinct : (state.retaggedLocations.entries.map Sigma.snd).Nodup := by
    refine List.Nodup.map_on ?_ state.retaggedLocations.nodupKeys.nodup
    rintro ⟨first, place⟩ hfirst ⟨second, other⟩ hsecond hsame
    obtain rfl : place = other := hsame
    obtain ⟨source, hsource, hnode, hplace, -⟩ :=
      lookup_retaggedLocations.mp (AssocMap.entry_mem_iff.mp hfirst)
    obtain ⟨target, htarget, hother, hsamePlace, -⟩ :=
      lookup_retaggedLocations.mp (AssocMap.entry_mem_iff.mp hsecond)
    obtain rfl := renamed_inj hnode hother (hplace.symm.trans hsamePlace)
    cases hsource.symm.trans htarget
    rfl
  rw [State.retaggedTags, tryGet_setAll hdistinct, AssocMap.entry_mem_iff]
  simp

end Tags

/-! ## The frozen points there and back -/

section FrozenPoints

variable {index : Labelled Tag Label Point} {assertions filtered down : Bool} {old new count : Nat}

theorem labelledSwapLists_eq (offsets : List Nat) (graph : Nat → List Nat)
    (labels : Nat → List Label) :
    Labelled.swapLists assertions filtered down old new offsets (graph, labels) =
      (State.swapLists assertions down old new offsets graph).map fun graph =>
        (graph, if filtered then swapBlock old new offsets labels else labels) := by
  induction offsets generalizing graph labels with
  | nil =>
    have hlabels : (if filtered then swapBlock old new [] labels else labels) = labels := by
      split <;> rfl
    rw [Labelled.swapLists, State.swapLists, Except.map, hlabels]
  | cons offset offsets ih =>
    rw [Labelled.swapLists, State.swapLists]
    split
    · rfl
    · rw [ih]
      congr 1
      funext graph
      split <;> rfl

theorem swapBlock_eq {Cell : Type} {vacant : Cell} {cells : Nat → Cell} (hne : old ≠ new)
    (hvacant : VacantFor vacant old new count cells) :
    swapBlock old new (if new < old then List.range count else (List.range count).reverse) cells =
      moveBlock vacant old new count cells := by
  rcases Nat.lt_or_gt_of_ne hne with hup | hdown
  · rw [if_neg (by omega), swapBlock_up hup hvacant]
  · rw [if_pos hdown, swapBlock_down hdown hvacant]

theorem labelledRepositionPoints_eq (hne : old ≠ new) (hcount : count ≠ 0)
    (hvacant : VacantFor [] old new count index.graph)
    (hlabels : index.filteredIndex = true → VacantFor [] old new count index.locationToLabels)
    (zero : Point) :
    index.repositionPoints assertions zero old new count =
      ({ index with
          graph := moveBlock [] old new count fun location =>
            (index.graph location).map (State.repointed old new count)
          vectors := moveBlock zero old new count index.vectors
          locationToLabels :=
            if index.filteredIndex then moveBlock [] old new count index.locationToLabels
            else index.locationToLabels }, .ok ()) := by
  have hmapped : VacantFor [] old new count fun location =>
      (index.graph location).map (State.repointed old new count) := by
    intro place hnew hplace hold
    dsimp only
    rw [hvacant place hnew hplace hold, List.map_nil]
  have hlists : State.swapLists assertions (decide (new < old)) old new
      (if new < old then List.range count else (List.range count).reverse)
      (fun location => (index.graph location).map (State.repointed old new count)) =
        .ok (moveBlock [] old new count fun location =>
          (index.graph location).map (State.repointed old new count)) := by
    rcases Nat.lt_or_gt_of_ne hne with hup | hdown
    · rw [if_neg (by omega), swapLists_up hup hmapped]
    · rw [if_pos hdown, swapLists_down hdown hmapped]
  rw [Labelled.repositionPoints, if_neg (by simp [hcount, hne])]
  dsimp only
  rw [labelledSwapLists_eq, hlists, Except.map]
  dsimp only
  by_cases hfiltered : index.filteredIndex = true
  · rw [if_pos hfiltered, if_pos hfiltered, swapBlock_eq hne (hlabels hfiltered)]
  · rw [if_neg hfiltered, if_neg hfiltered]

def frozenMoved (zero : Point) (old new : Nat) (index : Labelled Tag Label Point) :
    Labelled Tag Label Point :=
  { index with
    graph := moveBlock [] old new index.numFrozenPts fun location =>
      (index.graph location).map (State.repointed old new index.numFrozenPts)
    vectors := moveBlock zero old new index.numFrozenPts index.vectors
    locationToLabels :=
      if index.filteredIndex then
        moveBlock [] old new index.numFrozenPts index.locationToLabels
      else index.locationToLabels
    start := new
    labelToStartId :=
      if index.filteredIndex then
        AssocMap.mapValues (fun medoidId => UInt32.ofNat new + (medoidId - UInt32.ofNat old))
          index.labelToStartId
      else index.labelToStartId }

theorem moveStarts_moved (zero : Point) (old new : Nat) (index : Labelled Tag Label Point) :
    Labelled.moveStarts
        { index with
          graph := moveBlock [] old new index.numFrozenPts fun location =>
            (index.graph location).map (State.repointed old new index.numFrozenPts)
          vectors := moveBlock zero old new index.numFrozenPts index.vectors
          locationToLabels :=
            if index.filteredIndex then
              moveBlock [] old new index.numFrozenPts index.locationToLabels
            else index.locationToLabels
          start := new } old new = frozenMoved zero old new index := by
  rw [Labelled.moveStarts, frozenMoved]
  dsimp only
  cases index.filteredIndex <;> rfl

theorem repointed_repointed {neighbor : Nat}
    (hneighbor : neighbor < new ∨ old ≤ neighbor ∧ neighbor < old + count) (hle : new ≤ old) :
    State.repointed new old count (State.repointed old new count neighbor) = neighbor := by
  rcases hneighbor with hbelow | hblock
  · rw [State.repointed, State.repointed, if_neg (show ¬ (old ≤ neighbor ∧ _) by omega),
      if_neg (by omega)]
  · rw [State.repointed, State.repointed, if_pos hblock, if_pos (by omega)]
    omega

theorem frozenMoved_graph (hvacant : VacantFor [] old new index.numFrozenPts index.graph)
    (hle : new ≤ old) {location : Nat}
    (hneighbors : ∀ neighbor ∈ index.graph location,
      neighbor < new ∨ old ≤ neighbor ∧ neighbor < old + index.numFrozenPts) (zero : Point) :
    (frozenMoved zero new old (frozenMoved zero old new index)).graph location =
      index.graph location := by
  have hmap : (fun place => ((frozenMoved zero old new index).graph place).map
      (State.repointed new old index.numFrozenPts)) =
        moveBlock [] old new index.numFrozenPts fun place =>
          ((index.graph place).map (State.repointed old new index.numFrozenPts)).map
            (State.repointed new old index.numFrozenPts) := by
    funext place
    exact @map_moveBlock _ [] old new index.numFrozenPts
      (fun place => (index.graph place).map (State.repointed old new index.numFrozenPts)) _
      (List.map (State.repointed new old index.numFrozenPts)) place
  have hmapped : VacantFor [] old new index.numFrozenPts fun place =>
      ((index.graph place).map (State.repointed old new index.numFrozenPts)).map
        (State.repointed new old index.numFrozenPts) := by
    intro place hplace hend hout
    dsimp only
    rw [hvacant place hplace hend hout, List.map_nil, List.map_nil]
  have hboth : (frozenMoved zero new old (frozenMoved zero old new index)).graph location =
      ((index.graph location).map (State.repointed old new index.numFrozenPts)).map
        (State.repointed new old index.numFrozenPts) :=
    (congrArg (moveBlock [] new old index.numFrozenPts · location) hmap).trans
      (congrFun (moveBlock_moveBlock hmapped) location)
  rw [hboth, List.map_map]
  refine (List.map_congr_left fun neighbor hneighbor => ?_).trans (List.map_id _)
  exact repointed_repointed (hneighbors neighbor hneighbor) hle

/-- The graph as it was, with its vectors, labels and starts. -/
structure Restored (index back : Labelled Tag Label Point) : Prop where
  start : back.start = index.start
  neighbors : ∀ location < index.maxPoints + index.numFrozenPts,
    back.graph location = index.graph location
  vectors : ∀ location, (location < index.nd ∨ Frozen index.toState location) →
    back.vectors location = index.vectors location
  labels : back.locationToLabels = index.locationToLabels
  labelToStartId : back.labelToStartId = index.labelToStartId

/-- The frozen points move behind the live ones and back to the end. -/
def FrozenReturns (assertions : Bool) (zero : Point) (index : Labelled Tag Label Point) : Prop :=
  ∃ moved back, index.compactFrozenPoint assertions zero = (moved, .ok ()) ∧
    moved.repositionFrozenPointToEnd assertions zero = (back, .ok ()) ∧ Restored index back

theorem frozenReturns (hstart : index.start = index.maxPoints) (hroom : index.nd ≤ index.maxPoints)
    (hlists : ∀ location, index.nd ≤ location → location < index.maxPoints →
      index.graph location = [])
    (hlabels : index.filteredIndex = true → ∀ location, index.nd ≤ location →
      location < index.maxPoints → index.locationToLabels location = [])
    (hneighbors : ∀ location < index.maxPoints + index.numFrozenPts,
      ∀ neighbor ∈ index.graph location, neighbor < index.nd ∨ Frozen index.toState neighbor)
    (zero : Point) : FrozenReturns assertions zero index := by
  by_cases hmoves : index.nd < index.maxPoints ∧ 0 < index.numFrozenPts
  · obtain ⟨hless, hfrozen⟩ := hmoves
    have hvacant : ∀ {Cell : Type} {cells : Nat → List Cell},
        (∀ location, index.nd ≤ location → location < index.maxPoints → cells location = []) →
        VacantFor [] index.maxPoints index.nd index.numFrozenPts cells := by
      intro Cell cells hcells place hplace hend hout
      exact hcells place hplace (by omega)
    have hlabels := fun hfiltered => hvacant (hlabels hfiltered)
    have hthere : index.compactFrozenPoint assertions zero =
        (frozenMoved zero index.maxPoints index.nd index, .ok ()) := by
      rw [Labelled.compactFrozenPoint, if_pos ⟨hless, hfrozen⟩,
        labelledRepositionPoints_eq hless.ne' hfrozen.ne' (hvacant hlists) hlabels,
        LabelledOutcome.andThen_ok]
      exact congrArg (·, Except.ok ()) (moveStarts_moved zero index.maxPoints index.nd index)
    have hmoved : (frozenMoved zero index.maxPoints index.nd index).filteredIndex = true →
        VacantFor [] index.nd index.maxPoints index.numFrozenPts
          (frozenMoved zero index.maxPoints index.nd index).locationToLabels := by
      intro hfiltered
      have hfiltered : index.filteredIndex = true := hfiltered
      rw [frozenMoved]
      simp only [hfiltered]
      exact vacantFor_moveBlock
    have hback : (frozenMoved zero index.maxPoints index.nd index).repositionFrozenPointToEnd
        assertions zero = (frozenMoved zero index.nd index.maxPoints
          (frozenMoved zero index.maxPoints index.nd index), .ok ()) := by
      have hmoves : ¬ (index.numFrozenPts = 0 ∨ index.nd = index.maxPoints) :=
        fun hstays => hstays.elim hfrozen.ne' hless.ne
      refine (if_neg hmoves).trans ((congrArg (LabelledOutcome.andThen · _)
        (labelledRepositionPoints_eq hless.ne hfrozen.ne' vacantFor_moveBlock hmoved zero)).trans ?_)
      exact congrArg (·, Except.ok ()) (moveStarts_moved zero index.nd index.maxPoints
        (frozenMoved zero index.maxPoints index.nd index))
    refine ⟨_, _, hthere, hback, hstart.symm, ?_, ?_, ?_, ?_⟩
    · intro location hlocation
      exact frozenMoved_graph (hvacant hlists) hroom (hneighbors location hlocation) zero
    · intro location hlocation
      rcases hlocation with hlive | hfrozen
      · exact (moveBlock_other (by omega) (by omega)).trans (moveBlock_other (by omega) (by omega))
      · obtain ⟨offset, rfl⟩ := Nat.exists_eq_add_of_le hfrozen.1
        have hoffset : offset < index.numFrozenPts := by
          have hend := hfrozen.2
          omega
        exact (moveBlock_new hoffset).trans (moveBlock_new hoffset)
    · rw [frozenMoved, frozenMoved]
      by_cases hfiltered : index.filteredIndex = true
      · simp only [hfiltered]
        exact moveBlock_moveBlock (hlabels hfiltered)
      · simp only [Bool.eq_false_iff.mpr hfiltered]
        rfl
    · rw [frozenMoved, frozenMoved]
      by_cases hfiltered : index.filteredIndex = true
      · simp only [hfiltered, if_true, AssocMap.mapValues_mapValues]
        have hid : (fun medoidId => UInt32.ofNat index.maxPoints + (medoidId - UInt32.ofNat index.nd)) ∘
            (fun medoidId => UInt32.ofNat index.nd + (medoidId - UInt32.ofNat index.maxPoints)) =
              id := by
          funext medoidId
          simp only [Function.comp, id]
          grind
        rw [hid, AssocMap.mapValues_id]
      · simp only [Bool.eq_false_iff.mpr hfiltered]
        rfl
  · refine ⟨index, index, if_neg hmoves, if_pos (by omega), rfl, fun _ _ => rfl, fun _ _ => rfl,
      rfl, rfl⟩

end FrozenPoints

/-! ## Renumbering -/

section Renumbering

variable {index next : Labelled Tag Label Point}

/-- What a compaction finds: nothing is deleted, it was not compacted since the last deletion,
searches start at the frozen points, and no list of a node names an empty slot. -/
structure Compactable (index : Labelled Tag Label Point) : Prop where
  deleted : index.deleteSet = ∅
  scattered : index.dataCompacted = false
  start : index.start = index.maxPoints
  neighbors : NeighborsAreNodes index.toState

/-- `next` is `index` with its nodes renumbered, and nothing else. -/
structure Renumbers [DecidableEq Tag] (index next : Labelled Tag Label Point) : Prop where
  order : StrictMonoOn (renamed index.toState) {location | Live index.toState location}
  onto : Set.BijOn (renamed index.toState) {location | Live index.toState location}
    (Set.Iio index.nd)
  frozen : ∀ location, Frozen index.toState location → renamed index.toState location = location
  vectors : ∀ location, Node index.toState location →
    next.vectors (renamed index.toState location) = index.vectors location
  neighbors : ∀ location, Node index.toState location →
    next.graph (renamed index.toState location) =
      (index.graph location).map (renamed index.toState)
  labels : index.filteredIndex = true → ∀ location, Node index.toState location →
    next.locationToLabels (renamed index.toState location) = index.locationToLabels location
  tags : ∀ location, Live index.toState location →
    next.locationToTag.tryGet (renamed index.toState location) =
      index.locationToTag.tryGet location
  slots : ∀ location, location ∈ next.emptySlots.values ↔
    index.nd ≤ location ∧ location < index.maxPoints
  cleared : ∀ location, index.nd ≤ location → location < index.maxPoints →
    next.locationToTag.contains location = false ∧ next.graph location = [] ∧
      (index.filteredIndex = true → next.locationToLabels location = [])
  inverse : ∀ location tag, next.locationToTag.tryGet location = some tag ↔
    next.tagToLocation.lookup tag = some location

/-- No other node has the tag of a live one. -/
def TagsDistinct (state : State Tag Label Point) : Prop :=
  ∀ location other tag, Live state location → Node state other →
    state.locationToTag.tryGet location = some tag →
    state.locationToTag.tryGet other = some tag → other = location

variable [DecidableEq Tag]

theorem compactData_eq (hstate : Compactable index) :
    ∃ cells, Compacted index.toState index.numFrozenPts cells ∧
      index.compactData =
        ({ index with
            tagToLocation := index.retaggedLocations
            locationToTag := State.retaggedTags index.retaggedLocations
            graph := fun location =>
              if index.nd ≤ location ∧ location < index.maxPoints then [] else cells.1 location
            vectors := cells.2
            locationToLabels := fun location =>
              if index.filteredIndex ∧ index.nd ≤ location ∧ location < index.maxPoints then []
              else index.labelsCompacted index.maxPoints location
            emptySlots := insertSlots {} index.nd index.maxPoints
            dataCompacted := true }, .ok ()) := by
  obtain ⟨cells, hcells, hcompacted⟩ := compactPoints_compacted hstate.neighbors le_rfl
  refine ⟨cells, hcompacted, ?_⟩
  have hstart : ¬ (index.start < index.maxPoints ∧
      ¬ index.locationToTag.contains index.start = true) := by
    rw [hstate.start]
    exact fun hless => Nat.lt_irrefl _ hless.1
  rw [Labelled.compactData, hstate.scattered, if_neg (by simp), if_neg (by simp [hstate.deleted]),
    if_neg hstart, Labelled.compactPoints_eq, hcells, Except.map, labelsCompacted_frozen]

theorem Renumbers.liveBelow_eq (hrenumbers : Renumbers index next) :
    liveBelow index.toState index.maxPoints = index.nd := by
  rcases Nat.lt_trichotomy (liveBelow index.toState index.maxPoints) index.nd with
    hless | hsame | hmore
  · obtain ⟨location, hlive, hplace⟩ := hrenumbers.onto.surjOn hless
    have hbelow := Live.liveBelow_lt hlive
    rw [← Live.renamed_eq hlive, hplace] at hbelow
    exact absurd hbelow (Nat.lt_irrefl _)
  · exact hsame
  · obtain ⟨location, hlive, hplace⟩ := exists_live hmore
    have hbelow := hrenumbers.onto.mapsTo hlive
    rw [hplace] at hbelow
    exact absurd hbelow (Nat.lt_irrefl _)

theorem tagsDistinct_of_kept
    (htags : ∀ location, Live index.toState location →
      (State.retaggedTags index.retaggedLocations).tryGet (renamed index.toState location) =
        index.locationToTag.tryGet location) : TagsDistinct index.toState := by
  have hlast : ∀ {location tag}, Live index.toState location →
      index.locationToTag.tryGet location = some tag → ∀ other, location < other →
      Node index.toState other → index.locationToTag.tryGet other ≠ some tag := by
    intro location tag hlive htag
    obtain ⟨source, -, hsource, hplace, hlast⟩ := lookup_retaggedLocations.mp
      (tryGet_retaggedTags.mp ((htags location hlive).trans htag))
    rw [renamed_inj (.inl hlive) hsource hplace]
    exact hlast
  intro location other tag hlive hother htag htagged
  rcases Nat.lt_trichotomy other location with hless | hsame | hmore
  · rcases hother with hotherLive | hfrozen
    · exact absurd htag (hlast hotherLive htagged location hless (.inl hlive))
    · exact absurd (hfrozen.1.trans_lt hless) (Nat.lt_asymm hlive.1)
  · exact hsame
  · exact absurd htagged (hlast hlive htag other hmore hother)

theorem compactData_renumbers (hstate : Compactable index)
    (hcount : liveBelow index.toState index.maxPoints = index.nd)
    (hdistinct : TagsDistinct index.toState) (assertions : Bool) (zero : Point) :
    ∃ next, index.compactData = (next, .ok ()) ∧ Renumbers index next ∧
      FrozenReturns assertions zero next := by
  obtain ⟨cells, hcompacted, hcompact⟩ := compactData_eq hstate
  have hbelow : ∀ {location}, Live index.toState location →
      renamed index.toState location < index.nd := by
    intro location hlive
    rw [hlive.renamed_eq, ← hcount]
    exact hlive.liveBelow_lt
  have hroom : index.nd ≤ index.maxPoints := hcount ▸ liveBelow_le _
  -- A node does not lie where the cells are cleared.
  have hout : ∀ {location}, Node index.toState location →
      ¬ (index.nd ≤ renamed index.toState location ∧
        renamed index.toState location < index.maxPoints) := by
    rintro location (hlive | hfrozen)
    · have hless := hbelow hlive
      omega
    · rw [hfrozen.renamed_eq]
      exact fun hslot => Nat.not_lt.mpr hfrozen.1 hslot.2
  have hlists : ∀ {location}, Node index.toState location →
      cells.1 (renamed index.toState location) = renamedLists index.toState location := by
    rintro location (hlive | hfrozen)
    · exact hcompacted.lists location hlive
    · rw [hfrozen.renamed_eq]
      exact hcompacted.frozen location hfrozen.1 hfrozen.2
  refine ⟨_, hcompact, ?_, ?_⟩
  · constructor
    case order => exact liveBelow_strictMonoOn
    case onto =>
      refine ⟨fun location hlive => hbelow hlive, liveBelow_strictMonoOn.injOn, fun place hplace => ?_⟩
      exact exists_live (hcount ▸ hplace)
    case frozen => exact fun location hfrozen => hfrozen.renamed_eq
    case vectors =>
      rintro location (hlive | hfrozen)
      · exact hcompacted.vectors location hlive
      · rw [hfrozen.renamed_eq]
        exact hcompacted.frozenVectors location hfrozen.1
    case neighbors => exact fun location hnode => (if_neg (hout hnode)).trans (hlists hnode)
    case labels =>
      intro hfiltered location hnode
      have hcopied := labelsCompacted_copied hfiltered le_rfl
      refine (if_neg fun hcleared => hout hnode hcleared.2).trans ?_
      rcases hnode with hlive | hfrozen
      · rw [hlive.renamed_eq]
        exact hcopied.kept location hlive.1 hlive.2
      · rw [hfrozen.renamed_eq]
        exact hcopied.untouched location hfrozen.1
    case tags =>
      intro location hlive
      obtain ⟨tag, htag⟩ := NaturalNumberMap.contains_iff.mp hlive.2
      rw [htag]
      refine tryGet_retaggedTags.mpr (lookup_retaggedLocations.mpr
        ⟨location, htag, .inl hlive, rfl, fun other hmore hother htagged => ?_⟩)
      exact hmore.ne' (hdistinct location other tag hlive hother htag htagged)
    case slots =>
      intro location
      rw [(insertSlots_spec NaturalNumberSet.valid_empty (by simp) (by simp) hroom).2.2,
        List.nil_append, List.mem_range'_1]
      omega
    case cleared =>
      intro location hmin hmax
      refine ⟨?_, if_pos ⟨hmin, hmax⟩, fun hfiltered => if_pos ⟨hfiltered, hmin, hmax⟩⟩
      rw [Bool.eq_false_iff]
      intro hcontains
      obtain ⟨tag, htag⟩ := NaturalNumberMap.contains_iff.mp hcontains
      obtain ⟨source, -, hnode, rfl, -⟩ :=
        lookup_retaggedLocations.mp (tryGet_retaggedTags.mp htag)
      exact hout hnode ⟨hmin, hmax⟩
    case inverse => exact fun location tag => tryGet_retaggedTags
  · apply frozenReturns
    case hstart => exact hstate.start
    case hroom => exact hroom
    case hlists => exact fun location hmin hmax => if_pos ⟨hmin, hmax⟩
    case hlabels => exact fun hfiltered location hmin hmax => if_pos ⟨hfiltered, hmin, hmax⟩
    -- Every list is one of a node, renumbered, or cleared.
    intro location hlocation neighbor hneighbor
    change neighbor ∈ (if index.nd ≤ location ∧ location < index.maxPoints then []
      else cells.1 location) at hneighbor
    split at hneighbor
    · cases hneighbor
    · next hkept =>
        obtain ⟨node, hnode, rfl⟩ : ∃ node, Node index.toState node ∧
            renamed index.toState node = location := by
          by_cases hslot : location < index.maxPoints
          · obtain ⟨node, hlive, hplace⟩ :=
              @exists_live _ _ _ index.toState location (by omega)
            exact ⟨node, .inl hlive, hplace⟩
          · have hfrozen : Frozen index.toState location := ⟨Nat.not_lt.mp hslot, hlocation⟩
            exact ⟨location, .inr hfrozen, hfrozen.renamed_eq⟩
        rw [hlists hnode, renamedLists] at hneighbor
        obtain ⟨old, hold, rfl⟩ := List.mem_map.mp hneighbor
        rcases hstate.neighbors node hnode old hold with hlive | hfrozen
        · exact .inl (hbelow hlive)
        · rw [hfrozen.renamed_eq]
          exact .inr hfrozen

/-- A compaction renumbers the nodes exactly when the index counts its live slots and their tags
are distinct. -/
theorem compactData_renumbers_iff (hstate : Compactable index) (assertions : Bool) (zero : Point) :
    (∃ next, index.compactData = (next, .ok ()) ∧ Renumbers index next ∧
        FrozenReturns assertions zero next) ↔
      liveBelow index.toState index.maxPoints = index.nd ∧ TagsDistinct index.toState := by
  constructor
  · rintro ⟨next, hcompact, hrenumbers, -⟩
    refine ⟨hrenumbers.liveBelow_eq, tagsDistinct_of_kept fun location hlive => ?_⟩
    obtain ⟨cells, -, hresult⟩ := compactData_eq hstate
    obtain ⟨rfl, -⟩ := Prod.ext_iff.mp (hcompact.symm.trans hresult)
    exact hrenumbers.tags location hlive
  · rintro ⟨hcount, hdistinct⟩
    exact compactData_renumbers hstate hcount hdistinct assertions zero

end Renumbering

/-- After the deletion of a tag that is not there, the one point is to move down. -/
def oneScattered : Labelled Nat Nat Unit := oneLabelled.perform true () (.slots (.lazyDelete 9))

/-- Before that, a label was refused. -/
def oneMiscounted : Labelled Nat Nat Unit :=
  (oneLabelled.perform true () (.slots (.insertPoint () 6 [2] fun _ => []))).perform true ()
    (.slots (.lazyDelete 9))

theorem oneScattered_live {location : Nat} (hlive : Live oneScattered.toState location) :
    location = 1 := by
  obtain ⟨hslot, htagged⟩ := hlive
  have hslot : location < 2 := hslot
  rcases Nat.lt_succ_iff_lt_or_eq.mp hslot with hzero | hone
  · obtain rfl : location = 0 := by omega
    cases htagged
  · exact hone

theorem compactData_renumbers_iff_one :
    ∃ next, oneScattered.compactData = (next, .ok ()) ∧ Renumbers oneScattered next ∧
      FrozenReturns true () next := by
  have hstate : Compactable oneScattered := ⟨rfl, rfl, rfl, fun _ _ _ hneighbor => by cases hneighbor⟩
  refine (compactData_renumbers_iff hstate true ()).mpr ⟨by decide, ?_⟩
  intro location other tag hlive hother htag htagged
  obtain rfl := oneScattered_live hlive
  rcases hother with hother | ⟨hmin, hmax⟩
  · exact oneScattered_live hother
  · have hmin : 2 ≤ other := hmin
    have hmax : other < 2 + 1 := hmax
    obtain rfl : other = 2 := by omega
    cases htagged

/-- A refused label leaves a slot that counts and is not live. -/
theorem compactData_not_renumbers :
    ¬ ∀ index : Labelled Nat Nat Unit, filteredHistory.Reachable index → Compactable index →
      ∃ next, index.compactData = (next, .ok ()) ∧ Renumbers index next ∧
        FrozenReturns true () next := by
  intro hall
  have hrefused := oneLabelled_reachable.performed
    (show LabelledPermitted oneLabelled (.slots (.insertPoint () 6 [2] fun _ => [])) from trivial)
  have hreach : filteredHistory.Reachable oneMiscounted :=
    hrefused.performed (show LabelledPermitted _ (.slots (.lazyDelete 9)) from trivial)
  have hstate : Compactable oneMiscounted :=
    ⟨rfl, rfl, rfl, fun _ _ _ hneighbor => by cases hneighbor⟩
  obtain ⟨next, -, hrenumbers, -⟩ := hall oneMiscounted hreach hstate
  exact absurd hrenumbers.liveBelow_eq (by decide)

end SkipCell.Vamana

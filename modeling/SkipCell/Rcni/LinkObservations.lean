import SkipCell.Foundation.Transition
import SkipCell.Rcni.Aggregator
import SkipCell.Vamana.StaticLink

/-! # What a link observes

With an observer, the search of every linked node also notes which selected candidates occlude
the others, and hands the events to the aggregator that the index was attached to. The
aggregator is prepared for the loaded points alone, and only when it is attached.
-/

/-! ## Events of one pruning -/

namespace SkipCell.Vamana

open Foundation

universe uDistance uFactor uLabel

variable {Distance : Type uDistance} {Factor : Type uFactor} {Label : Type uLabel}
  [LinearOrder Distance] [LinearOrder Factor] [DecidableEq Label]

/-- `rcni_causal_witness_t`, once it has a witness. -/
structure CausalWitness (Distance : Type uDistance) (Factor : Type uFactor) where
  witnessId : Nat
  witnessVictimDistance : Distance
  occlusionFactor : Factor

/-- `update_rcni_causal_witness` -/
def updateCausalWitness (state : Option (CausalWitness Distance Factor))
    (witness : CausalWitness Distance Factor) : Option (CausalWitness Distance Factor) :=
  match state with
  | none => some witness
  | some old =>
    if old.occlusionFactor < witness.occlusionFactor ∨
        witness.occlusionFactor = old.occlusionFactor ∧ witness.witnessId < old.witnessId then
      some witness
    else some old

omit [LinearOrder Distance] in
theorem mem_updateCausalWitness {state : Option (CausalWitness Distance Factor)}
    {witness after : CausalWitness Distance Factor}
    (hafter : updateCausalWitness state witness = some after) :
    after = witness ∨ state = some after := by
  unfold updateCausalWitness at hafter
  split at hafter
  · exact .inl (Option.some.inj hafter).symm
  · split at hafter
    · exact .inl (Option.some.inj hafter).symm
    · exact .inr hafter

/-- `rcni_prune_event_t` -/
structure LinkEvent (Distance : Type uDistance) where
  sourceId : Nat
  witnessId : Nat
  victimId : Nat
  sourceVictimDistance : Distance
  witnessVictimDistance : Distance
  alternative : Option (Nat × Distance) := none

namespace Space

variable (space : Space Distance Factor Label)

/-- The witnesses of the candidates behind a selected one. -/
def noteWitnesses (alpha : Alpha Factor) (_ : Factor) (place : Nat)
    (occluder : Candidate Nat Distance) (cells : List (Candidate Nat Distance × Factor))
    (notes : List (Option (CausalWitness Distance Factor))) :
    List (Option (CausalWitness Distance Factor)) :=
  notes.mapIdx fun other witness =>
    match cells[other]? with
    | none => witness
    | some (candidate, factor) =>
      if place < other ∧ ¬ alpha.value < factor ∧
          space.pruneAllowed occluder.id candidate.id = true ∧
          space.distMetric ≠ .innerProduct then
        let djk := space.getDistance candidate.id occluder.id
        updateCausalWitness witness ⟨occluder.id, djk, space.candidateFactor candidate djk⟩
      else witness

/-- The event of a candidate that some selected one occludes beyond `alpha`. -/
def pruneEvent (location : Nat) (alpha : Alpha Factor) (result : List Nat)
    (candidate : Candidate Nat Distance) (witness : Option (CausalWitness Distance Factor)) :
    Option (LinkEvent Distance) :=
  match witness with
  | none => none
  | some witness =>
    if witness.occlusionFactor ≤ alpha.value ∨ candidate.id ∈ result then none
    else
      some ⟨location, witness.witnessId, candidate.id, candidate.distance,
        witness.witnessVictimDistance, none⟩

/-- `occlude_list_impl<true>` of a sorted pool. -/
def occludeListObserved (location : Nat) (pool : List (Candidate Nat Distance))
    (alpha : Alpha Factor) (degree maxc : Nat) : List Nat × List (LinkEvent Distance) :=
  if pool.isEmpty then ([], [])
  else
    let pool := pool.take maxc
    let noted := Occlusion.selectNoting (space.noteWitnesses alpha) (space.occlusion alpha) degree
      (fun candidate => candidate.id ∉ (∅ : Finset Nat) ∧ candidate.id ≠ location) pool
      (List.replicate pool.length none)
    let result := noted.1.map Candidate.id
    (result, (pool.zip noted.2).filterMap fun entry =>
      pruneEvent location alpha result entry.1 entry.2)

/-- The neighbor next to the victim beside the witness. -/
def nearestAlternative (pruned : List Nat) (event : LinkEvent Distance) :
    Option (Nat × Distance) :=
  pruned.foldl (fun alternative neighbor =>
    if neighbor = event.witnessId then alternative
    else
      let victimDistance := space.getDistance event.victimId neighbor
      match alternative with
      | none => some (neighbor, victimDistance)
      | some (node, distance) =>
        if victimDistance < distance ∨ victimDistance = distance ∧ neighbor < node then
          some (neighbor, victimDistance)
        else some (node, distance)) event.alternative

/-- `prune_neighbors_impl<true>`. Nothing is observed of an empty pool. -/
def pruneNeighborsObserved (location : Nat) (pool : List (Candidate Nat Distance))
    (range maxCandidateSize : Nat) (alpha : Alpha Factor) :
    List Nat × Option (List (LinkEvent Distance)) :=
  if pool.isEmpty then ([], none)
  else
    let sorted := (space.actual location pool).insertionSort Candidate.Before
    let (pruned, events) := space.occludeListObserved location sorted alpha range maxCandidateSize
    let pruned :=
      if space.saturateGraph ∧ space.floats.one < alpha.value then
        saturate location range (sorted.take maxCandidateSize) pruned
      else pruned
    (pruned, some ((events.filter fun event => event.victimId ∉ pruned).map fun event =>
      { event with alternative := space.nearestAlternative pruned event }))

variable {space}

theorem occludeListObserved_fst (location : Nat) (pool : List (Candidate Nat Distance))
    (alpha : Alpha Factor) (degree maxc : Nat) :
    (space.occludeListObserved location pool alpha degree maxc).1 =
      space.occludeList location pool alpha degree maxc ∅ := by
  rw [occludeListObserved, occludeList]
  split
  · rfl
  · exact congrArg (List.map Candidate.id) (Occlusion.selectNoting_fst _ _)

theorem pruneNeighborsObserved_fst (location : Nat) (pool : List (Candidate Nat Distance))
    (range maxc : Nat) (alpha : Alpha Factor) :
    (space.pruneNeighborsObserved location pool range maxc alpha).1 =
      space.pruneNeighbors location pool range maxc alpha := by
  rw [pruneNeighborsObserved, pruneNeighbors]
  split
  · rfl
  · dsimp only
    rw [occludeListObserved_fst]

variable {valid : Nat → Prop} {measured : Distance → Prop} {location range maxc : Nat}
  {pool : List (Candidate Nat Distance)}

/-- The distances that events are made of; there are none with inner products. -/
def Measures (space : Space Distance Factor Label) (valid : Nat → Prop)
    (measured : Distance → Prop) : Prop :=
  space.distMetric ≠ .innerProduct → ∀ first second, valid first → valid second →
    measured (space.getDistance first second)

/-- Witnesses are valid nodes at measured distances. -/
def Witnessed (space : Space Distance Factor Label) (valid : Nat → Prop)
    (measured : Distance → Prop) (notes : List (Option (CausalWitness Distance Factor))) : Prop :=
  ∀ witness : CausalWitness Distance Factor, some witness ∈ notes →
    space.distMetric ≠ .innerProduct ∧ valid witness.witnessId ∧
      measured witness.witnessVictimDistance

theorem noteWitnesses_keeps (hmeasures : space.Measures valid measured) (alpha : Alpha Factor)
    (hpool : ∀ candidate ∈ pool, valid candidate.id) (round : Factor) (place : Nat)
    {occluder : Candidate Nat Distance} {cells : List (Candidate Nat Distance × Factor)}
    {notes : List (Option (CausalWitness Distance Factor))} (hoccluder : occluder ∈ pool)
    (hcells : cells.map Prod.fst = pool)
    (hnotes : space.Witnessed valid measured notes) :
    space.Witnessed valid measured
      (space.noteWitnesses alpha round place occluder cells notes) := by
  intro witness hwitness
  obtain ⟨other, hother, hnote⟩ := List.mem_mapIdx.mp hwitness
  have hold := List.getElem_mem hother
  split at hnote
  · exact hnotes witness (hnote ▸ hold)
  · next candidate factor hcell =>
      split at hnote
      · next hoccludes =>
          rcases mem_updateCausalWitness hnote with rfl | hsame
          · have hcandidate : candidate ∈ pool :=
              hcells ▸ List.mem_map_of_mem (List.mem_of_getElem? hcell)
            exact ⟨hoccludes.2.2.2, hpool occluder hoccluder, hmeasures hoccludes.2.2.2 _ _
              (hpool candidate hcandidate) (hpool occluder hoccluder)⟩
          · exact hnotes witness (hsame ▸ hold)
      · exact hnotes witness (hnote ▸ hold)

/-- An event of a location, among valid nodes and of measured distances. -/
structure Within (valid : Nat → Prop) (measured : Distance → Prop) (location : Nat)
    (event : LinkEvent Distance) : Prop where
  source : event.sourceId = location
  witness : valid event.witnessId
  victim : valid event.victimId
  sourceDistance : measured event.sourceVictimDistance
  witnessDistance : measured event.witnessVictimDistance
  alternative : ∀ node distance, event.alternative = some (node, distance) →
    valid node ∧ measured distance

theorem occludeListObserved_within (hmeasures : space.Measures valid measured)
    (alpha : Alpha Factor) (hpool : ∀ candidate ∈ pool, valid candidate.id)
    (hdistances : space.distMetric ≠ .innerProduct → ∀ candidate ∈ pool,
      measured candidate.distance) :
    ∀ event ∈ (space.occludeListObserved location pool alpha range maxc).2,
      space.distMetric ≠ .innerProduct ∧ Within valid measured location event := by
  intro event hevent
  rw [occludeListObserved] at hevent
  split at hevent
  · cases hevent
  · obtain ⟨⟨candidate, note⟩, hentry, hprune⟩ := List.mem_filterMap.mp hevent
    have htaken : ∀ candidate ∈ pool.take maxc, candidate ∈ pool := fun _ => List.mem_of_mem_take
    have hcandidate := htaken candidate (List.of_mem_zip hentry).1
    have hnotes : space.Witnessed valid measured (Occlusion.selectNoting
        (space.noteWitnesses alpha) (space.occlusion alpha) range
        (fun candidate => candidate.id ∉ (∅ : Finset Nat) ∧ candidate.id ≠ location)
        (pool.take maxc) (List.replicate (pool.take maxc).length none)).2 := by
      refine Occlusion.selectNoting_keeps (space.Witnessed valid measured)
        (by simp [Witnessed]) ?_
      intro round place item cells notes hitem hcells
      exact noteWitnesses_keeps hmeasures alpha (fun candidate hmem => hpool candidate (htaken _ hmem))
        round place hitem hcells
    cases note with
    | none => cases hprune
    | some witness =>
      dsimp only [pruneEvent] at hprune
      split at hprune
      · cases hprune
      · obtain ⟨hmetric, hwitness, hdistance⟩ := hnotes witness (List.of_mem_zip hentry).2
        obtain rfl := Option.some.inj hprune
        exact ⟨hmetric, rfl, hwitness, hpool candidate hcandidate,
          hdistances hmetric candidate hcandidate, hdistance, by simp⟩

omit [DecidableEq Label] in
theorem nearestAlternative_within {event : LinkEvent Distance} {pruned : List Nat}
    (hmeasured : ∀ neighbor ∈ pruned, valid neighbor ∧
      measured (space.getDistance event.victimId neighbor))
    (hevent : ∀ node distance, event.alternative = some (node, distance) →
      valid node ∧ measured distance) :
    ∀ node distance, space.nearestAlternative pruned event = some (node, distance) →
      valid node ∧ measured distance := by
  refine List.foldlRecOn (motive := fun alternative : Option (Nat × Distance) =>
    ∀ node distance, alternative = some (node, distance) → valid node ∧ measured distance)
    _ _ hevent ?_
  intro alternative halternative neighbor hneighbor node distance hsome
  split at hsome
  · exact halternative node distance hsome
  · split at hsome
    · obtain ⟨rfl, rfl⟩ := Prod.mk.inj (Option.some.inj hsome)
      exact hmeasured neighbor hneighbor
    · dsimp only at hsome
      split at hsome
      · obtain ⟨rfl, rfl⟩ := Prod.mk.inj (Option.some.inj hsome)
        exact hmeasured neighbor hneighbor
      · exact halternative node distance hsome

theorem pruneNeighborsObserved_within (hmeasures : space.Measures valid measured)
    (alpha : FiniteAlpha space.floats) (hnodup : (pool.map Candidate.id).Nodup)
    (hpool : ∀ candidate ∈ pool, valid candidate.id) (hlocation : valid location)
    (hdistances : space.distMetric ≠ .innerProduct → ∀ candidate ∈ pool,
      measured candidate.distance)
    {events : List (LinkEvent Distance)}
    (hevents : (space.pruneNeighborsObserved location pool range maxc alpha.toAlpha).2 = some events) :
    ∀ event ∈ events, Within valid measured location event := by
  have hpruned : ∀ neighbor ∈ (space.pruneNeighborsObserved location pool range maxc
      alpha.toAlpha).1, valid neighbor := by
    intro neighbor hneighbor
    rw [pruneNeighborsObserved_fst] at hneighbor
    obtain ⟨candidate, hcandidate, rfl⟩ := List.mem_map.mp
      ((pruneNeighbors_spec alpha hnodup location range maxc).2.2.1 neighbor hneighbor)
    exact hpool candidate hcandidate
  have hactual : ∀ candidate ∈ (space.actual location pool).insertionSort Candidate.Before,
      valid candidate.id ∧ (space.distMetric ≠ .innerProduct → measured candidate.distance) := by
    intro candidate hcandidate
    replace hcandidate := (List.mem_insertionSort _).mp hcandidate
    rw [actual] at hcandidate
    split at hcandidate
    · obtain ⟨old, hold, rfl⟩ := List.mem_map.mp hcandidate
      exact ⟨hpool old hold, fun hmetric => hmeasures hmetric _ _ (hpool old hold) hlocation⟩
    · exact ⟨hpool candidate hcandidate, fun hmetric => hdistances hmetric candidate hcandidate⟩
  unfold pruneNeighborsObserved at hevents hpruned
  split at hevents
  · cases hevents
  · next hsome =>
      rw [if_neg hsome] at hpruned
      obtain rfl := Option.some.inj hevents
      intro event hevent
      obtain ⟨old, hold, rfl⟩ := List.mem_map.mp hevent
      obtain ⟨hmetric, hwithin⟩ := occludeListObserved_within hmeasures alpha.toAlpha
        (fun candidate hmem => (hactual candidate hmem).1)
        (fun hmetric candidate hmem => (hactual candidate hmem).2 hmetric) old
        (List.mem_of_mem_filter hold)
      exact
        { hwithin with
          alternative := nearestAlternative_within (fun neighbor hneighbor =>
            ⟨hpruned neighbor hneighbor, hmeasures hmetric _ _ hwithin.victim
              (hpruned neighbor hneighbor)⟩) hwithin.alternative }

end Space

end SkipCell.Vamana

/-! ## The calls of a build -/

namespace SkipCell.Rcni

open Foundation

universe uDistance uFactor uLabel

/-- A distance that the credit formula takes. -/
def Accepts (distance : Single) : Prop := distance.isFinite = true ∧ ¬ distance < .zero

/-- An event that the aggregator takes from a source. -/
structure AcceptedEvent (sourceCount source : Nat) (event : PruneEvent) : Prop where
  source : event.sourceId = source
  witness : event.witnessId < sourceCount
  victim : event.victimId < sourceCount
  sourceDistance : Accepts event.sourceVictimDistance
  witnessDistance : Accepts event.witnessVictimDistance
  alternative : ∀ neighbor, event.alternative = some neighbor →
    neighbor.nodeId < sourceCount ∧ Accepts neighbor.victimDistance

namespace Aggregator

variable {Log : Type} (folds : Folds Log)

/-- Calls one after the other, up to one that throws. -/
def observeUntil : List Call → Aggregator → Except Error Unit × Aggregator
  | [], aggregator => (.ok (), aggregator)
  | call :: calls, aggregator =>
    match aggregator.observeSource folds call.source call.events with
    | (.error failure, next) => (.error failure, next)
    | (.ok (), next) => observeUntil calls next

variable {folds} {aggregator : Aggregator} {source : Nat} {events : List PruneEvent}

theorem Reachable.parameters (hreachable : Reachable folds aggregator) :
    ¬ (aggregator.alpha.isFinite = false ∨ aggregator.alpha < .one) ∧
      ¬ (aggregator.epsilon.isFinite = false ∨ aggregator.epsilon ≤ .zero) := by
  induction hreachable with
  | create hcreate =>
    simp only [Aggregator.create, bind_ok, reject_ok, exists_const, Except.ok.injEq] at hcreate
    obtain ⟨halpha, hepsilon, rfl⟩ := hcreate
    exact ⟨halpha, hepsilon⟩
  | prepare _ hprepare ih =>
    simp only [Aggregator.prepare, bind_ok, reject_ok, exists_const, Except.ok.injEq] at hprepare
    obtain ⟨-, rfl⟩ := hprepare
    exact ih
  | observe source events _ ih =>
    rename_i aggregator _
    rcases observeSource_cases folds aggregator source events with
      ⟨failure, -, hobserve⟩ | ⟨marked, hbegin, hfinish⟩
    · rwa [hobserve]
    · obtain ⟨-, -, -, rfl⟩ := beginSource_eq_ok.mp hbegin
      rcases hfinish with ⟨failure, -, hobserve⟩ | ⟨observed, hfinish, hobserve⟩
      · rwa [hobserve]
      · obtain ⟨contributions, -, rfl⟩ := finishSource_eq_ok.mp hfinish
        rwa [hobserve]

theorem validate_eq_ok {distance : Single} (haccepts : Accepts distance) :
    validateAndConvertDistance distance .squaredL2 = .ok distance.sqrt := by
  have hnot : ¬ (distance.isFinite = false ∨ distance < .zero) := by
    rw [haccepts.1]
    simpa using haccepts.2
  rw [validateAndConvertDistance, reject, if_neg hnot]
  rfl

theorem considerNeighbor_eq_ok {input : EventInput} {neighbor : NeighborDistance}
    (hsemantics : input.distanceSemantics = .squaredL2)
    (haccepts : Accepts neighbor.victimDistance) (alternative : Alternative) :
    ∃ next, considerNeighbor input neighbor alternative = .ok next := by
  rw [considerNeighbor, hsemantics, validate_eq_ok haccepts]
  simp only [bind_ok, Except.ok.injEq, exists_eq_left']
  split
  · exact ⟨_, rfl⟩
  · split
    · exact ⟨_, rfl⟩
    · split <;> exact ⟨_, rfl⟩

theorem computeRcniEventCredit_eq_ok {input : EventInput}
    (halpha : ¬ (input.alpha.isFinite = false ∨ input.alpha < .one))
    (hepsilon : ¬ (input.epsilon.isFinite = false ∨ input.epsilon ≤ .zero))
    (hsemantics : input.distanceSemantics = .squaredL2)
    (hsource : Accepts input.sourceVictimDistance) (hwitness : Accepts input.witnessVictimDistance)
    (hneighbors : ∀ neighbor ∈ input.selectedNeighbors, Accepts neighbor.victimDistance) :
    ∃ credit, computeRcniEventCredit input = .ok credit := by
  have hscan : ∀ (neighbors : List NeighborDistance) position alternative,
      (∀ neighbor ∈ neighbors, Accepts neighbor.victimDistance) →
      ∃ next, scan (fun _ => considerNeighbor input) position neighbors alternative = .ok next := by
    intro neighbors
    induction neighbors with
    | nil => exact fun _ alternative _ => ⟨alternative, rfl⟩
    | cons neighbor neighbors ih =>
      intro position alternative haccepts
      obtain ⟨next, hnext⟩ :=
        considerNeighbor_eq_ok hsemantics (haccepts neighbor List.mem_cons_self) alternative
      obtain ⟨last, hlast⟩ :=
        ih (position + 1) next fun other hother => haccepts other (List.mem_cons_of_mem _ hother)
      exact ⟨last, bind_ok.mpr ⟨next, hnext, hlast⟩⟩
  obtain ⟨alternative, halternative⟩ := hscan input.selectedNeighbors 0 none hneighbors
  rw [computeRcniEventCredit, reject, if_neg halpha, reject, if_neg hepsilon, hsemantics,
    validate_eq_ok hsource, validate_eq_ok hwitness, halternative]
  simp only [bind_ok, Except.ok.injEq, exists_eq_left', exists_const]
  split
  · exact ⟨_, trivial, trivial, rfl⟩
  · exact ⟨_, trivial, trivial, rfl⟩

theorem eventCredit_eq_ok (hreachable : Reachable folds aggregator) {event : PruneEvent}
    (hevent : AcceptedEvent aggregator.sourceCount source event) :
    ∃ entry, eventCredit aggregator source event = .ok entry := by
  obtain ⟨halpha, hepsilon⟩ := hreachable.parameters
  obtain ⟨credit, hcredit⟩ := @computeRcniEventCredit_eq_ok {
      witnessId := event.witnessId
      sourceVictimDistance := event.sourceVictimDistance
      witnessVictimDistance := event.witnessVictimDistance
      selectedNeighbors := event.alternative.toList
      alpha := aggregator.alpha
      epsilon := aggregator.epsilon
      distanceSemantics := .squaredL2 } halpha hepsilon rfl hevent.sourceDistance
    hevent.witnessDistance fun neighbor hneighbor =>
      (hevent.alternative neighbor (Option.mem_toList.mp hneighbor)).2
  refine ⟨⟨event.witnessId, event.victimId, credit.eventCredit⟩, ?_⟩
  have hids : ¬ (aggregator.sourceCount ≤ event.witnessId ∨
      aggregator.sourceCount ≤ event.victimId) :=
    not_or.mpr ⟨Nat.not_le.mpr hevent.witness, Nat.not_le.mpr hevent.victim⟩
  have halternative : ¬ ∃ alternative ∈ event.alternative,
      aggregator.sourceCount ≤ alternative.nodeId := by
    rintro ⟨neighbor, hneighbor, habove⟩
    exact Nat.not_lt.mpr habove (hevent.alternative neighbor hneighbor).1
  simp only [eventCredit, bind_ok, reject_ok, exists_const]
  exact ⟨not_not_intro hevent.source, hids, halternative, credit, hcredit, rfl⟩

theorem observeSource_eq_ok (hreachable : Reachable folds aggregator)
    (hprepared : aggregator.prepared = true) (hsource : source < aggregator.sourceCount)
    (hfree : aggregator.observedSources.getD source false = false)
    (hevents : ∀ event ∈ events, AcceptedEvent aggregator.sourceCount source event) :
    ∃ next, aggregator.observeSource folds source events = (.ok (), next) ∧
      next.prepared = true ∧ next.sourceCount = aggregator.sourceCount ∧
      next.observedSources = aggregator.observedSources.set source true := by
  obtain ⟨credits, hcredits⟩ := exists_mapM_ok fun event hevent =>
    eventCredit_eq_ok hreachable (hevents event hevent)
  rcases observeSource_cases folds aggregator source events with
    ⟨failure, hbegin, -⟩ | ⟨marked, hbegin, hfinish⟩
  · have hok := beginSource_eq_ok.mpr ⟨hprepared, hsource, hfree, rfl⟩
    rw [hbegin] at hok
    cases hok
  · obtain ⟨-, -, -, rfl⟩ := beginSource_eq_ok.mp hbegin
    have hcontributions : sourceContributions folds
        { aggregator with observedSources := aggregator.observedSources.set source true } source
        events = .ok (contributionsOf folds source credits) := by
      simp only [sourceContributions, bind_ok, Except.ok.injEq]
      exact ⟨credits, hcredits, rfl⟩
    rcases hfinish with ⟨failure, hfailure, -⟩ | ⟨observed, hfinish, hobserve⟩
    · rw [finishSource, hcontributions] at hfailure
      cases hfailure
    · obtain ⟨contributions, -, rfl⟩ := finishSource_eq_ok.mp hfinish
      exact ⟨_, hobserve, hprepared, rfl, rfl⟩

/-- Calls of different sources that were not observed yet. -/
theorem observeUntil_eq_ok {calls : List Call} (hreachable : Reachable folds aggregator)
    (hprepared : aggregator.prepared = true) (hnodup : (calls.map Call.source).Nodup)
    (hsources : ∀ call ∈ calls, call.source < aggregator.sourceCount ∧
      aggregator.observedSources.getD call.source false = false)
    (hevents : ∀ call ∈ calls, ∀ event ∈ call.events,
      AcceptedEvent aggregator.sourceCount call.source event) :
    ∃ next, observeUntil folds calls aggregator = (.ok (), next) ∧ Reachable folds next ∧
      next.prepared = true ∧ next.sourceCount = aggregator.sourceCount ∧
      ∀ source, next.observedSources.getD source false =
        (aggregator.observedSources.getD source false || decide (source ∈ calls.map Call.source)) := by
  induction calls generalizing aggregator with
  | nil => exact ⟨aggregator, rfl, hreachable, hprepared, rfl, by simp⟩
  | cons call calls ih =>
    obtain ⟨hnew, hrest⟩ := List.nodup_cons.mp hnodup
    obtain ⟨⟨hsource, hfree⟩, hlater⟩ := List.forall_mem_cons.mp hsources
    obtain ⟨hfirst, hothers⟩ := List.forall_mem_cons.mp hevents
    obtain ⟨next, hobserve, hnext, hcount, hmarks⟩ :=
      observeSource_eq_ok hreachable hprepared hsource hfree hfirst
    have hreached : Reachable folds next := by
      have hstep := hreachable.observe call.source call.events
      rwa [hobserve] at hstep
    have hinside : call.source < aggregator.observedSources.length :=
      hreachable.hasMarks hprepared ▸ hsource
    have hmark : ∀ source, next.observedSources.getD source false =
        if call.source = source then true else aggregator.observedSources.getD source false := by
      intro source
      rw [hmarks, List.getD_eq_getElem?_getD, List.getD_eq_getElem?_getD, List.getElem?_set]
      split
      · simp
      · rfl
    obtain ⟨last, hobserveAll, hlast, hready, hsame, hall⟩ := ih hreached hnext hrest
      (fun other hother => by
        refine ⟨hcount ▸ (hlater other hother).1, ?_⟩
        have hne : call.source ≠ other.source := fun heq =>
          hnew (heq ▸ List.mem_map_of_mem hother)
        rw [hmark, if_neg hne]
        exact (hlater other hother).2)
      (fun other hother => hcount ▸ hothers other hother)
    refine ⟨last, ?_, hlast, hready, hsame.trans hcount, fun source => ?_⟩
    · rw [observeUntil, hobserve]
      exact hobserveAll
    · rw [hall, hmark]
      by_cases heq : call.source = source
      · simp [heq]
      · simp [heq, Ne.symm heq]

end Aggregator

end SkipCell.Rcni

namespace SkipCell.Vamana

open Foundation

universe uDistance uFactor uLabel

variable {Distance : Type uDistance} {Factor : Type uFactor} {Label : Type uLabel}
  [LinearOrder Distance] [LinearOrder Factor] [DecidableEq Label]

def LinkEvent.observed (single : Distance → Single) (event : LinkEvent Distance) :
    Rcni.PruneEvent where
  sourceId := event.sourceId
  witnessId := event.witnessId
  victimId := event.victimId
  sourceVictimDistance := single event.sourceVictimDistance
  witnessVictimDistance := single event.witnessVictimDistance
  alternative := event.alternative.map fun alternative => ⟨alternative.1, single alternative.2⟩

namespace StaticIndex

variable (index : StaticIndex Distance Factor Label) (single : Distance → Single)

/-- What `search_for_point_and_prune_impl<true>` observes of a node. -/
def observation (graph : Nat → List Nat) (node : Nat) : Option Rcni.Call :=
  (index.pruneNeighborsObserved node
    ((index.searchForPoint graph node).filter fun candidate => candidate.id ≠ node)
    index.indexingRange index.indexingMaxC index.indexingAlpha.toAlpha).2.map fun events =>
      ⟨node, events.map (LinkEvent.observed single)⟩

/-- The calls of `link_impl<true>` over some nodes, which link the graph as without them. -/
def observations : List Nat → (Nat → List Nat) → List Rcni.Call
  | [], _ => []
  | node :: nodes, graph =>
    (index.observation single graph node).toList ++
      observations nodes (index.linking.linkNode graph node)

variable {index single} {valid : Nat → Prop}

theorem mem_observation {graph : Nat → List Nat} {node : Nat} {call : Rcni.Call}
    (hcall : call ∈ index.observation single graph node) : call.source = node := by
  obtain ⟨events, -, rfl⟩ := Option.map_eq_some_iff.mp hcall
  rfl

theorem observations_sublist (index : StaticIndex Distance Factor Label)
    (single : Distance → Single) (nodes : List Nat) (graph : Nat → List Nat) :
    ((index.observations single nodes graph).map Rcni.Call.source).Sublist nodes := by
  induction nodes generalizing graph with
  | nil => exact .slnil
  | cons node nodes ih =>
    rw [observations, List.map_append]
    cases hcall : index.observation single graph node with
    | none => exact (ih _).cons node
    | some call =>
      rw [Option.toList_some, List.map_singleton, mem_observation hcall]
      exact (ih _).cons_cons node

/-- The events of all calls are of their own sources, among valid nodes and of distances that
are taken. -/
theorem observations_accepted {sourceCount : Nat} (hcovers : index.Covers valid)
    (hvalid : ∀ node, valid node → node < sourceCount)
    (hmeasures : index.distMetric ≠ .innerProduct → ∀ first second, valid first → valid second →
      Rcni.Accepts (single (index.getDistance first second)) ∧
        Rcni.Accepts (single (index.queryDistance first second)))
    {nodes : List Nat} (hnodes : ∀ node ∈ nodes, valid node) {graph : Nat → List Nat}
    (hgraph : index.linking.Ordered valid graph) :
    ∀ call ∈ index.observations single nodes graph, ∀ event ∈ call.events,
      Rcni.AcceptedEvent sourceCount call.source event := by
  induction nodes generalizing graph with
  | nil => nofun
  | cons node nodes ih =>
    obtain ⟨hnode, hrest⟩ := List.forall_mem_cons.mp hnodes
    rw [observations]
    intro call hcall
    rcases List.mem_append.mp hcall with hfirst | hlater
    · obtain ⟨events, hevents, rfl⟩ := Option.map_eq_some_iff.mp (Option.mem_toList.mp hfirst)
      obtain ⟨hnodup, hmem⟩ := searchForPoint_spec hcovers (fun node _ => hgraph.lists node) node
      have hwithin := @Space.pruneNeighborsObserved_within _ _ _ _ _ _ index.toSpace valid
        (fun distance => Rcni.Accepts (single distance)) node index.indexingRange
        index.indexingMaxC _ (fun hmetric first second hfirst hsecond =>
          (hmeasures hmetric first second hfirst hsecond).1) index.indexingAlpha
        (hnodup.sublist (List.filter_sublist.map _))
        (fun candidate hcandidate => (hmem candidate (List.mem_of_mem_filter hcandidate)).1) hnode
        (fun hmetric candidate hcandidate => by
          obtain ⟨hid, hdistance⟩ := hmem candidate (List.mem_of_mem_filter hcandidate)
          rw [hdistance]
          exact (hmeasures hmetric node candidate.id hnode hid).2) events hevents
      intro event hevent
      obtain ⟨old, hold, rfl⟩ := List.mem_map.mp hevent
      have hold := hwithin old hold
      constructor
      case source => exact hold.source
      case witness => exact hvalid _ hold.witness
      case victim => exact hvalid _ hold.victim
      case sourceDistance => exact hold.sourceDistance
      case witnessDistance => exact hold.witnessDistance
      case alternative =>
        intro neighbor hneighbor
        obtain ⟨⟨other, distance⟩, hother, rfl⟩ := Option.map_eq_some_iff.mp hneighbor
        obtain ⟨hid, hdistance⟩ := hold.alternative other distance hother
        exact ⟨hvalid other hid, hdistance⟩
    · exact ih hrest (hgraph.linkNode (linking_lawful hcovers) hnode) call hlater

end StaticIndex

/-! ## Builds with one aggregator -/

/-- An aggregator, the calls that it took since it was prepared, and whether a build threw. -/
structure Watch where
  aggregator : Rcni.Aggregator
  calls : List Rcni.Call := []
  thrown : Bool := false

/-- `set_rcni_prune_observer` of an index for so many points, and the build of an index whose
lists are given: empty ones, or those that an earlier build has left. -/
inductive WatchStep (Distance : Type uDistance) (Factor : Type uFactor) (Label : Type uLabel)
    [LinearOrder Distance] [LinearOrder Factor]
  | attach (hardwareConcurrency maxPoints : Nat)
  | build (index : StaticIndex Distance Factor Label) (graph : Nat → List Nat)

namespace Watch

variable {Log : Type} (folds : Rcni.Folds Log) (single : Distance → Single)

def perform (watch : Watch) : WatchStep Distance Factor Label → Watch
  | .attach hardwareConcurrency maxPoints =>
    match watch.aggregator.prepare hardwareConcurrency maxPoints with
    | .error _ => watch
    | .ok aggregator => { watch with aggregator := aggregator, calls := [] }
  | .build index graph =>
    let calls := index.observations single index.visitOrder graph
    match watch.aggregator.observeUntil folds calls with
    | (.error _, aggregator) => { watch with aggregator := aggregator, thrown := true }
    | (.ok (), aggregator) =>
      { watch with aggregator := aggregator, calls := watch.calls ++ calls }

/-- The lists in front of a build are those of the index. -/
def Permitted (_ : Watch) : WatchStep Distance Factor Label → Prop
  | .attach _ _ => True
  | .build index graph => index.linking.Ordered (· < index.capacity) graph

/-- A new aggregator, which is attached and watches builds in any order. -/
def system (Factor : Type uFactor) (Label : Type uLabel) [LinearOrder Factor] [DecidableEq Label]
    (folds : Rcni.Folds Log) (single : Distance → Single) (alpha epsilon : Single) :
    Transition Watch (WatchStep Distance Factor Label) :=
  .guarded (fun watch => ∃ aggregator, Rcni.Aggregator.create alpha epsilon = .ok aggregator ∧
    watch = { aggregator := aggregator }) Permitted (perform folds single)

/-- A build without frozen points and with distances that the formula takes, of an index for
which the aggregator was prepared and whose points it has not seen since. -/
structure Observable (single : Distance → Single) (watch : Watch)
    (index : StaticIndex Distance Factor Label) : Prop where
  unfrozen : index.numFrozenPts = 0
  prepared : watch.aggregator.prepared = true
  covered : index.maxPoints ≤ watch.aggregator.sourceCount
  fresh : ∀ source < index.nd, watch.aggregator.observedSources.getD source false = false
  distances : index.distMetric ≠ .innerProduct → ∀ first < index.maxPoints,
    ∀ second < index.maxPoints, Rcni.Accepts (single (index.getDistance first second)) ∧
      Rcni.Accepts (single (index.queryDistance first second))

def StepObservable (single : Distance → Single) (watch : Watch) :
    WatchStep Distance Factor Label → Prop
  | .attach _ _ => True
  | .build index _ => Observable single watch index

variable {folds single}

/-- What holds as long as all builds are observable. -/
structure Accepted (folds : Rcni.Folds Log) (watch : Watch) : Prop where
  reachable : Rcni.Aggregator.Reachable folds watch.aggregator
  quiet : watch.thrown = false
  distinct : (watch.calls.map Rcni.Call.source).Nodup
  marked : ∀ call ∈ watch.calls,
    watch.aggregator.observedSources.getD call.source false = true
  inside : ∀ call ∈ watch.calls, call.source < watch.aggregator.sourceCount
  events : ∀ call ∈ watch.calls, ∀ event ∈ call.events,
    Rcni.AcceptedEvent watch.aggregator.sourceCount call.source event

variable {watch : Watch} {index : StaticIndex Distance Factor Label}

theorem Accepted.attach (haccepted : Accepted folds watch) (hardwareConcurrency maxPoints : Nat) :
    Accepted folds (watch.perform folds single
      (.attach hardwareConcurrency maxPoints : WatchStep Distance Factor Label)) := by
  rw [perform]
  cases hprepare : watch.aggregator.prepare hardwareConcurrency maxPoints with
  | error failure => exact haccepted
  | ok aggregator =>
    exact ⟨haccepted.reachable.prepare hprepare, haccepted.quiet, .nil, nofun, nofun, nofun⟩

omit [DecidableEq Label] in
theorem covers_capacity (hunfrozen : index.numFrozenPts = 0) :
    index.Covers (· < index.capacity) where
  start := by
    rw [StaticIndex.start, if_neg (by omega)]
    exact index.calculateMedoid_spec.1
  loaded id hid := hid.trans_le index.nd_le_capacity
  frozen := by simp [StaticIndex.frozenPoints, hunfrozen]

theorem Accepted.build (haccepted : Accepted folds watch) {graph : Nat → List Nat}
    (hgraph : index.linking.Ordered (· < index.capacity) graph)
    (hobservable : Observable single watch index) :
    Accepted folds (watch.perform folds single (.build index graph)) := by
  have hcapacity : index.capacity = index.maxPoints := by
    rw [StaticIndex.capacity, hobservable.unfrozen, Nat.add_zero]
  have hcovers := covers_capacity hobservable.unfrozen
  have hbelow : ∀ node < index.capacity, node < watch.aggregator.sourceCount := fun node hnode =>
    (hcapacity ▸ hnode).trans_le hobservable.covered
  have horder : index.visitOrder = List.range index.nd := by
    rw [StaticIndex.visitOrder, StaticIndex.frozenPoints, hobservable.unfrozen]
    exact List.append_nil _
  have hsublist := index.observations_sublist single index.visitOrder graph
  have hloaded : ∀ call ∈ index.observations single index.visitOrder graph,
      call.source < index.nd := fun call hcall =>
    List.mem_range.mp (horder ▸ hsublist.subset (List.mem_map_of_mem hcall))
  have hevents : ∀ call ∈ index.observations single index.visitOrder graph,
      ∀ event ∈ call.events, Rcni.AcceptedEvent watch.aggregator.sourceCount call.source event := by
    refine StaticIndex.observations_accepted hcovers hbelow ?_ ?_ hgraph
    · intro hmetric first second hfirst hsecond
      exact hobservable.distances hmetric first (hcapacity ▸ hfirst) second (hcapacity ▸ hsecond)
    · intro node hnode
      rw [horder] at hnode
      exact (List.mem_range.mp hnode).trans_le index.nd_le_capacity
  obtain ⟨next, hobserve, hreachable, hready, hcount, hmarks⟩ :=
    Rcni.Aggregator.observeUntil_eq_ok haccepted.reachable hobservable.prepared
      (hsublist.nodup (horder ▸ List.nodup_range))
      (fun call hcall => ⟨hbelow _ ((hloaded call hcall).trans_le index.nd_le_capacity),
        hobservable.fresh _ (hloaded call hcall)⟩) hevents
  rw [perform, hobserve]
  constructor
  case reachable => exact hreachable
  case quiet => exact haccepted.quiet
  case distinct =>
    rw [List.map_append]
    refine List.nodup_append.mpr ⟨haccepted.distinct,
      hsublist.nodup (horder ▸ List.nodup_range), ?_⟩
    rintro source hold _ hnew rfl
    obtain ⟨old, hmem, rfl⟩ := List.mem_map.mp hold
    obtain ⟨call, hcall, hsame⟩ := List.mem_map.mp hnew
    -- What was taken before is marked, and nothing marked is loaded.
    have hmark := haccepted.marked old hmem
    rw [← hsame, hobservable.fresh _ (hloaded call hcall)] at hmark
    cases hmark
  case marked =>
    intro call hcall
    rw [hmarks]
    rcases List.mem_append.mp hcall with hold | hnew
    · rw [haccepted.marked call hold, Bool.true_or]
    · rw [decide_eq_true (List.mem_map_of_mem hnew), Bool.or_true]
  case inside =>
    intro call hcall
    rw [hcount]
    rcases List.mem_append.mp hcall with hold | hnew
    · exact haccepted.inside call hold
    · exact hbelow _ ((hloaded call hnew).trans_le index.nd_le_capacity)
  case events =>
    intro call hcall
    rw [hcount]
    rcases List.mem_append.mp hcall with hold | hnew
    · exact haccepted.events call hold
    · exact hevents call hnew

/-- As long as all builds are observable none throws, and every source is observed at most once
after a preparation, with events of its own. -/
theorem reachable_accepted {alpha epsilon : Single} {watch : Watch}
    (hreach : ((system Factor Label folds single alpha epsilon).restrict
      (StepObservable single)).Reachable watch) : Accepted folds watch := by
  refine hreach.invariant ?_ ?_
  · rintro first ⟨aggregator, hcreate, rfl⟩
    exact ⟨.create hcreate, rfl, .nil, nofun, nofun, nofun⟩
  · rintro current step next hcurrent ⟨hobservable, hpermitted, rfl⟩
    cases step with
    | attach hardwareConcurrency maxPoints =>
      exact hcurrent.attach hardwareConcurrency maxPoints
    | build index graph => exact hcurrent.build hpermitted hobservable

theorem permitted_link (hunfrozen : index.numFrozenPts = 0) (watch : Watch) :
    Permitted watch (.build index index.link) := by
  have hcovers := covers_capacity hunfrozen
  have hnodes : ∀ node ∈ index.visitOrder, node < index.capacity := by
    intro node hnode
    rcases List.mem_append.mp hnode with hloaded | hfrozen
    · exact hcovers.loaded node (List.mem_range.mp hloaded)
    · exact hcovers.frozen node hfrozen
  have hempty : index.linking.Ordered (· < index.capacity) fun _ => [] :=
    fun _ => ⟨.nil, by simp, by simp, Nat.zero_le _⟩
  exact ((hempty.linkNodes (StaticIndex.linking_lawful hcovers) hnodes).cleanUps
    (StaticIndex.linking_lawful hcovers) index.visitOrder).1

def fullIndex (maxPoints numFrozenPts : Nat) (hpos : 0 < maxPoints) : StaticIndex Nat Nat Unit where
  floats := StaticIndex.twoOfThree.floats
  distMetric := .l2
  getDistance first second := if first = second then 0 else 1
  pqDist := false
  filteredIndex := false
  locationToLabels _ := []
  labelledLocations := 0
  saturateGraph := false
  maxPoints := maxPoints
  numFrozenPts := numFrozenPts
  indexingRange := 2
  indexingQueueSize := 2
  indexingMaxC := 10
  filterIndexingQueueSize := 0
  indexingAlpha := StaticIndex.twoOfThree.indexingAlpha
  fromCenter _ := 1
  queryDistance first second := if first = second then 0 else 1
  useUniversalLabel := false
  universalLabel := ()
  labels := []
  draws _ := 0
  nd := maxPoints
  nd_pos := hpos
  nd_le := Nat.le_refl maxPoints

/-- A new aggregator. -/
def fullWatch : Watch where
  aggregator := { alpha := ⟨0x3F99999A⟩, epsilon := Rcni.kRcniDefaultEpsilon }

def fullSystem : Transition Watch (WatchStep Nat Nat Unit) :=
  system Nat Unit Rcni.Aggregator.exactFolds (fun distance => if distance = 0 then .zero else .one)
    ⟨0x3F99999A⟩ Rcni.kRcniDefaultEpsilon

def fullPerform (watch : Watch) (step : WatchStep Nat Nat Unit) : Watch :=
  watch.perform Rcni.Aggregator.exactFolds
    (fun distance => if distance = 0 then .zero else .one) step

theorem fullWatch_initial : fullSystem.initial fullWatch := by
  refine ⟨fullWatch.aggregator, ?_, rfl⟩
  decide +kernel

theorem fullSystem_step {step : WatchStep Nat Nat Unit} (hpermitted : Permitted watch step) :
    fullSystem.step watch step (fullPerform watch step) :=
  ⟨hpermitted, rfl⟩

theorem fullSystem_observable_step {step : WatchStep Nat Nat Unit}
    (hobservable : StepObservable (fun distance => if distance = 0 then .zero else .one) watch step)
    (hpermitted : Permitted watch step) :
    (fullSystem.restrict (StepObservable fun distance =>
      if distance = 0 then .zero else .one)).step watch step (fullPerform watch step) :=
  ⟨hobservable, hpermitted, rfl⟩

theorem permitted_new (watch : Watch) (index : StaticIndex Nat Nat Unit) :
    Permitted watch (.build index fun _ => []) :=
  fun _ => ⟨.nil, by simp, by simp, Nat.zero_le _⟩

/-- Two points are linked. -/
theorem reachable_accepted_two : Accepted Rcni.Aggregator.exactFolds
    (fullPerform (fullPerform fullWatch (.attach 1 2))
      (.build (fullIndex 2 0 (by decide)) fun _ => [])) := by
  have hobservable : StepObservable (fun distance => if distance = 0 then .zero else .one)
      (fullPerform fullWatch (.attach 1 2)) (.build (fullIndex 2 0 (by decide)) fun _ => []) := by
    refine ⟨rfl, by decide +kernel, by decide +kernel, by decide +kernel, fun _ => ?_⟩
    unfold Rcni.Accepts
    decide +kernel
  have hattach : StepObservable (fun distance => if distance = 0 then .zero else .one) fullWatch
      (.attach 1 2 : WatchStep Nat Nat Unit) := trivial
  have hinitial : (fullSystem.restrict (StepObservable
      fun distance => if distance = 0 then .zero else .one)).Reachable fullWatch :=
    .of_initial fullWatch_initial
  have hattached := hinitial.step (fullSystem_observable_step hattach trivial)
  exact reachable_accepted
    (hattached.step (fullSystem_observable_step hobservable (permitted_new _ _)))

/-- A frozen point is no source that the aggregator was prepared for, and a second build shows
it the sources of the first one again. -/
theorem not_reachable_accepted :
    (∃ watch, fullSystem.Reachable watch ∧ watch = fullPerform (fullPerform fullWatch (.attach 1 1))
        (.build (fullIndex 1 1 (by decide)) fun _ => []) ∧ watch.thrown = true) ∧
      ∃ watch, fullSystem.Reachable watch ∧ watch = fullPerform (fullPerform
        (fullPerform fullWatch (.attach 1 2)) (.build (fullIndex 2 0 (by decide)) fun _ => []))
        (.build (fullIndex 2 0 (by decide)) (fullIndex 2 0 (by decide)).link) ∧
        watch.thrown = true := by
  have hattached : ∀ maxPoints,
      fullSystem.Reachable (fullPerform fullWatch (.attach 1 maxPoints)) := by
    intro maxPoints
    have hattach : Permitted fullWatch (.attach 1 maxPoints : WatchStep Nat Nat Unit) := trivial
    exact (Transition.Reachable.of_initial fullWatch_initial).step (fullSystem_step hattach)
  constructor
  · refine ⟨_, (hattached 1).step (fullSystem_step (permitted_new _ _)), rfl, ?_⟩
    decide +kernel
  · refine ⟨_, ((hattached 2).step (fullSystem_step (permitted_new _ _))).step
      (fullSystem_step (permitted_link rfl _)), rfl, ?_⟩
    decide +kernel

end Watch

end SkipCell.Vamana

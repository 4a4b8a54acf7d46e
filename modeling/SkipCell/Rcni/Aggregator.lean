import SkipCell.Rcni.EventCredit

/-! # The aggregator of prune events

The events of a source are compressed into one contribution for each of its witnesses, and the
contributions are kept in shards until the importance is computed. A source is marked as observed
before its events are looked at, so an observation that throws leaves the mark behind, and
nothing else.
-/

namespace SkipCell.Rcni

open Foundation

structure PruneEvent where
  sourceId : Nat
  witnessId : Nat
  victimId : Nat
  sourceVictimDistance : Single
  witnessVictimDistance : Single
  alternative : Option NeighborDistance := none
  deriving DecidableEq

structure CreditEntry where
  witnessId : Nat
  victimId : Nat
  eventCredit : Single

structure SourceContribution where
  sourceId : Nat
  witnessId : Nat
  sourceSaturation : Single
  eventCount : Nat
  deriving DecidableEq

/-- The sums over credits and over saturations. `logSurvival` is `log1p` of the negated credit,
and `complement` is `-expm1`, cast to `double`. -/
structure Folds (Log : Type) where
  zero : Log
  add : Log → Log → Log
  logSurvival : Single → Log
  complement : Log → Double
  addImportance : Double → Double → Double

structure Aggregator where
  alpha : Single
  epsilon : Single
  sourceCount : Nat := 0
  prepared : Bool := false
  observedSources : List Bool := []
  shards : List (List SourceContribution) := []
  deriving DecidableEq

namespace Folds

variable {Log : Type} (folds : Folds Log)

/-- The probability that some of the credits counts, as the sum stands at `logSurvival`. -/
def saturationFrom (logSurvival : Log) : List Single → Single
  | [] => clampUnit (folds.complement logSurvival)
  | credit :: credits =>
    if credit = .one then .one
    else saturationFrom (folds.add logSurvival (folds.logSurvival credit)) credits

def computeSortedSourceSaturation (credits : List Single) : Single :=
  folds.saturationFrom folds.zero credits

end Folds

def eventCredit (aggregator : Aggregator) (source : Nat) (event : PruneEvent) :
    Except Error CreditEntry := do
  reject (event.sourceId ≠ source)
    (.invalidArgument "RCNI event source does not match its callback source")
  reject (aggregator.sourceCount ≤ event.witnessId ∨ aggregator.sourceCount ≤ event.victimId)
    (.outOfRange "RCNI event node ID is outside the prepared node range")
  reject (∃ alternative ∈ event.alternative, aggregator.sourceCount ≤ alternative.nodeId)
    (.outOfRange "RCNI alternative ID is outside the prepared node range")
  let credit ← computeRcniEventCredit {
    witnessId := event.witnessId
    sourceVictimDistance := event.sourceVictimDistance
    witnessVictimDistance := event.witnessVictimDistance
    selectedNeighbors := event.alternative.toList
    alpha := aggregator.alpha
    epsilon := aggregator.epsilon
    distanceSemantics := .squaredL2 }
  .ok ⟨event.witnessId, event.victimId, credit.eventCredit⟩

/-- The order of triples of a witness, a credit and a victim. -/
def CreditBefore (left right : CreditEntry) : Prop :=
  left.witnessId < right.witnessId ∨ left.witnessId = right.witnessId ∧
    (left.eventCredit < right.eventCredit ∨
      ¬ right.eventCredit < left.eventCredit ∧ left.victimId ≤ right.victimId)

instance : DecidableRel CreditBefore := fun _ _ => inferInstanceAs (Decidable (_ ∨ _))

def groupContribution {Log : Type} (folds : Folds Log) (source : Nat) (group : List CreditEntry) :
    Option SourceContribution :=
  match group with
  | [] => none
  | first :: rest => some {
      sourceId := source
      witnessId := first.witnessId
      sourceSaturation :=
        folds.computeSortedSourceSaturation ((first :: rest).map CreditEntry.eventCredit)
      eventCount := (first :: rest).length }

def contributionsOf {Log : Type} (folds : Folds Log) (source : Nat) (credits : List CreditEntry) :
    List SourceContribution :=
  ((credits.insertionSort CreditBefore).splitBy fun left right =>
    left.witnessId = right.witnessId).filterMap (groupContribution folds source)

namespace Aggregator

variable {Log : Type} (folds : Folds Log)

def sourceContributions (aggregator : Aggregator) (source : Nat) (events : List PruneEvent) :
    Except Error (List SourceContribution) := do
  let credits ← events.mapM (eventCredit aggregator source)
  .ok (contributionsOf folds source credits)

def create (alpha epsilon : Single) : Except Error Aggregator := do
  reject (alpha.isFinite = false ∨ alpha < .one)
    (.invalidArgument "RCNI alpha must be finite and greater than or equal to one")
  reject (epsilon.isFinite = false ∨ epsilon ≤ .zero)
    (.invalidArgument "RCNI epsilon must be finite and greater than zero")
  .ok { alpha := alpha, epsilon := epsilon }

/-- `hardwareConcurrency` is what `std::thread::hardware_concurrency` returns. -/
def prepare (hardwareConcurrency sourceCount : Nat) (aggregator : Aggregator) :
    Except Error Aggregator := do
  reject (2 ^ 32 - 1 < sourceCount)
    (.invalidArgument "RCNI source count exceeds the uint32 node-ID range")
  let availableWorkers := max 1 hardwareConcurrency
  let shardCount := max 1 (min sourceCount availableWorkers)
  .ok { aggregator with
    sourceCount := sourceCount
    observedSources := List.replicate sourceCount false
    shards := List.replicate shardCount []
    prepared := true }

/-- The checks in front of the events, and the exchange of the mark. -/
def beginSource (source : Nat) (aggregator : Aggregator) : Except Error Aggregator := do
  reject (aggregator.prepared = false)
    (.logicError "RCNI aggregator must be prepared before observing sources")
  reject (aggregator.sourceCount ≤ source)
    (.outOfRange "RCNI source ID is outside the prepared node range")
  reject (aggregator.observedSources.getD source false = true)
    (.logicError "RCNI source was observed more than once")
  .ok { aggregator with observedSources := aggregator.observedSources.set source true }

/-- The insertion under the lock of the shard. -/
def publish (source : Nat) (contributions : List SourceContribution) (aggregator : Aggregator) :
    Aggregator :=
  { aggregator with
    shards := aggregator.shards.modify (source % aggregator.shards.length) (· ++ contributions) }

def finishSource (source : Nat) (events : List PruneEvent) (aggregator : Aggregator) :
    Except Error Aggregator := do
  let contributions ← aggregator.sourceContributions folds source events
  .ok (aggregator.publish source contributions)

/-- The outcome of the call, and what it leaves of the aggregator. -/
def observeSource (source : Nat) (events : List PruneEvent) (aggregator : Aggregator) :
    Except Error Unit × Aggregator :=
  match aggregator.beginSource source with
  | .error failure => (.error failure, aggregator)
  | .ok marked =>
    match marked.finishSource folds source events with
    | .error failure => (.error failure, marked)
    | .ok observed => (.ok (), observed)

/-- The order of pairs of a source and a witness. -/
def ContributionBefore (left right : SourceContribution) : Prop :=
  left.sourceId < right.sourceId ∨
    left.sourceId = right.sourceId ∧ left.witnessId ≤ right.witnessId

instance : DecidableRel ContributionBefore := fun _ _ => inferInstanceAs (Decidable (_ ∨ _))

def contribute (contribution : SourceContribution) (importance : List (NodeImportance Double)) :
    List (NodeImportance Double) :=
  importance.modify contribution.witnessId fun node =>
    { node with
      rawImportance :=
        folds.addImportance node.rawImportance contribution.sourceSaturation.toDouble
      witnessEventCount := node.witnessEventCount + contribution.eventCount
      sourceSupport :=
        if .zero < contribution.sourceSaturation then node.sourceSupport + 1
        else node.sourceSupport }

def rawImportances (sourceCount : Nat) (contributions : List SourceContribution) :
    List (NodeImportance Double) :=
  contributions.foldl (fun importance contribution => contribute folds contribution importance)
    ((List.range sourceCount).map fun node => ⟨node, .zero, .zero, .zero, 0, 0⟩)

/-- `std::max_element`, or zero for no nodes. -/
def maximumImportance (importance : List (NodeImportance Double)) : Double :=
  match importance with
  | [] => .zero
  | first :: rest => rest.foldl (fun best node =>
    if best < node.rawImportance then node.rawImportance else best) first.rawImportance

def rawAt (importance : List (NodeImportance Double)) (node : Nat) : Double :=
  (importance[node]?.map NodeImportance.rawImportance).getD .zero

/-- The order of pairs of an importance and a node. -/
def OrderedBefore (importance : List (NodeImportance Double)) (left right : Nat) : Prop :=
  rawAt importance left < rawAt importance right ∨
    ¬ rawAt importance right < rawAt importance left ∧ left ≤ right

instance (importance : List (NodeImportance Double)) : DecidableRel (OrderedBefore importance) :=
  fun _ _ => inferInstanceAs (Decidable (_ ∨ _))

/-- Nodes of one importance get the percentile of the last of them. -/
def assignPercentiles (importance : List (NodeImportance Double)) : List (NodeImportance Double) :=
  let orderedNodes := (List.range importance.length).insertionSort (OrderedBefore importance)
  let groups := orderedNodes.splitBy fun left right =>
    rawAt importance left ≤ rawAt importance right ∧ rawAt importance right ≤ rawAt importance left
  (groups.foldl (fun (importance, groupBegin) group =>
    let groupEnd := groupBegin + group.length
    let percentile := Double.ofNat groupEnd / Double.ofNat orderedNodes.length
    (group.foldl (fun importance node => importance.modify node fun record =>
      { record with importancePercentile := percentile }) importance, groupEnd))
    (importance, 0)).1

def normalize (epsilon : Single) (importance : List (NodeImportance Double)) :
    List (NodeImportance Double) :=
  let maximum := maximumImportance importance
  if .zero < maximum then
    let denominator := maximum + epsilon.toDouble
    assignPercentiles (importance.map fun node =>
      { node with normalizedImportance := node.rawImportance / denominator })
  else importance

def computeImportance (aggregator : Aggregator) : Except Error (List (NodeImportance Double)) := do
  reject (aggregator.prepared = false)
    (.logicError "RCNI aggregator must be prepared before computing importance")
  let contributions := aggregator.shards.flatten.insertionSort ContributionBefore
  .ok (normalize aggregator.epsilon (rawImportances folds aggregator.sourceCount contributions))

/-- The aggregators that calls bring about, those that threw among them. -/
inductive Reachable : Aggregator → Prop
  | create {alpha epsilon : Single} {aggregator : Aggregator} :
      create alpha epsilon = .ok aggregator → Reachable aggregator
  | prepare {hardwareConcurrency sourceCount : Nat} {aggregator next : Aggregator} :
      Reachable aggregator → aggregator.prepare hardwareConcurrency sourceCount = .ok next →
        Reachable next
  | observe {aggregator : Aggregator} (source : Nat) (events : List PruneEvent) :
      Reachable aggregator → Reachable (aggregator.observeSource folds source events).2

section Throws

variable {folds} {aggregator marked after : Aggregator} {source : Nat} {events : List PruneEvent}

theorem beginSource_eq_ok : aggregator.beginSource source = .ok marked ↔
    aggregator.prepared = true ∧ source < aggregator.sourceCount ∧
      aggregator.observedSources.getD source false = false ∧
      { aggregator with observedSources := aggregator.observedSources.set source true } = marked := by
  simp only [beginSource, bind_ok, reject_ok, exists_const, Except.ok.injEq, not_le,
    Bool.not_eq_false, Bool.not_eq_true]

/-- There is a mark for every source. -/
def HasMarks (aggregator : Aggregator) : Prop :=
  aggregator.prepared = true → aggregator.observedSources.length = aggregator.sourceCount

theorem HasMarks.beginSource (haggregator : HasMarks aggregator)
    (hbegin : aggregator.beginSource source = .ok marked) : HasMarks marked := by
  obtain ⟨hprepared, -, -, rfl⟩ := beginSource_eq_ok.mp hbegin
  exact fun _ => (List.length_set ..).trans (haggregator hprepared)

theorem finishSource_eq_ok : aggregator.finishSource folds source events = .ok after ↔
    ∃ contributions, aggregator.sourceContributions folds source events = .ok contributions ∧
      aggregator.publish source contributions = after := by
  simp only [finishSource, bind_ok, Except.ok.injEq]

/-- An observation ends as it began, with the mark, or with the contributions as well. -/
theorem observeSource_cases (folds : Folds Log) (aggregator : Aggregator) (source : Nat)
    (events : List PruneEvent) :
    (∃ failure, aggregator.beginSource source = .error failure ∧
      aggregator.observeSource folds source events = (.error failure, aggregator)) ∨
    ∃ marked, aggregator.beginSource source = .ok marked ∧
      ((∃ failure, marked.finishSource folds source events = .error failure ∧
        aggregator.observeSource folds source events = (.error failure, marked)) ∨
      ∃ observed, marked.finishSource folds source events = .ok observed ∧
        aggregator.observeSource folds source events = (.ok (), observed)) := by
  unfold observeSource
  cases hbegin : aggregator.beginSource source with
  | error failure => exact .inl ⟨failure, rfl, rfl⟩
  | ok marked =>
    refine .inr ⟨marked, rfl, ?_⟩
    cases hfinish : marked.finishSource folds source events with
    | error failure => exact .inl ⟨failure, rfl, by simp only [hfinish]⟩
    | ok observed => exact .inr ⟨observed, rfl, by simp only [hfinish]⟩

theorem Reachable.hasMarks (hreachable : Reachable folds aggregator) : HasMarks aggregator := by
  induction hreachable with
  | create hcreate =>
    simp only [Aggregator.create, bind_ok, reject_ok, exists_const, Except.ok.injEq] at hcreate
    obtain ⟨-, -, rfl⟩ := hcreate
    intro hprepared
    cases hprepared
  | prepare _ hprepare _ =>
    simp only [Aggregator.prepare, bind_ok, reject_ok, exists_const, Except.ok.injEq] at hprepare
    obtain ⟨-, rfl⟩ := hprepare
    exact fun _ => List.length_replicate
  | observe source events _ ih =>
    rename_i aggregator _
    rcases observeSource_cases folds aggregator source events with
      ⟨failure, -, hobserve⟩ | ⟨marked, hbegin, hfinish⟩
    · rwa [hobserve]
    · have hmarked := ih.beginSource hbegin
      rcases hfinish with ⟨failure, -, hobserve⟩ | ⟨observed, hfinish, hobserve⟩
      · rwa [hobserve]
      · obtain ⟨contributions, -, rfl⟩ := finishSource_eq_ok.mp hfinish
        rwa [hobserve]

/-- The mark of a source, which is all that a failed observation can leave. -/
def withMark (source : Nat) (aggregator : Aggregator) : Aggregator :=
  { aggregator with observedSources := aggregator.observedSources.set source true }

theorem beginSource_again (haggregator : HasMarks aggregator)
    (hbegin : aggregator.beginSource source = .ok marked) :
    marked.beginSource source = .error (.logicError "RCNI source was observed more than once") := by
  obtain ⟨hprepared, hbound, -, rfl⟩ := beginSource_eq_ok.mp hbegin
  have hinside : source < aggregator.observedSources.length := haggregator hprepared ▸ hbound
  have hmark : (aggregator.observedSources.set source true).getD source false = true := by
    rw [List.getD_eq_getElem?_getD, List.getElem?_set_self hinside, Option.getD_some]
  simp only [beginSource, hmark, hprepared, reject, if_neg (Nat.not_le.mpr hbound)]
  rfl

theorem beginSource_withMark {other : Nat} (hne : other ≠ source) :
    (aggregator.withMark source).beginSource other =
      (aggregator.beginSource other).map (withMark source) := by
  have hmark : (aggregator.observedSources.set source true).getD other false =
      aggregator.observedSources.getD other false := by
    rw [List.getD_eq_getElem?_getD, List.getD_eq_getElem?_getD, List.getElem?_set_ne hne.symm]
  have hchecks : ∀ (first second third : Except Error Unit) (marked : Aggregator),
      (do first; second; third; .ok (marked.withMark source) : Except Error Aggregator) =
        (do first; second; third; .ok marked : Except Error Aggregator).map (withMark source) := by
    intro first second third marked
    cases first <;> cases second <;> cases third <;> rfl
  unfold beginSource
  rw [← hchecks]
  simp only [withMark, hmark, List.set_comm _ _ hne]
  rfl

theorem finishSource_withMark {other : Nat} :
    (aggregator.withMark source).finishSource folds other events =
      (aggregator.finishSource folds other events).map (withMark source) := by
  unfold finishSource
  change (aggregator.sourceContributions folds other events >>= _) = _
  cases aggregator.sourceContributions folds other events <;> rfl

theorem observeSource_withMark {other : Nat} (hne : other ≠ source) :
    (aggregator.withMark source).observeSource folds other events =
      ((aggregator.observeSource folds other events).1,
        (aggregator.observeSource folds other events).2.withMark source) := by
  unfold observeSource
  rw [beginSource_withMark hne]
  cases aggregator.beginSource other with
  | error failure => rfl
  | ok marked =>
    simp only [Except.map, finishSource_withMark]
    cases marked.finishSource folds other events <;> rfl

end Throws

end Aggregator

structure Call where
  source : Nat
  events : List PruneEvent
  deriving DecidableEq

namespace Aggregator

variable {Log : Type} (folds : Folds Log)

/-- The outcomes of calls one after the other, and what the last of them leaves. -/
def observeAll : List Call → Aggregator → List (Except Error Unit) × Aggregator
  | [], aggregator => ([], aggregator)
  | call :: calls, aggregator =>
    let (outcome, next) := aggregator.observeSource folds call.source call.events
    let (outcomes, last) := observeAll calls next
    (outcome :: outcomes, last)

variable {folds} {aggregator after : Aggregator} {source : Nat} {events : List PruneEvent}

theorem observeAll_withMark {calls : List Call} (hother : ∀ call ∈ calls, call.source ≠ source) :
    observeAll folds calls (aggregator.withMark source) =
      ((observeAll folds calls aggregator).1,
        (observeAll folds calls aggregator).2.withMark source) := by
  induction calls generalizing aggregator with
  | nil => rfl
  | cons call calls ih =>
    obtain ⟨hcall, hcalls⟩ := List.forall_mem_cons.mp hother
    simp only [observeAll, observeSource_withMark hcall, ih hcalls]

/-- An observation that throws changes nothing, or leaves the mark of its source, which then
cannot be observed. It leaves the importance as it was, and the observations of other sources. -/
theorem observeSource_throws (hreachable : Reachable folds aggregator) {failure : Error}
    (hthrows : aggregator.observeSource folds source events = (.error failure, after)) :
    (after = aggregator ∧ aggregator.beginSource source = .error failure ∨
      after = aggregator.withMark source ∧ aggregator.observedSources[source]? = some false ∧
        ∀ later, after.observeSource folds source later =
          (.error (.logicError "RCNI source was observed more than once"), after)) ∧
    after.computeImportance folds = aggregator.computeImportance folds ∧
    ∀ calls : List Call, (∀ call ∈ calls, call.source ≠ source) →
      (observeAll folds calls after).1 = (observeAll folds calls aggregator).1 ∧
        (observeAll folds calls after).2.computeImportance folds =
          (observeAll folds calls aggregator).2.computeImportance folds := by
  rcases observeSource_cases folds aggregator source events with
    ⟨other, hbegin, hobserve⟩ | ⟨marked, hbegin, hfinish⟩
  · rw [hthrows] at hobserve
    obtain ⟨hsame, rfl⟩ := Prod.mk.inj hobserve
    obtain rfl := Except.error.inj hsame
    exact ⟨.inl ⟨rfl, hbegin⟩, rfl, fun _ _ => ⟨rfl, rfl⟩⟩
  · rcases hfinish with ⟨other, -, hobserve⟩ | ⟨observed, -, hobserve⟩
    · rw [hthrows] at hobserve
      obtain ⟨-, rfl⟩ := Prod.mk.inj hobserve
      have hmarks := hreachable.hasMarks
      obtain ⟨hprepared, hbound, hfree, rfl⟩ := beginSource_eq_ok.mp hbegin
      have hinside : source < aggregator.observedSources.length := hmarks hprepared ▸ hbound
      refine ⟨.inr ⟨rfl, ?_, fun later => ?_⟩, rfl, fun calls hcalls => ?_⟩
      · rw [List.getD_eq_getElem?_getD, List.getElem?_eq_getElem hinside, Option.getD_some] at hfree
        rw [List.getElem?_eq_getElem hinside, hfree]
      · rw [observeSource, beginSource_again hmarks hbegin]
      · have hrun : observeAll folds calls (aggregator.withMark source) =
            ((observeAll folds calls aggregator).1,
              (observeAll folds calls aggregator).2.withMark source) := observeAll_withMark hcalls
        change (observeAll folds calls (aggregator.withMark source)).1 = _ ∧
          (observeAll folds calls (aggregator.withMark source)).2.computeImportance folds = _
        rw [hrun]
        exact ⟨rfl, rfl⟩
    · rw [hthrows] at hobserve
      exact nomatch (Prod.mk.inj hobserve).1

/-- The sums without rounding: the probability that no credit counts is a product. -/
def exactFolds : Folds ℚ where
  zero := 1
  add := (· * ·)
  logSurvival credit := 1 - FloatFormat.single.toRat credit.bits.toNat
  complement survival := ⟨.ofNat (FloatFormat.double.ofRat false (1 - survival))⟩
  addImportance := (· + ·)

def twoSources : Aggregator where
  alpha := ⟨0x3F99999A⟩
  epsilon := kRcniDefaultEpsilon
  sourceCount := 2
  prepared := true
  observedSources := [false, false]
  shards := [[], []]

/-- An event of the first source, of which the witness is no node. -/
def outsideEvent : PruneEvent where
  sourceId := 0
  witnessId := 5
  victimId := 1
  sourceVictimDistance := .one
  witnessVictimDistance := .zero

theorem twoSources_reachable : Reachable exactFolds twoSources := by
  have hcreate : create ⟨0x3F99999A⟩ kRcniDefaultEpsilon =
      .ok { alpha := ⟨0x3F99999A⟩, epsilon := kRcniDefaultEpsilon } := by decide +kernel
  have hprepare : prepare 4 2 { alpha := ⟨0x3F99999A⟩, epsilon := kRcniDefaultEpsilon } =
      .ok twoSources := by decide +kernel
  exact .prepare (.create hcreate) hprepare

/-- A source that can be observed cannot be any more after its events were refused. -/
theorem observeSource_marks_refused :
    Reachable exactFolds twoSources ∧
      (twoSources.observeSource exactFolds 0 []).1 = .ok () ∧
      (twoSources.observeSource exactFolds 0 [outsideEvent]).1 =
        .error (.outOfRange "RCNI event node ID is outside the prepared node range") ∧
      ((twoSources.observeSource exactFolds 0 [outsideEvent]).2.observeSource exactFolds 0 []).1 =
        .error (.logicError "RCNI source was observed more than once") :=
  ⟨twoSources_reachable, by decide +kernel, by decide +kernel, by decide +kernel⟩

theorem observeSource_throws_outside :
    (twoSources.observeSource exactFolds 0 [outsideEvent]).2.computeImportance exactFolds =
      twoSources.computeImportance exactFolds := by
  have hthrows : twoSources.observeSource exactFolds 0 [outsideEvent] =
      (.error (.outOfRange "RCNI event node ID is outside the prepared node range"),
        twoSources.withMark 0) := by decide +kernel
  rw [hthrows]
  exact (observeSource_throws twoSources_reachable hthrows).2.1

end Aggregator

end SkipCell.Rcni

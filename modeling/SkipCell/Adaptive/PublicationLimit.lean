import SkipCell.Adaptive.Mapping
import SkipCell.Adaptive.Threads

/-! # The limit of publications

`try_publish` reads the count of publications before it loads the snapshot and
raises it after the exchange. The limit holds over every interleaving in which
no call loads a snapshot that has reached it and the count reaches it with the
current snapshot; without that, both the count and the final snapshot go wrong.
-/

namespace SkipCell.Adaptive

open Foundation

namespace Shared

/-- What the limit is about is as it was. -/
structure SameTable (shared next : Shared) : Prop where
  config : next.runtime.config = shared.runtime.config
  snapshot : next.runtime.snapshot = shared.runtime.snapshot
  snapshotObject : next.snapshotObject = shared.snapshotObject
  successfulPublishes : next.runtime.successfulPublishes = shared.runtime.successfulPublishes
  finalSnapshot : next.runtime.finalSnapshot = shared.runtime.finalSnapshot

theorem SameTable.refl (shared : Shared) : SameTable shared shared := ⟨rfl, rfl, rfl, rfl, rfl⟩

theorem observeStep_sameTable (shared : Shared) (phase : ObservePhase) :
    SameTable shared (shared.observeStep phase).1 := by
  cases phase with
  | loadLimit loadedCells =>
    simp only [observeStep]
    split
    · exact .refl shared
    · split <;> exact .refl shared
  | loadLimitAgain query =>
    simp only [observeStep]
    split
    · split
      · exact .refl shared
      · split <;> exact .refl shared
    · exact .refl shared
  | acquire query leftLoaded rightLoaded =>
    simp only [observeStep]
    split
    · exact .refl shared
    · split
      · split
        · exact .refl shared
        · split <;> exact .refl shared
      · exact .refl shared
  | _ => exact ⟨rfl, rfl, rfl, rfl, rfl⟩

end Shared

/-! ## One publication -/

namespace PublishPhase

/-- The call is not about to exchange the snapshot, to count its publication or
to store the final snapshot. -/
def plain : PublishPhase → Bool
  | .exchange .. => false
  | .countSuccess .. => false
  | .storeFinal .. => false
  | _ => true

theorem plain_published (replacement : View) : (published replacement).plain = true := by
  unfold published
  split <;> rfl

end PublishPhase

namespace Threads

variable {Caller : Type}

/-- Steps of a call that leave the table alone and lead to no operation on it,
the load of the snapshot apart. -/
theorem publishStep_plain (shared : Shared) (phase : PublishPhase) (hplain : phase.plain = true)
    (hload : ∀ call, phase ≠ .acquire call) :
    shared.SameTable (shared.publishStep phase).1 ∧ (shared.publishStep phase).2.plain = true := by
  cases phase with
  | loadLimit call =>
    simp only [Shared.publishStep]
    split
    · split
      · exact ⟨.refl shared, rfl⟩
      · split <;> exact ⟨.refl shared, rfl⟩
    · exact ⟨.refl shared, rfl⟩
  | profile call field fields loaded =>
    simp only [Shared.publishStep]
    split
    · exact ⟨.refl shared, rfl⟩
    · split <;> exact ⟨.refl shared, rfl⟩
  | acquire call => exact absurd rfl (hload call)
  | exchange => cases hplain
  | countSuccess => cases hplain
  | storeFinal => cases hplain
  | _ => exact ⟨⟨rfl, rfl, rfl, rfl, rfl⟩, rfl⟩

theorem publishStep_acquire (shared : Shared) (call : PublishCall) :
    (shared.publishStep (.acquire call)).1 = shared ∧
      ((shared.publishStep (.acquire call)).2.plain = true ∨
        ∃ replacement, (shared.publishStep (.acquire call)).2 =
          .exchange replacement shared.snapshotObject
            (Runtime.successor shared.runtime.snapshot replacement)) := by
  simp only [Shared.publishStep]
  split
  · split
    · exact ⟨rfl, .inl rfl⟩
    · exact ⟨rfl, .inl rfl⟩
    · exact ⟨rfl, .inr ⟨_, rfl⟩⟩
  · exact ⟨rfl, .inl rfl⟩

/-- The background thread publishes only where it waits for its publication. -/
def BackgroundIdle (threads : Threads Caller) : Prop :=
  (∀ candidate, threads.background ≠ .publish candidate) →
    (threads.publishers none).finished = true

theorem notified_ne_publish {phase : BackgroundPhase}
    (hnotified : ∀ candidate, phase.notified ≠ .publish candidate) (candidate : Nat) :
    phase ≠ .publish candidate := by
  rintro rfl
  exact hnotified candidate rfl

section Idle

variable [DecidableEq Caller] {threads : Threads Caller}

theorem BackgroundIdle.background_step (hidle : threads.BackgroundIdle)
    (hmoves : threads.backgroundMoves) (io : Runtime.Io) :
    (threads.backgroundStep io).BackgroundIdle := by
  intro hnext
  rw [backgroundStep] at hnext ⊢
  cases hphase : threads.background with
  | publish candidate =>
    rw [backgroundMoves, hphase] at hmoves
    exact hmoves
  | loadForced candidate replacement =>
    simp only [hphase] at hnext
    exact absurd rfl (hnext candidate)
  | build candidate =>
    have hfinished := hidle fun candidate => by simp [hphase]
    simp only
    split
    · exact hfinished
    · split <;> exact hfinished
  | _ => exact hidle fun candidate => by simp [hphase]

theorem BackgroundIdle.perform_step (hidle : threads.BackgroundIdle)
    (action : ThreadAction Caller) (hpermitted : threads.Permitted action) :
    (threads.perform action).BackgroundIdle := by
  cases action with
  | callPublish caller call =>
    intro hnext
    simp only [perform, Function.update_of_ne (Option.some_ne_none caller).symm]
    exact hidle hnext
  | callObserve caller loadedCells => exact hidle
  | publish publisher =>
    intro hnext
    have hfinished := hidle hnext
    have hother : none ≠ publisher := fun heq => by
      rw [Permitted, ← heq, hfinished] at hpermitted
      cases hpermitted
    simp only [perform, publisherStep, Function.update_of_ne hother]
    exact hfinished
  | observe caller =>
    intro hnext
    refine hidle ?_
    simp only [perform, observerStep] at hnext
    split at hnext
    · exact notified_ne_publish hnext
    · exact hnext
  | background io => exact hidle.background_step hpermitted io
  | destroy =>
    intro hnext
    simp only [perform, destroyStep] at hnext ⊢
    cases hdestructor : threads.destructor with
    | notifyAll =>
      rw [hdestructor] at hnext
      exact hidle (notified_ne_publish hnext)
    | _ =>
      rw [hdestructor] at hnext
      exact hidle hnext
  | wakeSpuriously => exact fun hnext => hidle (notified_ne_publish hnext)

end Idle

/-! ## The condition and the limit -/

/-- A call loads no snapshot that the limit has been reached with, and the count
that reaches the limit is made by the call whose snapshot is the current one. -/
def KeepsLimit (threads : Threads Caller) : ThreadAction Caller → Prop
  | .publish publisher =>
    match threads.publishers publisher with
    | .acquire _ =>
      threads.shared.runtime.snapshot.generation <
        threads.shared.runtime.config.maximumSuccessfulPublishes
    | .countSuccess _ desired =>
      threads.shared.runtime.config.maximumSuccessfulPublishes ≤
          threads.shared.runtime.successfulPublishes + 1 →
        desired.generation = threads.shared.runtime.snapshot.generation
    | _ => True
  | _ => True

/-- The publications that have been made, the count of them and the final
snapshot agree with the limit. The call that reaches the limit stores the final
snapshot in the operation after its count. -/
structure LimitKept (config : Config) (threads : Threads Caller) : Prop where
  publications : threads.shared.snapshotObject ≤ config.maximumSuccessfulPublishes
  counted : threads.shared.runtime.successfulPublishes ≤ config.maximumSuccessfulPublishes
  reached : config.maximumSuccessfulPublishes ≤ threads.shared.runtime.successfulPublishes →
    threads.shared.runtime.finalSnapshot = some threads.shared.runtime.snapshot ∨
      ∃ publisher replacement, threads.publishers publisher =
        .storeFinal replacement threads.shared.runtime.snapshot
  final : ∀ snapshot, threads.shared.runtime.finalSnapshot = some snapshot →
    snapshot = threads.shared.runtime.snapshot

/-- What every interleaving under the condition keeps. `counted` holds the
generations whose publications have been counted. -/
structure Limited (config : Config) (threads : Threads Caller) (counted : Finset Nat) : Prop where
  sameConfig : threads.shared.runtime.config = config
  generation : threads.shared.runtime.snapshot.generation = threads.shared.snapshotObject
  bounded : threads.shared.snapshotObject ≤ config.maximumSuccessfulPublishes
  card : counted.card = threads.shared.runtime.successfulPublishes
  range : ∀ generation ∈ counted, 1 ≤ generation ∧ generation ≤ threads.shared.snapshotObject
  exchanging : ∀ publisher replacement current desired,
    threads.publishers publisher = .exchange replacement current desired →
      current < config.maximumSuccessfulPublishes ∧ desired.generation = current + 1
  uncounted : ∀ publisher replacement desired,
    threads.publishers publisher = .countSuccess replacement desired →
      1 ≤ desired.generation ∧ desired.generation ≤ threads.shared.snapshotObject ∧
        desired.generation ∉ counted ∧
        (desired.generation = threads.shared.snapshotObject →
          desired = threads.shared.runtime.snapshot)
  apart : ∀ first second firstReplacement secondReplacement firstDesired secondDesired,
    threads.publishers first = .countSuccess firstReplacement firstDesired →
      threads.publishers second = .countSuccess secondReplacement secondDesired →
      firstDesired.generation = secondDesired.generation → first = second
  storing : ∀ publisher replacement desired,
    threads.publishers publisher = .storeFinal replacement desired →
      desired = threads.shared.runtime.snapshot ∧
        config.maximumSuccessfulPublishes ≤ threads.shared.runtime.successfulPublishes
  final : ∀ snapshot, threads.shared.runtime.finalSnapshot = some snapshot →
    snapshot = threads.shared.runtime.snapshot ∧
      config.maximumSuccessfulPublishes ≤ threads.shared.runtime.successfulPublishes
  reached : config.maximumSuccessfulPublishes ≤ threads.shared.runtime.successfulPublishes →
    threads.shared.runtime.finalSnapshot = some threads.shared.runtime.snapshot ∨
      ∃ publisher replacement, threads.publishers publisher =
        .storeFinal replacement threads.shared.runtime.snapshot

namespace Limited

variable {config : Config} {threads next : Threads Caller} {counted : Finset Nat}

theorem limitKept (hlimited : Limited config threads counted) : LimitKept config threads where
  publications := hlimited.bounded
  counted := by
    have hsubset : counted ⊆ Finset.Icc 1 threads.shared.snapshotObject := fun generation hmem =>
      Finset.mem_Icc.mpr (hlimited.range generation hmem)
    have hcard := Finset.card_le_card hsubset
    rw [hlimited.card, Nat.card_Icc] at hcard
    have := hlimited.bounded
    omega
  reached := hlimited.reached
  final := fun snapshot hfinal => (hlimited.final snapshot hfinal).1

theorem start (hpositive : 0 < config.maximumSuccessfulPublishes) {fixedCells : List CellPageRange}
    {candidates : List MergeCandidate} {physical : Option Physical} {runtime : Runtime}
    (hcreate : initializeRuntime fixedCells candidates config physical = .ok runtime)
    (background : BackgroundConfig) :
    Limited config (Threads.start runtime background : Threads Caller) ∅ := by
  have hcreated := created_of_initializeRuntime hcreate
  have hfinal : runtime.finalSnapshot = none := by
    unfold initializeRuntime at hcreate
    split at hcreate
    · cases hcreate
    · split at hcreate
      · cases hcreate
      · split at hcreate
        · cases hcreate
        · rw [← Except.ok.inj hcreate]
  exact
    { sameConfig := hcreated.config
      generation := hcreated.generation
      bounded := Nat.zero_le _
      card := hcreated.successfulPublishes.symm
      range := by simp
      exchanging := by simp [Threads.start]
      uncounted := by simp [Threads.start]
      apart := by simp [Threads.start]
      storing := by simp [Threads.start]
      final := by simp [Threads.start, hfinal]
      reached := fun hreached => by
        simp only [Threads.start, hcreated.successfulPublishes] at hreached
        omega }

theorem of_plain (hlimited : Limited config threads counted)
    (htable : threads.shared.SameTable next.shared)
    (hmoved : ∀ publisher, next.publishers publisher = threads.publishers publisher ∨
      (threads.publishers publisher).plain = true ∧ (next.publishers publisher).plain = true) :
    Limited config next counted := by
  have hkept : ∀ publisher phase, phase.plain = false → next.publishers publisher = phase →
      threads.publishers publisher = phase := by
    intro publisher phase hphase hnext
    rcases hmoved publisher with hsame | ⟨-, hplain⟩
    · rw [← hsame, hnext]
    · rw [hnext, hphase] at hplain
      cases hplain
  have hback : ∀ publisher phase, phase.plain = false → threads.publishers publisher = phase →
      next.publishers publisher = phase := by
    intro publisher phase hphase hold
    rcases hmoved publisher with hsame | ⟨hplain, -⟩
    · rw [hsame, hold]
    · rw [hold, hphase] at hplain
      cases hplain
  refine
    { sameConfig := htable.config.trans hlimited.sameConfig
      generation := by rw [htable.snapshot, htable.snapshotObject, hlimited.generation]
      bounded := by rw [htable.snapshotObject]; exact hlimited.bounded
      card := by rw [htable.successfulPublishes]; exact hlimited.card
      range := by rw [htable.snapshotObject]; exact hlimited.range
      exchanging := fun publisher replacement current desired hphase =>
        hlimited.exchanging publisher replacement current desired (hkept publisher _ rfl hphase)
      uncounted := ?_
      apart := fun first second firstReplacement secondReplacement firstDesired secondDesired
        hfirst hsecond => hlimited.apart first second firstReplacement secondReplacement
          firstDesired secondDesired (hkept first _ rfl hfirst) (hkept second _ rfl hsecond)
      storing := ?_
      final := ?_
      reached := ?_ }
  · intro publisher replacement desired hphase
    rw [htable.snapshotObject, htable.snapshot]
    exact hlimited.uncounted publisher replacement desired (hkept publisher _ rfl hphase)
  · intro publisher replacement desired hphase
    rw [htable.snapshot, htable.successfulPublishes]
    exact hlimited.storing publisher replacement desired (hkept publisher _ rfl hphase)
  · intro snapshot hfinal
    rw [htable.finalSnapshot] at hfinal
    rw [htable.snapshot, htable.successfulPublishes]
    exact hlimited.final snapshot hfinal
  · intro hreached
    rw [htable.successfulPublishes] at hreached
    rw [htable.finalSnapshot, htable.snapshot]
    rcases hlimited.reached hreached with hfinal | ⟨publisher, replacement, hphase⟩
    · exact .inl hfinal
    · exact .inr ⟨publisher, replacement, hback publisher _ rfl hphase⟩

theorem of_sameTable (hlimited : Limited config threads counted)
    (htable : threads.shared.SameTable next.shared)
    (hpublishers : next.publishers = threads.publishers) : Limited config next counted :=
  hlimited.of_plain htable fun publisher => .inl (congrFun hpublishers publisher)

variable [DecidableEq Caller]

theorem of_plain_update (hlimited : Limited config threads counted) {shared : Shared}
    (htable : threads.shared.SameTable shared) (publisher : Option Caller) {phase : PublishPhase}
    (hold : (threads.publishers publisher).plain = true) (hnew : phase.plain = true)
    (hshared : next.shared = shared)
    (hpublishers : next.publishers = Function.update threads.publishers publisher phase) :
    Limited config next counted := by
  refine hlimited.of_plain (hshared ▸ htable) fun other => ?_
  rw [hpublishers]
  by_cases hother : other = publisher
  · subst hother
    rw [Function.update_self]
    exact .inr ⟨hold, hnew⟩
  · rw [Function.update_of_ne hother]
    exact .inl rfl

theorem load_step (hlimited : Limited config threads counted) {publisher : Option Caller}
    {replacement : View} (hold : (threads.publishers publisher).plain = true)
    (hbelow : threads.shared.runtime.snapshot.generation < config.maximumSuccessfulPublishes) :
    Limited config
      { threads with
        publishers := Function.update threads.publishers publisher
          (.exchange replacement threads.shared.snapshotObject
            (Runtime.successor threads.shared.runtime.snapshot replacement)) } counted := by
  have hkept : ∀ other phase, (∀ replacement current desired,
      phase ≠ .exchange replacement current desired) →
      Function.update threads.publishers publisher
        (.exchange replacement threads.shared.snapshotObject
          (Runtime.successor threads.shared.runtime.snapshot replacement)) other = phase →
      threads.publishers other = phase := by
    intro other phase hphase hnext
    by_cases hother : other = publisher
    · rw [hother, Function.update_self] at hnext
      exact absurd hnext.symm (hphase _ _ _)
    · rwa [Function.update_of_ne hother] at hnext
  refine
    { hlimited with
      exchanging := ?_, uncounted := ?_, apart := ?_, storing := ?_, reached := ?_ }
  · intro other found current desired hphase
    by_cases hother : other = publisher
    · rw [hother] at hphase
      simp only [Function.update_self, PublishPhase.exchange.injEq] at hphase
      obtain ⟨-, rfl, rfl⟩ := hphase
      rw [← hlimited.generation]
      exact ⟨hbelow, rfl⟩
    · simp only [Function.update_of_ne hother] at hphase
      exact hlimited.exchanging other found current desired hphase
  · intro other found desired hphase
    exact hlimited.uncounted other found desired (hkept other _ (fun _ _ _ => by simp) hphase)
  · intro first second firstReplacement secondReplacement firstDesired secondDesired hfirst hsecond
    exact hlimited.apart first second _ _ _ _ (hkept first _ (fun _ _ _ => by simp) hfirst)
      (hkept second _ (fun _ _ _ => by simp) hsecond)
  · intro other found desired hphase
    exact hlimited.storing other found desired (hkept other _ (fun _ _ _ => by simp) hphase)
  · intro hreached
    rcases hlimited.reached hreached with hfinal | ⟨other, found, hphase⟩
    · exact .inl hfinal
    · refine .inr ⟨other, found, ?_⟩
      have hother : other ≠ publisher := fun heq => by
        rw [← heq, hphase] at hold
        cases hold
      simp only [Function.update_of_ne hother]
      exact hphase

theorem phase_of_update {publishers : Option Caller → PublishPhase} {publisher other : Option Caller}
    {new phase : PublishPhase} (hphase : Function.update publishers publisher new other = phase)
    (hne : new ≠ phase) : publishers other = phase := by
  by_cases hother : other = publisher
  · rw [hother, Function.update_self] at hphase
    exact absurd hphase hne
  · rwa [Function.update_of_ne hother] at hphase

section

variable (hlimited : Limited config threads counted) {publisher : Option Caller}
  {replacement : View} {desired : Snapshot}
include hlimited

/-- The exchange succeeds on the snapshot that was loaded, which was below the
limit and has not been replaced since. -/
theorem exchange_step
    (hold : threads.publishers publisher = .exchange replacement threads.shared.snapshotObject
      desired) :
    Limited config
      { threads with
        shared :=
          { threads.shared with
            runtime.snapshot := desired
            snapshotObject := threads.shared.snapshotObject + 1 }
        publishers := Function.update threads.publishers publisher
          (.countSuccess replacement desired) } counted := by
  obtain ⟨hbelow, hgeneration⟩ := hlimited.exchanging publisher _ _ _ hold
  have hunreached : ¬ config.maximumSuccessfulPublishes ≤
      threads.shared.runtime.successfulPublishes := fun hreached => by
    have hcounted := hlimited.limitKept.counted
    have hcard := hlimited.card
    have hsubset : counted ⊆ Finset.Icc 1 threads.shared.snapshotObject := fun generation hmem =>
      Finset.mem_Icc.mpr (hlimited.range generation hmem)
    have hbound := Finset.card_le_card hsubset
    rw [Nat.card_Icc] at hbound
    omega
  have hfresh : desired.generation ∉ counted := fun hmem => by
    have := (hlimited.range _ hmem).2
    omega
  refine
    { sameConfig := hlimited.sameConfig
      generation := hgeneration
      bounded := hbelow
      card := hlimited.card
      range := fun generation hmem => ?_
      exchanging := ?_
      uncounted := ?_
      apart := ?_
      storing := ?_
      final := ?_
      reached := fun hreached => absurd hreached hunreached }
  · have := hlimited.range generation hmem
    exact ⟨this.1, Nat.le_succ_of_le this.2⟩
  · intro other found current other_desired hphase
    exact hlimited.exchanging other found current other_desired
      (phase_of_update hphase (by simp))
  · intro other found other_desired hphase
    by_cases hother : other = publisher
    · subst hother
      simp only [Function.update_self, PublishPhase.countSuccess.injEq] at hphase
      obtain ⟨-, rfl⟩ := hphase
      exact ⟨by omega, hgeneration.le, hfresh, fun _ => rfl⟩
    · simp only [Function.update_of_ne hother] at hphase
      obtain ⟨hpositive, hbound, hmem, -⟩ := hlimited.uncounted other found other_desired hphase
      refine ⟨hpositive, Nat.le_succ_of_le hbound, hmem, fun heq => ?_⟩
      simp only at heq
      omega
  · intro first second firstReplacement secondReplacement firstDesired secondDesired hfirst hsecond
      hsame
    have hbound : ∀ other found other_desired, other ≠ publisher →
        Function.update threads.publishers publisher (.countSuccess replacement desired) other =
          .countSuccess found other_desired →
        other_desired.generation ≠ desired.generation ∧
          threads.publishers other = .countSuccess found other_desired := by
      intro other found other_desired hother hphase
      rw [Function.update_of_ne hother] at hphase
      have := (hlimited.uncounted other found other_desired hphase).2.1
      exact ⟨by omega, hphase⟩
    have hself : ∀ found other_desired,
        Function.update threads.publishers publisher (.countSuccess replacement desired) publisher =
          .countSuccess found other_desired → other_desired = desired := by
      intro found other_desired hphase
      rw [Function.update_self, PublishPhase.countSuccess.injEq] at hphase
      exact hphase.2.symm
    by_cases hone : first = publisher
    · by_cases htwo : second = publisher
      · exact hone.trans htwo.symm
      · subst hone
        rw [hself _ _ hfirst] at hsame
        exact absurd hsame.symm (hbound second _ _ htwo hsecond).1
    · by_cases htwo : second = publisher
      · subst htwo
        rw [hself _ _ hsecond] at hsame
        exact absurd hsame (hbound first _ _ hone hfirst).1
      · exact hlimited.apart first second _ _ _ _ (hbound first _ _ hone hfirst).2
          (hbound second _ _ htwo hsecond).2 hsame
  · intro other found other_desired hphase
    exact absurd (hlimited.storing other found other_desired
      (phase_of_update hphase (by simp))).2 hunreached
  · intro snapshot hfinal
    exact absurd (hlimited.final snapshot hfinal).2 hunreached

theorem count_step (hold : threads.publishers publisher = .countSuccess replacement desired)
    (hlast : config.maximumSuccessfulPublishes ≤ threads.shared.runtime.successfulPublishes + 1 →
      desired.generation = threads.shared.runtime.snapshot.generation) :
    Limited config
      { threads with
        shared :=
          { threads.shared with
            runtime.successfulPublishes := threads.shared.runtime.successfulPublishes + 1 }
        publishers := Function.update threads.publishers publisher
          (if config.maximumSuccessfulPublishes ≤ threads.shared.runtime.successfulPublishes + 1
            then .storeFinal replacement desired else .published replacement) }
      (insert desired.generation counted) := by
  obtain ⟨hpositive, hbound, hfresh, hcurrent⟩ := hlimited.uncounted publisher _ _ hold
  rw [hlimited.generation] at hlast
  have hplain := PublishPhase.plain_published replacement
  have hkept : ∀ {other : Option Caller} {phase : PublishPhase}, phase.plain = false →
      (∀ found other_desired, phase ≠ .storeFinal found other_desired) →
      Function.update threads.publishers publisher
        (if config.maximumSuccessfulPublishes ≤ threads.shared.runtime.successfulPublishes + 1
          then .storeFinal replacement desired else .published replacement) other = phase →
      threads.publishers other = phase ∧ other ≠ publisher := by
    intro other phase hphase hstore hnext
    have hne : (if config.maximumSuccessfulPublishes ≤
        threads.shared.runtime.successfulPublishes + 1
        then .storeFinal replacement desired else .published replacement) ≠ phase := by
      split
      · exact (hstore _ _).symm
      · intro heq
        rw [← heq, hplain] at hphase
        cases hphase
    refine ⟨phase_of_update hnext hne, fun heq => ?_⟩
    rw [heq, Function.update_self] at hnext
    exact hne hnext
  refine
    { sameConfig := hlimited.sameConfig
      generation := hlimited.generation
      bounded := hlimited.bounded
      card := by rw [Finset.card_insert_of_notMem hfresh, hlimited.card]
      range := fun generation hmem => ?_
      exchanging := fun other found current other_desired hphase =>
        hlimited.exchanging other found current other_desired (hkept rfl (by simp) hphase).1
      uncounted := ?_
      apart := fun first second firstReplacement secondReplacement firstDesired secondDesired
        hfirst hsecond => hlimited.apart first second firstReplacement secondReplacement
          firstDesired secondDesired (hkept rfl (by simp) hfirst).1 (hkept rfl (by simp) hsecond).1
      storing := ?_
      final := fun snapshot hfinal => ⟨(hlimited.final snapshot hfinal).1,
        Nat.le_succ_of_le (hlimited.final snapshot hfinal).2⟩
      reached := fun hreached => ?_ }
  · rcases Finset.mem_insert.mp hmem with rfl | hmem
    · exact ⟨hpositive, hbound⟩
    · exact hlimited.range generation hmem
  · intro other found other_desired hphase
    obtain ⟨hphase, hother⟩ := hkept rfl (by simp) hphase
    obtain ⟨hpositive, hbound, hmem, hlatest⟩ :=
      hlimited.uncounted other found other_desired hphase
    refine ⟨hpositive, hbound, fun hinsert => ?_, hlatest⟩
    rcases Finset.mem_insert.mp hinsert with heq | hold'
    · exact hother (hlimited.apart other publisher _ _ _ _ hphase hold heq)
    · exact hmem hold'
  · intro other found other_desired hphase
    by_cases hother : other = publisher
    · subst hother
      simp only [Function.update_self] at hphase
      split at hphase
      · next hlimit =>
          obtain ⟨-, rfl⟩ := PublishPhase.storeFinal.inj hphase
          exact ⟨hcurrent (hlast hlimit), hlimit⟩
      · rw [hphase] at hplain
        cases hplain
    · simp only [Function.update_of_ne hother] at hphase
      exact ⟨(hlimited.storing other found other_desired hphase).1,
        Nat.le_succ_of_le (hlimited.storing other found other_desired hphase).2⟩
  · refine .inr ⟨publisher, replacement, ?_⟩
    simp only at hreached
    simp only [Function.update_self, hreached, if_true]
    rw [hcurrent (hlast hreached)]

theorem store_step (hold : threads.publishers publisher = .storeFinal replacement desired) :
    Limited config
      { threads with
        shared := { threads.shared with runtime.finalSnapshot := some desired }
        publishers := Function.update threads.publishers publisher (.published replacement) }
      counted := by
  obtain ⟨rfl, hreached⟩ := hlimited.storing publisher _ _ hold
  have hplain := PublishPhase.plain_published replacement
  have hkept : ∀ {other : Option Caller} {phase : PublishPhase}, phase.plain = false →
      Function.update threads.publishers publisher (.published replacement) other = phase →
      threads.publishers other = phase := by
    intro other phase hphase hnext
    refine phase_of_update hnext fun heq => ?_
    rw [← heq, hplain] at hphase
    cases hphase
  exact
    { hlimited with
      exchanging := fun other found current other_desired hphase =>
        hlimited.exchanging other found current other_desired (hkept rfl hphase)
      uncounted := fun other found other_desired hphase =>
        hlimited.uncounted other found other_desired (hkept rfl hphase)
      apart := fun first second firstReplacement secondReplacement firstDesired secondDesired
        hfirst hsecond => hlimited.apart first second firstReplacement secondReplacement
          firstDesired secondDesired (hkept rfl hfirst) (hkept rfl hsecond)
      storing := fun other found other_desired hphase =>
        hlimited.storing other found other_desired (hkept rfl hphase)
      final := fun snapshot hfinal => ⟨(Option.some.inj hfinal).symm, hreached⟩
      reached := fun _ => .inl rfl }

end

theorem publisher_step (hlimited : Limited config threads counted) (publisher : Option Caller)
    (hcondition : threads.KeepsLimit (.publish publisher)) :
    ∃ counted, Limited config (threads.publisherStep publisher) counted := by
  simp only [publisherStep]
  simp only [KeepsLimit] at hcondition
  cases hphase : threads.publishers publisher with
  | acquire call =>
    simp only [hphase, hlimited.sameConfig] at hcondition
    obtain ⟨hshared, hnext⟩ := publishStep_acquire threads.shared call
    rcases hnext with hplain | ⟨replacement, hexchange⟩
    · exact ⟨counted, hlimited.of_plain_update (by rw [hshared]; exact .refl _) publisher
        (by rw [hphase]; rfl) hplain rfl rfl⟩
    · rw [hshared, hexchange]
      exact ⟨counted, hlimited.load_step (by rw [hphase]; rfl) hcondition⟩
  | exchange replacement current desired =>
    simp only [Shared.publishStep]
    split
    · next hcurrent =>
        subst hcurrent
        exact ⟨counted, hlimited.exchange_step hphase⟩
    · have hkept : ∀ other phase, phase.plain = false →
          Function.update threads.publishers publisher .countConflict other = phase →
          threads.publishers other = phase := fun other phase hphase hnext =>
        phase_of_update hnext fun heq => by
          rw [← heq] at hphase
          cases hphase
      refine ⟨counted, { hlimited with
        exchanging := fun other found current other_desired hphase =>
          hlimited.exchanging other found current other_desired (hkept _ _ rfl hphase)
        uncounted := fun other found other_desired hphase =>
          hlimited.uncounted other found other_desired (hkept _ _ rfl hphase)
        apart := fun first second firstReplacement secondReplacement firstDesired secondDesired
          hfirst hsecond => hlimited.apart first second firstReplacement secondReplacement
            firstDesired secondDesired (hkept _ _ rfl hfirst) (hkept _ _ rfl hsecond)
        storing := fun other found other_desired hphase =>
          hlimited.storing other found other_desired (hkept _ _ rfl hphase)
        reached := fun hreached => ?_ }⟩
      rcases hlimited.reached hreached with hfinal | ⟨other, found, hstore⟩
      · exact .inl hfinal
      · refine .inr ⟨other, found, ?_⟩
        have hother : other ≠ publisher := fun heq => by
          rw [heq, hphase] at hstore
          cases hstore
        simp only [Function.update_of_ne hother]
        exact hstore
  | countSuccess replacement desired =>
    obtain rfl := hlimited.sameConfig
    simp only [hphase] at hcondition
    exact ⟨_, hlimited.count_step hphase hcondition⟩
  | storeFinal replacement desired => exact ⟨counted, hlimited.store_step hphase⟩
  | _ =>
    have hplain := publishStep_plain threads.shared (threads.publishers publisher)
      (by rw [hphase]; rfl) (by simp [hphase])
    rw [hphase] at hplain
    exact ⟨counted, hlimited.of_plain_update hplain.1 publisher (by rw [hphase]; rfl) hplain.2
      rfl rfl⟩

theorem background_step (hlimited : Limited config threads counted) (io : Runtime.Io)
    (hidle : threads.BackgroundIdle) :
    Limited config (threads.backgroundStep io) counted := by
  rw [backgroundStep]
  cases hphase : threads.background with
  | build candidate =>
    simp only
    split
    · exact hlimited.of_sameTable (.refl _) rfl
    · next pair hpair =>
        obtain ⟨overlay, nextOverlayPage, checksumFailures, hruntime⟩ :=
          Runtime.makePhysicalReplacement_fields threads.shared.runtime pair io
        split
        all_goals
          next heq =>
            rw [heq] at hruntime
            refine hlimited.of_sameTable ?_ rfl
            simp only at hruntime
            subst hruntime
            exact ⟨rfl, rfl, rfl, rfl, rfl⟩
  | loadForced candidate replacement =>
    refine hlimited.of_plain_update (.refl _) none ?_ (by rfl) rfl rfl
    have hfinished := hidle fun candidate => by simp [hphase]
    cases hold : threads.publishers none <;> simp_all [PublishPhase.finished, PublishPhase.plain]
  | _ => exact hlimited.of_sameTable ⟨rfl, rfl, rfl, rfl, rfl⟩ rfl

theorem perform_step (hlimited : Limited config threads counted) (hidle : threads.BackgroundIdle)
    {action : ThreadAction Caller} (hcondition : threads.KeepsLimit action)
    (hpermitted : threads.Permitted action) :
    ∃ counted, Limited config (threads.perform action) counted := by
  cases action with
  | callPublish caller call =>
    have hfinished : (threads.publishers (some caller)).finished = true := hpermitted.1
    refine ⟨counted, hlimited.of_plain_update (.refl _) (some caller) ?_ (by rfl) rfl rfl⟩
    cases hold : threads.publishers (some caller) <;>
      simp_all [PublishPhase.finished, PublishPhase.plain]
  | callObserve caller loadedCells => exact ⟨counted, hlimited.of_sameTable (.refl _) rfl⟩
  | publish publisher => exact hlimited.publisher_step publisher hcondition
  | observe caller =>
    exact ⟨counted, hlimited.of_sameTable (Shared.observeStep_sameTable _ _) rfl⟩
  | background io => exact ⟨counted, hlimited.background_step io hidle⟩
  | destroy =>
    refine ⟨counted, ?_⟩
    simp only [perform, destroyStep]
    split
    all_goals exact hlimited.of_sameTable ⟨rfl, rfl, rfl, rfl, rfl⟩ rfl
  | wakeSpuriously => exact ⟨counted, hlimited.of_sameTable (.refl _) rfl⟩

end Limited

/-- What every state of a run under the condition meets. -/
def LimitInvariant (config : Config) (threads : Threads Caller) : Prop :=
  (∃ counted, Limited config threads counted) ∧ threads.BackgroundIdle

/-- Over every interleaving that meets the condition, no more than the maximum
is published, and once the call that reaches it has stored the final snapshot,
that is the current one for good. -/
theorem publication_limit {fixedCells : List CellPageRange} {candidates : List MergeCandidate}
    {config : Config} {physical : Option Physical} {background : BackgroundConfig}
    [DecidableEq Caller] (hpositive : 0 < config.maximumSuccessfulPublishes)
    {threads : Threads Caller}
    (hreach : ((Threads.transition fixedCells candidates config physical background).restrict
      KeepsLimit).Reachable threads) : LimitKept config threads := by
  have hinvariant : LimitInvariant config threads := by
    refine hreach.invariant ?_ ?_
    · rintro _ ⟨runtime, hcreate, rfl⟩
      exact ⟨⟨∅, Limited.start hpositive hcreate background⟩, fun _ => rfl⟩
    · rintro state action _ ⟨⟨counted, hlimited⟩, hidle⟩ ⟨hcondition, hpermitted, rfl⟩
      exact ⟨hlimited.perform_step hidle hcondition hpermitted,
        hidle.perform_step action hpermitted⟩
  obtain ⟨⟨counted, hlimited⟩, -⟩ := hinvariant
  exact hlimited.limitKept

instance (threads : Threads Caller) : (action : ThreadAction Caller) →
    Decidable (threads.KeepsLimit action)
  | .publish publisher => by
    simp only [KeepsLimit]
    split <;> infer_instance
  | .callPublish _ _ => .isTrue trivial
  | .callObserve _ _ => .isTrue trivial
  | .observe _ => .isTrue trivial
  | .background _ => .isTrue trivial
  | .destroy => .isTrue trivial
  | .wakeSpuriously => .isTrue trivial

def oneMerge : Config := { enabled := true, maximumSuccessfulPublishes := 1 }

def oneMergeStart : Threads Bool :=
  start ((initializeRuntime Session.threeCells [⟨0, 1⟩, ⟨1, 2⟩] oneMerge none).toOption.get
    (by decide)) {}

theorem oneMergeStart_initial : (transition Session.threeCells [⟨0, 1⟩, ⟨1, 2⟩] oneMerge none
    ({} : BackgroundConfig)).initial oneMergeStart := ⟨_, rfl, rfl⟩

def firstMerge : List (ThreadAction Bool) :=
  .callPublish false ⟨0, some ⟨2 ^ 32, 1, 64, 61, true, [0, 1], [⟨0, 8⟩], [], [], 0, 0⟩, true⟩ ::
    List.replicate 4 (.publish (some false))

/-- The second caller merges the rest before the first has counted, counts and
stores first, and the first caller then stores the older snapshot. -/
def overtakenMerge : List (ThreadAction Bool) :=
  firstMerge ++
    .callPublish true
      ⟨1, some ⟨2 ^ 33, 2, 128, 81, true, [0, 1, 2], [⟨0, 12⟩], [], [], 0, 0⟩, true⟩ ::
    (List.replicate 6 (.publish (some true)) ++ List.replicate 2 (.publish (some false)))

/-- With every call returned, twice the limit is published and the final
snapshot is not the current one. -/
theorem publication_limit_exceeded : ∃ threads : Threads Bool,
    (transition Session.threeCells [⟨0, 1⟩, ⟨1, 2⟩] oneMerge none {}).Reachable threads ∧
      oneMerge.maximumSuccessfulPublishes < threads.shared.snapshotObject ∧
      oneMerge.maximumSuccessfulPublishes < threads.shared.runtime.successfulPublishes ∧
      (∀ publisher, (threads.publishers publisher).finished = true) ∧
      threads.shared.runtime.finalSnapshot ≠ some threads.shared.runtime.snapshot := by
  refine ⟨overtakenMerge.foldl perform oneMergeStart,
    Transition.reachable_of_permitted oneMergeStart_initial (by decide +kernel),
    by decide +kernel, by decide +kernel, by decide +kernel, ?_⟩
  intro hcurrent
  have hgeneration := congrArg (Option.map Snapshot.generation) hcurrent
  revert hgeneration
  decide +kernel

/-- The first caller alone reaches the limit and stores its own snapshot. -/
theorem publication_limit_firstMerge :
    LimitKept oneMerge
      ((firstMerge ++ List.replicate 2 (ThreadAction.publish (some false))).foldl perform
        oneMergeStart) :=
  publication_limit (by decide)
    (Transition.reachable_restrict_of_permitted oneMergeStart_initial (by decide +kernel))

end Threads

end SkipCell.Adaptive

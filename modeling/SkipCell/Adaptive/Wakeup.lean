import SkipCell.Adaptive.Mapping
import SkipCell.Adaptive.Threads

/-! # The wake-up of the background thread

Observers and the destructor set a flag and then notify, without the mutex of
the wait. A notification that comes after the predicate has passed the flag and
before the thread sleeps is lost; over the interleavings without such a one, the
thread never sleeps on a set flag.
-/

namespace SkipCell.Adaptive

open Foundation

namespace Shared

/-- The flags of the wait and the candidates they belong to are as they were. -/
structure SameFlags (shared next : Shared) : Prop where
  pending : next.pending = shared.pending
  stopBackground : next.stopBackground = shared.stopBackground
  candidates : next.runtime.candidates = shared.runtime.candidates

theorem SameFlags.refl (shared : Shared) : SameFlags shared shared := ⟨rfl, rfl, rfl⟩

theorem publishStep_sameFlags (shared : Shared) (phase : PublishPhase) :
    SameFlags shared (shared.publishStep phase).1 := by
  cases phase with
  | loadLimit call =>
    simp only [publishStep]
    split
    · split
      · exact .refl shared
      · split <;> exact .refl shared
    · exact .refl shared
  | profile call field fields loaded =>
    simp only [publishStep]
    split
    · exact .refl shared
    · split <;> exact .refl shared
  | acquire call =>
    simp only [publishStep]
    split
    · split <;> exact .refl shared
    · exact .refl shared
  | exchange replacement current desired =>
    simp only [publishStep]
    split
    · exact ⟨rfl, rfl, rfl⟩
    · exact .refl shared
  | _ => exact ⟨rfl, rfl, rfl⟩

theorem observeStep_flags (shared : Shared) (phase : ObservePhase) :
    SameFlags shared (shared.observeStep phase).1 ∨
      phase.notifies = false ∧ (shared.observeStep phase).2.notifies = true ∧
        (shared.observeStep phase).1.pending.length = shared.pending.length ∧
        (shared.observeStep phase).1.runtime.candidates = shared.runtime.candidates := by
  cases phase with
  | loadLimit loadedCells =>
    simp only [observeStep]
    split
    · exact .inl (.refl shared)
    · split <;> exact .inl (.refl shared)
  | loadLimitAgain query =>
    simp only [observeStep]
    split
    · split
      · exact .inl (.refl shared)
      · split <;> exact .inl (.refl shared)
    · exact .inl (.refl shared)
  | acquire query leftLoaded rightLoaded =>
    simp only [observeStep]
    split
    · exact .inl (.refl shared)
    · split
      · split
        · exact .inl (.refl shared)
        · split <;> exact .inl (.refl shared)
      · exact .inl (.refl shared)
  | setForcedPending query => exact .inr ⟨rfl, rfl, List.length_set, rfl⟩
  | setPending query => exact .inr ⟨rfl, rfl, List.length_set, rfl⟩
  | _ => exact .inl ⟨rfl, rfl, rfl⟩

end Shared

namespace Threads

section Flags

variable {Caller : Type}

/-- The predicate of the wait has passed a flag that is set now. -/
def Missed (threads : Threads Caller) : Prop :=
  match threads.background with
  | .predicatePending candidate =>
    threads.shared.stopBackground = true ∨ true ∈ threads.shared.pending.take candidate
  | .enterWait => threads.shared.stopBackground = true ∨ true ∈ threads.shared.pending
  | .asleep => threads.shared.stopBackground = true ∨ true ∈ threads.shared.pending
  | _ => False

instance (threads : Threads Caller) : Decidable threads.Missed := by
  delta Missed
  exact match threads.background with
  | .predicatePending _ | .enterWait | .asleep => inferInstanceAs (Decidable (_ ∨ _))
  | .absent | .loadStop | .predicateStop | .exchangePending _ | .addActive _ | .build _
  | .loadForced _ _ | .publish _ | .removeActive _ | .notifyAll _ | .stopped =>
    inferInstanceAs (Decidable False)

/-- Some thread has set a flag and sends its notification next. -/
def Notifying (threads : Threads Caller) : Prop :=
  (∃ caller, (threads.observers caller).notifies = true) ∨ threads.destructor = .notifyAll

/-- No notification comes between the predicate's load of a flag that is set by
then and the thread's falling asleep. -/
def NotifiesInTime (threads : Threads Caller) : ThreadAction Caller → Prop
  | .observe caller =>
    (threads.observers caller).notifies = true → threads.background = .asleep ∨ ¬ threads.Missed
  | .destroy =>
    threads.destructor = .notifyAll → threads.background = .asleep ∨ ¬ threads.Missed
  | _ => True

instance (threads : Threads Caller) : (action : ThreadAction Caller) →
    Decidable (threads.NotifiesInTime action)
  | .observe _ => inferInstanceAs (Decidable (_ → _))
  | .destroy => inferInstanceAs (Decidable (_ → _))
  | .callPublish _ _ => .isTrue trivial
  | .callObserve _ _ => .isTrue trivial
  | .publish _ => .isTrue trivial
  | .background _ => .isTrue trivial
  | .wakeSpuriously => .isTrue trivial

/-- While the background thread sleeps, nothing is asked of it or a notification
is still to be delivered. -/
def WakeupNotLost (threads : Threads Caller) : Prop :=
  threads.background = .asleep →
    threads.shared.stopBackground = false ∧
        (∀ candidate : Nat, threads.shared.pending[candidate]? ≠ some true) ∨
      threads.Notifying

/-- What every interleaving under the condition keeps. -/
structure Awaited (threads : Threads Caller) : Prop where
  flags : threads.shared.pending.length = threads.shared.runtime.candidates.length
  missed : threads.Missed → threads.Notifying

theorem Awaited.wakeupNotLost {threads : Threads Caller} (hawaited : threads.Awaited) :
    threads.WakeupNotLost := by
  intro hasleep
  by_cases hmissed : threads.Missed
  · exact .inr (hawaited.missed hmissed)
  · simp only [Missed, hasleep, not_or, Bool.not_eq_true] at hmissed
    exact .inl ⟨hmissed.1, fun candidate hpending => hmissed.2 (List.mem_of_getElem? hpending)⟩

theorem not_missed_notified (threads : Threads Caller) (hintime : threads.background = .asleep ∨
    ¬ threads.Missed) : ¬ { threads with background := threads.background.notified }.Missed := by
  rcases hintime with hasleep | hmissed
  · simp [Missed, hasleep, BackgroundPhase.notified]
  · have hawake : threads.background ≠ .asleep → threads.background.notified = threads.background := by
      cases threads.background <;> simp [BackgroundPhase.notified]
    by_cases hasleep : threads.background = .asleep
    · simp [Missed, hasleep, BackgroundPhase.notified]
    · rw [hawake hasleep]
      exact hmissed

theorem missed_congr {threads next : Threads Caller} (hflags : threads.shared.SameFlags next.shared)
    (hbackground : next.background = threads.background) : next.Missed ↔ threads.Missed := by
  unfold Missed
  rw [hbackground, hflags.pending, hflags.stopBackground]

end Flags

namespace Awaited

variable {Caller : Type} [DecidableEq Caller] {threads : Threads Caller}

theorem observer_step (hawaited : threads.Awaited) (caller : Caller)
    (hintime : threads.NotifiesInTime (.observe caller)) :
    (threads.observerStep caller).Awaited := by
  have hself : (threads.observerStep caller).observers caller =
      (threads.shared.observeStep (threads.observers caller)).2 := by
    simp [observerStep]
  rcases Shared.observeStep_flags threads.shared (threads.observers caller) with
    hflags | ⟨-, hnotifies, hlength, hcandidates⟩
  · refine ⟨?_, fun hmissed => ?_⟩
    · simp only [observerStep]
      rw [hflags.pending, hflags.candidates, hawaited.flags]
    · cases hnotifies : (threads.observers caller).notifies with
      | true =>
        -- the notification ends the sleep, or came before any flag was missed
        have hnotified := not_missed_notified threads (hintime hnotifies)
        have hbackground : (threads.observerStep caller).background =
            threads.background.notified := by
          simp [observerStep, hnotifies]
        exact absurd ((missed_congr hflags hbackground).mp hmissed) hnotified
      | false =>
        rw [missed_congr hflags (by simp [observerStep, hnotifies])] at hmissed
        rcases hawaited.missed hmissed with ⟨other, hother⟩ | hdestructor
        · have hne : other ≠ caller := fun heq => by
            rw [heq, hnotifies] at hother
            cases hother
          refine .inl ⟨other, ?_⟩
          simp only [observerStep, Function.update_of_ne hne]
          exact hother
        · exact .inr hdestructor
  · refine ⟨?_, fun _ => .inl ⟨caller, by rw [hself]; exact hnotifies⟩⟩
    simp only [observerStep]
    rw [hlength, hcandidates, hawaited.flags]

theorem background_step (hawaited : threads.Awaited) (io : Runtime.Io) :
    (threads.backgroundStep io).Awaited := by
  have hkeep : ∀ phase, (threads.setBackground threads.shared phase).Awaited ↔
      ((threads.setBackground threads.shared phase).Missed → threads.Notifying) := fun phase =>
    ⟨fun hnext => hnext.missed, fun hnext => ⟨hawaited.flags, hnext⟩⟩
  -- the predicate goes on past a flag that is not set
  have hnextPredicate : ∀ candidate : Nat, threads.shared.stopBackground = false ∨ threads.Missed →
      (true ∈ threads.shared.pending.take candidate → threads.Missed) →
      (threads.setBackground threads.shared (threads.shared.nextPredicate candidate)).Awaited := by
    intro candidate hstop htake
    rw [hkeep]
    intro hmissed
    refine hawaited.missed ?_
    unfold Shared.nextPredicate at hmissed
    split at hmissed
    · simp only [Missed, setBackground] at hmissed
      rcases hmissed with hset | hset
      · exact hstop.resolve_left (by simp [hset])
      · exact htake hset
    · next hall =>
        simp only [Missed, setBackground] at hmissed
        rcases hmissed with hset | hset
        · exact hstop.resolve_left (by simp [hset])
        · refine htake ?_
          rwa [List.take_of_length_le (by rw [hawaited.flags]; omega)]
  rw [backgroundStep]
  cases hphase : threads.background with
  | absent => exact hawaited
  | loadStop =>
    simp only
    rw [hkeep]
    split <;> simp [Missed, setBackground]
  | predicateStop =>
    simp only
    split
    · rw [hkeep]
      unfold Shared.startTurns
      split <;> simp [Missed, setBackground]
    · next hstop => exact hnextPredicate 0 (.inl (by simpa using hstop)) (by simp)
  | predicatePending candidate =>
    simp only
    split
    · rw [hkeep]
      unfold Shared.startTurns
      split <;> simp [Missed, setBackground]
    · next hclear =>
        have hmissed : threads.shared.stopBackground = true ∨
            true ∈ threads.shared.pending.take candidate → threads.Missed := by
          simp [Missed, hphase]
        refine hnextPredicate (candidate + 1) ?_ fun hset => ?_
        · cases hstop : threads.shared.stopBackground with
          | false => exact .inl rfl
          | true => exact .inr (hmissed (.inl hstop))
        · rw [List.take_add_one, List.mem_append] at hset
          rcases hset with hset | hset
          · exact hmissed (.inr hset)
          · refine absurd ?_ hclear
            rw [Option.mem_toList] at hset
            rw [List.getD_eq_getElem?_getD, hset]
            rfl
  | enterWait =>
    simp only
    rw [hkeep]
    intro hmissed
    exact hawaited.missed (by simpa [Missed, hphase, setBackground] using hmissed)
  | asleep => exact hawaited
  | exchangePending candidate =>
    simp only
    refine ⟨by simp [setBackground, hawaited.flags], ?_⟩
    split
    · simp [Missed, setBackground]
    · unfold Shared.nextTurn
      split <;> simp [Missed, setBackground]
  | addActive candidate => exact ⟨hawaited.flags, by simp [Missed, setBackground]⟩
  | build candidate =>
    simp only
    split
    · exact ⟨hawaited.flags, by simp [Missed, setBackground]⟩
    · next pair hpair =>
        have hframe := Runtime.makePhysicalReplacement_frame threads.shared.runtime pair io
        split
        all_goals
          next heq =>
            rw [heq] at hframe
            refine ⟨?_, by simp [Missed, setBackground]⟩
            simp only [setBackground]
            rw [hframe.candidates, hawaited.flags]
  | loadForced candidate replacement =>
    exact ⟨hawaited.flags, by simp [Missed, setBackground]⟩
  | publish candidate => exact ⟨hawaited.flags, by simp [Missed, setBackground]⟩
  | removeActive candidate => exact ⟨hawaited.flags, by simp [Missed, setBackground]⟩
  | notifyAll candidate =>
    simp only
    rw [hkeep]
    unfold Shared.nextTurn
    split <;> simp [Missed, setBackground]
  | stopped => exact hawaited

theorem destroy_step (hawaited : threads.Awaited) (hintime : threads.NotifiesInTime .destroy) :
    threads.destroyStep.Awaited := by
  rw [destroyStep]
  cases hdestructor : threads.destructor with
  | storeStop => exact ⟨hawaited.flags, fun _ => .inr rfl⟩
  | notifyAll =>
    have hnotified := not_missed_notified threads (hintime hdestructor)
    exact ⟨hawaited.flags, fun hmissed =>
      absurd ((missed_congr (.refl _) rfl).mp hmissed) hnotified⟩
  | join =>
    refine ⟨hawaited.flags, fun hmissed => ?_⟩
    rcases hawaited.missed ((missed_congr (.refl _) rfl).mp hmissed) with hcaller | hnotify
    · exact .inl hcaller
    · rw [hdestructor] at hnotify
      cases hnotify
  | returned => exact hawaited

theorem perform_step (hawaited : threads.Awaited) {action : ThreadAction Caller}
    (hintime : threads.NotifiesInTime action) (hpermitted : threads.Permitted action) :
    (threads.perform action).Awaited := by
  cases action with
  | callPublish caller call => exact ⟨hawaited.flags, hawaited.missed⟩
  | callObserve caller loadedCells =>
    refine ⟨hawaited.flags, fun hmissed => ?_⟩
    rcases hawaited.missed hmissed with ⟨other, hother⟩ | hdestructor
    · have hfinished : (threads.observers caller).finished = true := hpermitted.2
      have hne : other ≠ caller := fun heq => by
        rw [heq] at hother
        cases hold : threads.observers caller <;>
          simp_all [ObservePhase.finished, ObservePhase.notifies]
      refine .inl ⟨other, ?_⟩
      simp only [perform, Function.update_of_ne hne]
      exact hother
    · exact .inr hdestructor
  | publish publisher =>
    have hflags := Shared.publishStep_sameFlags threads.shared (threads.publishers publisher)
    have hsame : (threads.publisherStep publisher).Missed ↔ threads.Missed :=
      missed_congr hflags rfl
    refine ⟨?_, fun hmissed => hawaited.missed (hsame.mp hmissed)⟩
    simp only [perform, publisherStep]
    rw [hflags.pending, hflags.candidates, hawaited.flags]
  | observe caller => exact hawaited.observer_step caller hintime
  | background io => exact hawaited.background_step io
  | destroy => exact hawaited.destroy_step hintime
  | wakeSpuriously =>
    refine ⟨hawaited.flags, fun hmissed => absurd hmissed ?_⟩
    exact not_missed_notified threads (.inl hpermitted)

end Awaited

variable {Caller : Type} [DecidableEq Caller]

/-- Over every interleaving in which no notification comes too early, the
background thread sleeps on a set flag only while a notification is on its way. -/
theorem wakeup_not_lost {fixedCells : List CellPageRange} {candidates : List MergeCandidate}
    {config : Config} {physical : Option Physical} {background : BackgroundConfig}
    {threads : Threads Caller}
    (hreach : ((Threads.transition fixedCells candidates config physical background).restrict
      NotifiesInTime).Reachable threads) : threads.WakeupNotLost := by
  have hawaited : threads.Awaited := by
    refine hreach.invariant ?_ ?_
    · rintro _ ⟨runtime, hcreate, rfl⟩
      refine ⟨by simp [Threads.start], ?_⟩
      unfold Threads.start
      split <;> simp [Missed]
    · rintro state action _ hawaited ⟨hintime, hpermitted, rfl⟩
      exact hawaited.perform_step hintime hpermitted
  exact hawaited.wakeupNotLost

def backgroundPublishing : BackgroundConfig := { backgroundPublish := true }

def publishingStart : Threads Unit :=
  start Session.threeCellRuntime backgroundPublishing

theorem publishingStart_initial : (transition Session.threeCells [⟨0, 1⟩, ⟨1, 2⟩]
    { enabled := true } none backgroundPublishing).initial publishingStart := ⟨_, rfl, rfl⟩

/-- The destructor stores and notifies after the predicate has read the flag of
the destructor, and before the thread has fallen asleep. -/
def lateSleep : List (ThreadAction Unit) :=
  List.replicate 3 (.background .completes) ++ List.replicate 2 .destroy ++
    List.replicate 2 (.background .completes)

/-- The background thread sleeps with the stop requested and every notification
delivered, and the destructor can only wait for it. -/
theorem wakeup_lost : ∃ threads : Threads Unit,
    (transition Session.threeCells [⟨0, 1⟩, ⟨1, 2⟩] { enabled := true } none
      backgroundPublishing).Reachable threads ∧
      threads.background = .asleep ∧ threads.shared.stopBackground = true ∧
      threads.destructor = .join ∧ (∀ caller, (threads.observers caller).notifies = false) ∧
      ¬ threads.WakeupNotLost := by
  refine ⟨lateSleep.foldl perform publishingStart,
    Transition.reachable_of_permitted publishingStart_initial (by decide +kernel),
    by decide +kernel, by decide +kernel, by decide +kernel, by decide +kernel, ?_⟩
  intro hwakeup
  rcases hwakeup (by decide +kernel) with ⟨hstop, -⟩ | ⟨caller, hcaller⟩ | hdestructor
  · revert hstop
    decide +kernel
  · revert caller
    decide +kernel
  · revert hdestructor
    decide +kernel

/-- The destructor notifies once the thread sleeps. -/
def earlySleep : List (ThreadAction Unit) :=
  List.replicate 5 (.background .completes) ++ [.destroy]

theorem wakeup_not_lost_earlySleep : (earlySleep.foldl perform publishingStart).WakeupNotLost :=
  wakeup_not_lost (Transition.reachable_restrict_of_permitted publishingStart_initial
    (by decide +kernel))

end Threads

end SkipCell.Adaptive

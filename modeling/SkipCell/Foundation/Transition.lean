import Mathlib

/-! # Labelled transition systems

A system has initial states and labelled steps. Safety results are stated over
every reachable state and proved by the invariant rules below; a restricted
system keeps only the steps that meet a condition on the state they leave.
-/

namespace Foundation

universe uState uLabel

/-- Initial states and labelled steps. -/
structure Transition (State : Type uState) (Label : Type uLabel) where
  initial : State → Prop
  step : State → Label → State → Prop

namespace Transition

variable {State : Type uState} {Label : Type uLabel} (system : Transition State Label)

/-- Consecutive steps from one state to another, with the labels they take. -/
inductive Run : State → List Label → State → Prop
  | nil (state : State) : Run state [] state
  | cons {state middle last : State} {label : Label} {labels : List Label} :
      system.step state label middle → Run middle labels last → Run state (label :: labels) last

/-- A state at the end of some run from an initial state. -/
def Reachable (state : State) : Prop :=
  ∃ start labels, system.initial start ∧ system.Run start labels state

/-- The same system, with only the steps that meet `condition` where they start. -/
def restrict (condition : State → Label → Prop) : Transition State Label where
  initial := system.initial
  step state label next := condition state label ∧ system.step state label next

variable {system}

variable {first middle last state : State}

theorem Run.append {labels rest : List Label} (hfirst : system.Run first labels middle)
    (hrest : system.Run middle rest last) :
    system.Run first (labels ++ rest) last := by
  induction hfirst with
  | nil => exact hrest
  | cons hstep _ ih => exact .cons hstep (ih hrest)

theorem Run.snoc {labels : List Label} {label : Label} (hrun : system.Run first labels middle)
    (hstep : system.step middle label last) :
    system.Run first (labels ++ [label]) last :=
  hrun.append (.cons hstep (.nil last))

theorem Reachable.of_initial (hinitial : system.initial state) :
    system.Reachable state :=
  ⟨state, [], hinitial, .nil state⟩

theorem Reachable.step {next : State} {label : Label} (hreach : system.Reachable state)
    (hstep : system.step state label next) : system.Reachable next := by
  obtain ⟨start, labels, hinitial, hrun⟩ := hreach
  exact ⟨start, labels ++ [label], hinitial, hrun.snoc hstep⟩

theorem Run.invariant {invariant : State → Prop}
    (hpreserve : ∀ state label next, invariant state → system.step state label next →
      invariant next) {labels : List Label} (hrun : system.Run first labels last)
    (hfirst : invariant first) : invariant last := by
  induction hrun with
  | nil => exact hfirst
  | cons hstep _ ih => exact ih (hpreserve _ _ _ hfirst hstep)

theorem Reachable.invariant {invariant : State → Prop}
    (hinitial : ∀ state, system.initial state → invariant state)
    (hpreserve : ∀ state label next, invariant state → system.step state label next →
      invariant next) (hreach : system.Reachable state) : invariant state := by
  obtain ⟨start, labels, hstart, hrun⟩ := hreach
  exact hrun.invariant hpreserve (hinitial start hstart)

section Guarded

variable (initial : State → Prop) (permitted : State → Label → Prop)
  (perform : State → Label → State)

/-- A system whose permitted actions have one outcome each. -/
def guarded : Transition State Label where
  initial := initial
  step state label next := permitted state label ∧ next = perform state label

/-- Every action of the schedule is permitted where it comes. -/
def PermittedRun : State → List Label → Prop
  | _, [] => True
  | state, label :: labels => permitted state label ∧ PermittedRun (perform state label) labels

instance PermittedRun.decidable [∀ state label, Decidable (permitted state label)] :
    ∀ state labels, Decidable (PermittedRun permitted perform state labels)
  | _, [] => inferInstanceAs (Decidable True)
  | state, label :: labels =>
    have := PermittedRun.decidable (perform state label) labels
    inferInstanceAs (Decidable (_ ∧ _))

variable {initial permitted perform}

variable {state : State} {labels : List Label}

theorem run_of_permitted (hpermitted : PermittedRun permitted perform state labels) :
    (guarded initial permitted perform).Run state labels (labels.foldl perform state) := by
  induction labels generalizing state with
  | nil => exact .nil state
  | cons label labels ih => exact .cons ⟨hpermitted.1, rfl⟩ (ih hpermitted.2)

theorem Reachable.performed (hreach : (guarded initial permitted perform).Reachable state)
    {label : Label} (hpermitted : permitted state label) :
    (guarded initial permitted perform).Reachable (perform state label) :=
  hreach.step ⟨hpermitted, rfl⟩

theorem reachable_of_permitted (hinitial : initial state)
    (hpermitted : PermittedRun permitted perform state labels) :
    (guarded initial permitted perform).Reachable (labels.foldl perform state) :=
  ⟨state, labels, hinitial, run_of_permitted hpermitted⟩

theorem reachable_restrict_of_permitted {condition : State → Label → Prop}
    (hinitial : initial state)
    (hpermitted : PermittedRun (fun state label => condition state label ∧ permitted state label)
      perform state labels) :
    ((guarded initial permitted perform).restrict condition).Reachable
      (labels.foldl perform state) := by
  have hrun : ((guarded initial permitted perform).restrict condition).Run state labels
      (labels.foldl perform state) := by
    clear hinitial
    induction labels generalizing state with
    | nil => exact .nil state
    | cons label labels ih =>
      obtain ⟨⟨hcondition, hlabel⟩, hrest⟩ := hpermitted
      exact .cons ⟨hcondition, hlabel, rfl⟩ (ih hrest)
  exact ⟨state, labels, hinitial, hrun⟩

end Guarded

end Transition

end Foundation

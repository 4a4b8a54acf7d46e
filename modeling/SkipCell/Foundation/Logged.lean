import SkipCell.Foundation.Checks

/-! # Computations that leave a log

A computation that can fail notes events, and keeps the log up to the point where it fails.
Where every event that is not allowed is followed by one kind of failure, the log has only
allowed events if and only if the computation does not fail in that way.
-/

namespace Foundation

/-- A result, or the failure that ended the computation, behind the events before it. -/
structure Logged (Event Failure α : Type) where
  log : List Event
  outcome : Except Failure α

namespace Logged

variable {Event Failure α β State : Type}

def ofExcept (outcome : Except Failure α) : Logged Event Failure α := ⟨[], outcome⟩

def note (event : Event) : Logged Event Failure Unit := ⟨[event], .ok ()⟩

protected def bind (first : Logged Event Failure α) (next : α → Logged Event Failure β) :
    Logged Event Failure β :=
  match first.outcome with
  | .error failure => ⟨first.log, .error failure⟩
  | .ok value => ⟨first.log ++ (next value).log, (next value).outcome⟩

instance : Monad (Logged Event Failure) where
  pure value := ⟨[], .ok value⟩
  bind := Logged.bind

/-- Runs `body` on each element, with its position counted from `position`. -/
def scan (body : Nat → α → State → Logged Event Failure State) :
    Nat → List α → State → Logged Event Failure State
  | _, [], state => pure state
  | position, value :: values, state => do
    let state ← body position value state
    scan body (position + 1) values state

@[simp]
theorem outcome_ofExcept (outcome : Except Failure α) :
    (ofExcept outcome : Logged Event Failure α).outcome = outcome := rfl

@[simp]
theorem outcome_note (event : Event) :
    (note event : Logged Event Failure Unit).outcome = .ok () := rfl

@[simp]
theorem outcome_pure (value : α) :
    (pure value : Logged Event Failure α).outcome = .ok value := rfl

@[simp]
theorem outcome_bind (first : Logged Event Failure α) (next : α → Logged Event Failure β) :
    (first >>= next).outcome = first.outcome >>= fun value => (next value).outcome := by
  change (Logged.bind first next).outcome = _
  unfold Logged.bind
  cases first.outcome <;> rfl

variable {first : Logged Event Failure α} {next : α → Logged Event Failure β}
    {body : Nat → α → State → Logged Event Failure State}

theorem log_bind_of_ok {value : α} (hfirst : first.outcome = .ok value) :
    (first >>= next).log = first.log ++ (next value).log := by
  change (Logged.bind first next).log = _
  simp only [Logged.bind, hfirst]

theorem log_bind_of_error {failure : Failure} (hfirst : first.outcome = .error failure) :
    (first >>= next).log = first.log := by
  change (Logged.bind first next).log = _
  simp only [Logged.bind, hfirst]

theorem log_prefix_bind (first : Logged Event Failure α) (next : α → Logged Event Failure β) :
    first.log <+: (first >>= next).log := by
  cases hfirst : first.outcome with
  | error failure => exact log_bind_of_error hfirst ▸ List.prefix_rfl
  | ok value => exact log_bind_of_ok hfirst ▸ List.prefix_append _ _

theorem forall_log_bind {property : Event → Prop} (hfirst : ∀ event ∈ first.log, property event)
    (hnext : ∀ value, ∀ event ∈ (next value).log, property event) :
    ∀ event ∈ (first >>= next).log, property event := by
  cases houtcome : first.outcome with
  | error failure => exact log_bind_of_error houtcome ▸ hfirst
  | ok value =>
    rw [log_bind_of_ok houtcome]
    exact List.forall_mem_append.mpr ⟨hfirst, hnext value⟩

theorem forall_log_scan {property : Event → Prop}
    (hbody : ∀ position value state, ∀ event ∈ (body position value state).log, property event)
    (position : Nat) (values : List α) (state : State) :
    ∀ event ∈ (scan body position values state).log, property event := by
  induction values generalizing position state with
  | nil => exact nofun
  | cons value values ih => exact forall_log_bind (hbody position value state) fun next => ih _ next

/-- The computation fails in one way exactly where it notes an event that is not allowed. -/
def Guards (allowed : Event → Prop) (failure : Failure) (program : Logged Event Failure α) : Prop :=
  (∀ event ∈ program.log, allowed event) ↔ program.outcome ≠ .error failure

variable {allowed : Event → Prop} {failure : Failure}

theorem guards_ofExcept {outcome : Except Failure α} (hother : outcome ≠ .error failure) :
    Guards allowed failure (ofExcept outcome : Logged Event Failure α) :=
  iff_of_true nofun hother

theorem guards_pure (value : α) :
    Guards allowed failure (pure value : Logged Event Failure α) := iff_of_true nofun nofun

theorem Guards.bind (hfirst : Guards allowed failure first)
    (hnext : ∀ value, Guards allowed failure (next value)) :
    Guards allowed failure (first >>= next) := by
  unfold Guards at hfirst ⊢
  rw [outcome_bind]
  cases houtcome : first.outcome with
  | error other =>
    rw [log_bind_of_error houtcome, hfirst, houtcome]
    simp [Bind.bind, Except.bind]
  | ok value =>
    rw [log_bind_of_ok houtcome]
    have hallowed : ∀ event ∈ first.log, allowed event := hfirst.mpr (houtcome ▸ nofun)
    rw [List.forall_mem_append, and_iff_right hallowed]
    exact hnext value

theorem guards_note_bind {event : Event} {outcome : Except Failure α}
    (hchecked : allowed event ↔ outcome ≠ .error failure) :
    Guards allowed failure (note event >>= fun _ => ofExcept outcome) := by
  unfold Guards
  rw [outcome_bind, log_bind_of_ok (outcome_note event)]
  simpa [note, ofExcept, Bind.bind, Except.bind] using hchecked

theorem guards_scan
    (hbody : ∀ position value state, Guards allowed failure (body position value state))
    (position : Nat) (values : List α) (state : State) :
    Guards allowed failure (scan body position values state) := by
  induction values generalizing position state with
  | nil => exact guards_pure state
  | cons value values ih => exact (hbody position value state).bind fun next => ih _ next

end Logged

end Foundation

import Mathlib

/-! # Files under names

A directory has files under names. A program changes it by writing, removing and
renaming files, step after step, until a step ends the run. A name keeps its file
exactly when no change names it.
-/

namespace Foundation

universe u v

structure StoredFile where
  bytes : List UInt8
  /-- The change that put the file under its name. -/
  since : Nat
  deriving DecidableEq

/-- The files under the names, and how many changes there were. -/
structure Directory (Name : Type u) where
  files : Name → Option StoredFile
  clock : Nat
  past : ∀ name file, files name = some file → file.since < clock

inductive Change (Name : Type u)
  | write (name : Name) (bytes : List UInt8)
  | remove (name : Name)
  /-- The file of `source`, with these bytes, takes the place of that of `target`. -/
  | rename (source target : Name) (bytes : List UInt8)

def Change.names {Name : Type u} : Change Name → List Name
  | write name _ => [name]
  | remove name => [name]
  | rename source target _ => [source, target]

variable {Name : Type u} [DecidableEq Name]

namespace Directory

def write (directory : Directory Name) (name : Name) (bytes : List UInt8) : Directory Name where
  files := Function.update directory.files name (some ⟨bytes, directory.clock⟩)
  clock := directory.clock + 1
  past other file hfile := by
    by_cases hsame : other = name
    · subst hsame
      rw [Function.update_self] at hfile
      obtain rfl := Option.some.inj hfile
      exact Nat.lt_succ_self _
    · rw [Function.update_of_ne hsame] at hfile
      exact Nat.lt_succ_of_lt (directory.past other file hfile)

def remove (directory : Directory Name) (name : Name) : Directory Name where
  files := Function.update directory.files name none
  clock := directory.clock
  past other file hfile := by
    by_cases hsame : other = name
    · subst hsame
      rw [Function.update_self] at hfile
      cases hfile
    · rw [Function.update_of_ne hsame] at hfile
      exact directory.past other file hfile

def change (directory : Directory Name) : Change Name → Directory Name
  | .write name bytes => directory.write name bytes
  | .remove name => directory.remove name
  | .rename source target bytes => (directory.remove source).write target bytes

/-- The directory after a list of changes. -/
def changes (directory : Directory Name) (list : List (Change Name)) : Directory Name :=
  list.foldl change directory

variable {directory : Directory Name} {name : Name}

@[simp]
theorem files_write_self (bytes : List UInt8) :
    (directory.write name bytes).files name = some ⟨bytes, directory.clock⟩ :=
  Function.update_self _ _ _

theorem files_write_of_ne {other : Name} (hne : other ≠ name) (bytes : List UInt8) :
    (directory.write name bytes).files other = directory.files other :=
  Function.update_of_ne hne _ _

@[simp]
theorem files_remove_self : (directory.remove name).files name = none :=
  Function.update_self _ _ _

theorem files_remove_of_ne {other : Name} (hne : other ≠ name) :
    (directory.remove name).files other = directory.files other :=
  Function.update_of_ne hne _ _

@[simp]
theorem changes_nil : directory.changes [] = directory := rfl

@[simp]
theorem changes_cons (first : Change Name) (rest : List (Change Name)) :
    directory.changes (first :: rest) = (directory.change first).changes rest := rfl

theorem changes_append (first second : List (Change Name)) :
    directory.changes (first ++ second) = (directory.changes first).changes second :=
  List.foldl_append

theorem files_change {change : Change Name} (hother : name ∉ change.names) :
    (directory.change change).files name = directory.files name := by
  cases change with
  | write target bytes => exact files_write_of_ne (List.ne_of_not_mem_cons hother) bytes
  | remove target => exact files_remove_of_ne (List.ne_of_not_mem_cons hother)
  | rename source target bytes =>
    have hsource := List.ne_of_not_mem_cons hother
    have htarget := List.ne_of_not_mem_cons (List.not_mem_of_not_mem_cons hother)
    exact (files_write_of_ne htarget bytes).trans (files_remove_of_ne hsource)

theorem files_changes {list : List (Change Name)} (hothers : ∀ change ∈ list, name ∉ change.names) :
    (directory.changes list).files name = directory.files name := by
  induction list generalizing directory with
  | nil => rfl
  | cons first rest ih =>
    obtain ⟨hfirst, hrest⟩ := List.forall_mem_cons.mp hothers
    rw [changes_cons, ih hrest, files_change hfirst]

theorem clock_le_change (change : Change Name) : directory.clock ≤ (directory.change change).clock := by
  cases change with
  | write target bytes => exact Nat.le_succ _
  | remove target => exact Nat.le_refl _
  | rename source target bytes => exact Nat.le_succ _

/-- Whatever is under the name was put there at a moment or later. -/
def Newer (directory : Directory Name) (moment : Nat) (name : Name) : Prop :=
  ∀ file, directory.files name = some file → moment ≤ file.since

theorem newer_write {moment : Nat} (hmoment : moment ≤ directory.clock) (bytes : List UInt8) :
    (directory.write name bytes).Newer moment name := by
  intro file hfile
  rw [files_write_self] at hfile
  obtain rfl := Option.some.inj hfile
  exact hmoment

theorem newer_remove (moment : Nat) : (directory.remove name).Newer moment name := by
  intro file hfile
  rw [files_remove_self] at hfile
  cases hfile

theorem newer_of_named {moment : Nat} (hmoment : moment ≤ directory.clock) {change : Change Name}
    (hnamed : name ∈ change.names) : (directory.change change).Newer moment name := by
  cases change with
  | write target bytes =>
    obtain rfl := List.mem_singleton.mp hnamed
    exact newer_write hmoment bytes
  | remove target =>
    obtain rfl := List.mem_singleton.mp hnamed
    exact newer_remove moment
  | rename source target bytes =>
    by_cases htarget : name = target
    · subst htarget
      have hclock : moment ≤ (directory.remove source).clock := hmoment
      exact newer_write hclock bytes
    · have hsource : name = source :=
        (List.mem_cons.mp hnamed).resolve_right fun hmem => htarget (List.mem_singleton.mp hmem)
      subst hsource
      intro file hfile
      rw [change, files_write_of_ne htarget, files_remove_self] at hfile
      cases hfile

theorem Newer.changes {moment : Nat} {list : List (Change Name)}
    (hnewer : directory.Newer moment name) (hmoment : moment ≤ directory.clock) :
    (directory.changes list).Newer moment name := by
  induction list generalizing directory with
  | nil => exact hnewer
  | cons first rest ih =>
    apply ih
    · by_cases hnamed : name ∈ first.names
      · exact newer_of_named hmoment hnamed
      · rwa [Newer, files_change hnamed]
    · exact Nat.le_trans hmoment (clock_le_change first)

theorem kept_iff {file : StoredFile} (hfile : directory.files name = some file)
    (list : List (Change Name)) :
    (directory.changes list).files name = some file ↔
      ∀ change ∈ list, name ∉ change.names := by
  constructor
  · intro hkept change hmem hnamed
    obtain ⟨before, behind, rfl⟩ := List.append_of_mem hmem
    have hold := directory.past name file hfile
    have hclock : directory.clock ≤ (directory.changes before).clock := by
      clear hkept hmem hfile hold
      induction before generalizing directory with
      | nil => exact Nat.le_refl _
      | cons first rest ih => exact Nat.le_trans (clock_le_change first) ih
    rw [changes_append, changes_cons] at hkept
    have hnewer : (((directory.changes before).change change).changes behind).Newer
        directory.clock name :=
      (newer_of_named hclock hnamed).changes (Nat.le_trans hclock (clock_le_change change))
    exact absurd (hnewer file hkept) (Nat.not_le.mpr hold)
  · intro hothers
    rw [files_changes hothers, hfile]

end Directory

/-- How a step ends a run: by a failure that the program sees, or without its doing. -/
inductive Stop
  | failed
  | crashed
  deriving DecidableEq

variable {Step : Type v}

/-- Performs the steps until one ends the run, and gives the changes that were made. -/
def execute (perform : Step → Directory Name → List (Change Name) × Option Stop) :
    List Step → Directory Name → List (Change Name) × Option Stop
  | [], _ => ([], none)
  | step :: steps, directory =>
    let (made, stop) := perform step directory
    match stop with
    | some stop => (made, some stop)
    | none =>
      let (later, stop) := execute perform steps (directory.changes made)
      (made ++ later, stop)

variable {perform : Step → Directory Name → List (Change Name) × Option Stop}

theorem mem_execute {property : Change Name → Prop} {steps : List Step} {directory : Directory Name}
    (hsteps : ∀ step ∈ steps, ∀ directory, ∀ change ∈ (perform step directory).1, property change) :
    ∀ change ∈ (execute perform steps directory).1, property change := by
  induction steps generalizing directory with
  | nil => exact fun _ hmem => absurd hmem List.not_mem_nil
  | cons step steps ih =>
    obtain ⟨hstep, hrest⟩ := List.forall_mem_cons.mp hsteps
    intro change hmem
    have hmade := hstep directory
    rw [execute] at hmem
    rcases hperform : perform step directory with ⟨made, _ | stop⟩
    all_goals rw [hperform] at hmem hmade
    · rcases List.mem_append.mp hmem with hfirst | hlater
      · exact hmade change hfirst
      · exact ih hrest change hlater
    · exact hmade change hmem

theorem execute_completed_iff {stops : Step → Option Stop} {steps : List Step}
    (hstops : ∀ step ∈ steps, ∀ directory, (perform step directory).2 = stops step)
    (directory : Directory Name) :
    (execute perform steps directory).2 = none ↔ ∀ step ∈ steps, stops step = none := by
  induction steps generalizing directory with
  | nil => simp [execute]
  | cons step steps ih =>
    obtain ⟨hstep, hrest⟩ := List.forall_mem_cons.mp hstops
    rw [List.forall_mem_cons, ← hstep directory, execute]
    rcases perform step directory with ⟨made, _ | stop⟩
    · simpa using ih hrest (directory.changes made)
    · simp

theorem execute_append (first second : List Step) (directory : Directory Name) :
    execute perform (first ++ second) directory =
      match (execute perform first directory).2 with
      | some stop => ((execute perform first directory).1, some stop)
      | none =>
        let (later, stop) := execute perform second
          (directory.changes (execute perform first directory).1)
        ((execute perform first directory).1 ++ later, stop) := by
  induction first generalizing directory with
  | nil => rfl
  | cons step first ih =>
    rw [List.cons_append, execute, execute]
    rcases perform step directory with ⟨made, _ | stop⟩
    · simp only [ih]
      rcases execute perform first (directory.changes made) with ⟨later, _ | stop⟩
      · simp [Directory.changes_append]
      · rfl
    · rfl

section

variable {first second : List Step} {directory : Directory Name}
  (hcompleted : (execute perform (first ++ second) directory).2 = none)
include hcompleted

theorem execute_append_completed :
    (execute perform (first ++ second) directory).1 =
      (execute perform first directory).1 ++
        (execute perform second (directory.changes (execute perform first directory).1)).1 := by
  rw [execute_append] at hcompleted ⊢
  rcases hfirst : execute perform first directory with ⟨made, _ | stop⟩
  · rfl
  · rw [hfirst] at hcompleted
    cases hcompleted

theorem execute_first_completed :
    (execute perform first directory).2 = none := by
  rw [execute_append] at hcompleted
  rcases hfirst : execute perform first directory with ⟨made, _ | stop⟩
  · rfl
  · rw [hfirst] at hcompleted
    cases hcompleted

end

end Foundation

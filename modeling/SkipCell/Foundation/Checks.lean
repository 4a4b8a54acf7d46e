import Mathlib

/-! # Checks and checked loops

A validator rejects by an exception and loops over arrays with running state.
`reject` is one check, `scan` a loop over a list with the position of each
element, and `scan_invariant` the rule by which a loop that ends without an
exception establishes a property of its state.
-/

namespace Foundation

universe u

variable {Failure : Type} {α State : Type}

/-- Raises `failure` when the condition holds. -/
def reject (condition : Prop) [Decidable condition] (failure : Failure) : Except Failure Unit :=
  if condition then .error failure else .ok ()

variable {failure : Failure} {β : Type} {values : List α} {position index start : Nat} {value : α}
    {convert : α → Except Failure β} {results : List β} {state last : State}

@[simp]
theorem reject_ok {condition : Prop} [Decidable condition] {result : Unit} :
    reject condition failure = .ok result ↔ ¬ condition := by
  unfold reject
  split <;> simp [*]

@[simp]
theorem bind_ok {first : Except Failure α} {next : α → Except Failure β} {result : β} :
    (first >>= next) = .ok result ↔ ∃ value, first = .ok value ∧ next value = .ok result := by
  cases first with
  | error failure => simp [bind, Except.bind]
  | ok value => simp [bind, Except.bind]

theorem exists_ok {outcome : Except Failure α} {property : α → Prop} [DecidablePred property]
    (hevaluated : outcome.toOption.any (property ·) = true) :
    ∃ value, outcome = .ok value ∧ property value := by
  cases outcome with
  | error failure => cases hevaluated
  | ok value => exact ⟨value, rfl, of_decide_eq_true hevaluated⟩

/-- An element of an array, or `failure` where the position is out of bounds. -/
def element (failure : Failure) (values : List α) (position : Nat) : Except Failure α :=
  match values[position]? with
  | some value => .ok value
  | none => .error failure

@[simp]
theorem element_eq_ok :
    element failure values position = .ok value ↔ values[position]? = some value := by
  unfold element
  split <;> simp [*]

/-- Writes an element of an array, or fails where the position is out of bounds. -/
def assign (failure : Failure) (values : List α) (position : Nat) (value : α) :
    Except Failure (List α) :=
  if position < values.length then .ok (values.set position value) else .error failure

@[simp]
theorem assign_eq_ok {result : List α} :
    assign failure values position value = .ok result ↔
      position < values.length ∧ values.set position value = result := by
  unfold assign
  split <;> simp [*]

theorem mapM_eq_ok :
    values.mapM convert = .ok results ↔
      List.Forall₂ (fun value result => convert value = .ok result) values results := by
  rw [← List.mapM'_eq_mapM]
  induction values generalizing results with
  | nil => cases results <;> simp [pure, Except.pure]
  | cons value values ih =>
    simp only [List.mapM'_cons, bind_ok, ih, List.forall₂_cons_left_iff]
    constructor
    · rintro ⟨result, hresult, rest, hrest, heq⟩
      exact ⟨result, rest, hresult, hrest, (Except.ok.inj heq).symm⟩
    · rintro ⟨result, rest, hresult, hrest, rfl⟩
      exact ⟨result, hresult, rest, hrest, rfl⟩

theorem convert_of_mapM_ok (hmapped : values.mapM convert = .ok results) {result : β}
    (hvalue : values[index]? = some value) (hresult : results[index]? = some result) :
    convert value = .ok result := by
  obtain ⟨hindex, rfl⟩ := List.getElem_of_getElem? hvalue
  obtain ⟨hplace, rfl⟩ := List.getElem_of_getElem? hresult
  exact (List.forall₂_iff_get.mp (mapM_eq_ok.mp hmapped)).2 index hindex hplace

theorem mapM_congr {other : α → Except Failure β}
    (hsame : ∀ value ∈ values, convert value = other value) :
    values.mapM convert = values.mapM other := by
  induction values with
  | nil => rfl
  | cons value values ih =>
    obtain ⟨hvalue, hvalues⟩ := List.forall_mem_cons.mp hsame
    rw [List.mapM_cons, List.mapM_cons, hvalue, ih hvalues]

theorem exists_mapM_ok (hall : ∀ value ∈ values, ∃ result, convert value = .ok result) :
    ∃ results, values.mapM convert = .ok results := by
  induction values with
  | nil => exact ⟨[], rfl⟩
  | cons value values ih =>
    obtain ⟨hvalue, hvalues⟩ := List.forall_mem_cons.mp hall
    obtain ⟨result, hresult⟩ := hvalue
    obtain ⟨results, hresults⟩ := ih hvalues
    exact ⟨result :: results, mapM_eq_ok.mpr (.cons hresult (mapM_eq_ok.mp hresults))⟩

theorem exists_of_mapM_eq_ok (hmapped : values.mapM convert = .ok results) {result : β}
    (hresult : result ∈ results) : ∃ value ∈ values, convert value = .ok result := by
  have hall := mapM_eq_ok.mp hmapped
  clear hmapped
  induction hall with
  | nil => exact absurd hresult List.not_mem_nil
  | cons hhead _ ih =>
    rcases List.mem_cons.mp hresult with rfl | hrest
    · exact ⟨_, List.mem_cons_self, hhead⟩
    · obtain ⟨value, hvalue, hconvert⟩ := ih hrest
      exact ⟨value, List.mem_cons_of_mem _ hvalue, hconvert⟩

/-- Runs `body` on each element, with its position counted from `position`. -/
def scan (body : Nat → α → State → Except Failure State) :
    Nat → List α → State → Except Failure State
  | _, [], state => .ok state
  | position, value :: values, state => do
    let state ← body position value state
    scan body (position + 1) values state

/-- A loop whose counter has `size` values, and starts over in a longer array. A
second round without an exception is one of endlessly many. -/
def scanCounted (size : Nat) (endless : Failure) (body : Nat → α → State → Except Failure State)
    (values : List α) (state : State) : Except Failure State :=
  if values.length < size then
    scan body 0 values state
  else do
    let state ← scan body 0 (values.take size) state
    let _ ← scan body 0 (values.take size) state
    .error endless

variable {body : Nat → α → State → Except Failure State}

@[simp]
theorem scanCounted_eq_ok {size : Nat} {endless : Failure} :
    scanCounted size endless body values state = .ok last ↔
      values.length < size ∧ scan body 0 values state = .ok last := by
  unfold scanCounted
  split
  next hlength => simp [hlength]
  next hlength => simp [hlength]

theorem scan_append {rest : List α} :
    scan body start (values ++ rest) state =
      (scan body start values state >>= scan body (start + values.length) rest) := by
  induction values generalizing start state with
  | nil => rfl
  | cons value values ih =>
    rw [List.cons_append, scan, scan]
    cases body start value state with
    | error failure => rfl
    | ok next =>
      rw [List.length_cons, show start + (values.length + 1) = start + 1 + values.length by omega]
      exact ih

theorem scan_position {body : α → State → Except Failure State} (first second : Nat)
    (values : List α) (state : State) :
    scan (fun _ => body) first values state = scan (fun _ => body) second values state := by
  induction values generalizing first second state with
  | nil => rfl
  | cons value values ih =>
    rw [scan, scan]
    exact bind_congr fun next => ih (first + 1) (second + 1) next

theorem scan_flatMap {body : α → State → Except Failure State} (values : β → List α)
    (position : Nat) (keys : List β) (state : State) :
    scan (fun _ key => scan (fun _ => body) 0 (values key)) position keys state =
      scan (fun _ => body) position (keys.flatMap values) state := by
  induction keys generalizing position state with
  | nil => rfl
  | cons key keys ih =>
    rw [scan, List.flatMap_cons, scan_append, scan_position 0 position]
    refine bind_congr fun next => ?_
    rw [ih]
    exact scan_position _ _ _ _

theorem scan_map {β : Type} {body : Nat → α → State → Except Failure State} (convert : β → α)
    (position : Nat) (values : List β) (state : State) :
    scan body position (values.map convert) state =
      scan (fun index value => body index (convert value)) position values state := by
  induction values generalizing position state with
  | nil => rfl
  | cons value values ih =>
    rw [List.map_cons, scan, scan]
    exact bind_congr fun next => ih (position + 1) next

theorem scan_accepts (hscan : scan body start values state = .ok last)
    (hvalue : values[index]? = some value) :
    ∃ before after, body (start + index) value before = .ok after := by
  induction values generalizing start state index with
  | nil => simp at hvalue
  | cons first values ih =>
    obtain ⟨next, hbody, hrest⟩ := bind_ok.mp hscan
    cases index with
    | zero =>
      obtain rfl := Option.some.inj hvalue
      exact ⟨state, next, hbody⟩
    | succ index =>
      rw [Nat.add_comm index 1, ← Nat.add_assoc]
      exact ih hrest hvalue

/-- What every accepted step of a loop carries from one position to the next, the
loop carries from its start to its end. -/
theorem scan_invariant {motive : Nat → State → Prop} {values : List α} {start : Nat}
    {state last : State} (hscan : scan body start values state = .ok last)
    (hstart : motive start state)
    (hstep : ∀ index value state next, values[index]? = some value → motive (start + index) state →
      body (start + index) value state = .ok next → motive (start + index + 1) next) :
    motive (start + values.length) last := by
  induction values generalizing start state with
  | nil =>
    obtain rfl := Except.ok.inj hscan
    exact hstart
  | cons value values ih =>
    obtain ⟨next, hbody, hrest⟩ := bind_ok.mp hscan
    have hnext := hstep 0 value state next rfl hstart hbody
    have hshift : ∀ index, start + 1 + index = start + (index + 1) := by omega
    have hlast := ih hrest hnext fun index value state next hvalue hmotive hbody => by
      rw [hshift] at hmotive hbody ⊢
      exact hstep (index + 1) value state next hvalue hmotive hbody
    rwa [hshift] at hlast

theorem scan_establishes {property : State → Prop} (hscan : scan body start values state = .ok last)
    (hvalue : values[index]? = some value)
    (hbrings : ∀ before after, body (start + index) value before = .ok after → property after)
    (hkeeps : ∀ position value before after, body position value before = .ok after →
      property before → property after) : property last := by
  have hbound := (List.getElem_of_getElem? hvalue).1
  refine scan_invariant (motive := fun position state => start + index < position → property state)
    hscan (fun hpassed => absurd hpassed (by omega)) ?_ (by omega)
  intro place other before after hother hbefore hbody hpassed
  rcases Nat.lt_or_ge (start + index) (start + place) with hlater | hnow
  · exact hkeeps _ _ _ _ hbody (hbefore hlater)
  · obtain rfl : place = index := by omega
    rw [hvalue] at hother
    obtain rfl := Option.some.inj hother
    exact hbrings _ _ hbody

theorem scan_total {motive : Nat → State → Prop} {values : List α} {start : Nat} {state : State}
    (hstart : motive start state)
    (hstep : ∀ index value state, values[index]? = some value → motive (start + index) state →
      ∃ next, body (start + index) value state = .ok next ∧ motive (start + index + 1) next) :
    ∃ last, scan body start values state = .ok last ∧ motive (start + values.length) last := by
  induction values generalizing start state with
  | nil => exact ⟨state, rfl, hstart⟩
  | cons value values ih =>
    obtain ⟨next, hbody, hnext⟩ := hstep 0 value state rfl hstart
    have hshift : ∀ index, start + 1 + index = start + (index + 1) := by omega
    obtain ⟨last, hrest, hlast⟩ := ih hnext fun index value state hvalue hmotive => by
      rw [hshift] at hmotive ⊢
      exact hstep (index + 1) value state hvalue hmotive
    rw [hshift] at hlast
    exact ⟨last, bind_ok.mpr ⟨next, hbody, hrest⟩, hlast⟩

/-- A loop over other values follows one where each of its steps does. -/
theorem scan_follows {β Other : Type} {other : Nat → β → Other → Except Failure Other}
    {related : Nat → State → Other → Prop} {values : List α} {others : List β} {start : Nat}
    {state last : State} {follower : Other} (hlength : others.length = values.length)
    (hscan : scan body start values state = .ok last) (hstart : related start state follower)
    (hstep : ∀ index value replacing state follower next, values[index]? = some value →
      others[index]? = some replacing → related (start + index) state follower →
      body (start + index) value state = .ok next →
      ∃ after, other (start + index) replacing follower = .ok after ∧
        related (start + index + 1) next after) :
    ∃ final, scan other start others follower = .ok final ∧
      related (start + values.length) last final := by
  induction values generalizing others start state follower with
  | nil =>
    obtain rfl := List.length_eq_zero_iff.mp hlength
    obtain rfl := Except.ok.inj hscan
    exact ⟨follower, rfl, hstart⟩
  | cons value values ih =>
    obtain ⟨replacing, others, rfl⟩ := List.exists_cons_of_length_eq_add_one hlength
    obtain ⟨next, hbody, hrest⟩ := bind_ok.mp hscan
    obtain ⟨after, hother, hnext⟩ := hstep 0 value replacing state follower next rfl rfl hstart hbody
    have hshift : ∀ index, start + 1 + index = start + (index + 1) := by omega
    obtain ⟨final, hfinal, hlast⟩ := ih (Nat.succ.inj hlength) hrest hnext
      fun index value replacing state follower next hvalue hreplacing hrelated hbody => by
        rw [hshift] at hrelated hbody ⊢
        exact hstep (index + 1) value replacing state follower next hvalue hreplacing hrelated
          hbody
    rw [hshift] at hlast
    exact ⟨final, bind_ok.mpr ⟨after, hother, hfinal⟩, hlast⟩

/-- A loop follows another one where each of its steps does. -/
theorem scan_simulates {Other : Type} {other : Nat → α → Other → Except Failure Other}
    {related : Nat → State → Other → Prop} {values : List α} {start : Nat} {state last : State}
    {follower : Other} (hscan : scan body start values state = .ok last)
    (hstart : related start state follower)
    (hstep : ∀ index value state follower next, values[index]? = some value →
      related (start + index) state follower → body (start + index) value state = .ok next →
      ∃ after, other (start + index) value follower = .ok after ∧
        related (start + index + 1) next after) :
    ∃ final, scan other start values follower = .ok final ∧
      related (start + values.length) last final := by
  refine scan_follows rfl hscan hstart ?_
  intro index value replacing state follower next hvalue hreplacing hrelated hbody
  obtain rfl := Option.some.inj (hvalue.symm.trans hreplacing)
  exact hstep index value state follower next hvalue hrelated hbody

/-- The outcome is not `endless`, by which a model reports what is no exception: a loop that
goes on for ever, or a read outside of an array. -/
def Ends (endless : Failure) (outcome : Except Failure α) : Prop := outcome ≠ .error endless

namespace Ends

variable {β : Type} {endless : Failure}

theorem ok (value : α) : Ends endless (.ok value) := nofun

variable {failure : Failure}

theorem error (hfailure : failure ≠ endless) :
    Ends endless (.error failure : Except Failure α) :=
  fun hsame => hfailure (Except.error.inj hsame)

theorem bind {first : Except Failure α} {next : α → Except Failure β}
    (hfirst : Ends endless first)
    (hnext : ∀ value, first = .ok value → Ends endless (next value)) :
    Ends endless (first >>= next) := by
  cases first with
  | error failure => exact fun hsame => hfirst (congrArg Except.error (Except.error.inj hsame))
  | ok value => exact hnext value rfl

theorem reject {condition : Prop} [Decidable condition] (hfailure : failure ≠ endless) :
    Ends endless (reject condition failure) := by
  unfold Foundation.reject
  split
  next => exact error hfailure
  next => exact ok ()

theorem element (hfailure : failure ≠ endless) (values : List α) (position : Nat) :
    Ends endless (element failure values position) := by
  unfold Foundation.element
  split
  next value _ => exact ok value
  next => exact error hfailure

theorem mapM {convert : α → Except Failure β} {values : List α}
    (hconvert : ∀ value ∈ values, Ends endless (convert value)) :
    Ends endless (values.mapM convert) := by
  rw [← List.mapM'_eq_mapM]
  induction values with
  | nil => exact ok []
  | cons value values ih =>
    obtain ⟨hvalue, hvalues⟩ := List.forall_mem_cons.mp hconvert
    rw [List.mapM'_cons]
    exact bind hvalue fun _ _ => bind (ih hvalues) fun _ _ => ok _

theorem scan {motive : Nat → State → Prop} {values : List α} {start : Nat} {state : State}
    (hstart : motive start state)
    (hbody : ∀ index value state, values[index]? = some value → motive (start + index) state →
      Ends endless (body (start + index) value state))
    (hstep : ∀ index value state next, values[index]? = some value → motive (start + index) state →
      body (start + index) value state = .ok next → motive (start + index + 1) next) :
    Ends endless (scan body start values state) := by
  induction values generalizing start state with
  | nil => exact ok state
  | cons value values ih =>
    apply bind (hbody 0 value state rfl hstart)
    intro next hnext
    have hshift : ∀ index, start + 1 + index = start + (index + 1) := by omega
    apply ih (hstep 0 value state next rfl hstart hnext)
    · intro index value state hvalue hmotive
      rw [hshift] at hmotive ⊢
      exact hbody (index + 1) value state hvalue hmotive
    · intro index value state next hvalue hmotive hstepped
      rw [hshift] at hmotive hstepped ⊢
      exact hstep (index + 1) value state next hvalue hmotive hstepped

end Ends

end Foundation

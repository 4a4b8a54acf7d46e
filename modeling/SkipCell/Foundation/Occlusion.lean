import Mathlib

/-! # Selection by occlusion

Items are selected from a pool in its order, in several rounds. Every selected item occludes
those behind it to some extent, and a round passes over what is occluded beyond its threshold.
The later rounds allow more, until enough are selected.
-/

namespace Foundation

universe uItem uFactor

variable {Item : Type uItem} {Factor : Type uFactor} [LinearOrder Factor]

/-- How items occlude one another. -/
structure Occlusion (Item : Type uItem) (Factor : Type uFactor) [LinearOrder Factor] where
  rounds : List Factor
  limit : Factor
  zero : Factor
  full : Factor
  /-- The factor of the second item after the first one is selected in a round. -/
  raise : Factor → Item → Item → Factor → Factor

namespace Occlusion

/-- Fully occluded is beyond every threshold, and stays so. -/
structure Lawful (occlusion : Occlusion Item Factor) : Prop where
  rounds_lt : ∀ round ∈ occlusion.rounds, round < occlusion.full
  le_raise : ∀ round first second factor, occlusion.full ≤ factor →
    occlusion.full ≤ occlusion.raise round first second factor

variable (occlusion : Occlusion Item Factor) (degree : Nat) (kept : Item → Bool)

/-- The pool with the factor of each item, and the selected items. -/
abbrev State (Item : Type uItem) (Factor : Type uFactor) := List (Item × Factor) × List Item

/-- The item at `place` is selected: it counts as fully occluded, and the items behind it that
are below the limit get a new factor. -/
def occlude (round : Factor) (place : Nat) (item : Item) (cells : List (Item × Factor)) :
    List (Item × Factor) :=
  cells.mapIdx fun other cell =>
    if other = place then (cell.1, occlusion.full)
    else if place < other then
      if occlusion.limit < cell.2 then cell
      else (cell.1, occlusion.raise round item cell.1 cell.2)
    else cell

/-- One place of a round. An item that is not to be kept occludes others all the same. -/
def visit (round : Factor) (state : State Item Factor) (place : Nat) : State Item Factor :=
  if degree ≤ state.2.length then state
  else
    match state.1[place]? with
    | none => state
    | some (item, factor) =>
      if round < factor then state
      else
        (occlusion.occlude round place item state.1,
          if kept item then state.2 ++ [item] else state.2)

def visitAll (state : State Item Factor) (round : Factor) : State Item Factor :=
  if degree ≤ state.2.length then state
  else (List.range state.1.length).foldl (occlusion.visit degree kept round) state

def select (pool : List Item) : List Item :=
  (occlusion.rounds.foldl (occlusion.visitAll degree kept)
    (pool.map fun item => (item, occlusion.zero), [])).2

variable {occlusion degree kept}

/-- The selected items are different ones of the pool, and fully occluded. -/
structure Selecting (occlusion : Occlusion Item Factor) (degree : Nat) (kept : Item → Bool)
    (pool : List Item) (state : State Item Factor) : Prop where
  items : state.1.map Prod.fst = pool
  nodup : state.2.Nodup
  subset : ∀ item ∈ state.2, item ∈ pool ∧ kept item = true
  size : state.2.length ≤ degree
  full : ∀ item ∈ state.2, ∀ factor, (item, factor) ∈ state.1 → occlusion.full ≤ factor

variable {pool : List Item} {state : State Item Factor} {round : Factor}

theorem map_occlude (round : Factor) (place : Nat) (item : Item) (cells : List (Item × Factor)) :
    (occlusion.occlude round place item cells).map Prod.fst = cells.map Prod.fst := by
  apply List.ext_getElem
  · simp [occlude]
  · intro other hleft hright
    simp only [occlude, List.getElem_map, List.getElem_mapIdx]
    split_ifs <;> rfl

theorem mem_occlude (hlawful : occlusion.Lawful) {place : Nat} {item other : Item}
    {factor : Factor} {cells : List (Item × Factor)}
    (hmem : (other, factor) ∈ occlusion.occlude round place item cells) :
    ∃ old, (other, old) ∈ cells ∧ (occlusion.full ≤ old → occlusion.full ≤ factor) := by
  obtain ⟨index, hindex, hcell⟩ := List.mem_iff_getElem.mp hmem
  simp only [occlude, List.length_mapIdx] at hindex
  simp only [occlude, List.getElem_mapIdx] at hcell
  have hold := List.getElem_mem hindex
  split_ifs at hcell
  · obtain ⟨rfl, rfl⟩ := Prod.mk.inj hcell
    exact ⟨_, hold, fun _ => le_rfl⟩
  · rw [hcell] at hold
    exact ⟨_, hold, id⟩
  · obtain ⟨rfl, rfl⟩ := Prod.mk.inj hcell
    exact ⟨_, hold, hlawful.le_raise _ _ _ _⟩
  · rw [hcell] at hold
    exact ⟨_, hold, id⟩

theorem getElem?_occlude {place : Nat} {item : Item} {factor : Factor}
    {cells : List (Item × Factor)} (hcell : cells[place]? = some (item, factor)) :
    (occlusion.occlude round place item cells)[place]? = some (item, occlusion.full) := by
  rw [occlude, List.getElem?_mapIdx, hcell]
  simp

section

variable (hlawful : occlusion.Lawful) (hnodup : pool.Nodup)
  (hselecting : occlusion.Selecting degree kept pool state) (hround : round < occlusion.full)
include hlawful hnodup hselecting hround

theorem Selecting.visit (place : Nat) :
    occlusion.Selecting degree kept pool (occlusion.visit degree kept round state place) := by
  rw [Occlusion.visit]
  split
  · exact hselecting
  · next hroom =>
      cases hcell : state.1[place]? with
      | none => exact hselecting
      | some cell =>
        obtain ⟨item, factor⟩ := cell
        dsimp only
        split
        · exact hselecting
        · next hopen =>
            have hmem : (item, factor) ∈ state.1 := List.mem_of_getElem? hcell
            -- A selected item would be fully occluded.
            have hnew : item ∉ state.2 := fun hold =>
              hopen (lt_of_lt_of_le hround (hselecting.full item hold factor hmem))
            have hpool : item ∈ pool := hselecting.items ▸ List.mem_map_of_mem hmem
            have hitems : (occlusion.occlude round place item state.1).map Prod.fst = pool :=
              (map_occlude round place item state.1).trans hselecting.items
            have hold : ∀ other ∈ state.2, ∀ otherFactor,
                (other, otherFactor) ∈ occlusion.occlude round place item state.1 →
                  occlusion.full ≤ otherFactor := by
              intro other hother otherFactor hcells
              obtain ⟨old, hcell, hle⟩ := mem_occlude hlawful hcells
              exact hle (hselecting.full other hother old hcell)
            split
            · next hkept =>
                constructor
                case items => exact hitems
                case nodup =>
                  refine List.nodup_append.mpr ⟨hselecting.nodup, List.nodup_singleton item, ?_⟩
                  intro first hfirst last hlast hsame
                  exact hnew (List.mem_singleton.mp hlast ▸ hsame ▸ hfirst)
                case subset =>
                  intro other hother
                  rcases List.mem_append.mp hother with hother | hother
                  · exact hselecting.subset other hother
                  · exact List.mem_singleton.mp hother ▸ ⟨hpool, hkept⟩
                case size =>
                  rw [List.length_append, List.length_singleton]
                  exact Nat.succ_le_of_lt (Nat.not_le.mp hroom)
                case full =>
                  intro other hother otherFactor hcells
                  rcases List.mem_append.mp hother with hother | hother
                  · exact hold other hother otherFactor hcells
                  · obtain rfl := List.mem_singleton.mp hother
                    have hselected : (other, occlusion.full) ∈
                        occlusion.occlude round place other state.1 :=
                      List.mem_of_getElem? (getElem?_occlude hcell)
                    rw [← hitems] at hnodup
                    have hsame := List.inj_on_of_nodup_map hnodup hcells hselected rfl
                    exact le_of_eq (congrArg Prod.snd hsame).symm
            · exact ⟨hitems, hselecting.nodup, hselecting.subset, hselecting.size, hold⟩

theorem Selecting.visitAll :
    occlusion.Selecting degree kept pool (occlusion.visitAll degree kept state round) := by
  rw [Occlusion.visitAll]
  split
  · exact hselecting
  · exact List.foldlRecOn (motive := occlusion.Selecting degree kept pool) _ _ hselecting
      fun state hstate place _ => hstate.visit hlawful hnodup hround place

end

theorem select_spec (hlawful : occlusion.Lawful) (degree : Nat) (kept : Item → Bool)
    (hnodup : pool.Nodup) :
    (occlusion.select degree kept pool).Nodup ∧
      (∀ item ∈ occlusion.select degree kept pool, item ∈ pool ∧ kept item = true) ∧
      (occlusion.select degree kept pool).length ≤ degree := by
  have hselecting : occlusion.Selecting degree kept pool (occlusion.rounds.foldl
      (occlusion.visitAll degree kept) (pool.map fun item => (item, occlusion.zero), [])) := by
    refine List.foldlRecOn (motive := occlusion.Selecting degree kept pool) _ _ ?_
      fun state hstate round hround => hstate.visitAll hlawful hnodup (hlawful.rounds_lt round hround)
    exact ⟨by simp [Function.comp_def], .nil, by simp, Nat.zero_le _, by simp⟩
  exact ⟨hselecting.nodup, hselecting.subset, hselecting.size⟩

section Noting

universe uNote

variable {Note : Type uNote} (note : Factor → Nat → Item → List (Item × Factor) → Note → Note)

/-- A note is taken wherever an item is selected, before the items behind it are occluded. -/
def visitNoting (occlusion : Occlusion Item Factor) (degree : Nat) (kept : Item → Bool)
    (round : Factor) (state : State Item Factor × Note) (place : Nat) : State Item Factor × Note :=
  (occlusion.visit degree kept round state.1 place,
    if degree ≤ state.1.2.length then state.2
    else
      match state.1.1[place]? with
      | none => state.2
      | some (item, factor) =>
        if round < factor then state.2 else note round place item state.1.1 state.2)

def visitAllNoting (occlusion : Occlusion Item Factor) (degree : Nat) (kept : Item → Bool)
    (state : State Item Factor × Note) (round : Factor) : State Item Factor × Note :=
  if degree ≤ state.1.2.length then state
  else (List.range state.1.1.length).foldl (visitNoting note occlusion degree kept round) state

/-- The selected items, and the notes on them. -/
def selectNoting (occlusion : Occlusion Item Factor) (degree : Nat) (kept : Item → Bool)
    (pool : List Item) (start : Note) : List Item × Note :=
  let state := occlusion.rounds.foldl (visitAllNoting note occlusion degree kept)
    ((pool.map fun item => (item, occlusion.zero), []), start)
  (state.1.2, state.2)

variable {note}

theorem foldl_visitNoting (places : List Nat) (round : Factor) (state : State Item Factor × Note) :
    (places.foldl (visitNoting note occlusion degree kept round) state).1 =
      places.foldl (occlusion.visit degree kept round) state.1 := by
  induction places generalizing state with
  | nil => rfl
  | cons place places ih => exact ih _

theorem visitAllNoting_fst (round : Factor) (state : State Item Factor × Note) :
    (visitAllNoting note occlusion degree kept state round).1 =
      occlusion.visitAll degree kept state.1 round := by
  rw [visitAllNoting, visitAll]
  split
  · rfl
  · exact foldl_visitNoting _ round state

theorem selectNoting_fst (pool : List Item) (start : Note) :
    (selectNoting note occlusion degree kept pool start).1 = occlusion.select degree kept pool := by
  have hrounds : ∀ (rounds : List Factor) (state : State Item Factor × Note),
      (rounds.foldl (visitAllNoting note occlusion degree kept) state).1 =
        rounds.foldl (occlusion.visitAll degree kept) state.1 := by
    intro rounds
    induction rounds with
    | nil => exact fun _ => rfl
    | cons round rounds ih =>
      intro state
      rw [List.foldl_cons, List.foldl_cons, ih, visitAllNoting_fst]
  exact congrArg Prod.snd (hrounds occlusion.rounds _)

theorem map_visit (round : Factor) (state : State Item Factor) (place : Nat) :
    (occlusion.visit degree kept round state place).1.map Prod.fst = state.1.map Prod.fst := by
  rw [visit]
  split
  · rfl
  · split
    · rfl
    · split
      · rfl
      · exact map_occlude _ _ _ _

theorem selectNoting_keeps (holds : Note → Prop) {pool : List Item} {start : Note}
    (hstart : holds start)
    (hnote : ∀ round place item cells notes, item ∈ pool → cells.map Prod.fst = pool →
      holds notes → holds (note round place item cells notes)) :
    holds (selectNoting note occlusion degree kept pool start).2 := by
  have hkeeps : ∀ rounds : List Factor,
      let state := rounds.foldl (visitAllNoting note occlusion degree kept)
        ((pool.map fun item => (item, occlusion.zero), []), start)
      state.1.1.map Prod.fst = pool ∧ holds state.2 := by
    intro rounds
    refine List.foldlRecOn (motive := fun state : State Item Factor × Note =>
      state.1.1.map Prod.fst = pool ∧ holds state.2) rounds _
      ⟨by simp [Function.comp_def], hstart⟩ ?_
    intro state hstate round _
    rw [visitAllNoting]
    split
    · exact hstate
    · refine List.foldlRecOn (motive := fun state : State Item Factor × Note =>
        state.1.1.map Prod.fst = pool ∧ holds state.2) _ _ hstate ?_
      intro state hstate place _
      refine ⟨(map_visit round state.1 place).trans hstate.1, ?_⟩
      rw [visitNoting]
      dsimp only
      split
      · exact hstate.2
      · split
        · exact hstate.2
        · next item factor hcell =>
            split
            · exact hstate.2
            · refine hnote round place item state.1.1 state.2 ?_ hstate.1 hstate.2
              exact hstate.1 ▸ List.mem_map_of_mem (List.mem_of_getElem? hcell)
  exact (hkeeps occlusion.rounds).2

end Noting

end Occlusion

end Foundation

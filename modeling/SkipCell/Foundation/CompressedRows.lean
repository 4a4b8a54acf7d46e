import SkipCell.Foundation.Subspan

/-! # Rows that lie one behind the other

The rows of a table are the ranges of one sequence. They are filled item by item, each at the
cursor of its row, or one row after the other in any order.
-/

namespace Foundation

universe u v w

/-- The iterations of a loop over the numbers below `size`, in the order in which they take
place. Threads that share the iterations take them in some such order. -/
abbrev LoopOrder (size : Nat) := { order : List Nat // order.Perm (List.range size) }

def LoopOrder.ascending (size : Nat) : LoopOrder size := ⟨List.range size, .refl _⟩

def parallelFor {State : Type u} (order : List Nat) (body : Nat → State → State) (state : State) :
    State :=
  order.foldl (fun state index => body index state) state

section Loop

variable {State : Type u} {Row : Type v} {size : Nat} {body : Nat → State → State}
  {row : State → Nat → Row} {good : State → Prop} {result : Nat → Row → Row}

section

variable
  (hbody : ∀ index < size, ∀ state, good state → good (body index state) ∧
    row (body index state) index = result index (row state index) ∧
      ∀ other < size, other ≠ index → row (body index state) other = row state other)
include hbody

theorem foldl_rows {order : List Nat} (hnodup : order.Nodup)
    (hbelow : ∀ index ∈ order, index < size) {state : State} (hgood : good state) :
    good (parallelFor order body state) ∧ ∀ index < size, row (parallelFor order body state) index =
      if index ∈ order then result index (row state index) else row state index := by
  induction order generalizing state with
  | nil => exact ⟨hgood, fun index _ => (if_neg List.not_mem_nil).symm⟩
  | cons first order ih =>
    obtain ⟨hout, hrest⟩ := List.nodup_cons.mp hnodup
    obtain ⟨hfirst, hothers⟩ := List.forall_mem_cons.mp hbelow
    obtain ⟨hnext, hself, hkept⟩ := hbody first hfirst state hgood
    obtain ⟨hlast, hrows⟩ := ih hrest hothers hnext
    refine ⟨hlast, fun index hindex => (hrows index hindex).trans ?_⟩
    by_cases hsame : index = first
    · subst hsame
      rw [if_neg hout, if_pos List.mem_cons_self, hself]
    · rw [hkept index hindex hsame]
      simp only [List.mem_cons, hsame, false_or]

theorem parallelFor_rows (order : LoopOrder size) {state : State} (hgood : good state) :
    good (parallelFor order.val body state) ∧ ∀ index < size,
      row (parallelFor order.val body state) index = result index (row state index) := by
  have hmem : ∀ index, index ∈ order.val ↔ index < size := fun index => by
    rw [order.property.mem_iff, List.mem_range]
  have hnodup := order.property.nodup_iff.mpr List.nodup_range
  obtain ⟨hlast, hrows⟩ := foldl_rows hbody hnodup (fun index => (hmem index).mp) hgood
  refine ⟨hlast, fun index hindex => ?_⟩
  rw [hrows index hindex, if_pos ((hmem index).mpr hindex)]

end

theorem parallelFor_congr {other : Nat → State → State} (order : LoopOrder size)
    (hsame : ∀ index < size, ∀ state, body index state = other index state) (state : State) :
    parallelFor order.val body state = parallelFor order.val other state := by
  refine List.foldl_ext _ _ _ fun state index hindex => hsame index ?_ state
  exact List.mem_range.mp (order.property.mem_iff.mp hindex)

theorem parallelFor_set {α : Type u} (order : LoopOrder size) (value : Nat → α) {slots : List α}
    (hlength : slots.length = size) :
    parallelFor order.val (fun index slots => slots.set index (value index)) slots =
      (List.range size).map value := by
  obtain ⟨hlast, hslots⟩ := @parallelFor_rows (List α) (Option α) size
    (fun index slots => slots.set index (value index)) (fun slots index => slots[index]?)
    (fun slots => slots.length = size) (fun index _ => some (value index))
    (fun index hindex slots hslots => ⟨by rw [List.length_set, hslots],
      List.getElem?_set_self (hslots ▸ hindex),
      fun other _ hother => List.getElem?_set_ne (Ne.symm hother)⟩) order slots hlength
  apply List.ext_getElem?
  intro index
  by_cases hindex : index < size
  · rw [hslots index hindex, List.getElem?_map, List.getElem?_range hindex]
    rfl
  · rw [List.getElem?_eq_none (by omega), List.getElem?_eq_none]
    rw [List.length_map, List.length_range]
    omega

end Loop

/-- Where a row begins, by the widths of the rows before it. -/
def rowStart (width : Nat → Nat) : Nat → Nat
  | 0 => 0
  | row + 1 => rowStart width row + width row

def rowOf {α : Type u} (width : Nat → Nat) (slots : List α) (row : Nat) : List α :=
  subspan slots (rowStart width row) (width row)

section Rows

variable {α : Type u} {width : Nat → Nat} {size : Nat} {slots : List α}

theorem rowStart_mono (width : Nat → Nat) {first second : Nat} (hle : first ≤ second) :
    rowStart width first ≤ rowStart width second := by
  induction second with
  | zero => rw [Nat.le_zero.mp hle]
  | succ second ih =>
    rcases Nat.le_succ_iff.mp hle with hbefore | rfl
    · exact (ih hbefore).trans (Nat.le_add_right _ _)
    · exact Nat.le_refl _

theorem rowStart_succ (width : Nat → Nat) (row : Nat) :
    rowStart width (row + 1) = width 0 + rowStart (fun row => width (row + 1)) row := by
  induction row with
  | zero => exact Nat.add_comm _ _
  | succ row ih => rw [rowStart, ih, rowStart, Nat.add_assoc]

theorem rowStart_le {width : Nat → Nat} {rows bound : Nat} (hbound : ∀ row < rows, width row ≤ bound) :
    rowStart width rows ≤ rows * bound := by
  induction rows with
  | zero => exact Nat.zero_le _
  | succ rows ih =>
    have hrows := ih fun row hrow => hbound row (Nat.lt_succ_of_lt hrow)
    have hlast := hbound rows (Nat.lt_succ_self rows)
    rw [rowStart, Nat.succ_mul]
    exact Nat.add_le_add hrows hlast

theorem rowEnd_le (width : Nat → Nat) {first second : Nat} (hless : first < second) :
    rowStart width first + width first ≤ rowStart width second :=
  rowStart_mono width (Nat.succ_le_of_lt hless)

theorem eq_flatMap_rows (hlength : slots.length = rowStart width size) :
    slots = (List.range size).flatMap (rowOf width slots) := by
  have htake : ∀ rows ≤ size,
      slots.take (rowStart width rows) = (List.range rows).flatMap (rowOf width slots) := by
    intro rows hrows
    induction rows with
    | zero => rfl
    | succ rows ih =>
      have hsplit := subspan_add slots 0 (rowStart width rows) (width rows)
      rw [Nat.zero_add, subspan, subspan, List.drop_zero] at hsplit
      rw [List.range_succ, List.flatMap_append, ← ih (Nat.le_of_succ_le hrows),
        List.flatMap_singleton, rowStart]
      exact hsplit.symm
  have hwhole := htake size (Nat.le_refl _)
  rwa [← hlength, List.take_length] at hwhole

theorem eq_of_rows {others : List α} (hlength : slots.length = rowStart width size)
    (hothers : others.length = rowStart width size)
    (hrows : ∀ row < size, rowOf width slots row = rowOf width others row) : slots = others := by
  rw [eq_flatMap_rows hlength, eq_flatMap_rows hothers]
  exact List.flatMap_congr fun row hrow => hrows row (List.mem_range.mp hrow)

theorem length_flatMap_rows {rows : Nat → List α}
    (hwidth : ∀ row < size, (rows row).length = width row) :
    ((List.range size).flatMap rows).length = rowStart width size := by
  induction size with
  | zero => rfl
  | succ size ih =>
    rw [List.range_succ, List.flatMap_append, List.length_append,
      ih fun row hrow => hwidth row (Nat.lt_succ_of_lt hrow), List.flatMap_singleton,
      hwidth size (Nat.lt_succ_self _), rowStart]

theorem rowOf_flatMap {rows : Nat → List α} (hwidth : ∀ row < size, (rows row).length = width row)
    {row : Nat} (hrow : row < size) :
    rowOf width ((List.range size).flatMap rows) row = rows row := by
  induction size with
  | zero => exact absurd hrow (Nat.not_lt_zero _)
  | succ size ih =>
    have hbefore : ∀ row < size, (rows row).length = width row :=
      fun row hrow => hwidth row (Nat.lt_succ_of_lt hrow)
    have hlength := length_flatMap_rows hbefore
    rw [List.range_succ, List.flatMap_append, List.flatMap_singleton, rowOf]
    rcases Nat.lt_succ_iff_lt_or_eq.mp hrow with hless | rfl
    · have hend := rowEnd_le width hless
      rw [subspan_append_left _ (by omega)]
      exact ih hbefore hless
    · have hright := subspan_append_right ((List.range row).flatMap rows) (rows row) 0
        (width row)
      rw [hlength, Nat.add_zero] at hright
      rw [hright, subspan, List.drop_zero, ← hwidth row hrow, List.take_length]

theorem parallelFor_patch (order : LoopOrder size) {written : Nat → List α → List α}
    (hwritten : ∀ row < size, ∀ values : List α, values.length = width row →
      (written row values).length = width row) (hlength : slots.length = rowStart width size) :
    parallelFor order.val (fun row slots => patch slots (rowStart width row)
        (written row (rowOf width slots row))) slots =
      (List.range size).flatMap fun row => written row (rowOf width slots row) := by
  have hrow : ∀ row < size, ∀ slots : List α, slots.length = rowStart width size →
      (rowOf width slots row).length = width row := by
    intro row hrow slots hslots
    have hend := rowEnd_le width hrow
    exact length_subspan (by omega)
  obtain ⟨hlast, hrows⟩ := @parallelFor_rows (List α) (List α) size
    (fun row slots => patch slots (rowStart width row) (written row (rowOf width slots row)))
    (rowOf width) (fun slots => slots.length = rowStart width size) written
    (fun row hless slots hslots => by
      have hwidth := hwritten row hless _ (hrow row hless slots hslots)
      have hend := rowEnd_le width hless
      refine ⟨?_, ?_, fun other hother hne => ?_⟩
      · rw [length_patch (by omega), hslots]
      · have hself := @subspan_patch_self _ slots (written row (rowOf width slots row))
          (rowStart width row) (by omega)
        rwa [hwidth] at hself
      · rcases Nat.lt_or_gt_of_ne hne with hbefore | hbehind
        · exact subspan_patch_before (rowEnd_le width hbefore) (by omega)
        · have hafter := rowEnd_le width hbehind
          exact subspan_patch_behind (by omega) (by omega)) order slots hlength
  have hwidths : ∀ row < size, (written row (rowOf width slots row)).length = width row :=
    fun row hless => hwritten row hless _ (hrow row hless slots hlength)
  refine eq_of_rows hlast (length_flatMap_rows hwidths) fun row hless => ?_
  rw [hrows row hless, rowOf_flatMap hwidths hless]

end Rows

section Items

variable {α : Type u} {width : Nat → Nat} {size : Nat} {items : List (Nat × α)}

/-- The items of a row, in the order in which they come. -/
def itemsOf (items : List (Nat × α)) (row : Nat) : List α :=
  items.filterMap fun item => if item.1 = row then some item.2 else none

def countItems (size : Nat) (items : List (Nat × α)) : List Nat :=
  items.foldl (fun counts item => counts.modify item.1 (· + 1)) (List.replicate size 0)

/-- Every item is put behind those of its row. -/
def collectItems (size : Nat) (items : List (Nat × α)) : List (List α) :=
  items.foldl (fun rows item => rows.modify item.1 (· ++ [item.2])) (List.replicate size [])

/-- An item is put where the cursor of its row is. -/
def scatterItem (state : List Nat × List α) (item : Nat × α) : List Nat × List α :=
  let cursor := state.1.getD item.1 0
  (state.1.set item.1 (cursor + 1), state.2.set cursor item.2)

def scatter (items : List (Nat × α)) (cursors : List Nat) (slots : List α) : List α :=
  (items.foldl scatterItem (cursors, slots)).2

theorem itemsOf_append (first second : List (Nat × α)) (row : Nat) :
    itemsOf (first ++ second) row = itemsOf first row ++ itemsOf second row :=
  List.filterMap_append

theorem itemsOf_self (row : Nat) (value : α) : itemsOf [(row, value)] row = [value] := by
  simp [itemsOf]

theorem itemsOf_other {row other : Nat} (value : α) (hne : other ≠ row) :
    itemsOf [(row, value)] other = [] := by
  simp [itemsOf, Ne.symm hne]

theorem mem_itemsOf {row : Nat} {value : α} : value ∈ itemsOf items row ↔ (row, value) ∈ items := by
  simp [itemsOf]

theorem foldl_modify_eq {β : Type*} (size : Nat) (start : β) (add : β → α → β)
    (items : List (Nat × α)) :
    items.foldl (fun rows item => rows.modify item.1 (add · item.2)) (List.replicate size start) =
      (List.range size).map fun row => (itemsOf items row).foldl add start := by
  induction items using List.reverseRecOn with
  | nil =>
    have hempty : ∀ row, itemsOf ([] : List (Nat × α)) row = [] := fun _ => rfl
    simp only [hempty, List.foldl_nil, List.map_const', List.length_range]
  | append_singleton items item ih =>
    obtain ⟨row, value⟩ := item
    rw [List.foldl_append, ih]
    apply List.ext_getElem?
    intro other
    rw [List.foldl_cons, List.foldl_nil, List.getElem?_modify, List.getElem?_map, List.getElem?_map]
    by_cases hother : other < size
    · rw [List.getElem?_range hother, Option.map_some, Option.map_some, itemsOf_append]
      by_cases hsame : row = other
      · subst hsame
        rw [itemsOf_self]
        simp
      · rw [itemsOf_other value (Ne.symm hsame)]
        simp [hsame]
    · rw [List.getElem?_eq_none (by rw [List.length_range]; omega)]
      rfl

theorem countItems_eq (size : Nat) (items : List (Nat × α)) :
    countItems size items = (List.range size).map fun row => (itemsOf items row).length := by
  refine (foldl_modify_eq size 0 (fun count _ => count + 1) items).trans ?_
  simp

theorem collectItems_eq (size : Nat) (items : List (Nat × α)) :
    collectItems size items = (List.range size).map (itemsOf items) := by
  refine (foldl_modify_eq size [] (fun (row : List α) value => row ++ [value]) items).trans ?_
  simp [← List.flatMap_def]

/-- The items so far are at the front of their rows, and the cursors are behind them. -/
structure RowsFilled (width : Nat → Nat) (size : Nat) (items : List (Nat × α))
    (state : List Nat × List α) : Prop where
  length : state.2.length = rowStart width size
  cursors : ∀ row < size, state.1[row]? = some (rowStart width row + (itemsOf items row).length)
  rows : ∀ row < size,
    subspan state.2 (rowStart width row) (itemsOf items row).length = itemsOf items row

theorem subspan_set_outside {slots : List α} {position start count : Nat} (value : α)
    (hout : position < start ∨ start + count ≤ position) :
    subspan (slots.set position value) start count = subspan slots start count := by
  apply List.ext_getElem?
  intro index
  simp only [subspan, List.getElem?_take, List.getElem?_drop]
  split
  · exact List.getElem?_set_ne (by omega)
  · rfl

theorem subspan_set_last {slots : List α} {start count : Nat} (value : α)
    (hfits : start + count < slots.length) :
    subspan (slots.set (start + count) value) start (count + 1) =
      subspan slots start count ++ [value] := by
  rw [← subspan_add _ start count 1, subspan_set_outside value (.inr (Nat.le_refl _))]
  congr 1
  apply List.ext_getElem?
  intro index
  simp only [subspan, List.getElem?_take, List.getElem?_drop]
  cases index with
  | zero => simp [hfits]
  | succ index => simp

theorem RowsFilled.put {state : List Nat × List α} {row : Nat} {value : α}
    (hfilled : RowsFilled width size items state) (hrow : row < size)
    (hroom : (itemsOf items row).length < width row)
    (hwidth : ∀ row < size, (itemsOf items row).length ≤ width row) :
    RowsFilled width size (items ++ [(row, value)]) (scatterItem state (row, value)) := by
  have hcursor : state.1.getD row 0 = rowStart width row + (itemsOf items row).length := by
    rw [List.getD_eq_getElem?_getD, hfilled.cursors row hrow, Option.getD_some]
  have hinside := (List.getElem_of_getElem? (hfilled.cursors row hrow)).1
  have hend := rowEnd_le width hrow
  refine ⟨?_, fun other hother => ?_, fun other hother => ?_⟩
  · exact (List.length_set ..).trans hfilled.length
  · rw [itemsOf_append]
    by_cases hsame : other = row
    · subst hsame
      rw [itemsOf_self, List.length_append, List.length_singleton]
      exact (List.getElem?_set_self hinside).trans (by rw [hcursor, Nat.add_assoc])
    · rw [itemsOf_other value hsame, List.append_nil]
      exact (List.getElem?_set_ne (Ne.symm hsame)).trans (hfilled.cursors other hother)
  · rw [itemsOf_append]
    have hslots : (scatterItem state (row, value)).2 =
        state.2.set (rowStart width row + (itemsOf items row).length) value := by
      rw [← hcursor]
      rfl
    rw [hslots]
    by_cases hsame : other = row
    · subst hsame
      rw [itemsOf_self, List.length_append, List.length_singleton,
        subspan_set_last value (by rw [hfilled.length]; omega), hfilled.rows other hother]
    · rw [itemsOf_other value hsame, List.append_nil, subspan_set_outside value,
        hfilled.rows other hother]
      have hshort := hwidth other hother
      rcases Nat.lt_or_gt_of_ne hsame with hless | hgreater
      · have hbefore := rowEnd_le width hless
        exact .inr (by omega)
      · have hbehind := rowEnd_le width hgreater
        exact .inl (by omega)

theorem scatter_eq (hrows : ∀ item ∈ items, item.1 < size)
    (hwidth : ∀ row < size, (itemsOf items row).length = width row) {cursors : List Nat}
    (hcursors : ∀ row < size, cursors[row]? = some (rowStart width row)) {slots : List α}
    (hlength : slots.length = rowStart width size) :
    scatter items cursors slots = (List.range size).flatMap (itemsOf items) := by
  have hfilled : ∀ done rest, items = done ++ rest →
      RowsFilled width size done (done.foldl scatterItem (cursors, slots)) := by
    intro done
    induction done using List.reverseRecOn with
    | nil =>
      intro rest hitems
      exact ⟨hlength, hcursors, fun row hrow => by simp [itemsOf, subspan]⟩
    | append_singleton done item ih =>
      intro rest hitems
      obtain ⟨row, value⟩ := item
      have hsplit : items = done ++ ((row, value) :: rest) := by
        rw [hitems, List.append_assoc]
        rfl
      have hrow : row < size := hrows (row, value) (by rw [hsplit]; simp)
      have hlengths : ∀ other < size, (itemsOf items other).length =
          (itemsOf done other).length + (itemsOf ((row, value) :: rest) other).length := by
        intro other _
        rw [hsplit, itemsOf_append, List.length_append]
      have hroom : (itemsOf done row).length < width row := by
        have hself : 0 < (itemsOf ((row, value) :: rest) row).length := by
          simp [itemsOf]
        have htotal := hlengths row hrow
        rw [hwidth row hrow] at htotal
        omega
      rw [List.foldl_append]
      refine (ih _ hsplit).put hrow hroom fun other hother => ?_
      have htotal := hlengths other hother
      rw [hwidth other hother] at htotal
      omega
  have hlast := hfilled items [] (List.append_nil items).symm
  refine (eq_flatMap_rows hlast.length).trans (List.flatMap_congr fun row hrow => ?_)
  rw [rowOf, ← hwidth row (List.mem_range.mp hrow)]
  exact hlast.rows row (List.mem_range.mp hrow)

end Items

end Foundation

import Mathlib

/-! # Ranges that tile an array

Labelled ranges that follow one another from a start to a stop, and the array in
which every position holds the label of its range. A loop that checks each range
against a running cursor and fills its positions builds that array.
-/

namespace Foundation

structure LabelledRange where
  first : Nat
  count : Nat
  label : Nat

def LabelledRange.Holds (range : LabelledRange) (position : Nat) : Prop :=
  range.first ≤ position ∧ position < range.first + range.count

instance (range : LabelledRange) (position : Nat) : Decidable (range.Holds position) :=
  inferInstanceAs (Decidable (_ ∧ _))

/-- The range number `owner` holds the position. -/
def OwnedBy (ranges : List LabelledRange) (position owner : Nat) : Prop :=
  ∃ range : LabelledRange, ranges[owner]? = some range ∧ range.Holds position

instance (ranges : List LabelledRange) (position owner : Nat) :
    Decidable (OwnedBy ranges position owner) :=
  decidable_of_iff (∃ range ∈ ranges[owner]?, range.Holds position) (by rfl)

variable {ranges : List LabelledRange} {position owner first count row : Nat}
    {labels offsets : List Nat}

theorem OwnedBy.append (howned : OwnedBy ranges position owner) (more : List LabelledRange) :
    OwnedBy (ranges ++ more) position owner := by
  obtain ⟨range, hrange, hholds⟩ := howned
  have howner := (List.getElem_of_getElem? hrange).1
  refine ⟨range, ?_, hholds⟩
  rwa [List.getElem?_append_left howner]

theorem OwnedBy.last (ranges : List LabelledRange) (range : LabelledRange)
    (hholds : range.Holds position) : OwnedBy (ranges ++ [range]) position ranges.length :=
  ⟨range, List.getElem?_concat_length, hholds⟩

/-- Each range starts where the one before it ends. -/
def TilesFrom : Nat → List LabelledRange → Nat → Prop
  | start, [], stop => start = stop
  | start, range :: ranges, stop =>
    range.first = start ∧ TilesFrom (start + range.count) ranges stop

/-- The ranges of an array of records, labelled with the numbers of the records. -/
def numberedRanges {α : Type} (first count : α → Nat) (records : List α) : List LabelledRange :=
  records.mapIdx fun number record => ⟨first record, count record, number⟩

section Numbered

variable {α : Type} {first count : α → Nat} {records : List α} {number : Nat}

@[simp]
theorem length_numberedRanges : (numberedRanges first count records).length = records.length :=
  List.length_mapIdx

theorem getElem?_numberedRanges {record : α} (hrecord : records[number]? = some record) :
    (numberedRanges first count records)[number]? = some ⟨first record, count record, number⟩ := by
  rw [numberedRanges, List.getElem?_mapIdx, hrecord]
  rfl

theorem numberedRanges_append (first count : α → Nat) (records : List α) (record : α) :
    numberedRanges first count (records ++ [record]) =
      numberedRanges first count records ++ [⟨first record, count record, records.length⟩] :=
  List.mapIdx_concat

theorem label_numberedRanges {range : LabelledRange}
    (hrange : (numberedRanges first count records)[number]? = some range) :
    range.label = number := by
  rw [numberedRanges, List.getElem?_mapIdx, Option.map_eq_some_iff] at hrange
  obtain ⟨record, -, rfl⟩ := hrange
  rfl

end Numbered

/-- The labels of the positions, in order. -/
def spread (ranges : List LabelledRange) : List Nat :=
  ranges.flatMap fun range => List.replicate range.count range.label

/-- Writes `label` to the positions of one range. -/
def fillRange (labels : List Nat) (first count label : Nat) : List Nat :=
  labels.take first ++ List.replicate count label ++ labels.drop (first + count)

namespace TilesFrom

variable {start stop : Nat} {ranges : List LabelledRange}

theorem snoc (htiles : TilesFrom start ranges stop) {range : LabelledRange}
    (hfirst : range.first = stop) : TilesFrom start (ranges ++ [range]) (stop + range.count) := by
  induction ranges generalizing start with
  | nil =>
    obtain rfl : start = stop := htiles
    exact ⟨hfirst, rfl⟩
  | cons head ranges ih => exact ⟨htiles.1, ih htiles.2⟩

theorem empty (hempty : ∀ range ∈ ranges, range.first = start ∧ range.count = 0) :
    TilesFrom start ranges start := by
  induction ranges with
  | nil => rfl
  | cons head ranges ih =>
    obtain ⟨⟨hfirst, hcount⟩, hrest⟩ := List.forall_mem_cons.mp hempty
    refine ⟨hfirst, ?_⟩
    rw [hcount]
    exact ih hrest

theorem split {front back : List LabelledRange} (htiles : TilesFrom start (front ++ back) stop) :
    ∃ middle, TilesFrom start front middle ∧ TilesFrom middle back stop := by
  induction front generalizing start with
  | nil => exact ⟨start, rfl, htiles⟩
  | cons head front ih =>
    obtain ⟨middle, hfront, hback⟩ := ih htiles.2
    exact ⟨middle, ⟨htiles.1, hfront⟩, hback⟩

section

variable (htiles : TilesFrom start ranges stop)
include htiles

theorem start_le_stop : start ≤ stop := by
  induction ranges generalizing start with
  | nil => exact Nat.le_of_eq htiles
  | cons head ranges ih => exact (Nat.le_add_right _ _).trans (ih htiles.2)

variable {range : LabelledRange}

theorem within {index : Nat} (hrange : ranges[index]? = some range) :
    start ≤ range.first ∧ range.first + range.count ≤ stop := by
  induction ranges generalizing start index with
  | nil => simp at hrange
  | cons head ranges ih =>
    obtain ⟨hfirst, hrest⟩ := htiles
    cases index with
    | zero =>
      obtain rfl := Option.some.inj hrange
      exact ⟨hfirst.ge, hfirst ▸ hrest.start_le_stop⟩
    | succ index =>
      obtain ⟨hstart, hstop⟩ := ih hrest hrange
      exact ⟨(Nat.le_add_right _ _).trans hstart, hstop⟩

theorem existsUnique {position : Nat} (hstart : start ≤ position) (hstop : position < stop) :
    ∃! owner, OwnedBy ranges position owner := by
  induction ranges generalizing start with
  | nil =>
    obtain rfl : start = stop := htiles
    omega
  | cons head ranges ih =>
    obtain ⟨rfl, hrest⟩ := htiles
    by_cases hhead : position < head.first + head.count
    · refine ⟨0, ⟨head, rfl, hstart, hhead⟩, ?_⟩
      rintro other ⟨range, hrange, hfirst, -⟩
      cases other with
      | zero => rfl
      | succ index =>
        -- later ranges start behind the head
        have hbehind := (hrest.within hrange).1
        omega
    · obtain ⟨index, ⟨range, hrange, hholds⟩, hunique⟩ := ih hrest (Nat.le_of_not_lt hhead)
      refine ⟨index + 1, ⟨range, hrange, hholds⟩, ?_⟩
      rintro other ⟨found, hfound, hother⟩
      cases other with
      | zero =>
        obtain rfl := Option.some.inj hfound
        exact absurd hother.2 hhead
      | succ other => rw [hunique other ⟨found, hfound, hother⟩]

theorem length_spread :
    start + (spread ranges).length = stop := by
  induction ranges generalizing start with
  | nil => exact htiles
  | cons head ranges ih =>
    have hrest := ih htiles.2
    rw [spread, List.flatMap_cons, List.length_append, List.length_replicate, ← spread]
    omega

theorem length_le (hheld : ∀ range ∈ ranges, 0 < range.count) :
    start + ranges.length ≤ stop := by
  induction ranges generalizing start with
  | nil => exact Nat.le_of_eq htiles
  | cons head ranges ih =>
    obtain ⟨hhead, hheld⟩ := List.forall_mem_cons.mp hheld
    have hrest := ih htiles.2 hheld
    rw [List.length_cons]
    omega

theorem first_eq {done next : Nat} (hfront : TilesFrom start (ranges.take done) next)
    (hrange : ranges[done]? = some range) :
    range.first = next ∧ next + range.count ≤ stop := by
  obtain ⟨hdone, rfl⟩ := List.getElem_of_getElem? hrange
  rw [← List.take_append_drop done ranges, List.drop_eq_getElem_cons hdone] at htiles
  obtain ⟨middle, hleft, hfirst, hrest⟩ := htiles.split
  have hmiddle : middle = next := hleft.length_spread.symm.trans hfront.length_spread
  subst hmiddle
  exact ⟨hfirst, hrest.start_le_stop⟩

theorem length_flatten_le {α : Type} {rows : List (List α)} (hcount : rows.length = ranges.length)
    (hrows : ∀ (index : Nat) (range : LabelledRange) (row : List α), ranges[index]? = some range →
      rows[index]? = some row → row.length ≤ range.count) :
    start + rows.flatten.length ≤ stop := by
  induction ranges generalizing start rows with
  | nil =>
    rw [List.length_eq_zero_iff.mp hcount]
    exact Nat.le_of_eq htiles
  | cons head ranges ih =>
    cases rows with
    | nil => cases hcount
    | cons row rows =>
      have hrow := hrows 0 head row rfl rfl
      have hrest := ih htiles.2 (Nat.succ.inj hcount)
        fun index range row hrange hplace => hrows (index + 1) range row hrange hplace
      rw [List.flatten_cons, List.length_append]
      omega

theorem getElem?_spread {index position : Nat} (hrange : ranges[index]? = some range)
    (hholds : range.Holds position) :
    (spread ranges)[position - start]? = some range.label := by
  induction ranges generalizing start index with
  | nil => simp at hrange
  | cons head ranges ih =>
    obtain ⟨rfl, hrest⟩ := htiles
    rw [spread, List.flatMap_cons, ← spread]
    cases index with
    | zero =>
      obtain rfl := Option.some.inj hrange
      obtain ⟨hfirst, hlast⟩ := hholds
      have hinside : position - head.first < (List.replicate head.count head.label).length := by
        rw [List.length_replicate]
        omega
      rw [List.getElem?_append_left hinside, List.getElem?_replicate, if_pos (by omega)]
    | succ index =>
      have hbehind := (hrest.within hrange).1
      have hfirst := hholds.1
      have houtside : (List.replicate head.count head.label).length ≤ position - head.first := by
        rw [List.length_replicate]
        omega
      rw [List.getElem?_append_right houtside, List.length_replicate, Nat.sub_sub]
      exact ih hrest hrange

end

theorem getElem?_spread_iff {α : Type} {first count : α → Nat} {records : List α}
    (htiles : TilesFrom 0 (numberedRanges first count records) stop) {position owner : Nat}
    (hposition : position < stop) :
    (spread (numberedRanges first count records))[position]? = some owner ↔
      OwnedBy (numberedRanges first count records) position owner := by
  constructor
  · intro hlabel
    obtain ⟨found, ⟨range, hrange, hholds⟩, -⟩ := htiles.existsUnique (Nat.zero_le _) hposition
    have hfound := htiles.getElem?_spread hrange hholds
    rw [Nat.sub_zero, hlabel, label_numberedRanges hrange] at hfound
    rw [Option.some.inj hfound]
    exact ⟨range, hrange, hholds⟩
  · rintro ⟨range, hrange, hholds⟩
    have hlabel := htiles.getElem?_spread hrange hholds
    rwa [Nat.sub_zero, label_numberedRanges hrange] at hlabel

end TilesFrom

theorem length_fillRange (hfits : first + count ≤ labels.length) (label : Nat) :
    (fillRange labels first count label).length = labels.length := by
  simp only [fillRange, List.length_append, List.length_take, List.length_replicate,
    List.length_drop]
  omega

theorem take_fillRange (hfirst : first ≤ labels.length) (count label : Nat) :
    (fillRange labels first count label).take (first + count) =
      labels.take first ++ List.replicate count label := by
  rw [fillRange]
  refine List.take_left' ?_
  rw [List.length_append, List.length_take, List.length_replicate, Nat.min_eq_left hfirst]

/-- The state of a filling loop after `done` ranges: they tile the array up to the
cursor `next`, and the labels stand there. -/
structure Filled (ranges : List LabelledRange) (done : Nat) (labels : List Nat) (next : Nat) :
    Prop where
  tiles : TilesFrom 0 (ranges.take done) next
  fits : next ≤ labels.length
  written : labels.take next = spread (ranges.take done)

namespace Filled

variable {ranges : List LabelledRange} {done next : Nat} {labels : List Nat}

theorem start (ranges : List LabelledRange) (labels : List Nat) : Filled ranges 0 labels 0 :=
  ⟨rfl, Nat.zero_le _, rfl⟩

theorem step (hfilled : Filled ranges done labels next) {range : LabelledRange}
    (hrange : ranges[done]? = some range) (hfirst : range.first = next)
    (hfits : next + range.count ≤ labels.length) :
    Filled ranges (done + 1) (fillRange labels range.first range.count range.label)
      (next + range.count) := by
  have htake : ranges.take (done + 1) = ranges.take done ++ [range] := by
    rw [List.take_add_one, hrange]
    rfl
  subst hfirst
  refine ⟨htake ▸ hfilled.tiles.snoc rfl, ?_, ?_⟩
  · rw [length_fillRange hfits]
    exact hfits
  · rw [take_fillRange hfilled.fits, hfilled.written, htake]
    simp [spread]

theorem finish (hfilled : Filled ranges ranges.length labels labels.length) :
    TilesFrom 0 ranges labels.length ∧ labels = spread ranges := by
  have htiles := hfilled.tiles
  have hwritten := hfilled.written
  rw [List.take_length] at htiles hwritten
  rw [List.take_length] at hwritten
  exact ⟨htiles, hwritten⟩

theorem complete (hfilled : Filled ranges ranges.length labels next)
    (htiles : TilesFrom 0 ranges labels.length) : labels = spread ranges ∧ next = labels.length := by
  have hall := hfilled.tiles
  rw [List.take_length] at hall
  have hend : next = labels.length := hall.length_spread.symm.trans htiles.length_spread
  subst hend
  exact ⟨hfilled.finish.2, rfl⟩

end Filled

def fillRanges (labels : List Nat) (ranges : List LabelledRange) : List Nat :=
  ranges.foldl (fun labels range => fillRange labels range.first range.count range.label) labels

theorem TilesFrom.fillRanges_eq (htiles : TilesFrom 0 ranges labels.length) :
    fillRanges labels ranges = spread ranges := by
  suffices hgeneral : ∀ start, TilesFrom start ranges labels.length →
      fillRanges labels ranges = labels.take start ++ spread ranges from hgeneral 0 htiles
  clear htiles
  induction ranges generalizing labels with
  | nil =>
    rintro start rfl
    simp [fillRanges, spread]
  | cons head ranges ih =>
    rintro start ⟨rfl, hrest⟩
    have hfits := hrest.start_le_stop
    have hlength := length_fillRange hfits head.label
    rw [← hlength] at hrest
    have hfilled := ih _ hrest
    rw [take_fillRange (by omega)] at hfilled
    rw [fillRanges, List.foldl_cons, ← fillRanges, hfilled, List.append_assoc]
    rfl

def rowRanges : Nat → List Nat → List LabelledRange
  | row, first :: next :: offsets =>
    ⟨first, next - first, row⟩ :: rowRanges (row + 1) (next :: offsets)
  | _, _ => []

theorem rowRanges_tile {last : Nat} (hsorted : (first :: offsets).IsChain (· ≤ ·))
    (hlast : (first :: offsets).getLast? = some last) :
    TilesFrom first (rowRanges row (first :: offsets)) last := by
  induction offsets generalizing row first with
  | nil => exact Option.some.inj hlast
  | cons next offsets ih =>
    obtain ⟨hle, hrest⟩ := List.isChain_cons_cons.mp hsorted
    refine ⟨rfl, ?_⟩
    rw [Nat.add_sub_cancel' hle]
    apply ih hrest
    rwa [List.getLast?_cons_cons] at hlast

theorem getElem?_rowRanges {index next : Nat} (hfirst : offsets[index]? = some first)
    (hnext : offsets[index + 1]? = some next) :
    (rowRanges row offsets)[index]? = some ⟨first, next - first, row + index⟩ := by
  induction offsets generalizing row index with
  | nil => simp at hfirst
  | cons head offsets ih =>
    cases offsets with
    | nil => simp at hnext
    | cons second offsets =>
      cases index with
      | zero =>
        obtain rfl := Option.some.inj hfirst
        obtain rfl := Option.some.inj hnext
        rfl
      | succ index =>
        rw [rowRanges, List.getElem?_cons_succ, ih hfirst hnext]
        congr 2
        omega

theorem labels_rowRanges (row : Nat) (offsets : List Nat) :
    (rowRanges row offsets).map LabelledRange.label = List.range' row (offsets.length - 1) := by
  induction offsets generalizing row with
  | nil => rfl
  | cons head offsets ih =>
    cases offsets with
    | nil => rfl
    | cons second offsets =>
      rw [rowRanges, List.map_cons, ih]
      rfl

theorem count_spread (hdistinct : (ranges.map LabelledRange.label).Nodup) {range : LabelledRange}
    (hrange : range ∈ ranges) : (spread ranges).count range.label = range.count := by
  induction ranges with
  | nil => exact absurd hrange List.not_mem_nil
  | cons head ranges ih =>
    obtain ⟨hnew, hdistinct⟩ := List.nodup_cons.mp hdistinct
    rw [spread, List.flatMap_cons, ← spread, List.count_append, List.count_replicate]
    rcases List.mem_cons.mp hrange with rfl | hmem
    · have hnone : (spread ranges).count range.label = 0 := by
        refine List.count_eq_zero.mpr fun hspread => ?_
        obtain ⟨other, hother, hlabel⟩ := List.mem_flatMap.mp hspread
        exact hnew (List.mem_map.mpr ⟨other, hother, (List.eq_of_mem_replicate hlabel).symm⟩)
      simp [hnone]
    · have hapart : head.label ≠ range.label := fun hsame =>
        hnew (List.mem_map.mpr ⟨range, hmem, hsame.symm⟩)
      simp [hapart, ih hdistinct hmem]

theorem countP_interval {total : Nat} (hfits : first + count ≤ total) :
    (List.range total).countP (fun position => decide (first ≤ position ∧
      position < first + count)) = count := by
  obtain ⟨rest, rfl⟩ := Nat.exists_eq_add_of_le hfits
  have hsplit : List.range (first + count + rest) =
      List.range' 0 first ++ List.range' first count ++ List.range' (first + count) rest := by
    rw [List.range_eq_range', ← List.range'_append_1 (m := first + count),
      ← List.range'_append_1 (m := first), Nat.zero_add, Nat.zero_add]
  have hbefore : (List.range' 0 first).countP (fun position => decide (first ≤ position ∧
      position < first + count)) = 0 := by
    apply List.countP_eq_zero.mpr
    simp [List.mem_range'_1]
    omega
  have hinside : (List.range' first count).countP (fun position => decide (first ≤ position ∧
      position < first + count)) = count := by
    rw [List.countP_eq_length.mpr, List.length_range']
    simp [List.mem_range'_1]
  have hbehind : (List.range' (first + count) rest).countP (fun position =>
      decide (first ≤ position ∧ position < first + count)) = 0 := by
    apply List.countP_eq_zero.mpr
    simp [List.mem_range'_1]
    omega
  rw [hsplit, List.countP_append, List.countP_append, hbefore, hinside, hbehind]
  omega

theorem TilesFrom.countP_owned {stop : Nat} (htiles : TilesFrom 0 ranges stop)
    {range : LabelledRange} (hrange : ranges[owner]? = some range) :
    (List.range stop).countP (fun position => decide (OwnedBy ranges position owner)) =
      range.count := by
  rw [← countP_interval (htiles.within hrange).2]
  apply List.countP_congr
  intro position _
  simp [OwnedBy, LabelledRange.Holds, hrange]

theorem countP_eq_sum {values : List Nat} {bound : Nat} (hbound : ∀ value ∈ values, value < bound)
    (predicate : Nat → Bool) :
    values.countP predicate =
      ∑ value ∈ Finset.range bound, if predicate value then values.count value else 0 := by
  induction values with
  | nil => simp
  | cons head values ih =>
    have hhead := hbound head List.mem_cons_self
    have hsplit : ∀ value, (if predicate value then (head :: values).count value else 0) =
        (if predicate value then values.count value else 0) +
          if head = value then (if predicate head then 1 else 0) else 0 := by
      intro value
      rw [List.count_cons]
      by_cases hsame : head = value
      · subst hsame
        by_cases hpredicate : predicate head <;> simp [hpredicate]
      · simp [hsame]
    rw [List.countP_cons, ih fun value hvalue => hbound value (List.mem_cons_of_mem _ hvalue),
      Finset.sum_congr rfl fun value _ => hsplit value, Finset.sum_add_distrib,
      Finset.sum_ite_eq]
    simp [hhead]

theorem perm_of_positions {α : Type} {values : List α} {positions : List Nat}
    (hperm : positions.Perm (List.range values.length)) {reading : List α}
    (hreading : positions.map (values[·]?) = reading.map some) : reading.Perm values := by
  have hall : (List.range values.length).map (values[·]?) = values.map some := by
    apply List.ext_getElem
    · simp
    · intro position hleft hright
      simp
  have hsome : (reading.map some).Perm (values.map some) := by
    rw [← hall, ← hreading]
    exact hperm.map _
  exact (List.map_perm_map_iff (Option.some_injective α)).mp hsome

end Foundation

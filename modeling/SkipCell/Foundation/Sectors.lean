import SkipCell.Foundation.Subspan

/-! # Records in sectors

Records of one width are stored in sectors of one length: several to a sector where
they fit, else each in as many sectors as it spans. What the sectors do not hold is
filled. `place` is where a record begins, and `subspan_bytes` that it is found there.
-/

namespace Foundation

universe u

variable {α : Type u}

/-- Fills up to `size` elements. -/
def padTo (filler : α) (size : Nat) (values : List α) : List α :=
  values ++ List.replicate (size - values.length) filler

@[simp]
theorem length_padTo (filler : α) (size : Nat) (values : List α) :
    (padTo filler size values).length = max size values.length := by
  rw [padTo, List.length_append, List.length_replicate]
  omega

theorem subspan_padTo {filler : α} {size start count : Nat} {values : List α}
    (hfits : start + count ≤ values.length) :
    subspan (padTo filler size values) start count = subspan values start count :=
  subspan_append_left _ hfits

/-- The least number of parts of length `part` that hold `total`. -/
def divRoundUp (total part : Nat) : Nat := total / part + if total % part ≠ 0 then 1 else 0

theorem divRoundUp_eq {total part : Nat} (hpart : 0 < part) :
    divRoundUp total part = (total + part - 1) / part := by
  have hsplit := Nat.div_add_mod' total part
  have hbound := Nat.mod_lt total hpart
  symm
  rw [divRoundUp, Nat.div_eq_iff hpart, Nat.add_mul]
  split <;> omega

theorem le_divRoundUp_mul (total : Nat) {part : Nat} (hpart : 0 < part) :
    total ≤ divRoundUp total part * part := by
  have hsplit := Nat.div_add_mod' total part
  have hbound := Nat.mod_lt total hpart
  rw [divRoundUp, Nat.add_mul]
  split <;> omega

theorem div_lt_divRoundUp {total part index : Nat} (hpart : 0 < part) (hindex : index < total) :
    index / part < divRoundUp total part := by
  rw [Nat.div_lt_iff_lt_mul hpart]
  exact hindex.trans_le (le_divRoundUp_mul total hpart)

theorem length_flatten_eq_mul {rows : List (List α)} {width : Nat}
    (hwidth : ∀ row ∈ rows, row.length = width) : rows.flatten.length = rows.length * width := by
  rw [List.length_flatten, List.map_congr_left hwidth, List.map_const', List.sum_replicate_nat]

structure RecordLayout where
  sector : Nat
  width : Nat
  sector_pos : 0 < sector
  width_pos : 0 < width

namespace RecordLayout

variable (layout : RecordLayout)

/-- The records in a sector: none where a record is longer than a sector. -/
def perSector : Nat := layout.sector / layout.width

def span : Nat := divRoundUp layout.width layout.sector

/-- What is read to have a record: its sector, or all of its sectors. -/
def rowWidth : Nat := if 0 < layout.perSector then layout.sector else layout.span * layout.sector

def sectorCount (count : Nat) : Nat :=
  if 0 < layout.perSector then divRoundUp count layout.perSector else count * layout.span

/-- The rows that as many records need. -/
def rowCount (count : Nat) : Nat :=
  if 0 < layout.perSector then divRoundUp count layout.perSector else count

def rows (filler : α) (records : List (List α)) : List (List α) :=
  if 0 < layout.perSector then
    (List.range (divRoundUp records.length layout.perSector)).map fun sector =>
      padTo filler layout.sector
        ((records.drop (sector * layout.perSector)).take layout.perSector).flatten
  else
    records.map (padTo filler (layout.span * layout.sector))

def row (node : Nat) : Nat := if 0 < layout.perSector then node / layout.perSector else node

/-- Where a record begins in its row. -/
def offset (node : Nat) : Nat :=
  if 0 < layout.perSector then node % layout.perSector * layout.width else 0

/-- Where a record begins. -/
def place (node : Nat) : Nat := layout.row node * layout.rowWidth + layout.offset node

variable {layout} {filler : α} {records : List (List α)}

theorem perSector_mul_le (layout : RecordLayout) :
    layout.perSector * layout.width ≤ layout.sector :=
  Nat.div_mul_le_self _ _

theorem width_le_span_mul (layout : RecordLayout) :
    layout.width ≤ layout.span * layout.sector :=
  le_divRoundUp_mul _ layout.sector_pos

theorem offset_add_le (layout : RecordLayout) (node : Nat) :
    layout.offset node + layout.width ≤ layout.rowWidth := by
  unfold offset rowWidth
  split
  · next hseveral =>
      rw [← Nat.succ_mul]
      exact (Nat.mul_le_mul_right _ (Nat.mod_lt node hseveral)).trans layout.perSector_mul_le
  · rw [Nat.zero_add]
    exact layout.width_le_span_mul

theorem place_add_le_next (layout : RecordLayout) (node : Nat) :
    layout.place node + layout.width ≤ layout.place (node + 1) := by
  have hwithin := layout.offset_add_le node
  unfold place
  by_cases hseveral : 0 < layout.perSector
  · have hnext := Nat.div_add_mod (node + 1) layout.perSector
    have hnode := Nat.div_add_mod node layout.perSector
    -- The next record is in the same sector, or the first of the next one.
    have hcases : (node + 1) / layout.perSector = node / layout.perSector + 1 ∨
        (node + 1) / layout.perSector = node / layout.perSector ∧
          (node + 1) % layout.perSector = node % layout.perSector + 1 := by
      have hquotient : (node + 1) / layout.perSector =
          node / layout.perSector + if layout.perSector ∣ node + 1 then 1 else 0 :=
        Nat.succ_div
      split at hquotient
      · exact .inl hquotient
      · rw [hquotient, Nat.add_zero] at hnext
        exact .inr ⟨hquotient, by omega⟩
    simp only [row, offset, rowWidth, if_pos hseveral] at hwithin ⊢
    rcases hcases with hrow | ⟨hrow, hslot⟩
    · rw [hrow, Nat.succ_mul]
      omega
    · rw [hrow, hslot, Nat.succ_mul]
      omega
  · simp only [row, offset, rowWidth, if_neg hseveral] at hwithin ⊢
    rw [Nat.succ_mul]
    omega

variable {first second node count : Nat}

theorem place_add_le (hbefore : first < second) :
    layout.place first + layout.width ≤ layout.place second := by
  induction hbefore with
  | refl => exact layout.place_add_le_next first
  | @step last _ ih =>
    have hnext := layout.place_add_le_next last
    rw [Nat.succ_eq_add_one]
    omega

theorem place_apart (layout : RecordLayout) (hdistinct : first ≠ second) :
    layout.place first + layout.width ≤ layout.place second ∨
      layout.place second + layout.width ≤ layout.place first := by
  rcases Nat.lt_or_gt_of_ne hdistinct with hbefore | hbehind
  · exact .inl (place_add_le hbefore)
  · exact .inr (place_add_le hbehind)

theorem length_row (hwidth : ∀ record ∈ records, record.length = layout.width) :
    ∀ row ∈ layout.rows filler records, row.length = layout.rowWidth := by
  intro row hrow
  unfold rows at hrow
  unfold rowWidth
  by_cases hseveral : 0 < layout.perSector
  · rw [if_pos hseveral] at hrow ⊢
    obtain ⟨sector, -, rfl⟩ := List.mem_map.mp hrow
    have hwidths : ∀ record ∈ (records.drop (sector * layout.perSector)).take layout.perSector,
        record.length = layout.width := fun record hmem =>
      hwidth record (List.mem_of_mem_drop (List.mem_of_mem_take hmem))
    have hchunk := length_flatten_eq_mul hwidths
    have hfew := Nat.mul_le_mul_right layout.width
      (List.length_take_le layout.perSector (records.drop (sector * layout.perSector)))
    rw [length_padTo, hchunk, Nat.max_eq_left (hfew.trans layout.perSector_mul_le)]
  · rw [if_neg hseveral] at hrow ⊢
    obtain ⟨record, hrecord, rfl⟩ := List.mem_map.mp hrow
    rw [length_padTo, hwidth record hrecord, Nat.max_eq_left layout.width_le_span_mul]

theorem rowCount_mul (layout : RecordLayout) (count : Nat) :
    layout.rowCount count * layout.rowWidth = layout.sectorCount count * layout.sector := by
  unfold rowCount rowWidth sectorCount
  split
  · rfl
  · exact (Nat.mul_assoc _ _ _).symm

theorem length_rows (layout : RecordLayout) (filler : α) (records : List (List α)) :
    (layout.rows filler records).length = layout.rowCount records.length := by
  unfold rows rowCount
  split
  · rw [List.length_map, List.length_range]
  · rw [List.length_map]

theorem length_rows_flatten (hwidth : ∀ record ∈ records, record.length = layout.width) :
    (layout.rows filler records).flatten.length =
      layout.sectorCount records.length * layout.sector := by
  rw [length_flatten_eq_mul (length_row hwidth), length_rows, rowCount_mul]

theorem row_lt (layout : RecordLayout) (hnode : node < count) :
    layout.row node < layout.rowCount count := by
  unfold row rowCount
  by_cases hseveral : 0 < layout.perSector
  · rw [if_pos hseveral, if_pos hseveral]
    exact div_lt_divRoundUp hseveral hnode
  · rwa [if_neg hseveral, if_neg hseveral]

theorem row_add_le (layout : RecordLayout) (hnode : node < count) :
    layout.row node * layout.rowWidth + layout.rowWidth ≤
      layout.sectorCount count * layout.sector := by
  rw [← rowCount_mul, ← Nat.succ_mul]
  exact Nat.mul_le_mul_right _ (layout.row_lt hnode)

theorem subspan_row (hwidth : ∀ record ∈ records, record.length = layout.width)
    {record row : List α} (hrecord : records[node]? = some record)
    (hrow : (layout.rows filler records)[layout.row node]? = some row) :
    subspan row (layout.offset node) layout.width = record := by
  unfold rows RecordLayout.row at hrow
  unfold offset
  have hlength := hwidth record (List.mem_of_getElem? hrecord)
  by_cases hseveral : 0 < layout.perSector
  · rw [if_pos hseveral] at hrow ⊢
    rw [if_pos hseveral, List.getElem?_map] at hrow
    obtain ⟨sector, hsector, rfl⟩ := Option.map_eq_some_iff.mp hrow
    obtain ⟨-, rfl⟩ := List.getElem_of_getElem? hsector
    rw [List.getElem_range]
    have hchunk : ((records.drop (node / layout.perSector * layout.perSector)).take
        layout.perSector)[node % layout.perSector]? = some record := by
      rw [List.getElem?_take_of_lt (Nat.mod_lt node hseveral), List.getElem?_drop,
        Nat.div_add_mod', hrecord]
    have hwidths : ∀ record ∈ (records.drop (node / layout.perSector * layout.perSector)).take
        layout.perSector, record.length = layout.width := fun record hmem =>
      hwidth record (List.mem_of_mem_drop (List.mem_of_mem_take hmem))
    have hfits := Nat.mul_le_mul_right layout.width (List.getElem_of_getElem? hchunk).1
    rw [Nat.succ_mul, ← length_flatten_eq_mul hwidths] at hfits
    rw [subspan_padTo hfits, subspan_flatten hwidths hchunk]
  · rw [if_neg hseveral] at hrow ⊢
    rw [if_neg hseveral, List.getElem?_map, hrecord] at hrow
    obtain rfl := Option.some.inj hrow
    rw [subspan_padTo (by omega), subspan, List.drop_zero, ← hlength, List.take_length]

theorem drop_offset (filler : α) (hwidth : ∀ record ∈ records, record.length = layout.width)
    {record : List α} (hrecord : records[node]? = some record) :
    ∃ behind, (subspan (layout.rows filler records).flatten
      (layout.row node * layout.rowWidth) layout.rowWidth).drop (layout.offset node) =
        record ++ behind := by
  have hnode := (List.getElem_of_getElem? hrecord).1
  obtain ⟨row, hrow⟩ : ∃ row, (layout.rows filler records)[layout.row node]? = some row :=
    ⟨_, List.getElem?_eq_getElem (layout.length_rows filler records ▸ layout.row_lt hnode)⟩
  have hfound := subspan_row hwidth hrecord hrow
  have hsplit := List.take_append_drop layout.width (row.drop (layout.offset node))
  rw [← subspan, hfound] at hsplit
  rw [subspan_flatten (length_row hwidth) hrow]
  exact ⟨_, hsplit.symm⟩

end RecordLayout

end Foundation

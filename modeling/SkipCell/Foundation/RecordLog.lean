import Mathlib

/-! # Logs of records of one size

A log without frames: every append adds the encodings of its entries, and an
append that is cut short leaves some of their bytes. The log is read in chunks of
the record size from its start, so what is read depends on whether the earlier
appends ended between two records.
-/

namespace Foundation

/-- How an entry is stored; a chunk that stands for no entry is skipped. -/
structure RecordFormat (Entry : Type) where
  size : Nat
  size_pos : 0 < size
  encode : Entry → List UInt8
  decode : List UInt8 → Option Entry
  length_encode : ∀ entry, (encode entry).length = size
  decode_encode : ∀ entry, decode (encode entry) = some entry

/-- The records of one append, and how many of its bytes reach the log. -/
structure LogAppend (Entry : Type) where
  records : List Entry
  reached : Nat

namespace RecordFormat

variable {Entry : Type} (format : RecordFormat Entry)

/-- The entries of the chunks of a log; a last chunk that is short is dropped. -/
def read (bytes : List UInt8) : List Entry :=
  if bytes.length < format.size then []
  else (format.decode (bytes.take format.size)).toList ++ read (bytes.drop format.size)
termination_by bytes.length
decreasing_by
  have hsize := format.size_pos
  rw [List.length_drop]
  omega

def encodeAll (entries : List Entry) : List UInt8 := entries.flatMap format.encode

def appended (append : LogAppend Entry) : List UInt8 :=
  (format.encodeAll append.records).take append.reached

/-- The number of bytes that an append leaves. -/
def arrived (append : LogAppend Entry) : Nat := (format.appended append).length

/-- All of the append reached the log. -/
def Complete (append : LogAppend Entry) : Prop :=
  (format.encodeAll append.records).length ≤ append.reached

instance (append : LogAppend Entry) : Decidable (format.Complete append) :=
  inferInstanceAs (Decidable (_ ≤ _))

def log (appends : List (LogAppend Entry)) : List UInt8 := appends.flatMap format.appended

def completed (appends : List (LogAppend Entry)) : List Entry :=
  (appends.filter (format.Complete ·)).flatMap LogAppend.records

theorem read_of_short {bytes : List UInt8} (hshort : bytes.length < format.size) :
    format.read bytes = [] := by
  rw [read, if_pos hshort]

@[simp]
theorem read_nil : format.read [] = [] := format.read_of_short format.size_pos

theorem read_of_fits {bytes : List UInt8} (hfits : format.size ≤ bytes.length) :
    format.read bytes =
      (format.decode (bytes.take format.size)).toList ++ format.read (bytes.drop format.size) := by
  rw [read, if_neg (Nat.not_lt.mpr hfits)]

theorem read_chunk {chunk : List UInt8} (hchunk : chunk.length = format.size)
    (rest : List UInt8) :
    format.read (chunk ++ rest) = (format.decode chunk).toList ++ format.read rest := by
  have hfits : format.size ≤ (chunk ++ rest).length := by
    rw [List.length_append, hchunk]
    exact Nat.le_add_right _ _
  rw [read_of_fits _ hfits, List.take_left' hchunk, List.drop_left' hchunk]

theorem read_entries (entries : List Entry) (rest : List UInt8) :
    format.read (format.encodeAll entries ++ rest) = entries ++ format.read rest := by
  induction entries with
  | nil => rfl
  | cons entry entries ih =>
    rw [encodeAll, List.flatMap_cons, List.append_assoc, read_chunk _ (format.length_encode entry),
      format.decode_encode, ← encodeAll, ih]
    rfl

theorem length_encodeAll (entries : List Entry) :
    (format.encodeAll entries).length = entries.length * format.size := by
  induction entries with
  | nil => simp [encodeAll]
  | cons entry entries ih =>
    rw [encodeAll, List.flatMap_cons, List.length_append, format.length_encode, ← encodeAll, ih,
      List.length_cons, Nat.succ_mul, Nat.add_comm]

theorem take_encodeAll (entries : List Entry) (count : Nat) :
    (format.encodeAll entries).take (count * format.size) = format.encodeAll (entries.take count) := by
  induction entries generalizing count with
  | nil => simp [encodeAll]
  | cons entry entries ih =>
    cases count with
    | zero => simp [encodeAll]
    | succ count =>
      rw [encodeAll, List.flatMap_cons, Nat.succ_mul, Nat.add_comm, ← format.length_encode entry,
        List.take_length_add_append, format.length_encode, ← encodeAll, ih]
      rfl

/-- The entries that reached the log as a whole. -/
def recovered (append : LogAppend Entry) : List Entry :=
  append.records.take (format.arrived append / format.size)

theorem appended_eq (append : LogAppend Entry) :
    format.appended append =
      (format.encodeAll append.records).take (format.arrived append) := by
  rw [arrived, appended, List.length_take]
  exact List.take_eq_take_min

theorem appended_of_aligned {append : LogAppend Entry}
    (haligned : format.size ∣ format.arrived append) :
    format.appended append = format.encodeAll (format.recovered append) := by
  rw [appended_eq, ← Nat.div_mul_cancel haligned, take_encodeAll, recovered]

theorem exists_leftover (append : LogAppend Entry) :
    ∃ leftover, format.appended append = format.encodeAll (format.recovered append) ++ leftover ∧
      leftover.length = format.arrived append % format.size := by
  have hwhole := Nat.div_mul_le_self (format.arrived append) format.size
  refine ⟨(format.appended append).drop (format.arrived append / format.size * format.size), ?_, ?_⟩
  · rw [recovered, ← take_encodeAll, ← Nat.min_eq_left hwhole, ← List.take_take, ← appended_eq,
      Nat.min_eq_left hwhole, List.take_append_drop]
  · rw [List.length_drop, ← arrived, Nat.mod_eq_sub_div_mul]

section

variable {append : LogAppend Entry} (hcomplete : format.Complete append)
include hcomplete

theorem arrived_of_complete :
    format.arrived append = append.records.length * format.size := by
  rw [arrived, appended, List.take_of_length_le hcomplete, length_encodeAll]

theorem aligned_of_complete :
    format.size ∣ format.arrived append := by
  rw [format.arrived_of_complete hcomplete]
  exact Nat.dvd_mul_left _ _

theorem recovered_of_complete :
    format.recovered append = append.records := by
  rw [recovered, format.arrived_of_complete hcomplete, Nat.mul_div_cancel _ format.size_pos,
    List.take_length]

end

variable {appends : List (LogAppend Entry)}

theorem read_log (haligned : ∀ append ∈ appends, format.size ∣ format.arrived append)
    (rest : List UInt8) :
    format.read (format.log appends ++ rest) =
      appends.flatMap format.recovered ++ format.read rest := by
  induction appends with
  | nil => rfl
  | cons append appends ih =>
    obtain ⟨hfirst, hrest⟩ := List.forall_mem_cons.mp haligned
    rw [log, List.flatMap_cons, List.append_assoc, format.appended_of_aligned hfirst, read_entries,
      ← log, ih hrest, List.flatMap_cons, List.append_assoc]

theorem completed_sublist (appends : List (LogAppend Entry)) :
    (format.completed appends).Sublist (appends.flatMap format.recovered) := by
  induction appends with
  | nil => exact .slnil
  | cons append appends ih =>
    rw [List.flatMap_cons]
    by_cases hcomplete : format.Complete append
    · rw [completed, List.filter_cons_of_pos (by simpa using hcomplete), List.flatMap_cons,
        format.recovered_of_complete hcomplete]
      exact ih.append_left _
    · rw [completed, List.filter_cons_of_neg (by simpa using hcomplete)]
      exact ih.trans (List.sublist_append_right _ _)

theorem completed_append (first second : List (LogAppend Entry)) :
    format.completed (first ++ second) = format.completed first ++ format.completed second := by
  rw [completed, List.filter_append, List.flatMap_append]
  rfl

/-- Reading the log returns what every complete append added, in order. -/
def Recovers (appends : List (LogAppend Entry)) : Prop :=
  (format.completed appends).Sublist (format.read (format.log appends))

theorem recovers_of_aligned (haligned : ∀ append ∈ appends, format.size ∣ format.arrived append) :
    format.Recovers appends := by
  have hread := format.read_log haligned []
  rw [List.append_nil, read_nil, List.append_nil] at hread
  rw [Recovers, hread]
  exact format.completed_sublist appends

theorem recovers_last {earlier later : List (LogAppend Entry)} {torn : LogAppend Entry}
    (haligned : ∀ append ∈ earlier, format.size ∣ format.arrived append)
    (htorn : ¬ format.Complete torn) (hlater : ∀ append ∈ later, append.records = []) :
    format.Recovers (earlier ++ torn :: later) := by
  have hnone : format.completed (torn :: later) = [] := by
    rw [completed, List.filter_cons_of_neg (by simpa using htorn), List.flatMap_eq_nil_iff]
    exact fun append happend => hlater append (List.mem_of_mem_filter happend)
  have hcompleted : format.completed (earlier ++ torn :: later) = format.completed earlier := by
    rw [completed_append, hnone, List.append_nil]
  rw [Recovers, hcompleted, log, List.flatMap_append, ← log, format.read_log haligned]
  exact (format.completed_sublist earlier).trans (List.sublist_append_left _ _)

/-- Read from inside, a row of these entries holds no entry. -/
def Silent (entry : Entry) : Prop :=
  ∀ shift, 0 < shift → shift < format.size →
    format.decode ((format.encode entry).drop shift ++ (format.encode entry).take shift) = none

variable {format} {entry : Entry} {shift : Nat}

theorem read_silent (hsilent : format.Silent entry) (hpos : 0 < shift) (hshift : shift < format.size)
    (count : Nat) :
    format.read ((format.encode entry).drop shift ++
      format.encodeAll (List.replicate count entry)) = [] := by
  have hlength := format.length_encode entry
  induction count with
  | zero =>
    apply read_of_short
    rw [List.replicate_zero, encodeAll, List.flatMap_nil, List.append_nil, List.length_drop]
    omega
  | succ count ih =>
    have hchunk : ((format.encode entry).drop shift ++
        (format.encode entry).take shift).length = format.size := by
      rw [List.length_append, List.length_drop, List.length_take]
      omega
    rw [List.replicate_succ, encodeAll, List.flatMap_cons]
    nth_rewrite 2 [← List.take_append_drop shift (format.encode entry)]
    rw [List.append_assoc, ← List.append_assoc, read_chunk _ hchunk, hsilent shift hpos hshift,
      ← encodeAll, ih]
    rfl

theorem length_read_torn (hsilent : format.Silent entry) {leftover : List UInt8}
    (hpos : 0 < leftover.length) (hshort : leftover.length < format.size) (count : Nat) :
    (format.read (leftover ++ format.encodeAll (List.replicate count entry))).length ≤ 1 := by
  have hlength := format.length_encode entry
  cases count with
  | zero =>
    rw [List.replicate_zero, encodeAll, List.flatMap_nil, List.append_nil, read_of_short _ hshort]
    exact Nat.zero_le 1
  | succ count =>
    have hchunk : (leftover ++
        (format.encode entry).take (format.size - leftover.length)).length = format.size := by
      rw [List.length_append, List.length_take]
      omega
    rw [List.replicate_succ, encodeAll, List.flatMap_cons]
    nth_rewrite 1 [← List.take_append_drop (format.size - leftover.length) (format.encode entry)]
    rw [List.append_assoc, ← List.append_assoc, read_chunk _ hchunk, ← encodeAll,
      read_silent hsilent (by omega) (by omega), List.append_nil]
    cases format.decode _ <;> simp

theorem flatMap_recovered (hcomplete : ∀ append ∈ appends, format.Complete append) :
    appends.flatMap format.recovered = format.completed appends := by
  induction appends with
  | nil => rfl
  | cons append appends ih =>
    obtain ⟨hfirst, hrest⟩ := List.forall_mem_cons.mp hcomplete
    rw [List.flatMap_cons, format.recovered_of_complete hfirst, ih hrest, completed, completed,
      List.filter_cons_of_pos (by simpa using hfirst), List.flatMap_cons]

/-- A complete append of one entry over and over. -/
def row (format : RecordFormat Entry) (entry : Entry) (count : Nat) : LogAppend Entry :=
  ⟨List.replicate count entry, count * format.size⟩

theorem row_complete (entry : Entry) (count : Nat) : format.Complete (format.row entry count) := by
  rw [Complete, row, length_encodeAll, List.length_replicate]

theorem appended_row (entry : Entry) (count : Nat) :
    format.appended (format.row entry count) = format.encodeAll (List.replicate count entry) :=
  List.take_of_length_le (row_complete entry count)

section

variable (hsilent : format.Silent entry) {earlier : List (LogAppend Entry)} {torn : LogAppend Entry}
  (hearlier : ∀ append ∈ earlier, format.Complete append)
include hsilent hearlier

/-- A row that has more entries than the torn append left is not read back: the
reader passes over it. -/
theorem not_recovers_row (hinside : ¬ format.size ∣ format.arrived torn) :
    ¬ format.Recovers (earlier ++ [torn, format.row entry ((format.recovered torn).length + 2)]) := by
  generalize hcount : (format.recovered torn).length + 2 = count
  obtain ⟨leftover, hsplit, hlength⟩ := format.exists_leftover torn
  have hpos : 0 < leftover.length := by
    rw [Nat.dvd_iff_mod_eq_zero] at hinside
    rw [hlength]
    exact Nat.pos_of_ne_zero hinside
  have hshort : leftover.length < format.size := hlength ▸ Nat.mod_lt _ format.size_pos
  have htorn : ¬ format.Complete torn := fun hcomplete =>
    hinside (format.aligned_of_complete hcomplete)
  have hread : format.read (format.log (earlier ++ [torn, format.row entry count])) =
      format.completed earlier ++ (format.recovered torn ++
        format.read (leftover ++ format.encodeAll (List.replicate count entry))) := by
    have hlog : format.log (earlier ++ [torn, format.row entry count]) =
        format.log earlier ++ (format.encodeAll (format.recovered torn) ++
          (leftover ++ format.encodeAll (List.replicate count entry))) := by
      simp [log, appended_row, hsplit]
    have haligned := fun append happend => format.aligned_of_complete (hearlier append happend)
    rw [hlog, format.read_log haligned, flatMap_recovered hearlier, read_entries]
  have hcompleted : format.completed (earlier ++ [torn, format.row entry count]) =
      format.completed earlier ++ List.replicate count entry := by
    have hrow : format.Complete (format.row entry count) := row_complete entry count
    rw [completed_append, completed, completed, List.filter_cons_of_neg (by simpa using htorn),
      List.filter_cons_of_pos (by simpa using hrow)]
    exact congrArg _ (List.append_nil _)
  intro hrecovers
  rw [Recovers, hread, hcompleted, List.append_sublist_append_left] at hrecovers
  have hlong := hrecovers.length_le
  have hone := length_read_torn hsilent hpos hshort count
  rw [List.length_append, List.length_replicate] at hlong
  omega

/-- Behind complete appends, an append may be cut without harm to whatever complete
appends follow exactly where it ends between two records. -/
theorem recovers_iff_aligned :
    (∀ later : List (LogAppend Entry), (∀ append ∈ later, format.Complete append) →
      format.Recovers (earlier ++ torn :: later)) ↔ format.size ∣ format.arrived torn := by
  constructor
  · intro hrecovers
    by_contra hinside
    have hrow : format.Complete (format.row entry ((format.recovered torn).length + 2)) :=
      row_complete entry _
    exact not_recovers_row hsilent hearlier hinside (hrecovers [_] (by simpa using hrow))
  · intro haligned later hlater
    apply recovers_of_aligned
    intro append happend
    rcases List.mem_append.mp happend with hbefore | hrest
    · exact format.aligned_of_complete (hearlier append hbefore)
    · rcases List.mem_cons.mp hrest with rfl | hafter
      · exact haligned
      · exact format.aligned_of_complete (hlater append hafter)

end

end RecordFormat

end Foundation

import SkipCell.Foundation.ByteReader
import SkipCell.Foundation.Ieee
import SkipCell.Foundation.RecordLog

/-! # The bytes of the delta file

`flush_to_file` appends the buffered records, each of the same size and without a
frame around it; `replay_file` reads record after record from the start of the file
until there is no whole record left.
-/

namespace SkipCell.Delta

open Foundation

/-- `op_t` has one enumerator. -/
def kInsert : UInt8 := 1

structure DeltaRecord (dim : Nat) where
  label : UInt64
  vec : List.Vector Single dim
  deriving DecidableEq

variable {dim : Nat}

def recordBytes (record : DeltaRecord dim) : List UInt8 :=
  encodeLittle 1 kInsert.toNat ++ (encodeLittle 8 record.label.toNat ++
    record.vec.toList.flatMap fun value => encodeLittle 4 value.bits.toNat)

/-- One call of `flush_to_file`: the records in the buffer, and how many of their
bytes reach the file before the call is cut short. -/
abbrev Flush (dim : Nat) := LogAppend (DeltaRecord dim)

/-- The file is opened to append, and the stream writes the records one by one. -/
def flushToFile (flush : Flush dim) (file : List UInt8) : List UInt8 :=
  file ++ (flush.records.flatMap recordBytes).take flush.reached

/-- The file after calls of `flush_to_file`, one after the other. -/
def logFile (flushes : List (Flush dim)) : List UInt8 :=
  flushes.foldl (fun file flush => flushToFile flush file) []

def Complete (flush : Flush dim) : Prop :=
  (flush.records.flatMap recordBytes).length ≤ flush.reached

instance (flush : Flush dim) : Decidable (Complete flush) := inferInstanceAs (Decidable (_ ≤ _))

/-- The number of bytes of a flush that are in the file. -/
def arrived (flush : Flush dim) : Nat :=
  ((flush.records.flatMap recordBytes).take flush.reached).length

def readFloat : ByteReader Unit Single := (fun bits => ⟨.ofNat bits⟩) <$> readWord () 4

/-- Fills a buffer of `dim` floats. -/
def readVec : (dim : Nat) → ByteReader Unit (List.Vector Single dim)
  | 0 => pure .nil
  | dim + 1 => do
    let value ← readFloat
    let values ← readVec dim
    pure (value ::ᵥ values)

/-- One round of the loop, with the operation that it finds. -/
def readRecord (dim : Nat) : ByteReader Unit (UInt8 × DeltaRecord dim) := do
  let op ← UInt8.ofNat <$> readWord () 1
  let label ← UInt64.ofNat <$> readWord () 8
  let vec ← readVec dim
  pure (op, ⟨label, vec⟩)

/-- The records that the loop inserts, in order. A record takes more than one byte,
so that the bytes outnumber the rounds. -/
def replayLoop (dim : Nat) : Nat → List UInt8 → List (DeltaRecord dim)
  | 0, _ => []
  | fuel + 1, bytes =>
    if bytes.isEmpty then []
    else
      match readRecord dim bytes with
      | .error _ => []
      | .ok ((op, record), rest) =>
        if op = kInsert then record :: replayLoop dim fuel rest else replayLoop dim fuel rest

def replayFile (dim : Nat) (file : List UInt8) : List (DeltaRecord dim) :=
  replayLoop dim file.length file

def completedRecords (flushes : List (Flush dim)) : List (DeltaRecord dim) :=
  (flushes.filter (Complete ·)).flatMap LogAppend.records

/-- Replay returns every record of every completed flush, in order. -/
def Recovers (flushes : List (Flush dim)) : Prop :=
  (completedRecords flushes).Sublist (replayFile dim (logFile flushes))

instance (flushes : List (Flush dim)) : Decidable (Recovers flushes) :=
  inferInstanceAs (Decidable (List.Sublist _ _))

def recordSize (dim : Nat) : Nat := 1 + 8 + 4 * dim

theorem fixedWidth_vec (dim : Nat) : FixedWidth (readVec dim) (dim * 4) := by
  induction dim with
  | zero => exact .pure _
  | succ dim ih =>
    have hwidth : (dim + 1) * 4 = 4 + (dim * 4 + 0) := by omega
    rw [hwidth]
    exact ((FixedWidth.word () 4).map _).bind fun _ => ih.bind fun _ => .pure _

theorem fixedWidth_record (dim : Nat) : FixedWidth (readRecord dim) (recordSize dim) := by
  have hwidth : recordSize dim = 1 + (8 + (dim * 4 + 0)) := by
    rw [recordSize]
    omega
  rw [hwidth]
  exact ((FixedWidth.word () 1).map _).bind fun _ => ((FixedWidth.word () 8).map _).bind fun _ =>
    (fixedWidth_vec dim).bind fun _ => .pure _

theorem length_recordBytes (record : DeltaRecord dim) :
    (recordBytes record).length = recordSize dim := by
  have hvec : ∀ values : List Single,
      (values.flatMap fun value => encodeLittle 4 value.bits.toNat).length = 4 * values.length := by
    intro values
    induction values with
    | nil => rfl
    | cons value values ih =>
      rw [List.flatMap_cons, List.length_append, ih, length_encodeLittle, List.length_cons]
      omega
  rw [recordBytes, List.length_append, List.length_append, length_encodeLittle, length_encodeLittle,
    hvec, List.Vector.toList_length, recordSize, Nat.add_assoc]

theorem reads_vec (vec : List.Vector Single dim) :
    Reads (readVec dim) (vec.toList.flatMap fun value => encodeLittle 4 value.bits.toNat) vec := by
  induction dim with
  | zero =>
    obtain rfl := vec.eq_nil
    exact .pure _
  | succ dim ih =>
    have hvalue : Reads readFloat (encodeLittle 4 vec.head.bits.toNat) vec.head := by
      have hreads := (Reads.word () (show vec.head.bits.toNat < 256 ^ 4 from vec.head.bits.toNat_lt)).map
        fun bits => (⟨.ofNat bits⟩ : Single)
      rwa [UInt32.ofNat_toNat] at hreads
    rw [← vec.cons_head_tail, List.Vector.toList_cons, List.flatMap_cons,
      ← List.append_nil (List.flatMap _ _)]
    exact hvalue.bind ((ih vec.tail).bind (.pure _))

theorem reads_record (record : DeltaRecord dim) :
    Reads (readRecord dim) (recordBytes record) (kInsert, record) := by
  have hop := (Reads.word () (show kInsert.toNat < 256 ^ 1 from kInsert.toNat_lt)).map UInt8.ofNat
  have hlabel := (Reads.word () (show record.label.toNat < 256 ^ 8 from record.label.toNat_lt)).map UInt64.ofNat
  rw [UInt8.ofNat_toNat] at hop
  rw [UInt64.ofNat_toNat] at hlabel
  rw [recordBytes, ← List.append_nil (List.flatMap _ _)]
  exact hop.bind (hlabel.bind ((reads_vec record.vec).bind (.pure _)))

def decodeChunk (dim : Nat) (chunk : List UInt8) : Option (DeltaRecord dim) :=
  match readRecord dim chunk with
  | .error _ => none
  | .ok ((op, record), _) => if op = kInsert then some record else none

/-- The delta file is a log of records of one size. -/
def logFormat (dim : Nat) : RecordFormat (DeltaRecord dim) where
  size := recordSize dim
  size_pos := by
    rw [recordSize]
    omega
  encode := recordBytes
  decode := decodeChunk dim
  length_encode := length_recordBytes
  decode_encode record := by
    have hread := reads_record record []
    rw [List.append_nil] at hread
    rw [decodeChunk, hread]
    rfl

theorem logFile_eq (flushes : List (Flush dim)) :
    logFile flushes = (logFormat dim).log flushes := by
  have hfold : ∀ file : List UInt8, flushes.foldl (fun file flush => flushToFile flush file) file =
      file ++ (logFormat dim).log flushes := by
    induction flushes with
    | nil => exact fun file => (List.append_nil file).symm
    | cons flush flushes ih =>
      intro file
      rw [List.foldl_cons, ih, flushToFile, List.append_assoc]
      rfl
  exact (hfold []).trans (List.nil_append _)

theorem replayLoop_eq {fuel : Nat} {file : List UInt8} (hfuel : file.length ≤ fuel) :
    replayLoop dim fuel file = (logFormat dim).read file := by
  induction fuel generalizing file with
  | zero =>
    obtain rfl := List.length_eq_zero_iff.mp (Nat.le_zero.mp hfuel)
    exact (logFormat dim).read_nil.symm
  | succ fuel ih =>
    rw [replayLoop]
    by_cases hshort : file.length < recordSize dim
    · obtain ⟨failure, hfailure⟩ := (fixedWidth_record dim).rejects file hshort
      rw [(logFormat dim).read_of_short hshort, hfailure]
      exact ite_self []
    · have hfits := Nat.not_lt.mp hshort
      obtain ⟨⟨op, record⟩, hchunk, hread⟩ := (fixedWidth_record dim).reads hfits
      have hrest : replayLoop dim fuel (file.drop (recordSize dim)) =
          (logFormat dim).read (file.drop (recordSize dim)) := by
        apply ih
        rw [List.length_drop, recordSize]
        omega
      have hdecode : (logFormat dim).decode (file.take (recordSize dim)) =
          if op = kInsert then some record else none := by
        have halone := hchunk []
        rw [List.append_nil] at halone
        change decodeChunk dim _ = _
        rw [decodeChunk, halone]
      have hfile : (logFormat dim).read file =
          ((logFormat dim).decode (file.take (recordSize dim))).toList ++
            (logFormat dim).read (file.drop (recordSize dim)) :=
        (logFormat dim).read_of_fits hfits
      rw [hdecode, ← hrest] at hfile
      have hsome : file.isEmpty = false := by
        cases file with
        | nil => exact absurd hfits (by rw [recordSize, List.length_nil]; omega)
        | cons byte file => rfl
      rw [hfile, hread, hsome]
      by_cases hinsert : op = kInsert
      · simp [hinsert]
      · simp [hinsert]

theorem recovers_iff (flushes : List (Flush dim)) :
    Recovers flushes ↔ (logFormat dim).Recovers flushes := by
  rw [Recovers, RecordFormat.Recovers, logFile_eq, replayFile, replayLoop_eq le_rfl]
  rfl

def zeroRecord (dim : Nat) : DeltaRecord dim := ⟨0, .replicate dim ⟨0⟩⟩

theorem recordBytes_zeroRecord (dim : Nat) :
    recordBytes (zeroRecord dim) = kInsert :: List.replicate (8 + 4 * dim) 0 := by
  have hvec : ((List.replicate dim (⟨0⟩ : Single)).flatMap fun value =>
      encodeLittle 4 value.bits.toNat) = List.replicate (4 * dim) 0 := by
    induction dim with
    | zero => rfl
    | succ dim ih =>
      rw [List.replicate_succ, List.flatMap_cons, ih, UInt32.toNat_zero, encodeLittle_zero,
        List.replicate_append_replicate, Nat.mul_succ, Nat.add_comm]
  have hlabel : encodeLittle 8 (zeroRecord dim).label.toNat = List.replicate 8 0 :=
    encodeLittle_zero 8
  have hfloats : (zeroRecord dim).vec.toList = List.replicate dim ⟨0⟩ := rfl
  rw [recordBytes, hlabel, hfloats, hvec, List.replicate_append_replicate]
  rfl

theorem decodeChunk_of_op {op : UInt8} (hop : op ≠ kInsert) (rest : List UInt8) :
    decodeChunk dim (op :: rest) = none := by
  have hfirst : Reads (UInt8.ofNat <$> readWord () 1) [op] op := by
    have hreads := (Reads.word () (show op.toNat < 256 ^ 1 from op.toNat_lt)).map UInt8.ofNat
    simpa [encodeLittle] using hreads
  rw [decodeChunk]
  split
  next => rfl
  next found record last hread =>
    obtain ⟨first, middle, hop', hnext⟩ := bind_eq_ok hread
    rw [← List.singleton_append, hfirst] at hop'
    obtain ⟨rfl, rfl⟩ := Prod.mk.inj (Except.ok.inj hop')
    obtain ⟨label, afterLabel, -, hnext⟩ := bind_eq_ok hnext
    obtain ⟨vec, afterVec, -, hnext⟩ := bind_eq_ok hnext
    obtain ⟨hpair, -⟩ := Prod.mk.inj (Except.ok.inj hnext)
    obtain ⟨rfl, -⟩ := Prod.mk.inj hpair
    exact if_neg hop

theorem zeroRecord_silent (dim : Nat) : (logFormat dim).Silent (zeroRecord dim) := by
  intro shift hpos hshift
  change decodeChunk dim ((recordBytes (zeroRecord dim)).drop shift ++ _) = none
  obtain ⟨inside, rfl⟩ := Nat.exists_eq_add_of_lt hpos
  obtain ⟨remaining, hremaining⟩ : ∃ remaining, 8 + 4 * dim - inside = remaining + 1 := by
    change 0 + inside + 1 < recordSize dim at hshift
    rw [recordSize] at hshift
    exact ⟨8 + 4 * dim - inside - 1, by omega⟩
  rw [recordBytes_zeroRecord, Nat.zero_add, List.drop_succ_cons, List.drop_replicate, hremaining,
    List.replicate_succ, List.cons_append]
  exact decodeChunk_of_op (by decide) _

/-- At most one flush of the log was cut short. -/
def AtMostOneTorn (flushes : List (Flush dim)) : Prop :=
  (flushes.filter (¬ Complete ·)).length ≤ 1

instance (flushes : List (Flush dim)) : Decidable (AtMostOneTorn flushes) :=
  inferInstanceAs (Decidable (_ ≤ _))

/-- A flush that was cut between two records leaves the later ones in place; one that
was cut inside a record does so only as long as nothing is flushed behind it. -/
theorem recovers_iff_cut_between_records {earlier : List (Flush dim)} {torn : Flush dim}
    (hearlier : ∀ flush ∈ earlier, Complete flush) :
    ((∀ later : List (Flush dim), (∀ flush ∈ later, Complete flush) →
        Recovers (earlier ++ torn :: later)) ↔ recordSize dim ∣ arrived torn) ∧
      (¬ Complete torn → ∀ later : List (Flush dim), (∀ flush ∈ later, flush.records = []) →
        Recovers (earlier ++ torn :: later)) := by
  simp only [recovers_iff]
  refine ⟨RecordFormat.recovers_iff_aligned (zeroRecord_silent dim) hearlier, ?_⟩
  intro htorn later hlater
  exact (logFormat dim).recovers_last
    (fun flush hflush => (logFormat dim).aligned_of_complete (hearlier flush hflush)) htorn hlater

theorem recovers_iff_cut_between_records_after_one :
    ((∀ later : List (Flush 1), (∀ flush ∈ later, Complete flush) →
        Recovers ([⟨[zeroRecord 1], 13⟩] ++ ⟨[zeroRecord 1], 1⟩ :: later)) ↔
          recordSize 1 ∣ arrived (⟨[zeroRecord 1], 1⟩ : Flush 1)) ∧
      (¬ Complete (⟨[zeroRecord 1], 1⟩ : Flush 1) →
        ∀ later : List (Flush 1), (∀ flush ∈ later, flush.records = []) →
          Recovers ([⟨[zeroRecord 1], 13⟩] ++ ⟨[zeroRecord 1], 1⟩ :: later)) :=
  recovers_iff_cut_between_records (by decide)

/-- Two flushes of records of dimension one; the first loses all but one byte. -/
def tornLog : List (Flush 1) :=
  [⟨[zeroRecord 1], 1⟩, ⟨[zeroRecord 1, zeroRecord 1], 26⟩]

theorem not_recovers_torn :
    ¬ ∀ (dim : Nat) (flushes : List (Flush dim)), AtMostOneTorn flushes → Recovers flushes := by
  intro hrecovers
  have htorn : AtMostOneTorn tornLog := by decide
  have hlost : ¬ Recovers tornLog := by decide
  exact hlost (hrecovers 1 tornLog htorn)

end SkipCell.Delta

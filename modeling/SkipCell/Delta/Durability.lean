import SkipCell.Delta.Store

/-! # What a load finds

After a crash `load` has the database and the delta file. It finds the newest
record of every label as long as the delta file is only removed when the database
has its records, and the database only rewritten from an index that has them all.
-/

namespace SkipCell.Delta

open Foundation

variable {Vector : Type}

def lastRecord : List (Record Vector) → UInt64 → Option (Record Vector)
  | [], _ => none
  | record :: records, label =>
    (lastRecord records label).or (if record.label = label then some record else none)

/-- `newer` is the record itself or was inserted after it. -/
def Record.AtMost (record newer : Record Vector) : Prop :=
  record = newer ∨ record.stamp < newer.stamp

instance [DecidableEq Vector] (record newer : Record Vector) : Decidable (record.AtMost newer) :=
  inferInstanceAs (Decidable (_ ∨ _))

/-- Of the records of a label the version is the last that was inserted, or there is
neither. -/
def IsNewest (records : List (Record Vector)) (label : UInt64) :
    Option (Record Vector) → Prop
  | none => ∀ record ∈ records, record.label ≠ label
  | some newest => newest ∈ records ∧ newest.label = label ∧
      ∀ record ∈ records, record.label = label → record.AtMost newest

/-- After a crash now, the next load holds the newest record of every label among
those that reached the disk. -/
def Durable (capacity : Nat) (state : State Vector) : Prop :=
  ∀ label, IsNewest state.reached label ((loaded capacity state).bind (·.lookup label))

/-! ## Replaying records -/

theorem lastRecord_append (first second : List (Record Vector)) (label : UInt64) :
    lastRecord (first ++ second) label =
      (lastRecord second label).or (lastRecord first label) := by
  induction first with
  | nil => simp [lastRecord]
  | cons record first ih => rw [List.cons_append, lastRecord, lastRecord, ih, Option.or_assoc]

variable {records : List (Record Vector)} {label : UInt64} {capacity : Nat} {graph : Graph Vector}

theorem lastRecord_eq_none :
    lastRecord records label = none ↔ ∀ record ∈ records, record.label ≠ label := by
  induction records with
  | nil => simp [lastRecord]
  | cons record records ih =>
    rw [lastRecord, Option.or_eq_none_iff, ih, List.forall_mem_cons]
    split <;> simp [*]

theorem mem_of_lastRecord {record : Record Vector}
    (hlast : lastRecord records label = some record) :
    record ∈ records ∧ record.label = label := by
  induction records with
  | nil => cases hlast
  | cons first records ih =>
    rw [lastRecord, Option.or_eq_some_iff] at hlast
    obtain hlater | ⟨-, hfirst⟩ := hlast
    · exact ⟨List.mem_cons_of_mem _ (ih hlater).1, (ih hlater).2⟩
    · split at hfirst
      next hlabel =>
        obtain rfl := Option.some.inj hfirst
        exact ⟨List.mem_cons_self, hlabel⟩
      next => cases hfirst

theorem lastRecord_newest (hordered : records.Pairwise (·.stamp < ·.stamp)) {newest : Record Vector}
    (hlast : lastRecord records label = some newest) :
    ∀ record ∈ records, record.label = label → record.AtMost newest := by
  induction records with
  | nil => cases hlast
  | cons first records ih =>
    obtain ⟨hfirst, hrest⟩ := List.pairwise_cons.mp hordered
    rw [lastRecord, Option.or_eq_some_iff] at hlast
    intro record hrecord hlabel
    obtain hlater | ⟨hnone, hself⟩ := hlast
    · obtain rfl | htail := List.mem_cons.mp hrecord
      · exact Or.inr (hfirst newest (mem_of_lastRecord hlater).1)
      · exact ih hrest hlater record htail hlabel
    · obtain rfl | htail := List.mem_cons.mp hrecord
      · rw [if_pos hlabel] at hself
        exact Or.inl (Option.some.inj hself)
      · exact absurd hlabel (lastRecord_eq_none.mp hnone record htail)

theorem lookup_insertRecord {record : Record Vector} {next : Graph Vector}
    (hinsert : insertRecord capacity record graph = some next) (label : UInt64) :
    next.lookup label = (if record.label = label then some record else none).or
      (graph.lookup label) := by
  have hnext : next = graph.insert record.label record := by
    unfold insertRecord at hinsert
    split at hinsert
    next => exact (Option.some.inj hinsert).symm
    next =>
      split at hinsert
      next => cases hinsert
      next => exact (Option.some.inj hinsert).symm
  rw [hnext]
  split
  next hlabel =>
    subst hlabel
    rw [AList.lookup_insert]
    rfl
  next hlabel => rw [AList.lookup_insert_ne (Ne.symm hlabel), Option.none_or]

theorem lookup_applyRecords {final : Graph Vector}
    (happly : applyRecords capacity records graph = (final, [])) (label : UInt64) :
    final.lookup label = (lastRecord records label).or (graph.lookup label) := by
  induction records generalizing graph with
  | nil =>
    obtain rfl := congrArg Prod.fst happly
    rfl
  | cons record records ih =>
    rw [applyRecords] at happly
    split at happly
    next => cases congrArg Prod.snd happly
    next next hinsert =>
      rw [ih happly, lookup_insertRecord hinsert, lastRecord, Option.or_assoc]

theorem applyRecords_known (capacity : Nat) (hknown : ∀ record ∈ records, record.label ∈ graph) :
    ∃ final, applyRecords capacity records graph = (final, []) := by
  induction records generalizing graph with
  | nil => exact ⟨graph, rfl⟩
  | cons record records ih =>
    obtain ⟨hfirst, hrest⟩ := List.forall_mem_cons.mp hknown
    rw [applyRecords, insertRecord, if_pos hfirst]
    apply ih
    intro later hlater
    exact (AList.mem_insert graph).mpr (Or.inr (hrest later hlater))

theorem applyRecords_prefix {first second : List (Record Vector)}
    (hfits : (applyRecords capacity (first ++ second) graph).2 = []) :
    (applyRecords capacity first graph).2 = [] := by
  induction first generalizing graph with
  | nil => rfl
  | cons record first ih =>
    rw [List.cons_append, applyRecords] at hfits
    rw [applyRecords]
    split at hfits
    next => cases hfits
    next => exact ih hfits

/-! ## Steps that keep every record -/

/-- The last record of the delta file with the label, or else the one of the index, is
the record or a newer one. -/
def Covers (deltaFile : List (Record Vector)) (index : Graph Vector) (record : Record Vector) :
    Prop :=
  match lastRecord deltaFile record.label with
  | some last => record.AtMost last
  | none =>
    match index.lookup record.label with
    | some found => record.AtMost found
    | none => False

instance [DecidableEq Vector] (deltaFile : List (Record Vector)) (index : Graph Vector)
    (record : Record Vector) : Decidable (Covers deltaFile index record) := by
  unfold Covers
  split
  next => infer_instance
  next => split <;> infer_instance

def DeltaInDatabase (state : State Vector) : Prop :=
  match state.database with
  | .saved graph => ∀ record ∈ state.deltaFile,
      graph.lookup record.label = lastRecord state.deltaFile record.label
  | .missing | .truncated => False

instance [DecidableEq Vector] (state : State Vector) : Decidable (DeltaInDatabase state) := by
  unfold DeltaInDatabase
  split <;> infer_instance

/-- There is a database, its labels and those of the delta file and the buffer find
room, and what is buffered is newer than what is on disk. -/
def FlushSafe (capacity : Nat) (state : State Vector) : Prop :=
  match state.database with
  | .saved graph =>
    (applyRecords capacity (state.deltaFile ++ state.buffer) graph).2.isEmpty = true ∧
      ∀ record ∈ state.buffer, ∀ older ∈ state.reached, older.label = record.label →
        older.stamp < record.stamp
  | .missing | .truncated => False

instance (capacity : Nat) (state : State Vector) : Decidable (FlushSafe capacity state) := by
  unfold FlushSafe
  split <;> infer_instance

/-- The conditions on single steps. While the database is being written, only the end
of the write matters; the process must not end before it. -/
def safe (capacity : Nat) (state : State Vector) : Action Vector → Prop
  | .flushToFile => state.client = .writing ∨ FlushSafe capacity state
  | .applyFlushed => state.client = .writing → (state.applyAndClear capacity).2 = true
  | .removeFlushed => state.client = .writing ∨ DeltaInDatabase state
  | .removeDelta => DeltaInDatabase state
  | .write => (applyRecords capacity state.deltaFile state.index).2.isEmpty = true ∧
      ∀ record ∈ state.reached ++ AssocMap.values state.index,
        Covers state.deltaFile state.index record
  | .crash => state.client ≠ .writing
  | _ => True

instance [DecidableEq Vector] (capacity : Nat) (state : State Vector) (action : Action Vector) :
    Decidable (safe capacity state action) :=
  match action with
  | .flushToFile | .removeFlushed => inferInstanceAs (Decidable (_ ∨ _))
  | .applyFlushed => inferInstanceAs (Decidable (_ → _))
  | .removeDelta => inferInstanceAs (Decidable (DeltaInDatabase state))
  | .write => inferInstanceAs (Decidable (_ ∧ _))
  | .crash => inferInstanceAs (Decidable (¬ _))
  | .insert _ _ | .build _ _ | .consolidate _ | .applyBuffer | .truncate | .load =>
    inferInstanceAs (Decidable True)

theorem IsNewest.append {reached buffer : List (Record Vector)} {version : Option (Record Vector)}
    (hnewest : IsNewest reached label version) (hordered : buffer.Pairwise (·.stamp < ·.stamp))
    (hnewer : ∀ record ∈ buffer, ∀ older ∈ reached, older.label = record.label →
      older.stamp < record.stamp) :
    IsNewest (reached ++ buffer) label ((lastRecord buffer label).or version) := by
  cases hlast : lastRecord buffer label with
  | some last =>
    obtain ⟨hmem, hlabel⟩ := mem_of_lastRecord hlast
    refine ⟨List.mem_append_right _ hmem, hlabel, ?_⟩
    intro record hrecord hsame
    rcases List.mem_append.mp hrecord with hold | hnew
    · exact Or.inr (hnewer last hmem record hold (hsame.trans hlabel.symm))
    · exact lastRecord_newest hordered hlast record hnew hsame
  | none =>
    have hother := lastRecord_eq_none.mp hlast
    rw [Option.none_or]
    cases version with
    | none => exact List.forall_mem_append.mpr ⟨hnewest, hother⟩
    | some newest =>
      obtain ⟨hmem, hlabel, hmost⟩ := hnewest
      refine ⟨List.mem_append_left _ hmem, hlabel, ?_⟩
      intro record hrecord hsame
      rcases List.mem_append.mp hrecord with hold | hnew
      · exact hmost record hold hsame
      · exact absurd hsame (hother record hnew)

/-! ## The invariant -/

/-- Every record is found under its label. -/
def Keyed (graph : Graph Vector) : Prop :=
  ∀ label record, graph.lookup label = some record → record.label = label

theorem keyed_applyRecords (records : List (Record Vector)) (hkeyed : Keyed graph) :
    Keyed (applyRecords capacity records graph).1 := by
  induction records generalizing graph with
  | nil => exact hkeyed
  | cons record records ih =>
    rw [applyRecords]
    split
    next => exact hkeyed
    next next hinsert =>
      apply ih
      intro label found hfound
      rw [lookup_insertRecord hinsert, Option.or_eq_some_iff] at hfound
      rcases hfound with hself | ⟨-, hold⟩
      · split at hself
        next hlabel =>
          obtain rfl := Option.some.inj hself
          exact hlabel
        next => cases hself
      · exact hkeyed label found hold

structure Consistent (capacity : Nat) (state : State Vector) : Prop where
  durable : state.client ≠ .writing → Durable capacity state
  ordered : state.buffer.Pairwise (·.stamp < ·.stamp)
  clocked : ∀ record ∈ state.buffer, record.stamp < state.clock
  keyed : Keyed state.index
  written : ∀ graph, state.database = .saved graph → Keyed graph
  deltaReached : ∀ record ∈ state.deltaFile, record ∈ state.reached

section Loaded

variable {capacity : Nat} {state : State Vector}

theorem loaded_saved {graph : Graph Vector} (hdatabase : state.database = .saved graph) :
    loaded capacity state =
      if (applyRecords capacity state.deltaFile graph).2.isEmpty then
        some (applyRecords capacity state.deltaFile graph).1 else none := by
  unfold loaded
  rw [hdatabase]

theorem loaded_lookup {graph : Graph Vector} (hdatabase : state.database = .saved graph)
    (hfits : (applyRecords capacity state.deltaFile graph).2.isEmpty = true) (label : UInt64) :
    (loaded capacity state).bind (·.lookup label) =
      (lastRecord state.deltaFile label).or (graph.lookup label) := by
  rw [loaded_saved hdatabase, if_pos hfits]
  have happly : applyRecords capacity state.deltaFile graph = (_, []) :=
    Prod.ext rfl (List.isEmpty_iff.mp hfits)
  exact lookup_applyRecords happly label

theorem durable_congr {other : State Vector} (hdatabase : other.database = state.database)
    (hdelta : other.deltaFile = state.deltaFile) (hreached : other.reached = state.reached)
    (hdurable : Durable capacity state) : Durable capacity other := by
  intro label
  have hloaded : loaded capacity other = loaded capacity state := by
    unfold loaded
    rw [hdatabase, hdelta]
  rw [hloaded, hreached]
  exact hdurable label

theorem durable_flush (hconsistent : Consistent capacity state)
    (hdurable : Durable capacity state) (hsafe : FlushSafe capacity state) :
    Durable capacity (perform capacity state .flushToFile) := by
  unfold FlushSafe at hsafe
  split at hsafe
  next graph hdatabase =>
    obtain ⟨hfits, hnewer⟩ := hsafe
    intro label
    have hkept : (perform capacity state .flushToFile).database = .saved graph := hdatabase
    rw [loaded_lookup hkept hfits]
    change IsNewest (state.reached ++ state.buffer) label
      ((lastRecord (state.deltaFile ++ state.buffer) label).or _)
    rw [lastRecord_append, Option.or_assoc]
    have hbefore : (applyRecords capacity state.deltaFile graph).2.isEmpty = true := by
      rw [List.isEmpty_iff] at hfits ⊢
      exact applyRecords_prefix hfits
    rw [← loaded_lookup hdatabase hbefore]
    exact (hdurable label).append hconsistent.ordered hnewer
  all_goals cases hsafe

theorem durable_remove (hdurable : Durable capacity state) (hdelta : DeltaInDatabase state)
    {next : State Vector} (hdatabase : next.database = state.database)
    (hempty : next.deltaFile = []) (hreached : next.reached = state.reached) :
    Durable capacity next := by
  unfold DeltaInDatabase at hdelta
  split at hdelta
  next graph hsaved =>
    have hknown : ∀ record ∈ state.deltaFile, record.label ∈ graph := by
      intro record hrecord
      cases hlast : lastRecord state.deltaFile record.label with
      | none => exact absurd rfl (lastRecord_eq_none.mp hlast record hrecord)
      | some last => exact AssocMap.mem_of_lookup ((hdelta record hrecord).trans hlast)
    obtain ⟨final, happly⟩ := applyRecords_known capacity hknown
    intro label
    rw [loaded_lookup (hdatabase.trans hsaved) (by rw [hempty]; rfl), hempty, hreached, lastRecord,
      Option.none_or]
    have hfound := hdurable label
    rw [loaded_lookup hsaved (by rw [happly]; rfl)] at hfound
    cases hlast : lastRecord state.deltaFile label with
    | none => rwa [hlast, Option.none_or] at hfound
    | some last =>
      obtain ⟨hmem, rfl⟩ := mem_of_lastRecord hlast
      rw [hdelta last hmem, hlast]
      rwa [hlast, Option.some_or] at hfound
  all_goals cases hdelta

theorem durable_write (hconsistent : Consistent capacity state)
    (hsafe : safe capacity state .write) : Durable capacity (perform capacity state .write) := by
  obtain ⟨hfits, hcovered⟩ := hsafe
  intro label
  have hwritten : (perform capacity state .write).database = .saved state.index := rfl
  rw [loaded_lookup hwritten hfits]
  change IsNewest (state.reached ++ AssocMap.values state.index) label
    ((lastRecord state.deltaFile label).or (state.index.lookup label))
  cases hlast : lastRecord state.deltaFile label with
  | some last =>
    obtain ⟨hmem, hlabel⟩ := mem_of_lastRecord hlast
    refine ⟨List.mem_append_left _ (hconsistent.deltaReached last hmem), hlabel, ?_⟩
    intro record hrecord hsame
    have hcover := hcovered record hrecord
    rwa [Covers, hsame, hlast] at hcover
  | none =>
    rw [Option.none_or]
    cases hfound : state.index.lookup label with
    | some found =>
      refine ⟨List.mem_append_right _ (AssocMap.mem_values.mpr ⟨label, hfound⟩),
        hconsistent.keyed label found hfound, ?_⟩
      intro record hrecord hsame
      have hcover := hcovered record hrecord
      rwa [Covers, hsame, hlast, hfound] at hcover
    | none =>
      intro record hrecord hsame
      have hcover := hcovered record hrecord
      rwa [Covers, hsame, hlast, hfound] at hcover

/-! ## Steps and runs -/

theorem applyAndClear_eq (capacity : Nat) (state : State Vector) :
    ∃ buffer, (buffer = state.buffer ∨ buffer = []) ∧
      (state.applyAndClear capacity).1 =
        { state with index := (applyRecords capacity state.buffer state.index).1, buffer } := by
  unfold State.applyAndClear
  split
  next index happly => exact ⟨[], Or.inr rfl, by rw [happly]⟩
  next index first rest happly => exact ⟨state.buffer, Or.inl rfl, by rw [happly]⟩

theorem Consistent.inMemory (hconsistent : Consistent capacity state) {next : State Vector}
    (hdatabase : next.database = state.database) (hdelta : next.deltaFile = state.deltaFile)
    (hreached : next.reached = state.reached)
    (hclient : next.client ≠ .writing → state.client ≠ .writing)
    (hbuffer : next.buffer = state.buffer ∨ next.buffer = []) (hclock : next.clock = state.clock)
    (hkeyed : Keyed next.index) : Consistent capacity next where
  durable hnotWriting :=
    durable_congr hdatabase hdelta hreached (hconsistent.durable (hclient hnotWriting))
  ordered := by
    rcases hbuffer with hsame | hempty
    · rw [hsame]
      exact hconsistent.ordered
    · rw [hempty]
      exact List.Pairwise.nil
  clocked := by
    rw [hclock]
    rcases hbuffer with hsame | hempty
    · rw [hsame]
      exact hconsistent.clocked
    · rw [hempty]
      exact List.forall_mem_nil _
  keyed := hkeyed
  written := by
    rw [hdatabase]
    exact hconsistent.written
  deltaReached := by
    rw [hdelta, hreached]
    exact hconsistent.deltaReached

theorem keyed_empty : Keyed (∅ : Graph Vector) := by
  intro label record hlookup
  rw [AList.lookup_empty] at hlookup
  cases hlookup

section

variable (hconsistent : Consistent capacity state)
include hconsistent

theorem Consistent.crash (hclient : state.client ≠ .writing) : Consistent capacity state.crash :=
  hconsistent.inMemory rfl rfl rfl (fun _ => hclient) (Or.inr rfl) rfl keyed_empty

theorem Consistent.insert (label : UInt64) (vector : Vector) :
    Consistent capacity (perform capacity state (.insert label vector)) where
  durable hnotWriting := durable_congr rfl rfl rfl (hconsistent.durable hnotWriting)
  ordered := by
    apply List.pairwise_append.mpr
    refine ⟨hconsistent.ordered, List.pairwise_singleton _ _, ?_⟩
    intro record hrecord last hlast
    obtain rfl := List.mem_singleton.mp hlast
    exact hconsistent.clocked record hrecord
  clocked := by
    intro record hrecord
    rcases List.mem_append.mp hrecord with hold | hnew
    · exact Nat.lt_succ_of_lt (hconsistent.clocked record hold)
    · obtain rfl := List.mem_singleton.mp hnew
      exact Nat.lt_succ_self _
  keyed := hconsistent.keyed
  written := hconsistent.written
  deltaReached := hconsistent.deltaReached

theorem Consistent.build (label : UInt64) (vector : Vector) :
    Consistent capacity (perform capacity state (.build label vector)) where
  durable hnotWriting := durable_congr rfl rfl rfl (hconsistent.durable hnotWriting)
  ordered := hconsistent.ordered
  clocked record hrecord := Nat.lt_succ_of_lt (hconsistent.clocked record hrecord)
  keyed := keyed_applyRecords _ hconsistent.keyed
  written := hconsistent.written
  deltaReached := hconsistent.deltaReached

theorem Consistent.flushToFile (hsafe : safe capacity state .flushToFile) :
    Consistent capacity (perform capacity state .flushToFile) where
  durable hnotWriting := by
    rcases hsafe with hwriting | hflush
    · exact absurd hwriting hnotWriting
    · exact durable_flush hconsistent (hconsistent.durable hnotWriting) hflush
  ordered := hconsistent.ordered
  clocked := hconsistent.clocked
  keyed := hconsistent.keyed
  written := hconsistent.written
  deltaReached := by
    intro record hrecord
    apply List.mem_append.mpr
    rcases List.mem_append.mp hrecord with hdelta | hbuffer
    · exact Or.inl (hconsistent.deltaReached record hdelta)
    · exact Or.inr hbuffer

theorem Consistent.remove (background : Background) (client : Client)
    (hdelta : state.client = .writing ∨ DeltaInDatabase state)
    (hclient : client ≠ .writing → state.client ≠ .writing) :
    Consistent capacity { state with background, client, deltaFile := [] } :=
  { hconsistent with
    durable := by
      intro hnotWriting
      rcases hdelta with hwriting | hsaved
      · exact absurd hwriting (hclient hnotWriting)
      · exact durable_remove (hconsistent.durable (hclient hnotWriting)) hsaved rfl rfl rfl
    deltaReached := List.forall_mem_nil _ }

theorem Consistent.step {action : Action Vector} (hpermitted : permitted state action)
    (hsafe : safe capacity state action) :
    Consistent capacity (perform capacity state action) := by
  have happlied : Keyed (applyRecords capacity state.buffer state.index).1 :=
    keyed_applyRecords _ hconsistent.keyed
  obtain ⟨buffer, hbuffer, happly⟩ := applyAndClear_eq capacity state
  cases action with
  | insert label vector => exact hconsistent.insert label vector
  | build label vector => exact hconsistent.build label vector
  | flushToFile => exact hconsistent.flushToFile hsafe
  | applyFlushed =>
    rw [perform]
    split
    next applied hresult =>
      obtain rfl : applied = _ := (congrArg Prod.fst hresult).symm.trans happly
      exact hconsistent.inMemory rfl rfl rfl (fun hclient => hclient) hbuffer rfl happlied
    next hresult =>
      apply hconsistent.crash
      intro hwriting
      have hdone := hsafe hwriting
      rw [hresult] at hdone
      cases hdone
  | removeFlushed =>
    exact hconsistent.remove _ _ hsafe id
  | consolidate saving =>
    have hidle : state.client ≠ .writing := by
      rw [hpermitted]
      nofun
    rw [perform]
    split
    all_goals
      exact hconsistent.inMemory rfl rfl rfl (fun _ => hidle) (Or.inl rfl) rfl hconsistent.keyed
  | applyBuffer =>
    have hwaiting : state.client ≠ .writing := by
      rcases hpermitted.1 with hclient | hclient <;> rw [hclient] <;> nofun
    rw [perform]
    split
    all_goals
      next applied hresult =>
        obtain rfl : applied = _ := (congrArg Prod.fst hresult).symm.trans happly
        exact hconsistent.inMemory rfl rfl rfl (fun _ => hwaiting) hbuffer rfl happlied
  | removeDelta =>
    have happlying : state.client ≠ .writing := by
      rcases hpermitted with hclient | hclient <;> rw [hclient] <;> nofun
    exact hconsistent.remove _ _ (Or.inr hsafe) (fun _ => happlying)
  | truncate =>
    exact
      { hconsistent with
        durable := fun hclient => absurd rfl hclient
        written := nofun }
  | write =>
    exact
      { hconsistent with
        durable := fun _ => durable_write hconsistent hsafe
        written := by
          rintro graph ⟨⟩
          exact hconsistent.keyed
        deltaReached := fun record hrecord =>
          List.mem_append_left _ (hconsistent.deltaReached record hrecord) }
  | load =>
    have hidle : state.client ≠ .writing := by
      rw [hpermitted]
      nofun
    rw [perform]
    split
    next graph hsaved =>
      exact hconsistent.inMemory rfl rfl rfl (fun _ => hidle) (Or.inl rfl) rfl
        (keyed_applyRecords _ (hconsistent.written graph hsaved))
    all_goals exact hconsistent
  | crash => exact hconsistent.crash hsafe

end

end Loaded

theorem consistent_start (capacity : Nat) : Consistent capacity ({} : State Vector) where
  durable _ := by
    intro label
    exact List.forall_mem_nil _
  ordered := List.Pairwise.nil
  clocked := List.forall_mem_nil _
  keyed := keyed_empty
  written := nofun
  deltaReached := List.forall_mem_nil _

end SkipCell.Delta

import SkipCell.Foundation.Logged
import SkipCell.IoIndex.Topology

/-! # Appending a Base record

A record whose node is in the lower half of its Community loses its least neighbor. The
neighbors are ranked before their range is checked, so that a record with two neighbors, one
of them out of range, is looked up behind the end of the ranking.
-/

namespace SkipCell.IoIndex

open Foundation Sidecar

/-- What `read_normalized_rcni` returns. -/
structure NormalizedRcni (pointCount : Nat) where
  scores : List Double
  complete : scores.length = pointCount

/-- A record of the Base index. Only the first `degree` of its slots are neighbors. -/
structure GraphRecord (metadata : DiskLayoutMetadata) where
  vector : List UInt8
  degree : UInt32
  slots : List UInt32
  dimension : vector.length = metadata.sourceVectorBytes
  width : slots.length = metadata.maxDegree.toNat

namespace GraphRecord

variable {metadata : DiskLayoutMetadata}

def targets (record : GraphRecord metadata) : List UInt32 := record.slots.take record.degree.toNat

/-- The record as it is read where its neighbors are in range. -/
def toBaseRecord (record : GraphRecord metadata) : BaseRecord := ⟨record.vector, record.targets⟩

end GraphRecord

/-- A use of a neighbor as an index, and a check of its range. -/
inductive TrimEvent
  | read (target : UInt32)
  | check (target : UInt32)
  deriving DecidableEq

abbrev Trim := Logged TrimEvent Error

/-- `normalized_rcni[target]`. -/
def readRcni {pointCount : Nat} (rcni : NormalizedRcni pointCount) (target : UInt32) :
    Trim Double := do
  .note (.read target)
  .ofExcept (element .outOfBounds rcni.scores target.toNat)

/-- `std::tie(normalized_rcni[left], left) < std::tie(normalized_rcni[right], right)`. -/
def readRcniLess {pointCount : Nat} (rcni : NormalizedRcni pointCount) (left right : UInt32) :
    Trim Bool := do
  let leftScore ← readRcni rcni left
  let rightScore ← readRcni rcni right
  return leftScore < rightScore || !decide (rightScore < leftScore) && left < right

/-- One turn of the first loop over the neighbors. -/
def compareTarget {pointCount : Nat} (rcni : NormalizedRcni pointCount) (neighbor : Nat)
    (target : UInt32) (removed : Nat × UInt32) : Trim (Nat × UInt32) := do
  let less ← readRcniLess rcni target removed.2
  return if less then (neighbor, target) else removed

/-- `removed_neighbor`, which is no neighbor where the node is not trimmed. -/
def findRemoved {pointCount : Nat} (rcni : NormalizedRcni pointCount) (trimmed : List UInt32)
    (node : Nat) (targets : List UInt32) : Trim Nat :=
  match targets with
  | [] => return 0
  | first :: rest =>
    if UInt32.ofNat node ∈ trimmed then do
      let removed ← Logged.scan (compareTarget rcni) 1 rest (0, first)
      return removed.1
    else return targets.length

/-- One turn of the second loop. -/
def pushTarget (pointCount removed neighbor : Nat) (target : UInt32) (adjacency : List UInt32) :
    Trim (List UInt32) := do
  .note (.check target)
  .ofExcept (reject (pointCount ≤ target.toNat)
    (.runtimeError "Base adjacency endpoint exceeds point count"))
  return if neighbor = removed then adjacency else adjacency ++ [target]

/-- The end of `append_record`. -/
def appendTargets {pointCount : Nat} (rcni : NormalizedRcni pointCount) (trimmed : List UInt32)
    (node : Nat) (targets : List UInt32) : Trim (List UInt32) := do
  let removed ← findRemoved rcni trimmed node targets
  Logged.scan (pushTarget pointCount removed) 0 targets []

/-- `append_record`: the list of a record. -/
def appendRecord (layout : VectorLayout) (metadata : DiskLayoutMetadata)
    (rcni : NormalizedRcni metadata.pointCount.toNat) (trimmed : List UInt32) (node : Nat)
    (record : GraphRecord metadata) : Trim (List UInt32) := do
  .ofExcept (reject (metadata.pointCount.toNat ≤ node)
    (.runtimeError "Base record node ID exceeds point count"))
  let _ ← .ofExcept (storedVector layout metadata record.toBaseRecord)
  .ofExcept (reject (metadata.maxDegree < record.degree)
    (.runtimeError "Base record degree exceeds metadata"))
  appendTargets rcni trimmed node record.targets

/-! ## Outcomes -/

section Outcomes

variable {pointCount : Nat} (rcni : NormalizedRcni pointCount)

theorem outcome_readRcniLess (left right : UInt32) :
    (readRcniLess rcni left right).outcome =
      if left.toNat < pointCount ∧ right.toNat < pointCount then
        .ok (rcniLess rcni.scores left right)
      else .error .outOfBounds := by
  obtain ⟨scores, rfl⟩ := rcni
  unfold readRcniLess readRcni
  simp only [Logged.outcome_bind, Logged.outcome_note, Logged.outcome_ofExcept,
    Logged.outcome_pure, element, rcniLess]
  by_cases hleft : left.toNat < scores.length
  · rw [List.getElem?_eq_getElem hleft]
    by_cases hright : right.toNat < scores.length
    · rw [List.getElem?_eq_getElem hright, if_pos ⟨hleft, hright⟩]
      rfl
    · rw [List.getElem?_eq_none (Nat.le_of_not_lt hright), if_neg fun hboth => hright hboth.2]
      rfl
  · rw [List.getElem?_eq_none (Nat.le_of_not_lt hleft), if_neg fun hboth => hleft hboth.1]
    rfl

theorem outcome_compareTargets (rest : List UInt32) (position : Nat) (removed : Nat × UInt32) :
    (Logged.scan (compareTarget rcni) position rest removed).outcome =
      if rest = [] ∨ removed.2.toNat < pointCount ∧ ∀ target ∈ rest, target.toNat < pointCount then
        .ok ((rest.zipIdx position).foldl (fun removed entry =>
          if rcniLess rcni.scores entry.1 removed.2 then (entry.2, entry.1) else removed) removed)
      else .error .outOfBounds := by
  induction rest generalizing position removed with
  | nil => simp [Logged.scan]
  | cons target rest ih =>
    rw [Logged.scan, Logged.outcome_bind, compareTarget, Logged.outcome_bind, outcome_readRcniLess]
    by_cases hinside : target.toNat < pointCount ∧ removed.2.toNat < pointCount
    · rw [if_pos hinside]
      have hnext : ∀ less : Bool,
          (if less then (position, target) else removed).2.toNat < pointCount := by
        intro less
        split
        · exact hinside.1
        · exact hinside.2
      change (Logged.scan (compareTarget rcni) (position + 1) rest _).outcome = _
      rw [ih]
      simp only [hnext, true_and, hinside.2, reduceCtorEq, false_or, List.forall_mem_cons,
        hinside.1, List.zipIdx_cons, List.foldl_cons]
      cases rest with
      | nil => simp
      | cons second rest => simp
    · rw [if_neg hinside, if_neg]
      · rfl
      · rintro (hnil | ⟨hremoved, htargets⟩)
        · cases hnil
        · exact hinside ⟨htargets target List.mem_cons_self, hremoved⟩

/-- The node is trimmed, and the scores of its neighbors are compared. -/
def Compares (trimmed : List UInt32) (node : Nat) (targets : List UInt32) : Prop :=
  UInt32.ofNat node ∈ trimmed ∧ 2 ≤ targets.length

instance (trimmed : List UInt32) (node : Nat) (targets : List UInt32) :
    Decidable (Compares trimmed node targets) :=
  inferInstanceAs (Decidable (_ ∧ _))

theorem outcome_findRemoved (trimmed : List UInt32) (node : Nat) (targets : List UInt32) :
    (findRemoved rcni trimmed node targets).outcome =
      if Compares trimmed node targets ∧ ∃ target ∈ targets, pointCount ≤ target.toNat then
        .error .outOfBounds
      else if UInt32.ofNat node ∈ trimmed ∧ targets ≠ [] then
        .ok (removedNeighbor rcni.scores targets)
      else .ok targets.length := by
  unfold findRemoved
  split
  next => simp [Compares]
  next first rest =>
    by_cases htrimmed : UInt32.ofNat node ∈ trimmed
    · rw [if_pos htrimmed, Logged.outcome_bind, outcome_compareTargets]
      cases rest with
      | nil => simp [Compares, removedNeighbor, htrimmed, bind, Except.bind]
      | cons second rest =>
        have hinside : (second :: rest = [] ∨ (0, first).2.toNat < pointCount ∧
            ∀ target ∈ second :: rest, target.toNat < pointCount) ↔
            ¬ ∃ target ∈ first :: second :: rest, pointCount ≤ target.toNat := by
          simp
        have hcompares : Compares trimmed node (first :: second :: rest) :=
          ⟨htrimmed, by simp⟩
        by_cases houtside : ∃ target ∈ first :: second :: rest, pointCount ≤ target.toNat
        · rw [if_neg (mt hinside.mp (not_not_intro houtside)), if_pos ⟨hcompares, houtside⟩]
          rfl
        · rw [if_pos (hinside.mpr houtside), if_neg fun hboth => houtside hboth.2,
            if_pos ⟨htrimmed, List.cons_ne_nil _ _⟩]
          rfl
    · simp [Compares, htrimmed]

end Outcomes

theorem outcome_pushTargets (pointCount removed : Nat) (targets : List UInt32) (start : Nat)
    (adjacency : List UInt32) :
    (Logged.scan (pushTarget pointCount removed) start targets adjacency).outcome =
      if ∃ target ∈ targets, pointCount ≤ target.toNat then
        .error (.runtimeError "Base adjacency endpoint exceeds point count")
      else .ok (adjacency ++
        if removed < start then targets else targets.eraseIdx (removed - start)) := by
  induction targets generalizing start adjacency with
  | nil => simp [Logged.scan]
  | cons target targets ih =>
    rw [Logged.scan, Logged.outcome_bind, pushTarget]
    simp only [Logged.outcome_bind, Logged.outcome_note, Logged.outcome_ofExcept,
      Logged.outcome_pure, reject]
    by_cases houtside : pointCount ≤ target.toNat
    · have hexists : ∃ other ∈ target :: targets, pointCount ≤ other.toNat :=
        ⟨target, List.mem_cons_self, houtside⟩
      rw [if_pos houtside, if_pos hexists]
      rfl
    · rw [if_neg houtside]
      change (Logged.scan (pushTarget pointCount removed) (start + 1) targets _).outcome = _
      rw [ih]
      simp only [List.exists_mem_cons_iff, houtside, false_or]
      congr 2
      rcases Nat.lt_trichotomy start removed with hlater | hhere | hearlier
      · rw [if_neg (by omega), if_neg (by omega), if_neg (by omega),
          show removed - start = removed - (start + 1) + 1 by omega, List.eraseIdx_cons_succ,
          List.append_assoc]
        rfl
      · rw [if_pos hhere, if_pos (by omega), if_neg (by omega), hhere, Nat.sub_self]
        rfl
      · rw [if_neg (by omega), if_pos (by omega), if_pos hearlier, List.append_assoc]
        rfl

/-! ## Records -/

variable {layout : VectorLayout} {metadata : DiskLayoutMetadata}
  {rcni : NormalizedRcni metadata.pointCount.toNat} {trimmed : List UInt32} {node : Nat}
  {record : GraphRecord metadata}

/-- The vector is stored, and the record is not refused before its neighbors are read. -/
def ReadsTargets (layout : VectorLayout) (node : Nat) (record : GraphRecord metadata) : Prop :=
  node < metadata.pointCount.toNat ∧
    (∃ stored, storedVector layout metadata record.toBaseRecord = .ok stored) ∧
    record.degree ≤ metadata.maxDegree

theorem convertU8_ne_outOfBounds (dimension : Nat) (bytes : List UInt8) :
    convertU8 dimension bytes ≠ .error .outOfBounds := by
  induction dimension generalizing bytes with
  | zero => exact nofun
  | succ dimension ih =>
    rw [convertU8]
    split
    · exact nofun
    · intro hfails
      cases hrest : convertU8 dimension (bytes.drop 4) with
      | error failure =>
        rw [hrest] at hfails
        exact ih _ (hrest.trans hfails)
      | ok converted =>
        rw [hrest] at hfails
        cases hfails

theorem storedVector_ne_outOfBounds (record : BaseRecord) :
    storedVector layout metadata record ≠ .error .outOfBounds := by
  unfold storedVector
  split
  · exact convertU8_ne_outOfBounds _ _
  · exact nofun

theorem length_targets (hdegree : record.degree ≤ metadata.maxDegree) :
    record.targets.length = record.degree.toNat := by
  rw [GraphRecord.targets, List.length_take, record.width]
  exact Nat.min_eq_left (UInt32.le_iff_toNat_le.mp hdegree)

theorem appendRecord_cases (layout : VectorLayout) (rcni : NormalizedRcni metadata.pointCount.toNat)
    (trimmed : List UInt32) (node : Nat) (record : GraphRecord metadata) :
    ReadsTargets layout node record ∧
        appendRecord layout metadata rcni trimmed node record =
          appendTargets rcni trimmed node record.targets ∨
      ¬ ReadsTargets layout node record ∧ ∃ failure, failure ≠ .outOfBounds ∧
        appendRecord layout metadata rcni trimmed node record = .ofExcept (.error failure) := by
  unfold appendRecord ReadsTargets reject
  by_cases hnode : metadata.pointCount.toNat ≤ node
  · rw [if_pos hnode]
    refine .inr ⟨fun hreads => Nat.not_lt.mpr hnode hreads.1,
      .runtimeError "Base record node ID exceeds point count", nofun, rfl⟩
  · rw [if_neg hnode]
    cases hstored : storedVector layout metadata record.toBaseRecord with
    | error failure =>
      refine .inr ⟨fun hreads => ?_, failure, fun hfailure => ?_, rfl⟩
      · obtain ⟨stored, hsome⟩ := hreads.2.1
        cases hsome
      · exact storedVector_ne_outOfBounds record.toBaseRecord (hfailure ▸ hstored)
    | ok stored =>
      by_cases hdegree : metadata.maxDegree < record.degree
      · rw [if_pos hdegree]
        exact .inr ⟨fun hreads => absurd hreads.2.2 (UInt32.not_le.mpr hdegree),
          .runtimeError "Base record degree exceeds metadata", nofun, rfl⟩
      · rw [if_neg hdegree]
        exact .inl ⟨⟨Nat.lt_of_not_le hnode, ⟨stored, rfl⟩, UInt32.not_lt.mp hdegree⟩, rfl⟩

variable {pointCount : Nat} {targets : List UInt32}

theorem outcome_appendTargets_iff (rcni : NormalizedRcni pointCount) :
    (appendTargets rcni trimmed node targets).outcome ≠ .error .outOfBounds ↔
      ¬ (Compares trimmed node targets ∧ ∃ target ∈ targets, pointCount ≤ target.toNat) := by
  rw [appendTargets, Logged.outcome_bind, outcome_findRemoved]
  by_cases houtside : Compares trimmed node targets ∧ ∃ target ∈ targets, pointCount ≤ target.toNat
  · rw [if_pos houtside]
    exact iff_of_false (fun hsafe => hsafe rfl) fun hinside => hinside houtside
  · rw [if_neg houtside]
    have hpush : ∀ removed,
        (Logged.scan (pushTarget pointCount removed) 0 targets []).outcome ≠
          .error .outOfBounds := by
      intro removed
      rw [outcome_pushTargets]
      split <;> exact nofun
    refine iff_of_true ?_ houtside
    split
    · exact hpush _
    · exact hpush _

theorem compares_iff (hdegree : record.degree ≤ metadata.maxDegree) :
    Compares trimmed node record.targets ↔
      UInt32.ofNat node ∈ trimmed ∧ 2 ≤ record.degree.toNat := by
  rw [Compares, length_targets hdegree]

/-! ## Uses and checks -/

/-- Only scores of nodes are read. -/
def ReadsInside (pointCount : Nat) (log : List TrimEvent) : Prop :=
  ∀ target, .read target ∈ log → target.toNat < pointCount

/-- The range of a neighbor is checked before it is used as an index. -/
def ChecksFirst (log : List TrimEvent) : Prop :=
  ∀ earlier target later, log = earlier ++ .read target :: later → .check target ∈ earlier

def TrimEvent.Inside (pointCount : Nat) : TrimEvent → Prop
  | read target => target.toNat < pointCount
  | check _ => True

theorem readsInside_iff {log : List TrimEvent} :
    ReadsInside pointCount log ↔ ∀ event ∈ log, event.Inside pointCount := by
  constructor
  · intro hreads event hevent
    cases event with
    | read target => exact hreads target hevent
    | check target => trivial
  · exact fun hall target htarget => hall _ htarget

theorem guards_readRcni (rcni : NormalizedRcni pointCount) (target : UInt32) :
    (readRcni rcni target).Guards (TrimEvent.Inside pointCount) .outOfBounds := by
  obtain ⟨scores, rfl⟩ := rcni
  refine Logged.guards_note_bind ?_
  change target.toNat < scores.length ↔ element Error.outOfBounds scores target.toNat ≠ _
  unfold element
  split
  next score hscore => exact iff_of_true (List.getElem_of_getElem? hscore).1 nofun
  next hnone =>
    exact iff_of_false (Nat.not_lt.mpr (List.getElem?_eq_none_iff.mp hnone)) fun hother => hother rfl

theorem guards_findRemoved (rcni : NormalizedRcni pointCount) (trimmed : List UInt32) (node : Nat)
    (targets : List UInt32) :
    (findRemoved rcni trimmed node targets).Guards (TrimEvent.Inside pointCount) .outOfBounds := by
  unfold findRemoved
  split
  · exact Logged.guards_pure 0
  · split
    · refine (Logged.guards_scan (fun position target removed => ?_) _ _ _).bind
        fun removed => Logged.guards_pure _
      exact ((guards_readRcni rcni target).bind fun _ =>
        (guards_readRcni rcni removed.2).bind fun _ => Logged.guards_pure _).bind
          fun _ => Logged.guards_pure _
    · exact Logged.guards_pure _

theorem guards_appendRecord (layout : VectorLayout) (rcni : NormalizedRcni metadata.pointCount.toNat)
    (trimmed : List UInt32) (node : Nat) (record : GraphRecord metadata) :
    (appendRecord layout metadata rcni trimmed node record).Guards
      (TrimEvent.Inside metadata.pointCount.toNat) .outOfBounds := by
  have hreject : ∀ (condition : Prop) [Decidable condition] (text : String),
      (Logged.ofExcept (reject condition (Error.runtimeError text)) : Trim Unit).Guards
        (TrimEvent.Inside metadata.pointCount.toNat) .outOfBounds := by
    intro condition _ text
    refine Logged.guards_ofExcept ?_
    unfold reject
    split <;> exact nofun
  refine (hreject _ _).bind fun _ =>
    (Logged.guards_ofExcept (storedVector_ne_outOfBounds _)).bind fun _ =>
      (hreject _ _).bind fun _ => (guards_findRemoved rcni trimmed node _).bind fun removed =>
        Logged.guards_scan (fun position target adjacency => ?_) _ _ _
  have hnote : (Logged.note (.check target) : Trim Unit).Guards
      (TrimEvent.Inside metadata.pointCount.toNat) .outOfBounds := by
    refine iff_of_true (fun event hevent => ?_) nofun
    rw [List.mem_singleton.mp hevent]
    trivial
  exact hnote.bind fun _ => (hreject _ _).bind fun _ => Logged.guards_pure _

theorem log_findRemoved_of_not_compares (rcni : NormalizedRcni pointCount)
    (hcompares : ¬ Compares trimmed node targets) :
    (findRemoved rcni trimmed node targets).log = [] := by
  unfold findRemoved
  split
  · rfl
  next first rest =>
    split
    next htrimmed =>
      cases rest with
      | nil => rfl
      | cons second rest => exact absurd ⟨htrimmed, by simp⟩ hcompares
    next => rfl

theorem log_findRemoved_of_compares (rcni : NormalizedRcni pointCount)
    (hcompares : Compares trimmed node targets) :
    ∃ target, [.read target] <+: (findRemoved rcni trimmed node targets).log := by
  obtain ⟨htrimmed, hlength⟩ := hcompares
  match targets, hlength with
  | first :: second :: rest, _ =>
    refine ⟨second, ?_⟩
    rw [findRemoved, if_pos htrimmed, Logged.scan]
    exact (Logged.log_prefix_bind (Logged.note (TrimEvent.read second) : Trim Unit) _).trans <|
      (Logged.log_prefix_bind (readRcni rcni second) _).trans <|
        (Logged.log_prefix_bind (readRcniLess rcni second first) _).trans <|
          (Logged.log_prefix_bind (compareTarget rcni 1 second (0, first)) _).trans <|
            Logged.log_prefix_bind _ _

theorem checksFirst_appendTargets_iff (rcni : NormalizedRcni pointCount) :
    ChecksFirst (appendTargets rcni trimmed node targets).log ↔
      ¬ Compares trimmed node targets := by
  constructor
  · intro hchecks hcompares
    obtain ⟨target, hprefix⟩ := log_findRemoved_of_compares rcni hcompares
    obtain ⟨later, hlog⟩ := hprefix.trans (Logged.log_prefix_bind _ _)
    exact absurd (hchecks [] target later hlog.symm) List.not_mem_nil
  · intro hcompares earlier target later hlog
    have hcheck : ∀ event ∈ (appendTargets rcni trimmed node targets).log,
        ∃ target, event = .check target := by
      refine Logged.forall_log_bind ?_ fun removed => Logged.forall_log_scan
        (fun position target adjacency => ?_) _ _ _
      · rw [log_findRemoved_of_not_compares rcni hcompares]
        exact nofun
      · refine Logged.forall_log_bind (fun event hevent => ⟨target, List.mem_singleton.mp hevent⟩)
          fun _ => Logged.forall_log_bind nofun fun _ => nofun
    obtain ⟨other, hother⟩ := hcheck (.read target) (by rw [hlog]; simp)
    cases hother

/-- For every record: it is refused or the scores are read only below the number of nodes, if
and only if it is not a record of a trimmed node whose neighbors are compared with one of them
out of range. All neighbors are checked before they are used, if and only if none are compared. -/
theorem appendRecord_safe_iff (layout : VectorLayout) (metadata : DiskLayoutMetadata)
    (rcni : NormalizedRcni metadata.pointCount.toNat) (trimmed : List UInt32) (node : Nat)
    (record : GraphRecord metadata) :
    (ReadsInside metadata.pointCount.toNat
        (appendRecord layout metadata rcni trimmed node record).log ↔
      ¬ (ReadsTargets layout node record ∧ UInt32.ofNat node ∈ trimmed ∧
        2 ≤ record.degree.toNat ∧
        ∃ target ∈ record.targets, metadata.pointCount.toNat ≤ target.toNat)) ∧
    (ChecksFirst (appendRecord layout metadata rcni trimmed node record).log ↔
      ¬ (ReadsTargets layout node record ∧ UInt32.ofNat node ∈ trimmed ∧
        2 ≤ record.degree.toNat)) := by
  rw [readsInside_iff, show (∀ event ∈ _, TrimEvent.Inside _ event) ↔ _ from
    guards_appendRecord layout rcni trimmed node record]
  rcases appendRecord_cases layout rcni trimmed node record with
    ⟨hreads, heq⟩ | ⟨hrefused, failure, hfailure, heq⟩
  · have hcompares : Compares trimmed node record.targets ↔
        UInt32.ofNat node ∈ trimmed ∧ 2 ≤ record.degree.toNat := compares_iff hreads.2.2
    rw [heq, outcome_appendTargets_iff, checksFirst_appendTargets_iff, hcompares]
    simp only [hreads, true_and, and_assoc]
  · rw [heq]
    refine ⟨iff_of_true (fun hfails => hfailure (Except.error.inj hfails)) fun hall =>
      hrefused hall.1, iff_of_true (fun earlier target later hlog => ?_) fun hall => hrefused hall.1⟩
    exact absurd hlog (by simp [Logged.ofExcept])

/-! A Base index of two nodes with two slots each, of which the first node is trimmed. -/

def twoSlots : DiskLayoutMetadata := ⟨2, 1, 16, 1, 2⟩

def twoScores : NormalizedRcni twoSlots.pointCount.toNat where
  scores := [.zero, .zero]
  complete := rfl

/-- The record of the first node, with both slots used. -/
def fullRecord (second : UInt32) : GraphRecord twoSlots where
  vector := [0, 0, 0, 0]
  degree := 2
  slots := [1, second]
  dimension := rfl
  width := rfl

/-- The second neighbor does not exist, and its score is read before anything is checked. -/
theorem appendRecord_safe_refuted :
    (appendRecord .cell4k twoSlots twoScores [0] 0 (fullRecord 7)).log = [.read 7] ∧
      ¬ ReadsInside 2 (appendRecord .cell4k twoSlots twoScores [0] 0 (fullRecord 7)).log ∧
      ¬ ChecksFirst (appendRecord .cell4k twoSlots twoScores [0] 0 (fullRecord 7)).log := by
  have hlog : (appendRecord .cell4k twoSlots twoScores [0] 0 (fullRecord 7)).log = [.read 7] := by
    decide +kernel
  refine ⟨hlog, fun hinside => ?_, fun hchecks => ?_⟩
  · exact absurd (hinside 7 (hlog ▸ List.mem_singleton_self _)) (by decide)
  · exact absurd (hchecks [] 7 [] hlog) List.not_mem_nil

end SkipCell.IoIndex

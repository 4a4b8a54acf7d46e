import SkipCell.Foundation.BitPacking
import SkipCell.Foundation.ByteReader

/-! # Group varints

An ascending list of words as the differences of its neighbors, four to a group. A
group begins with a tag of two bits for each difference, which say how many bytes
it takes.
-/

namespace Foundation

variable {Failure : Type}

/-- The bytes that a value needs, at least one. -/
def byteWidth (value : UInt32) : Nat :=
  if value ≤ 0xFF then 1
  else if value ≤ 0xFFFF then 2
  else if value ≤ 0xFFFFFF then 3
  else 4

/-- The differences of a list from a position on, behind `previous`. -/
def deltasFrom : Nat → UInt32 → List UInt32 → List UInt32
  | _, _, [] => []
  | position, previous, value :: values =>
    (if position = 0 then value else value - previous) :: deltasFrom (position + 1) value values

/-- Two bits for each width, less one, the first at the low end. -/
def groupTag (deltas : List UInt32) : UInt8 :=
  (packFields 2 0 [0] (deltas.map fun delta => .ofNat (byteWidth delta - 1))).headD 0

def encodeDelta (delta : UInt32) : List UInt8 := encodeLittle (byteWidth delta) delta.toNat

def encodeGroup (deltas : List UInt32) : List UInt8 := groupTag deltas :: deltas.flatMap encodeDelta

def encodeGroups : Nat → List UInt32 → List UInt8
  | 0, _ => []
  | groups + 1, deltas => encodeGroup (deltas.take 4) ++ encodeGroups groups (deltas.drop 4)

/-- The groups that so many values make, the last perhaps not full. -/
def groupCount (values : Nat) : Nat := (values + 3) / 4

def encodeGroupVarint (values : List UInt32) : List UInt8 :=
  encodeGroups (groupCount values.length) (deltasFrom 0 0 values)

structure GroupFailures (Failure : Type) where
  tag : Failure
  value : Failure
  overflow : Failure

def tagWidth (tag : UInt8) (index : Nat) : Nat := (unpackField 2 [tag] index).toNat + 1

/-- The value at a position, from the one before it and their difference. -/
def addDelta (overflow : Failure) (position : Nat) (value delta : UInt32) :
    Except Failure UInt32 :=
  if position ≠ 0 ∧ 2 ^ 32 - 1 - value.toNat < delta.toNat then .error overflow
  else .ok (if position = 0 then delta else value + delta)

/-- So many values of a group, from a position on. -/
def readGroup (failures : GroupFailures Failure) (tag : UInt8) :
    Nat → Nat → UInt32 → ByteReader Failure (List UInt32)
  | 0, _, _ => pure []
  | count + 1, position, value => do
    let delta ← readWord failures.value (tagWidth tag (position % 4))
    let value ← addDelta failures.overflow position value (.ofNat delta)
    let values ← readGroup failures tag count (position + 1) value
    pure (value :: values)

/-- So many groups of a list of `total` values, from a position on. -/
def readGroups (failures : GroupFailures Failure) (total : Nat) :
    Nat → Nat → UInt32 → ByteReader Failure (List UInt32)
  | 0, _, _ => pure []
  | groups + 1, position, value => do
    let tag ← readWord failures.tag 1
    let values ← readGroup failures (.ofNat tag) (min 4 (total - position)) position value
    let others ← readGroups failures total groups (position + 4) (values.getLastD value)
    pure (values ++ others)

def readGroupVarint (failures : GroupFailures Failure) (total : Nat) :
    ByteReader Failure (List UInt32) :=
  readGroups failures total (groupCount total) 0 0

theorem byteWidth_pos (value : UInt32) : 0 < byteWidth value := by
  unfold byteWidth
  split_ifs <;> decide

theorem byteWidth_le (value : UInt32) : byteWidth value ≤ 4 := by
  unfold byteWidth
  split_ifs <;> decide

theorem toNat_lt_byteWidth (value : UInt32) : value.toNat < 256 ^ byteWidth value := by
  have hvalue := value.toNat_lt
  unfold byteWidth
  split_ifs with hone htwo hthree
  · exact Nat.lt_succ_of_le (UInt32.le_iff_toNat_le.mp hone)
  · exact Nat.lt_succ_of_le (UInt32.le_iff_toNat_le.mp htwo)
  · exact Nat.lt_succ_of_le (UInt32.le_iff_toNat_le.mp hthree)
  · exact hvalue

variable {delta previous : UInt32} {values : List UInt32}

theorem tagWidth_groupTag {deltas : List UInt32} (hgroup : deltas.length ≤ 4) {index : Nat}
    (hdelta : deltas[index]? = some delta) :
    tagWidth (groupTag deltas) index = byteWidth delta := by
  have hpos := byteWidth_pos delta
  have hle := byteWidth_le delta
  let widths : List UInt8 := deltas.map fun delta => .ofNat (byteWidth delta - 1)
  have hbyte : [groupTag deltas] = packFields 2 0 (List.replicate 1 0) widths := by
    have hlength : (packFields 2 0 [0] widths).length = 1 := length_packFields 0 widths
    obtain ⟨byte, hbyte⟩ := List.length_eq_one_iff.mp hlength
    rw [groupTag, hbyte]
    exact hbyte.symm
  have hwidth : widths[index]? = some (.ofNat (byteWidth delta - 1)) := by
    rw [List.getElem?_map, hdelta]
    rfl
  have hsmall : ∀ width ∈ widths, width.toNat < 2 ^ 2 := by
    intro width hmem
    obtain ⟨other, -, rfl⟩ := List.mem_map.mp hmem
    have hother := byteWidth_le other
    rw [UInt8.toNat_ofNat']
    omega
  have hfits : widths.length * 2 ≤ 8 * 1 := by
    rw [List.length_map]
    omega
  rw [tagWidth, hbyte, unpackField_packFields (by decide) (by decide) hsmall hfits hwidth,
    UInt8.toNat_ofNat']
  omega

@[simp]
theorem length_deltasFrom (position : Nat) (previous : UInt32) (values : List UInt32) :
    (deltasFrom position previous values).length = values.length := by
  induction values generalizing position previous with
  | nil => rfl
  | cons value values ih => rw [deltasFrom, List.length_cons, ih, List.length_cons]

theorem take_deltasFrom (count position : Nat) (previous : UInt32) (values : List UInt32) :
    (deltasFrom position previous values).take count =
      deltasFrom position previous (values.take count) := by
  induction values generalizing count position previous with
  | nil => rw [List.take_nil, deltasFrom, List.take_nil]
  | cons value values ih =>
    cases count with
    | zero => rfl
    | succ count => rw [deltasFrom, List.take_succ_cons, ih, List.take_succ_cons, deltasFrom]

theorem drop_deltasFrom (count position : Nat) (previous : UInt32) (values : List UInt32) :
    (deltasFrom position previous values).drop count =
      deltasFrom (position + count) ((values.take count).getLastD previous)
        (values.drop count) := by
  induction values generalizing count position previous with
  | nil => rw [List.drop_nil, deltasFrom, List.drop_nil, deltasFrom]
  | cons value values ih =>
    cases count with
    | zero => rfl
    | succ count =>
      rw [deltasFrom, List.drop_succ_cons, ih, List.take_succ_cons, List.getLastD_cons,
        List.drop_succ_cons, Nat.add_assoc, Nat.add_comm 1]

theorem pairwise_drop (hsorted : (previous :: values).Pairwise (· ≤ ·)) (count : Nat) :
    ((values.take count).getLastD previous :: values.drop count).Pairwise (· ≤ ·) := by
  induction values generalizing count previous with
  | nil => simp
  | cons value values ih =>
    cases count with
    | zero => exact hsorted
    | succ count =>
      rw [List.take_succ_cons, List.getLastD_cons, List.drop_succ_cons]
      exact ih (List.pairwise_cons.mp hsorted).2 count

theorem addDelta_delta (overflow : Failure) (position : Nat) {value : UInt32}
    (hle : previous ≤ value) :
    addDelta overflow position previous (if position = 0 then value else value - previous) =
      .ok value := by
  unfold addDelta
  by_cases hfirst : position = 0
  · simp [hfirst]
  · have hvalue := value.toNat_lt
    have hfits : ¬ 2 ^ 32 - 1 - previous.toNat < (value - previous).toNat := by
      rw [UInt32.toNat_sub_of_le _ _ hle]
      omega
    have hback : previous + (value - previous) = value := by
      rw [UInt32.add_comm, UInt32.sub_add_cancel]
    simp only [if_neg hfirst]
    rw [if_neg (fun hwide => hfits hwide.2), hback]

variable (failures : GroupFailures Failure)

theorem reads_lift {α : Type} {outcome : Except Failure α} {value : α} (hok : outcome = .ok value) :
    Reads (liftM outcome : ByteReader Failure α) [] value := by
  subst hok
  exact fun _ => rfl

theorem reads_delta {tag : UInt8} {index : Nat} (hwidth : tagWidth tag index = byteWidth delta) :
    Reads (readWord failures.value (tagWidth tag index)) (encodeDelta delta) delta.toNat := by
  rw [hwidth]
  exact .word failures.value (toNat_lt_byteWidth delta)

theorem reads_group {tag : UInt8} {position : Nat} (hsorted : (previous :: values).Pairwise (· ≤ ·))
    (htag : ∀ index delta, (deltasFrom position previous values)[index]? = some delta →
      tagWidth tag ((position + index) % 4) = byteWidth delta) :
    Reads (readGroup failures tag values.length position previous)
      ((deltasFrom position previous values).flatMap encodeDelta) values := by
  induction values generalizing position previous with
  | nil => exact .pure []
  | cons value values ih =>
    obtain ⟨hprevious, hrest⟩ := List.pairwise_cons.mp hsorted
    have hdelta := addDelta_delta failures.overflow position (hprevious value List.mem_cons_self)
    have hvalues := ih hrest fun index delta hdelta => by
      have hshift := htag (index + 1) delta hdelta
      rwa [← Nat.add_assoc, Nat.add_right_comm] at hshift
    rw [deltasFrom, List.flatMap_cons]
    refine (reads_delta failures (htag 0 _ rfl)).bind ?_
    rw [UInt32.ofNat_toNat, ← List.nil_append (List.flatMap encodeDelta _)]
    refine (reads_lift hdelta).bind ?_
    rw [← List.append_nil (List.flatMap encodeDelta _)]
    exact hvalues.bind (.pure _)

theorem reads_groups {groups position : Nat} (hsorted : (previous :: values).Pairwise (· ≤ ·))
    (haligned : position % 4 = 0) (hgroups : groupCount values.length = groups) :
    Reads (readGroups failures (position + values.length) groups position previous)
      (encodeGroups groups (deltasFrom position previous values)) values := by
  induction groups generalizing position previous values with
  | zero =>
    have hnone : values.length = 0 := by
      rw [groupCount] at hgroups
      omega
    obtain rfl := List.length_eq_zero_iff.mp hnone
    exact .pure []
  | succ groups ih =>
    have hcount : min 4 (position + values.length - position) = (values.take 4).length := by
      rw [List.length_take, Nat.add_sub_cancel_left]
    have hlater : groupCount (values.drop 4).length = groups := by
      rw [groupCount] at hgroups ⊢
      rw [List.length_drop]
      omega
    have htaken : (previous :: values.take 4).Pairwise (· ≤ ·) :=
      hsorted.sublist ((List.take_sublist 4 values).cons_cons previous)
    have hgroup : (deltasFrom position previous (values.take 4)).length ≤ 4 := by
      rw [length_deltasFrom, List.length_take]
      exact Nat.min_le_left _ _
    have hdropped : position + values.length = position + 4 + (values.drop 4).length ∨
        values.drop 4 = [] := by
      by_cases hlong : 4 ≤ values.length
      · exact .inl (by rw [List.length_drop]; omega)
      · exact .inr (List.drop_eq_nil_iff.mpr (by omega))
    have hothers : Reads
        (readGroups failures (position + values.length) groups (position + 4)
          ((values.take 4).getLastD previous))
        (encodeGroups groups (deltasFrom (position + 4) ((values.take 4).getLastD previous)
          (values.drop 4))) (values.drop 4) := by
      rcases hdropped with htotal | hnone
      · rw [htotal]
        exact ih (pairwise_drop hsorted 4) (by omega) hlater
      · rw [hnone] at hlater ⊢
        obtain rfl : 0 = groups := hlater
        exact .pure []
    rw [encodeGroups, take_deltasFrom, drop_deltasFrom, encodeGroup, readGroups, hcount]
    have htag : Reads (readWord failures.tag 1)
        [groupTag (deltasFrom position previous (values.take 4))]
        (groupTag (deltasFrom position previous (values.take 4))).toNat := by
      have hsmall : (groupTag (deltasFrom position previous (values.take 4))).toNat < 256 ^ 1 :=
        (groupTag (deltasFrom position previous (values.take 4))).toNat_lt
      simpa [encodeLittle] using Reads.word failures.tag hsmall
    rw [← List.singleton_append, List.append_assoc]
    refine htag.bind ?_
    rw [UInt8.ofNat_toNat]
    refine (reads_group failures htaken fun index delta hdelta => ?_).bind ?_
    · have hindex := (List.getElem_of_getElem? hdelta).1
      have hposition : (position + index) % 4 = index := by omega
      rw [hposition]
      exact tagWidth_groupTag hgroup hdelta
    · rw [← List.append_nil (encodeGroups _ _)]
      refine hothers.bind ?_
      rw [List.take_append_drop]
      exact .pure values

theorem reads_groupVarint (hsorted : values.Pairwise (· ≤ ·)) :
    Reads (readGroupVarint failures values.length) (encodeGroupVarint values) values := by
  have hstart : ((0 : UInt32) :: values).Pairwise (· ≤ ·) :=
    List.pairwise_cons.mpr ⟨fun value _ => UInt32.zero_le, hsorted⟩
  have hreads := reads_groups failures hstart (Nat.zero_mod 4) rfl
  rwa [Nat.zero_add] at hreads

end Foundation

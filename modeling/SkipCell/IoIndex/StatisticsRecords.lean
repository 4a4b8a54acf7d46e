import SkipCell.Foundation.Scatter
import SkipCell.IoIndex.AdjacencyStatistics
import SkipCell.IoIndex.Sections

/-! # Records of the group varint artifact

A record is decoded to the list it was written from, in the order of the list or
sorted.
-/

namespace SkipCell.IoIndex.AdjacencyStatistics

open Foundation Sidecar

abbrev sortedList (list : List UInt32) : List UInt32 := list.mergeSort (decide <| · ≤ ·)

variable {list : List UInt32}

theorem sortedList_pairwise (list : List UInt32) : (sortedList list).Pairwise (· ≤ ·) := by
  have hsorted : (sortedList list).Pairwise fun left right => decide (left ≤ right) = true := by
    apply List.pairwise_mergeSort
    · intro first second third
      simp only [decide_eq_true_eq]
      exact UInt32.le_trans
    · intro first second
      simp only [← Bool.decide_or, decide_eq_true_eq]
      exact UInt32.le_total first second
  simpa only [decide_eq_true_eq] using hsorted

theorem orderedNeighbors_perm (list : List UInt32) :
    (orderedNeighbors list).Perm
      (list.mapIdx fun position target => (target, UInt8.ofNat position)) :=
  List.mergeSort_perm _ _

theorem length_orderedNeighbors (list : List UInt32) :
    (orderedNeighbors list).length = list.length := by
  rw [(orderedNeighbors_perm list).length_eq, List.length_mapIdx]

theorem orderedNeighbors_pairwise (list : List UInt32) :
    (orderedNeighbors list).Pairwise fun left right =>
      left.1 < right.1 ∨ left.1 = right.1 ∧ left.2 ≤ right.2 := by
  have hsorted : (orderedNeighbors list).Pairwise fun left right =>
      decide (left.1 < right.1 ∨ left.1 = right.1 ∧ left.2 ≤ right.2) = true := by
    apply List.pairwise_mergeSort
    · intro first second third
      simp only [decide_eq_true_eq]
      rintro (hfirst | ⟨hfirst, hleft⟩) (hsecond | ⟨hsecond, hright⟩)
      · exact .inl (UInt32.lt_trans hfirst hsecond)
      · exact .inl (hsecond ▸ hfirst)
      · exact .inl (hfirst ▸ hsecond)
      · exact .inr ⟨hfirst.trans hsecond, UInt8.le_trans hleft hright⟩
    · intro first second
      simp only [← Bool.decide_or, decide_eq_true_eq]
      rcases Nat.lt_trichotomy first.1.toNat second.1.toNat with hless | hsame | hgreater
      · exact .inl (.inl (UInt32.lt_iff_toNat_lt.mpr hless))
      · rcases UInt8.le_total first.2 second.2 with hle | hle
        · exact .inl (.inr ⟨UInt32.toNat_inj.mp hsame, hle⟩)
        · exact .inr (.inr ⟨UInt32.toNat_inj.mp hsame.symm, hle⟩)
      · exact .inr (.inl (UInt32.lt_iff_toNat_lt.mpr hgreater))
  simpa only [decide_eq_true_eq] using hsorted

theorem map_fst_orderedNeighbors (list : List UInt32) :
    (orderedNeighbors list).map Prod.fst = sortedList list := by
  have hperm : ((orderedNeighbors list).map Prod.fst).Perm (sortedList list) := by
    refine ((orderedNeighbors_perm list).map Prod.fst).trans ?_
    have hlist : (list.mapIdx fun position target => (target, UInt8.ofNat position)).map Prod.fst =
        list := by
      apply List.ext_getElem?
      intro position
      rw [List.getElem?_map, List.getElem?_mapIdx, Option.map_map]
      exact Option.map_id'
    rw [hlist]
    exact (List.mergeSort_perm _ _).symm
  have hordered : ((orderedNeighbors list).map Prod.fst).Pairwise (· ≤ ·) := by
    rw [List.pairwise_map]
    apply (orderedNeighbors_pairwise list).imp
    rintro left right (hless | ⟨hsame, -⟩)
    · exact UInt32.le_of_lt hless
    · exact hsame ▸ UInt32.le_refl _
  exact hperm.eq_of_pairwise (fun _ _ _ _ => UInt32.le_antisymm) hordered (sortedList_pairwise list)

theorem getElem?_of_mem_ordered (hdegree : list.length ≤ 256) {pair : UInt32 × UInt8}
    (hpair : pair ∈ orderedNeighbors list) : list[pair.2.toNat]? = some pair.1 := by
  have hindexed := (orderedNeighbors_perm list).mem_iff.mp hpair
  obtain ⟨position, hposition⟩ := List.mem_iff_getElem?.mp hindexed
  rw [List.getElem?_mapIdx, Option.map_eq_some_iff] at hposition
  obtain ⟨target, htarget, rfl⟩ := hposition
  have hlength := (List.getElem_of_getElem? htarget).1
  have hvalue : (UInt8.ofNat position).toNat = position := by
    rw [UInt8.toNat_ofNat']
    omega
  rwa [hvalue]

theorem positions_perm (hdegree : list.length ≤ 256) :
    ((orderedNeighbors list).map fun pair => pair.2.toNat).Perm (List.range list.length) := by
  refine ((orderedNeighbors_perm list).map _).trans (.of_eq ?_)
  apply List.ext_getElem?
  intro position
  rw [List.getElem?_map, List.getElem?_mapIdx]
  by_cases hposition : position < list.length
  · have hvalue : (UInt8.ofNat position).toNat = position := by
      rw [UInt8.toNat_ofNat']
      omega
    rw [List.getElem?_eq_getElem hposition, List.getElem?_range hposition]
    simp only [Option.map_some, hvalue]
  · have hlist : list[position]? = none := List.getElem?_eq_none (Nat.not_lt.mp hposition)
    have hrange : (List.range list.length)[position]? = none :=
      List.getElem?_eq_none (by simpa using hposition)
    rw [hlist, hrange]
    rfl

theorem permutationBits_le {degree : Nat} (hdegree : degree ≤ 255) : permutationBits degree ≤ 8 := by
  unfold permutationBits
  split
  · omega
  · have hlog : (degree - 1).log2 < 8 := (Nat.log2_lt (by omega)).mpr (by omega)
    omega

theorem position_lt {degree position : Nat} (hposition : position < degree)
    (hbits : permutationBits degree ≠ 0) : position < 2 ^ permutationBits degree := by
  unfold permutationBits at hbits ⊢
  split at hbits
  · exact absurd rfl hbits
  next hmany =>
    rw [if_neg hmany]
    exact Nat.lt_of_le_of_lt (Nat.le_sub_one_of_lt hposition) Nat.lt_log2_self

theorem length_packedPermutation (list : List UInt32) :
    (packedPermutation (orderedNeighbors list) (permutationBits list.length)).length =
      permutationSize list.length := by
  unfold packedPermutation permutationSize
  split
  next hnone => simp [hnone]
  next => rw [length_packFields, List.length_replicate, length_orderedNeighbors]

section

variable (hdegree : list.length ≤ 255) {index : Nat} {pair : UInt32 × UInt8}
  (hpair : (orderedNeighbors list)[index]? = some pair)
include hdegree hpair

theorem readPackedPermutation_packed :
    readPackedPermutation (packedPermutation (orderedNeighbors list) (permutationBits list.length))
      index (permutationBits list.length) = pair.2 := by
  have hinside : ∀ pair ∈ orderedNeighbors list, pair.2.toNat < list.length := by
    intro pair hmem
    exact (List.getElem_of_getElem? (getElem?_of_mem_ordered (by omega) hmem)).1
  have hmem := List.mem_of_getElem? hpair
  unfold readPackedPermutation packedPermutation
  by_cases hnone : permutationBits list.length = 0
  · rw [if_pos hnone]
    have hsingle : list.length ≤ 1 := by
      unfold permutationBits at hnone
      split at hnone
      · assumption
      · cases hnone
    apply UInt8.toNat_inj.mp
    have hposition := hinside pair hmem
    have hzero : (0 : UInt8).toNat = 0 := rfl
    omega
  · rw [if_neg hnone, if_neg hnone]
    refine unpackField_packFields (permutationBits_le hdegree) (Nat.pos_of_ne_zero hnone) ?_ ?_ ?_
    · intro value hvalue
      obtain ⟨other, hother, rfl⟩ := List.mem_map.mp hvalue
      exact position_lt (hinside other hother) hnone
    · rw [List.length_map]
      omega
    · rw [List.getElem?_map, hpair]
      rfl

theorem restoreStep_eq_put {places : List Nat} {state : List UInt32 × List Bool}
    (hplaced : Placed list places state) :
    restoreStep (packedPermutation (orderedNeighbors list) (permutationBits list.length))
        list.length index pair.1 state =
      put (.runtimeError "GroupVarint permutation is invalid") pair.2.toNat pair.1 state := by
  have hvalue := getElem?_of_mem_ordered (by omega) (List.mem_of_getElem? hpair)
  have hinside : pair.2.toNat < list.length := (List.getElem_of_getElem? hvalue).1
  have houtside : ¬ list.length ≤ pair.2.toNat := Nat.not_le.mpr hinside
  simp only [restoreStep, put, readPackedPermutation_packed hdegree hpair, houtside, false_or]

end

theorem restore_ok (hdegree : list.length ≤ 255) :
    restore (packedPermutation (orderedNeighbors list) (permutationBits list.length)) list.length
      (sortedList list) = .ok list := by
  have hperm : ((orderedNeighbors list).map fun pair => pair.2.toNat).Perm
      (List.range list.length) := positions_perm (by omega)
  have hvalues : ∀ pair ∈ orderedNeighbors list, list[pair.2.toNat]? = some pair.1 :=
    fun pair => getElem?_of_mem_ordered (by omega)
  obtain ⟨marks, hscan⟩ := scan_restores hperm hvalues
    fun index pair state hpair hplaced => restoreStep_eq_put hdegree hpair hplaced
  rw [← map_fst_orderedNeighbors, restore, scan_map]
  exact bind_ok.mpr ⟨_, hscan, rfl⟩

def recordPermutation (preserve : Bool) (list : List UInt32) : List UInt8 :=
  if preserve then packedPermutation (orderedNeighbors list) (permutationBits list.length) else []

theorem length_recordPermutation (preserve : Bool) (list : List UInt32) :
    (recordPermutation preserve list).length =
      if preserve then permutationSize list.length else 0 := by
  cases preserve with
  | false => rfl
  | true => exact length_packedPermutation list

theorem readDegree_record (preserve : Bool) (hdegree : list.length ≤ 255) :
    readDegree (recordBytes preserve list) =
      .ok (list.length, recordPermutation preserve list ++ encodeGroupVarint (sortedList list)) := by
  have hsmall : list.length < 256 ^ 1 := by omega
  have hread := Reads.word (Error.runtimeError "truncated GroupVarint degree") hsmall
    (recordPermutation preserve list ++ encodeGroupVarint (sortedList list))
  rw [← map_fst_orderedNeighbors] at hread ⊢
  exact hread

theorem readBody_record (preserve : Bool) (list : List UInt32) :
    readBody preserve list.length
        (recordPermutation preserve list ++ encodeGroupVarint (sortedList list)) =
      .ok (recordPermutation preserve list, sortedList list) := by
  have hlength := length_recordPermutation preserve list
  have hsorted : (sortedList list).length = list.length := List.length_mergeSort _
  have hread := (reads_groupVarint groupFailures (sortedList_pairwise list)).all
    (.runtimeError "GroupVarint record has trailing bytes")
  rw [hsorted] at hread
  simp only [readBody, bind_ok, reject_ok, ← hlength, List.drop_left, List.take_left]
  refine ⟨(), ?_, _, hread, rfl⟩
  rw [List.length_append]
  omega

end SkipCell.IoIndex.AdjacencyStatistics

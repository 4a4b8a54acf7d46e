import SkipCell.IoIndex.CompressedAdjacency

/-! # Decompressing what was compressed

A list of up to 256 neighbors has a position for each of them in one byte. In a longer list
two neighbors share a position, which the decoder refuses.
-/

namespace SkipCell.IoIndex.PForDelta

open Foundation Sidecar AdjacencyStatistics

variable {codec : Codec} {maxDegree : UInt32} {list : List UInt32}

theorem le_paddedLength (degree : Nat) : degree ≤ paddedLength degree := by
  unfold paddedLength
  split <;> omega

theorem length_codecInput (ordered : List (UInt32 × UInt8)) :
    (codecInput ordered).length = paddedLength ordered.length := by
  have hle := le_paddedLength ordered.length
  rw [codecInput, List.length_append, List.length_map, List.length_replicate]
  omega

theorem codecInput_pairwise (list : List UInt32) :
    (codecInput (orderedNeighbors list)).Pairwise (· ≤ ·) := by
  have hsorted : ((orderedNeighbors list).map Prod.fst).Pairwise (· ≤ ·) := by
    rw [map_fst_orderedNeighbors]
    exact sortedList_pairwise list
  refine List.pairwise_append.mpr ⟨hsorted, ?_, ?_⟩
  · exact List.pairwise_replicate.mpr (.inr (UInt32.le_refl _))
  · intro value hvalue padding hpadding
    obtain rfl := List.eq_of_mem_replicate hpadding
    rw [← List.getLast?_map]
    obtain ⟨last, hlast⟩ : ∃ last, ((orderedNeighbors list).map Prod.fst).getLast? = some last :=
      Option.ne_none_iff_exists'.mp fun hnone =>
        List.ne_nil_of_mem hvalue (List.getLast?_eq_none_iff.mp hnone)
    rw [hlast, Option.getD_some]
    obtain ⟨front, hfront⟩ := List.getLast?_eq_some_iff.mp hlast
    rw [hfront] at hvalue hsorted
    rcases List.mem_append.mp hvalue with hbefore | hsame
    · exact (List.pairwise_append.mp hsorted).2.2 value hbefore last (List.mem_singleton_self last)
    · rw [List.mem_singleton.mp hsame]
      exact UInt32.le_refl _

theorem paddedDegree_eq {degree : Nat} (hdegree : degree ≤ 256) :
    paddedDegree (.ofNat degree) = paddedLength degree := by
  have hvalue : (UInt32.ofNat degree).toNat = degree :=
    UInt32.toNat_ofNat_of_lt' (show degree < 2 ^ 32 by omega)
  have hzero : UInt32.ofNat degree = 0 ↔ degree = 0 := by
    rw [← UInt32.toNat_inj, hvalue]
    rfl
  simp only [paddedDegree, paddedLength, hzero, UInt32.toNat_mul, UInt32.toNat_div,
    UInt32.toNat_add, hvalue]
  split
  next => rfl
  next =>
    simp only [UInt32.reduceToNat]
    omega

def compressedList (codec : Codec) (list : List UInt32) : List UInt32 :=
  if list.length = 0 then [] else codec.encodeArray (codecInput (orderedNeighbors list))

def positions (list : List UInt32) : List UInt8 := (orderedNeighbors list).map Prod.snd

def padding (list : List UInt32) : List UInt8 :=
  List.replicate ((4 - (8 + list.length) % 4) % 4) 0

/-- The record of a list, at the start of a word. -/
def record (codec : Codec) (list : List UInt32) : List UInt8 :=
  appendU32Le (.ofNat list.length) ++ (appendU32Le (.ofNat (compressedList codec list).length) ++
    (positions list ++ (padding list ++ (compressedList codec list).flatMap appendU32Le)))

@[simp]
theorem length_positions (list : List UInt32) : (positions list).length = list.length := by
  rw [positions, List.length_map, length_orderedNeighbors]

theorem length_flatMap_u32 (values : List UInt32) :
    (values.flatMap appendU32Le).length = 4 * values.length := by
  induction values with
  | nil => rfl
  | cons value values ih =>
    rw [List.flatMap_cons, List.length_append, ih, length_appendU32Le, List.length_cons]
    omega

theorem length_record (codec : Codec) (list : List UInt32) :
    (record codec list).length =
      alignedCursor (8 + list.length) + (compressedList codec list).length * 4 := by
  simp only [record, List.length_append, length_appendU32Le, length_positions, padding,
    List.length_replicate, length_flatMap_u32, alignedCursor]
  omega

theorem record_aligned (codec : Codec) (list : List UInt32) : 4 ∣ (record codec list).length := by
  rw [length_record, alignedCursor]
  omega

theorem appendRecord_eq {output : List UInt8} (haligned : 4 ∣ output.length)
    (list : List UInt32) : appendRecord codec output list = output ++ record codec list := by
  have hlength : (output ++ (appendU32Le (.ofNat list.length) ++
      appendU32Le (.ofNat (compressedList codec list).length) ++ positions list)).length =
      output.length + (8 + list.length) := by
    simp only [List.length_append, length_appendU32Le, length_positions]
  have hpadding : (output.length + (8 + list.length)) % 4 = (8 + list.length) % 4 := by omega
  change alignOutput (output ++ (appendU32Le (.ofNat list.length) ++
      appendU32Le (.ofNat (compressedList codec list).length) ++ positions list)) ++
      (compressedList codec list).flatMap appendU32Le = _
  rw [alignOutput, hlength, hpadding]
  simp only [record, padding, List.append_assoc]

theorem drop_record (codec : Codec) (list : List UInt32) :
    (record codec list).drop (alignedCursor (8 + list.length)) =
      (compressedList codec list).flatMap appendU32Le := by
  have hsplit : record codec list = (appendU32Le (.ofNat list.length) ++
      appendU32Le (.ofNat (compressedList codec list).length) ++ positions list ++ padding list) ++
      (compressedList codec list).flatMap appendU32Le := by
    simp only [record, List.append_assoc]
  rw [hsplit]
  apply List.drop_left'
  simp only [List.length_append, length_appendU32Le, length_positions, padding,
    List.length_replicate, alignedCursor]
  omega

/-- What the decoder of a record does behind its two counts. -/
theorem decompressRecord_eq_ok (hlist : list.length < 2 ^ 32) {result : List UInt32} :
    decompressRecord codec maxDegree (record codec list) = .ok result ↔
      list.length ≤ maxDegree.toNat ∧
      (∀ position ∈ positions list, position.toNat < list.length) ∧
      (compressedList codec list).length < 2 ^ 32 ∧
      ∃ sorted marks, decodeSorted codec (compressedList codec list) (.ofNat list.length) =
          .ok sorted ∧
        putAll duplicates (sorted.zip ((positions list).map UInt8.toNat))
          (List.replicate list.length 0, List.replicate list.length false) =
            .ok (result, marks) := by
  have hdegree : (UInt32.ofNat list.length).toNat = list.length :=
    UInt32.toNat_ofNat_of_lt' hlist
  have hfirst : readU32 "PForDelta degree" (record codec list) = .ok (.ofNat list.length, _) :=
    reads_narrow _ _ _
  have hsecond : ∀ rest, readU32 "PForDelta word count"
      (appendU32Le (.ofNat (compressedList codec list).length) ++ rest) = .ok (_, rest) :=
    reads_narrow _ _
  simp only [decompressRecord, hfirst, hsecond, bind_ok, Except.ok.injEq,
    exists_eq_left', hdegree, List.take_left' (length_positions list), drop_record, reject_ok]
  have hrecord := length_record codec list
  have haligned : 8 + list.length ≤ alignedCursor (8 + list.length) := by
    unfold alignedCursor
    omega
  have hlimit : ¬ (maxDegree < UInt32.ofNat list.length ∨
      (record codec list).length < 8 + list.length) ↔ list.length ≤ maxDegree.toNat := by
    rw [UInt32.lt_iff_toNat_lt, hdegree]
    omega
  have hsize : ¬ (((record codec list).length - alignedCursor (8 + list.length)) / 4 <
        (UInt32.ofNat (compressedList codec list).length).toNat ∨
      alignedCursor (8 + list.length) +
        (UInt32.ofNat (compressedList codec list).length).toNat * 4 ≠
          (record codec list).length) ↔ (compressedList codec list).length < 2 ^ 32 := by
    rw [UInt32.toNat_ofNat', hrecord]
    omega
  have hread : (compressedList codec list).length < 2 ^ 32 →
      readMany (readU32 "PForDelta word") (UInt32.ofNat (compressedList codec list).length).toNat
        ((compressedList codec list).flatMap appendU32Le) = .ok (compressedList codec list, []) := by
    intro hwords
    have hall : Reads (readMany (readU32 "PForDelta word") (compressedList codec list).length)
        ((compressedList codec list).flatMap appendU32Le) (compressedList codec list) :=
      Reads.many fun value _ => reads_narrow "PForDelta word" value
    have hread := hall []
    rwa [List.append_nil, ← UInt32.toNat_ofNat_of_lt' hwords] at hread
  rw [hlimit, hsize]
  constructor
  · rintro ⟨-, hdegrees, -, hplaces, -, hwords, compressed, hcompressed, sorted, hsorted,
      ⟨neighbors, marks⟩, hput, rfl⟩
    rw [hread hwords] at hcompressed
    obtain rfl := Except.ok.inj hcompressed
    refine ⟨hdegrees, fun position hposition => ?_, hwords, sorted, marks, hsorted, hput⟩
    exact Nat.not_le.mp fun hle =>
      hplaces ⟨_, List.mem_map_of_mem hposition, hle⟩
  · rintro ⟨hdegrees, hplaces, hwords, sorted, marks, hsorted, hput⟩
    refine ⟨(), hdegrees, (), ?_, (), hwords, _, hread hwords, sorted, hsorted, _, hput, rfl⟩
    rintro ⟨_, hposition, hle⟩
    obtain ⟨position, hmem, rfl⟩ := List.mem_map.mp hposition
    exact absurd (hplaces position hmem) (Nat.not_lt.mpr hle)

theorem decodeSorted_eq (hlossless : codec.Lossless) (hlist : list.length ≤ 256) :
    decodeSorted codec (compressedList codec list) (.ofNat list.length) =
      .ok (codecInput (orderedNeighbors list)) := by
  have hdegree : (UInt32.ofNat list.length).toNat = list.length :=
    UInt32.toNat_ofNat_of_lt' (show list.length < 2 ^ 32 by omega)
  have hlength := length_orderedNeighbors list
  by_cases hempty : list.length = 0
  · have hnone : orderedNeighbors list = [] := List.length_eq_zero_iff.mp (hlength.trans hempty)
    rw [hempty, hnone]
    rfl
  · have hsome : UInt32.ofNat list.length ≠ 0 := by
      intro hzero
      rw [hzero] at hdegree
      exact hempty hdegree.symm
    have hinput : (codecInput (orderedNeighbors list)).length = paddedDegree (.ofNat list.length) := by
      rw [length_codecInput, hlength, paddedDegree_eq hlist]
    have hblocks : 128 ∣ (codecInput (orderedNeighbors list)).length := by
      rw [length_codecInput, hlength, paddedLength, if_neg hempty]
      exact Nat.dvd_mul_left _ _
    have hdecoded := hlossless.decode_encode _ (codecInput_pairwise list) hblocks
    rw [hinput] at hdecoded
    have hlong : ¬ (codecInput (orderedNeighbors list)).length < list.length := by
      rw [length_codecInput, hlength]
      exact Nat.not_lt.mpr (le_paddedLength list.length)
    rw [decodeSorted, if_neg hsome, compressedList, if_neg hempty, hdecoded, hdegree]
    exact bind_ok.mpr ⟨(), reject_ok.mpr hlong, rfl⟩

theorem decompressRecord_record (hlossless : codec.Lossless)
    (hdegree : list.length ≤ maxDegree.toNat) (hlist : list.length ≤ 256) :
    decompressRecord codec maxDegree (record codec list) = .ok list := by
  have hvalues : ∀ pair ∈ orderedNeighbors list, list[pair.2.toNat]? = some pair.1 :=
    fun pair => getElem?_of_mem_ordered hlist
  have hpairs : (codecInput (orderedNeighbors list)).zip ((positions list).map UInt8.toNat) =
      (orderedNeighbors list).map fun pair => (pair.1, pair.2.toNat) := by
    have hlengths : ((orderedNeighbors list).map Prod.fst).length =
        ((positions list).map UInt8.toNat).length := by
      rw [List.length_map, List.length_map, length_positions, length_orderedNeighbors]
    rw [codecInput, ← List.append_nil ((positions list).map UInt8.toNat), List.zip_append hlengths,
      List.zip_nil_right, List.append_nil, positions, List.map_map, List.zip_map']
    rfl
  have hperm : (((orderedNeighbors list).map fun pair => (pair.1, pair.2.toNat)).map
      Prod.snd).Perm (List.range list.length) := by
    rw [List.map_map]
    exact positions_perm hlist
  have hwords : (compressedList codec list).length < 2 ^ 32 := by
    have hencoded := hlossless.length_encode (codecInput (orderedNeighbors list))
    rw [length_codecInput, length_orderedNeighbors, paddedLength] at hencoded
    by_cases hempty : list.length = 0
    · rw [compressedList, if_pos hempty]
      exact Nat.two_pow_pos 32
    · rw [if_neg hempty] at hencoded
      rw [compressedList, if_neg hempty]
      omega
  have hput : ∃ marks, putAll duplicates
      ((orderedNeighbors list).map fun pair => (pair.1, pair.2.toNat))
      (List.replicate list.length 0, List.replicate list.length false) = .ok (list, marks) := by
    apply putAll_restores hperm
    intro pair hpair
    obtain ⟨original, horiginal, rfl⟩ := List.mem_map.mp hpair
    exact hvalues original horiginal
  obtain ⟨marks, hput⟩ := hput
  refine (decompressRecord_eq_ok (by omega)).mpr ⟨hdegree, fun position hposition => ?_, hwords, _,
    marks, decodeSorted_eq hlossless hlist, by rwa [hpairs]⟩
  obtain ⟨pair, hpair, rfl⟩ := List.mem_map.mp hposition
  exact (List.getElem_of_getElem? (hvalues pair hpair)).1

theorem length_of_decompressRecord (hlist : list.length < 2 ^ 32) {result : List UInt32}
    (hdecoded : decompressRecord codec maxDegree (record codec list) = .ok result) :
    list.length ≤ 256 := by
  obtain ⟨-, -, -, sorted, marks, hsorted, hput⟩ := (decompressRecord_eq_ok hlist).mp hdecoded
  have hdegree : (UInt32.ofNat list.length).toNat = list.length :=
    UInt32.toNat_ofNat_of_lt' hlist
  have hlong : list.length ≤ sorted.length := by
    unfold decodeSorted at hsorted
    split at hsorted
    next hzero =>
      rw [← hdegree, hzero]
      exact Nat.zero_le _
    next =>
      simp only [bind_ok, reject_ok, Except.ok.injEq, hdegree] at hsorted
      obtain ⟨-, hlong, rfl⟩ := hsorted
      exact Nat.not_lt.mp hlong
  have hnodup := putAll_nodup hput
  rw [List.map_snd_zip (by rwa [List.length_map, length_positions])] at hnodup
  have hsubset : (positions list).map UInt8.toNat ⊆ List.range 256 := by
    intro place hplace
    obtain ⟨position, -, rfl⟩ := List.mem_map.mp hplace
    exact List.mem_range.mpr position.toNat_lt
  have hlength := (List.subperm_of_subset hnodup hsubset).length_le
  rwa [List.length_map, length_positions, List.length_range] at hlength

theorem records_aligned (codec : Codec) (rows : List (List UInt32)) :
    4 ∣ (rows.map (record codec)).flatten.length := by
  induction rows with
  | nil => exact Nat.dvd_zero 4
  | cons row rows ih =>
    rw [List.map_cons, List.flatten_cons, List.length_append]
    exact Nat.dvd_add (record_aligned codec row) ih

theorem compressAdjacency_rows (codec : Codec) (rows : List (List UInt32)) :
    compressAdjacency codec (rowOffsets rows) rows.flatten =
      (rowOffsets (rows.map (record codec)), (rows.map (record codec)).flatten) := by
  have hlength : (rows.map (record codec)).length = rows.length := List.length_map _
  have hloop : ∀ node ≤ rows.length,
      (List.range node).foldl (compressNode codec (rowOffsets rows) rows.flatten) ([], []) =
        ((rowOffsets (rows.map (record codec))).take node,
          ((rows.map (record codec)).take node).flatten) := by
    intro node hnode
    induction node with
    | zero => rfl
    | succ node ih =>
      obtain ⟨-, -, hrow⟩ := subspan_rowOffsets (List.getElem?_eq_getElem hnode)
      have haligned := records_aligned codec (rows.take node)
      rw [List.map_take] at haligned
      have hrecord : (rows.map (record codec))[node]? = some (record codec rows[node]) := by
        rw [List.getElem?_map, List.getElem?_eq_getElem hnode]
        rfl
      rw [List.range_succ, List.foldl_append, ih (by omega), List.foldl_cons, List.foldl_nil,
        compressNode, hrow, appendRecord_eq haligned, take_rowOffsets_succ (by omega),
        flatten_take_succ hrecord]
  have hnodes := hloop rows.length (Nat.le_refl _)
  rw [← hlength, List.take_length] at hnodes
  rw [compressAdjacency, length_rowOffsets, Nat.add_sub_cancel, ← hlength, hnodes]
  exact congrArg (·, _) (take_rowOffsets_length _)

theorem decompressAdjacency_rows {rows : List (List UInt32)}
    (hrows : ∀ row ∈ rows, decompressRecord codec maxDegree (record codec row) = .ok row) :
    decompressAdjacency codec (rowOffsets (rows.map (record codec)))
      (rows.map (record codec)).flatten rows.flatten.length maxDegree =
        .ok (rowOffsets rows, rows.flatten) := by
  have hlength : (rows.map (record codec)).length = rows.length := List.length_map _
  have hstep : ∀ index node state, (List.range rows.length)[index]? = some node →
      state = ((rowOffsets rows).take (0 + index), (rows.take (0 + index)).flatten) →
      ∃ next, decompressNode codec (rowOffsets (rows.map (record codec)))
          (rows.map (record codec)).flatten maxDegree node state = .ok next ∧
        next = ((rowOffsets rows).take (0 + index + 1), (rows.take (0 + index + 1)).flatten) := by
    rintro index node state hnode rfl
    obtain ⟨hindex, rfl⟩ := List.getElem_of_getElem? hnode
    rw [List.length_range] at hindex
    rw [List.getElem_range, Nat.zero_add]
    have hrecord : (rows.map (record codec))[index]? = some (record codec rows[index]) := by
      rw [List.getElem?_map, List.getElem?_eq_getElem hindex]
      rfl
    obtain ⟨hordered, hinside, hsubspan⟩ := subspan_rowOffsets hrecord
    refine ⟨_, ?_, rfl⟩
    rw [← take_rowOffsets_succ (Nat.le_of_lt hindex),
      ← flatten_take_succ (List.getElem?_eq_getElem hindex)]
    refine bind_ok.mpr ⟨(), reject_ok.mpr (by omega), ?_⟩
    rw [hsubspan, hrows _ (List.getElem_mem hindex)]
    rfl
  have hscan : ∃ last, scan (fun _ node => decompressNode codec
        (rowOffsets (rows.map (record codec))) (rows.map (record codec)).flatten maxDegree node)
        0 (List.range rows.length) ([], []) = .ok last ∧
      last = ((rowOffsets rows).take (0 + (List.range rows.length).length),
        (rows.take (0 + (List.range rows.length).length)).flatten) :=
    scan_total (motive := fun index state =>
      state = ((rowOffsets rows).take index, (rows.take index).flatten)) rfl hstep
  obtain ⟨_, hscan, rfl⟩ := hscan
  rw [Nat.zero_add, List.length_range, List.take_length] at hscan
  rw [decompressAdjacency, length_rowOffsets, Nat.add_sub_cancel, hlength]
  refine bind_ok.mpr ⟨_, hscan, bind_ok.mpr
    ⟨(), reject_ok.mpr (not_not.mpr rfl), ?_⟩⟩
  rw [take_rowOffsets_length]

theorem decompressAdjacency_accepts {records : List (List UInt8)} {expectedEdges : Nat}
    {result : List Nat × List UInt32}
    (hresult : decompressAdjacency codec (rowOffsets records) records.flatten expectedEdges
      maxDegree = .ok result) {bytes : List UInt8} (hbytes : bytes ∈ records) :
    ∃ neighbors, decompressRecord codec maxDegree bytes = .ok neighbors := by
  obtain ⟨node, hnode⟩ := List.mem_iff_getElem?.mp hbytes
  have hinside := (List.getElem_of_getElem? hnode).1
  rw [decompressAdjacency, length_rowOffsets, Nat.add_sub_cancel] at hresult
  obtain ⟨last, hscan, -⟩ := bind_ok.mp hresult
  obtain ⟨before, after, hstep⟩ := scan_accepts hscan (List.getElem?_range hinside)
  obtain ⟨-, -, hsubspan⟩ := subspan_rowOffsets hnode
  simp only [decompressNode, bind_ok, hsubspan] at hstep
  obtain ⟨-, -, neighbors, hneighbors, -⟩ := hstep
  exact ⟨neighbors, hneighbors⟩

/-- The lists come back in their order when each of them has at most 256 neighbors, and
otherwise the decoder refuses what the encoder wrote. -/
theorem decompress_compress_iff {rows : List (List UInt32)} (hlossless : codec.Lossless)
    (hdegree : ∀ row ∈ rows, row.length ≤ maxDegree.toNat) :
    decompressAdjacency codec (compressAdjacency codec (rowOffsets rows) rows.flatten).1
        (compressAdjacency codec (rowOffsets rows) rows.flatten).2 rows.flatten.length maxDegree =
      .ok (rowOffsets rows, rows.flatten) ↔ ∀ row ∈ rows, row.length ≤ 256 := by
  rw [compressAdjacency_rows]
  constructor
  · intro hresult row hrow
    obtain ⟨neighbors, hneighbors⟩ :=
      decompressAdjacency_accepts hresult (List.mem_map_of_mem hrow)
    exact length_of_decompressRecord ((hdegree row hrow).trans_lt maxDegree.toNat_lt) hneighbors
  · intro hshort
    apply decompressAdjacency_rows
    intro row hrow
    exact decompressRecord_record hlossless (hdegree row hrow) (hshort row hrow)

def storingCodec : Codec where
  encodeArray values := values
  decodeArray compressed count := compressed.take count

theorem storingCodec_lossless : storingCodec.Lossless where
  decode_encode values _ _ := List.take_length
  length_encode values := by
    change values.length ≤ _
    omega

theorem decompress_compress_iff_threeLists :
    let rows : List (List UInt32) := [[7, 2, 5], [], [4]]
    decompressAdjacency storingCodec
        (compressAdjacency storingCodec (rowOffsets rows) rows.flatten).1
        (compressAdjacency storingCodec (rowOffsets rows) rows.flatten).2 4 64 =
      .ok ([0, 3, 3, 4], [7, 2, 5, 4]) :=
  (decompress_compress_iff storingCodec_lossless (by decide)).mpr (by decide)

/-- The neighbors of a node of a graph with the maximum degree 257. -/
def longList : List UInt32 := (List.range 257).map .ofNat

/-- The positions 0 and 256 are the same byte. -/
theorem decompress_compress_refuted :
    storingCodec.Lossless ∧ longList.Nodup ∧ longList.length ≤ (257 : UInt32).toNat ∧
    ∀ result, decompressAdjacency storingCodec
        (compressAdjacency storingCodec (rowOffsets [longList]) [longList].flatten).1
        (compressAdjacency storingCodec (rowOffsets [longList]) [longList].flatten).2 257 257 ≠
      .ok result := by
  have hlength : longList.length = 257 := by rw [longList, List.length_map, List.length_range]
  refine ⟨storingCodec_lossless, by decide +kernel, Nat.le_of_eq hlength, fun result hresult => ?_⟩
  rw [compressAdjacency_rows] at hresult
  obtain ⟨neighbors, hneighbors⟩ :=
    decompressAdjacency_accepts hresult (List.mem_map_of_mem (List.mem_singleton_self longList))
  have hshort := length_of_decompressRecord (by omega) hneighbors
  omega

end SkipCell.IoIndex.PForDelta

import SkipCell.DiskIndex.RoundTrip
import SkipCell.DiskIndex.ShardMerge
import SkipCell.Foundation.TaggedStreams

/-! # What the merged index holds

The shards are indexes of some points each. Sorted by node, the pairs of a node and a shard take
the records of every shard in their order, so each reader stands at the list of the node that is
merged.
-/

namespace SkipCell.DiskIndex

open Foundation IoIndex
open Sidecar (appendU32Le)

/-- An index of some points, and the global ids of the points. -/
structure Shard where
  ids : List UInt32
  graph : GraphFile
  ascending : ids.Pairwise (· < ·)
  count_lt : ids.length < 2 ^ 32
  count : graph.neighbors.length = ids.length
  degree : ∀ list ∈ graph.neighbors, list.length < 2 ^ 32
  targets : ∀ list ∈ graph.neighbors, ∀ target ∈ list, target.toNat < ids.length
  medoid_lt : graph.medoid.toNat < ids.length
  frozenNum : graph.frozenNum = 0

namespace Shard

variable (shard : Shard)

def files : ShardFiles where
  idmap := encodeLittle 4 shard.ids.length ++
    (encodeLittle 4 1 ++ shard.ids.flatMap appendU32Le)
  vamana := shard.graph.file

def rename (target : UInt32) : UInt32 := shard.ids.getD target.toNat 0

def renamedMedoid : UInt32 := shard.rename shard.graph.medoid

/-- The list of a node under global ids, where the node is in the shard. -/
def neighbors (node : UInt32) : List UInt32 :=
  if node ∈ shard.ids then
    (shard.graph.neighbors.getD (shard.ids.idxOf node) []).map shard.rename
  else []

end Shard

/-- The nodes of all shards are those below `count`. -/
def Covers (shards : List Shard) (count : Nat) : Prop :=
  ∀ node, (∃ shard ∈ shards, node ∈ shard.ids.map UInt32.toNat) ↔ node < count

def shardNeighbors (shards : List Shard) (node : UInt32) : List UInt32 :=
  shards.flatMap fun shard => shard.neighbors node

/-- Different neighbors from the lists, all of them or as many as may be kept. -/
structure MergedList (maxDegree : UInt32) (lists list : List UInt32) : Prop where
  nodup : list.Nodup
  subset : list ⊆ lists
  length : list.length = min maxDegree.toNat lists.toFinset.card

theorem reads_cached {width : Nat} {bytes : List UInt8} (hwidth : bytes.length = width) :
    Reads (readCached width) bytes bytes :=
  fun _ => readCached_append hwidth

theorem reads_u32 (value : UInt32) : Reads readU32 (appendU32Le value) value := by
  have hbytes : (appendU32Le value).length = 4 := length_encodeLittle 4 value.toNat
  have hreads := (reads_cached hbytes).map fun bytes => UInt32.ofNat (decodeLittle bytes)
  rwa [appendU32Le, decodeLittle_encodeLittle_of_lt value.toNat_lt, UInt32.ofNat_toNat] at hreads

theorem reads_nhood {list : List UInt32} (hdegree : list.length < 2 ^ 32) :
    Reads readNhood (neighborhoodBytes list) list := by
  have hcount : (UInt32.ofNat list.length).toNat = list.length := by
    rw [UInt32.toNat_ofNat']
    exact Nat.mod_eq_of_lt hdegree
  have hfirst := reads_u32 (UInt32.ofNat list.length)
  rw [appendU32Le, hcount] at hfirst
  refine hfirst.bind ?_
  rw [hcount]
  exact Reads.many fun value _ => reads_u32 value

theorem readIds_flatMap (ids : List UInt32) : readIds ids.length (ids.flatMap appendU32Le) = ids := by
  refine List.ext_getElem? fun index => ?_
  rw [readIds, List.getElem?_map]
  by_cases hindex : index < ids.length
  · have hrow : (ids.map appendU32Le)[index]? = some (appendU32Le ids[index]) := by
      rw [List.getElem?_map, List.getElem?_eq_getElem hindex]
      rfl
    have hwidth : ∀ row ∈ ids.map appendU32Le, row.length = 4 := by
      intro row hrow
      obtain ⟨id, -, rfl⟩ := List.mem_map.mp hrow
      exact length_encodeLittle 4 id.toNat
    rw [List.getElem?_range hindex, Option.map_some, List.flatMap_def,
      subspan_flatten hwidth hrow, appendU32Le, decodeLittle_encodeLittle_of_lt ids[index].toNat_lt,
      UInt32.ofNat_toNat, List.getElem?_eq_getElem hindex]
  · rw [List.getElem?_eq_none (Nat.not_lt.mp hindex), List.getElem?_eq_none (by simpa using hindex)]
    rfl

theorem readIdmap_files (shard : Shard) : readIdmap shard.files.idmap = .ok shard.ids := by
  have hlength : (shard.ids.flatMap appendU32Le).length = shard.ids.length * 4 := by
    rw [List.length_flatMap, List.map_congr_left fun id _ => length_encodeLittle 4 id.toNat]
    simp
  have hcount : decodeLittle (encodeLittle 4 shard.ids.length) = shard.ids.length :=
    decodeLittle_encodeLittle_of_lt shard.count_lt
  have hone : decodeLittle (encodeLittle 4 1) = 1 := rfl
  have hsize : shard.files.idmap.length = shard.ids.length * 4 + 2 * 4 := by
    simp only [Shard.files, List.length_append, length_encodeLittle, hlength]
    omega
  unfold readIdmap
  rw [hsize]
  simp only [Shard.files, readZeroed_append (length_encodeLittle 4 _), hcount, hone]
  rw [readIds_flatMap]
  simp [reject]

/-! ## The order of the pairs -/

def shardIds (shards : List Shard) (tag : UInt32) : List UInt32 :=
  (shards.map Shard.ids).getD tag.toNat []

theorem part_zipIdx (tag : UInt32) (idmaps : List (List UInt32)) {start : Nat}
    (hcount : start + idmaps.length ≤ 2 ^ 32) :
    part tag ((idmaps.zipIdx start).flatMap fun (idmap, shard) =>
      idmap.map fun id => (id, UInt32.ofNat shard)) =
      if start ≤ tag.toNat then idmaps.getD (tag.toNat - start) [] else [] := by
  induction idmaps generalizing start with
  | nil => simp
  | cons idmap idmaps ih =>
    rw [List.length_cons] at hcount
    have hstart : (UInt32.ofNat start).toNat = start := by
      rw [UInt32.toNat_ofNat']
      omega
    rw [List.zipIdx_cons, List.flatMap_cons, part_append, part_map_pair, ih (by omega)]
    by_cases hsame : UInt32.ofNat start = tag
    · subst hsame
      simp [hstart]
    · have hne : tag.toNat ≠ start := by
        intro heq
        exact hsame (UInt32.toNat_inj.mp (hstart.trans heq.symm))
      rw [if_neg hsame, List.nil_append]
      by_cases hle : start ≤ tag.toNat
      · rw [if_pos hle, if_pos (by omega)]
        obtain ⟨offset, hoffset⟩ := Nat.exists_eq_add_of_lt (Nat.lt_of_le_of_ne hle hne.symm)
        have hfront : tag.toNat - start = offset + 1 := by omega
        have hbehind : tag.toNat - (start + 1) = offset := by omega
        rw [hfront, hbehind, List.getD_cons_succ]
      · rw [if_neg hle, if_neg (by omega)]

instance : Std.Total NodeBefore := ⟨fun _ _ => le_total _ _⟩

instance : IsTrans (UInt32 × UInt32) NodeBefore := ⟨fun _ _ _ => le_trans⟩

theorem NodeBefore.fst {left right : UInt32 × UInt32} (hbefore : NodeBefore left right) :
    left.1.toNat ≤ right.1.toNat := by
  rcases Prod.Lex.toLex_le_toLex.mp hbefore with hless | ⟨hsame, -⟩
  · exact Nat.le_of_lt hless
  · exact Nat.le_of_eq hsame

instance antisymm_toNat : Std.Antisymm fun left right : UInt32 => left.toNat ≤ right.toNat :=
  ⟨fun _ _ hle hge => UInt32.toNat_inj.mp (Nat.le_antisymm hle hge)⟩

/-- Every pair of a node and one of its shards, by node. -/
def sortedPairs (shards : List Shard) : List (UInt32 × UInt32) :=
  (nodeShards (shards.map Shard.ids)).insertionSort NodeBefore

theorem sortedPairs_pairwise (shards : List Shard) :
    (sortedPairs shards).Pairwise fun left right => left.1.toNat ≤ right.1.toNat :=
  (List.pairwise_insertionSort NodeBefore _).imp NodeBefore.fst

theorem sortedPairs_merges {shards : List Shard} (hcount : shards.length < 2 ^ 32) :
    Merges (sortedPairs shards) (shardIds shards) := by
  have hstreams : ∀ tag, (shardIds shards tag).Pairwise fun left right =>
      left.toNat ≤ right.toNat := by
    intro tag
    rw [shardIds, List.getD_eq_getElem?_getD, List.getElem?_map]
    cases shards[tag.toNat]? with
    | none => exact .nil
    | some shard =>
      exact shard.ascending.imp fun hless => Nat.le_of_lt (UInt32.lt_iff_toNat_lt.mp hless)
  have hordered : (sortedPairs shards).Pairwise fun left right =>
      left.2 = right.2 → left.1.toNat ≤ right.1.toNat := by
    refine (sortedPairs_pairwise shards).imp ?_
    intro left right hle _
    exact hle
  refine merges_of_perm (fun tag => ?_) (List.perm_insertionSort _ _) hstreams hordered
  have hpart := @part_zipIdx tag (shards.map Shard.ids) 0 (by rw [List.length_map]; omega)
  rwa [if_pos (Nat.zero_le _), Nat.sub_zero] at hpart

theorem mem_sortedPairs {shards : List Shard} (hcount : shards.length < 2 ^ 32) {node tag : UInt32} :
    (node, tag) ∈ sortedPairs shards ↔
      ∃ shard, shards[tag.toNat]? = some shard ∧ node ∈ shard.ids := by
  rw [← mem_part, sortedPairs_merges hcount tag, shardIds, List.getD_eq_getElem?_getD,
    List.getElem?_map]
  cases shards[tag.toNat]? <;> simp

/-- The neighbors found so far are different, and they are the marked ones. -/
structure Marked (nnodes : Nat) (marks : List Bool) (found : List UInt32) : Prop where
  length : marks.length = nnodes
  marks : ∀ id : UInt32, id.toNat < nnodes → marks[id.toNat]? = some (decide (id ∈ found))
  nodup : found.Nodup

variable {Engine : Type} {shuffler : Shuffler Engine} {maxDegree : UInt32} {nnodes : Nat}
  {state : MergeState Engine}

theorem addNeighbor_ok (hmarked : Marked nnodes state.nhoodSet state.finalNhood)
    {idmap : List UInt32} {neighbor id : UInt32} (hid : idmap[neighbor.toNat]? = some id)
    (hknown : id.toNat < nnodes) :
    ∃ marks found, addNeighbor idmap state neighbor =
        .ok { state with nhoodSet := marks, finalNhood := found } ∧ Marked nnodes marks found ∧
      ∀ other, other ∈ found ↔ other ∈ state.finalNhood ∨ other = id := by
  have hmark := hmarked.marks id hknown
  simp only [addNeighbor, bind_ok, element_eq_ok]
  by_cases hfound : id ∈ state.finalNhood
  · refine ⟨state.nhoodSet, state.finalNhood, ⟨id, hid, _, hmark, by simp [hfound]⟩, hmarked, ?_⟩
    intro other
    constructor
    · exact Or.inl
    · rintro (hother | rfl)
      · exact hother
      · exact hfound
  · refine ⟨state.nhoodSet.set id.toNat true, state.finalNhood ++ [id],
      ⟨id, hid, _, hmark, by simp [hfound]⟩, ⟨?_, fun other hother => ?_, ?_⟩, by simp⟩
    · rw [List.length_set, hmarked.length]
    · by_cases hsame : other = id
      · subst hsame
        rw [List.getElem?_set_self (by rwa [hmarked.length])]
        simp
      · have hplace : id.toNat ≠ other.toNat := fun heq => hsame (UInt32.toNat_inj.mp heq).symm
        rw [List.getElem?_set_ne hplace, hmarked.marks other hother]
        simp [hsame]
    · exact List.nodup_append.mpr ⟨hmarked.nodup, List.nodup_singleton id, by
        rintro first hfirst second hsecond rfl
        exact hfound (List.mem_singleton.mp hsecond ▸ hfirst)⟩

theorem Shard.getElem?_rename (shard : Shard) {target : UInt32}
    (htarget : target.toNat < shard.ids.length) :
    shard.ids[target.toNat]? = some (shard.rename target) := by
  rw [Shard.rename, List.getD_eq_getElem?_getD, List.getElem?_eq_getElem htarget]
  rfl

theorem addNeighbors_ok (shard : Shard) (hknown : ∀ id ∈ shard.ids, id.toNat < nnodes)
    {list : List UInt32} (htargets : ∀ target ∈ list, target.toNat < shard.ids.length)
    (hmarked : Marked nnodes state.nhoodSet state.finalNhood) :
    ∃ marks found, list.foldlM (addNeighbor shard.ids) state =
        .ok { state with nhoodSet := marks, finalNhood := found } ∧ Marked nnodes marks found ∧
      ∀ id, id ∈ found ↔ id ∈ state.finalNhood ∨ id ∈ list.map shard.rename := by
  induction list generalizing state with
  | nil => exact ⟨_, _, rfl, hmarked, by simp⟩
  | cons target list ih =>
    obtain ⟨htarget, hlist⟩ := List.forall_mem_cons.mp htargets
    have hid := shard.getElem?_rename htarget
    obtain ⟨middleMarks, middle, hadd, hmiddle, hmembers⟩ :=
      addNeighbor_ok hmarked hid (hknown _ (List.mem_of_getElem? hid))
    let between : MergeState Engine :=
      { state with nhoodSet := middleMarks, finalNhood := middle }
    obtain ⟨marks, found, hfold, hfound, hall⟩ := @ih between hlist hmiddle
    refine ⟨marks, found, ?_, hfound, fun id => ?_⟩
    · rw [List.foldlM_cons]
      exact bind_ok.mpr ⟨between, hadd, hfold⟩
    · rw [hall id, hmembers id, List.map_cons, List.mem_cons, or_assoc]

/-! ## Writing the list of a node -/

theorem MergedList.congr {lists other list : List UInt32}
    (hmerged : MergedList maxDegree lists list) (hsame : ∀ id, id ∈ lists ↔ id ∈ other) :
    MergedList maxDegree other list where
  nodup := hmerged.nodup
  subset id hid := (hsame id).mp (hmerged.subset hid)
  length := by
    have hunion : lists.toFinset = other.toFinset := by
      ext id
      simp [hsame]
    rw [hmerged.length, hunion]

theorem foldl_unmark (list : List UInt32) {marks : List Bool} {position : Nat} {mark : Bool}
    (hmark : marks[position]? = some mark) :
    (list.foldl (fun set p => set.set p.toNat false) marks)[position]? =
      some (mark && decide (∀ p ∈ list, p.toNat ≠ position)) := by
  induction list generalizing marks mark with
  | nil => simpa using hmark
  | cons p list ih =>
    rw [List.foldl_cons]
    by_cases hsame : p.toNat = position
    · subst hsame
      have hset : (marks.set p.toNat false)[p.toNat]? = some false :=
        List.getElem?_set_self (List.getElem_of_getElem? hmark).1
      rw [ih hset]
      simp
    · rw [ih ((List.getElem?_set_ne hsame).trans hmark)]
      simp [hsame]

theorem length_foldl_unmark (list : List UInt32) (marks : List Bool) :
    (list.foldl (fun set p => set.set p.toNat false) marks).length = marks.length := by
  induction list generalizing marks with
  | nil => rfl
  | cons p list ih => exact (ih _).trans (List.length_set ..)

theorem writeNhood_eq (hmarked : Marked nnodes state.nhoodSet state.finalNhood) :
    ∃ list engine marks, writeNhood shuffler maxDegree state = { state with
        engine
        written := state.written ++ neighborhoodBytes list
        mergedIndexSize := state.mergedIndexSize + (neighborhoodBytes list).length
        nhoodSet := marks
        finalNhood := [] } ∧
      MergedList maxDegree state.finalNhood list ∧ Marked nnodes marks [] := by
  rcases hshuffle : shuffler.shuffle state.engine state.finalNhood with ⟨shuffled, engine⟩
  have hperm : shuffled.Perm state.finalNhood := by
    have hlaw := shuffler.perm state.engine state.finalNhood
    rwa [hshuffle] at hlaw
  have hnnbrs : (UInt32.ofNat (min shuffled.length maxDegree.toNat)).toNat =
      min shuffled.length maxDegree.toNat := by
    have hbound := maxDegree.toNat_lt
    rw [UInt32.toNat_ofNat']
    omega
  have hlength : (shuffled.take (min shuffled.length maxDegree.toNat)).length =
      min shuffled.length maxDegree.toNat := by
    rw [List.length_take]
    omega
  refine ⟨shuffled.take (min shuffled.length maxDegree.toNat), engine,
    shuffled.foldl (fun set p => set.set p.toNat false) state.nhoodSet, ?_, ⟨?_, ?_, ?_⟩,
    ⟨?_, fun id hid => ?_, List.nodup_nil⟩⟩
  · unfold writeNhood
    rw [hshuffle]
    have hbytes : 4 + min shuffled.length maxDegree.toNat * 4 =
        (neighborhoodBytes (shuffled.take (min shuffled.length maxDegree.toNat))).length := by
      rw [length_neighborhoodBytes, hlength]
      omega
    simp only [hnnbrs, hbytes]
    simp only [neighborhoodBytes, hlength, appendU32Le, hnnbrs]
  · exact (hperm.nodup_iff.mpr hmarked.nodup).sublist (List.take_sublist _ _)
  · exact fun id hid => hperm.subset (List.mem_of_mem_take hid)
  · rw [hlength, hperm.length_eq, List.toFinset_card_of_nodup hmarked.nodup, Nat.min_comm]
  · exact (length_foldl_unmark shuffled _).trans hmarked.length
  · rw [foldl_unmark shuffled (hmarked.marks id hid)]
    have hmembers : id ∈ shuffled ↔ id ∈ state.finalNhood := hperm.mem_iff
    simp only [List.not_mem_nil, decide_false, Option.some.injEq, Bool.and_eq_false_iff,
      decide_eq_false_iff_not]
    rw [← hmembers]
    by_cases hfound : id ∈ shuffled
    · right
      intro hnone
      exact hnone id hfound rfl
    · exact Or.inl hfound

/-! ## The run over the pairs -/

def pairNeighbors (shards : List Shard) (pair : UInt32 × UInt32) : List UInt32 :=
  match shards[pair.2.toNat]? with
  | some shard => shard.neighbors pair.1
  | none => []

/-- What the pairs of a node bring in. -/
def gathered (shards : List Shard) (pairs : List (UInt32 × UInt32)) (node : UInt32) :
    List UInt32 :=
  (pairs.filter fun pair => pair.1 = node).flatMap (pairNeighbors shards)

theorem gathered_concat (shards : List Shard) (done : List (UInt32 × UInt32))
    (pair : UInt32 × UInt32) (node : UInt32) :
    gathered shards (done ++ [pair]) node =
      gathered shards done node ++ if pair.1 = node then pairNeighbors shards pair else [] := by
  unfold gathered
  rw [List.filter_append, List.flatMap_append]
  by_cases hnode : pair.1 = node <;> simp [hnode]

/-- Every reader stands behind the lists of the nodes that are done. -/
structure Aligned (shards : List Shard) (done : List (UInt32 × UInt32))
    (readers : List (List UInt8)) : Prop where
  rest : ∀ (tag : UInt32) shard, shards[tag.toNat]? = some shard →
    readers[tag.toNat]? =
      some ((shard.graph.neighbors.drop (part tag done).length).flatMap neighborhoodBytes)

/-- The records of the nodes in front of the current one are written, and what the pairs of the
current one brought in is gathered. -/
structure Written (shards : List Shard) (maxDegree : UInt32) (nnodes : Nat) (front : List UInt8)
    (done : List (UInt32 × UInt32)) (state : MergeState Engine) : Prop where
  marked : Marked nnodes state.nhoodSet state.finalNhood
  seen : ∀ pair ∈ done, pair.1.toNat ≤ state.curId.toNat
  current : state.curId = 0 ∨ ∃ pair ∈ done, pair.1 = state.curId
  members : ∀ id, id ∈ state.finalNhood ↔ id ∈ gathered shards done state.curId
  records : ∃ records : List (List UInt32), records.length = state.curId.toNat ∧
    state.written = front ++ records.flatMap neighborhoodBytes ∧
    state.mergedIndexSize = vamanaMetadataSize + (records.flatMap neighborhoodBytes).length ∧
    ∀ node list, records[node]? = some list →
      MergedList maxDegree (gathered shards done (UInt32.ofNat node)) list

variable {shards : List Shard} {front : List UInt8} {done rest : List (UInt32 × UInt32)}
  {node tag : UInt32} {readers : List (List UInt8)}

theorem Aligned.next (haligned : Aligned shards done readers) {shard : Shard}
    (hshard : shards[tag.toNat]? = some shard)
    (hmerges : Merges (done ++ (node, tag) :: rest) (shardIds shards)) :
    node ∈ shard.ids ∧ ∃ list reader rest,
      readers[tag.toNat]? = some reader ∧ readNhood reader = .ok (list, rest) ∧
      (∀ target ∈ list, target.toNat < shard.ids.length) ∧
      list.map shard.rename = pairNeighbors shards (node, tag) ∧
      Aligned shards (done ++ [(node, tag)]) (readers.set tag.toNat rest) := by
  have hid := hmerges.getElem?
  rw [shardIds, List.getD_eq_getElem?_getD, List.getElem?_map, hshard] at hid
  change shard.ids[(part tag done).length]? = some node at hid
  have hmem := List.mem_of_getElem? hid
  have hplace : shard.ids.idxOf node = (part tag done).length := by
    obtain ⟨hbound, hget⟩ := List.getElem_of_getElem? hid
    have hnodup : shard.ids.Nodup := by
      refine shard.ascending.imp ?_
      rintro first second hless rfl
      exact absurd hless (UInt32.lt_irrefl first)
    rw [← hget]
    exact hnodup.idxOf_getElem _ hbound
  have hbound : (part tag done).length < shard.graph.neighbors.length := by
    rw [shard.count]
    exact (List.getElem_of_getElem? hid).1
  obtain ⟨list, hlist⟩ : ∃ list, shard.graph.neighbors[(part tag done).length]? = some list :=
    ⟨_, List.getElem?_eq_getElem hbound⟩
  have hlistMem := List.mem_of_getElem? hlist
  have hdrop : shard.graph.neighbors.drop (part tag done).length =
      list :: shard.graph.neighbors.drop ((part tag done).length + 1) := by
    rw [List.drop_eq_getElem_cons hbound]
    congr 1
    exact Option.some.inj ((List.getElem?_eq_getElem hbound).symm.trans hlist)
  refine ⟨hmem, list, _, (shard.graph.neighbors.drop ((part tag done).length + 1)).flatMap
    neighborhoodBytes, haligned.rest tag shard hshard, ?_, shard.targets list hlistMem, ?_,
    ⟨fun other otherShard hother => ?_⟩⟩
  · rw [hdrop, List.flatMap_cons]
    exact reads_nhood (shard.degree list hlistMem) _
  · rw [pairNeighbors, hshard]
    change _ = shard.neighbors node
    rw [Shard.neighbors, if_pos hmem, hplace, List.getD_eq_getElem?_getD, hlist]
    rfl
  · by_cases hsame : other = tag
    · subst hsame
      obtain rfl := Option.some.inj (hshard.symm.trans hother)
      have hreader := haligned.rest other shard hshard
      rw [List.getElem?_set_self (List.getElem_of_getElem? hreader).1, part_append,
        List.length_append, part_cons_self]
      rfl
    · have hplace : tag.toNat ≠ other.toNat := fun heq => hsame (UInt32.toNat_inj.mp heq).symm
      rw [List.getElem?_set_ne hplace, haligned.rest other otherShard hother, part_append,
        part_cons_ne (Ne.symm hsame), part_nil, List.append_nil]

variable (shuffler) in
/-- A node is entered when the one before it is written. -/
theorem Written.enter (hwritten : Written shards maxDegree nnodes front done state)
    (hbefore : state.curId.toNat ≤ node.toNat) (hnext : node.toNat ≤ state.curId.toNat + 1) :
    ∃ next, enterNode shuffler maxDegree node state = next ∧ next.curId = node ∧
      Marked nnodes next.nhoodSet next.finalNhood ∧
      (∀ id, id ∈ next.finalNhood ↔ id ∈ gathered shards done node) ∧
      ∃ records : List (List UInt32), records.length = node.toNat ∧
        next.written = front ++ records.flatMap neighborhoodBytes ∧
        next.mergedIndexSize = vamanaMetadataSize + (records.flatMap neighborhoodBytes).length ∧
        ∀ position list, records[position]? = some list →
          MergedList maxDegree (gathered shards done (UInt32.ofNat position)) list := by
  obtain ⟨records, hcount, hbytes, hsize, hlists⟩ := hwritten.records
  refine ⟨_, rfl, ?_⟩
  unfold enterNode
  split
  next hless =>
    obtain ⟨list, engine, marks, hwrite, hmerged, hmarks⟩ := writeNhood_eq hwritten.marked
    rw [hwrite]
    refine ⟨rfl, hmarks, fun id => ?_, records ++ [list], ?_, ?_, ?_, ?_⟩
    · -- no pair of a later node is done
      have hnone : gathered shards done node = [] := by
        rw [gathered, List.filter_eq_nil_iff.mpr, List.flatMap_nil]
        intro pair hpair hnode
        have hseen := hwritten.seen pair hpair
        rw [of_decide_eq_true hnode] at hseen
        exact absurd (UInt32.lt_iff_toNat_lt.mp hless) (Nat.not_lt.mpr hseen)
      simp [hnone]
    · have hlater := UInt32.lt_iff_toNat_lt.mp hless
      rw [List.length_append, hcount, List.length_singleton]
      omega
    · simp [hbytes]
    · simp only [hsize, List.flatMap_append, List.flatMap_cons, List.flatMap_nil,
        List.append_nil, List.length_append]
      omega
    · refine getElem?_concat_forall hlists ?_
      rw [hcount, UInt32.ofNat_toNat]
      exact hmerged.congr hwritten.members
  next hsame =>
    have hcur : state.curId = node := by
      apply UInt32.toNat_inj.mp
      have hnotLater := mt UInt32.lt_iff_toNat_lt.mpr hsame
      omega
    subst hcur
    exact ⟨rfl, hwritten.marked, hwritten.members, records, hcount, hbytes, hsize, hlists⟩

theorem mergeNode_ok (hcount : shards.length < 2 ^ 32)
    (hknown : ∀ shard ∈ shards, ∀ id ∈ shard.ids, id.toNat < nnodes)
    (hsplit : sortedPairs shards = done ++ (node, tag) :: rest)
    (haligned : Aligned shards done readers)
    (hwritten : Written shards maxDegree nnodes front done state)
    (hbefore : state.curId.toNat ≤ node.toNat) (hnext : node.toNat ≤ state.curId.toNat + 1) :
    ∃ others next, mergeNode shuffler maxDegree (shards.map Shard.ids) (readers, state)
        (node, tag) = .ok (others, next) ∧
      Aligned shards (done ++ [(node, tag)]) others ∧
      Written shards maxDegree nnodes front (done ++ [(node, tag)]) next := by
  have hmem : (node, tag) ∈ sortedPairs shards := by
    rw [hsplit]
    exact List.mem_append_right _ List.mem_cons_self
  obtain ⟨shard, hshard, -⟩ := (mem_sortedPairs hcount).mp hmem
  have hmerges := sortedPairs_merges hcount
  rw [hsplit] at hmerges
  obtain ⟨-, list, reader, behind, hreader, hread, htargets, hneighbors, hothers⟩ :=
    haligned.next hshard hmerges
  obtain ⟨entered, henter, hcur, hmarked, hmembers, records, hlength, hbytes, hsize, hlists⟩ :=
    hwritten.enter shuffler hbefore hnext
  obtain ⟨marks, found, hadd, hfound, hall⟩ :=
    addNeighbors_ok shard (hknown shard (List.mem_of_getElem? hshard)) htargets hmarked
  have hidmap : (shards.map Shard.ids)[tag.toNat]? = some shard.ids := by
    rw [List.getElem?_map, hshard]
    rfl
  refine ⟨readers.set tag.toNat behind,
    { entered with nhoodSet := marks, finalNhood := found }, ?_, hothers, ?_⟩
  · simp only [mergeNode, henter, bind_ok, element_eq_ok]
    exact ⟨reader, hreader, (list, behind), hread, shard.ids, hidmap, _, hadd, rfl⟩
  · refine ⟨hfound, fun pair hpair => ?_, Or.inr ⟨(node, tag), by simp, hcur.symm⟩, fun id => ?_,
      records, hlength.trans (congrArg UInt32.toNat hcur.symm), hbytes, hsize,
      fun position list hposition => ?_⟩
    · change pair.1.toNat ≤ entered.curId.toNat
      rw [hcur]
      rcases List.mem_append.mp hpair with hold | hnew
      · exact (hwritten.seen pair hold).trans hbefore
      · rw [List.mem_singleton.mp hnew]
    · change id ∈ found ↔ id ∈ gathered shards _ entered.curId
      rw [hcur, gathered_concat, if_pos rfl, hall id, hmembers id, hneighbors, List.mem_append]
    · have hother : node ≠ UInt32.ofNat position := by
        rintro rfl
        have hinside := (List.getElem_of_getElem? hposition).1
        rw [hlength, UInt32.toNat_ofNat'] at hinside
        exact absurd (Nat.mod_le position (2 ^ 32)) (Nat.not_le.mpr hinside)
      rw [gathered_concat, if_neg hother, List.append_nil]
      exact hlists position list hposition

theorem mem_pairs (hcount : shards.length < 2 ^ 32) {node : UInt32} :
    (∃ tag, (node, tag) ∈ sortedPairs shards) ↔ ∃ shard ∈ shards, node ∈ shard.ids := by
  constructor
  · rintro ⟨tag, hpair⟩
    obtain ⟨shard, hshard, hnode⟩ := (mem_sortedPairs hcount).mp hpair
    exact ⟨shard, List.mem_of_getElem? hshard, hnode⟩
  · rintro ⟨shard, hmem, hnode⟩
    obtain ⟨position, hbound, rfl⟩ := List.mem_iff_getElem.mp hmem
    have htag : (UInt32.ofNat position).toNat = position := by
      rw [UInt32.toNat_ofNat']
      exact Nat.mod_eq_of_lt (hbound.trans hcount)
    refine ⟨UInt32.ofNat position, (mem_sortedPairs hcount).mpr ⟨_, ?_, hnode⟩⟩
    rw [htag]
    exact List.getElem?_eq_getElem hbound

variable {count : Nat}

theorem mem_pairs_iff_lt (hcount : shards.length < 2 ^ 32) (hcovers : Covers shards count)
    {node : Nat} :
    (∃ pair ∈ sortedPairs shards, pair.1.toNat = node) ↔ node < count := by
  rw [← hcovers node]
  constructor
  · rintro ⟨⟨id, tag⟩, hpair, rfl⟩
    obtain ⟨shard, hshard, hid⟩ := (mem_pairs hcount).mp ⟨tag, hpair⟩
    exact ⟨shard, hshard, List.mem_map_of_mem hid⟩
  · rintro ⟨shard, hshard, hnode⟩
    obtain ⟨id, hid, rfl⟩ := List.mem_map.mp hnode
    obtain ⟨tag, hpair⟩ := (mem_pairs hcount).mpr ⟨shard, hshard, hid⟩
    exact ⟨(id, tag), hpair, rfl⟩

theorem Written.next_node (hcount : shards.length < 2 ^ 32) (hcovers : Covers shards count)
    (hsplit : sortedPairs shards = done ++ (node, tag) :: rest)
    (hwritten : Written shards maxDegree nnodes front done state) :
    state.curId.toNat ≤ node.toNat ∧ node.toNat ≤ state.curId.toNat + 1 := by
  have hsorted := sortedPairs_pairwise shards
  rw [hsplit] at hsorted
  obtain ⟨-, hbehind, hcross⟩ := List.pairwise_append.mp hsorted
  constructor
  · rcases hwritten.current with hzero | ⟨pair, hpair, hcur⟩
    · rw [hzero]
      exact Nat.zero_le _
    · rw [← hcur]
      exact hcross pair hpair _ List.mem_cons_self
  · by_contra hskipped
    have hnode : node.toNat < count := by
      refine (mem_pairs_iff_lt hcount hcovers).mp ⟨(node, tag), ?_, rfl⟩
      rw [hsplit]
      exact List.mem_append_right _ List.mem_cons_self
    obtain ⟨pair, hpair, hplace⟩ := (mem_pairs_iff_lt hcount hcovers).mpr
      (show state.curId.toNat + 1 < count by omega)
    rw [hsplit] at hpair
    rcases List.mem_append.mp hpair with hdone | hrest
    · have hseen := hwritten.seen pair hdone
      omega
    · rcases List.mem_cons.mp hrest with rfl | hlater
      · change node.toNat = _ at hplace
        omega
      · have hle : node.toNat ≤ pair.1.toNat := (List.pairwise_cons.mp hbehind).1 pair hlater
        omega

variable (shuffler) in
theorem mergeNodes_ok (hcount : shards.length < 2 ^ 32) (hcovers : Covers shards count)
    (hknown : ∀ shard ∈ shards, ∀ id ∈ shard.ids, id.toNat < nnodes)
    (hsplit : sortedPairs shards = done ++ rest) (haligned : Aligned shards done readers)
    (hwritten : Written shards maxDegree nnodes front done state) :
    ∃ others last, rest.foldlM (mergeNode shuffler maxDegree (shards.map Shard.ids))
        (readers, state) = .ok (others, last) ∧
      Written shards maxDegree nnodes front (sortedPairs shards) last := by
  induction rest generalizing done readers state with
  | nil =>
    rw [List.append_nil] at hsplit
    exact ⟨readers, state, rfl, hsplit ▸ hwritten⟩
  | cons pair rest ih =>
    obtain ⟨node, tag⟩ := pair
    obtain ⟨hbefore, hnext⟩ := hwritten.next_node hcount hcovers hsplit
    obtain ⟨middle, next, hstep, hmiddle, hnextWritten⟩ :=
      mergeNode_ok hcount hknown hsplit haligned hwritten hbefore hnext
    have hbehind : sortedPairs shards = (done ++ [(node, tag)]) ++ rest := by
      rw [hsplit, List.append_assoc]
      rfl
    obtain ⟨others, last, hfold, hlast⟩ := ih hbehind hmiddle hnextWritten
    refine ⟨others, last, ?_, hlast⟩
    rw [List.foldlM_cons]
    exact bind_ok.mpr ⟨(middle, next), hstep, hfold⟩

theorem Written.count_eq (hcount : shards.length < 2 ^ 32) (hcovers : Covers shards count)
    (hsome : shards ≠ [])
    (hwritten : Written shards maxDegree nnodes front (sortedPairs shards) state) :
    state.curId.toNat + 1 = count := by
  have hpos : 0 < count := by
    obtain ⟨shard, hshard⟩ := List.exists_mem_of_ne_nil shards hsome
    obtain ⟨id, hid⟩ := List.exists_mem_of_length_pos
      (Nat.lt_of_le_of_lt (Nat.zero_le _) shard.medoid_lt)
    have hnode := (hcovers id.toNat).mp ⟨shard, hshard, List.mem_map_of_mem hid⟩
    omega
  have hcurrent : state.curId.toNat < count := by
    rcases hwritten.current with hzero | ⟨pair, hpair, hcur⟩
    · rwa [hzero]
    · exact (mem_pairs_iff_lt hcount hcovers).mp ⟨pair, hpair, congrArg UInt32.toNat hcur⟩
  obtain ⟨pair, hpair, hlast⟩ := (mem_pairs_iff_lt hcount hcovers).mpr
    (show count - 1 < count by omega)
  have hseen := hwritten.seen pair hpair
  omega

/-! ## The merged index -/

theorem mem_gathered (hcount : shards.length < 2 ^ 32) {node id : UInt32} :
    id ∈ gathered shards (sortedPairs shards) node ↔ id ∈ shardNeighbors shards node := by
  simp only [gathered, shardNeighbors, List.mem_flatMap, List.mem_filter, decide_eq_true_eq]
  constructor
  · rintro ⟨⟨other, tag⟩, ⟨-, rfl⟩, hid⟩
    unfold pairNeighbors at hid
    split at hid
    · next shard hshard => exact ⟨shard, List.mem_of_getElem? hshard, hid⟩
    · exact absurd hid List.not_mem_nil
  · rintro ⟨shard, hmem, hid⟩
    have hnode : node ∈ shard.ids := by
      by_contra habsent
      rw [Shard.neighbors, if_neg habsent] at hid
      exact absurd hid List.not_mem_nil
    obtain ⟨position, hbound, rfl⟩ := List.mem_iff_getElem.mp hmem
    have htag : (UInt32.ofNat position).toNat = position := by
      rw [UInt32.toNat_ofNat']
      exact Nat.mod_eq_of_lt (hbound.trans hcount)
    have hshard : shards[(UInt32.ofNat position).toNat]? = some shards[position] := by
      rw [htag]
      exact List.getElem?_eq_getElem hbound
    refine ⟨(node, UInt32.ofNat position),
      ⟨(mem_sortedPairs hcount).mpr ⟨_, hshard, hnode⟩, rfl⟩, ?_⟩
    rw [pairNeighbors, hshard]
    exact hid

theorem lt_countNodes (shards : List Shard) :
    ∀ shard ∈ shards, ∀ id ∈ shard.ids, id.toNat < countNodes (shards.map Shard.ids) := by
  intro shard hshard id hid
  have hall : ∀ (ids : List Nat) (start : Nat), start ≤ ids.foldl max start ∧
      ∀ value ∈ ids, value ≤ ids.foldl max start := by
    intro ids
    induction ids with
    | nil => simp
    | cons first ids ih =>
      intro start
      obtain ⟨hstart, hvalues⟩ := ih (max start first)
      refine ⟨(Nat.le_max_left _ _).trans hstart, fun value hvalue => ?_⟩
      rcases List.mem_cons.mp hvalue with rfl | hlater
      · exact (Nat.le_max_right _ _).trans hstart
      · exact hvalues value hlater
  refine Nat.lt_succ_of_le ((hall _ 0).2 _ (List.mem_map_of_mem ?_))
  exact List.mem_flatten.mpr ⟨shard.ids, List.mem_map_of_mem hshard, hid⟩

variable (shuffler) in
/-- The last list is written after the loop, and then the size over the front. -/
theorem Written.finish {medoid : UInt32}
    (hfront : front = encodeLittle 8 vamanaMetadataSize ++ (appendU32Le maxDegree ++
      (appendU32Le medoid ++ encodeLittle 8 0)))
    (hwritten : Written shards maxDegree nnodes front done state) :
    ∃ neighbors : List (List UInt32), neighbors.length = state.curId.toNat + 1 ∧
      finish shuffler maxDegree state = (⟨maxDegree, medoid, 0, neighbors⟩ : GraphFile).file ∧
      ∀ position list, neighbors[position]? = some list →
        MergedList maxDegree (gathered shards done (UInt32.ofNat position)) list := by
  obtain ⟨records, hlength, hbytes, hsize, hlists⟩ := hwritten.records
  obtain ⟨list, engine, marks, hwrite, hmerged, -⟩ := writeNhood_eq hwritten.marked
  refine ⟨records ++ [list], ?_, ?_, getElem?_concat_forall hlists ?_⟩
  · rw [List.length_append, hlength, List.length_singleton]
  · have hbody : (records ++ [list]).flatMap neighborhoodBytes =
        records.flatMap neighborhoodBytes ++ neighborhoodBytes list := by simp
    have hwidth : (encodeLittle 8 vamanaMetadataSize).length =
        (encodeLittle 8 (vamanaMetadataSize + (records.flatMap neighborhoodBytes).length +
          (neighborhoodBytes list).length)).length := by
      rw [length_encodeLittle, length_encodeLittle]
    unfold DiskIndex.finish
    rw [hwrite]
    simp only [hbytes, hsize, hfront, List.append_assoc]
    refine (patch_between [] _ _ hwidth).trans ?_
    rw [List.nil_append, GraphFile.file, GraphFile.size, GraphFile.body, hbody,
      List.length_append, Nat.add_assoc]
    rfl
  · rw [hlength, UInt32.ofNat_toNat]
    exact hmerged.congr hwritten.members

theorem mapM_map_ok {α β γ Failure : Type} {convert : β → Except Failure γ} {prepare : α → β}
    {result : α → γ} {values : List α}
    (hconvert : ∀ value ∈ values, convert (prepare value) = .ok (result value)) :
    (values.map prepare).mapM convert = .ok (values.map result) := by
  rw [List.mapM_map]
  exact (mapM_congr hconvert).trans List.mapM_pure

theorem readFronts_ok (assertions : Bool) (shards : List Shard) :
    (shards.map Shard.files).mapM (fun shard => readIdmap shard.idmap) =
        .ok (shards.map Shard.ids) ∧
      ∃ sized widths, (shards.map Shard.files).mapM (fun shard => do
          let (_, reader) ← readCached 8 shard.vamana
          .ok reader) = .ok sized ∧
        sized.mapM (fun reader => do
          let (_, reader) ← readU32 reader
          .ok reader) = .ok widths ∧
        ((shards.map Shard.ids).zip widths).mapM
            (fun (idmap, reader) => readMedoid assertions idmap reader) =
          .ok (shards.map fun shard => (shard.renamedMedoid, shard.graph.body)) := by
  refine ⟨?_, shards.map fun shard => encodeLittle 4 shard.graph.width.toNat ++
      (encodeLittle 4 shard.graph.medoid.toNat ++
        (encodeLittle 8 shard.graph.frozenNum.toNat ++ shard.graph.body)),
    shards.map fun shard => encodeLittle 4 shard.graph.medoid.toNat ++
        (encodeLittle 8 shard.graph.frozenNum.toNat ++ shard.graph.body), ?_, ?_, ?_⟩
  · exact mapM_map_ok fun shard _ => readIdmap_files shard
  · exact mapM_map_ok fun shard _ => bind_ok.mpr
      ⟨_, readCached_append (length_encodeLittle 8 shard.graph.size), rfl⟩
  · exact mapM_map_ok fun shard _ => bind_ok.mpr
      ⟨_, reads_u32 shard.graph.width _, rfl⟩
  · rw [List.zip_map']
    refine mapM_map_ok fun shard _ => ?_
    simp only [readMedoid, bind_ok, reject_ok, element_eq_ok]
    refine ⟨_, reads_u32 shard.graph.medoid _, _, readCached_append (length_encodeLittle 8 _), (),
      ?_, _, shard.getElem?_rename shard.medoid_lt, rfl⟩
    rw [shard.frozenNum]
    rintro ⟨-, hfrozen⟩
    exact hfrozen rfl

variable (shuffler maxDegree) in
/-- The merged index has the list of every node once, in the order of the ids. The number of
shards is an `int` of the caller, which makes three of them at least. -/
theorem mergeShards_merged (assertions : Bool) (engine : Engine) {shards : List Shard} {count : Nat}
    (hcovers : Covers shards count) (hsome : shards ≠ []) (hcount : shards.length < 2 ^ 32) :
    ∃ merged : GraphFile,
      mergeShards shuffler assertions maxDegree engine (shards.map Shard.files) = .ok
        { vamana := merged.file
          medoids := encodeLittle 4 shards.length ++ (encodeLittle 4 1 ++
            (shards.map Shard.renamedMedoid).flatMap appendU32Le) } ∧
      merged.file.take 8 = encodeLittle 8 merged.file.length ∧
      merged.width = maxDegree ∧ merged.frozenNum = 0 ∧
      shards.getLast?.map Shard.renamedMedoid = some merged.medoid ∧
      merged.neighbors.length = count ∧
      ∀ (node : Nat) list, merged.neighbors[node]? = some list →
        MergedList maxDegree (shardNeighbors shards (UInt32.ofNat node)) list := by
  obtain ⟨hidmaps, sized, widths, hsized, hwidths, hmedoids⟩ := readFronts_ok assertions shards
  obtain ⟨last, hlast⟩ : ∃ last, shards.getLast? = some last :=
    ⟨_, List.getLast?_eq_getLast_of_ne_nil hsome⟩
  let nnodes := countNodes (shards.map Shard.ids)
  let front := encodeLittle 8 vamanaMetadataSize ++ (appendU32Le maxDegree ++
    (appendU32Le last.renamedMedoid ++ encodeLittle 8 0))
  let start : MergeState Engine :=
    { engine
      written := front
      mergedIndexSize := vamanaMetadataSize
      nhoodSet := List.replicate nnodes false
      finalNhood := []
      curId := 0 }
  have haligned : Aligned shards [] (shards.map fun shard => shard.graph.body) := by
    refine ⟨fun tag shard hshard => ?_⟩
    rw [List.getElem?_map, hshard]
    rfl
  have hstart : Written shards maxDegree nnodes front [] start := by
    refine ⟨⟨List.length_replicate, fun id hid => ?_, List.nodup_nil⟩, by simp, Or.inl rfl,
      fun id => Iff.rfl, [], rfl, (List.append_nil front).symm, rfl, by simp⟩
    change (List.replicate nnodes false)[id.toNat]? = _
    rw [List.getElem?_replicate_of_lt hid]
    simp [start]
  obtain ⟨others, merged, hfold, hmerged⟩ :=
    mergeNodes_ok shuffler hcount hcovers (lt_countNodes shards) rfl haligned hstart
  obtain ⟨neighbors, hlength, hfile, hlists⟩ := hmerged.finish shuffler rfl
  refine ⟨⟨maxDegree, last.renamedMedoid, 0, neighbors⟩, ?_, ?_, rfl, rfl, ?_, ?_, ?_⟩
  · simp only [mergeShards, bind_ok]
    refine ⟨_, hidmaps, sized, hsized, widths, hwidths, _, hmedoids, (others, merged), ?_, ?_⟩
    · rw [List.map_map, List.map_map, List.getLast?_map, hlast]
      exact hfold
    · rw [hfile, List.map_map, List.length_map]
      rfl
  · rw [GraphFile.length_file, GraphFile.file, List.take_left' (length_encodeLittle 8 _)]
  · rw [hlast]
    rfl
  · rw [hlength]
    exact hmerged.count_eq hcount hcovers hsome
  · exact fun node list hlist => (hlists node list hlist).congr fun id => mem_gathered hcount

/-- Two shards of three nodes, which share the second one. -/
def overlappingShards : List Shard :=
  [{  ids := [0, 1]
      graph := ⟨2, 0, 0, [[1], [0]]⟩
      ascending := by simp
      count_lt := by simp
      count := rfl
      degree := by simp
      targets := by simp
      medoid_lt := by simp
      frozenNum := rfl },
    { ids := [1, 2]
      graph := ⟨2, 1, 0, [[1], [0]]⟩
      ascending := by simp
      count_lt := by simp
      count := rfl
      degree := by simp
      targets := by simp
      medoid_lt := by simp
      frozenNum := rfl }]

def keepOrder : Shuffler Unit := ⟨fun engine list => (list, engine), fun _ list => .refl list⟩

theorem mergeShards_merged_overlapping :
    ∃ merged : GraphFile,
      mergeShards keepOrder true 1 () (overlappingShards.map Shard.files) = .ok
        { vamana := merged.file
          medoids := encodeLittle 4 2 ++ (encodeLittle 4 1 ++
            (appendU32Le 0 ++ appendU32Le 2)) } ∧
      merged.medoid = 2 ∧ merged.neighbors.length = 3 ∧
      ∀ list, merged.neighbors[1]? = some list →
        MergedList 1 (shardNeighbors overlappingShards 1) list := by
  have hcovers : Covers overlappingShards 3 := by
    intro node
    simp [overlappingShards]
    omega
  obtain ⟨merged, hmerge, -, -, -, hmedoid, hcount, hlists⟩ :=
    mergeShards_merged keepOrder 1 true () hcovers (by simp [overlappingShards])
      (by simp [overlappingShards])
  exact ⟨merged, hmerge, (Option.some.inj hmedoid).symm, hcount, hlists 1⟩

end SkipCell.DiskIndex

import SkipCell.Foundation.FirstOccurrence
import SkipCell.Foundation.Scatter
import SkipCell.Sidecar.Index

/-! # Canonical Communities

The partitioner numbers its blocks as it likes. The Communities are the same blocks, numbered by
their smallest node.
-/

namespace SkipCell.Build

open Foundation Sidecar

def lowerMinimum (communityCount node block : Nat) (minimumNode : List Nat) :
    Except Error (List Nat) := do
  reject (communityCount ≤ block) (.runtimeError "KaMinPar returned an out-of-range Community ID")
  .ok (minimumNode.modify block (min · node))

/-- The order of pairs of a smallest node and a block. -/
def MinimumBefore (minimumNode : List Nat) (left right : Nat) : Prop :=
  minimumNode.getD left 0 < minimumNode.getD right 0 ∨
    minimumNode.getD left 0 = minimumNode.getD right 0 ∧ left ≤ right

instance (minimumNode : List Nat) : DecidableRel (MinimumBefore minimumNode) :=
  fun _ _ => inferInstanceAs (Decidable (_ ∨ _))

def canonicalOrder (communityCount : Nat) (minimumNode : List Nat) : List Nat :=
  (List.range communityCount).insertionSort (MinimumBefore minimumNode)

def remapBlocks (communityCount : Nat) (order : List Nat) : List Nat :=
  order.zipIdx.foldl (fun remap (block, canonical) => remap.set block canonical)
    (List.replicate communityCount 0)

def canonicalizePartition (raw : List Nat) (communityCount : Nat) : Except Error (List Nat) := do
  let minimumNode ← scan32 (lowerMinimum communityCount) raw
    (List.replicate communityCount (2 ^ 32 - 1))
  reject (2 ^ 32 - 1 ∈ minimumNode) (.runtimeError "KaMinPar returned an empty Community")
  let remap := remapBlocks communityCount (canonicalOrder communityCount minimumNode)
  .ok (raw.map fun block => remap.getD block 0)

/-- The smallest node of a block, among those in front of `position`. -/
structure MinimumNodes (communityCount : Nat) (raw : List Nat) (position : Nat)
    (minimumNode : List Nat) : Prop where
  length : minimumNode.length = communityCount
  minimum : ∀ block < communityCount,
    minimumNode[block]? = some (if block ∈ raw.take position then raw.idxOf block else 2 ^ 32 - 1)

namespace MinimumNodes

variable {communityCount : Nat} {raw : List Nat}

theorem start : MinimumNodes communityCount raw 0 (List.replicate communityCount (2 ^ 32 - 1)) :=
  ⟨List.length_replicate, fun block hblock => by simp [hblock]⟩

theorem step {position : Nat} {block : Nat} {minimumNode : List Nat}
    (hminimum : MinimumNodes communityCount raw position minimumNode)
    (hblock : raw[position]? = some block) (hposition : position < 2 ^ 32) :
    MinimumNodes communityCount raw (position + 1) (minimumNode.modify block (min · position)) := by
  refine ⟨(List.length_modify _ _ _).trans hminimum.length, fun other hother => ?_⟩
  have htake : raw.take (position + 1) = raw.take position ++ [block] := by
    rw [List.take_add_one, hblock, Option.toList_some]
  rw [List.getElem?_modify, hminimum.minimum other hother]
  simp only [htake, List.mem_append, List.mem_singleton]
  by_cases hsame : block = other
  · subst hsame
    have hmem := List.mem_of_getElem? hblock
    by_cases hearlier : block ∈ raw.take position
    · have hless := (List.mem_take_iff_idxOf_lt hmem).mp hearlier
      simp [hearlier, Nat.min_eq_left (Nat.le_of_lt hless)]
    · have hfirst : raw.idxOf block = position := by
        refine Nat.le_antisymm (SameBlocks.idxOf_le hblock) (Nat.le_of_not_lt fun hless => ?_)
        exact hearlier ((List.mem_take_iff_idxOf_lt hmem).mpr hless)
      simp [hearlier, hfirst]
      omega
  · simp [hsame, Ne.symm hsame]

end MinimumNodes

theorem lowerMinimum_eq_ok {communityCount node block : Nat} {minimumNode result : List Nat} :
    lowerMinimum communityCount node block minimumNode = .ok result ↔
      block < communityCount ∧ minimumNode.modify block (min · node) = result := by
  simp only [lowerMinimum, bind_ok, reject_ok, Except.ok.injEq, exists_const, not_le]

section

variable {communityCount : Nat} {raw : List Nat}

theorem scan_lowerMinimum_ok (hrange : ∀ block ∈ raw, block < communityCount) (start : Nat)
    (minimumNode : List Nat) :
    ∃ last, scan (lowerMinimum communityCount) start raw minimumNode = .ok last := by
  obtain ⟨last, hscan, -⟩ := scan_total (motive := fun _ _ => True) trivial
    fun index block state hblock _ => ⟨_, lowerMinimum_eq_ok.mpr
      ⟨hrange block (List.mem_of_getElem? hblock), rfl⟩, trivial⟩
  exact ⟨last, hscan⟩

variable {minimumNode : List Nat}

theorem MinimumNodes.of_scan (hlength : raw.length ≤ 2 ^ 32)
    (hscan : scan (lowerMinimum communityCount) 0 raw
      (List.replicate communityCount (2 ^ 32 - 1)) = .ok minimumNode) :
    MinimumNodes communityCount raw raw.length minimumNode := by
  have hlast := scan_invariant (motive := MinimumNodes communityCount raw) hscan .start ?_
  · rwa [Nat.zero_add] at hlast
  · intro index block state next hblock hminimum hbody
    rw [Nat.zero_add] at hminimum hbody ⊢
    obtain ⟨-, rfl⟩ := lowerMinimum_eq_ok.mp hbody
    have hindex := (List.getElem_of_getElem? hblock).1
    exact hminimum.step hblock (Nat.lt_of_lt_of_le hindex hlength)

theorem MinimumNodes.unset_mem_iff (hlength : raw.length < 2 ^ 32)
    (hminimum : MinimumNodes communityCount raw raw.length minimumNode) :
    2 ^ 32 - 1 ∈ minimumNode ↔ ∃ block < communityCount, block ∉ raw := by
  have hfound := hminimum.minimum
  rw [List.take_length] at hfound
  constructor
  · intro hmem
    obtain ⟨block, hinside, hvalue⟩ := List.getElem_of_mem hmem
    have hblock : block < communityCount := hminimum.length ▸ hinside
    refine ⟨block, hblock, fun hoccurs => ?_⟩
    have hsome := hfound block hblock
    rw [List.getElem?_eq_getElem hinside, hvalue, if_pos hoccurs, Option.some_inj] at hsome
    have hless := List.idxOf_lt_length_of_mem hoccurs
    omega
  · rintro ⟨block, hblock, hmissing⟩
    have hsome := hfound block hblock
    rw [if_neg hmissing] at hsome
    exact List.mem_of_getElem? hsome

theorem canonicalOrder_perm (minimumNode : List Nat) :
    (canonicalOrder communityCount minimumNode).Perm (List.range communityCount) :=
  List.perm_insertionSort _ _

theorem canonicalOrder_pairwise (hminimum : MinimumNodes communityCount raw raw.length minimumNode)
    (hoccurs : ∀ block < communityCount, block ∈ raw) :
    (canonicalOrder communityCount minimumNode).Pairwise fun left right =>
      raw.idxOf left < raw.idxOf right := by
  have hsorted : (canonicalOrder communityCount minimumNode).Pairwise (MinimumBefore minimumNode) := by
    have : Std.Total (MinimumBefore minimumNode) := ⟨fun left right => by
      unfold MinimumBefore; omega⟩
    have : IsTrans Nat (MinimumBefore minimumNode) := ⟨fun left middle right => by
      unfold MinimumBefore; omega⟩
    exact List.pairwise_insertionSort _ _
  have hperm : (canonicalOrder communityCount minimumNode).Perm (List.range communityCount) :=
    canonicalOrder_perm minimumNode
  have hnodup := hperm.nodup_iff.mpr List.nodup_range
  have hvalue : ∀ block ∈ canonicalOrder communityCount minimumNode,
      block ∈ raw ∧ minimumNode.getD block 0 = raw.idxOf block := by
    intro block hmem
    have hblock := List.mem_range.mp (hperm.mem_iff.mp hmem)
    rw [List.getD_eq_getElem?_getD, hminimum.minimum block hblock, List.take_length,
      if_pos (hoccurs block hblock)]
    exact ⟨hoccurs block hblock, rfl⟩
  refine (hsorted.and hnodup).imp_of_mem ?_
  rintro left right hleft hright ⟨hbefore, hne⟩
  obtain ⟨hleftOccurs, hleftValue⟩ := hvalue left hleft
  obtain ⟨-, hrightValue⟩ := hvalue right hright
  have hdistinct : raw.idxOf left ≠ raw.idxOf right := fun hsame =>
    hne ((List.idxOf_inj hleftOccurs).mp hsame)
  unfold MinimumBefore at hbefore
  omega

theorem getD_remapBlocks {order : List Nat} (hperm : order.Perm (List.range communityCount))
    {block : Nat} (hblock : block < communityCount) :
    (remapBlocks communityCount order).getD block 0 = order.idxOf block := by
  have hmem := hperm.mem_iff.mpr (List.mem_range.mpr hblock)
  have hnodup := hperm.nodup_iff.mpr List.nodup_range
  have hwritten : (remapBlocks communityCount order)[block]? = some (order.idxOf block) := by
    refine getElem?_foldl_set (by rwa [List.length_replicate]) ?_ fun canonical hwrite => ?_
    · exact List.mk_mem_zipIdx_iff_getElem?.mpr (List.getElem?_idxOf hmem)
    · have hplace := List.mk_mem_zipIdx_iff_getElem?.mp hwrite
      obtain ⟨hinside, rfl⟩ := List.getElem_of_getElem? hplace
      exact (hnodup.idxOf_getElem canonical hinside).symm
  rw [List.getD_eq_getElem?_getD, hwritten, Option.getD_some]

theorem canonicalizePartition_renumbers (hlength : raw.length < 2 ^ 32)
    (hdense : ∀ block, block ∈ raw ↔ block < communityCount) :
    ∃ partition, canonicalizePartition raw communityCount = .ok partition ∧
      FirstOccurrence communityCount partition ∧ SameBlocks raw partition := by
  obtain ⟨minimumNode, hscan⟩ := scan_lowerMinimum_ok (fun block => (hdense block).mp) 0
    (List.replicate communityCount (2 ^ 32 - 1))
  have hminimum := MinimumNodes.of_scan (Nat.le_of_lt hlength) hscan
  have hnone : 2 ^ 32 - 1 ∉ minimumNode := fun hunset => by
    obtain ⟨block, hblock, hmissing⟩ := (hminimum.unset_mem_iff hlength).mp hunset
    exact hmissing ((hdense block).mpr hblock)
  have hperm : (canonicalOrder communityCount minimumNode).Perm (List.range communityCount) :=
    canonicalOrder_perm minimumNode
  have hmapped : (raw.map fun block =>
      (remapBlocks communityCount (canonicalOrder communityCount minimumNode)).getD block 0) =
        raw.map (canonicalOrder communityCount minimumNode).idxOf :=
    List.map_congr_left fun block hblock => getD_remapBlocks hperm ((hdense block).mp hblock)
  refine ⟨_, ?_, firstOccurrence_map hperm hdense
    (canonicalOrder_pairwise hminimum fun block => (hdense block).mpr)⟩
  rw [← hmapped]
  exact bind_ok.mpr ⟨minimumNode, scanCounted_eq_ok.mpr ⟨hlength, hscan⟩,
    bind_ok.mpr ⟨(), reject_ok.mpr hnone, rfl⟩⟩

theorem canonicalizePartition_eq_ok {partition : List Nat} :
    canonicalizePartition raw communityCount = .ok partition ↔
      raw.length < 2 ^ 32 ∧ (∀ block, block ∈ raw ↔ block < communityCount) ∧
        FirstOccurrence communityCount partition ∧ SameBlocks raw partition := by
  constructor
  · intro haccepted
    obtain ⟨minimumNode, hcounted, hrest⟩ := bind_ok.mp haccepted
    obtain ⟨hlength, hscan⟩ := scanCounted_eq_ok.mp hcounted
    obtain ⟨_, hnone, -⟩ := bind_ok.mp hrest
    have hminimum := MinimumNodes.of_scan (Nat.le_of_lt hlength) hscan
    have hdense : ∀ block, block ∈ raw ↔ block < communityCount := by
      intro block
      constructor
      · intro hmem
        obtain ⟨node, hnode⟩ := List.getElem?_of_mem hmem
        obtain ⟨before, after, hbody⟩ := scan_accepts hscan hnode
        exact (lowerMinimum_eq_ok.mp hbody).1
      · intro hblock
        by_contra hmissing
        exact reject_ok.mp hnone ((hminimum.unset_mem_iff hlength).mpr ⟨block, hblock, hmissing⟩)
    obtain ⟨other, hother, hproperties⟩ := canonicalizePartition_renumbers hlength hdense
    obtain rfl := Except.ok.inj (haccepted.symm.trans hother)
    exact ⟨hlength, hdense, hproperties⟩
  · rintro ⟨hlength, hdense, hfirst, hsame⟩
    obtain ⟨other, hother, hotherFirst, hotherSame⟩ :=
      canonicalizePartition_renumbers hlength hdense
    rw [hother, hotherFirst.unique hfirst (hotherSame.symm.trans hsame)]

end

section

variable {communityCount : Nat} {raw : List Nat}

structure Relabelling (communityCount : Nat) (relabel : Nat → Nat) : Prop where
  inRange : ∀ block < communityCount, relabel block < communityCount
  injective : ∀ block < communityCount, ∀ other < communityCount,
    relabel block = relabel other → block = other

variable {relabel : Nat → Nat}

theorem Relabelling.surjective (hrelabel : Relabelling communityCount relabel) {block : Nat}
    (hblock : block < communityCount) : ∃ other < communityCount, relabel other = block := by
  have hnodup : ((List.range communityCount).map relabel).Nodup := by
    refine List.Nodup.map_on (fun first hfirst second hsecond hsame => ?_) List.nodup_range
    exact hrelabel.injective first (List.mem_range.mp hfirst) second (List.mem_range.mp hsecond)
      hsame
  have hsubset : (List.range communityCount).map relabel ⊆ List.range communityCount := by
    intro value hvalue
    obtain ⟨other, hother, rfl⟩ := List.mem_map.mp hvalue
    exact List.mem_range.mpr (hrelabel.inRange other (List.mem_range.mp hother))
  have hperm := (List.subperm_of_subset hnodup hsubset).perm_of_length_le (by simp)
  obtain ⟨other, hother, hsame⟩ := List.mem_map.mp (hperm.mem_iff.mpr (List.mem_range.mpr hblock))
  exact ⟨other, List.mem_range.mp hother, hsame⟩

theorem Relabelling.mem_map_iff (hrelabel : Relabelling communityCount relabel)
    (hrange : ∀ block ∈ raw, block < communityCount) {block : Nat} (hblock : block < communityCount) :
    relabel block ∈ raw.map relabel ↔ block ∈ raw := by
  refine ⟨fun hmem => ?_, List.mem_map_of_mem⟩
  obtain ⟨other, hother, hsame⟩ := List.mem_map.mp hmem
  rwa [← hrelabel.injective other (hrange other hother) block hblock hsame]

theorem canonicalizePartition_eq_error (hrange : ∀ block ∈ raw, block < communityCount) :
    (2 ^ 32 ≤ raw.length → canonicalizePartition raw communityCount = .error .endless) ∧
      (raw.length < 2 ^ 32 → (∃ block < communityCount, block ∉ raw) →
        canonicalizePartition raw communityCount =
          .error (.runtimeError "KaMinPar returned an empty Community")) := by
  constructor
  · intro hlength
    have htaken : ∀ block ∈ raw.take (2 ^ 32), block < communityCount :=
      fun block hblock => hrange block (List.mem_of_mem_take hblock)
    obtain ⟨first, hfirst⟩ := scan_lowerMinimum_ok htaken 0
      (List.replicate communityCount (2 ^ 32 - 1))
    obtain ⟨second, hsecond⟩ := scan_lowerMinimum_ok htaken 0 first
    rw [canonicalizePartition, scan32, scanCounted, if_neg (Nat.not_lt.mpr hlength), hfirst]
    simp only [bind, Except.bind, hsecond]
  · intro hlength hmissing
    obtain ⟨minimumNode, hscan⟩ := scan_lowerMinimum_ok hrange 0
      (List.replicate communityCount (2 ^ 32 - 1))
    have hminimum := MinimumNodes.of_scan (Nat.le_of_lt hlength) hscan
    have hunset := (hminimum.unset_mem_iff hlength).mpr hmissing
    rw [canonicalizePartition, scan32, scanCounted, if_pos hlength, hscan]
    simp only [bind, Except.bind, reject, if_pos hunset]

theorem canonicalizePartition_map (hrelabel : Relabelling communityCount relabel)
    (hrange : ∀ block ∈ raw, block < communityCount) :
    canonicalizePartition (raw.map relabel) communityCount =
      canonicalizePartition raw communityCount := by
  have hmapped : ∀ block ∈ raw.map relabel, block < communityCount := by
    intro block hblock
    obtain ⟨other, hother, rfl⟩ := List.mem_map.mp hblock
    exact hrelabel.inRange other (hrange other hother)
  have hsame : SameBlocks raw (raw.map relabel) := .map fun block hblock other hother =>
    hrelabel.injective block (hrange block hblock) other (hrange other hother)
  rcases Nat.lt_or_ge raw.length (2 ^ 32) with hlength | hlength
  · by_cases hmissing : ∃ block < communityCount, block ∉ raw
    · rw [(canonicalizePartition_eq_error hrange).2 hlength hmissing]
      obtain ⟨block, hblock, hnot⟩ := hmissing
      refine (canonicalizePartition_eq_error hmapped).2 (by rwa [List.length_map])
        ⟨relabel block, hrelabel.inRange block hblock, ?_⟩
      rwa [hrelabel.mem_map_iff hrange hblock]
    · push Not at hmissing
      obtain ⟨partition, haccepted, hfirst, hblocks⟩ := canonicalizePartition_renumbers hlength
        fun block => ⟨hrange block, hmissing block⟩
      rw [haccepted]
      refine canonicalizePartition_eq_ok.mpr ⟨by rwa [List.length_map], fun block => ?_, hfirst,
        hsame.symm.trans hblocks⟩
      refine ⟨hmapped block, fun hblock => ?_⟩
      obtain ⟨other, hother, rfl⟩ := hrelabel.surjective hblock
      exact List.mem_map_of_mem (hmissing other hother)
  · rw [(canonicalizePartition_eq_error hrange).1 hlength]
    exact (canonicalizePartition_eq_error hmapped).1 (by rwa [List.length_map])

/-- Every partition into nonempty blocks is accepted. What is returned has the same blocks,
labelled from zero in the order of their first nodes, and is the same for every labelling of the
blocks, its own among them. -/
theorem canonicalizePartition_canonical (raw : List Nat) (communityCount : Nat) :
    ((∃ partition, canonicalizePartition raw communityCount = .ok partition) ↔
      raw.length < 2 ^ 32 ∧ ∀ block, block ∈ raw ↔ block < communityCount) ∧
    (∀ partition, canonicalizePartition raw communityCount = .ok partition →
      FirstOccurrence communityCount partition ∧ SameBlocks raw partition ∧
        canonicalizePartition partition communityCount = .ok partition) ∧
    ∀ relabel, Relabelling communityCount relabel → (∀ block ∈ raw, block < communityCount) →
      canonicalizePartition (raw.map relabel) communityCount =
        canonicalizePartition raw communityCount := by
  refine ⟨⟨?_, ?_⟩, ?_, fun relabel => canonicalizePartition_map⟩
  · rintro ⟨partition, haccepted⟩
    obtain ⟨hlength, hdense, -⟩ := canonicalizePartition_eq_ok.mp haccepted
    exact ⟨hlength, hdense⟩
  · rintro ⟨hlength, hdense⟩
    obtain ⟨partition, haccepted, -⟩ := canonicalizePartition_renumbers hlength hdense
    exact ⟨partition, haccepted⟩
  · intro partition haccepted
    obtain ⟨hlength, hdense, hfirst, hsame⟩ := canonicalizePartition_eq_ok.mp haccepted
    refine ⟨hfirst, hsame, canonicalizePartition_eq_ok.mpr ⟨?_, hfirst.dense, hfirst, .refl _⟩⟩
    rwa [← hsame.length]

end

end SkipCell.Build

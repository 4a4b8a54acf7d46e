import SkipCell.Foundation.Tally
import SkipCell.Search.NeighborPriorityQueue

/-! # The queue keeps the nearest of what was offered

Where every id always comes with one distance, the entries are what sorting all candidates and
cutting at the capacity leaves, in whatever order they came. An entry that was pushed out is
never taken back, so no id is returned twice.
-/

namespace SkipCell.Search

open Foundation

namespace NeighborQueue

variable {queue : NeighborQueue} {neighbor : Neighbor}

theorem items_inserted (hplace : place queue.items neighbor < queue.capacity) :
    (queue.inserted neighbor).items =
      (noGreater Neighbor.rank neighbor.rank queue.items ++ fresh neighbor ::
        greater Neighbor.rank neighbor.rank queue.items).take queue.capacity := by
  have hlength : (noGreater Neighbor.rank neighbor.rank queue.items).length =
      place queue.items neighbor := rfl
  rw [List.take_append, hlength, List.take_of_length_le (by omega),
    show queue.capacity - place queue.items neighbor =
      queue.capacity - 1 - place queue.items neighbor + 1 by omega, List.take_succ_cons]
  rfl

/-- The ranks of the entries lead all ranks that were offered. -/
def Leads (queue : NeighborQueue) (offered : List Neighbor) : Prop :=
  Leading (· < ·) (· ∈ offered.map Neighbor.rank) queue.capacity (queue.items.map Neighbor.rank)

variable {offered : List Neighbor}

theorem mem_ranks_append {rank : Int ×ₗ Nat} :
    rank ∈ (offered ++ [neighbor]).map Neighbor.rank ↔
      rank ∈ offered.map Neighbor.rank ∨ rank = neighbor.rank := by
  rw [List.map_append, List.mem_append, List.map_singleton, List.mem_singleton]

theorem Leads.skip (hleads : queue.Leads offered)
    (hskip : neighbor.rank ∉ queue.items.map Neighbor.rank → queue.items.length = queue.capacity ∧
      ∀ item ∈ queue.items, item.rank < neighbor.rank) :
    queue.Leads (offered ++ [neighbor]) := by
  refine ⟨hleads.ordered, hleads.bounded, fun rank hrank => ?_, fun rank hrank hout => ?_⟩
  · exact mem_ranks_append.mpr (.inl (hleads.chosen rank hrank))
  · rcases mem_ranks_append.mp hrank with hold | rfl
    · exact hleads.rest rank hold hout
    · obtain ⟨hfull, hbefore⟩ := hskip hout
      refine ⟨by rw [List.length_map, hfull], fun listed hlisted => ?_⟩
      obtain ⟨item, hitem, rfl⟩ := List.mem_map.mp hlisted
      exact hbefore item hitem

theorem Leads.inserted (hleads : queue.Leads offered) (hcomparable : queue.Comparable)
    (hplace : place queue.items neighbor < queue.capacity) (hmeets : ¬ Meets queue.items neighbor) :
    (queue.inserted neighbor).Leads (offered ++ [neighbor]) := by
  have hother : ∀ other ∈ queue.items, other.rank ≠ (fresh neighbor).rank :=
    fun other hother hrank => hmeets (meets_of_rank_eq hcomparable hother hrank)
  have hsorted := List.pairwise_map.mpr (sorted_insert hcomparable.ranked hother)
  have hall : noGreater Neighbor.rank neighbor.rank queue.items ++
      greater Neighbor.rank neighbor.rank queue.items = queue.items :=
    noGreater_append_greater _ _
  have hperm : ((noGreater Neighbor.rank neighbor.rank queue.items ++ fresh neighbor ::
      greater Neighbor.rank neighbor.rank queue.items).map Neighbor.rank).Perm
        (neighbor.rank :: queue.items.map Neighbor.rank) := by
    conv_rhs => rw [← hall]
    exact List.perm_middle.map Neighbor.rank
  have hleading := Leading.insert hleads hperm hsorted
  unfold Leads
  rw [items_inserted hplace, List.map_take]
  refine ⟨hleading.ordered, hleading.bounded, fun rank hrank => ?_, fun rank hrank => ?_⟩
  · exact mem_ranks_append.mpr (hleading.chosen rank hrank)
  · exact hleading.rest rank (mem_ranks_append.mp hrank)

theorem map_markExpanded {β : Type} (queue : NeighborQueue) (convert : Neighbor → β)
    (hconvert : ∀ item : Neighbor, convert { item with expanded := true } = convert item) :
    queue.markExpanded.items.map convert = queue.items.map convert := by
  refine List.ext_getElem? fun place => ?_
  simp only [markExpanded, List.getElem?_map, List.getElem?_modify]
  cases queue.items[place]? with
  | none => rfl
  | some item =>
    simp only [Option.map_eq_map, Option.map_some]
    split
    next => rw [hconvert]
    next => rfl

theorem mem_markExpanded {item : Neighbor} (hitem : item ∈ queue.markExpanded.items) :
    ∃ old ∈ queue.items, item = old ∨ item = { old with expanded := true } := by
  obtain ⟨place, hplace, rfl⟩ := List.getElem_of_mem hitem
  have hinside : place < queue.items.length := by
    simpa [markExpanded] using hplace
  refine ⟨queue.items[place], List.getElem_mem hinside, ?_⟩
  simp only [markExpanded, List.getElem_modify]
  split
  next => exact .inr rfl
  next => exact .inl rfl

end NeighborQueue

namespace NeighborPriorityQueue

/-- What calls of `insert`, and of `closest_unexpanded` while there is an entry to expand, bring
about: the candidates that were offered, the entries that were returned, and the queue. -/
inductive Reached (capacity : Nat) : List Neighbor → List Neighbor → NeighborPriorityQueue → Prop
  | start : Reached capacity [] [] (withCapacity capacity)
  | insert {offered answers : List Neighbor} {queue next : NeighborPriorityQueue}
      (nbr : Neighbor) : Reached capacity offered answers queue → queue.insert nbr = some next →
        Reached capacity (offered ++ [nbr]) answers next
  | closestUnexpanded {offered answers : List Neighbor} {queue next : NeighborPriorityQueue}
      {answer : Neighbor} : Reached capacity offered answers queue → queue.cur < queue.size →
        queue.closestUnexpanded = some (next, answer) →
        Reached capacity offered (answers ++ [answer]) next

/-- The distances are numbers, and every id always comes with the same. -/
structure Consistent (offered : List Neighbor) : Prop where
  numbers : ∀ nbr ∈ offered, nbr.IsNumber
  same : ∀ left ∈ offered, ∀ right ∈ offered, left.id = right.id →
    left.distance.key = right.distance.key

theorem Consistent.rank_eq {offered : List Neighbor} (hoffered : Consistent offered)
    {left right : Neighbor} (hleft : left ∈ offered) (hright : right ∈ offered)
    (hid : left.id = right.id) : left.rank = right.rank := by
  rw [Neighbor.rank, Neighbor.rank, hoffered.same left hleft right hright hid, hid]

theorem Consistent.of_append {offered : List Neighbor} {nbr : Neighbor}
    (hoffered : Consistent (offered ++ [nbr])) : Consistent offered :=
  ⟨fun other hother => hoffered.numbers other (List.mem_append_left _ hother),
    fun left hleft right hright => hoffered.same left (List.mem_append_left _ hleft) right
      (List.mem_append_left _ hright)⟩

/-- What holds of every queue that is reached. -/
structure Keeps (capacity : Nat) (offered answers : List Neighbor)
    (queue : NeighborPriorityQueue) : Prop where
  fits : queue.Fits
  sameCapacity : queue.capacity = capacity
  comparable : queue.view.Comparable
  cursor : queue.cur = queue.view.items.findIdx fun item => !item.expanded
  leads : queue.view.Leads offered
  origin : ∀ item ∈ queue.view.items, ∃ nbr ∈ offered,
    nbr.id = item.id ∧ nbr.distance = item.distance
  answered : ∀ answer ∈ answers, (∃ nbr ∈ offered, nbr.id = answer.id) ∧
    ∀ item ∈ queue.view.items, item.id = answer.id → item.expanded = true
  distinct : (answers.map Neighbor.id).Nodup

namespace Keeps

variable {capacity : Nat} {offered answers : List Neighbor} {queue next : NeighborPriorityQueue}
variable {nbr : Neighbor}

theorem start (capacity : Nat) : Keeps capacity [] [] (withCapacity capacity) := by
  have hitems : (withCapacity capacity).view.items = [] := by simp [view, withCapacity]
  refine ⟨⟨Nat.zero_le _, ?_⟩, rfl, ⟨?_, ?_, ?_⟩, ?_, ⟨?_, ?_, ?_, ?_⟩, ?_, List.forall_mem_nil _, .nil⟩
  all_goals try rw [hitems]
  · rw [withCapacity, List.length_replicate]
    exact Nat.lt_succ_self capacity
  · exact Nat.zero_le _
  · exact List.forall_mem_nil _
  · exact .nil
  · rfl
  · exact .nil
  · exact Nat.zero_le _
  · exact List.forall_mem_nil _
  · exact List.forall_mem_nil _
  · exact List.forall_mem_nil _

section

variable (hkeeps : Keeps capacity offered answers queue)
include hkeeps

theorem item_rank_eq (hoffered : Consistent (offered ++ [nbr])) {item : Neighbor}
    (hitem : item ∈ queue.view.items) (hid : item.id = nbr.id) : item.rank = nbr.rank := by
  obtain ⟨other, hother, hotherId, hdistance⟩ := hkeeps.origin item hitem
  have hsame := hoffered.rank_eq (List.mem_append_left _ hother) (List.mem_append_right _
    (List.mem_singleton.mpr rfl)) (hotherId.trans hid)
  rw [← hsame, Neighbor.rank, Neighbor.rank, hotherId, hdistance]

theorem place_eq (hoffered : Consistent offered) {first second : Nat}
    (hfirst : first < queue.view.items.length) (hsecond : second < queue.view.items.length)
    (hid : queue.view.items[first].id = queue.view.items[second].id) : first = second := by
  obtain ⟨left, hleft, hleftId, hleftDistance⟩ := hkeeps.origin _ (List.getElem_mem hfirst)
  obtain ⟨right, hright, hrightId, hrightDistance⟩ := hkeeps.origin _ (List.getElem_mem hsecond)
  have hrank : queue.view.items[first].rank = queue.view.items[second].rank := by
    have hsame := hoffered.rank_eq hleft hright (by rw [hleftId, hrightId, hid])
    rwa [Neighbor.rank, Neighbor.rank, hleftId, hleftDistance, hrightId, hrightDistance] at hsame
  rcases Nat.lt_trichotomy first second with hless | hsame | hgreater
  · exact absurd hrank (List.pairwise_iff_getElem.mp hkeeps.comparable.ranked _ _ hfirst hsecond
      hless).ne
  · exact hsame
  · exact absurd hrank (List.pairwise_iff_getElem.mp hkeeps.comparable.ranked _ _ hsecond hfirst
      hgreater).ne'

theorem rejects_of_behind (hcapacity : 0 < capacity) (hnumber : nbr.IsNumber)
    (hfull : queue.view.items.length = queue.view.capacity)
    (hbehind : ∀ item ∈ queue.view.items, item.rank < nbr.rank) :
    queue.view.rejects nbr = true := by
  have hview : queue.view.capacity = capacity := hkeeps.sameCapacity
  have hne : queue.view.items ≠ [] := List.ne_nil_of_length_pos (by omega)
  have hmem := List.getLast_mem hne
  have hprecedes := (Neighbor.precedes_iff (hkeeps.comparable.numbers _ hmem) hnumber).mpr
    (hbehind _ hmem)
  simp [NeighborQueue.rejects, hfull, List.getLast?_eq_some_getLast hne, hprecedes]

theorem behind_of_rejects (hposition : 0 < queue.capacity) (hnumber : nbr.IsNumber)
    (hrejects : queue.view.rejects nbr = true) :
    queue.view.items.length = queue.view.capacity ∧
      ∀ item ∈ queue.view.items, item.rank < nbr.rank := by
  rw [NeighborQueue.rejects, Bool.and_eq_true, decide_eq_true_eq] at hrejects
  obtain ⟨hfull, hlast⟩ := hrejects
  have hview : 0 < queue.view.capacity := hposition
  have hne : queue.view.items ≠ [] := List.ne_nil_of_length_pos (by omega)
  rw [List.getLast?_eq_some_getLast hne] at hlast
  have hless : (queue.view.items.getLast hne).rank < nbr.rank :=
    (Neighbor.precedes_iff (hkeeps.comparable.numbers _ (List.getLast_mem hne)) hnumber).mp hlast
  refine ⟨hfull, fun item hitem => ?_⟩
  rw [← List.dropLast_append_getLast hne] at hitem
  have hranked := hkeeps.comparable.ranked
  rw [← List.dropLast_append_getLast hne] at hranked
  rcases List.mem_append.mp hitem with hfront | hend
  · have hbefore := (List.pairwise_append.mp hranked).2.2 item hfront _
      (List.mem_singleton.mpr rfl)
    exact hbefore.trans hless
  · rwa [List.mem_singleton.mp hend]

theorem insert (hcapacity : 0 < capacity) (hoffered : Consistent (offered ++ [nbr])) :
    ∃ next, queue.insert nbr = some next ∧ Keeps capacity (offered ++ [nbr]) answers next := by
  have hnumber : nbr.IsNumber := hoffered.numbers nbr (by simp)
  have hposition : 0 < queue.capacity := hkeeps.sameCapacity.symm ▸ hcapacity
  obtain ⟨next, hnext, hfits, hsame, hview⟩ :=
    insert_spec hkeeps.fits hkeeps.comparable hposition hnumber
  refine ⟨next, hnext, ?_⟩
  rw [NeighborQueue.insert_eq hkeeps.comparable hposition hnumber] at hview
  have hwider : ∀ {item : Neighbor}, (∃ other ∈ offered, other.id = item.id ∧
      other.distance = item.distance) → ∃ other ∈ offered ++ [nbr], other.id = item.id ∧
        other.distance = item.distance := by
    rintro item ⟨other, hother, hids⟩
    exact ⟨other, List.mem_append_left _ hother, hids⟩
  by_cases hkept : queue.view.rejects nbr = true ∨ NeighborQueue.Meets queue.view.items nbr
  · rw [if_pos hkept] at hview
    have hcur : next.cur = queue.cur := congrArg NeighborQueue.cursor hview
    refine ⟨hfits, hsame.trans hkeeps.sameCapacity, hview ▸ hkeeps.comparable, ?_, ?_, ?_, ?_,
      hkeeps.distinct⟩
    · rw [hview, hcur]
      exact hkeeps.cursor
    · rw [hview]
      refine hkeeps.leads.skip fun hout => ?_
      rcases hkept with hrejects | ⟨middle, -, -, hid⟩
      · exact hkeeps.behind_of_rejects hposition hnumber hrejects
      · obtain ⟨item, hitem, hid⟩ := Option.map_eq_some_iff.mp hid
        have hmem := List.mem_of_getElem? hitem
        exact absurd (hkeeps.item_rank_eq hoffered hmem hid ▸ List.mem_map_of_mem hmem) hout
    · rw [hview]
      exact fun item hitem => hwider (hkeeps.origin item hitem)
    · rw [hview]
      intro answer hanswer
      obtain ⟨⟨other, hother, hid⟩, hexpanded⟩ := hkeeps.answered answer hanswer
      exact ⟨⟨other, List.mem_append_left _ hother, hid⟩, hexpanded⟩
  · rw [if_neg hkept] at hview
    obtain ⟨hrejects, hmeets⟩ := not_or.mp hkept
    have hplace := NeighborQueue.place_lt_capacity hkeeps.comparable hposition hnumber
      (by simpa using hrejects) hmeets
    have hperm := NeighborQueue.items_inserted_perm queue.view nbr hplace
    have hcur : next.cur = min (NeighborQueue.place queue.view.items nbr) queue.cur :=
      congrArg NeighborQueue.cursor hview
    refine ⟨hfits, hsame.trans hkeeps.sameCapacity,
      hview ▸ hkeeps.comparable.inserted hnumber hplace hmeets, ?_,
      hview ▸ hkeeps.leads.inserted hkeeps.comparable hplace hmeets, ?_, ?_, hkeeps.distinct⟩
    · rw [hcur, hview, NeighborQueue.findIdx_inserted, ← hkeeps.cursor]
    · rw [hview]
      intro item hitem
      rcases List.mem_cons.mp (hperm.mem_iff.mp hitem) with rfl | hold
      · exact ⟨nbr, by simp, rfl, rfl⟩
      · exact hwider (hkeeps.origin item (List.mem_of_mem_take hold))
    · rw [hview]
      intro answer hanswer
      obtain ⟨⟨other, hother, hid⟩, hexpanded⟩ := hkeeps.answered answer hanswer
      refine ⟨⟨other, List.mem_append_left _ hother, hid⟩, fun item hitem hsameId => ?_⟩
      rcases List.mem_cons.mp (hperm.mem_iff.mp hitem) with rfl | hold
      · -- it was offered before, so it is an entry, or a full queue is in front of it
        exfalso
        have hrank : other.rank = nbr.rank := hoffered.rank_eq (List.mem_append_left _ hother)
          (by simp) (hid.trans hsameId.symm)
        have hout : nbr.rank ∉ queue.view.items.map Neighbor.rank := by
          intro hlisted
          obtain ⟨entry, hentry, hsameRank⟩ := List.mem_map.mp hlisted
          exact hmeets (NeighborQueue.meets_of_rank_eq hkeeps.comparable hentry hsameRank)
        obtain ⟨hfull, hbefore⟩ :=
          hkeeps.leads.rest nbr.rank (hrank ▸ List.mem_map_of_mem hother) hout
        rw [List.length_map] at hfull
        exact hrejects (hkeeps.rejects_of_behind hcapacity hnumber hfull fun entry hentry =>
          hbefore _ (List.mem_map_of_mem hentry))
      · exact hexpanded item (List.mem_of_mem_take hold) hsameId

theorem closestUnexpanded (hoffered : Consistent offered) (hopen : queue.cur < queue.size) :
    ∃ next, ∃ entry ∈ queue.view.items,
      queue.closestUnexpanded = some (next, { entry with expanded := true }) ∧
      entry.expanded = false ∧
      (∀ other ∈ queue.view.items, other.expanded = false →
        other = entry ∨ entry.precedes other = true) ∧
      Keeps capacity offered (answers ++ [{ entry with expanded := true }]) next := by
  have hinside : queue.cur < queue.view.items.length := hkeeps.fits.length_items.symm ▸ hopen
  obtain ⟨next, hnext, hfits, hsame, hview⟩ := closestUnexpanded_spec hkeeps.fits hinside
  obtain ⟨hunexpanded, hcursor⟩ := NeighborQueue.markExpanded_cursor
    (show queue.view.cursor = _ from hkeeps.cursor) hinside
  have hsorted := NeighborQueue.sorted_of_ranked hkeeps.comparable.numbers hkeeps.comparable.ranked
  have hentry := List.getElem_mem hinside
  refine ⟨next, queue.view.items[queue.cur], hentry, hnext, hunexpanded, ?_, ?_⟩
  · intro other hother hotherUnexpanded
    obtain ⟨place, hplace, rfl⟩ := List.getElem_of_mem hother
    rcases Nat.lt_trichotomy place queue.cur with hless | rfl | hgreater
    · have hbefore := hkeeps.cursor ▸ hless
      have hexpanded := List.not_of_lt_findIdx hbefore
      rw [hotherUnexpanded] at hexpanded
      cases hexpanded
    · exact .inl rfl
    · exact .inr (List.pairwise_iff_getElem.mp hsorted _ _ hinside hplace hgreater)
  · have hranks := queue.view.map_markExpanded Neighbor.rank fun _ => rfl
    have hlength : queue.view.markExpanded.items.length = queue.view.items.length :=
      List.length_modify _ _ _
    have hcapacity : next.view.capacity = queue.view.capacity := hsame
    have hcur : next.cur = queue.view.markExpanded.cursor := congrArg NeighborQueue.cursor hview
    refine ⟨hfits, hsame.trans hkeeps.sameCapacity, ⟨?_, ?_, ?_⟩, ?_, ?_, ?_, ?_, ?_⟩
    · rw [hcapacity, hview, hlength]
      exact hkeeps.comparable.size
    · rw [hview]
      intro item hitem
      obtain ⟨old, hold, hmarked⟩ := NeighborQueue.mem_markExpanded hitem
      have hnumber := hkeeps.comparable.numbers old hold
      rcases hmarked with rfl | rfl
      · exact hnumber
      · exact hnumber
    · rw [hview]
      refine List.pairwise_map.mp ?_
      rw [hranks]
      exact List.pairwise_map.mpr hkeeps.comparable.ranked
    · rw [hcur, hview]
      exact hcursor
    · unfold NeighborQueue.Leads
      rw [hcapacity, hview, hranks]
      exact hkeeps.leads
    · rw [hview]
      intro item hitem
      obtain ⟨old, hold, hmarked⟩ := NeighborQueue.mem_markExpanded hitem
      obtain ⟨nbr, hnbr, hsameNbr⟩ := hkeeps.origin old hold
      refine ⟨nbr, hnbr, ?_⟩
      rcases hmarked with rfl | rfl
      · exact hsameNbr
      · exact hsameNbr
    · rw [hview]
      intro answer hanswer
      rcases List.mem_append.mp hanswer with hearlier | hlast
      · obtain ⟨hfrom, hexpanded⟩ := hkeeps.answered answer hearlier
        refine ⟨hfrom, fun item hitem hid => ?_⟩
        obtain ⟨old, hold, hmarked⟩ := NeighborQueue.mem_markExpanded hitem
        rcases hmarked with rfl | rfl
        · exact hexpanded _ hold hid
        · rfl
      · obtain rfl := List.mem_singleton.mp hlast
        obtain ⟨nbr, hnbr, hid, -⟩ := hkeeps.origin _ hentry
        refine ⟨⟨nbr, hnbr, hid⟩, fun item hitem hsameId => ?_⟩
        obtain ⟨place, hplace, rfl⟩ := List.getElem_of_mem hitem
        simp only [NeighborQueue.markExpanded, List.getElem_modify] at hsameId ⊢
        by_cases hat : queue.view.cursor = place
        · rw [if_pos hat]
        · rw [if_neg hat] at hsameId
          exact absurd (hkeeps.place_eq hoffered (hlength ▸ hplace) hinside hsameId) (Ne.symm hat)
    · rw [List.map_append, List.map_singleton]
      refine List.nodup_append.mpr ⟨hkeeps.distinct, List.nodup_singleton _, ?_⟩
      intro id hid other hother
      rw [List.mem_singleton.mp hother]
      rintro rfl
      obtain ⟨answer, hanswer, hsameId⟩ := List.mem_map.mp hid
      have hexpanded := (hkeeps.answered answer hanswer).2 _ hentry hsameId.symm
      cases hexpanded.symm.trans hunexpanded

end

end Keeps

theorem Reached.keeps {capacity : Nat} (hcapacity : 0 < capacity) {offered answers : List Neighbor}
    {queue : NeighborPriorityQueue} (hreached : Reached capacity offered answers queue)
    (hoffered : Consistent offered) : Keeps capacity offered answers queue := by
  induction hreached with
  | start => exact .start capacity
  | insert nbr _ hinsert ih =>
    obtain ⟨next, hnext, hkeeps⟩ := (ih hoffered.of_append).insert hcapacity hoffered
    obtain rfl := Option.some.inj (hinsert.symm.trans hnext)
    exact hkeeps
  | closestUnexpanded _ hopen hclosest ih =>
    obtain ⟨next, entry, -, hnext, -, -, hkeeps⟩ := (ih hoffered).closestUnexpanded hoffered hopen
    obtain ⟨rfl, rfl⟩ := Prod.mk.inj (Option.some.inj (hclosest.symm.trans hnext))
    exact hkeeps

/-- All ranks that were offered, sorted, without repetitions, up to the capacity. -/
def nearestRanks (capacity : Nat) (offered : List Neighbor) : List (Int ×ₗ Nat) :=
  ((offered.map Neighbor.rank).dedup.insertionSort (· ≤ ·)).take capacity

theorem leading_nearestRanks (capacity : Nat) (offered : List Neighbor) :
    Leading (· < ·) (· ∈ offered.map Neighbor.rank) capacity (nearestRanks capacity offered) := by
  have hperm := List.perm_insertionSort (· ≤ ·) (offered.map Neighbor.rank).dedup
  have hnodup := hperm.nodup_iff.mpr (List.nodup_dedup _)
  have hsorted := List.pairwise_insertionSort (· ≤ ·) (offered.map Neighbor.rank).dedup
  refine leading_take ((hsorted.and hnodup).imp fun ⟨hle, hne⟩ => lt_of_le_of_ne hle hne) ?_
  intro rank
  rw [hperm.mem_iff, List.mem_dedup]

/-- Whatever was offered in whatever order, the entries are the nearest of it, sorted, and each
answer is the nearest entry that was not expanded. No id is answered twice. -/
theorem reached_nearest {capacity : Nat} (hcapacity : 1 ≤ capacity)
    {offered answers : List Neighbor} {queue : NeighborPriorityQueue}
    (hreached : Reached capacity offered answers queue) (hoffered : Consistent offered) :
    queue.view.items.map Neighbor.rank = nearestRanks capacity offered ∧
    (∀ item ∈ queue.view.items, ∃ nbr ∈ offered,
      nbr.id = item.id ∧ nbr.distance = item.distance) ∧
    queue.view.items.Pairwise (fun left right => left.precedes right = true) ∧
    (queue.cur < queue.size ↔ ∃ item ∈ queue.view.items, item.expanded = false) ∧
    (queue.cur < queue.size → ∃ next, ∃ entry ∈ queue.view.items,
      queue.closestUnexpanded = some (next, { entry with expanded := true }) ∧
      entry.expanded = false ∧ ∀ other ∈ queue.view.items, other.expanded = false →
        other = entry ∨ entry.precedes other = true) ∧
    (answers.map Neighbor.id).Nodup ∧
    ∀ nbr, Consistent (offered ++ [nbr]) → ∃ next, queue.insert nbr = some next := by
  have hkeeps := hreached.keeps hcapacity hoffered
  have hview : queue.view.capacity = capacity := hkeeps.sameCapacity
  have hleads := hkeeps.leads
  unfold NeighborQueue.Leads at hleads
  rw [hview] at hleads
  refine ⟨hleads.unique (leading_nearestRanks capacity offered), hkeeps.origin,
    NeighborQueue.sorted_of_ranked hkeeps.comparable.numbers hkeeps.comparable.ranked, ?_, ?_,
    hkeeps.distinct, fun nbr hnbr => ?_⟩
  · rw [hkeeps.cursor, ← hkeeps.fits.length_items, List.findIdx_lt_length]
    simp
  · intro hopen
    obtain ⟨next, entry, hentry, hnext, hunexpanded, hnearest, -⟩ :=
      hkeeps.closestUnexpanded hoffered hopen
    exact ⟨next, entry, hentry, hnext, hunexpanded, hnearest⟩
  · obtain ⟨next, hnext, -⟩ := hkeeps.insert hcapacity hnbr
    exact ⟨next, hnext⟩

/-- A queue for two that was offered three candidates, after the first was expanded. -/
def offeredThree : NeighborPriorityQueue where
  size := 2
  capacity := 2
  cur := 0
  data := [⟨5, .zero, false⟩, ⟨3, .one, true⟩, ⟨0, .zero, false⟩]

theorem reached_nearest_three :
    offeredThree.view.items.map Neighbor.rank =
      nearestRanks 2 [⟨3, .one, false⟩, ⟨5, .zero, false⟩, ⟨7, ⟨0x40000000⟩, false⟩] := by
  have hfirst : (withCapacity 2).insert ⟨3, .one, false⟩ =
      some ⟨1, 2, 0, [⟨3, .one, false⟩, ⟨0, .zero, false⟩, ⟨0, .zero, false⟩]⟩ := by
    decide +kernel
  have hexpand : closestUnexpanded
      ⟨1, 2, 0, [⟨3, .one, false⟩, ⟨0, .zero, false⟩, ⟨0, .zero, false⟩]⟩ =
      some (⟨1, 2, 1, [⟨3, .one, true⟩, ⟨0, .zero, false⟩, ⟨0, .zero, false⟩]⟩,
        ⟨3, .one, true⟩) := by decide +kernel
  have hsecond : insert ⟨1, 2, 1, [⟨3, .one, true⟩, ⟨0, .zero, false⟩, ⟨0, .zero, false⟩]⟩
      ⟨5, .zero, false⟩ = some offeredThree := by decide +kernel
  have hthird : offeredThree.insert ⟨7, ⟨0x40000000⟩, false⟩ = some offeredThree := by
    decide +kernel
  have hreached := (((Reached.start.insert _ hfirst).closestUnexpanded (by decide) hexpand).insert _
    hsecond).insert _ hthird
  refine (reached_nearest (by decide) hreached ⟨?_, ?_⟩).1
  · simp only [List.nil_append, List.cons_append, List.mem_cons, List.not_mem_nil, or_false]
    rintro nbr (rfl | rfl | rfl)
    · exact (by decide : FloatFormat.single.isNan Single.one.bits.toNat = false)
    · exact (by decide : FloatFormat.single.isNan Single.zero.bits.toNat = false)
    · exact (by decide : FloatFormat.single.isNan (0x40000000 : UInt32).toNat = false)
  · decide +kernel

end NeighborPriorityQueue

end SkipCell.Search

import SkipCell.Cache.PoolInvariant

/-! # A client that gives back what it has

A client that publishes and releases each reservation before it asks for the next
page leaves a quiet pool. A quiet pool of at least one frame never bypasses the
client.
-/

namespace SkipCell.Cache.Pool

open Foundation

variable {pool next : Pool} {pageId : PageId} {frame : FrameId} {reservation : Reservation}

/-- Nothing is in flight and nothing is pinned. -/
structure Quiet (pool : Pool) : Prop where
  wellFormed : pool.WellFormed []
  positive : 0 < pool.capacityPages
  loading : ∀ pageId, pageId ∉ pool.loading
  unpinned : ∀ frame, pool.pinCount frame = 0

namespace Quiet

theorem init {capacityPages : Nat} (hpositive : 0 < capacityPages) (chunkType : ChunkType) :
    (Pool.init capacityPages chunkType).Quiet where
  wellFormed := WellFormed.init capacityPages chunkType
  positive := hpositive
  loading := fun _ hmem => List.not_mem_nil (AList.mem_keys.mpr hmem)
  unpinned := fun _ => rfl

theorem lru_ne_nil (hquiet : pool.Quiet) (hfree : pool.freeFrames = []) : pool.lru ≠ [] := by
  intro hlru
  rcases hquiet.wellFormed.owner_cases hquiet.positive with hmem | ⟨other, hloading⟩ | ⟨other, hpage⟩
  · rw [hfree] at hmem
    cases hmem
  · exact hquiet.loading other (AssocMap.mem_of_lookup hloading)
  · obtain ⟨entry, hlookup, -⟩ := frameOf_eq_some.mp hpage
    have hmem := AList.mem_keys.mp (AssocMap.mem_of_lookup hlookup)
    rw [← hquiet.wellFormed.recency.mem_iff, hlru] at hmem
    cases hmem

theorem selectVictim_isSome (hquiet : pool.Quiet) (hfree : pool.freeFrames = [])
    {victim : Option FrameId} (hselect : pool.selectVictim false = (next, .ok victim)) :
    victim.isSome = true := by
  obtain ⟨oldest, rest, hlru⟩ :=
    List.exists_cons_of_ne_nil (List.reverse_ne_nil_iff.mpr (hquiet.lru_ne_nil hfree))
  have hmem : oldest ∈ pool.lru := List.mem_reverse.mp (hlru ▸ List.mem_cons_self)
  obtain ⟨entry, hlookup⟩ := AssocMap.exists_lookup (hquiet.wellFormed.lru_resident hmem)
  have hvictim : pool.findVictim false pool.lru.reverse = .ok (some (oldest, entry)) := by
    rw [hlru]
    simp [findVictim, hlookup, hquiet.unpinned]
  obtain ⟨evicted, hevict, -⟩ := hquiet.wellFormed.evict_spec hlookup (hquiet.unpinned entry.frame)
  simp only [selectVictim, hvictim, hevict, Prod.mk.injEq, Except.ok.injEq] at hselect
  rw [← hselect.2]
  rfl

theorem acquireFrame_isSome (hquiet : pool.Quiet) {victim : Option FrameId} {evicted : Bool}
    (hacquire : pool.acquireFrame .demand = (next, .ok (victim, evicted))) :
    victim.isSome = true := by
  unfold acquireFrame at hacquire
  cases hlast : pool.freeFrames.getLast? with
  | some frame =>
    simp only [hlast, Prod.mk.injEq, Except.ok.injEq] at hacquire
    rw [← hacquire.2.1]
    rfl
  | none =>
    obtain ⟨taken, found, hselect, -⟩ := hquiet.wellFormed.selectVictim_spec false
    have hsome := hquiet.selectVictim_isSome (List.getLast?_eq_none_iff.mp hlast) hselect
    simp only [hlast, Access.isPrefetch, bne_self_eq_false, Bool.false_eq_true, if_false, hselect,
      Prod.mk.injEq, Except.ok.injEq] at hacquire
    rw [← hacquire.2.1]
    exact hsome

theorem of_stats (hquiet : pool.Quiet) (stats : Stats) :
    Quiet { pool with stats := stats } :=
  ⟨hquiet.wellFormed.of_stats stats, hquiet.positive, hquiet.loading, hquiet.unpinned⟩

/-- What a reservation of a quiet pool is. -/
inductive Granted (pool next : Pool) (pageId : PageId) (reservation : Reservation) : Prop
  | hit (frame : FrameId) : pool.frameOf pageId = some frame → pool.Pinned next frame →
      reservation.state = .hit → reservation.frame = some frame →
      Granted pool next pageId reservation
  | load (frame : FrameId) : pool.Loads next pageId frame →
      reservation.state = .load → reservation.frame = some frame →
      Granted pool next pageId reservation

theorem reserveMiss (hquiet : pool.Quiet) (hresident : pool.frameOf pageId = none)
    (hpage : pageId < 2 ^ kChunkNoBits) (coalesced : Bool) :
    ∃ next reservation, pool.reserveMiss pageId .demand coalesced = (next, .ok reservation) ∧
      next.WellFormed [] ∧ reservation.pageId = pageId ∧ Granted pool next pageId reservation := by
  have hcounted := hquiet.of_stats { pool.stats with misses := pool.stats.misses + 1 }
  obtain ⟨taken, victim, evicted, hacquire, hacquires⟩ :=
    hcounted.wellFormed.acquireFrame_spec .demand
  obtain ⟨frame, rfl⟩ := Option.isSome_iff_exists.mp (hcounted.acquireFrame_isSome hacquire)
  obtain ⟨next, reservation, hbegin, hnext, hloads, hstate, hpageId, hframe⟩ :=
    WellFormed.beginLoad_spec ((Unmoved.refl pool).of_stats.taken hacquires) hresident
      (hquiet.loading pageId) hpage .demand coalesced evicted
  refine ⟨next, reservation, ?_, hnext, hpageId, .load frame hloads hstate hframe⟩
  simp only [Pool.reserveMiss, Access.isPrefetch, bne_self_eq_false, Bool.false_eq_true, if_false,
    Nat.ne_of_gt hquiet.positive, hacquire, hbegin]

theorem reserve (hquiet : pool.Quiet) (hpage : pageId < 2 ^ kChunkNoBits) :
    ∃ next reservation,
      pool.reserveLocked pageId .demand true false = (next, .ok (.finished reservation)) ∧
        next.WellFormed [] ∧ reservation.pageId = pageId ∧
        Granted pool next pageId reservation := by
  unfold reserveLocked
  cases hlookup : pool.resident.lookup pageId with
  | some entry =>
    obtain ⟨next, reservation, hhit, hnext, hpinned, hstate, hpageId, hframe⟩ :=
      hquiet.wellFormed.hitResident_spec hlookup .demand false
    simp only [hhit]
    exact ⟨next, reservation, rfl, hnext, hpageId,
      .hit entry.frame (frameOf_of_lookup hlookup) hpinned hstate hframe⟩
  | none =>
    have hresident : pool.frameOf pageId = none := by simp [frameOf, hlookup]
    obtain ⟨next, reservation, hmiss, hgranted⟩ := hquiet.reserveMiss hresident hpage false
    simp only [hquiet.loading pageId, if_false, hmiss]
    exact ⟨next, reservation, rfl, hgranted⟩

theorem release_hit (hquiet : pool.Quiet) (hnext : next.WellFormed [])
    (hpinned : pool.Pinned next frame) (hstate : reservation.state = .hit)
    (hframe : reservation.frame = some frame) :
    ∃ last, next.release reservation = (last, .ok ()) ∧ last.Quiet ∧
      ∀ other, last.frameOf other = pool.frameOf other := by
  have hpin : next.pinCount frame ≠ 0 := by
    rw [hpinned.pinCount, if_pos rfl]
    exact Nat.succ_ne_zero _
  refine ⟨next.decPinCount frame, ?_, ⟨hnext.unpin frame, ?_, ?_, ?_⟩, hpinned.frameOf⟩
  · simp only [Pool.release, hframe, hstate, reduceCtorEq, if_false, hpin]
  · change 0 < next.capacityPages
    rw [hpinned.capacityPages]
    exact hquiet.positive
  · intro other
    change other ∉ next.loading
    rw [hpinned.loading]
    exact hquiet.loading other
  · intro other
    rw [pinCount_decPinCount, hpinned.pinCount, hquiet.unpinned]
    split <;> rfl

theorem notMem_erase (hquiet : pool.Quiet) (hloads : pool.Loads next pageId frame)
    (other : PageId) : other ∉ next.loading.erase pageId := by
  rw [AList.mem_erase, hloads.loading, AList.mem_insert]
  rintro ⟨hne, rfl | hmem⟩
  · exact hne rfl
  · exact hquiet.loading other hmem

theorem lookup_loading (hloads : pool.Loads next pageId frame) :
    next.loading.lookup pageId = some frame := by
  rw [hloads.loading]
  exact AList.lookup_insert pool.loading

section

variable (hquiet : pool.Quiet) (hnext : next.WellFormed []) (hloads : pool.Loads next pageId frame)
  (hstate : reservation.state = .load) (hpageId : reservation.pageId = pageId)
  (hframe : reservation.frame = some frame)
include hquiet hnext hloads hstate hpageId hframe

theorem release_loaded :
    ∃ published last, next.publish reservation true = (published, .ok ()) ∧
      published.release reservation = (last, .ok ()) ∧ last.Quiet ∧
      ∀ other, last.frameOf other = if other = pageId then some frame
        else if pool.frameOf other = some frame then none else pool.frameOf other := by
  subst hpageId
  have hlookup := lookup_loading hloads
  obtain ⟨hwell, hframeOf⟩ := hnext.publishLoaded_spec hlookup reservation.access
  set published := publishLoaded { next with loading := next.loading.erase reservation.pageId }
    reservation.pageId frame reservation.access
  have hpins : ∀ other, published.pinCount other = if other = frame then 1 else 0 := by
    intro other
    have hset := pinCount_setChunkState
      { next with loading := next.loading.erase reservation.pageId } frame .resident other
    refine hset.trans ((hloads.pinCount other).trans ?_)
    rw [hquiet.unpinned, Nat.zero_add]
  refine ⟨published, published.decPinCount frame, ?_, ?_, ⟨hwell.unpin frame, ?_, ?_, ?_⟩, ?_⟩
  · simp only [publish, hstate, hframe, hlookup, if_true]
    rfl
  · simp only [Pool.release, hframe, hstate, reduceCtorEq, if_false, hpins, if_true,
      Nat.succ_ne_self]
  · change 0 < next.capacityPages
    rw [hloads.capacityPages]
    exact hquiet.positive
  · exact hquiet.notMem_erase hloads
  · intro other
    rw [pinCount_decPinCount, hpins]
    split <;> rfl
  · intro other
    refine (hframeOf other).trans ?_
    rw [hloads.frameOf]

theorem rollBack :
    ∃ last, next.publish reservation false = (last, .ok ()) ∧ last.Quiet ∧
      ∀ other, last.frameOf other =
        if pool.frameOf other = some frame then none else pool.frameOf other := by
  subst hpageId
  have hlookup := lookup_loading hloads
  have hpin : next.pinCount frame = 1 := by
    rw [hloads.pinCount, hquiet.unpinned, if_pos rfl]
  refine ⟨_, ?_, ⟨hnext.rollBack_spec hlookup hpin, ?_, ?_, ?_⟩, hloads.frameOf⟩
  · simp only [publish, hstate, hframe, hlookup, if_true, Bool.false_eq_true, if_false]
  · change 0 < next.capacityPages
    rw [hloads.capacityPages]
    exact hquiet.positive
  · exact hquiet.notMem_erase hloads
  · intro other
    have hset := pinCount_decPinCount
      (setChunkState { next with loading := next.loading.erase reservation.pageId } frame .free)
      frame other
    rw [pinCount_setChunkState] at hset
    refine hset.trans ?_
    change next.pinCount other - _ = 0
    rw [hloads.pinCount, hquiet.unpinned]
    split <;> rfl

end

end Quiet

end SkipCell.Cache.Pool

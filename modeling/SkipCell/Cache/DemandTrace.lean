import SkipCell.Cache.Batches
import SkipCell.Cache.Operations
import SkipCell.Cache.SoleClient
import SkipCell.Foundation.LeastRecent

/-! # Demands one after the other

Each demand is published and released before the next one. The recency list is then the
textbook cache that replaces the least recently used page.
-/

namespace SkipCell.Cache.Pool

open Foundation

variable {pool next : Pool} {pageId : PageId} {reservation : Reservation}

/-- A page is reserved on demand, published where it has to be loaded, and released. -/
def demandAccess (pool : Pool) (pageId : PageId) : Pool :=
  match pool.reserveLocked pageId .demand true false with
  | (pool, .ok (.finished reservation)) => ((pool.publish reservation true).1.release reservation).1
  | (pool, _) => pool

theorem publish_capacityPages (pool : Pool) (reservation : Reservation) (success : Bool) :
    (pool.publish reservation success).1.capacityPages = pool.capacityPages := by
  unfold publish
  split
  next =>
    split
    next =>
      cases success with
      | true => rfl
      | false => rfl
    next => rfl
  next => rfl

theorem release_tables (pool : Pool) (reservation : Reservation) :
    (pool.release reservation).1.lru = pool.lru ∧
      (pool.release reservation).1.capacityPages = pool.capacityPages := by
  unfold release
  split
  next => exact ⟨rfl, rfl⟩
  next =>
    split
    next => exact ⟨rfl, rfl⟩
    next =>
      split
      next => exact ⟨rfl, rfl⟩
      next => exact ⟨rfl, rfl⟩

theorem hitResident_lru (pool : Pool) (pageId : PageId) (entry : ResidentEntry) (coalesced : Bool) :
    (pool.hitResident pageId entry .demand coalesced).1.lru = pageId :: pool.lru.erase pageId := by
  unfold hitResident
  rw [if_pos rfl]
  dsimp only
  split
  next =>
    split
    next => rfl
    next => rfl
  next => rfl

theorem beginLoad_lru (pool : Pool) (pageId : PageId) (frame : FrameId) (access : Access)
    (coalesced evicted : Bool) :
    (pool.beginLoad pageId frame access coalesced evicted).1.lru = pool.lru := by
  unfold beginLoad
  split
  next => rfl
  next => rfl

namespace Quiet

section

variable (hquiet : pool.Quiet)
include hquiet

theorem lru_nodup : pool.lru.Nodup :=
  hquiet.wellFormed.recency.nodup_iff.mpr pool.resident.nodupKeys

theorem stock_eq : pool.stock = pool.capacityPages := by
  have hframes := hquiet.wellFormed.frames.length_eq
  have hloading : pool.loading.entries = [] := by
    apply List.eq_nil_iff_forall_not_mem.mpr
    rintro ⟨pageId, frame⟩ hmem
    exact hquiet.loading pageId (AssocMap.mem_of_lookup (AssocMap.entry_mem_iff.mp hmem))
  have hlru := hquiet.wellFormed.recency.length_eq
  simp only [List.nil_append, ownedFrames, loadingFrames, residentFrames, AssocMap.values, hloading,
    List.map_nil, List.length_append, List.length_map, List.length_range] at hframes
  rw [AList.keys, List.keys, List.length_map] at hlru
  rw [stock, hlru]
  exact hframes

theorem victim_eq {oldest : PageId} (hlast : pool.lru.getLast? = some oldest) :
    ∃ entry, pool.victim false = some (oldest, entry) := by
  obtain ⟨front, hlru⟩ := List.getLast?_eq_some_iff.mp hlast
  have hmem : oldest ∈ pool.lru := List.mem_of_getLast? hlast
  obtain ⟨entry, hlookup⟩ := AssocMap.exists_lookup (hquiet.wellFormed.lru_resident hmem)
  refine ⟨entry, ?_⟩
  have hat : pool.victimAt false oldest = some (oldest, entry) :=
    victimAt_eq_some.mpr ⟨rfl, hlookup, hquiet.unpinned entry.frame, nofun⟩
  rw [victim, hlru, List.reverse_append]
  simp [hat]

theorem acquireFrame_lru :
    ∃ next frame evicted, pool.acquireFrame .demand = (next, .ok (some frame, evicted)) ∧
      next.lru = if pool.lru.length < pool.capacityPages then pool.lru else pool.lru.dropLast := by
  have hstock := hquiet.stock_eq
  obtain ⟨next, frame, evicted, hacquire, hprovides, -⟩ :=
    hquiet.wellFormed.indexed.acquireFrame_spec .demand
  have hsome := hquiet.acquireFrame_isSome hacquire
  cases hprovides with
  | free hlast =>
    have hfree := List.length_pos_of_mem (List.mem_of_getLast? hlast)
    have hroom : pool.lru.length < pool.capacityPages := by
      rw [← hstock, stock]
      omega
    exact ⟨_, _, evicted, hacquire, (if_pos hroom).symm⟩
  | @replaced required oldest entry hfree hvictim hdemand _ =>
    have hfull : ¬ pool.lru.length < pool.capacityPages := by
      rw [← hstock, stock, hfree, List.length_nil]
      omega
    refine ⟨_, _, evicted, hacquire, ?_⟩
    obtain ⟨last, hlast⟩ : ∃ last, pool.lru.getLast? = some last :=
      Option.ne_none_iff_exists'.mp fun hnone =>
        hquiet.lru_ne_nil hfree (List.getLast?_eq_none_iff.mp hnone)
    obtain ⟨found, hfound⟩ := hquiet.victim_eq hlast
    rw [hdemand rfl] at hvictim
    obtain ⟨rfl, rfl⟩ := Prod.mk.inj (Option.some.inj (hvictim.symm.trans hfound))
    obtain ⟨front, hlru⟩ := List.getLast?_eq_some_iff.mp hlast
    have hnodup := hquiet.lru_nodup
    rw [if_neg hfull]
    change pool.lru.erase oldest = _
    rw [hlru, List.dropLast_concat]
    rw [hlru] at hnodup
    have hnew : oldest ∉ front := fun hmem =>
      (List.nodup_append.mp hnodup).2.2 oldest hmem oldest (List.mem_singleton_self oldest) rfl
    rw [List.erase_append_right _ hnew, List.erase_cons_head, List.append_nil]
  | spent _ _ hnot _ => exact absurd rfl hnot
  | none => cases hsome

theorem reserve_lru
    (hcall : pool.reserveLocked pageId .demand true false = (next, .ok (.finished reservation))) :
    next.lru = if pageId ∈ pool.lru then pageId :: pool.lru.erase pageId
      else if pool.lru.length < pool.capacityPages then pool.lru else pool.lru.dropLast := by
  have hmem : pageId ∈ pool.lru ↔ pageId ∈ pool.resident := hquiet.wellFormed.indexed.mem_lru
  have hnext := congrArg (fun call => call.1.lru) hcall
  change (pool.reserveLocked pageId .demand true false).1.lru = next.lru at hnext
  rw [← hnext]
  unfold reserveLocked
  cases hlookup : pool.resident.lookup pageId with
  | some entry =>
    have hlru := pool.hitResident_lru pageId entry false
    rw [if_pos (hmem.mpr (AssocMap.mem_of_lookup hlookup)), ← hlru]
    simp only
    split
    next hhit => rw [hhit]
    next hhit => rw [hhit]
  | none =>
    have habsent : pageId ∉ pool.lru := fun hin =>
      AList.lookup_eq_none.mp hlookup (hmem.mp hin)
    have hcounted := hquiet.of_stats { pool.stats with misses := pool.stats.misses + 1 }
    obtain ⟨taken, frame, evicted, hacquire, htaken⟩ := hcounted.acquireFrame_lru
    have hmiss : (pool.reserveMiss pageId .demand false).1.lru = taken.lru := by
      have hbegin := beginLoad_lru taken pageId frame .demand false evicted
      simp only [Pool.reserveMiss, Access.isPrefetch, bne_self_eq_false, Bool.false_eq_true,
        if_false, Nat.ne_of_gt hquiet.positive, hacquire, hbegin]
    rw [if_neg habsent]
    simp only [hquiet.loading pageId, if_false]
    refine Eq.trans ?_ htaken
    rw [← hmiss]
    split
    next hcase => rw [hcase]
    next hcase => rw [hcase]

theorem demandAccess (hpage : pageId < 2 ^ kChunkNoBits) :
    (pool.demandAccess pageId).Quiet ∧
      (pool.demandAccess pageId).capacityPages = pool.capacityPages ∧
      (pool.demandAccess pageId).lru = (lruAccess pool.capacityPages pool.lru pageId).1 := by
  have hmem : pageId ∈ pool.lru ↔ pageId ∈ pool.resident := hquiet.wellFormed.indexed.mem_lru
  obtain ⟨next, reservation, hcall, hnext, hpageId, hgranted⟩ := hquiet.reserve hpage
  have hlru := hquiet.reserve_lru hcall
  have haccess := (answers_of_reserveLocked hcall).2
  have hafter : pool.demandAccess pageId =
      ((next.publish reservation true).1.release reservation).1 := by
    rw [Pool.demandAccess, hcall]
  obtain ⟨hreleased, hkept⟩ := release_tables (next.publish reservation true).1 reservation
  rw [publish_capacityPages] at hkept
  rw [hafter, hreleased, hkept]
  cases hgranted with
  | hit frame hframeOf hpinned hstate hframe =>
    obtain ⟨last, hrelease, hlast, -⟩ := hquiet.release_hit hnext hpinned hstate hframe
    have hpublish : next.publish reservation true = (next, .ok ()) := by
      simp only [publish, hstate]
    have hin : pageId ∈ pool.lru := by
      obtain ⟨entry, hlookup, -⟩ := frameOf_eq_some.mp hframeOf
      exact hmem.mpr (AssocMap.mem_of_lookup hlookup)
    rw [if_pos hin] at hlru
    rw [hpublish, hrelease, lruAccess, if_pos hin]
    exact ⟨hlast, hpinned.capacityPages, hlru⟩
  | load frame hloads hstate hframe =>
    obtain ⟨published, last, hpublish, hrelease, hlast, -⟩ :=
      hquiet.release_loaded hnext hloads hstate hpageId hframe
    have hlookup := lookup_loading hloads
    have hout : pageId ∉ pool.lru := by
      intro hin
      rw [if_pos hin] at hlru
      have hresident : pageId ∈ next.resident := by
        rw [← hnext.indexed.mem_lru, hlru]
        exact List.mem_cons_self
      exact hnext.exclusive pageId hresident (AssocMap.mem_of_lookup hlookup)
    have hpushed : (next.publish reservation true).1.lru = pageId :: next.lru := by
      subst hpageId
      simp only [publish, hstate, hframe, hlookup, if_true, publishLoaded, haccess,
        Access.isPrefetch, bne_self_eq_false, Bool.false_eq_true, if_false]
      rfl
    rw [if_neg hout] at hlru
    rw [hpushed, hpublish, hrelease, lruAccess, if_neg hout,
      if_neg (Nat.ne_of_gt hquiet.positive), hlru]
    refine ⟨hlast, hloads.capacityPages, ?_⟩
    split
    next => rfl
    next => rfl

end

end Quiet

theorem demandAccess_noFrame (hpool : pool.Indexed) (hcapacity : pool.capacityPages = 0)
    (hlru : pool.lru = []) (hloading : pageId ∉ pool.loading) :
    (pool.demandAccess pageId).Indexed ∧ (pool.demandAccess pageId).capacityPages = 0 ∧
      (pool.demandAccess pageId).lru = [] ∧ (pool.demandAccess pageId).loading = pool.loading := by
  have hnone : pool.resident.lookup pageId = none := by
    rw [AList.lookup_eq_none, ← hpool.mem_lru, hlru]
    exact List.not_mem_nil
  have hcall : pool.reserveLocked pageId .demand true false =
      ({ pool with stats.misses := pool.stats.misses + 1 },
        .ok (.finished (.bypass pageId .demand false))) := by
    simp only [reserveLocked, hnone, hloading, if_false, reserveMiss, Access.isPrefetch,
      bne_self_eq_false, Bool.false_eq_true, hcapacity, if_true]
  have hafter : pool.demandAccess pageId = { pool with stats.misses := pool.stats.misses + 1 } := by
    rw [demandAccess, hcall]
    rfl
  rw [hafter]
  exact ⟨⟨hpool.exclusive, hpool.recency, hpool.unused⟩, hcapacity, hlru, rfl⟩

/-- What a trace keeps. -/
structure Caches (capacityPages : Nat) (cache : List PageId) (pool : Pool) : Prop where
  indexed : pool.Indexed
  capacity : pool.capacityPages = capacityPages
  lru : pool.lru = cache
  empty : capacityPages = 0 → (∀ pageId, pageId ∉ pool.loading) ∧ cache = []
  quiet : capacityPages ≠ 0 → pool.Quiet

namespace Caches

variable {capacityPages : Nat} {cache : List PageId}

theorem start (capacityPages : Nat) (chunkType : ChunkType) :
    Caches capacityPages [] (Pool.init capacityPages chunkType) where
  indexed := Indexed.init capacityPages chunkType
  capacity := rfl
  lru := rfl
  empty _ := ⟨by simp [Pool.init], rfl⟩
  quiet hpositive := Quiet.init (Nat.pos_of_ne_zero hpositive) chunkType

theorem access (hcaches : Caches capacityPages cache pool) (hpage : pageId < 2 ^ kChunkNoBits) :
    Caches capacityPages (lruAccess capacityPages cache pageId).1 (pool.demandAccess pageId) := by
  have hcapacity := hcaches.capacity
  obtain rfl := hcaches.lru
  by_cases hzero : capacityPages = 0
  · obtain ⟨hloading, hlru⟩ := hcaches.empty hzero
    obtain ⟨hnext, hkept, hempty, hsame⟩ := demandAccess_noFrame hcaches.indexed
      (hcapacity.trans hzero) hlru (hloading pageId)
    have haccess : (lruAccess capacityPages pool.lru pageId).1 = [] := by
      rw [hlru, lruAccess, if_neg List.not_mem_nil, if_pos hzero]
    rw [haccess]
    exact ⟨hnext, hkept.trans hzero.symm, hempty, fun _ => ⟨by rwa [hsame], rfl⟩,
      fun hpositive => absurd hzero hpositive⟩
  · obtain ⟨hquiet, hkept, hlru⟩ := (hcaches.quiet hzero).demandAccess hpage
    rw [hcapacity] at hlru
    exact ⟨hquiet.wellFormed.indexed, hkept.trans hcapacity, hlru, fun hnone => absurd hnone hzero,
      fun _ => hquiet⟩

theorem run (hcaches : Caches capacityPages cache pool) {pageIds : List PageId}
    (hpages : ∀ pageId ∈ pageIds, pageId < 2 ^ kChunkNoBits) :
    Caches capacityPages (pageIds.foldl (fun cache page => (lruAccess capacityPages cache page).1)
      cache) (pageIds.foldl demandAccess pool) := by
  induction pageIds generalizing pool cache with
  | nil => exact hcaches
  | cons pageId pageIds ih =>
    obtain ⟨hpage, hrest⟩ := List.forall_mem_cons.mp hpages
    exact ih (hcaches.access hpage) hrest

end Caches

theorem demand_trace (capacityPages : Nat) (chunkType : ChunkType) {pageIds : List PageId}
    (hpages : ∀ pageId ∈ pageIds, pageId < 2 ^ kChunkNoBits) (hpage : pageId < 2 ^ kChunkNoBits) :
    let pool := pageIds.foldl demandAccess (init capacityPages chunkType)
    let cache := lruRun capacityPages pageIds
    (∀ other, other ∈ pool.resident ↔ other ∈ cache) ∧
      ∀ other, other ∈ pool.resident ∧ other ∉ (pool.demandAccess pageId).resident ↔
        (lruAccess capacityPages cache pageId).2 = some other := by
  intro pool cache
  have hcaches : Caches capacityPages cache pool :=
    (Caches.start capacityPages chunkType).run hpages
  have hnext := hcaches.access hpage
  have hnodup : cache.Nodup := by
    rw [← hcaches.lru, hcaches.indexed.recency.nodup_iff]
    exact pool.resident.nodupKeys
  constructor
  · intro other
    rw [← hcaches.indexed.mem_lru, hcaches.lru]
  · intro other
    rw [← hcaches.indexed.mem_lru, ← hnext.indexed.mem_lru, hcaches.lru, hnext.lru]
    exact lruAccess_victim hnodup

end SkipCell.Cache.Pool

import SkipCell.Cache.Pool

/-! # The pool's own invariant

`WellFormed` ties the free list, the in-flight table, the resident table, the
recency list and the unused-prefetch counter together. Frames that a running
operation has taken out of all three lists are its `spare` frames; between two
operations there are none.
-/

namespace SkipCell.Cache.Pool

open Foundation

variable {pool : Pool} {spare : List FrameId} {pageId : PageId} {frame : FrameId}

def loadingFrames (pool : Pool) : List FrameId := AssocMap.values pool.loading

def residentFrames (pool : Pool) : List FrameId :=
  (AssocMap.values pool.resident).map ResidentEntry.frame

/-- Every place where the pool keeps a frame. -/
def ownedFrames (pool : Pool) : List FrameId :=
  pool.freeFrames ++ (pool.loadingFrames ++ pool.residentFrames)

/-- The frame that holds a page, when the page is resident. -/
def frameOf (pool : Pool) (pageId : PageId) : Option FrameId :=
  (pool.resident.lookup pageId).map ResidentEntry.frame

/-- The pool keeps a page on `frame`, resident or in flight. -/
def Owns (pool : Pool) (pageId : PageId) (frame : FrameId) : Prop :=
  pool.frameOf pageId = some frame ∨ pool.loading.lookup pageId = some frame

structure WellFormed (pool : Pool) (spare : List FrameId) : Prop where
  /-- Every frame is in exactly one place, once. -/
  frames : (spare ++ pool.ownedFrames).Perm (List.range pool.capacityPages)
  exclusive : ∀ pageId ∈ pool.resident, pageId ∉ pool.loading
  recency : pool.lru.Perm pool.resident.keys
  unused : pool.prefetchedUnusedCount =
    (AssocMap.values pool.resident).countP ResidentEntry.prefetchedUnused
  idle : ∀ frame ∈ spare ++ pool.freeFrames, pool.pinCount frame = 0

/-- What every call keeps. -/
structure Indexed (pool : Pool) : Prop where
  exclusive : ∀ pageId ∈ pool.resident, pageId ∉ pool.loading
  recency : pool.lru.Perm pool.resident.keys
  unused : pool.prefetchedUnusedCount =
    (AssocMap.values pool.resident).countP ResidentEntry.prefetchedUnused

theorem WellFormed.indexed (hpool : pool.WellFormed spare) : pool.Indexed :=
  ⟨hpool.exclusive, hpool.recency, hpool.unused⟩

namespace Indexed

variable {entry : ResidentEntry} (hpool : pool.Indexed)
include hpool

theorem settle (hlookup : pool.resident.lookup pageId = some entry)
    (hunused : entry.prefetchedUnused = true) {lru : List PageId} (hlru : lru.Perm pool.lru)
    (credit : Bool) (stats : Stats) :
    0 < pool.prefetchedUnusedCount ∧ Indexed { pool with
      lru := lru
      resident := pool.resident.insert pageId { entry with prefetchedUnused := false }
      prefetchedUnusedCount := pool.prefetchedUnusedCount - 1
      prefetchAdmissionCredit := credit
      stats := stats } := by
  have hvalues := AssocMap.values_perm_of_lookup hlookup
  have hcount := hvalues.countP_eq ResidentEntry.prefetchedUnused
  rw [List.countP_cons_of_pos hunused, ← hpool.unused] at hcount
  refine ⟨by omega, ⟨fun other hother => ?_, ?_, ?_⟩⟩
  · rw [AList.mem_insert] at hother
    rcases hother with rfl | hother
    · exact hpool.exclusive _ (AssocMap.mem_of_lookup hlookup)
    · exact hpool.exclusive _ hother
  · rw [AList.keys_insert, ← AList.keys_erase]
    exact (hlru.trans hpool.recency).trans (AssocMap.keys_perm_of_lookup hlookup)
  · simp only [AssocMap.values_insert]
    rw [List.countP_cons_of_neg (by simp)]
    omega

theorem drop (hlookup : pool.resident.lookup pageId = some entry) (stats : Stats) :
    Indexed { pool with
      lru := pool.lru.erase pageId
      resident := pool.resident.erase pageId
      prefetchedUnusedCount :=
        pool.prefetchedUnusedCount - if entry.prefetchedUnused then 1 else 0
      stats := stats } where
  exclusive other hother := hpool.exclusive other (AList.mem_erase.mp hother).2
  recency := by
    rw [AList.keys_erase]
    exact hpool.recency.erase pageId
  unused := by
    have hcount := (AssocMap.values_perm_of_lookup hlookup).countP_eq
      ResidentEntry.prefetchedUnused
    rw [List.countP_cons, ← hpool.unused] at hcount
    simp only
    omega

theorem publishLoaded (hloading : pool.loading.lookup pageId = some frame)
    (access : Access) :
    (Pool.publishLoaded { pool with loading := pool.loading.erase pageId } pageId frame
      access).Indexed := by
  have habsent : pageId ∉ pool.resident := fun hmem =>
    hpool.exclusive pageId hmem (AssocMap.mem_of_lookup hloading)
  have hemplace := AssocMap.emplace_of_notMem habsent ⟨frame, access.isPrefetch⟩
  have hvalues := AssocMap.values_insert_of_notMem habsent ⟨frame, access.isPrefetch⟩
  refine ⟨?_, ?_, ?_⟩
  · intro other hother hmem
    simp only [Pool.publishLoaded, setChunkState, setChunk, hemplace] at hother hmem
    obtain ⟨hne, hmem⟩ := AList.mem_erase.mp hmem
    rcases (AList.mem_insert pool.resident).mp hother with rfl | hother
    · exact hne rfl
    · exact hpool.exclusive other hother hmem
  · simp only [Pool.publishLoaded, setChunkState, setChunk, hemplace, AList.keys_insert,
      ← AList.keys_erase, AssocMap.erase_of_notMem habsent]
    split
    · exact (List.perm_append_singleton pageId pool.lru).trans (hpool.recency.cons pageId)
    · exact hpool.recency.cons pageId
  · simp only [Pool.publishLoaded, setChunkState, setChunk, hemplace, hvalues, List.countP_cons,
      hpool.unused]
    split <;> rfl

end Indexed

@[simp]
theorem pinCount_setChunk (pool : Pool) (frame : FrameId) (update : Chunk → Chunk)
    (other : FrameId) :
    (pool.setChunk frame update).pinCount other =
      if other = frame then (update (pool.chunks other)).pinCount else pool.pinCount other := by
  simp only [pinCount, setChunk]
  split <;> rfl

theorem pinCount_incPinCount (pool : Pool) (frame other : FrameId) :
    (pool.incPinCount frame).pinCount other =
      pool.pinCount other + if other = frame then 1 else 0 := by
  simp only [incPinCount, pinCount_setChunk]
  split <;> rfl

theorem pinCount_decPinCount (pool : Pool) (frame other : FrameId) :
    (pool.decPinCount frame).pinCount other =
      pool.pinCount other - if other = frame then 1 else 0 := by
  simp only [decPinCount, pinCount_setChunk]
  split <;> rfl

@[simp]
theorem pinCount_setChunkState (pool : Pool) (frame : FrameId) (state : ChunkState)
    (other : FrameId) :
    (pool.setChunkState frame state).pinCount other = pool.pinCount other := by
  simp only [setChunkState, pinCount_setChunk]
  split <;> rfl

theorem frameOf_eq_some {frame : FrameId} :
    pool.frameOf pageId = some frame ↔
      ∃ entry, pool.resident.lookup pageId = some entry ∧ entry.frame = frame := by
  simp [frameOf]

theorem frameOf_of_lookup {entry : ResidentEntry}
    (hlookup : pool.resident.lookup pageId = some entry) :
    pool.frameOf pageId = some entry.frame := by
  simp [frameOf, hlookup]

theorem residentFrames_perm {entry : ResidentEntry}
    (hlookup : pool.resident.lookup pageId = some entry) :
    pool.residentFrames.Perm
      (entry.frame :: (AssocMap.values (pool.resident.erase pageId)).map ResidentEntry.frame) :=
  (AssocMap.values_perm_of_lookup hlookup).map ResidentEntry.frame

theorem loadingFrames_perm (hlookup : pool.loading.lookup pageId = some frame) :
    pool.loadingFrames.Perm
      (frame :: AssocMap.values (pool.loading.erase pageId)) :=
  AssocMap.values_perm_of_lookup hlookup

theorem mem_residentFrames (hframe : pool.frameOf pageId = some frame) :
    frame ∈ pool.residentFrames := by
  obtain ⟨entry, hlookup, rfl⟩ := frameOf_eq_some.mp hframe
  exact (residentFrames_perm hlookup).mem_iff.mpr List.mem_cons_self

theorem mem_loadingFrames (hlookup : pool.loading.lookup pageId = some frame) :
    frame ∈ pool.loadingFrames :=
  (loadingFrames_perm hlookup).mem_iff.mpr List.mem_cons_self

namespace WellFormed

theorem init (capacityPages : Nat) (chunkType : ChunkType) :
    (Pool.init capacityPages chunkType).WellFormed [] where
  frames := by simp [ownedFrames, loadingFrames, residentFrames, Pool.init]
  exclusive := by simp [Pool.init]
  recency := by simp [Pool.init]
  unused := by simp [Pool.init]
  idle := by simp [Pool.init, pinCount]

section

variable (hpool : pool.WellFormed spare)
include hpool

theorem count_frames (frame : FrameId) :
    spare.count frame + (pool.freeFrames.count frame +
      (pool.loadingFrames.count frame + pool.residentFrames.count frame)) =
      (List.range pool.capacityPages).count frame := by
  rw [← hpool.frames.count_eq frame]
  simp only [ownedFrames, List.count_append]

theorem nodup : (spare ++ pool.ownedFrames).Nodup :=
  hpool.frames.nodup_iff.mpr List.nodup_range

theorem count_le_one (frame : FrameId) :
    spare.count frame + (pool.freeFrames.count frame +
      (pool.loadingFrames.count frame + pool.residentFrames.count frame)) ≤ 1 := by
  rw [hpool.count_frames]
  exact List.nodup_iff_count_le_one.mp List.nodup_range frame

theorem notMem_idle (hframe : pool.frameOf pageId = some frame) :
    frame ∉ spare ++ pool.freeFrames := by
  have hcount := hpool.count_le_one frame
  have hresident := List.count_pos_iff.mpr (mem_residentFrames hframe)
  rw [← List.count_eq_zero, List.count_append]
  omega

theorem lru_resident (hpage : pageId ∈ pool.lru) :
    pageId ∈ pool.resident :=
  AList.mem_keys.mpr (hpool.recency.mem_iff.mp hpage)

theorem frame_lt (hframe : pool.frameOf pageId = some frame) :
    frame < pool.capacityPages := by
  refine List.mem_range.mp (hpool.frames.mem_iff.mp (List.mem_append_right _ ?_))
  exact List.mem_append_right _ (List.mem_append_right _ (mem_residentFrames hframe))

variable {other : PageId}

theorem frameOf_injective (hpage : pool.frameOf pageId = some frame)
    (hother : pool.frameOf other = some frame) :
    other = pageId := by
  by_contra hne
  obtain ⟨entry, hlookup, hentry⟩ := frameOf_eq_some.mp hpage
  obtain ⟨second, hsecond, hframe⟩ := frameOf_eq_some.mp hother
  have hcount := hpool.count_le_one frame
  have hperm := (residentFrames_perm hlookup).count_eq frame
  have hrest : frame ∈ (AssocMap.values (pool.resident.erase pageId)).map ResidentEntry.frame := by
    have hmem : (pool.resident.erase pageId).lookup other = some second := by
      rw [AList.lookup_erase_ne hne, hsecond]
    exact List.mem_map.mpr ⟨second, AssocMap.mem_values_of_lookup hmem, hframe⟩
  have hpos := List.count_pos_iff.mpr hrest
  rw [hentry, List.count_cons_self] at hperm
  omega

theorem loading_injective (hpage : pool.loading.lookup pageId = some frame)
    (hother : pool.loading.lookup other = some frame) : other = pageId := by
  by_contra hne
  have hcount := hpool.count_le_one frame
  have hperm := (loadingFrames_perm hpage).count_eq frame
  have hmem : (pool.loading.erase pageId).lookup other = some frame := by
    rw [AList.lookup_erase_ne hne, hother]
  have hpos := List.count_pos_iff.mpr (AssocMap.mem_values_of_lookup hmem)
  rw [List.count_cons_self] at hperm
  omega

theorem not_resident_and_loading (hresident : pool.frameOf pageId = some frame)
    (hloading : pool.loading.lookup other = some frame) : False := by
  have hcount := hpool.count_le_one frame
  have hfirst := List.count_pos_iff.mpr (mem_residentFrames hresident)
  have hsecond := List.count_pos_iff.mpr (mem_loadingFrames hloading)
  omega

theorem owner_iff {held : FrameId} (hother : Owns pool other held)
    (hpage : Owns pool pageId frame) :
    held = frame ↔ other = pageId := by
  have hexclusive : ∀ {page first second}, pool.frameOf page = some first →
      pool.loading.lookup page = some second → False := by
    intro page first second hresident hloading
    obtain ⟨entry, hlookup, -⟩ := frameOf_eq_some.mp hresident
    exact hpool.exclusive page (AssocMap.mem_of_lookup hlookup) (AssocMap.mem_of_lookup hloading)
  constructor
  · rintro rfl
    rcases hother with hother | hother <;> rcases hpage with hpage | hpage
    · exact hpool.frameOf_injective hpage hother
    · exact (hpool.not_resident_and_loading hother hpage).elim
    · exact (hpool.not_resident_and_loading hpage hother).elim
    · exact hpool.loading_injective hpage hother
  · rintro rfl
    rcases hother with hother | hother <;> rcases hpage with hpage | hpage
    · exact Option.some.inj (hother.symm.trans hpage)
    · exact (hexclusive hother hpage).elim
    · exact (hexclusive hpage hother).elim
    · exact Option.some.inj (hother.symm.trans hpage)

end

end WellFormed

/-- A call that leaves residency, in-flight loads and pins as they were. -/
structure Unmoved (pool next : Pool) : Prop where
  capacityPages : next.capacityPages = pool.capacityPages
  chunkType : next.chunkType = pool.chunkType
  frameOf : ∀ pageId, next.frameOf pageId = pool.frameOf pageId
  loading : next.loading = pool.loading
  pinCount : ∀ frame, next.pinCount frame = pool.pinCount frame

/-- A call whose only visible effect is one more pin on a frame. -/
structure Pinned (pool next : Pool) (frame : FrameId) : Prop where
  capacityPages : next.capacityPages = pool.capacityPages
  chunkType : next.chunkType = pool.chunkType
  frameOf : ∀ pageId, next.frameOf pageId = pool.frameOf pageId
  loading : next.loading = pool.loading
  pinCount : ∀ other, next.pinCount other =
    pool.pinCount other + if other = frame then 1 else 0

/-- A call that takes an unpinned frame out of the pool, with the page it held if any. -/
structure Taken (pool next : Pool) (frame : FrameId) : Prop where
  capacityPages : next.capacityPages = pool.capacityPages
  chunkType : next.chunkType = pool.chunkType
  frameOf : ∀ pageId, next.frameOf pageId =
    if pool.frameOf pageId = some frame then none else pool.frameOf pageId
  loading : next.loading = pool.loading
  pinCount : ∀ other, next.pinCount other = pool.pinCount other
  wellFormed : next.WellFormed [frame]

theorem Unmoved.refl (pool : Pool) : pool.Unmoved pool :=
  ⟨rfl, rfl, fun _ => rfl, rfl, fun _ => rfl⟩

theorem Unmoved.trans {middle next : Pool} (hfirst : pool.Unmoved middle)
    (hsecond : middle.Unmoved next) : pool.Unmoved next :=
  ⟨hsecond.capacityPages.trans hfirst.capacityPages, hsecond.chunkType.trans hfirst.chunkType,
    fun pageId => (hsecond.frameOf pageId).trans (hfirst.frameOf pageId),
    hsecond.loading.trans hfirst.loading,
    fun frame => (hsecond.pinCount frame).trans (hfirst.pinCount frame)⟩

theorem Unmoved.of_stats {next : Pool} (hmoved : pool.Unmoved next) {stats : Stats} :
    pool.Unmoved { next with stats := stats } :=
  ⟨hmoved.capacityPages, hmoved.chunkType, hmoved.frameOf, hmoved.loading, hmoved.pinCount⟩

theorem Unmoved.taken {middle next : Pool} (hfirst : pool.Unmoved middle)
    (hsecond : middle.Taken next frame) : pool.Taken next frame where
  capacityPages := hsecond.capacityPages.trans hfirst.capacityPages
  chunkType := hsecond.chunkType.trans hfirst.chunkType
  frameOf := by
    intro pageId
    rw [hsecond.frameOf, hfirst.frameOf]
  loading := hsecond.loading.trans hfirst.loading
  pinCount := fun frame => (hsecond.pinCount frame).trans (hfirst.pinCount frame)
  wellFormed := hsecond.wellFormed

theorem WellFormed.of_credit (hpool : pool.WellFormed spare) (credit : Bool) (stats : Stats) :
    WellFormed { pool with prefetchAdmissionCredit := credit, stats := stats } spare :=
  ⟨hpool.frames, hpool.exclusive, hpool.recency, hpool.unused, hpool.idle⟩

theorem WellFormed.of_stats (hpool : pool.WellFormed spare) (stats : Stats) :
    WellFormed { pool with stats := stats } spare :=
  hpool.of_credit pool.prefetchAdmissionCredit stats

namespace WellFormed

/-- One more pin on a frame that holds a page, whatever becomes of the recency
list's order, the credit and the counters. -/
theorem pin_resident (hpool : pool.WellFormed []) (hframe : pool.frameOf pageId = some frame)
    {lru : List PageId} (hlru : lru.Perm pool.lru) (credit : Bool) (stats : Stats) :
    WellFormed { pool.incPinCount frame with
      lru := lru, prefetchAdmissionCredit := credit, stats := stats } [] where
  frames := hpool.frames
  exclusive := hpool.exclusive
  recency := hlru.trans hpool.recency
  unused := hpool.unused
  idle := by
    intro other hother
    have hne : other ≠ frame := by
      rintro rfl
      exact hpool.notMem_idle hframe hother
    have hpin := pinCount_incPinCount pool frame other
    rw [if_neg hne, hpool.idle other hother] at hpin
    exact hpin

variable {entry : ResidentEntry}

theorem settle_unused (hpool : pool.WellFormed spare)
    (hlookup : pool.resident.lookup pageId = some entry) (hunused : entry.prefetchedUnused = true)
    {lru : List PageId} (hlru : lru.Perm pool.lru) (credit : Bool) (stats : Stats) :
    0 < pool.prefetchedUnusedCount ∧
      WellFormed { pool with
        lru := lru
        resident := pool.resident.insert pageId { entry with prefetchedUnused := false }
        prefetchedUnusedCount := pool.prefetchedUnusedCount - 1
        prefetchAdmissionCredit := credit
        stats := stats } spare := by
  obtain ⟨hpos, hsettled⟩ := hpool.indexed.settle hlookup hunused hlru credit stats
  refine ⟨hpos, ⟨?_, hsettled.exclusive, hsettled.recency, hsettled.unused, hpool.idle⟩⟩
  refine List.Perm.trans (List.Perm.append_left _ (List.Perm.append_left _
    (List.Perm.append_left _ ?_))) hpool.frames
  simp only [residentFrames, AssocMap.values_insert, List.map_cons]
  exact (residentFrames_perm hlookup).symm

theorem hitResident_spec (hpool : pool.WellFormed [])
    (hlookup : pool.resident.lookup pageId = some entry) (access : Access) (coalesced : Bool) :
    ∃ next reservation,
      pool.hitResident pageId entry access coalesced = (next, .ok reservation) ∧
      next.WellFormed [] ∧ pool.Pinned next entry.frame ∧
      reservation.state = .hit ∧ reservation.pageId = pageId ∧
      reservation.frame = some entry.frame := by
  have hframe := frameOf_of_lookup hlookup
  have hpage : pageId ∈ pool.lru := by
    rw [hpool.recency.mem_iff]
    exact AList.mem_keys.mp (AssocMap.mem_of_lookup hlookup)
  have hlru := (List.perm_cons_erase hpage).symm
  unfold hitResident
  by_cases hdemand : access = .demand
  · simp only [hdemand, if_true]
    by_cases hunused : entry.prefetchedUnused = true
    · have hpinned := hpool.pin_resident hframe hlru pool.prefetchAdmissionCredit
        { pool.stats with demandHits := pool.stats.demandHits + 1 }
      obtain ⟨hpos, hsettled⟩ := hpinned.settle_unused hlookup hunused
        (List.Perm.refl _) true { pool.stats with
          demandHits := pool.stats.demandHits + 1
          prefetchUsed := pool.stats.prefetchUsed + 1 }
      rw [if_pos hunused, if_neg (Nat.ne_of_gt hpos)]
      refine ⟨_, _, rfl, hsettled, ⟨rfl, rfl, ?_, rfl, pinCount_incPinCount pool _⟩, rfl, rfl, rfl⟩
      intro other
      by_cases hother : other = pageId
      · subst hother
        simp [frameOf, AList.lookup_insert, hlookup]
      · simp [frameOf, AList.lookup_insert_ne hother, incPinCount, setChunk]
    · rw [if_neg hunused]
      exact ⟨_, _, rfl, hpool.pin_resident hframe hlru _ _,
        ⟨rfl, rfl, fun _ => rfl, rfl, pinCount_incPinCount pool _⟩, rfl, rfl, rfl⟩
  · simp only [hdemand, if_false]
    exact ⟨_, _, rfl, hpool.pin_resident hframe (List.Perm.refl _) _ _,
      ⟨rfl, rfl, fun _ => rfl, rfl, pinCount_incPinCount pool _⟩, rfl, rfl, rfl⟩

/-- The walk over resident pages never fails, and a victim it returns is one of
them, is unpinned, and is an unused prefetch where one is required. -/
theorem findVictim_spec (pool : Pool) (requireUnusedPrefetch : Bool) (pages : List PageId)
    (hpages : ∀ pageId ∈ pages, pageId ∈ pool.resident) :
    ∃ victim, pool.findVictim requireUnusedPrefetch pages = .ok victim ∧
      ∀ pageId entry, victim = some (pageId, entry) →
        pool.resident.lookup pageId = some entry ∧ pool.pinCount entry.frame = 0 := by
  induction pages with
  | nil => exact ⟨none, rfl, by simp⟩
  | cons pageId rest ih =>
    obtain ⟨entry, hlookup⟩ := AssocMap.exists_lookup (hpages pageId List.mem_cons_self)
    obtain ⟨victim, hvictim, hspec⟩ := ih fun other hother =>
      hpages other (List.mem_cons_of_mem _ hother)
    simp only [findVictim, hlookup]
    split
    · exact ⟨victim, hvictim, hspec⟩
    · next hfree =>
        refine ⟨_, rfl, ?_⟩
        intro other found hfound
        cases hfound
        exact ⟨hlookup, by_contra fun hpin => hfree (.inl hpin)⟩

theorem drop_resident (hpool : pool.WellFormed [])
    (hlookup : pool.resident.lookup pageId = some entry) (hpin : pool.pinCount entry.frame = 0)
    (stats : Stats) :
    WellFormed { pool with
      lru := pool.lru.erase pageId
      resident := pool.resident.erase pageId
      prefetchedUnusedCount :=
        pool.prefetchedUnusedCount - if entry.prefetchedUnused then 1 else 0
      stats := stats } [entry.frame] where
  frames := by
    rw [List.perm_iff_count]
    intro other
    have hcount := hpool.count_frames other
    have hperm := (residentFrames_perm hlookup).count_eq other
    simp only [ownedFrames, loadingFrames, residentFrames, List.count_append, List.count_cons,
      List.count_nil] at hcount hperm ⊢
    omega
  exclusive := (hpool.indexed.drop hlookup stats).exclusive
  recency := (hpool.indexed.drop hlookup stats).recency
  unused := (hpool.indexed.drop hlookup stats).unused
  idle := by
    intro other hother
    rcases List.mem_cons.mp hother with rfl | hother
    · exact hpin
    · exact hpool.idle other hother

theorem frameOf_erase (hpool : pool.WellFormed spare)
    (hframe : pool.frameOf pageId = some frame) (other : PageId) :
    ((pool.resident.erase pageId).lookup other).map ResidentEntry.frame =
      if pool.frameOf other = some frame then none else pool.frameOf other := by
  by_cases hother : other = pageId
  · subst hother
    rw [AList.lookup_erase, if_pos hframe]
    rfl
  · rw [AList.lookup_erase_ne hother, if_neg]
    · rfl
    · exact fun hsame => hother (hpool.frameOf_injective hframe hsame)

theorem evict_spec (hpool : pool.WellFormed []) (hlookup : pool.resident.lookup pageId = some entry)
    (hpin : pool.pinCount entry.frame = 0) :
    ∃ next, pool.evict pageId entry = (next, .ok entry.frame) ∧ pool.Taken next entry.frame := by
  have hframeOf := hpool.frameOf_erase (frameOf_of_lookup hlookup)
  unfold evict
  by_cases hunused : entry.prefetchedUnused = true
  · have hpos := (hpool.settle_unused hlookup hunused (List.Perm.refl _) true {}).1
    have hdrop := fun stats => hpool.drop_resident hlookup hpin stats
    rw [if_pos hunused] at hdrop
    rw [if_pos hunused, if_neg (Nat.ne_of_gt hpos)]
    exact ⟨_, rfl, rfl, rfl, hframeOf, rfl, fun _ => rfl, hdrop _⟩
  · have hdrop := fun stats => hpool.drop_resident hlookup hpin stats
    rw [if_neg hunused] at hdrop
    rw [if_neg hunused]
    exact ⟨_, rfl, rfl, rfl, hframeOf, rfl, fun _ => rfl, hdrop _⟩

/-- A call that looks for a frame: it finds none and changes nothing, or takes one. -/
def Acquires (pool next : Pool) : Option FrameId → Prop
  | none => pool.Unmoved next ∧ next.WellFormed []
  | some frame => pool.Taken next frame

theorem selectVictim_spec (hpool : pool.WellFormed []) (requireUnusedPrefetch : Bool) :
    ∃ next victim, pool.selectVictim requireUnusedPrefetch = (next, .ok victim) ∧
      Acquires pool next victim ∧ (victim = none → next = pool) := by
  have hpages : ∀ pageId ∈ pool.lru.reverse, pageId ∈ pool.resident := fun pageId hpage =>
    hpool.lru_resident (List.mem_reverse.mp hpage)
  obtain ⟨victim, hvictim, hspec⟩ := findVictim_spec pool requireUnusedPrefetch _ hpages
  unfold selectVictim
  rw [hvictim]
  cases victim with
  | none => exact ⟨pool, none, rfl, ⟨Unmoved.refl pool, hpool⟩, fun _ => rfl⟩
  | some found =>
    obtain ⟨pageId, entry⟩ := found
    obtain ⟨hlookup, hpin⟩ := hspec pageId entry rfl
    obtain ⟨next, hevict, htaken⟩ := hpool.evict_spec hlookup hpin
    simp only [hevict]
    exact ⟨next, some entry.frame, rfl, htaken, nofun⟩

theorem selectPrefetchVictim_spec (hpool : pool.WellFormed []) (access : Access) :
    ∃ next victim, pool.selectPrefetchVictim access = (next, .ok victim) ∧
      Acquires pool next victim := by
  have hattempt : ∃ next victim,
      (if pool.prefetchedUnusedCount ≠ 0 then pool.selectVictim true else (pool, .ok none)) =
        (next, .ok victim) ∧ Acquires pool next victim ∧ (victim = none → next = pool) := by
    split
    · exact hpool.selectVictim_spec true
    · exact ⟨pool, none, rfl, ⟨Unmoved.refl pool, hpool⟩, fun _ => rfl⟩
  obtain ⟨middle, first, hfirst, hspec, hsame⟩ := hattempt
  unfold selectPrefetchVictim
  rw [hfirst]
  cases first with
  | some frame => exact ⟨middle, some frame, rfl, hspec⟩
  | none =>
    obtain rfl := hsame rfl
    obtain ⟨next, victim, hnext, hacquires, -⟩ := hpool.selectVictim_spec false
    simp only [hnext]
    split
    · cases victim with
      | none => exact ⟨next, none, rfl, hacquires⟩
      | some frame =>
        exact ⟨_, some frame, rfl, hacquires.capacityPages, hacquires.chunkType,
          hacquires.frameOf, hacquires.loading, hacquires.pinCount,
          hacquires.wellFormed.of_credit _ _⟩
    · exact ⟨middle, none, rfl, Unmoved.refl middle, hpool⟩

theorem take_free (hpool : pool.WellFormed []) (hlast : pool.freeFrames.getLast? = some frame) :
    pool.Taken { pool with freeFrames := pool.freeFrames.dropLast } frame := by
  obtain ⟨rest, hrest⟩ := List.getLast?_eq_some_iff.mp hlast
  have hframe : frame ∈ [] ++ pool.freeFrames := by simp [hrest]
  refine ⟨rfl, rfl, ?_, rfl, fun _ => rfl, ⟨?_, hpool.exclusive, hpool.recency, hpool.unused, ?_⟩⟩
  · intro other
    rw [if_neg]
    · rfl
    · exact fun hsame => hpool.notMem_idle hsame hframe
  · rw [List.perm_iff_count]
    intro other
    have hcount := hpool.count_frames other
    simp only [ownedFrames, loadingFrames, residentFrames, hrest, List.dropLast_concat,
      List.count_append, List.count_cons, List.count_nil] at hcount ⊢
    omega
  · intro other hother
    refine hpool.idle other ?_
    simp only [hrest, List.dropLast_concat, List.singleton_append, List.mem_cons,
      List.nil_append, List.mem_append, List.mem_nil_iff, or_false] at hother ⊢
    exact hother.symm

theorem acquireFrame_spec (hpool : pool.WellFormed []) (access : Access) :
    ∃ next victim evicted, pool.acquireFrame access = (next, .ok (victim, evicted)) ∧
      Acquires pool next victim := by
  unfold acquireFrame
  cases hlast : pool.freeFrames.getLast? with
  | some frame => exact ⟨_, some frame, false, rfl, hpool.take_free hlast⟩
  | none =>
    have hsearch : ∃ next victim,
        (if access.isPrefetch then pool.selectPrefetchVictim access
          else pool.selectVictim false) = (next, .ok victim) ∧ Acquires pool next victim := by
      split
      · exact hpool.selectPrefetchVictim_spec access
      · obtain ⟨next, victim, hnext, hacquires, -⟩ := hpool.selectVictim_spec false
        exact ⟨next, victim, hnext, hacquires⟩
    obtain ⟨next, victim, hnext, hacquires⟩ := hsearch
    simp only [hnext]
    exact ⟨next, victim, _, rfl, hacquires⟩

end WellFormed

/-- A call that enters a page in the in-flight table on a frame it took. -/
structure Loads (pool next : Pool) (pageId : PageId) (frame : FrameId) : Prop where
  capacityPages : next.capacityPages = pool.capacityPages
  unpinned : pool.pinCount frame = 0
  absent : pageId ∉ pool.loading
  frameOf : ∀ other, next.frameOf other =
    if pool.frameOf other = some frame then none else pool.frameOf other
  loading : next.loading = pool.loading.insert pageId frame
  pinCount : ∀ other, next.pinCount other =
    pool.pinCount other + if other = frame then 1 else 0

/-- What a reservation call may do to the pool and to the caller. -/
inductive Reserves (pool next : Pool) (pageId : PageId) : Progress → Prop
  | hit {frame : FrameId} {reservation : Reservation} :
      pool.frameOf pageId = some frame → pool.Pinned next frame →
      reservation.state = .hit → reservation.pageId = pageId → reservation.frame = some frame →
      Reserves pool next pageId (.finished reservation)
  | load {frame : FrameId} {reservation : Reservation} :
      pool.Loads next pageId frame →
      reservation.state = .load → reservation.pageId = pageId → reservation.frame = some frame →
      Reserves pool next pageId (.finished reservation)
  | bypass {reservation : Reservation} : pool.Unmoved next → reservation.state = .bypass →
      Reserves pool next pageId (.finished reservation)
  | waiting : pool.Unmoved next → Reserves pool next pageId .waiting

namespace WellFormed

theorem makeChunkId_ok (type : ChunkType) (hpage : pageId < 2 ^ kChunkNoBits) :
    ∃ chunkId, makeChunkId type pageId = .ok chunkId := by
  have hfits : ¬ kChunkNoMask < pageId := Nat.not_lt.mpr (Nat.le_sub_one_of_lt hpage)
  unfold makeChunkId
  rw [if_neg hfits]
  exact ⟨_, rfl⟩

theorem enter_loading (hpool : pool.WellFormed [frame]) (hresident : pageId ∉ pool.resident)
    (hloading : pageId ∉ pool.loading) (update : Chunk → Chunk) :
    WellFormed { pool.setChunk frame update with
      loading := AssocMap.emplace pageId frame pool.loading } [] := by
  rw [AssocMap.emplace_of_notMem hloading]
  have hvalues := AssocMap.values_insert_of_notMem hloading frame
  refine ⟨?_, ?_, hpool.recency, hpool.unused, ?_⟩
  · rw [List.perm_iff_count]
    intro other
    have hcount := hpool.count_frames other
    simp only [ownedFrames, loadingFrames, residentFrames, setChunk, hvalues, List.count_append,
      List.count_cons, List.count_nil] at hcount ⊢
    omega
  · intro other hother hmem
    rcases (AList.mem_insert pool.loading).mp hmem with rfl | hmem
    · exact hresident hother
    · exact hpool.exclusive other hother hmem
  · intro other hother
    have hcount := hpool.count_le_one frame
    have hne : other ≠ frame := by
      rintro rfl
      have hfree := List.count_pos_iff.mpr hother
      simp only [setChunk, List.nil_append, List.count_cons_self, List.count_nil] at hfree hcount
      omega
    have hpin := pinCount_setChunk pool frame update other
    rw [if_neg hne, hpool.idle other (List.mem_cons_of_mem _ hother)] at hpin
    exact hpin

theorem beginLoad_spec {taken : Pool} (htaken : pool.Taken taken frame)
    (hresident : pool.frameOf pageId = none) (hloading : pageId ∉ pool.loading)
    (hpage : pageId < 2 ^ kChunkNoBits) (access : Access) (coalesced evicted : Bool) :
    ∃ next reservation,
      taken.beginLoad pageId frame access coalesced evicted = (next, .ok reservation) ∧
      next.WellFormed [] ∧ pool.Loads next pageId frame ∧
      reservation.state = .load ∧ reservation.pageId = pageId ∧
      reservation.frame = some frame := by
  obtain ⟨chunkId, hchunkId⟩ := makeChunkId_ok taken.chunkType hpage
  have habsent : pageId ∉ taken.loading := by rwa [htaken.loading]
  have hnone : pageId ∉ taken.resident := by
    rw [← AList.lookup_eq_none]
    have hframeOf := htaken.frameOf pageId
    rw [hresident] at hframeOf
    simpa [frameOf] using hframeOf
  have hpin : pool.pinCount frame = 0 := by
    rw [← htaken.pinCount frame]
    exact htaken.wellFormed.idle frame (by simp)
  unfold beginLoad
  simp only [hchunkId]
  refine ⟨_, _, rfl, htaken.wellFormed.enter_loading hnone habsent _,
    ⟨htaken.capacityPages, hpin, hloading, htaken.frameOf, ?_, ?_⟩, rfl, rfl, rfl⟩
  · rw [← htaken.loading]
    exact AssocMap.emplace_of_notMem habsent frame
  · intro other
    have hset := pinCount_setChunk taken frame
      (fun chunk => ⟨chunkId, chunk.pinCount + 1, .free⟩) other
    refine hset.trans ?_
    rw [← htaken.pinCount other]
    split <;> rfl

section

variable (hpool : pool.WellFormed [])
include hpool

theorem reserveMiss_spec (hresident : pool.frameOf pageId = none) (hloading : pageId ∉ pool.loading)
    (hpage : pageId < 2 ^ kChunkNoBits) (access : Access) (coalesced : Bool) :
    ∃ next reservation, pool.reserveMiss pageId access coalesced = (next, .ok reservation) ∧
      next.WellFormed [] ∧ Reserves pool next pageId (.finished reservation) := by
  have hcounted : ∃ counted : Pool, (if access.isPrefetch then
      { pool with stats.prefetchMisses := pool.stats.prefetchMisses + 1 }
      else { pool with stats.misses := pool.stats.misses + 1 }) = counted ∧
      pool.Unmoved counted ∧ counted.WellFormed [] := by
    refine ⟨_, rfl, ?_⟩
    split <;> exact ⟨(Unmoved.refl pool).of_stats, hpool.of_stats _⟩
  obtain ⟨counted, hcounted, hsame, hwell⟩ := hcounted
  unfold reserveMiss
  simp only [hcounted]
  split
  · exact ⟨counted, _, rfl, hwell, .bypass hsame rfl⟩
  · obtain ⟨taken, victim, evicted, hacquire, hacquires⟩ := hwell.acquireFrame_spec access
    rw [hacquire]
    cases victim with
    | none =>
      obtain ⟨hunmoved, hidle⟩ := hacquires
      have hpassed : pool.Unmoved taken := hsame.trans hunmoved
      simp only
      split
      · exact ⟨_, _, rfl, hidle.of_stats _, .bypass hpassed.of_stats rfl⟩
      · exact ⟨_, _, rfl, hidle.of_stats _, .bypass hpassed.of_stats rfl⟩
    | some frame =>
      obtain ⟨next, reservation, hbegin, hnext, hloads, hstate, hpageId, hframe⟩ :=
        beginLoad_spec (hsame.taken hacquires) hresident hloading hpage access coalesced evicted
      exact ⟨next, reservation, hbegin, hnext, .load hloads hstate hpageId hframe⟩

/-- A well-formed pool never throws on a page that fits a chunk id, and stays
well-formed whatever the reservation ends with. -/
theorem reserveLocked_spec (hpage : pageId < 2 ^ kChunkNoBits) (access : Access)
    (waitForInflight coalesced : Bool) :
    ∃ next progress,
      pool.reserveLocked pageId access waitForInflight coalesced = (next, .ok progress) ∧
      next.WellFormed [] ∧ Reserves pool next pageId progress := by
  unfold reserveLocked
  cases hlookup : pool.resident.lookup pageId with
  | some entry =>
    obtain ⟨next, reservation, hhit, hnext, hpinned, hstate, hpageId, hframe⟩ :=
      hpool.hitResident_spec hlookup access coalesced
    simp only [hhit]
    exact ⟨next, _, rfl, hnext, .hit (frameOf_of_lookup hlookup) hpinned hstate hpageId hframe⟩
  | none =>
    simp only
    split
    · have hcounted : pool.Unmoved { pool with
          stats.coalescedMisses := pool.stats.coalescedMisses + 1 } := (Unmoved.refl pool).of_stats
      split
      · exact ⟨_, _, rfl, hpool.of_stats _, .waiting hcounted⟩
      · exact ⟨_, _, rfl, hpool.of_stats _, .bypass hcounted rfl⟩
    · next hloading =>
        have hresident : pool.frameOf pageId = none := by simp [frameOf, hlookup]
        obtain ⟨next, reservation, hmiss, hnext, hreserves⟩ :=
          hpool.reserveMiss_spec hresident hloading hpage access coalesced
        simp only [hmiss]
        exact ⟨next, _, rfl, hnext, hreserves⟩

/-- Publishing a loaded page moves its frame from the in-flight table to the
resident one, under the load's pin. -/
theorem publishLoaded_spec (hloading : pool.loading.lookup pageId = some frame) (access : Access) :
    WellFormed
        (publishLoaded { pool with loading := pool.loading.erase pageId } pageId frame access) [] ∧
      ∀ other, (publishLoaded { pool with loading := pool.loading.erase pageId } pageId frame
        access).frameOf other = if other = pageId then some frame else pool.frameOf other := by
  have habsent : pageId ∉ pool.resident := fun hmem =>
    hpool.exclusive pageId hmem (AssocMap.mem_of_lookup hloading)
  have hemplace := AssocMap.emplace_of_notMem habsent ⟨frame, access.isPrefetch⟩
  have hvalues := AssocMap.values_insert_of_notMem habsent ⟨frame, access.isPrefetch⟩
  have hindexed := hpool.indexed.publishLoaded hloading access
  refine ⟨⟨?_, hindexed.exclusive, hindexed.recency, hindexed.unused, ?_⟩, ?_⟩
  · rw [List.perm_iff_count]
    intro other
    have hcount := hpool.count_frames other
    have hperm := (loadingFrames_perm hloading).count_eq other
    simp only [ownedFrames, loadingFrames, residentFrames, publishLoaded, setChunkState, setChunk,
      hemplace, hvalues, List.map_cons, List.count_append, List.count_cons, List.count_nil]
      at hcount hperm ⊢
    omega
  · intro other hother
    exact (pinCount_setChunkState pool frame .resident other).trans (hpool.idle other hother)
  · intro other
    simp only [frameOf, publishLoaded, setChunkState, setChunk, hemplace]
    by_cases hother : other = pageId
    · subst hother
      rw [AList.lookup_insert, if_pos rfl]
      rfl
    · rw [AList.lookup_insert_ne hother, if_neg hother]

theorem rollBack_spec (hloading : pool.loading.lookup pageId = some frame)
    (hpin : pool.pinCount frame = 1) :
    WellFormed (rollBack { pool with loading := pool.loading.erase pageId } frame) [] := by
  refine ⟨?_, ?_, hpool.recency, hpool.unused, ?_⟩
  · rw [List.perm_iff_count]
    intro other
    have hcount := hpool.count_frames other
    have hperm := (loadingFrames_perm hloading).count_eq other
    simp only [ownedFrames, loadingFrames, residentFrames, rollBack, decPinCount, setChunkState,
      setChunk, List.count_append, List.count_cons, List.count_nil] at hcount hperm ⊢
    omega
  · intro other hother hmem
    exact hpool.exclusive other hother (AList.mem_erase.mp hmem).2
  · intro other hother
    have hdec := pinCount_decPinCount (pool.setChunkState frame .free) frame other
    rw [pinCount_setChunkState] at hdec
    refine hdec.trans ?_
    have hplace : other ∈ pool.freeFrames ++ [frame] := hother
    rcases List.mem_append.mp hplace with hfree | hframe
    · rw [hpool.idle other hfree]
      exact Nat.zero_sub _
    · rw [List.mem_singleton.mp hframe, hpin, if_pos rfl]

theorem unpin (frame : FrameId) :
    (pool.decPinCount frame).WellFormed [] := by
  refine ⟨hpool.frames, hpool.exclusive, hpool.recency, hpool.unused, ?_⟩
  intro other hother
  rw [pinCount_decPinCount, hpool.idle other hother]
  exact Nat.zero_sub _

end

/-- The walk of `clear` touches chunk states only, and succeeds exactly when no
entry it visits is pinned. -/
theorem clearResident_spec (entries : List ((_ : PageId) × ResidentEntry)) (pool : Pool) :
    ∃ next result, pool.clearResident entries = (next, result) ∧
      (∃ chunks, next = { pool with chunks := chunks }) ∧
      (∀ frame, next.pinCount frame = pool.pinCount frame) ∧
      (result = .ok () → ∀ entry ∈ entries, pool.pinCount entry.2.frame = 0) := by
  induction entries generalizing pool with
  | nil => exact ⟨pool, .ok (), rfl, ⟨pool.chunks, rfl⟩, fun _ => rfl, by simp⟩
  | cons entry rest ih =>
    simp only [clearResident]
    split
    · exact ⟨pool, _, rfl, ⟨pool.chunks, rfl⟩, fun _ => rfl, nofun⟩
    · next hpin =>
        obtain ⟨next, result, hnext, ⟨chunks, hchunks⟩, hpins, hclear⟩ :=
          ih (pool.setChunkState entry.2.frame .free)
        refine ⟨next, result, hnext, ⟨chunks, hchunks⟩, ?_, ?_⟩
        · intro frame
          rw [hpins, pinCount_setChunkState]
        · intro hresult other hother
          rcases List.mem_cons.mp hother with rfl | hother
          · exact not_not.mp hpin
          · simpa using hclear hresult other hother

theorem owner_cases (hpool : pool.WellFormed []) (hframe : frame < pool.capacityPages) :
    frame ∈ pool.freeFrames ∨ (∃ pageId, pool.loading.lookup pageId = some frame) ∨
      ∃ pageId, pool.frameOf pageId = some frame := by
  have howned := hpool.frames.mem_iff.mpr (List.mem_range.mpr hframe)
  simp only [List.nil_append, ownedFrames, List.mem_append, loadingFrames, residentFrames,
    AssocMap.mem_values, List.mem_map] at howned
  refine howned.imp_right (Or.imp_right ?_)
  rintro ⟨entry, ⟨pageId, hlookup⟩, rfl⟩
  exact ⟨pageId, frameOf_of_lookup hlookup⟩

/-- When `clear` succeeds nothing was loading or pinned, and it starts afresh. -/
structure Cleared (pool next : Pool) : Prop where
  capacityPages : next.capacityPages = pool.capacityPages
  idle : pool.loading.entries = []
  loading : next.loading = pool.loading
  unpinned : ∀ frame < pool.capacityPages, pool.pinCount frame = 0
  frameOf : ∀ pageId, next.frameOf pageId = none
  pinCount : ∀ frame, next.pinCount frame = pool.pinCount frame

theorem unpinned_of_clear (hpool : pool.WellFormed []) (hloading : pool.loading.entries = [])
    (hresident : ∀ entry ∈ pool.resident.entries, pool.pinCount entry.2.frame = 0)
    (hframe : frame < pool.capacityPages) : pool.pinCount frame = 0 := by
  rcases hpool.owner_cases hframe with hfree | ⟨pageId, hlookup⟩ | ⟨pageId, hpage⟩
  · exact hpool.idle frame hfree
  · have hentry := AssocMap.entry_mem_iff.mpr hlookup
    simp [hloading] at hentry
  · obtain ⟨entry, hlookup, rfl⟩ := frameOf_eq_some.mp hpage
    exact hresident _ (AssocMap.entry_mem_iff.mpr hlookup)

theorem clear_spec (hpool : pool.WellFormed []) :
    ∃ next result, pool.clear = (next, result) ∧ next.WellFormed [] ∧
      (result = .ok () ∧ Cleared pool next ∨ pool.Unmoved next) := by
  obtain ⟨walked, result, hwalk, ⟨chunks, rfl⟩, hpins, hclear⟩ :=
    clearResident_spec pool.resident.entries pool
  unfold clear
  split
  · exact ⟨pool, _, rfl, hpool, .inr (Unmoved.refl pool)⟩
  · next hloading =>
      have hloading : pool.loading.entries = [] := not_not.mp hloading
      rw [hwalk]
      cases result with
      | error error =>
        refine ⟨_, _, rfl, ⟨hpool.frames, hpool.exclusive, hpool.recency, hpool.unused, ?_⟩,
          .inr ⟨rfl, rfl, fun _ => rfl, rfl, hpins⟩⟩
        intro other hother
        exact (hpins other).trans (hpool.idle other hother)
      | ok _ =>
        have hunpinned : ∀ frame < pool.capacityPages, pool.pinCount frame = 0 :=
          fun _ => hpool.unpinned_of_clear hloading (hclear rfl)
        refine ⟨_, _, rfl, ⟨?_, ?_, ?_, rfl, ?_⟩,
          .inl ⟨rfl, rfl, hloading, rfl, hunpinned, fun _ => rfl, hpins⟩⟩
        · simp [ownedFrames, loadingFrames, residentFrames, AssocMap.values, hloading]
        · simp
        · simp
        · intro other hother
          exact (hpins other).trans (hunpinned other (List.mem_range.mp hother))

end WellFormed

end SkipCell.Cache.Pool

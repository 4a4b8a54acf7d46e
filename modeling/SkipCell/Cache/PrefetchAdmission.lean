import SkipCell.Cache.DemandTrace

/-! # Prefetches in the cache

A plain prefetch evicts a page other than an unused prefetch on credit only. It spends the
credit, and a prefetched page that is used gives it back. The history of a run counts what
was evicted so, and of which pages.
-/

namespace SkipCell.Cache

open Foundation

def Operation.isPlainPrefetch : Operation → Bool
  | .reserve _ access _ _ | .reserveMany _ access | .resumeMany _ access _ => access = .prefetch
  | _ => false

namespace Pool

/-- The call empties the cache, and starts its counters anew. -/
def restarts (pool : Pool) : Operation → Bool
  | .clear order => (pool.clearIn order).2.isOk
  | .resetCapacity capacityPages => (pool.resetCapacity capacityPages).2.isOk
  | _ => false

/-- The pages that have become resident, without the mark of a prefetch. -/
def loadedOnDemand (pool next : Pool) : Finset PageId :=
  (next.resident.keys.filter fun pageId =>
    decide (pageId ∉ pool.resident) && (next.resident.lookup pageId).any (!·.prefetchedUnused)).toFinset

end Pool

/-- A run with the resident pages that were loaded on demand, and with the number of those
that were evicted for plain prefetches since the cache was last emptied. -/
structure History where
  pool : Pool
  demandLoaded : Finset PageId
  demandEvictions : Nat

namespace History

def init (capacityPages : Nat) (chunkType : ChunkType) : History :=
  ⟨Pool.init capacityPages chunkType, ∅, 0⟩

def perform (history : History) (operation : Operation) : History :=
  let next := history.pool.perform operation
  let evicted := history.demandLoaded.filter (· ∉ next.resident)
  { pool := next
    demandLoaded :=
      (history.demandLoaded ∪ history.pool.loadedOnDemand next).filter (· ∈ next.resident)
    demandEvictions :=
      if history.pool.restarts operation then 0
      else if operation.isPlainPrefetch then history.demandEvictions + evicted.card
      else history.demandEvictions }

/-- The cache under any sequence of calls, with its history. -/
def transition (capacityPages : Nat) (chunkType : ChunkType) : Transition History Operation :=
  .guarded (· = init capacityPages chunkType) (fun history => history.pool.Permitted) perform

end History

namespace Pool

variable {pool middle next : Pool} {pageId : PageId} {plain : Bool}

/-- The page is resident, and no unused prefetch. -/
def Settled (pool : Pool) (pageId : PageId) : Prop :=
  ∃ entry, pool.resident.lookup pageId = some entry ∧ entry.prefetchedUnused = false

def credit (pool : Pool) : Nat := pool.prefetchAdmissionCredit.toNat

/-- What a call does to the settled pages and to the credit. -/
structure Admits (pool next : Pool) (plain : Bool) (lost : Finset PageId) : Prop where
  settled : ∀ pageId, pool.Settled pageId → pageId ∉ lost → next.Settled pageId
  gone : ∀ pageId ∈ lost, pageId ∉ next.resident
  balance : (if plain then lost.card else 0) + next.credit + pool.stats.prefetchUsed ≤
    pool.credit + next.stats.prefetchUsed

namespace Admits

theorem of_tables (hresident : next.resident = pool.resident)
    (hcredit : next.prefetchAdmissionCredit = pool.prefetchAdmissionCredit)
    (hused : next.stats.prefetchUsed = pool.stats.prefetchUsed) : Admits pool next plain ∅ where
  settled pageId hsettled _ := by
    rw [Settled, hresident]
    exact hsettled
  gone pageId hmem := absurd hmem (Finset.notMem_empty pageId)
  balance := by
    rw [credit, credit, hcredit, hused, Finset.card_empty]
    simp

theorem refl (pool : Pool) (plain : Bool) : Admits pool pool plain ∅ := of_tables rfl rfl rfl

theorem trans {first second : Finset PageId} (hfirst : Admits pool middle plain first)
    (hsecond : Admits middle next plain second) (hgone : ∀ pageId ∈ first, pageId ∉ next.resident) :
    Admits pool next plain (first ∪ second) where
  settled pageId hsettled hkept := by
    rw [Finset.mem_union, not_or] at hkept
    exact hsecond.settled pageId (hfirst.settled pageId hsettled hkept.1) hkept.2
  gone pageId hmem := (Finset.mem_union.mp hmem).elim (hgone pageId) (hsecond.gone pageId)
  balance := by
    have hcard := Finset.card_union_le first second
    have hbefore := hfirst.balance
    have hafter := hsecond.balance
    cases plain with
    | true =>
      simp only [if_true] at hbefore hafter ⊢
      omega
    | false =>
      simp only [Bool.false_eq_true, if_false] at hbefore hafter ⊢
      omega

end Admits

theorem settled_dropPage {other : PageId} {entry : ResidentEntry} (hsettled : pool.Settled pageId)
    (hother : pageId ≠ other) : (pool.dropPage other entry).Settled pageId := by
  obtain ⟨found, hlookup, hused⟩ := hsettled
  exact ⟨found, (AList.lookup_erase_ne hother).trans hlookup, hused⟩

theorem notMem_dropPage (pool : Pool) (pageId : PageId) (entry : ResidentEntry) :
    pageId ∉ (pool.dropPage pageId entry).resident :=
  fun hmem => (AList.mem_erase.mp hmem).1 rfl

theorem dropPage_admits {page : PageId} {entry : ResidentEntry} {next : Pool} {plain : Bool}
    (hresident : next.resident = (pool.dropPage page entry).resident)
    (hused : next.stats.prefetchUsed = pool.stats.prefetchUsed)
    (hcredit : next.credit + (if plain then 1 else 0) ≤ pool.credit) :
    Admits pool next plain {page} where
  settled other hsettled hkept := by
    have hne : other ≠ page := fun hsame => hkept (Finset.mem_singleton.mpr hsame)
    rw [Settled, hresident]
    exact settled_dropPage hsettled hne
  gone other hmem := by
    rw [Finset.mem_singleton.mp hmem, hresident]
    exact notMem_dropPage pool page entry
  balance := by
    rw [hused, Finset.card_singleton]
    omega

theorem dropUnused_admits {page : PageId} {entry : ResidentEntry}
    (hlookup : pool.resident.lookup page = some entry) (hunused : entry.prefetchedUnused = true)
    (plain : Bool) : Admits pool (pool.dropPage page entry) plain ∅ where
  settled other hsettled _ := by
    apply settled_dropPage hsettled
    rintro rfl
    obtain ⟨found, hfound, hused⟩ := hsettled
    obtain rfl := Option.some.inj (hfound.symm.trans hlookup)
    exact absurd (hunused.symm.trans hused) nofun
  gone other hmem := absurd hmem (Finset.notMem_empty other)
  balance := by simp [credit, dropPage]

theorem Provides.admits {access : Access} {frame : Option FrameId}
    (hprovides : Provides pool access next frame) :
    ∃ lost, Admits pool next (access = .prefetch) lost := by
  cases hprovides with
  | free _ => exact ⟨∅, .of_tables rfl rfl rfl⟩
  | @replaced required page entry _ hvictim _ hprefetch =>
    obtain ⟨hlookup, -, hunused⟩ := victim_eq_some hvictim
    cases hflag : entry.prefetchedUnused with
    | true => exact ⟨∅, dropUnused_admits hlookup hflag _⟩
    | false =>
      have hplain : access ≠ .prefetch := by
        intro hsame
        exact absurd (hflag.symm.trans (hunused (hprefetch hsame))) nofun
      refine ⟨{page}, @dropPage_admits pool page entry _ _ rfl rfl ?_⟩
      simp [credit, dropPage, hplain]
  | @spent page entry _ _ _ hcredit =>
    refine ⟨{page}, @dropPage_admits pool page entry _ _ rfl rfl ?_⟩
    by_cases hplain : access = .prefetch
    · simp [credit, spendCredit, hplain, hcredit hplain]
    · simp [credit, spendCredit, dropPage, hplain]
  | none => exact ⟨∅, .refl pool _⟩

theorem hitResident_admits (pool : Pool) {entry : ResidentEntry}
    (hlookup : pool.resident.lookup pageId = some entry) (access : Access) (coalesced : Bool)
    (plain : Bool) :
    Admits pool (pool.hitResident pageId entry access coalesced).1 plain ∅ ∧
      ∀ other ∈ (pool.hitResident pageId entry access coalesced).1.resident,
        other ∈ pool.resident := by
  have hinserted : ∀ other, pool.Settled other → ∃ found,
      (pool.resident.insert pageId { entry with prefetchedUnused := false }).lookup other =
        some found ∧ found.prefetchedUnused = false := by
    rintro other ⟨found, hfound, hused⟩
    by_cases hsame : other = pageId
    · subst hsame
      exact ⟨_, AList.lookup_insert _, rfl⟩
    · exact ⟨found, (AList.lookup_insert_ne hsame).trans hfound, hused⟩
  have hpages : ∀ other, other ∈ pool.resident.insert pageId
      { entry with prefetchedUnused := false } → other ∈ pool.resident := by
    intro other hmem
    rcases (AList.mem_insert pool.resident).mp hmem with rfl | hmem
    · exact AssocMap.mem_of_lookup hlookup
    · exact hmem
  unfold hitResident
  by_cases hdemand : access = .demand
  · subst hdemand
    simp only [if_true]
    split
    next =>
      split
      next =>
        refine ⟨⟨fun other hsettled _ => hinserted other hsettled,
          fun other hmem => absurd hmem (Finset.notMem_empty other), ?_⟩, hpages⟩
        simp [credit, incPinCount, setChunk]
      next =>
        refine ⟨⟨fun other hsettled _ => hinserted other hsettled,
          fun other hmem => absurd hmem (Finset.notMem_empty other), ?_⟩, hpages⟩
        have hcredit : pool.credit ≤ 1 := Bool.toNat_le pool.prefetchAdmissionCredit
        simp [credit, incPinCount, setChunk]
        omega
    next => exact ⟨.of_tables rfl rfl rfl, fun _ hmem => hmem⟩
  · rw [if_neg hdemand]
    exact ⟨.of_tables rfl rfl rfl, fun _ hmem => hmem⟩

theorem Admits.of_same {lost : Finset PageId} (hadmits : Admits pool middle plain lost)
    (hresident : next.resident = middle.resident)
    (hcredit : next.prefetchAdmissionCredit = middle.prefetchAdmissionCredit)
    (hused : next.stats.prefetchUsed = middle.stats.prefetchUsed) : Admits pool next plain lost := by
  have hsame := hadmits.trans (of_tables hresident hcredit hused) fun other hmem => by
    rw [hresident]
    exact hadmits.gone other hmem
  rwa [Finset.union_empty] at hsame

theorem beginLoad_tables (pool : Pool) (pageId : PageId) (frame : FrameId) (access : Access)
    (coalesced evicted : Bool) :
    let next := (pool.beginLoad pageId frame access coalesced evicted).1
    next.resident = pool.resident ∧ next.stats = pool.stats ∧
      next.prefetchAdmissionCredit = pool.prefetchAdmissionCredit := by
  unfold beginLoad
  split
  next => exact ⟨rfl, rfl, rfl⟩
  next => exact ⟨rfl, rfl, rfl⟩

namespace Indexed

theorem reserveMiss_admits (hpool : pool.Indexed) (pageId : PageId) (access : Access)
    (coalesced : Bool) :
    (∃ lost, Admits pool (pool.reserveMiss pageId access coalesced).1 (access = .prefetch) lost) ∧
      ∀ other ∈ (pool.reserveMiss pageId access coalesced).1.resident, other ∈ pool.resident := by
  obtain ⟨counted, hcounted, hstats, hused⟩ : ∃ counted, (if access.isPrefetch then
      { pool with stats.prefetchMisses := pool.stats.prefetchMisses + 1 }
      else { pool with stats.misses := pool.stats.misses + 1 }) = counted ∧
      counted = { pool with stats := counted.stats } ∧
      counted.stats.prefetchUsed = pool.stats.prefetchUsed := by
    split
    next => exact ⟨_, rfl, rfl, rfl⟩
    next => exact ⟨_, rfl, rfl, rfl⟩
  have hindexed : counted.Indexed := by
    rw [hstats]
    exact ⟨hpool.exclusive, hpool.recency, hpool.unused⟩
  have hsame : counted.resident = pool.resident := by rw [hstats]
  have hstart : Admits pool counted (access = .prefetch) ∅ :=
    .of_tables hsame (by rw [hstats]) hused
  unfold reserveMiss
  simp only [hcounted]
  split
  next =>
    rw [hsame]
    exact ⟨⟨∅, hstart⟩, fun _ hmem => hmem⟩
  next =>
    obtain ⟨taken, frame, evicted, hacquire, hprovides, -⟩ := hindexed.acquireFrame_spec access
    obtain ⟨lost, hlost⟩ := hprovides.admits
    have hpages := (hprovides.spec hindexed).2.2.2.2
    have hadmits : Admits pool taken (access = .prefetch) lost := by
      have hunion := hstart.trans hlost fun other hmem => absurd hmem (Finset.notMem_empty other)
      rwa [Finset.empty_union] at hunion
    rw [hsame] at hpages
    rw [hacquire]
    cases frame with
    | none =>
      simp only
      split
      next => exact ⟨⟨lost, hadmits.of_same rfl rfl rfl⟩, hpages⟩
      next => exact ⟨⟨lost, hadmits.of_same rfl rfl rfl⟩, hpages⟩
    | some frame =>
      obtain ⟨hresident, hkept, hcredit⟩ :=
        taken.beginLoad_tables pageId frame access coalesced evicted
      refine ⟨⟨lost, hadmits.of_same hresident hcredit (by rw [hkept])⟩, ?_⟩
      simp only [hresident]
      exact hpages

theorem reserveLocked_admits (hpool : pool.Indexed) (pageId : PageId) (access : Access)
    (waitForInflight coalesced : Bool) :
    (∃ lost, Admits pool (pool.reserveLocked pageId access waitForInflight coalesced).1
      (access = .prefetch) lost) ∧
      ∀ other ∈ (pool.reserveLocked pageId access waitForInflight coalesced).1.resident,
        other ∈ pool.resident := by
  unfold reserveLocked
  cases hlookup : pool.resident.lookup pageId with
  | some entry =>
    obtain ⟨hadmits, hpages⟩ :=
      pool.hitResident_admits hlookup access coalesced (access = .prefetch)
    simp only
    split
    next hhit =>
      rw [hhit] at hadmits hpages
      exact ⟨⟨∅, hadmits⟩, hpages⟩
    next hhit =>
      rw [hhit] at hadmits hpages
      exact ⟨⟨∅, hadmits⟩, hpages⟩
  | none =>
    simp only
    split
    next =>
      split
      next => exact ⟨⟨∅, .of_tables rfl rfl rfl⟩, fun _ hmem => hmem⟩
      next => exact ⟨⟨∅, .of_tables rfl rfl rfl⟩, fun _ hmem => hmem⟩
    next =>
      obtain ⟨hadmits, hpages⟩ := hpool.reserveMiss_admits pageId access coalesced
      split
      next hmiss =>
        rw [hmiss] at hadmits hpages
        exact ⟨hadmits, hpages⟩
      next hmiss =>
        rw [hmiss] at hadmits hpages
        exact ⟨hadmits, hpages⟩

theorem reserveFrom_admits (hpool : pool.Indexed) (access : Access) (pageIds : List PageId)
    (coalesced : Bool) (reservations : List Reservation) :
    (∃ lost, Admits pool (reserveFrom access pageIds coalesced pool reservations).1
      (access = .prefetch) lost) ∧
      ∀ other ∈ (reserveFrom access pageIds coalesced pool reservations).1.resident,
        other ∈ pool.resident := by
  induction pageIds generalizing pool coalesced reservations with
  | nil => exact ⟨⟨∅, .refl pool _⟩, fun _ hmem => hmem⟩
  | cons pageId pageIds ih =>
    obtain ⟨hadmits, hpages⟩ := hpool.reserveLocked_admits pageId access true coalesced
    obtain ⟨middle, result, hcall, hmiddle, -⟩ :=
      hpool.reserveLocked_spec pageId access true coalesced
    rw [reserveFrom, hcall]
    rw [hcall] at hadmits hpages
    rcases result with error | progress
    · exact ⟨hadmits, hpages⟩
    · cases progress with
      | waiting => exact ⟨hadmits, hpages⟩
      | finished reservation =>
        obtain ⟨⟨later, hlater⟩, hrest⟩ := ih hmiddle false (reservations ++ [reservation])
        obtain ⟨lost, hlost⟩ := hadmits
        refine ⟨⟨lost ∪ later, hlost.trans hlater fun other hmem hresident => ?_⟩,
          fun other hmem => hpages other (hrest other hmem)⟩
        exact hlost.gone other hmem (hrest other hresident)

theorem publish_admits (hpool : pool.Indexed) (reservation : Reservation) (success plain : Bool) :
    Admits pool (pool.publish reservation success).1 plain ∅ := by
  unfold Pool.publish
  split
  next frame _ _ =>
    split
    next hloading =>
      cases success with
      | false => exact .of_tables rfl rfl rfl
      | true =>
        have habsent : reservation.pageId ∉ pool.resident := fun hmem =>
          hpool.exclusive reservation.pageId hmem (AssocMap.mem_of_lookup hloading)
        have hemplace := AssocMap.emplace_of_notMem habsent
          ⟨frame, reservation.access.isPrefetch⟩
        refine ⟨?_, fun other hmem => absurd hmem (Finset.notMem_empty other), ?_⟩
        · rintro other ⟨entry, hlookup, hused⟩ -
          have hne : other ≠ reservation.pageId := by
            rintro rfl
            exact habsent (AssocMap.mem_of_lookup hlookup)
          refine ⟨entry, ?_, hused⟩
          simp only [Pool.publishLoaded, setChunkState, setChunk, hemplace, if_true]
          exact (AList.lookup_insert_ne hne).trans hlookup
        · simp [credit, Pool.publishLoaded, setChunkState, setChunk]
    next => exact .refl pool plain
  next => exact .refl pool plain

theorem publishMany_admits (hpool : pool.Indexed) (success plain : Bool)
    (reservations : List Reservation) :
    Admits pool (pool.publishMany success reservations).1 plain ∅ := by
  induction reservations generalizing pool with
  | nil => exact .refl pool plain
  | cons reservation reservations ih =>
    have hadmits := hpool.publish_admits reservation success plain
    have hnext := hpool.publish reservation success
    rw [Pool.publishMany]
    split
    next hcall =>
      rw [hcall] at hadmits
      exact hadmits
    next hcall =>
      rw [hcall] at hadmits hnext
      exact hadmits.trans (ih hnext) fun other hmem => absurd hmem (Finset.notMem_empty other)

end Indexed

theorem release_admits (pool : Pool) (reservation : Reservation) (plain : Bool) :
    Admits pool (pool.release reservation).1 plain ∅ := by
  unfold release
  split
  next => exact .refl pool plain
  next =>
    split
    next => exact .refl pool plain
    next =>
      split
      next => exact .refl pool plain
      next => exact .of_tables rfl rfl rfl

theorem releaseMany_admits (pool : Pool) (reservations : List Reservation) (plain : Bool) :
    Admits pool (pool.releaseMany reservations).1 plain ∅ := by
  induction reservations generalizing pool with
  | nil => exact .refl pool plain
  | cons reservation reservations ih =>
    have hadmits := pool.release_admits reservation plain
    rw [releaseMany]
    split
    next hcall =>
      rw [hcall] at hadmits
      exact hadmits
    next next hcall =>
      rw [hcall] at hadmits
      exact hadmits.trans (ih next) fun other hmem => absurd hmem (Finset.notMem_empty other)

theorem tryReserveHit_admits (pool : Pool) (pageId : PageId) (access : Access) (plain : Bool) :
    Admits pool (pool.tryReserveHit pageId access).1 plain ∅ := by
  unfold tryReserveHit
  cases hlookup : pool.resident.lookup pageId with
  | none => exact .refl pool plain
  | some entry => exact (pool.hitResident_admits hlookup access false plain).1

/-- A cache that is emptied starts anew. -/
structure Emptied (pool : Pool) : Prop where
  resident : pool.resident = ∅
  credit : pool.credit = 1
  used : pool.stats.prefetchUsed = 0

theorem clearIn_admits (pool : Pool) (order : List PageEntry) (plain : Bool) :
    if (pool.clearIn order).2.isOk then (pool.clearIn order).1.Emptied
      else Admits pool (pool.clearIn order).1 plain ∅ := by
  obtain ⟨walked, result, hwalk, ⟨chunks, rfl⟩, -⟩ := WellFormed.clearResident_spec order pool
  unfold clearIn
  by_cases hloading : pool.loading.entries ≠ []
  · rw [if_pos hloading]
    exact .refl pool plain
  · rw [if_neg hloading, hwalk]
    cases result with
    | error error => exact .of_tables rfl rfl rfl
    | ok _ => exact ⟨rfl, rfl, rfl⟩

theorem resetCapacity_admits (pool : Pool) (capacityPages : Nat) (plain : Bool) :
    if (pool.resetCapacity capacityPages).2.isOk then (pool.resetCapacity capacityPages).1.Emptied
      else Admits pool (pool.resetCapacity capacityPages).1 plain ∅ := by
  unfold resetCapacity
  by_cases hzero : capacityPages = 0
  · rw [if_pos hzero]
    exact .refl pool plain
  rw [if_neg hzero]
  by_cases hloading : pool.loading.entries ≠ []
  · rw [if_pos hloading]
    exact .refl pool plain
  rw [if_neg hloading]
  by_cases hpinned : ∃ entry ∈ pool.resident.entries, pool.pinCount entry.2.frame ≠ 0
  · rw [if_pos hpinned]
    exact .refl pool plain
  · rw [if_neg hpinned]
    exact ⟨rfl, rfl, rfl⟩

theorem Indexed.perform_admits (hpool : pool.Indexed) (operation : Operation) :
    if pool.restarts operation then (pool.perform operation).Emptied
      else ∃ lost, Admits pool (pool.perform operation) operation.isPlainPrefetch lost := by
  cases operation with
  | reserve pageId access waitForInflight coalesced =>
    exact (hpool.reserveLocked_admits pageId access waitForInflight coalesced).1
  | reserveMany pageIds access =>
    change ∃ lost, Admits pool (pool.reserveMany pageIds access).1 (access = .prefetch) lost
    unfold reserveMany
    split
    next => exact (hpool.reserveFrom_admits access pageIds false []).1
    next => exact ⟨∅, .refl pool _⟩
  | resumeMany pageIds access reservations =>
    exact (hpool.reserveFrom_admits access pageIds true reservations).1
  | tryReserveHit pageId access => exact ⟨∅, pool.tryReserveHit_admits pageId access false⟩
  | publish reservation success => exact ⟨∅, hpool.publish_admits reservation success false⟩
  | publishMany reservations success =>
    exact ⟨∅, hpool.publishMany_admits success false reservations⟩
  | release reservation => exact ⟨∅, pool.release_admits reservation false⟩
  | releaseMany reservations => exact ⟨∅, pool.releaseMany_admits reservations false⟩
  | clear order =>
    have hclear := pool.clearIn_admits order false
    by_cases hok : (pool.clearIn order).2.isOk = true
    · rw [if_pos hok] at hclear
      rw [restarts, if_pos hok]
      exact hclear
    · rw [if_neg hok] at hclear
      rw [restarts, if_neg hok]
      exact ⟨∅, hclear⟩
  | resetCapacity capacityPages =>
    have hreset := pool.resetCapacity_admits capacityPages false
    by_cases hok : (pool.resetCapacity capacityPages).2.isOk = true
    · rw [if_pos hok] at hreset
      rw [restarts, if_pos hok]
      exact hreset
    · rw [if_neg hok] at hreset
      rw [restarts, if_neg hok]
      exact ⟨∅, hreset⟩

end Pool

namespace History

variable {history : History}

/-- What every call keeps: each page that was evicted on credit is paid for, by the first
credit or by a use of a prefetched page. -/
structure Sound (history : History) : Prop where
  indexed : history.pool.Indexed
  settled : ∀ pageId ∈ history.demandLoaded, history.pool.Settled pageId
  balance : history.demandEvictions + history.pool.credit ≤ 1 + history.pool.stats.prefetchUsed

theorem Sound.init (capacityPages : Nat) (chunkType : ChunkType) :
    (init capacityPages chunkType).Sound where
  indexed := Pool.Indexed.init capacityPages chunkType
  settled pageId hmem := absurd hmem (Finset.notMem_empty pageId)
  balance := Nat.le_refl 1

theorem settled_of_loadedOnDemand {pool next : Pool} {pageId : PageId}
    (hloaded : pageId ∈ pool.loadedOnDemand next) : next.Settled pageId := by
  simp only [Pool.loadedOnDemand, List.mem_toFinset, List.mem_filter, Bool.and_eq_true,
    Option.any_eq_true] at hloaded
  obtain ⟨-, -, entry, hlookup, hused⟩ := hloaded
  exact ⟨entry, hlookup, by simpa using hused⟩

theorem Sound.perform (hsound : history.Sound) (operation : Operation) :
    (history.perform operation).Sound := by
  have hcall := hsound.indexed.perform_admits operation
  refine ⟨hsound.indexed.perform operation, ?_, ?_⟩
  · intro pageId hmem
    obtain ⟨hloaded, hresident⟩ := Finset.mem_filter.mp hmem
    rcases Finset.mem_union.mp hloaded with hbefore | hnew
    · split at hcall
      next =>
        rw [hcall.resident] at hresident
        exact absurd hresident (AList.notMem_empty pageId)
      next =>
        obtain ⟨lost, hadmits⟩ := hcall
        exact hadmits.settled pageId (hsound.settled pageId hbefore) fun hlost =>
          hadmits.gone pageId hlost hresident
    · exact settled_of_loadedOnDemand hnew
  · change (if history.pool.restarts operation then 0 else _) +
      (history.pool.perform operation).credit ≤ 1 + (history.pool.perform operation).stats.prefetchUsed
    split at hcall
    next hrestarts => rw [if_pos hrestarts, hcall.credit, hcall.used]
    next hrestarts =>
      obtain ⟨lost, hadmits⟩ := hcall
      have hevicted : history.demandLoaded.filter
          (· ∉ (history.pool.perform operation).resident) ⊆ lost := by
        intro pageId hmem
        obtain ⟨hloaded, hgone⟩ := Finset.mem_filter.mp hmem
        by_contra hkept
        obtain ⟨entry, hlookup, -⟩ :=
          hadmits.settled pageId (hsound.settled pageId hloaded) hkept
        exact hgone (AssocMap.mem_of_lookup hlookup)
      have hcard := Finset.card_le_card hevicted
      have hbefore := hsound.balance
      have hcost := hadmits.balance
      rw [if_neg hrestarts]
      cases hplain : operation.isPlainPrefetch with
      | true =>
        simp only [hplain, if_true] at hcost ⊢
        omega
      | false =>
        simp only [hplain, Bool.false_eq_true, if_false] at hcost ⊢
        omega

theorem Sound.of_reachable {capacityPages : Nat} {chunkType : ChunkType}
    (hreach : (transition capacityPages chunkType).Reachable history) : history.Sound := by
  apply hreach.invariant
  · rintro start rfl
    exact init capacityPages chunkType
  · rintro state operation next hstate ⟨-, rfl⟩
    exact hstate.perform operation

/-- Plain prefetches evict one demand page and one more for each prefetched page that was
used; without prefetches the cache is the textbook one. -/
theorem prefetch_admission {capacityPages : Nat} {chunkType : ChunkType} :
    (∀ history, (transition capacityPages chunkType).Reachable history →
      history.demandEvictions ≤ 1 + history.pool.stats.prefetchUsed) ∧
    ∀ pageIds pageId, (∀ other ∈ pageIds, other < 2 ^ kChunkNoBits) → pageId < 2 ^ kChunkNoBits →
      let pool := pageIds.foldl Pool.demandAccess (Pool.init capacityPages chunkType)
      let cache := lruRun capacityPages pageIds
      (∀ other, other ∈ pool.resident ↔ other ∈ cache) ∧
        ∀ other, other ∈ pool.resident ∧ other ∉ (pool.demandAccess pageId).resident ↔
          (lruAccess capacityPages cache pageId).2 = some other := by
  refine ⟨fun history hreach => ?_, fun pageIds pageId hpages hpage =>
    Pool.demand_trace capacityPages chunkType hpages hpage⟩
  have hbalance := (Sound.of_reachable hreach).balance
  omega

/-- A demand page comes into the only frame, and a plain prefetch takes the frame from it. -/
def evictsDemand (demanded prefetched : PageId) : List Operation :=
  let demand : Reservation := ⟨.load, demanded, some 0, false, false, .demand, false⟩
  let prefetch : Reservation := ⟨.load, prefetched, some 0, false, true, .prefetch, false⟩
  [.reserve demanded .demand true false, .publish demand true, .release demand,
    .reserve prefetched .prefetch true false, .publish prefetch true, .release prefetch]

theorem prefetch_admission_oneFrame :
    ((evictsDemand 1 2).foldl perform (init 1 .chunk4kb)).demandEvictions ≤
      1 + ((evictsDemand 1 2).foldl perform (init 1 .chunk4kb)).pool.stats.prefetchUsed ∧
    (lruAccess 1 (lruRun 1 [5]) 7).2 = some 5 ∧
    5 ∉ (([5].foldl Pool.demandAccess (Pool.init 1 .chunk4kb)).demandAccess 7).resident := by
  have hreach : (transition 1 .chunk4kb).Reachable
      ((evictsDemand 1 2).foldl perform (init 1 .chunk4kb)) :=
    Transition.reachable_of_permitted rfl (by decide +kernel)
  obtain ⟨hprefetches, htrace⟩ := @prefetch_admission 1 .chunk4kb
  have hevicted := ((htrace [5] 7 (by decide) (by decide)).2 5).mpr (by decide)
  exact ⟨hprefetches _ hreach, by decide, hevicted.2⟩

/-- A new capacity gives the credit back without a use of a prefetched page, so two demand
pages are evicted although the cache was never cleared; and a page number that does not fit
a chunk id is never resident. -/
theorem prefetch_admission_refuted :
    let first := (evictsDemand 1 2).foldl perform (init 1 .chunk4kb)
    let second := (evictsDemand 3 4).foldl perform (first.perform (.resetCapacity 1))
    first.demandEvictions = 1 ∧ second.demandEvictions = 1 ∧
      first.pool.stats.prefetchUsed = 0 ∧ second.pool.stats.prefetchUsed = 0 ∧
      lruRun 1 [2 ^ 62] = [2 ^ 62] ∧
      2 ^ 62 ∉ ([2 ^ 62].foldl Pool.demandAccess (Pool.init 1 .chunk4kb)).resident := by
  decide +kernel

end History

end SkipCell.Cache

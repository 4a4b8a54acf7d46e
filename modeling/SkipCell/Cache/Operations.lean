import SkipCell.Cache.Batches
import SkipCell.Cache.PoolInvariant

/-! # Calls in any order

The calls of the cache one after the other, with whatever arguments. `Indexed` is what they
all keep, also a call that throws: the tables and lists of the pool agree about the pages.
Nothing is said about the frames, of which a call can lose one.
-/

namespace SkipCell.Cache

open Foundation

abbrev PageEntry := Sigma fun _ : PageId => ResidentEntry

namespace Pool

/-- A call of `reserve_many` up to its first wait. -/
def reserveMany (pool : Pool) (pageIds : List PageId) (access : Access) : Pool × BatchProgress :=
  if strictlyIncreasing pageIds then reserveFrom access pageIds false pool []
  else (pool, .failed [])

def releaseMany (pool : Pool) : List Reservation → Call Unit
  | [] => (pool, .ok ())
  | reservation :: reservations =>
    match pool.release reservation with
    | (pool, .error error) => (pool, .error error)
    | (pool, .ok ()) => releaseMany pool reservations

/-- `clear`, with the order in which the resident table is walked. -/
def clearIn (pool : Pool) (order : List PageEntry) : Call Unit :=
  if pool.loading.entries ≠ [] then
    (pool, .error (.logicError "cannot clear LRU while page loads are in flight"))
  else
    match pool.clearResident order with
    | (pool, .error error) => (pool, .error error)
    | (pool, .ok ()) =>
      ({ pool with
          resident := ∅
          lru := []
          freeFrames := List.range pool.capacityPages
          prefetchedUnusedCount := 0
          prefetchAdmissionCredit := true
          stats := {} }, .ok ())

def resetCapacity (pool : Pool) (capacityPages : Nat) : Call Unit :=
  if capacityPages = 0 then
    (pool, .error (.logicError "LRU capacity reset requires at least one page"))
  else if pool.loading.entries ≠ [] then
    (pool, .error (.logicError "cannot reset LRU capacity while page loads are in flight"))
  else if ∃ entry ∈ pool.resident.entries, pool.pinCount entry.2.frame ≠ 0 then
    (pool, .error (.logicError "cannot reset LRU capacity while a resident page is pinned"))
  else
    (init capacityPages pool.chunkType, .ok ())

end Pool

/-- A part of a call that runs under the lock. `resumeMany` is what follows a wait of
`reserve_many`. -/
inductive Operation
  | reserve (pageId : PageId) (access : Access) (waitForInflight coalesced : Bool)
  | reserveMany (pageIds : List PageId) (access : Access)
  | resumeMany (pageIds : List PageId) (access : Access) (reservations : List Reservation)
  | tryReserveHit (pageId : PageId) (access : Access)
  | publish (reservation : Reservation) (success : Bool)
  | publishMany (reservations : List Reservation) (success : Bool)
  | release (reservation : Reservation)
  | releaseMany (reservations : List Reservation)
  | clear (order : List PageEntry)
  | resetCapacity (capacityPages : Nat)

namespace Pool

def perform (pool : Pool) : Operation → Pool
  | .reserve pageId access waitForInflight coalesced =>
    (pool.reserveLocked pageId access waitForInflight coalesced).1
  | .reserveMany pageIds access => (pool.reserveMany pageIds access).1
  | .resumeMany pageIds access reservations => (reserveFrom access pageIds true pool reservations).1
  | .tryReserveHit pageId access => (pool.tryReserveHit pageId access).1
  | .publish reservation success => (pool.publish reservation success).1
  | .publishMany reservations success => (pool.publishMany success reservations).1
  | .release reservation => (pool.release reservation).1
  | .releaseMany reservations => (pool.releaseMany reservations).1
  | .clear order => (pool.clearIn order).1
  | .resetCapacity capacityPages => (pool.resetCapacity capacityPages).1

/-- A load that failed still has its pin. -/
def KeepsPin (pool : Pool) (reservation : Reservation) : Prop :=
  ∀ frame ∈ reservation.frame, pool.pinCount frame ≠ 0

instance (pool : Pool) (reservation : Reservation) : Decidable (pool.KeepsPin reservation) :=
  match hframe : reservation.frame with
  | none => .isTrue fun frame hmem => by rw [hframe] at hmem; cases hmem
  | some frame =>
    decidable_of_iff (pool.pinCount frame ≠ 0) (by simp [KeepsPin, hframe])

/-- The arguments are free, but for the walk of `clear`, which is over the resident table,
and for the pin of a failed load, which is only given back by publishing the failure. -/
def Permitted (pool : Pool) : Operation → Prop
  | .publish reservation success => success = true ∨ pool.KeepsPin reservation
  | .publishMany reservations success =>
    success = true ∨ ∀ reservation ∈ reservations, pool.KeepsPin reservation
  | .clear order => order.Perm pool.resident.entries
  | _ => True

instance (pool : Pool) : (operation : Operation) → Decidable (pool.Permitted operation)
  | .publish _ _ | .publishMany _ _ => inferInstanceAs (Decidable (_ ∨ _))
  | .clear _ => inferInstanceAs (Decidable (List.Perm _ _))
  | .reserve _ _ _ _ | .reserveMany _ _ | .resumeMany _ _ _ | .tryReserveHit _ _ | .release _
  | .releaseMany _ | .resetCapacity _ => inferInstanceAs (Decidable True)

/-- The cache under any sequence of calls. -/
def operations (capacityPages : Nat) (chunkType : ChunkType) : Transition Pool Operation :=
  .guarded (· = init capacityPages chunkType) Permitted perform

/-! ## The pages -/

/-- The page with its entry, where it can be evicted. -/
def victimAt (pool : Pool) (requireUnusedPrefetch : Bool) (pageId : PageId) :
    Option (PageId × ResidentEntry) :=
  match pool.resident.lookup pageId with
  | none => none
  | some entry =>
    if pool.pinCount entry.frame ≠ 0 ∨
        (requireUnusedPrefetch = true ∧ entry.prefetchedUnused = false) then none
    else some (pageId, entry)

/-- The least recently used page that can be evicted. -/
def victim (pool : Pool) (requireUnusedPrefetch : Bool) : Option (PageId × ResidentEntry) :=
  pool.lru.reverse.findSome? (pool.victimAt requireUnusedPrefetch)

def dropPage (pool : Pool) (pageId : PageId) (entry : ResidentEntry) : Pool :=
  { pool with
    lru := pool.lru.erase pageId
    resident := pool.resident.erase pageId
    prefetchedUnusedCount := pool.prefetchedUnusedCount - if entry.prefetchedUnused then 1 else 0
    stats :=
      { pool.stats with
        evictions := pool.stats.evictions + 1
        prefetchPollutionEvictions := pool.stats.prefetchPollutionEvictions +
          if entry.prefetchedUnused then 1 else 0 } }

/-- A page other than an unused prefetch is evicted for a prefetch. -/
def spendCredit (access : Access) (pool : Pool) : Pool :=
  { pool with
    prefetchAdmissionCredit := if access = .prefetch then false else pool.prefetchAdmissionCredit
    stats.prefetchDemandEvictions := pool.stats.prefetchDemandEvictions + 1 }

variable {pool next : Pool} {pageId : PageId} {entry : ResidentEntry}

theorem victimAt_eq_some {requireUnusedPrefetch : Bool} {found : PageId × ResidentEntry} :
    pool.victimAt requireUnusedPrefetch pageId = some found ↔
      found.1 = pageId ∧ pool.resident.lookup pageId = some found.2 ∧
      pool.pinCount found.2.frame = 0 ∧
      (requireUnusedPrefetch = true → found.2.prefetchedUnused = true) := by
  unfold victimAt
  split
  next hnone => simp [hnone]
  next entry hentry =>
    rw [hentry]
    split
    next hheld =>
      constructor
      · nofun
      · rintro ⟨-, hsame, hpin, hunused⟩
        obtain rfl := Option.some.inj hsame
        rcases hheld with hpinned | ⟨hrequired, hused⟩
        · exact absurd hpin hpinned
        · exact absurd (hunused hrequired) (Bool.eq_false_iff.mp hused)
    next hfree =>
      constructor
      · rintro hfound
        obtain rfl := Option.some.inj hfound
        refine ⟨rfl, rfl, by_contra fun hpin => hfree (.inl hpin), fun hrequired => ?_⟩
        by_contra hused
        exact hfree (.inr ⟨hrequired, Bool.eq_false_iff.mpr hused⟩)
      · rintro ⟨rfl, hsame, -, -⟩
        obtain rfl := Option.some.inj hsame
        rfl

theorem victim_eq_some {requireUnusedPrefetch : Bool} {found : PageId × ResidentEntry}
    (hvictim : pool.victim requireUnusedPrefetch = some found) :
    pool.resident.lookup found.1 = some found.2 ∧ pool.pinCount found.2.frame = 0 ∧
    (requireUnusedPrefetch = true → found.2.prefetchedUnused = true) := by
  obtain ⟨pageId, -, hat⟩ := List.exists_of_findSome?_eq_some hvictim
  obtain ⟨rfl, hfound⟩ := victimAt_eq_some.mp hat
  exact hfound

namespace Indexed

theorem init (capacityPages : Nat) (chunkType : ChunkType) :
    (Pool.init capacityPages chunkType).Indexed where
  exclusive := by simp [Pool.init]
  recency := by simp [Pool.init]
  unused := by simp [Pool.init]

theorem mem_lru (hpool : pool.Indexed) : pageId ∈ pool.lru ↔ pageId ∈ pool.resident :=
  hpool.recency.mem_iff.trans AList.mem_keys.symm

section

variable (hpool : pool.Indexed) (hlookup : pool.resident.lookup pageId = some entry)
include hpool hlookup

theorem unused_pos (hunused : entry.prefetchedUnused = true) : 0 < pool.prefetchedUnusedCount := by
  rw [hpool.unused, List.countP_pos_iff]
  exact ⟨entry, AssocMap.mem_values_of_lookup hlookup, hunused⟩

/-! ## Evictions -/

theorem dropPage : (pool.dropPage pageId entry).Indexed :=
  hpool.drop hlookup _

theorem evict_eq :
    pool.evict pageId entry = (pool.dropPage pageId entry, .ok entry.frame) := by
  unfold evict Pool.dropPage
  by_cases hunused : entry.prefetchedUnused = true
  · have hpos := hpool.unused_pos hlookup hunused
    simp only [hunused, if_true, if_neg (Nat.ne_of_gt hpos)]
  · simp only [hunused, if_false, Nat.sub_zero, Nat.add_zero, Bool.false_eq_true]

end

theorem findVictim_eq {requireUnusedPrefetch : Bool} {pages : List PageId}
    (hpages : ∀ pageId ∈ pages, pageId ∈ pool.resident) :
    pool.findVictim requireUnusedPrefetch pages =
      .ok (pages.findSome? (pool.victimAt requireUnusedPrefetch)) := by
  induction pages with
  | nil => rfl
  | cons pageId rest ih =>
    obtain ⟨hpage, hrest⟩ := List.forall_mem_cons.mp hpages
    obtain ⟨entry, hlookup⟩ := AssocMap.exists_lookup hpage
    simp only [findVictim, List.findSome?_cons, victimAt, hlookup]
    split
    next => exact ih hrest
    next => rfl

theorem selectVictim_eq (hpool : pool.Indexed) (requireUnusedPrefetch : Bool) :
    pool.selectVictim requireUnusedPrefetch =
      match pool.victim requireUnusedPrefetch with
      | none => (pool, .ok none)
      | some (pageId, entry) => (pool.dropPage pageId entry, .ok (some entry.frame)) := by
  have hpages : ∀ pageId ∈ pool.lru.reverse, pageId ∈ pool.resident := fun pageId hmem =>
    hpool.mem_lru.mp (List.mem_reverse.mp hmem)
  have hfound : pool.findVictim requireUnusedPrefetch pool.lru.reverse =
      .ok (pool.victim requireUnusedPrefetch) := findVictim_eq hpages
  rw [selectVictim, hfound]
  cases hvictim : pool.victim requireUnusedPrefetch with
  | none => rfl
  | some found => simp only [hpool.evict_eq (victim_eq_some hvictim).1]

theorem count_ne_zero (hpool : pool.Indexed) {found : PageId × ResidentEntry}
    (hvictim : pool.victim true = some found) : pool.prefetchedUnusedCount ≠ 0 := by
  obtain ⟨hlookup, -, hunused⟩ := victim_eq_some hvictim
  exact Nat.ne_of_gt (hpool.unused_pos hlookup (hunused rfl))

theorem selectPrefetchVictim_eq (hpool : pool.Indexed) (access : Access) :
    pool.selectPrefetchVictim access =
      match pool.victim true with
      | some (pageId, entry) => (pool.dropPage pageId entry, .ok (some entry.frame))
      | none =>
        if access = .gatewayPrefetch ∨ pool.prefetchAdmissionCredit = true then
          match pool.victim false with
          | none => (pool, .ok none)
          | some (pageId, entry) =>
            (spendCredit access (pool.dropPage pageId entry), .ok (some entry.frame))
        else (pool, .ok none) := by
  have hattempt : (if pool.prefetchedUnusedCount ≠ 0 then pool.selectVictim true
      else (pool, .ok none)) = pool.selectVictim true := by
    split
    next => rfl
    next hzero =>
      rw [hpool.selectVictim_eq]
      cases hvictim : pool.victim true with
      | none => rfl
      | some found => exact absurd (hpool.count_ne_zero hvictim) hzero
  unfold selectPrefetchVictim
  rw [hattempt, hpool.selectVictim_eq]
  cases pool.victim true with
  | some found => rfl
  | none =>
    simp only [hpool.selectVictim_eq]
    split
    next => cases pool.victim false <;> rfl
    next => rfl

theorem victim_isSome (hvictim : (pool.victim true).isSome = true) :
    (pool.victim false).isSome = true := by
  unfold victim at hvictim ⊢
  rw [List.findSome?_isSome_iff] at hvictim ⊢
  obtain ⟨pageId, hmem, hat⟩ := hvictim
  obtain ⟨found, hfound⟩ := Option.isSome_iff_exists.mp hat
  obtain ⟨hpage, hlookup, hpin, -⟩ := victimAt_eq_some.mp hfound
  refine ⟨pageId, hmem, Option.isSome_iff_exists.mpr ⟨found, ?_⟩⟩
  exact victimAt_eq_some.mpr ⟨hpage, hlookup, hpin, nofun⟩

end Indexed

/-- There is a frame for a load: a free one, or that of a page that can be evicted. A plain
prefetch without credit only evicts an unused prefetch. -/
def HasFrame (pool : Pool) (access : Access) : Prop :=
  pool.freeFrames ≠ [] ∨
    (pool.victim (access = .prefetch && !pool.prefetchAdmissionCredit)).isSome = true

instance (pool : Pool) (access : Access) : Decidable (pool.HasFrame access) :=
  inferInstanceAs (Decidable (_ ∨ _))

/-- Where the frame of a load comes from, and what that leaves. -/
inductive Provides (pool : Pool) (access : Access) : Pool → Option FrameId → Prop
  | free {frame : FrameId} : pool.freeFrames.getLast? = some frame →
      Provides pool access { pool with freeFrames := pool.freeFrames.dropLast } (some frame)
  | replaced {requireUnusedPrefetch : Bool} {pageId : PageId} {entry : ResidentEntry} :
      pool.freeFrames = [] → pool.victim requireUnusedPrefetch = some (pageId, entry) →
      (access = .demand → requireUnusedPrefetch = false) →
      (access = .prefetch → requireUnusedPrefetch = true) →
      Provides pool access (pool.dropPage pageId entry) (some entry.frame)
  | spent {pageId : PageId} {entry : ResidentEntry} :
      pool.freeFrames = [] → pool.victim false = some (pageId, entry) → access ≠ .demand →
      (access = .prefetch → pool.prefetchAdmissionCredit = true) →
      Provides pool access (spendCredit access (pool.dropPage pageId entry)) (some entry.frame)
  | none : Provides pool access pool none

namespace Indexed

theorem acquireFrame_spec (hpool : pool.Indexed) (access : Access) :
    ∃ next frame evicted, pool.acquireFrame access = (next, .ok (frame, evicted)) ∧
      Provides pool access next frame ∧ (frame.isSome = true ↔ pool.HasFrame access) := by
  unfold acquireFrame HasFrame
  cases hlast : pool.freeFrames.getLast? with
  | some frame =>
    have hfree : pool.freeFrames ≠ [] := by
      intro hnil
      rw [hnil] at hlast
      cases hlast
    exact ⟨_, _, _, rfl, .free hlast, fun _ => .inl hfree, fun _ => rfl⟩
  | none =>
    have hfree : pool.freeFrames = [] := List.getLast?_eq_none_iff.mp hlast
    simp only [hfree, ne_eq, not_true_eq_false, false_or]
    cases access with
    | demand =>
      simp only [Access.isPrefetch, bne_self_eq_false, Bool.false_eq_true, if_false,
        hpool.selectVictim_eq]
      cases hvictim : pool.victim false with
      | none => exact ⟨_, _, _, rfl, .none, by simp [hvictim]⟩
      | some found =>
        exact ⟨_, _, _, rfl, .replaced hfree hvictim (fun _ => rfl) nofun, by simp [hvictim]⟩
    | prefetch =>
      have hprefetch : Access.isPrefetch .prefetch = true := rfl
      simp only [hprefetch, if_true, hpool.selectPrefetchVictim_eq]
      cases hunused : pool.victim true with
      | some found =>
        refine ⟨_, _, _, rfl, .replaced hfree hunused nofun fun _ => rfl, fun _ => ?_, fun _ => rfl⟩
        cases pool.prefetchAdmissionCredit with
        | false => simp [hunused]
        | true => simpa using victim_isSome (by rw [hunused]; rfl)
      | none =>
        cases hcredit : pool.prefetchAdmissionCredit with
        | false => exact ⟨_, _, _, rfl, .none, by simp [hunused]⟩
        | true =>
          simp only [reduceCtorEq, false_or, if_true]
          cases hvictim : pool.victim false with
          | none => exact ⟨_, _, _, rfl, .none, by simp [hvictim]⟩
          | some found =>
            exact ⟨_, _, _, rfl, .spent hfree hvictim nofun fun _ => hcredit, by simp [hvictim]⟩
    | gatewayPrefetch =>
      have hprefetch : Access.isPrefetch .gatewayPrefetch = true := rfl
      simp only [hprefetch, if_true, hpool.selectPrefetchVictim_eq, true_or]
      cases hunused : pool.victim true with
      | some found =>
        refine ⟨_, _, _, rfl, .replaced hfree hunused nofun nofun, fun _ => ?_, fun _ => rfl⟩
        simpa using victim_isSome (by rw [hunused]; rfl)
      | none =>
        cases hvictim : pool.victim false with
        | none => exact ⟨_, _, _, rfl, .none, by simp [hvictim]⟩
        | some found =>
          exact ⟨_, _, _, rfl, .spent hfree hvictim nofun nofun, by simp [hvictim]⟩

end Indexed

/-! ## What a reservation does -/

/-- The frames that are free and the pages that are resident. -/
def stock (pool : Pool) : Nat := pool.freeFrames.length + pool.lru.length

theorem Provides.spec {access : Access} {frame : Option FrameId} (hpool : pool.Indexed)
    (hprovides : Provides pool access next frame) :
    next.Indexed ∧ next.stock + frame.toList.length = pool.stock ∧
      next.chunkType = pool.chunkType ∧ next.loading = pool.loading ∧
      ∀ pageId ∈ next.resident, pageId ∈ pool.resident := by
  have hdrop : ∀ {required : Bool} {pageId : PageId} {entry : ResidentEntry},
      pool.victim required = some (pageId, entry) →
        (pool.dropPage pageId entry).stock + 1 = pool.stock := by
    intro required pageId entry hvictim
    have hmem := hpool.mem_lru.mpr (AssocMap.mem_of_lookup (victim_eq_some hvictim).1)
    have hlength := List.length_erase_of_mem hmem
    have hpos := List.length_pos_of_mem hmem
    simp only [stock, dropPage, hlength]
    omega
  cases hprovides with
  | free hlast =>
    refine ⟨⟨hpool.exclusive, hpool.recency, hpool.unused⟩, ?_, rfl, rfl, fun _ hmem => hmem⟩
    obtain ⟨front, hfront⟩ := List.getLast?_eq_some_iff.mp hlast
    simp only [stock, hfront, List.dropLast_concat, List.length_append, Option.toList_some,
      List.length_singleton]
    omega
  | replaced _ hvictim _ _ =>
    exact ⟨hpool.dropPage (victim_eq_some hvictim).1, hdrop hvictim, rfl, rfl,
      fun _ hmem => (AList.mem_erase.mp hmem).2⟩
  | spent _ hvictim _ _ =>
    have hdropped := hpool.dropPage (victim_eq_some hvictim).1
    exact ⟨⟨hdropped.exclusive, hdropped.recency, hdropped.unused⟩, hdrop hvictim, rfl, rfl,
      fun _ hmem => (AList.mem_erase.mp hmem).2⟩
  | none => exact ⟨hpool, rfl, rfl, rfl, fun _ hmem => hmem⟩

/-- The call throws on this page: its number does not fit a chunk id, and this is found out
when a frame has been taken for it. -/
def Refused (pool : Pool) (pageId : PageId) (access : Access) : Prop :=
  pageId ∉ pool.resident ∧ pageId ∉ pool.loading ∧ kChunkNoMask < pageId ∧
    pool.capacityPages ≠ 0 ∧ pool.HasFrame access

instance (pool : Pool) (pageId : PageId) (access : Access) :
    Decidable (pool.Refused pageId access) :=
  inferInstanceAs (Decidable (_ ∧ _ ∧ _ ∧ _ ∧ _))

namespace Indexed

theorem hitResident_ok (hpool : pool.Indexed) (hlookup : pool.resident.lookup pageId = some entry)
    (access : Access) (coalesced : Bool) :
    ∃ next reservation, pool.hitResident pageId entry access coalesced = (next, .ok reservation) ∧
      next.Indexed ∧ next.stock = pool.stock := by
  have hmem := hpool.mem_lru.mpr (AssocMap.mem_of_lookup hlookup)
  have hlru : (pageId :: pool.lru.erase pageId).Perm pool.lru := (List.perm_cons_erase hmem).symm
  unfold hitResident
  by_cases hdemand : access = .demand
  · simp only [hdemand, if_true]
    by_cases hunused : entry.prefetchedUnused = true
    · obtain ⟨hpos, hsettled⟩ := hpool.settle hlookup hunused hlru true pool.stats
      rw [if_pos hunused]
      simp only [incPinCount, setChunk, if_neg (Nat.ne_of_gt hpos)]
      exact ⟨_, _, rfl, ⟨hsettled.exclusive, hsettled.recency, hsettled.unused⟩,
        congrArg (pool.freeFrames.length + ·) hlru.length_eq⟩
    · rw [if_neg hunused]
      exact ⟨_, _, rfl, ⟨hpool.exclusive, hlru.trans hpool.recency, hpool.unused⟩,
        congrArg (pool.freeFrames.length + ·) hlru.length_eq⟩
  · simp only [hdemand, if_false]
    exact ⟨_, _, rfl, ⟨hpool.exclusive, hpool.recency, hpool.unused⟩, rfl⟩

theorem beginLoad_ok (hpool : pool.Indexed) (hresident : pageId ∉ pool.resident)
    (hloading : pageId ∉ pool.loading) (frame : FrameId) (access : Access)
    (coalesced evicted : Bool) :
    ∃ next result, pool.beginLoad pageId frame access coalesced evicted = (next, result) ∧
      next.Indexed ∧ next.stock = pool.stock ∧
      (kChunkNoMask < pageId → ∃ error, result = .error error) ∧
      (¬ kChunkNoMask < pageId → ∃ reservation, result = .ok reservation) := by
  unfold beginLoad makeChunkId
  by_cases hlarge : kChunkNoMask < pageId
  · rw [if_pos hlarge]
    exact ⟨pool, _, rfl, hpool, rfl, fun _ => ⟨_, rfl⟩, fun hsmall => absurd hlarge hsmall⟩
  · rw [if_neg hlarge]
    refine ⟨_, _, rfl, ⟨?_, hpool.recency, hpool.unused⟩, rfl, fun hlarge' => absurd hlarge' hlarge,
      fun _ => ⟨_, rfl⟩⟩
    intro other hother hmem
    change other ∈ AssocMap.emplace pageId frame pool.loading at hmem
    rw [AssocMap.emplace_of_notMem hloading] at hmem
    rcases (AList.mem_insert _).mp hmem with rfl | hmem
    · exact hresident hother
    · exact hpool.exclusive other hother hmem

theorem reserveMiss_spec (hpool : pool.Indexed) (hresident : pageId ∉ pool.resident)
    (hloading : pageId ∉ pool.loading) (access : Access) (coalesced : Bool) :
    ∃ next result, pool.reserveMiss pageId access coalesced = (next, result) ∧ next.Indexed ∧
      next.stock ≤ pool.stock ∧
      (pool.Refused pageId access → next.stock < pool.stock ∧ ∃ error, result = .error error) ∧
      (¬ pool.Refused pageId access → ∃ reservation, result = .ok reservation) := by
  have hcounted : ∀ stats, Indexed { pool with stats := stats } := fun stats =>
    ⟨hpool.exclusive, hpool.recency, hpool.unused⟩
  obtain ⟨stats, hstats⟩ : ∃ stats, (if access.isPrefetch then
      { pool with stats.prefetchMisses := pool.stats.prefetchMisses + 1 }
      else { pool with stats.misses := pool.stats.misses + 1 }) = { pool with stats := stats } := by
    split <;> exact ⟨_, rfl⟩
  unfold reserveMiss
  simp only [hstats]
  split
  next hzero =>
    exact ⟨_, _, rfl, hcounted stats, Nat.le_refl _, fun hrefused => absurd hzero hrefused.2.2.2.1,
      fun _ => ⟨_, rfl⟩⟩
  next hcapacity =>
    obtain ⟨taken, frame, evicted, hacquire, hprovides, hframe⟩ :=
      (hcounted stats).acquireFrame_spec access
    obtain ⟨htaken, hstock, -, hloads, hpages⟩ := hprovides.spec (hcounted stats)
    rw [hacquire]
    cases frame with
    | none =>
      have hnone : ¬ pool.Refused pageId access := fun hrefused =>
        nomatch hframe.mpr hrefused.2.2.2.2
      have hsame : taken.stock = pool.stock := hstock
      simp only
      split <;>
      exact ⟨_, _, rfl, ⟨htaken.exclusive, htaken.recency, htaken.unused⟩, Nat.le_of_eq hsame,
        fun hrefused => absurd hrefused hnone, fun _ => ⟨_, rfl⟩⟩
    | some frame =>
      have hless : taken.stock + 1 = pool.stock := hstock
      obtain ⟨next, result, hbegin, hnext, hsame, herror, hok⟩ := htaken.beginLoad_ok
        (fun hmem => hresident (hpages pageId hmem)) (by rwa [hloads]) frame access coalesced
        evicted
      refine ⟨next, result, hbegin, hnext, by omega, fun hrefused => ⟨by omega, ?_⟩,
        fun haccepted => hok fun hlarge => haccepted ?_⟩
      · exact herror hrefused.2.2.1
      · exact ⟨hresident, hloading, hlarge, hcapacity, hframe.mp rfl⟩

theorem reserveLocked_spec (hpool : pool.Indexed) (pageId : PageId) (access : Access)
    (waitForInflight coalesced : Bool) :
    ∃ next result, pool.reserveLocked pageId access waitForInflight coalesced = (next, result) ∧
      next.Indexed ∧ next.stock ≤ pool.stock ∧
      (pool.Refused pageId access → next.stock < pool.stock ∧ ∃ error, result = .error error) ∧
      (¬ pool.Refused pageId access → ∃ progress, result = .ok progress) := by
  unfold reserveLocked
  cases hlookup : pool.resident.lookup pageId with
  | some entry =>
    obtain ⟨next, reservation, hhit, hnext, hstock⟩ := hpool.hitResident_ok hlookup access coalesced
    simp only [hhit]
    exact ⟨_, _, rfl, hnext, Nat.le_of_eq hstock,
      fun hrefused => absurd (AssocMap.mem_of_lookup hlookup) hrefused.1, fun _ => ⟨_, rfl⟩⟩
  | none =>
    have hresident : pageId ∉ pool.resident := AList.lookup_eq_none.mp hlookup
    simp only
    split
    next hloading =>
      split <;>
      exact ⟨_, _, rfl, ⟨hpool.exclusive, hpool.recency, hpool.unused⟩, Nat.le_refl _,
        fun hrefused => absurd hloading hrefused.2.1, fun _ => ⟨_, rfl⟩⟩
    next hloading =>
      obtain ⟨next, result, hmiss, hnext, hstock, herror, hok⟩ :=
        hpool.reserveMiss_spec hresident hloading access coalesced
      rw [hmiss]
      cases result with
      | error error =>
        exact ⟨_, _, rfl, hnext, hstock, fun hrefused => ⟨(herror hrefused).1, _, rfl⟩,
          fun haccepted => nomatch hok haccepted⟩
      | ok reservation =>
        exact ⟨_, _, rfl, hnext, hstock, fun hrefused => (nomatch (herror hrefused).2),
          fun _ => ⟨_, rfl⟩⟩

theorem reserveFrom_indexed {access : Access} {pageIds : List PageId} {coalesced : Bool}
    {reservations : List Reservation} (hpool : pool.Indexed) :
    (reserveFrom access pageIds coalesced pool reservations).1.Indexed := by
  induction pageIds generalizing pool coalesced reservations with
  | nil => exact hpool
  | cons pageId pageIds ih =>
    obtain ⟨next, result, hcall, hnext, -⟩ := hpool.reserveLocked_spec pageId access true coalesced
    rw [reserveFrom, hcall]
    rcases result with error | progress
    · exact hnext
    · cases progress with
      | finished reservation => exact ih hnext
      | waiting => exact hnext

section

variable (hpool : pool.Indexed)
include hpool

theorem of_tables (hresident : next.resident = pool.resident)
    (hloading : ∀ pageId ∈ next.loading, pageId ∈ pool.loading) (hlru : next.lru = pool.lru)
    (hcount : next.prefetchedUnusedCount = pool.prefetchedUnusedCount) : next.Indexed where
  exclusive other hother hmem := hpool.exclusive other (hresident ▸ hother) (hloading other hmem)
  recency := by
    rw [hlru, hresident]
    exact hpool.recency
  unused := by
    rw [hcount, hresident]
    exact hpool.unused

theorem publish (reservation : Reservation) (success : Bool) :
    (pool.publish reservation success).1.Indexed := by
  unfold Pool.publish
  split
  next frame _ _ =>
    split
    next hloading =>
      cases success with
      | true => exact hpool.publishLoaded hloading reservation.access
      | false =>
        exact hpool.of_tables rfl (fun _ hmem => (AList.mem_erase.mp hmem).2) rfl rfl
    next => exact hpool
  next => exact hpool

theorem publishMany (success : Bool) (reservations : List Reservation) :
    (pool.publishMany success reservations).1.Indexed := by
  induction reservations generalizing pool with
  | nil => exact hpool
  | cons reservation reservations ih =>
    have hnext := hpool.publish reservation success
    rw [Pool.publishMany]
    split
    next hcall =>
      rw [hcall] at hnext
      exact hnext
    next hcall =>
      rw [hcall] at hnext
      exact ih hnext

theorem release (reservation : Reservation) :
    (pool.release reservation).1.Indexed := by
  unfold Pool.release
  split
  next => exact hpool
  next =>
    split
    next => exact hpool
    next =>
      split
      next => exact hpool
      next => exact hpool.of_tables rfl (fun _ hmem => hmem) rfl rfl

theorem releaseMany (reservations : List Reservation) :
    (pool.releaseMany reservations).1.Indexed := by
  induction reservations generalizing pool with
  | nil => exact hpool
  | cons reservation reservations ih =>
    have hnext := hpool.release reservation
    rw [Pool.releaseMany]
    split
    next hcall =>
      rw [hcall] at hnext
      exact hnext
    next hcall =>
      rw [hcall] at hnext
      exact ih hnext

theorem clearIn (order : List PageEntry) :
    (pool.clearIn order).1.Indexed := by
  obtain ⟨walked, result, hwalk, ⟨chunks, rfl⟩, -⟩ := WellFormed.clearResident_spec order pool
  unfold Pool.clearIn
  split
  next => exact hpool
  next hloading =>
    rw [hwalk]
    cases result with
    | error error => exact hpool.of_tables rfl (fun _ hmem => hmem) rfl rfl
    | ok _ => exact ⟨by simp, by simp, rfl⟩

theorem perform (operation : Operation) : (pool.perform operation).Indexed := by
  cases operation with
  | reserve pageId access waitForInflight coalesced =>
    obtain ⟨next, result, hcall, hnext, -⟩ :=
      hpool.reserveLocked_spec pageId access waitForInflight coalesced
    rwa [Pool.perform, hcall]
  | reserveMany pageIds access =>
    change (pool.reserveMany pageIds access).1.Indexed
    unfold reserveMany
    split
    next => exact hpool.reserveFrom_indexed
    next => exact hpool
  | resumeMany pageIds access reservations => exact hpool.reserveFrom_indexed
  | tryReserveHit pageId access =>
    change (pool.tryReserveHit pageId access).1.Indexed
    unfold tryReserveHit
    cases hlookup : pool.resident.lookup pageId with
    | none => exact hpool
    | some entry =>
      obtain ⟨next, reservation, hhit, hnext, -⟩ := hpool.hitResident_ok hlookup access false
      simp only [hhit]
      exact hnext
  | publish reservation success => exact hpool.publish reservation success
  | publishMany reservations success => exact hpool.publishMany success reservations
  | release reservation => exact hpool.release reservation
  | releaseMany reservations => exact hpool.releaseMany reservations
  | clear order => exact hpool.clearIn order
  | resetCapacity capacityPages =>
    change (pool.resetCapacity capacityPages).1.Indexed
    unfold resetCapacity
    split
    next => exact hpool
    next =>
      split
      next => exact hpool
      next =>
        split
        next => exact hpool
        next => exact init capacityPages pool.chunkType

end

theorem of_reachable {capacityPages : Nat} {chunkType : ChunkType}
    (hreach : (operations capacityPages chunkType).Reachable pool) : pool.Indexed := by
  apply hreach.invariant
  · rintro start rfl
    exact init capacityPages chunkType
  · rintro state operation next hstate ⟨-, rfl⟩
    exact hstate.perform operation

end Indexed

end Pool

end SkipCell.Cache

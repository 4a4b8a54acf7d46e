import SkipCell.Cache.Operations

/-! # Calls that throw

Which calls leave the cache as it was when they throw. `reserve` and `reserve_many` find out
that a page number does not fit when they have taken a frame for it, `publish_many` stops at
the first reservation that does not match, and `clear` at the first page that is pinned.
-/

namespace SkipCell.Cache.Pool

open Foundation

variable {pool next : Pool} {Value : Type}

/-- Nothing differs but the counters. -/
def Unchanged (pool next : Pool) : Prop := next = { pool with stats := next.stats }

/-- A call that throws leaves the cache as it was. -/
def Atomic (pool : Pool) (call : Call Value) : Prop :=
  ∀ error, call.2 = .error error → pool.Unchanged call.1

/-- A part of `reserve_many` that throws leaves the cache as it was. -/
def AtomicBatch (pool : Pool) (part : Pool × BatchProgress) : Prop :=
  ∀ reservations, part.2 = .failed reservations → pool.Unchanged part.1

theorem Unchanged.stock (hsame : pool.Unchanged next) : next.stock = pool.stock := by
  rw [hsame]
  rfl

theorem Unchanged.loading (hsame : pool.Unchanged next) : next.loading = pool.loading := by
  rw [hsame]

theorem Unchanged.chunks (hsame : pool.Unchanged next) : next.chunks = pool.chunks := by
  rw [hsame]

/-! ## Reservations -/

theorem reserve_atomic_iff (hpool : pool.Indexed) (pageId : PageId) (access : Access)
    (waitForInflight coalesced : Bool) :
    pool.Atomic (pool.reserveLocked pageId access waitForInflight coalesced) ↔
      ¬ pool.Refused pageId access := by
  obtain ⟨next, result, hcall, -, -, herror, hok⟩ :=
    hpool.reserveLocked_spec pageId access waitForInflight coalesced
  rw [hcall]
  constructor
  · intro hatomic hrefused
    obtain ⟨hless, error, hthrows⟩ := herror hrefused
    exact Nat.ne_of_lt hless (hatomic error hthrows).stock
  · intro haccepted error hthrows
    obtain ⟨progress, hprogress⟩ := hok haccepted
    cases hprogress.symm.trans hthrows

/-- The loop of `reserve_many` comes to a page that is refused, with the pages before it
reserved. -/
def ReachesRefused (access : Access) : List PageId → Bool → Pool → Prop
  | [], _, _ => False
  | pageId :: pageIds, coalesced, pool =>
    pool.Refused pageId access ∨ pageId ∉ pool.loading ∧
      ReachesRefused access pageIds false (pool.reserveLocked pageId access true coalesced).1

theorem loading_of_waiting {pageId : PageId} {access : Access} {coalesced : Bool}
    (hcall : pool.reserveLocked pageId access true coalesced = (next, .ok .waiting)) :
    pageId ∈ pool.loading := by
  unfold reserveLocked at hcall
  split at hcall
  next => split at hcall <;> cases hcall
  next =>
    split at hcall
    next hloading => exact hloading
    next => split at hcall <;> cases hcall

variable {reservation : Reservation}

theorem notMem_of_finished (hpool : pool.Indexed) {pageId : PageId} {access : Access}
    {coalesced : Bool}
    (hcall : pool.reserveLocked pageId access true coalesced = (next, .ok (.finished reservation)))
    :
    pageId ∉ pool.loading := by
  unfold reserveLocked at hcall
  split at hcall
  next entry hlookup =>
    exact hpool.exclusive pageId (AssocMap.mem_of_lookup hlookup)
  next =>
    split at hcall
    next => cases hcall
    next hloading => exact hloading

section

variable (hpool : pool.Indexed) (pageIds : List PageId) (access : Access)
include hpool pageIds access

theorem reserveFrom_spec (coalesced : Bool) (reservations : List Reservation) :
    ∃ next progress, reserveFrom access pageIds coalesced pool reservations = (next, progress) ∧
      next.stock ≤ pool.stock ∧
      (ReachesRefused access pageIds coalesced pool →
        next.stock < pool.stock ∧ ∃ reserved, progress = .failed reserved) ∧
      (¬ ReachesRefused access pageIds coalesced pool →
        ∀ reserved, progress ≠ .failed reserved) := by
  induction pageIds generalizing pool coalesced reservations with
  | nil => exact ⟨_, _, rfl, Nat.le_refl _, False.elim, fun _ _ => by simp⟩
  | cons pageId pageIds ih =>
    obtain ⟨middle, result, hcall, hmiddle, hstock, herror, hok⟩ :=
      hpool.reserveLocked_spec pageId access true coalesced
    simp only [reserveFrom, ReachesRefused, hcall]
    rcases result with error | progress
    · -- the page is refused
      have hrefused : pool.Refused pageId access := by
        by_contra haccepted
        cases (hok haccepted).choose_spec
      exact ⟨_, _, rfl, hstock, fun _ => ⟨(herror hrefused).1, _, rfl⟩,
        fun haccepted => absurd (.inl hrefused) haccepted⟩
    · have haccepted : ¬ pool.Refused pageId access := fun hrefused => by
        cases (herror hrefused).2.choose_spec
      cases progress with
      | waiting =>
        have hloading := loading_of_waiting hcall
        refine ⟨_, _, rfl, hstock, fun hreaches => ?_, fun _ _ => by simp⟩
        rcases hreaches with hrefused | ⟨hnot, -⟩
        · exact absurd hrefused haccepted
        · exact absurd hloading hnot
      | finished reservation =>
        have hnot := notMem_of_finished hpool hcall
        obtain ⟨next, progress, hrest, hless, hfails, hpasses⟩ := ih hmiddle false _
        refine ⟨next, progress, hrest, hless.trans hstock, fun hreaches => ?_,
          fun hreaches => hpasses fun hlater => hreaches (.inr ⟨hnot, hlater⟩)⟩
        rcases hreaches with hrefused | ⟨-, hlater⟩
        · exact absurd hrefused haccepted
        · exact ⟨(hfails hlater).1.trans_le hstock, (hfails hlater).2⟩

theorem reserveFrom_atomic_iff (coalesced : Bool) (reservations : List Reservation) :
    pool.AtomicBatch (reserveFrom access pageIds coalesced pool reservations) ↔
      ¬ ReachesRefused access pageIds coalesced pool := by
  obtain ⟨next, progress, hcall, -, hfails, hpasses⟩ :=
    reserveFrom_spec hpool pageIds access coalesced reservations
  rw [hcall]
  constructor
  · intro hatomic hreaches
    obtain ⟨hless, reserved, hfailed⟩ := hfails hreaches
    exact Nat.ne_of_lt hless (hatomic reserved hfailed).stock
  · intro hreaches reserved hfailed
    exact absurd hfailed (hpasses hreaches reserved)

theorem reserveMany_atomic_iff :
    pool.AtomicBatch (pool.reserveMany pageIds access) ↔
      (strictlyIncreasing pageIds = true → ¬ ReachesRefused access pageIds false pool) := by
  unfold reserveMany
  split
  next hincreasing =>
    rw [reserveFrom_atomic_iff hpool]
    exact ⟨fun hatomic _ => hatomic, fun hatomic => hatomic hincreasing⟩
  next hincreasing =>
    exact ⟨fun _ hsorted => absurd hsorted hincreasing, fun _ _ _ => rfl⟩

end

/-! ## Publications -/

/-- The reservation is a load, which `publish_many` does not skip. -/
def isPublished (reservation : Reservation) : Bool :=
  reservation.state = .load && reservation.frame.isSome

/-- The page is in flight on the frame of the reservation. -/
def Matches (pool : Pool) (reservation : Reservation) : Prop :=
  pool.loading.lookup reservation.pageId = reservation.frame

/-- The first load does not match, or all of them match and are of different pages. -/
def PublishesWhole (pool : Pool) (reservations : List Reservation) : Prop :=
  (∀ first ∈ (reservations.filter isPublished).head?, ¬ pool.Matches first) ∨
    (∀ reservation ∈ reservations.filter isPublished, pool.Matches reservation) ∧
      ((reservations.filter isPublished).map Reservation.pageId).Nodup

instance (pool : Pool) (reservation : Reservation) : Decidable (pool.Matches reservation) :=
  inferInstanceAs (Decidable (_ = _))

theorem publish_skips (hskipped : isPublished reservation = false) (success : Bool) :
    pool.publish reservation success = (pool, .ok ()) := by
  unfold publish
  split
  next hstate hframe =>
    rw [isPublished, hstate, hframe] at hskipped
    cases hskipped
  next => rfl

theorem publish_matches (hload : isPublished reservation = true)
    (hmatches : pool.Matches reservation) (success : Bool) :
    ∃ next, pool.publish reservation success = (next, .ok ()) ∧
      next.loading = pool.loading.erase reservation.pageId := by
  obtain ⟨state, pageId, frame, coalesced, evicted, access, prefetchedHit⟩ := reservation
  simp only [isPublished, Bool.and_eq_true, decide_eq_true_eq] at hload
  obtain ⟨rfl, hframe⟩ := hload
  obtain ⟨frame, rfl⟩ := Option.isSome_iff_exists.mp hframe
  unfold publish
  simp only [if_pos (show pool.loading.lookup pageId = some frame from hmatches)]
  cases success with
  | true => exact ⟨_, rfl, rfl⟩
  | false => exact ⟨_, rfl, rfl⟩

theorem publish_mismatched (hload : isPublished reservation = true)
    (hdiffers : ¬ pool.Matches reservation) (success : Bool) :
    ∃ error, pool.publish reservation success = (pool, .error error) := by
  obtain ⟨state, pageId, frame, coalesced, evicted, access, prefetchedHit⟩ := reservation
  simp only [isPublished, Bool.and_eq_true, decide_eq_true_eq] at hload
  obtain ⟨rfl, hframe⟩ := hload
  obtain ⟨frame, rfl⟩ := Option.isSome_iff_exists.mp hframe
  unfold publish
  simp only [if_neg (show ¬ pool.loading.lookup pageId = some frame from hdiffers)]
  exact ⟨_, rfl⟩

theorem publishMany_filter (success : Bool) (reservations : List Reservation) :
    pool.publishMany success reservations =
      pool.publishMany success (reservations.filter isPublished) := by
  induction reservations generalizing pool with
  | nil => rfl
  | cons reservation reservations ih =>
    rw [List.filter_cons]
    split
    next =>
      rw [publishMany, publishMany]
      cases pool.publish reservation success with
      | mk next result =>
        cases result with
        | error error => rfl
        | ok _ => exact ih
    next hskipped =>
      rw [publishMany, publish_skips (Bool.eq_false_iff.mpr hskipped)]
      exact ih

theorem publishMany_loading (success : Bool) (reservations : List Reservation) {pageId : PageId}
    (hmem : pageId ∈ (pool.publishMany success reservations).1.loading) :
    pageId ∈ pool.loading := by
  induction reservations generalizing pool with
  | nil => exact hmem
  | cons reservation reservations ih =>
    rw [publishMany] at hmem
    cases hload : isPublished reservation with
    | false =>
      rw [publish_skips hload] at hmem
      exact ih hmem
    | true =>
      by_cases hmatches : pool.Matches reservation
      · obtain ⟨next, hcall, hloading⟩ := publish_matches hload hmatches success
        rw [hcall] at hmem
        have hnext := ih hmem
        rw [hloading] at hnext
        exact (AList.mem_erase.mp hnext).2
      · obtain ⟨error, hcall⟩ := publish_mismatched hload hmatches success
        rw [hcall] at hmem
        exact hmem

theorem matches_erase {other : Reservation} (hload : isPublished other = true)
    (hloading : next.loading = pool.loading.erase reservation.pageId) :
    next.Matches other ↔ other.pageId ≠ reservation.pageId ∧ pool.Matches other := by
  unfold Matches
  rw [hloading]
  by_cases hsame : other.pageId = reservation.pageId
  · rw [hsame, AList.lookup_erase]
    simp only [ne_eq, not_true_eq_false, false_and, iff_false]
    intro hnone
    rw [isPublished, ← hnone] at hload
    simp at hload
  · rw [AList.lookup_erase_ne hsame]
    simp [hsame]

theorem publishMany_ok_iff (success : Bool) {loads : List Reservation}
    (hloads : ∀ reservation ∈ loads, isPublished reservation = true) :
    (∃ result, (pool.publishMany success loads).2 = .ok result) ↔
      (∀ reservation ∈ loads, pool.Matches reservation) ∧
        (loads.map Reservation.pageId).Nodup := by
  induction loads generalizing pool with
  | nil => simp [publishMany]
  | cons first loads ih =>
    obtain ⟨hfirst, hrest⟩ := List.forall_mem_cons.mp hloads
    rw [publishMany, List.forall_mem_cons, List.map_cons, List.nodup_cons]
    by_cases hmatches : pool.Matches first
    · obtain ⟨next, hcall, hloading⟩ := publish_matches hfirst hmatches success
      rw [hcall]
      simp only
      have hnext : (∀ other ∈ loads, next.Matches other) ↔
          (∀ other ∈ loads, pool.Matches other) ∧ first.pageId ∉ loads.map Reservation.pageId := by
        constructor
        · intro hall
          refine ⟨fun other hother => ?_, fun hmem => ?_⟩
          · exact ((matches_erase (hrest other hother) hloading).mp (hall other hother)).2
          · obtain ⟨other, hother, hsame⟩ := List.mem_map.mp hmem
            exact ((matches_erase (hrest other hother) hloading).mp (hall other hother)).1 hsame
        · rintro ⟨hall, hapart⟩ other hother
          refine (matches_erase (hrest other hother) hloading).mpr ⟨fun hsame => ?_, hall other hother⟩
          exact hapart (List.mem_map.mpr ⟨other, hother, hsame⟩)
      rw [ih hrest, hnext]
      tauto
    · obtain ⟨error, hcall⟩ := publish_mismatched hfirst hmatches success
      rw [hcall]
      simp [hmatches]

theorem publishMany_atomic_iff (pool : Pool) (reservations : List Reservation) (success : Bool) :
    pool.Atomic (pool.publishMany success reservations) ↔ pool.PublishesWhole reservations := by
  have hloads : ∀ reservation ∈ reservations.filter isPublished, isPublished reservation = true :=
    fun reservation hmem => (List.mem_filter.mp hmem).2
  rw [publishMany_filter, PublishesWhole, ← publishMany_ok_iff success hloads]
  generalize reservations.filter isPublished = loads at hloads
  cases loads with
  | nil => simp [Atomic, publishMany]
  | cons first loads =>
    obtain ⟨hfirst, hrest⟩ := List.forall_mem_cons.mp hloads
    simp only [List.head?_cons, Option.mem_def, Option.some.injEq, forall_eq']
    by_cases hmatches : pool.Matches first
    · -- the first load is published, and its page is in flight no more
      have hchanged : ¬ pool.Unchanged (pool.publishMany success (first :: loads)).1 := by
        intro hsame
        obtain ⟨next, hcall, hloading⟩ := publish_matches hfirst hmatches success
        have hin : first.pageId ∈ pool.loading := by
          obtain ⟨frame, hframe⟩ := Option.isSome_iff_exists.mp
            (Bool.and_eq_true_iff.mp hfirst).2
          exact AssocMap.mem_of_lookup (hmatches.trans hframe)
        have hstill := hsame.loading ▸ hin
        rw [publishMany, hcall] at hstill
        have hmem := publishMany_loading success loads hstill
        rw [hloading] at hmem
        exact (AList.mem_erase.mp hmem).1 rfl
      simp only [hmatches, not_true_eq_false, false_or]
      constructor
      · intro hatomic
        cases hresult : (pool.publishMany success (first :: loads)).2 with
        | error error => exact absurd (hatomic error hresult) hchanged
        | ok result => exact ⟨result, rfl⟩
      · rintro ⟨result, hresult⟩ error herror
        cases hresult.symm.trans herror
    · obtain ⟨error, hcall⟩ := publish_mismatched hfirst hmatches success
      refine ⟨fun _ => .inl hmatches, fun _ other _ => ?_⟩
      rw [publishMany, hcall]
      rfl

/-! ## Clearing -/

/-- The entry's page can be cleared. -/
def isUnpinned (pool : Pool) (entry : PageEntry) : Bool := pool.pinCount entry.2.frame = 0

/-- A page is in flight, no page of the walk is pinned, or the frames in front of the first
pinned page are marked as free already. -/
def ClearsWhole (pool : Pool) (order : List PageEntry) : Prop :=
  pool.loading.entries ≠ [] ∨ (∀ entry ∈ order, pool.isUnpinned entry = true) ∨
    ∀ entry ∈ order.takeWhile pool.isUnpinned, (pool.chunks entry.2.frame).state = .free

/-- The walk of `clear` over pages that are not pinned. -/
def markFree (pool : Pool) (entries : List PageEntry) : Pool :=
  entries.foldl (fun pool entry => pool.setChunkState entry.2.frame .free) pool

theorem isUnpinned_setChunkState (pool : Pool) (frame : FrameId) (state : ChunkState) :
    (pool.setChunkState frame state).isUnpinned = pool.isUnpinned := by
  funext entry
  rw [isUnpinned, pinCount_setChunkState]
  rfl

theorem clearResident_eq (pool : Pool) (order : List PageEntry) :
    (pool.clearResident order).1 = pool.markFree (order.takeWhile pool.isUnpinned) ∧
      ((∃ result, (pool.clearResident order).2 = .ok result) ↔
        ∀ entry ∈ order, pool.isUnpinned entry = true) := by
  induction order generalizing pool with
  | nil => exact ⟨rfl, by simp [clearResident]⟩
  | cons entry order ih =>
    rw [clearResident, List.forall_mem_cons]
    by_cases hpin : pool.pinCount entry.2.frame = 0
    · have hunpinned : pool.isUnpinned entry = true := decide_eq_true hpin
      obtain ⟨hwalk, hok⟩ := ih (pool.setChunkState entry.2.frame .free)
      rw [isUnpinned_setChunkState] at hwalk hok
      rw [if_neg (not_not.mpr hpin), List.takeWhile_cons_of_pos hunpinned, hok]
      exact ⟨hwalk, by simp [hunpinned]⟩
    · have hpinned : ¬ pool.isUnpinned entry = true := fun hunpinned =>
        hpin (of_decide_eq_true hunpinned)
      rw [if_pos hpin, List.takeWhile_cons_of_neg hpinned]
      exact ⟨rfl, by simp [hpinned]⟩

theorem markFree_eq {entries : List PageEntry}
    (hfree : ∀ entry ∈ entries, (pool.chunks entry.2.frame).state = .free) :
    pool.markFree entries = pool := by
  induction entries with
  | nil => rfl
  | cons entry entries ih =>
    obtain ⟨hentry, hentries⟩ := List.forall_mem_cons.mp hfree
    have hsame : pool.setChunkState entry.2.frame .free = pool := by
      unfold setChunkState setChunk
      congr 1
      funext frame
      split
      next hframe =>
        subst hframe
        rw [← hentry]
      next => rfl
    rw [markFree, List.foldl_cons, hsame]
    exact ih hentries

theorem state_markFree {entries : List PageEntry} {frame : FrameId}
    (hframe : (pool.chunks frame).state = .free ∨ ∃ entry ∈ entries, entry.2.frame = frame) :
    ((pool.markFree entries).chunks frame).state = .free := by
  induction entries generalizing pool with
  | nil =>
    rcases hframe with hfree | ⟨entry, hentry, -⟩
    · exact hfree
    · cases hentry
  | cons entry entries ih =>
    apply ih
    by_cases hsame : frame = entry.2.frame
    · left
      simp only [setChunkState, setChunk, hsame, if_true]
    · simp only [setChunkState, setChunk, hsame, if_false]
      refine hframe.imp_right ?_
      rintro ⟨other, hother, hplace⟩
      rcases List.mem_cons.mp hother with rfl | hlater
      · exact absurd hplace.symm hsame
      · exact ⟨other, hlater, hplace⟩

theorem clear_atomic_iff (pool : Pool) (order : List PageEntry) :
    pool.Atomic (pool.clearIn order) ↔ pool.ClearsWhole order := by
  obtain ⟨hwalk, hok⟩ := clearResident_eq pool order
  unfold clearIn ClearsWhole
  by_cases hloading : pool.loading.entries ≠ []
  · rw [if_pos hloading]
    exact ⟨fun _ => .inl hloading, fun _ _ _ => rfl⟩
  · rw [if_neg hloading, or_iff_right hloading]
    cases hcall : pool.clearResident order with
    | mk next result =>
      rw [hcall] at hwalk hok
      have hnext : next = pool.markFree (order.takeWhile pool.isUnpinned) := hwalk
      cases result with
      | ok result =>
        have hall := hok.mp ⟨result, rfl⟩
        exact ⟨fun _ => .inl hall, fun _ error herror => nomatch herror⟩
      | error error =>
        have hpinned : ¬ ∀ entry ∈ order, pool.isUnpinned entry = true := fun hall =>
          nomatch (hok.mpr hall).choose_spec
        rw [or_iff_right hpinned]
        constructor
        · intro hatomic entry hentry
          have hsame : next.chunks = pool.chunks := (hatomic error rfl).chunks
          rw [← hsame, hnext]
          exact state_markFree (.inr ⟨entry, hentry, rfl⟩)
        · intro hfree other _
          change pool.Unchanged next
          rw [hnext, markFree_eq hfree]
          rfl

/-- When the calls leave the cache as it was although they throw. -/
theorem atomic_iff {capacityPages : Nat} {chunkType : ChunkType}
    (hreach : (operations capacityPages chunkType).Reachable pool) :
    (∀ pageId access waitForInflight coalesced,
      pool.Atomic (pool.reserveLocked pageId access waitForInflight coalesced) ↔
        ¬ pool.Refused pageId access) ∧
    (∀ pageIds access, pool.AtomicBatch (pool.reserveMany pageIds access) ↔
      (strictlyIncreasing pageIds = true → ¬ ReachesRefused access pageIds false pool)) ∧
    (∀ pageIds access reservations,
      pool.AtomicBatch (reserveFrom access pageIds true pool reservations) ↔
        ¬ ReachesRefused access pageIds true pool) ∧
    (∀ reservations success,
      pool.Atomic (pool.publishMany success reservations) ↔ pool.PublishesWhole reservations) ∧
    (∀ order, pool.Atomic (pool.clearIn order) ↔ pool.ClearsWhole order) := by
  have hpool := Indexed.of_reachable hreach
  exact ⟨reserve_atomic_iff hpool, reserveMany_atomic_iff hpool,
    fun pageIds access => reserveFrom_atomic_iff hpool pageIds access true,
    publishMany_atomic_iff pool, clear_atomic_iff pool⟩

/-- A page is in flight, on the only frame. -/
def oneInFlight : List Operation := [.reserve 5 .demand true false]

theorem atomic_iff_oneInFlight :
    let pool := oneInFlight.foldl perform (init 1 .chunk4kb)
    pool.Atomic (pool.reserveLocked 7 .demand true false) ∧ pool.Atomic (pool.clearIn []) := by
  have hreach : (operations 1 .chunk4kb).Reachable (oneInFlight.foldl perform (init 1 .chunk4kb)) :=
    Transition.reachable_of_permitted rfl (by decide)
  have hall := atomic_iff hreach
  exact ⟨(hall.1 7 .demand true false).mpr (by decide +kernel),
    (hall.2.2.2.2 []).mpr (.inl (by decide +kernel))⟩

/-- The only frame is lost. -/
theorem atomic_refuted :
    let call := (init 1 .chunk4kb).reserveLocked (2 ^ 62) .demand true false
    call.2 = .error (.outOfRange "chunk number exceeds chunk id capacity") ∧
      (init 1 .chunk4kb).ownedFrames = [0] ∧ call.1.ownedFrames = [] := by
  decide +kernel

end SkipCell.Cache.Pool

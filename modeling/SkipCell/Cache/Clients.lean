import SkipCell.Cache.Atomicity
import SkipCell.Foundation.Transition

/-! # The cache under its clients

Clients call the pool's atomic operations in any order. What they hold is
recorded beside the pool: loads that still have to be published, pins that still
have to be released, and callers that sleep until a page has left the in-flight
table. A client publishes each load once and then releases it, and releases each
hit once; nothing else restricts the interleaving.
-/

namespace SkipCell.Cache

open Foundation Pool

/-- A caller asleep in `reserve`. -/
structure Waiter where
  pageId : PageId
  access : Access
  deriving DecidableEq

/-- The pool and everything its clients owe it. -/
structure System where
  pool : Pool
  loads : List Reservation
  pins : List Reservation
  waiters : List Waiter

inductive Action
  | reserve (pageId : PageId) (access : Access) (waitForInflight : Bool)
  | resume (waiter : Waiter)
  | tryReserveHit (pageId : PageId) (access : Access)
  | publish (reservation : Reservation) (success : Bool)
  | release (reservation : Reservation)
  | clear

namespace System

def init (capacityPages : Nat) (chunkType : ChunkType) : System :=
  ⟨Pool.init capacityPages chunkType, [], [], []⟩

/-- The caller keeps what a reservation obliges it to. -/
def accept (system : System) (pool : Pool) (reservation : Reservation) : System :=
  match reservation.state with
  | .hit => { system with pool := pool, pins := reservation :: system.pins }
  | .load => { system with pool := pool, loads := reservation :: system.loads }
  | .bypass => { system with pool := pool }

/-- A call that throws leaves its state and gives the caller nothing. -/
def settle (system : System) (waiter : Waiter) : Call Progress → System
  | (pool, .ok (.finished reservation)) => system.accept pool reservation
  | (pool, .ok .waiting) => { system with pool := pool, waiters := waiter :: system.waiters }
  | (pool, .error _) => { system with pool := pool }

def perform (system : System) : Action → System
  | .reserve pageId access waitForInflight =>
    system.settle ⟨pageId, access⟩ (system.pool.reserveLocked pageId access waitForInflight false)
  | .resume waiter =>
    { system with waiters := system.waiters.erase waiter }.settle waiter
      (system.pool.reserveLocked waiter.pageId waiter.access true true)
  | .tryReserveHit pageId access =>
    match system.pool.tryReserveHit pageId access with
    | (pool, .ok reservation) => system.accept pool reservation
    | (pool, .error _) => { system with pool := pool }
  | .publish reservation success =>
    { system with
      pool := (system.pool.publish reservation success).1
      loads := system.loads.erase reservation
      pins := if success then reservation :: system.pins else system.pins }
  | .release reservation =>
    { system with
      pool := (system.pool.release reservation).1
      pins := system.pins.erase reservation }
  | .clear => { system with pool := system.pool.clear.1 }

/-- What a client may do next. A sleeping caller goes on once its page is no
longer in flight. -/
def Permitted (system : System) : Action → Prop
  | .reserve pageId _ _ => pageId < 2 ^ kChunkNoBits
  | .resume waiter => waiter ∈ system.waiters ∧ waiter.pageId ∉ system.pool.loading
  | .tryReserveHit pageId _ => pageId < 2 ^ kChunkNoBits
  | .publish reservation _ => reservation ∈ system.loads
  | .release reservation => reservation ∈ system.pins
  | .clear => True

instance (system : System) : (action : Action) → Decidable (system.Permitted action)
  | .reserve _ _ _ => inferInstanceAs (Decidable (_ < _))
  | .resume _ => inferInstanceAs (Decidable (_ ∧ _))
  | .tryReserveHit _ _ => inferInstanceAs (Decidable (_ < _))
  | .publish _ _ => inferInstanceAs (Decidable (_ ∈ _))
  | .release _ => inferInstanceAs (Decidable (_ ∈ _))
  | .clear => inferInstanceAs (Decidable True)

/-- The pool with its clients, over every interleaving of their calls. -/
def transition (capacityPages : Nat) (chunkType : ChunkType) : Transition System Action :=
  .guarded (· = System.init capacityPages chunkType) Permitted perform

/-- The reservations of a page that a client has not given back. -/
def outstanding (system : System) (pageId : PageId) : Nat :=
  (system.loads ++ system.pins).countP fun reservation => reservation.pageId = pageId

/-- What the clients hold is what the pool has handed out. -/
structure Accounted (system : System) : Prop where
  wellFormed : system.pool.WellFormed []
  loads : (system.loads.map fun reservation => (reservation.pageId, reservation.frame)).Perm
    (system.pool.loading.entries.map fun entry => (entry.1, some entry.2))
  loadState : ∀ reservation ∈ system.loads, reservation.state = .load
  pins : ∀ reservation ∈ system.pins, reservation.state ≠ .bypass ∧ reservation.frame ≠ none ∧
    system.pool.frameOf reservation.pageId = reservation.frame
  pinCount : ∀ frame, system.pool.pinCount frame =
    (system.loads ++ system.pins).countP fun reservation => reservation.frame = some frame
  waiters : ∀ waiter ∈ system.waiters, waiter.pageId < 2 ^ kChunkNoBits

namespace Accounted

variable {system : System} {next : Pool} {pageId : PageId} {frame : FrameId}

theorem init (capacityPages : Nat) (chunkType : ChunkType) :
    (System.init capacityPages chunkType).Accounted where
  wellFormed := WellFormed.init capacityPages chunkType
  loads := .refl _
  loadState := by simp [System.init]
  pins := by simp [System.init]
  pinCount := fun _ => rfl
  waiters := by simp [System.init]

section

variable (haccounted : system.Accounted)
include haccounted

variable {reservation : Reservation}

theorem loading_of_load (hload : reservation ∈ system.loads) :
    ∃ frame, reservation.frame = some frame ∧
      system.pool.loading.lookup reservation.pageId = some frame := by
  have hmem := haccounted.loads.mem_iff.mp
    (List.mem_map.mpr ⟨reservation, hload, rfl⟩)
  obtain ⟨⟨pageId, frame⟩, hentry, heq⟩ := List.mem_map.mp hmem
  obtain ⟨rfl, hframe⟩ := Prod.mk.inj heq
  exact ⟨frame, hframe.symm, AssocMap.entry_mem_iff.mp hentry⟩

theorem pinned_of_pin (hpin : reservation ∈ system.pins) (hframe : reservation.frame = some frame) :
    0 < system.pool.pinCount frame := by
  rw [haccounted.pinCount, List.countP_pos_iff]
  exact ⟨reservation, List.mem_append_right _ hpin, by simpa using hframe⟩

theorem of_unmoved (hunmoved : system.pool.Unmoved next) (hnext : next.WellFormed []) :
    { system with pool := next }.Accounted where
  wellFormed := hnext
  loads := by
    rw [hunmoved.loading]
    exact haccounted.loads
  loadState := haccounted.loadState
  pins := by
    intro reservation hpin
    rw [hunmoved.frameOf]
    exact haccounted.pins reservation hpin
  pinCount := by
    intro frame
    rw [hunmoved.pinCount]
    exact haccounted.pinCount frame
  waiters := haccounted.waiters

theorem of_hit (hpinned : system.pool.Pinned next frame) (hnext : next.WellFormed [])
    (hstate : reservation.state = .hit)
    (hframeOf : system.pool.frameOf reservation.pageId = some frame)
    (hframe : reservation.frame = some frame) :
    (system.accept next reservation).Accounted := by
  unfold accept
  rw [hstate]
  refine ⟨hnext, ?_, haccounted.loadState, ?_, ?_, haccounted.waiters⟩
  · rw [hpinned.loading]
    exact haccounted.loads
  · intro other hother
    rw [hpinned.frameOf]
    rcases List.mem_cons.mp hother with rfl | hother
    · exact ⟨by simp [hstate], by simp [hframe], hframeOf.trans hframe.symm⟩
    · exact haccounted.pins other hother
  · intro other
    have hcount := haccounted.pinCount other
    rw [hpinned.pinCount, hcount]
    simp only [List.countP_append, List.countP_cons, hframe, Option.some.injEq,
      decide_eq_true_eq, eq_comm (a := other)]
    omega

theorem of_load (hloads : system.pool.Loads next pageId frame) (hnext : next.WellFormed [])
    (hstate : reservation.state = .load) (hpageId : reservation.pageId = pageId)
    (hframe : reservation.frame = some frame) :
    (system.accept next reservation).Accounted := by
  unfold accept
  rw [hstate]
  refine ⟨hnext, ?_, ?_, ?_, ?_, haccounted.waiters⟩
  · rw [hloads.loading, AList.entries_insert_of_notMem hloads.absent, List.map_cons, List.map_cons,
      hpageId, hframe]
    exact haccounted.loads.cons _
  · intro other hother
    rcases List.mem_cons.mp hother with rfl | hother
    · exact hstate
    · exact haccounted.loadState other hother
  · intro other hother
    obtain ⟨hheld, hsome, hplace⟩ := haccounted.pins other hother
    refine ⟨hheld, hsome, ?_⟩
    rw [hloads.frameOf, if_neg, hplace]
    -- the frame taken for the load carried no pin, so it held no page of this client
    intro hsame
    have hpinned := haccounted.pinned_of_pin hother (hplace.symm.trans hsame)
    have hunpinned := hloads.unpinned
    omega
  · intro other
    have hcount := haccounted.pinCount other
    rw [hloads.pinCount, hcount]
    simp only [List.countP_append, List.countP_cons, hframe, Option.some.injEq,
      decide_eq_true_eq, eq_comm (a := other)]
    omega

theorem of_reserves {progress : Progress} (hreserves : Reserves system.pool next pageId progress)
    (hnext : next.WellFormed []) {waiter : Waiter} (hwaiter : waiter.pageId < 2 ^ kChunkNoBits) :
    (system.settle waiter (next, .ok progress)).Accounted := by
  cases hreserves with
  | hit hframeOf hpinned hstate hpageId hframe =>
    subst hpageId
    exact haccounted.of_hit hpinned hnext hstate hframeOf hframe
  | load hloads hstate hpageId hframe =>
    exact haccounted.of_load hloads hnext hstate hpageId hframe
  | bypass hunmoved hstate =>
    unfold settle accept
    simp only [hstate]
    exact haccounted.of_unmoved hunmoved hnext
  | waiting hunmoved =>
    have hmoved := haccounted.of_unmoved hunmoved hnext
    refine ⟨hnext, hmoved.loads, hmoved.loadState, hmoved.pins, hmoved.pinCount, ?_⟩
    intro other hother
    rcases List.mem_cons.mp hother with rfl | hother
    · exact hwaiter
    · exact haccounted.waiters other hother

theorem reserve_step (waiter : Waiter) (hwaiter : waiter.pageId < 2 ^ kChunkNoBits)
    (waitForInflight coalesced : Bool) :
    (system.settle waiter (system.pool.reserveLocked waiter.pageId waiter.access waitForInflight
      coalesced)).Accounted := by
  obtain ⟨next, progress, hcall, hnext, hreserves⟩ :=
    haccounted.wellFormed.reserveLocked_spec hwaiter waiter.access waitForInflight coalesced
  rw [hcall]
  exact haccounted.of_reserves hreserves hnext hwaiter

theorem awake (waiter : Waiter) :
    { system with waiters := system.waiters.erase waiter }.Accounted :=
  ⟨haccounted.wellFormed, haccounted.loads, haccounted.loadState, haccounted.pins,
    haccounted.pinCount, fun other hother =>
      haccounted.waiters other (List.mem_of_mem_erase hother)⟩

theorem tryReserveHit_step (pageId : PageId) (access : Access) :
    (system.perform (.tryReserveHit pageId access)).Accounted := by
  simp only [perform, tryReserveHit]
  cases hlookup : system.pool.resident.lookup pageId with
  | none => exact haccounted.of_unmoved (Unmoved.refl _) haccounted.wellFormed
  | some entry =>
    obtain ⟨next, reservation, hcall, hnext, hpinned, hstate, hpageId, hframe⟩ :=
      haccounted.wellFormed.hitResident_spec hlookup access false
    subst hpageId
    simp only [hcall]
    exact haccounted.of_hit hpinned hnext hstate (frameOf_of_lookup hlookup) hframe

theorem loads_pages :
    (system.loads.map Reservation.pageId).Perm system.pool.loading.keys := by
  have hperm := haccounted.loads.map Prod.fst
  rw [List.map_map, List.map_map] at hperm
  exact hperm

theorem loads_frames (frame : FrameId) :
    system.loads.countP (fun reservation => reservation.frame = some frame) =
      system.pool.loadingFrames.count frame := by
  have hcount := (haccounted.loads.map Prod.snd).countP_eq fun held => decide (held = some frame)
  rw [List.map_map, List.map_map, List.countP_map, List.countP_map] at hcount
  rw [loadingFrames, AssocMap.values, List.count, List.countP_map]
  simpa [Function.comp_def, beq_eq_decide] using hcount

theorem load_pin (hloading : system.pool.loading.lookup pageId = some frame) :
    system.pool.pinCount frame = 1 := by
  have hone := haccounted.wellFormed.count_le_one frame
  have hplace := List.count_pos_iff.mpr (mem_loadingFrames hloading)
  have hpins : system.pins.countP (fun reservation => reservation.frame = some frame) = 0 := by
    rw [List.countP_eq_zero]
    intro reservation hpin hframe
    have hresident := (haccounted.pins reservation hpin).2.2.trans (of_decide_eq_true hframe)
    have hpos := List.count_pos_iff.mpr (mem_residentFrames hresident)
    omega
  rw [haccounted.pinCount, List.countP_append, hpins, haccounted.loads_frames]
  omega

theorem publish_step (hload : reservation ∈ system.loads) (success : Bool) :
    (system.perform (.publish reservation success)).Accounted := by
  obtain ⟨frame, hframe, hloading⟩ := haccounted.loading_of_load hload
  have hstate := haccounted.loadState reservation hload
  have hrest : ((system.loads.erase reservation).map fun reservation =>
      (reservation.pageId, reservation.frame)).Perm
      ((system.pool.loading.erase reservation.pageId).entries.map
        fun entry => (entry.1, some entry.2)) := by
    have hloads := ((List.perm_cons_erase hload).symm.map fun reservation =>
      (reservation.pageId, reservation.frame)).trans haccounted.loads
    have hentries := hloads.trans ((AssocMap.entries_perm_of_lookup hloading).map
      fun entry : (_ : PageId) × FrameId => (entry.1, some entry.2))
    rw [List.map_cons, List.map_cons, hframe] at hentries
    exact hentries.cons_inv
  have hcount : ∀ other, system.pool.pinCount other =
      ((system.loads.erase reservation) ++ (reservation :: system.pins)).countP
        fun reservation => reservation.frame = some other := by
    intro other
    rw [haccounted.pinCount other]
    have hperm := (List.perm_cons_erase hload).countP_eq
      fun reservation => decide (reservation.frame = some other)
    simp only [List.countP_append, List.countP_cons] at hperm ⊢
    omega
  have hothers : ∀ other ∈ system.pins, other.pageId ≠ reservation.pageId := by
    intro other hother hsame
    obtain ⟨-, hsome, hplace⟩ := haccounted.pins other hother
    rw [hsame] at hplace
    have hpresent : system.pool.frameOf reservation.pageId ≠ none := hplace ▸ hsome
    obtain ⟨held, hheld⟩ := Option.ne_none_iff_exists'.mp hpresent
    obtain ⟨entry, hlookup, -⟩ := frameOf_eq_some.mp hheld
    exact haccounted.wellFormed.exclusive _ (AssocMap.mem_of_lookup hlookup)
      (AssocMap.mem_of_lookup hloading)
  simp only [perform, Pool.publish, hstate, hframe, hloading, if_true]
  cases success with
  | true =>
    obtain ⟨hnext, hframeOf⟩ :=
      haccounted.wellFormed.publishLoaded_spec hloading reservation.access
    refine ⟨hnext, hrest, ?_, ?_, ?_, haccounted.waiters⟩
    · exact fun other hother => haccounted.loadState other (List.mem_of_mem_erase hother)
    · intro other hother
      simp only [if_true] at hother ⊢
      rcases List.mem_cons.mp hother with rfl | hother
      · exact ⟨by simp [hstate], by simp [hframe], by rw [hframeOf, if_pos rfl, hframe]⟩
      · obtain ⟨hheld, hsome, hplace⟩ := haccounted.pins other hother
        exact ⟨hheld, hsome, by rw [hframeOf, if_neg (hothers other hother), hplace]⟩
    · intro other
      exact (pinCount_setChunkState _ frame .resident other).trans (hcount other)
  | false =>
    have hpin := haccounted.load_pin hloading
    refine ⟨haccounted.wellFormed.rollBack_spec hloading hpin, hrest, ?_, ?_, ?_,
      haccounted.waiters⟩
    · exact fun other hother => haccounted.loadState other (List.mem_of_mem_erase hother)
    · exact haccounted.pins
    · intro other
      have hdec := pinCount_decPinCount (system.pool.setChunkState frame .free) frame other
      rw [pinCount_setChunkState, hcount other] at hdec
      refine hdec.trans ?_
      simp only [List.countP_append, List.countP_cons, hframe, Option.some.injEq,
        decide_eq_true_eq, eq_comm (a := other)]
      simp
      omega

theorem release_step (hpin : reservation ∈ system.pins) :
    (system.perform (.release reservation)).Accounted := by
  obtain ⟨hheld, hsome, hplace⟩ := haccounted.pins reservation hpin
  obtain ⟨frame, hframe⟩ := Option.ne_none_iff_exists'.mp hsome
  have hpos := haccounted.pinned_of_pin hpin hframe
  simp only [perform, Pool.release, hframe, if_neg hheld, if_neg (Nat.ne_of_gt hpos)]
  refine ⟨haccounted.wellFormed.unpin frame, haccounted.loads, haccounted.loadState, ?_, ?_,
    haccounted.waiters⟩
  · exact fun other hother => haccounted.pins other (List.mem_of_mem_erase hother)
  · intro other
    have hperm := (List.perm_cons_erase hpin).countP_eq
      fun reservation => decide (reservation.frame = some other)
    rw [pinCount_decPinCount, haccounted.pinCount other]
    simp only [List.countP_append, List.countP_cons, hframe, Option.some.injEq,
      decide_eq_true_eq, eq_comm (a := frame)] at hperm ⊢
    omega

theorem clear_step : (system.perform .clear).Accounted := by
  obtain ⟨next, result, hcall, hnext, hclear⟩ := haccounted.wellFormed.clear_spec
  simp only [perform, hcall]
  rcases hclear with ⟨-, hcleared⟩ | hunmoved
  · have hpins : system.pins = [] := by
      refine List.eq_nil_iff_forall_not_mem.mpr fun reservation hpin => ?_
      obtain ⟨-, hsome, hplace⟩ := haccounted.pins reservation hpin
      obtain ⟨frame, hframe⟩ := Option.ne_none_iff_exists'.mp hsome
      have hpos := haccounted.pinned_of_pin hpin hframe
      have hunpinned := hcleared.unpinned frame
        (haccounted.wellFormed.frame_lt (hplace.trans hframe))
      omega
    refine ⟨hnext, ?_, haccounted.loadState, ?_, ?_, haccounted.waiters⟩
    · rw [hcleared.loading]
      exact haccounted.loads
    · simp [hpins]
    · intro frame
      rw [hcleared.pinCount]
      exact haccounted.pinCount frame
  · exact haccounted.of_unmoved hunmoved hnext

theorem perform_step {action : Action} (hpermitted : system.Permitted action) :
    (system.perform action).Accounted := by
  cases action with
  | reserve pageId access waitForInflight =>
    exact haccounted.reserve_step ⟨pageId, access⟩ hpermitted waitForInflight false
  | resume waiter =>
    have hwaiter := haccounted.waiters waiter hpermitted.1
    exact (haccounted.awake waiter).reserve_step waiter hwaiter true true
  | tryReserveHit pageId access => exact haccounted.tryReserveHit_step pageId access
  | publish reservation success => exact haccounted.publish_step hpermitted success
  | release reservation => exact haccounted.release_step hpermitted
  | clear => exact haccounted.clear_step

end

theorem of_reachable {capacityPages : Nat} {chunkType : ChunkType}
    (hreach : (transition capacityPages chunkType).Reachable system) : system.Accounted := by
  refine hreach.invariant ?_ ?_
  · rintro _ rfl
    exact init capacityPages chunkType
  · rintro state action _ haccounted ⟨hpermitted, rfl⟩
    exact haccounted.perform_step hpermitted

theorem pinCount_eq_outstanding (haccounted : system.Accounted)
    (hplace : system.pool.frameOf pageId = some frame ∨
      system.pool.loading.lookup pageId = some frame) :
    system.pool.pinCount frame = system.outstanding pageId := by
  rw [haccounted.pinCount, outstanding]
  refine List.countP_congr fun reservation hmem => ?_
  rw [decide_eq_true_iff, decide_eq_true_iff]
  rcases List.mem_append.mp hmem with hload | hpin
  · obtain ⟨held, hheld, hloading⟩ := haccounted.loading_of_load hload
    rw [hheld, Option.some.injEq]
    exact haccounted.wellFormed.owner_iff (.inr hloading) hplace
  · obtain ⟨-, hsome, hresident⟩ := haccounted.pins reservation hpin
    obtain ⟨held, hheld⟩ := Option.ne_none_iff_exists'.mp hsome
    rw [hheld] at hresident ⊢
    rw [Option.some.injEq]
    exact haccounted.wellFormed.owner_iff (.inl hresident) hplace

theorem pinned_of_reserves {progress : Progress} (hreserves : Reserves system.pool next pageId progress)
    {other : PageId} (hpage : system.pool.frameOf other = some frame)
    (hpin : 0 < system.pool.pinCount frame) : next.frameOf other = some frame := by
  cases hreserves with
  | hit _ hpinned => exact (hpinned.frameOf other).trans hpage
  | load hloads =>
    rw [hloads.frameOf, if_neg, hpage]
    intro htaken
    have hunpinned := hloads.unpinned
    rw [Option.some.inj (hpage.symm.trans htaken)] at hpin
    omega
  | bypass hunmoved => exact (hunmoved.frameOf other).trans hpage
  | waiting hunmoved => exact (hunmoved.frameOf other).trans hpage

@[simp]
theorem pool_accept (reservation : Reservation) :
    (system.accept next reservation).pool = next := by
  unfold accept
  split <;> rfl

theorem pinned_of_reserveLocked (haccounted : system.Accounted) (waiter : Waiter)
    (hwaiter : waiter.pageId < 2 ^ kChunkNoBits) (waitForInflight coalesced : Bool)
    (hpage : system.pool.frameOf pageId = some frame) (hpin : 0 < system.pool.pinCount frame) :
    (system.settle waiter (system.pool.reserveLocked waiter.pageId waiter.access waitForInflight
      coalesced)).pool.frameOf pageId = some frame := by
  obtain ⟨next, progress, hcall, -, hreserves⟩ :=
    haccounted.wellFormed.reserveLocked_spec hwaiter waiter.access waitForInflight coalesced
  rw [hcall]
  have hkept := pinned_of_reserves hreserves hpage hpin
  cases progress with
  | waiting => exact hkept
  | finished reservation =>
    rw [settle, pool_accept]
    exact hkept

theorem pinned_of_perform (haccounted : system.Accounted) {action : Action}
    (hpermitted : system.Permitted action) (hpage : system.pool.frameOf pageId = some frame)
    (hpin : 0 < system.pool.pinCount frame) :
    (system.perform action).pool.frameOf pageId = some frame := by
  cases action with
  | reserve other access waitForInflight =>
    exact haccounted.pinned_of_reserveLocked ⟨other, access⟩ hpermitted waitForInflight false
      hpage hpin
  | resume waiter =>
    have hwaiter := haccounted.waiters waiter hpermitted.1
    exact (haccounted.awake waiter).pinned_of_reserveLocked waiter hwaiter true true hpage hpin
  | tryReserveHit other access =>
    simp only [perform, tryReserveHit]
    cases hlookup : system.pool.resident.lookup other with
    | none =>
      rw [pool_accept]
      exact hpage
    | some entry =>
      obtain ⟨next, reservation, hcall, -, hpinned, -⟩ :=
        haccounted.wellFormed.hitResident_spec hlookup access false
      simp only [hcall, pool_accept]
      exact (hpinned.frameOf pageId).trans hpage
  | publish reservation success =>
    obtain ⟨held, hheld, hloading⟩ := haccounted.loading_of_load hpermitted
    have hstate := haccounted.loadState reservation hpermitted
    simp only [perform, Pool.publish, hstate, hheld, hloading, if_true]
    cases success with
    | false => exact hpage
    | true =>
      obtain ⟨-, hframeOf⟩ :=
        haccounted.wellFormed.publishLoaded_spec hloading reservation.access
      refine (hframeOf pageId).trans ?_
      rw [if_neg, hpage]
      rintro rfl
      obtain ⟨entry, hlookup, -⟩ := frameOf_eq_some.mp hpage
      exact haccounted.wellFormed.exclusive _ (AssocMap.mem_of_lookup hlookup)
        (AssocMap.mem_of_lookup hloading)
  | release reservation =>
    simp only [perform, Pool.release]
    split
    · exact hpage
    · split
      · exact hpage
      · split <;> exact hpage
  | clear =>
    obtain ⟨next, result, hcall, -, hclear⟩ := haccounted.wellFormed.clear_spec
    simp only [perform, hcall]
    rcases hclear with ⟨-, hcleared⟩ | hunmoved
    · have hunpinned := hcleared.unpinned frame (haccounted.wellFormed.frame_lt hpage)
      omega
    · exact (hunmoved.frameOf pageId).trans hpage

theorem clearIn_ok_iff (haccounted : system.Accounted) {order : List PageEntry}
    (horder : order.Perm system.pool.resident.entries) :
    (system.pool.clearIn order).2 = .ok () ↔ system.loads = [] ∧ system.pins = [] := by
  have hclear : (system.pool.clearIn order).2 = .ok () ↔ system.pool.loading.entries = [] ∧
      ∀ entry ∈ order, system.pool.isUnpinned entry = true := by
    rw [← (clearResident_eq system.pool order).2, clearIn]
    split
    · simp_all
    · obtain ⟨next, _ | _⟩ := system.pool.clearResident order <;> simp_all
  have hlength := haccounted.loads.length_eq
  rw [List.length_map, List.length_map] at hlength
  rw [hclear, ← List.length_eq_zero_iff, ← hlength, List.length_eq_zero_iff]
  refine and_congr_right fun hloads => ⟨fun hunpinned => ?_, fun hpins entry _ => ?_⟩
  · refine List.eq_nil_iff_forall_not_mem.mpr fun reservation hpin => ?_
    obtain ⟨-, hsome, hplace⟩ := haccounted.pins reservation hpin
    obtain ⟨frame, hframe⟩ := Option.ne_none_iff_exists'.mp hsome
    obtain ⟨entry, hlookup, rfl⟩ := frameOf_eq_some.mp (hplace.trans hframe)
    have hfree := hunpinned _ (horder.mem_iff.mpr (AssocMap.entry_mem_iff.mpr hlookup))
    exact (haccounted.pinned_of_pin hpin hframe).ne' (of_decide_eq_true hfree)
  · rw [isUnpinned, haccounted.pinCount, hloads, hpins]
    rfl

end Accounted

def ExactlyOne (first second third : Prop) : Prop :=
  (first ∧ ¬ second ∧ ¬ third) ∨ (¬ first ∧ second ∧ ¬ third) ∨ (¬ first ∧ ¬ second ∧ third)

/-- The books of the cache between two atomic operations. -/
structure Ledger (system : System) : Prop where
  oneState : ∀ frame < system.pool.capacityPages,
    ExactlyOne (frame ∈ system.pool.freeFrames)
      (∃ pageId, system.pool.loading.lookup pageId = some frame)
      (∃ pageId, system.pool.frameOf pageId = some frame)
  onePlace : system.pool.ownedFrames.Nodup
  capacity : system.pool.freeFrames.length + system.pool.loading.entries.length +
    system.pool.resident.entries.length = system.pool.capacityPages
  recency : ∀ pageId, system.pool.lru.count pageId =
    if pageId ∈ system.pool.resident then 1 else 0
  unused : system.pool.prefetchedUnusedCount =
    (AssocMap.values system.pool.resident).countP ResidentEntry.prefetchedUnused
  pins : ∀ pageId frame, Owns system.pool pageId frame →
    system.pool.pinCount frame = system.outstanding pageId
  oneLoad : ∀ pageId,
    system.loads.countP (fun reservation => reservation.pageId = pageId) ≤ 1

theorem Accounted.ledger {system : System} (haccounted : system.Accounted) : system.Ledger where
  oneState := by
    intro frame hframe
    have hcount := haccounted.wellFormed.count_le_one frame
    have hresident : ∀ {pageId}, system.pool.frameOf pageId = some frame →
        0 < system.pool.residentFrames.count frame := fun hpage =>
      List.count_pos_iff.mpr (mem_residentFrames hpage)
    have hloading : ∀ {pageId}, system.pool.loading.lookup pageId = some frame →
        0 < system.pool.loadingFrames.count frame := fun hlookup =>
      List.count_pos_iff.mpr (mem_loadingFrames hlookup)
    rcases haccounted.wellFormed.owner_cases hframe with hfree | ⟨pageId, hlookup⟩ | ⟨pageId, hpage⟩
    · have hpos := List.count_pos_iff.mpr hfree
      refine .inl ⟨hfree, ?_, ?_⟩
      · rintro ⟨other, hother⟩
        have := hloading hother
        omega
      · rintro ⟨other, hother⟩
        have := hresident hother
        omega
    · have hpos := hloading hlookup
      refine .inr (.inl ⟨?_, ⟨pageId, hlookup⟩, ?_⟩)
      · intro hfree
        have := List.count_pos_iff.mpr hfree
        omega
      · rintro ⟨other, hother⟩
        have := hresident hother
        omega
    · have hpos := hresident hpage
      refine .inr (.inr ⟨?_, ?_, ⟨pageId, hpage⟩⟩)
      · intro hfree
        have := List.count_pos_iff.mpr hfree
        omega
      · rintro ⟨other, hother⟩
        have := hloading hother
        omega
  onePlace := by simpa using haccounted.wellFormed.nodup
  capacity := by
    have hlength := haccounted.wellFormed.frames.length_eq
    simp only [List.nil_append, ownedFrames, loadingFrames, residentFrames, List.length_append,
      List.length_map, AssocMap.length_values, List.length_range] at hlength
    omega
  recency := by
    intro pageId
    rw [haccounted.wellFormed.recency.count_eq, (AList.keys_nodup _).count]
    simp only [AList.mem_keys]
  unused := haccounted.wellFormed.unused
  pins := fun _ _ => haccounted.pinCount_eq_outstanding
  oneLoad := by
    intro pageId
    have hcount := haccounted.loads_pages.countP_eq fun page => decide (page = pageId)
    rw [List.countP_map] at hcount
    have hone := List.nodup_iff_count_le_one.mp (AList.keys_nodup system.pool.loading) pageId
    rw [List.count, ← List.countP_congr (p := fun page => decide (page = pageId))
      fun page _ => by simp] at hone
    exact hcount ▸ hone

/-- The cache keeps its books over every interleaving of its clients' calls, and
never evicts a pinned page. -/
theorem pool_ledger {capacityPages : Nat} {chunkType : ChunkType} {system : System}
    (hreach : (transition capacityPages chunkType).Reachable system) :
    system.Ledger ∧
      ∀ action next, (transition capacityPages chunkType).step system action next →
        ∀ pageId frame, system.pool.frameOf pageId = some frame →
          0 < system.pool.pinCount frame → next.pool.frameOf pageId = some frame := by
  have haccounted := Accounted.of_reachable hreach
  refine ⟨haccounted.ledger, ?_⟩
  rintro action _ ⟨hpermitted, rfl⟩ pageId frame hpage hpin
  exact haccounted.pinned_of_perform hpermitted hpage hpin

/-- A one-frame pool whose prefetched page is hit on demand and then asked to
make room for another page. -/
def contended : List Action :=
  [.reserve 5 .prefetch true, .publish ⟨.load, 5, some 0, false, false, .prefetch, false⟩ true,
    .tryReserveHit 5 .demand, .reserve 7 .demand true]

theorem pool_ledger_contended : (contended.foldl perform (init 1 .chunk4kb)).Ledger ∧
    ∀ action next,
      (transition 1 .chunk4kb).step (contended.foldl perform (init 1 .chunk4kb)) action next →
      ∀ pageId frame,
        (contended.foldl perform (init 1 .chunk4kb)).pool.frameOf pageId = some frame →
        0 < (contended.foldl perform (init 1 .chunk4kb)).pool.pinCount frame →
        next.pool.frameOf pageId = some frame :=
  pool_ledger (Transition.reachable_of_permitted rfl (by decide))

/-- No call throws but a `clear` before everything is given back, in whatever order it walks
the resident table, and a caller that sleeps waits for a load of a client. -/
structure Answered (system : System) : Prop where
  reserve : ∀ pageId < 2 ^ kChunkNoBits, ∀ access waitForInflight coalesced, ∃ progress,
    (system.pool.reserveLocked pageId access waitForInflight coalesced).2 = .ok progress
  publish : ∀ reservation ∈ system.loads, ∀ success,
    (system.pool.publish reservation success).2 = .ok ()
  release : ∀ reservation ∈ system.pins, (system.pool.release reservation).2 = .ok ()
  clear : ∀ order : List PageEntry, order.Perm system.pool.resident.entries →
    ((system.pool.clearIn order).2 = .ok () ↔ system.loads = [] ∧ system.pins = [])
  waiters : ∀ waiter ∈ system.waiters, system.Permitted (.resume waiter) ∨
    ∃ reservation ∈ system.loads, reservation.pageId = waiter.pageId

theorem answered_of_reachable {capacityPages : Nat} {chunkType : ChunkType} {system : System}
    (hreach : (transition capacityPages chunkType).Reachable system) : system.Answered := by
  have haccounted := Accounted.of_reachable hreach
  constructor
  · intro pageId hpage access waitForInflight coalesced
    obtain ⟨next, progress, hcall, -⟩ :=
      haccounted.wellFormed.reserveLocked_spec hpage access waitForInflight coalesced
    exact ⟨progress, by rw [hcall]⟩
  · intro reservation hload success
    obtain ⟨frame, hframe, hloading⟩ := haccounted.loading_of_load hload
    simp only [Pool.publish, haccounted.loadState reservation hload, hframe, hloading, if_true]
    split <;> rfl
  · intro reservation hpin
    obtain ⟨hheld, hsome, -⟩ := haccounted.pins reservation hpin
    obtain ⟨frame, hframe⟩ := Option.ne_none_iff_exists'.mp hsome
    have hpinned := haccounted.pinned_of_pin hpin hframe
    simp only [Pool.release, hframe, if_neg hheld, if_neg hpinned.ne']
  · exact fun _ => haccounted.clearIn_ok_iff
  · intro waiter hwaiter
    by_cases hloading : waiter.pageId ∈ system.pool.loading
    · exact .inr (List.mem_map.mp (haccounted.loads_pages.mem_iff.mpr (AList.mem_keys.mpr hloading)))
    · exact .inl ⟨hwaiter, hloading⟩

theorem answered_of_reachable_contended : (contended.foldl perform (init 1 .chunk4kb)).Answered :=
  answered_of_reachable (Transition.reachable_of_permitted rfl (by decide))

end System

end SkipCell.Cache

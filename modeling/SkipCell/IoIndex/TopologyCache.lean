import SkipCell.Cache.SoleClient
import SkipCell.IoIndex.Reload

/-! # The topology cache of the paged mode

`neighbors` copies a list out of 4-KiB frames. Each page comes from the cache or is
read whole into a frame first. Whatever was read before, what the caller gets is what
the file has, and the read fails where the file ends before the page does.
-/

namespace SkipCell.IoIndex

open Foundation Sidecar

open Cache (Pool FrameId PageId Reservation)

/-- The pool and the bytes of its frames. -/
structure TopologyCache where
  pool : Pool
  data : FrameId → List UInt8

def cacheError : Cache.Error → Error
  | .logicError what => .logicError what
  | .outOfRange _ => .outOfBounds
  | .danglingLruPosition => .outOfBounds

namespace TopologyCache

def init (cachePages : Nat) : TopologyCache where
  pool := Pool.init cachePages .chunk4kb
  data := fun _ => List.replicate kIoVectorPageSize 0

/-- The loop of `pread`, up to the end of the page or of the file. -/
def readInto (cache : TopologyCache) (file : List UInt8) (pageId : PageId) (frame : FrameId) :
    TopologyCache where
  pool := cache.pool
  data := fun other =>
    if other = frame then
      patch (cache.data frame) 0 (subspan file (pageId * kIoVectorPageSize) kIoVectorPageSize)
    else cache.data other

def load (cache : TopologyCache) (file : List UInt8) (reservation : Reservation)
    (frame : FrameId) : TopologyCache × Except Error Unit :=
  let cache := cache.readInto file reservation.pageId frame
  let complete := decide ((reservation.pageId + 1) * kIoVectorPageSize ≤ file.length)
  match cache.pool.publish reservation complete with
  | (pool, .error error) => ({ cache with pool }, .error (cacheError error))
  | (pool, .ok ()) =>
    ({ cache with pool },
      if complete then .ok ()
      else .error (.runtimeError "paged topology read failed or was truncated"))

/-- Copies out of a pinned frame and releases it. -/
def copyOut (cache : TopologyCache) (reservation : Reservation) (frame : FrameId)
    (pageOffset count : Nat) : TopologyCache × Except Error (List UInt8) :=
  match cache.pool.release reservation with
  | (pool, .error error) => ({ cache with pool }, .error (cacheError error))
  | (pool, .ok ()) => ({ cache with pool }, .ok (subspan (cache.data frame) pageOffset count))

def readPage (cache : TopologyCache) (file : List UInt8) (pageId : PageId)
    (pageOffset count : Nat) : TopologyCache × Except Error (List UInt8) :=
  match cache.pool.reserveLocked pageId .demand true false with
  | (pool, .error error) => ({ cache with pool }, .error (cacheError error))
  | (pool, .ok .waiting) => ({ cache with pool }, .error .endless)
  | (pool, .ok (.finished reservation)) =>
    let cache := { cache with pool }
    match reservation.state, reservation.frame with
    | .bypass, _ => (cache, .error (.runtimeError "paged topology cache has no available frame"))
    | _, none => (cache, .error .outOfBounds)
    | .hit, some frame => cache.copyOut reservation frame pageOffset count
    | .load, some frame =>
      match cache.load file reservation frame with
      | (cache, .error error) => (cache, .error error)
      | (cache, .ok ()) => cache.copyOut reservation frame pageOffset count

/-- The loop of `neighbors` over the pages of a list. -/
def copyPages (cache : TopologyCache) (file : List UInt8) (absolute remaining : Nat) :
    TopologyCache × Except Error (List UInt8) :=
  if remaining = 0 then (cache, .ok [])
  else
    let pageOffset := absolute % kIoVectorPageSize
    let count := min remaining (kIoVectorPageSize - pageOffset)
    match cache.readPage file (absolute / kIoVectorPageSize) pageOffset count with
    | (cache, .error error) => (cache, .error error)
    | (cache, .ok bytes) =>
      match cache.copyPages file (absolute + count) (remaining - count) with
      | (cache, .error error) => (cache, .error error)
      | (cache, .ok rest) => (cache, .ok (bytes ++ rest))
termination_by remaining
decreasing_by
  have hoffset : absolute % kIoVectorPageSize < kIoVectorPageSize := Nat.mod_lt _ (by decide)
  omega

/-- Between two reads nothing is pinned, and every resident page is a whole page of
the file. -/
structure Mirrors (cache : TopologyCache) (file : List UInt8) : Prop where
  quiet : cache.pool.Quiet
  widths : ∀ frame, (cache.data frame).length = kIoVectorPageSize
  complete : ∀ pageId frame, cache.pool.frameOf pageId = some frame →
    (pageId + 1) * kIoVectorPageSize ≤ file.length
  contents : ∀ pageId frame, cache.pool.frameOf pageId = some frame →
    cache.data frame = subspan file (pageId * kIoVectorPageSize) kIoVectorPageSize

variable {cache : TopologyCache} {file : List UInt8} {pageId : PageId} {frame : FrameId}

theorem Mirrors.init {cachePages : Nat} (hpositive : 0 < cachePages) (file : List UInt8) :
    (TopologyCache.init cachePages).Mirrors file where
  quiet := .init hpositive .chunk4kb
  widths := fun _ => List.length_replicate
  complete := nofun
  contents := nofun

theorem patch_whole {old page : List UInt8} (hlength : old.length = page.length) :
    patch old 0 page = page := by
  rw [patch, List.take_zero, List.nil_append, Nat.zero_add, ← hlength, List.drop_length,
    List.append_nil]

theorem length_page (hcomplete : (pageId + 1) * kIoVectorPageSize ≤ file.length) :
    (subspan file (pageId * kIoVectorPageSize) kIoVectorPageSize).length = kIoVectorPageSize := by
  apply length_subspan
  rwa [← Nat.succ_mul]

theorem length_readInto (hwidths : ∀ frame, (cache.data frame).length = kIoVectorPageSize)
    (file : List UInt8) (pageId : PageId) (frame other : FrameId) :
    ((cache.readInto file pageId frame).data other).length = kIoVectorPageSize := by
  simp only [readInto]
  split
  · rw [length_patch, hwidths]
    rw [Nat.zero_add, hwidths, subspan, List.length_take]
    exact Nat.min_le_left _ _
  · exact hwidths other

theorem readInto_self (hwidths : ∀ frame, (cache.data frame).length = kIoVectorPageSize)
    (hcomplete : (pageId + 1) * kIoVectorPageSize ≤ file.length) (frame : FrameId) :
    (cache.readInto file pageId frame).data frame =
      subspan file (pageId * kIoVectorPageSize) kIoVectorPageSize := by
  simp only [readInto, if_true]
  exact patch_whole (by rw [hwidths, length_page hcomplete])

theorem readInto_other {other : FrameId} (hother : other ≠ frame) :
    (cache.readInto file pageId frame).data other = cache.data other := if_neg hother

theorem kept_of_taken {taken : Option FrameId} {held : FrameId}
    (hheld : (if taken = some frame then none else taken) = some held) :
    taken = some held ∧ held ≠ frame := by
  split at hheld
  · cases hheld
  · next hother =>
      refine ⟨hheld, ?_⟩
      rintro rfl
      exact hother hheld

def pageAnswer (file : List UInt8) (pageId : PageId) (pageOffset count : Nat) :
    Except Error (List UInt8) :=
  if (pageId + 1) * kIoVectorPageSize ≤ file.length then
    .ok (subspan (subspan file (pageId * kIoVectorPageSize) kIoVectorPageSize) pageOffset count)
  else .error (.runtimeError "paged topology read failed or was truncated")

/-- A page read gives what the file has, from the cache or not, and the cache goes on
mirroring the file. -/
theorem Mirrors.readPage (hmirrors : cache.Mirrors file) (hpage : pageId < 2 ^ Cache.kChunkNoBits)
    (pageOffset count : Nat) :
    ∃ next, cache.readPage file pageId pageOffset count =
        (next, pageAnswer file pageId pageOffset count) ∧ next.Mirrors file := by
  obtain ⟨pool, reservation, hreserve, hwell, hpageId, hgranted⟩ := hmirrors.quiet.reserve hpage
  cases hgranted with
  | hit frame hframeOf hpinned hstate hframe =>
    obtain ⟨last, hrelease, hquiet, hsame⟩ :=
      hmirrors.quiet.release_hit hwell hpinned hstate hframe
    have hcomplete := hmirrors.complete pageId frame hframeOf
    refine ⟨{ cache with pool := last }, ?_, hquiet, hmirrors.widths, ?_, ?_⟩
    · simp only [TopologyCache.readPage, hreserve, hstate, hframe, copyOut, hrelease, pageAnswer,
        hcomplete, if_true, hmirrors.contents pageId frame hframeOf]
    · intro other held hheld
      exact hmirrors.complete other held ((hsame other).symm.trans hheld)
    · intro other held hheld
      exact hmirrors.contents other held ((hsame other).symm.trans hheld)
  | load frame hloads hstate hframe =>
    subst hpageId
    by_cases hcomplete : (reservation.pageId + 1) * kIoVectorPageSize ≤ file.length
    · obtain ⟨published, last, hpublish, hrelease, hquiet, hframeOf⟩ :=
        hmirrors.quiet.release_loaded hwell hloads hstate rfl hframe
      refine ⟨{ cache.readInto file reservation.pageId frame with pool := last }, ?_, hquiet,
        length_readInto hmirrors.widths file _ frame, ?_, ?_⟩
      · have hdata : (if frame = frame then
            patch (cache.data frame) 0 (subspan file (reservation.pageId * kIoVectorPageSize)
              kIoVectorPageSize) else cache.data frame) =
            subspan file (reservation.pageId * kIoVectorPageSize) kIoVectorPageSize :=
          readInto_self hmirrors.widths hcomplete frame
        simp only [TopologyCache.readPage, hreserve, hstate, hframe, load, readInto, hcomplete,
          decide_true, hpublish, if_true, copyOut, hrelease, pageAnswer] at hdata ⊢
        rw [hdata]
      · intro other held hheld
        rw [hframeOf] at hheld
        split at hheld
        · next hsame => exact hsame ▸ hcomplete
        · exact hmirrors.complete other held (kept_of_taken hheld).1
      · intro other held hheld
        rw [hframeOf] at hheld
        split at hheld
        · next hsame =>
            obtain rfl := Option.some.inj hheld
            rw [hsame]
            exact readInto_self hmirrors.widths hcomplete frame
        · obtain ⟨hkept, hne⟩ := kept_of_taken hheld
          exact (readInto_other hne).trans (hmirrors.contents other held hkept)
    · obtain ⟨last, hpublish, hquiet, hframeOf⟩ :=
        hmirrors.quiet.rollBack hwell hloads hstate rfl hframe
      refine ⟨{ cache.readInto file reservation.pageId frame with pool := last }, ?_, hquiet,
        length_readInto hmirrors.widths file _ frame, ?_, ?_⟩
      · simp only [TopologyCache.readPage, hreserve, hstate, hframe, load, readInto, hcomplete,
          decide_false, hpublish, Bool.false_eq_true, if_false, pageAnswer]
      · intro other held hheld
        exact hmirrors.complete other held (kept_of_taken ((hframeOf other).symm.trans hheld)).1
      · intro other held hheld
        obtain ⟨hkept, hne⟩ := kept_of_taken ((hframeOf other).symm.trans hheld)
        exact (readInto_other hne).trans (hmirrors.contents other held hkept)

theorem Mirrors.copyPages (hmirrors : cache.Mirrors file) (absolute remaining : Nat)
    (hsmall : absolute + remaining ≤ 2 ^ 64) :
    ∃ next, cache.copyPages file absolute remaining = (next, copyPaged file absolute remaining) ∧
      next.Mirrors file := by
  induction remaining using Nat.strong_induction_on generalizing absolute cache with
  | _ remaining ih =>
    unfold TopologyCache.copyPages copyPaged
    by_cases hend : remaining = 0
    · rw [if_pos hend, if_pos hend]
      exact ⟨cache, rfl, hmirrors⟩
    · rw [if_neg hend, if_neg hend]
      dsimp only
      set offset := absolute % kIoVectorPageSize with hoffset
      set count := min remaining (kIoVectorPageSize - offset) with hcount
      have hinside : offset < kIoVectorPageSize := Nat.mod_lt _ (by decide)
      have hpage : absolute / kIoVectorPageSize < 2 ^ Cache.kChunkNoBits := by
        rw [Nat.div_lt_iff_lt_mul (by decide)]
        have hpages : 2 ^ 64 < 2 ^ Cache.kChunkNoBits * kIoVectorPageSize := by decide
        exact Nat.lt_of_le_of_lt (Nat.le_trans (Nat.le_add_right _ _) hsmall) hpages
      obtain ⟨next, hread, hnext⟩ := hmirrors.readPage hpage offset count
      rw [hread, pageAnswer]
      by_cases hcomplete : (absolute / kIoVectorPageSize + 1) * kIoVectorPageSize ≤ file.length
      · obtain ⟨last, hrest, hlast⟩ := ih (remaining - count) (by omega) hnext
          (absolute + count) (by omega)
        refine ⟨last, ?_, hlast⟩
        rw [if_pos hcomplete, reject, if_neg (Nat.not_lt.mpr hcomplete)]
        simp only [hrest]
        cases copyPaged file (absolute + count) (remaining - count) <;> rfl
      · refine ⟨next, ?_, hnext⟩
        rw [if_neg hcomplete, reject, if_pos (Nat.lt_of_not_le hcomplete)]
        rfl

end TopologyCache

end SkipCell.IoIndex

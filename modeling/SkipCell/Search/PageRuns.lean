import SkipCell.Foundation.RangeWrites
import SkipCell.Sidecar.Index
import SkipCell.Storage.AlignedReader

/-! # Runs of pages

The pages that a round requests are read one by one, or, with page batching, in runs of
pages that follow each other. The reader has two files open, the Base file and the overlay
behind it, and refuses a request that is not in one of them.
-/

namespace SkipCell.Search

open Foundation Sidecar Storage

/-- `defaults::SECTOR_LEN`. -/
def sectorLen : Nat := 4096

/-- `io_page_run_t`. -/
structure PageRun where
  firstPage : Nat
  pageCount : Nat
  deriving DecidableEq

def PageRun.pages (run : PageRun) : List Nat := List.range' run.firstPage run.pageCount

/-- One turn of the loop of `make_io_page_runs`. -/
def extendRuns (runs : List PageRun) (page : Nat) : List PageRun :=
  match runs.getLast? with
  | none => [⟨page, 1⟩]
  | some last =>
    if last.pageCount < 2 ^ 32 - 1 ∧ last.firstPage ≤ 2 ^ 64 - 1 - last.pageCount ∧
        page = last.firstPage + last.pageCount then
      runs.dropLast ++ [{ last with pageCount := last.pageCount + 1 }]
    else runs ++ [⟨page, 1⟩]

def orderedPages (pageIds : List Nat) : List Nat := (pageIds.insertionSort (· ≤ ·)).dedup

def makeIoPageRuns (pageIds : List Nat) : List PageRun :=
  (orderedPages pageIds).foldl extendRuns []

example : makeIoPageRuns [9, 3, 4, 4, 8, 20, 6] = [⟨3, 2⟩, ⟨6, 1⟩, ⟨8, 2⟩, ⟨20, 1⟩] := by
  decide

theorem flatMap_extendRuns (runs : List PageRun) (page : Nat) :
    (extendRuns runs page).flatMap PageRun.pages = runs.flatMap PageRun.pages ++ [page] := by
  unfold extendRuns
  split
  next hnone =>
    obtain rfl := List.getLast?_eq_none_iff.mp hnone
    rfl
  next last hlast =>
    split
    next hextends =>
      obtain ⟨-, -, rfl⟩ := hextends
      have hruns : runs = runs.dropLast ++ [last] :=
        (List.dropLast_append_getLast? last hlast).symm
      conv => rhs; rw [hruns]
      simp [PageRun.pages, List.range'_concat]
    · simp [PageRun.pages]

theorem flatMap_foldl_extendRuns (pages : List Nat) (runs : List PageRun) :
    (pages.foldl extendRuns runs).flatMap PageRun.pages = runs.flatMap PageRun.pages ++ pages := by
  induction pages generalizing runs with
  | nil => simp
  | cons page pages ih =>
    rw [List.foldl_cons, ih, flatMap_extendRuns, List.append_assoc]
    rfl

theorem flatMap_makeIoPageRuns (pageIds : List Nat) :
    (makeIoPageRuns pageIds).flatMap PageRun.pages = orderedPages pageIds :=
  flatMap_foldl_extendRuns _ _

theorem mem_orderedPages {pageIds : List Nat} {page : Nat} :
    page ∈ orderedPages pageIds ↔ page ∈ pageIds := by
  rw [orderedPages, List.mem_dedup, List.mem_insertionSort]

theorem nodup_orderedPages (pageIds : List Nat) : (orderedPages pageIds).Nodup :=
  List.nodup_dedup _

/-! ## Maximal runs -/

/-- The runs ascend, and one that ends where another begins is as long as its counter admits. -/
structure MaximalRuns (runs : List PageRun) : Prop where
  counted : ∀ run ∈ runs, 0 < run.pageCount ∧ run.pageCount < 2 ^ 32
  apart : runs.Pairwise fun run later => run.firstPage + run.pageCount ≤ later.firstPage ∧
    (run.firstPage + run.pageCount = later.firstPage → run.pageCount = 2 ^ 32 - 1)

theorem MaximalRuns.extend {runs : List PageRun} (hruns : MaximalRuns runs) {page : Nat}
    (hpage : page < 2 ^ 64) (hlater : ∀ earlier ∈ runs.flatMap PageRun.pages, earlier < page) :
    MaximalRuns (extendRuns runs page) := by
  have hends : ∀ run ∈ runs, run.firstPage + run.pageCount ≤ page := by
    intro run hrun
    have hpositive := (hruns.counted run hrun).1
    have hlast := hlater (run.firstPage + (run.pageCount - 1)) (List.mem_flatMap.mpr
      ⟨run, hrun, List.mem_range'_1.mpr (by omega)⟩)
    omega
  unfold extendRuns
  split
  next => exact ⟨by simp, List.pairwise_singleton _ _⟩
  next last hlast =>
    have hsplit : runs = runs.dropLast ++ [last] :=
      (List.dropLast_append_getLast? last hlast).symm
    have hmem : last ∈ runs := List.mem_of_getLast? hlast
    have hlastCount := hruns.counted last hmem
    have hbefore := hruns.apart
    rw [hsplit, List.pairwise_append] at hbefore
    split
    next hextends =>
      refine ⟨fun run hrun => ?_, List.pairwise_append.mpr
        ⟨hbefore.1, List.pairwise_singleton _ _, fun run hrun later hlater => ?_⟩⟩
      · rcases List.mem_append.mp hrun with hrun | hrun
        · exact hruns.counted run (List.dropLast_subset _ hrun)
        · obtain rfl := List.mem_singleton.mp hrun
          exact ⟨Nat.succ_pos _, by dsimp only; omega⟩
      · obtain rfl := List.mem_singleton.mp hlater
        exact hbefore.2.2 run hrun last (List.mem_singleton_self last)
    next hfull =>
      refine ⟨fun run hrun => ?_, List.pairwise_append.mpr
        ⟨hruns.apart, List.pairwise_singleton _ _, fun run hrun later hlater => ?_⟩⟩
      · rcases List.mem_append.mp hrun with hrun | hrun
        · exact hruns.counted run hrun
        · obtain rfl := List.mem_singleton.mp hrun
          exact ⟨Nat.one_pos, by simp⟩
      · obtain rfl := List.mem_singleton.mp hlater
        refine ⟨hends run hrun, fun htouches => ?_⟩
        dsimp only at htouches
        have hlastEnd := hends last hmem
        rw [hsplit] at hrun
        rcases List.mem_append.mp hrun with hrun | hrun
        · -- an earlier run ends before the last one
          have hearlier := (hbefore.2.2 run hrun last (List.mem_singleton_self last)).1
          omega
        · obtain rfl := List.mem_singleton.mp hrun
          by_contra hshort
          exact hfull ⟨by omega, by omega, htouches.symm⟩

theorem MaximalRuns.foldl {pages : List Nat} {runs : List PageRun} (hruns : MaximalRuns runs)
    (hbound : ∀ page ∈ pages, page < 2 ^ 64)
    (hsorted : (runs.flatMap PageRun.pages ++ pages).Pairwise (· < ·)) :
    MaximalRuns (pages.foldl extendRuns runs) := by
  induction pages generalizing runs with
  | nil => exact hruns
  | cons page pages ih =>
    obtain ⟨hpage, hbound⟩ := List.forall_mem_cons.mp hbound
    refine ih (hruns.extend hpage fun earlier hearlier => ?_) hbound ?_
    · exact (List.pairwise_append.mp hsorted).2.2 earlier hearlier page List.mem_cons_self
    · rwa [flatMap_extendRuns, List.append_assoc]

/-- Two runs touch only where the first one has `2 ^ 32 - 1` pages. -/
theorem makeIoPageRuns_maximal {pageIds : List Nat} (hpages : ∀ page ∈ pageIds, page < 2 ^ 64) :
    (∀ page, (∃ run ∈ makeIoPageRuns pageIds, page ∈ run.pages) ↔ page ∈ pageIds) ∧
      MaximalRuns (makeIoPageRuns pageIds) := by
  refine ⟨fun page => ?_, MaximalRuns.foldl ⟨by simp, List.Pairwise.nil⟩ (fun page hpage => ?_) ?_⟩
  · rw [← mem_orderedPages, ← flatMap_makeIoPageRuns, List.mem_flatMap]
  · exact hpages page (mem_orderedPages.mp hpage)
  · have hle : (orderedPages pageIds).Pairwise (· ≤ ·) :=
      (List.pairwise_insertionSort _ pageIds).sublist (List.dedup_sublist _)
    exact (hle.and (nodup_orderedPages pageIds)).imp fun hpair =>
      Nat.lt_of_le_of_ne hpair.1 hpair.2

theorem makeIoPageRuns_maximal_twoRuns :
    (∀ page, (∃ run ∈ makeIoPageRuns [4, 3, 9], page ∈ run.pages) ↔ page ∈ [4, 3, 9]) ∧
      MaximalRuns (makeIoPageRuns [4, 3, 9]) :=
  makeIoPageRuns_maximal (by decide)

/-- `2 ^ 32` pages that follow each other are two runs, as the counter of a run ends before. -/
theorem makeIoPageRuns_touching : ¬ (makeIoPageRuns (List.range (2 ^ 32))).Pairwise
    fun run later => run.firstPage + run.pageCount ≠ later.firstPage := by
  have hruns : ∀ count < 2 ^ 32 - 1,
      (List.range (count + 1)).foldl extendRuns [] = [⟨0, count + 1⟩] := by
    intro count hcount
    induction count with
    | zero => rfl
    | succ count ih =>
      rw [List.range_succ, List.foldl_append, ih (by omega)]
      simp only [List.foldl_cons, List.foldl_nil, extendRuns, List.getLast?_singleton]
      rw [if_pos (by omega)]
      rfl
  have hordered : orderedPages (List.range (2 ^ 32)) = List.range (2 ^ 32) := by
    rw [orderedPages, List.pairwise_le_range.insertionSort_eq, List.nodup_range.dedup]
  have hlast := hruns (2 ^ 32 - 2) (by omega)
  rw [makeIoPageRuns, hordered, show 2 ^ 32 = 2 ^ 32 - 2 + 1 + 1 by omega, List.range_succ,
    List.foldl_append, hlast]
  decide

/-- A page that is requested, and the buffer it is wanted in. -/
structure PageRead where
  page : Nat
  buffer : Nat

def PageRead.request (read : PageRead) : AlignedRead := ⟨read.page * sectorLen, sectorLen, read.buffer⟩

/-- The requests of a round. A page is requested once. The buffers are frames of the cache
or, where the cache was passed by, pages of the query's scratch. -/
structure ReadRound where
  reads : List PageRead
  sectorScratch : Nat
  /-- Some reservation is in the state `BYPASS`. -/
  bypassed : Bool
  distinct : (reads.map (·.page)).Nodup
  buffers : reads.Pairwise fun first second =>
    first.buffer + sectorLen ≤ second.buffer ∨ second.buffer + sectorLen ≤ first.buffer
  scratch : bypassed = false → ∀ read ∈ reads, read.buffer + sectorLen ≤ sectorScratch ∨
    sectorScratch + reads.length * sectorLen ≤ read.buffer

/-- `find_request`, whose result the source reads unchecked. -/
def findRequest (requests : List AlignedRead) (page : Nat) : Except Error AlignedRead :=
  match requests.find? fun request => request.offset / sectorLen = page with
  | none => .error .outOfBounds
  | some request => .ok request

/-- The requests for the runs, and the copies that follow the read. -/
def coalesce (requests : List AlignedRead) (sectorScratch : Nat) :
    Nat → List PageRun → Except Error (List AlignedRead × List RangeCopy)
  | _, [] => .ok ([], [])
  | scratchPage, run :: runs =>
    if run.pageCount = 1 then do
      let request ← findRequest requests run.firstPage
      let (rest, copies) ← coalesce requests sectorScratch scratchPage runs
      .ok (request :: rest, copies)
    else do
      let rangeBuffer := sectorScratch + scratchPage * sectorLen
      let copied ← (List.range run.pageCount).mapM fun page => do
        let request ← findRequest requests (run.firstPage + page)
        .ok (⟨rangeBuffer + page * sectorLen, request.buf, sectorLen⟩ : RangeCopy)
      let (rest, copies) ← coalesce requests sectorScratch (scratchPage + run.pageCount) runs
      .ok (⟨run.firstPage * sectorLen, run.pageCount * sectorLen, rangeBuffer⟩ :: rest,
        copied ++ copies)

namespace ReadRound

variable (round : ReadRound)

def requests : List AlignedRead := round.reads.map PageRead.request

def canBatch (enableCellPageBatch : Bool) : Bool :=
  enableCellPageBatch && decide (1 < round.reads.length) && !round.bypassed

/-- What the reader is given, and what is copied afterwards. -/
def handed (enableCellPageBatch : Bool) : Except Error (List AlignedRead × List RangeCopy) :=
  if round.canBatch enableCellPageBatch then
    coalesce round.requests round.sectorScratch 0
      (makeIoPageRuns (round.requests.map fun request => request.offset / sectorLen))
  else .ok (round.requests, [])

end ReadRound

/-! ## What the runs need -/

section Coalesced

def pageRequest (bufferOf : Nat → Nat) (page : Nat) : AlignedRead :=
  ⟨page * sectorLen, sectorLen, bufferOf page⟩

/-- Neither the buffers of the pages nor the first `room` pages of the scratch overlap. -/
structure Buffers (bufferOf : Nat → Nat) (sectorScratch room : Nat) (pages : List Nat) :
    Prop where
  apart : ∀ first ∈ pages, ∀ second ∈ pages, first ≠ second →
    bufferOf first + sectorLen ≤ bufferOf second ∨ bufferOf second + sectorLen ≤ bufferOf first
  scratch : ∀ page ∈ pages, bufferOf page + sectorLen ≤ sectorScratch ∨
    sectorScratch + room * sectorLen ≤ bufferOf page

/-- The page is read into its buffer, or copied there from a range that is read. -/
def Served (bufferOf : Nat → Nat) (requests : List AlignedRead) (copies : List RangeCopy)
    (page : Nat) : Prop :=
  (pageRequest bufferOf page ∈ requests ∧ ∀ copy ∈ copies,
    copy.destination + sectorLen ≤ bufferOf page ∨ bufferOf page + sectorLen ≤ copy.destination) ∨
  ∃ request ∈ requests, ∃ place, request.offset + place * sectorLen = page * sectorLen ∧
    place * sectorLen + sectorLen ≤ request.len ∧
    ⟨request.buf + place * sectorLen, bufferOf page, sectorLen⟩ ∈ copies

/-- A request for a run of the pages, into pages of the scratch. -/
def Ranged (sectorScratch start stop : Nat) (pages : List Nat) (request : AlignedRead) : Prop :=
  sectorScratch + start * sectorLen ≤ request.buf ∧
    request.buf + request.len ≤ sectorScratch + stop * sectorLen ∧
    ∃ run : PageRun, request.offset = run.firstPage * sectorLen ∧
      request.len = run.pageCount * sectorLen ∧ ∀ page ∈ run.pages, page ∈ pages

/-- What `coalesce` makes of runs of some pages, with scratch pages from `start` on. -/
structure Coalesced (bufferOf : Nat → Nat) (sectorScratch start : Nat) (pages : List Nat)
    (requests : List AlignedRead) (copies : List RangeCopy) : Prop where
  handed : ∀ request ∈ requests, (∃ page ∈ pages, request = pageRequest bufferOf page) ∨
    Ranged sectorScratch start (start + pages.length) pages request
  handedApart : requests.Pairwise fun first second =>
    first.buf + first.len ≤ second.buf ∨ second.buf + second.len ≤ first.buf
  copied : ∀ copy ∈ copies, copy.length = sectorLen ∧
    (∃ page ∈ pages, copy.destination = bufferOf page) ∧
    sectorScratch + start * sectorLen ≤ copy.source ∧
    copy.source + sectorLen ≤ sectorScratch + (start + pages.length) * sectorLen
  copiedApart : copies.Pairwise fun first second =>
    first.destination + first.length ≤ second.destination ∨
      second.destination + second.length ≤ first.destination
  served : ∀ page ∈ pages, Served bufferOf requests copies page

variable {bufferOf : Nat → Nat} {sectorScratch start room page : Nat} {pages : List Nat}
  {requests : List AlignedRead} {copies : List RangeCopy}

theorem scratch_le {first second : Nat} (hle : first ≤ second) :
    sectorScratch + first * sectorLen ≤ sectorScratch + second * sectorLen :=
  Nat.add_le_add_left (Nat.mul_le_mul_right _ hle) _

theorem Coalesced.single (hrest : Coalesced bufferOf sectorScratch start pages requests copies)
    (hbuffers : Buffers bufferOf sectorScratch room (page :: pages)) (hnew : page ∉ pages)
    (hroom : start + pages.length ≤ room) :
    Coalesced bufferOf sectorScratch start (page :: pages)
      (pageRequest bufferOf page :: requests) copies := by
  have hother : ∀ other ∈ pages, bufferOf page + sectorLen ≤ bufferOf other ∨
      bufferOf other + sectorLen ≤ bufferOf page := fun other hmem =>
    hbuffers.apart page List.mem_cons_self other (List.mem_cons_of_mem _ hmem)
      fun hsame => hnew (hsame ▸ hmem)
  have hscratch := hbuffers.scratch page List.mem_cons_self
  constructor
  case handed =>
    intro request hrequest
    rcases List.mem_cons.mp hrequest with rfl | hlater
    · exact .inl ⟨page, List.mem_cons_self, rfl⟩
    · rcases hrest.handed request hlater with ⟨other, hmem, rfl⟩ | hranged
      · exact .inl ⟨other, List.mem_cons_of_mem _ hmem, rfl⟩
      · obtain ⟨hlow, hhigh, run, hoffset, hlen, hrun⟩ := hranged
        exact .inr ⟨hlow, hhigh.trans (scratch_le (by simp)), run, hoffset, hlen, fun _ hmem =>
          List.mem_cons_of_mem _ (hrun _ hmem)⟩
  case handedApart =>
    refine List.pairwise_cons.mpr ⟨fun request hrequest => ?_, hrest.handedApart⟩
    rcases hrest.handed request hrequest with ⟨other, hmem, rfl⟩ | ⟨hlow, hhigh, -⟩
    · exact hother other hmem
    · rcases hscratch with hbefore | hbehind
      · exact .inl ((hbefore.trans (Nat.le_add_right _ _)).trans hlow)
      · exact .inr ((hhigh.trans (scratch_le hroom)).trans hbehind)
  case copied =>
    intro copy hcopy
    obtain ⟨hlength, ⟨other, hmem, hdestination⟩, hlow, hhigh⟩ := hrest.copied copy hcopy
    exact ⟨hlength, ⟨other, List.mem_cons_of_mem _ hmem, hdestination⟩, hlow,
      hhigh.trans (scratch_le (by simp))⟩
  case copiedApart => exact hrest.copiedApart
  case served =>
    intro other hmem
    rcases List.mem_cons.mp hmem with rfl | hlater
    · refine .inl ⟨List.mem_cons_self, fun copy hcopy => ?_⟩
      obtain ⟨-, ⟨copied, hcopied, hdestination⟩, -⟩ := hrest.copied copy hcopy
      rw [hdestination]
      exact (hother copied hcopied).symm
    · rcases hrest.served other hlater with ⟨hdirect, hkept⟩ | ⟨request, hrequest, hcopied⟩
      · exact .inl ⟨List.mem_cons_of_mem _ hdirect, hkept⟩
      · exact .inr ⟨request, List.mem_cons_of_mem _ hrequest, hcopied⟩

def runCopies (bufferOf : Nat → Nat) (rangeBuffer : Nat) (run : PageRun) : List RangeCopy :=
  (List.range run.pageCount).map fun place =>
    ⟨rangeBuffer + place * sectorLen, bufferOf (run.firstPage + place), sectorLen⟩

theorem mem_pages {run : PageRun} {page : Nat} :
    page ∈ run.pages ↔ ∃ place < run.pageCount, page = run.firstPage + place := by
  simp only [PageRun.pages, List.mem_range'_1]
  constructor
  · exact fun ⟨hlow, hhigh⟩ => ⟨page - run.firstPage, by omega, by omega⟩
  · rintro ⟨place, hplace, rfl⟩
    omega

/-- A longer run is read into the scratch and copied. -/
theorem Coalesced.range {run : PageRun}
    (hrest : Coalesced bufferOf sectorScratch (start + run.pageCount) pages requests copies)
    (hbuffers : Buffers bufferOf sectorScratch room (run.pages ++ pages))
    (hnew : ∀ page ∈ run.pages, page ∉ pages)
    (hroom : start + run.pageCount + pages.length ≤ room) :
    Coalesced bufferOf sectorScratch start (run.pages ++ pages)
      (⟨run.firstPage * sectorLen, run.pageCount * sectorLen,
        sectorScratch + start * sectorLen⟩ :: requests)
      (runCopies bufferOf (sectorScratch + start * sectorLen) run ++ copies) := by
  have hlength : (run.pages ++ pages).length = run.pageCount + pages.length := by
    simp [PageRun.pages]
  have hother : ∀ first ∈ run.pages, ∀ second ∈ pages,
      bufferOf first + sectorLen ≤ bufferOf second ∨
        bufferOf second + sectorLen ≤ bufferOf first := fun first hfirst second hsecond =>
    hbuffers.apart first (List.mem_append_left _ hfirst) second (List.mem_append_right _ hsecond)
      fun hsame => hnew first hfirst (hsame ▸ hsecond)
  constructor
  case handed =>
    intro request hrequest
    rcases List.mem_cons.mp hrequest with rfl | hlater
    · refine .inr ⟨Nat.le_refl _, ?_, run, rfl, rfl, fun _ hmem => List.mem_append_left _ hmem⟩
      rw [hlength, ← Nat.add_assoc, Nat.add_mul, Nat.add_mul, ← Nat.add_assoc, ← Nat.add_assoc]
      exact Nat.le_add_right _ _
    · rcases hrest.handed request hlater with ⟨other, hmem, rfl⟩ | hranged
      · exact .inl ⟨other, List.mem_append_right _ hmem, rfl⟩
      · obtain ⟨hlow, hhigh, other, hoffset, hlen, hrun⟩ := hranged
        exact .inr ⟨(scratch_le (Nat.le_add_right _ _)).trans hlow,
          hhigh.trans (scratch_le (by omega)), other, hoffset, hlen, fun _ hmem =>
          List.mem_append_right _ (hrun _ hmem)⟩
  case handedApart =>
    refine List.pairwise_cons.mpr ⟨fun request hrequest => ?_, hrest.handedApart⟩
    rcases hrest.handed request hrequest with ⟨other, hmem, rfl⟩ | ⟨hlow, -⟩
    · have hscratch := hbuffers.scratch other (List.mem_append_right _ hmem)
      have hrun : sectorScratch + start * sectorLen + run.pageCount * sectorLen ≤
          sectorScratch + room * sectorLen := by
        rw [Nat.add_assoc, ← Nat.add_mul]
        exact scratch_le (by omega)
      rcases hscratch with hbefore | hbehind
      · exact .inr (hbefore.trans (Nat.le_add_right _ _))
      · exact .inl (hrun.trans hbehind)
    · rw [Nat.add_mul] at hlow
      exact .inl ((Nat.add_assoc _ _ _).trans_le hlow)
  case copied =>
    intro copy hcopy
    rw [hlength]
    rcases List.mem_append.mp hcopy with hown | hlater
    · obtain ⟨place, hplace, rfl⟩ := List.mem_map.mp hown
      rw [List.mem_range] at hplace
      refine ⟨rfl, ⟨run.firstPage + place,
        List.mem_append_left _ (mem_pages.mpr ⟨place, hplace, rfl⟩), rfl⟩, ?_, ?_⟩
      · exact Nat.le_add_right _ _
      · have hplaces : (place + 1) * sectorLen ≤ (run.pageCount + pages.length) * sectorLen :=
          Nat.mul_le_mul_right _ (by omega)
        rw [Nat.add_mul, Nat.one_mul] at hplaces
        rw [Nat.add_mul start]
        dsimp only
        omega
    · obtain ⟨hlen, ⟨other, hmem, hdestination⟩, hlow, hhigh⟩ := hrest.copied copy hlater
      exact ⟨hlen, ⟨other, List.mem_append_right _ hmem, hdestination⟩,
        (scratch_le (Nat.le_add_right _ _)).trans hlow, hhigh.trans (scratch_le (by omega))⟩
  case copiedApart =>
    refine List.pairwise_append.mpr ⟨?_, hrest.copiedApart, fun first hfirst second hsecond => ?_⟩
    · refine List.pairwise_map.mpr (List.nodup_range.imp_of_mem fun hfirst hsecond hne => ?_)
      rw [List.mem_range] at hfirst hsecond
      exact hbuffers.apart _ (List.mem_append_left _ (mem_pages.mpr ⟨_, hfirst, rfl⟩)) _
        (List.mem_append_left _ (mem_pages.mpr ⟨_, hsecond, rfl⟩))
        fun hsame => hne (Nat.add_left_cancel hsame)
    · obtain ⟨place, hplace, rfl⟩ := List.mem_map.mp hfirst
      rw [List.mem_range] at hplace
      obtain ⟨hlen, ⟨other, hmem, hdestination⟩, -⟩ := hrest.copied second hsecond
      rw [hlen, hdestination]
      exact hother _ (mem_pages.mpr ⟨place, hplace, rfl⟩) other hmem
  case served =>
    intro other hmem
    rcases List.mem_append.mp hmem with hown | hlater
    · obtain ⟨place, hplace, rfl⟩ := mem_pages.mp hown
      refine .inr ⟨_, List.mem_cons_self, place, ?_, ?_, List.mem_append_left _
        (List.mem_map.mpr ⟨place, List.mem_range.mpr hplace, rfl⟩)⟩
      · exact (Nat.add_mul _ _ _).symm
      · rw [← Nat.succ_mul]
        exact Nat.mul_le_mul_right _ hplace
    · rcases hrest.served other hlater with ⟨hdirect, hkept⟩ | hcopied
      · refine .inl ⟨List.mem_cons_of_mem _ hdirect, fun copy hcopy => ?_⟩
        rcases List.mem_append.mp hcopy with hown | hcopied
        · obtain ⟨place, hplace, rfl⟩ := List.mem_map.mp hown
          rw [List.mem_range] at hplace
          exact hother _ (mem_pages.mpr ⟨place, hplace, rfl⟩) other hlater
        · exact hkept copy hcopied
      · obtain ⟨request, hrequest, place, hoffset, hfits, hcopy⟩ := hcopied
        exact .inr ⟨request, List.mem_cons_of_mem _ hrequest, place, hoffset, hfits,
          List.mem_append_right _ hcopy⟩

theorem coalesce_eq {requested : List AlignedRead} {runs : List PageRun}
    (hfind : ∀ page ∈ runs.flatMap PageRun.pages,
      findRequest requested page = .ok (pageRequest bufferOf page))
    (hnodup : (runs.flatMap PageRun.pages).Nodup)
    (hbuffers : Buffers bufferOf sectorScratch room (runs.flatMap PageRun.pages))
    (hroom : start + (runs.flatMap PageRun.pages).length ≤ room) :
    ∃ requests copies, coalesce requested sectorScratch start runs = .ok (requests, copies) ∧
      Coalesced bufferOf sectorScratch start (runs.flatMap PageRun.pages) requests copies := by
  induction runs generalizing start with
  | nil =>
    exact ⟨[], [], rfl, nofun, List.Pairwise.nil, nofun, List.Pairwise.nil, nofun⟩
  | cons run runs ih =>
    simp only [List.flatMap_cons] at hfind hnodup hbuffers hroom ⊢
    obtain ⟨-, hnodup, hnew⟩ := List.nodup_append.mp hnodup
    have hlater : ∀ page ∈ runs.flatMap PageRun.pages,
        findRequest requested page = .ok (pageRequest bufferOf page) := fun page hpage =>
      hfind page (List.mem_append_right _ hpage)
    have hbuffersLater : Buffers bufferOf sectorScratch room (runs.flatMap PageRun.pages) :=
      ⟨fun first hfirst second hsecond => hbuffers.apart first (List.mem_append_right _ hfirst)
          second (List.mem_append_right _ hsecond),
        fun page hpage => hbuffers.scratch page (List.mem_append_right _ hpage)⟩
    have hfresh : ∀ page ∈ run.pages, page ∉ runs.flatMap PageRun.pages :=
      fun page hpage hagain => hnew page hpage page hagain rfl
    have hcount : run.pages.length = run.pageCount := List.length_range'
    rw [List.length_append, hcount] at hroom
    unfold coalesce
    split
    next hsingle =>
      have hpages : run.pages = [run.firstPage] := by rw [PageRun.pages, hsingle]; rfl
      rw [hpages] at hfind hbuffers hfresh ⊢
      have hspace : start + (runs.flatMap PageRun.pages).length ≤ room := by omega
      obtain ⟨requests, copies, hrest, hcoalesced⟩ := ih hlater hnodup hbuffersLater hspace
      have hfirst := hfind run.firstPage List.mem_cons_self
      refine ⟨_, _, bind_ok.mpr ⟨_, hfirst, bind_ok.mpr ⟨_, hrest, rfl⟩⟩, ?_⟩
      exact hcoalesced.single hbuffers (hfresh _ List.mem_cons_self) (by omega)
    next =>
      have hspace : start + run.pageCount + (runs.flatMap PageRun.pages).length ≤ room := by
        omega
      obtain ⟨requests, copies, hrest, hcoalesced⟩ := ih hlater hnodup hbuffersLater hspace
      have hcopied : (List.range run.pageCount).mapM (fun page => do
            let request ← findRequest requested (run.firstPage + page)
            .ok (⟨sectorScratch + start * sectorLen + page * sectorLen, request.buf,
              sectorLen⟩ : RangeCopy)) =
          .ok (runCopies bufferOf (sectorScratch + start * sectorLen) run) := by
        refine mapM_eq_ok.mpr (List.forall₂_map_right_iff.mpr (List.forall₂_same.mpr ?_))
        intro place hplace
        have hpage := hfind (run.firstPage + place) (List.mem_append_left _
          (mem_pages.mpr ⟨place, List.mem_range.mp hplace, rfl⟩))
        exact bind_ok.mpr ⟨_, hpage, rfl⟩
      exact ⟨_, _, bind_ok.mpr ⟨_, hcopied, bind_ok.mpr ⟨_, hrest, rfl⟩⟩,
        hcoalesced.range hbuffers hfresh (by omega)⟩

end Coalesced

/-! ## What a round hands to the reader -/

namespace ReadRound

variable {round : ReadRound} {read : PageRead}

def pages (round : ReadRound) : List Nat := round.reads.map (·.page)

def bufferOf (round : ReadRound) (page : Nat) : Nat :=
  ((round.reads.find? fun read => read.page = page).map (·.buffer)).getD 0

theorem find?_page {reads : List PageRead} (hdistinct : (reads.map (·.page)).Nodup)
    (hread : read ∈ reads) : (reads.find? fun other => other.page = read.page) = some read := by
  induction reads with
  | nil => cases hread
  | cons first reads ih =>
    obtain ⟨hnew, hdistinct⟩ := List.nodup_cons.mp hdistinct
    rcases List.mem_cons.mp hread with rfl | hlater
    · simp
    · have hother : first.page ≠ read.page := fun hsame =>
        hnew (List.mem_map.mpr ⟨read, hlater, hsame.symm⟩)
      rw [List.find?_cons_of_neg (by simpa using hother)]
      exact ih hdistinct hlater

theorem bufferOf_page (hread : read ∈ round.reads) : round.bufferOf read.page = read.buffer := by
  rw [bufferOf, find?_page round.distinct hread]
  rfl

theorem request_eq (hread : read ∈ round.reads) :
    read.request = pageRequest round.bufferOf read.page := by
  rw [pageRequest, bufferOf_page hread]
  rfl

theorem findRequest_page (hread : read ∈ round.reads) :
    findRequest round.requests read.page = .ok (pageRequest round.bufferOf read.page) := by
  have hpage : ∀ other : PageRead, other.page * sectorLen / sectorLen = other.page := fun other =>
    Nat.mul_div_cancel other.page (by decide)
  have hfound : (round.requests.find? fun request => request.offset / sectorLen = read.page) =
      some read.request := by
    rw [requests, List.find?_map]
    simp only [Function.comp_def, PageRead.request, hpage, find?_page round.distinct hread]
    rfl
  rw [findRequest, hfound, request_eq hread]

theorem bufferOf_apart {first second : Nat} (hfirst : first ∈ round.pages)
    (hsecond : second ∈ round.pages) (hne : first ≠ second) :
    round.bufferOf first + sectorLen ≤ round.bufferOf second ∨
      round.bufferOf second + sectorLen ≤ round.bufferOf first := by
  obtain ⟨read, hread, rfl⟩ := List.mem_map.mp hfirst
  obtain ⟨other, hother, rfl⟩ := List.mem_map.mp hsecond
  rw [bufferOf_page hread, bufferOf_page hother]
  have hsymm : Std.Symm fun first second : PageRead =>
      first.buffer + sectorLen ≤ second.buffer ∨ second.buffer + sectorLen ≤ first.buffer :=
    ⟨fun _ _ => Or.symm⟩
  exact round.buffers.forall hread hother fun hsame => hne (congrArg _ hsame)

theorem buffers_of (hbypassed : round.bypassed = false) {pages : List Nat}
    (hpages : ∀ page ∈ pages, page ∈ round.pages) :
    Buffers round.bufferOf round.sectorScratch round.reads.length pages where
  apart first hfirst second hsecond hne :=
    bufferOf_apart (hpages first hfirst) (hpages second hsecond) hne
  scratch page hpage := by
    obtain ⟨read, hread, rfl⟩ := List.mem_map.mp (hpages page hpage)
    rw [bufferOf_page hread]
    exact round.scratch hbypassed read hread

/-- What is handed over, with or without runs. -/
structure Handed (round : ReadRound) (requests : List AlignedRead) (copies : List RangeCopy) :
    Prop where
  handed : ∀ request ∈ requests,
    (∃ page ∈ round.pages, request = pageRequest round.bufferOf page) ∨
      ∃ run : PageRun, request.offset = run.firstPage * sectorLen ∧
        request.len = run.pageCount * sectorLen ∧ ∀ page ∈ run.pages, page ∈ round.pages
  apart : requests.Pairwise fun first second =>
    first.buf + first.len ≤ second.buf ∨ second.buf + second.len ≤ first.buf
  width : ∀ copy ∈ copies, copy.length = sectorLen
  copiesApart : copies.Pairwise fun first second =>
    first.destination + first.length ≤ second.destination ∨
      second.destination + second.length ≤ first.destination
  sources : ∀ first ∈ copies, ∀ second ∈ copies,
    first.destination + first.length ≤ second.source ∨
      second.source + second.length ≤ first.destination
  served : ∀ page ∈ round.pages, Served round.bufferOf requests copies page

theorem handed_requests : Handed round round.requests [] where
  handed request hrequest := by
    obtain ⟨read, hread, rfl⟩ := List.mem_map.mp hrequest
    exact .inl ⟨read.page, List.mem_map_of_mem hread, request_eq hread⟩
  apart := List.pairwise_map.mpr round.buffers
  width := nofun
  copiesApart := List.Pairwise.nil
  sources := nofun
  served page hpage := by
    obtain ⟨read, hread, rfl⟩ := List.mem_map.mp hpage
    exact .inl ⟨request_eq hread ▸ List.mem_map_of_mem hread, nofun⟩

theorem map_requests : (round.requests.map fun request => request.offset / sectorLen) =
    round.pages := by
  rw [requests, List.map_map]
  exact List.map_congr_left fun read _ => Nat.mul_div_cancel read.page (by decide)

theorem length_orderedPages (pageIds : List Nat) :
    (orderedPages pageIds).length ≤ pageIds.length := by
  have hsublist := (List.dedup_sublist (pageIds.insertionSort (· ≤ ·))).length_le
  rwa [List.length_insertionSort] at hsublist

theorem handed_runs (hbypassed : round.bypassed = false) :
    ∃ requests copies, coalesce round.requests round.sectorScratch 0
        (makeIoPageRuns (round.requests.map fun request => request.offset / sectorLen)) =
          .ok (requests, copies) ∧ Handed round requests copies := by
  have hmem : ∀ page, page ∈ orderedPages round.pages ↔ page ∈ round.pages := fun _ =>
    mem_orderedPages
  have hbuffers := buffers_of hbypassed fun page => (hmem page).mp
  have hroom : (orderedPages round.pages).length ≤ round.reads.length := by
    have hordered := length_orderedPages round.pages
    rwa [pages, List.length_map] at hordered
  have hfind : ∀ page ∈ orderedPages round.pages,
      findRequest round.requests page = .ok (pageRequest round.bufferOf page) := by
    intro page hpage
    obtain ⟨read, hread, rfl⟩ := List.mem_map.mp ((hmem page).mp hpage)
    exact findRequest_page hread
  have hnodup := nodup_orderedPages round.pages
  have hspace := (Nat.zero_add _).trans_le hroom
  rw [← flatMap_makeIoPageRuns round.pages] at hmem hbuffers hroom hfind hnodup hspace
  obtain ⟨requests, copies, hcoalesce, hcoalesced⟩ := coalesce_eq hfind hnodup hbuffers hspace
  refine ⟨requests, copies, by rw [map_requests, hcoalesce], ?_⟩
  constructor
  case handed =>
    intro request hrequest
    rcases hcoalesced.handed request hrequest with ⟨page, hpage, rfl⟩ | ⟨-, -, run, hrun⟩
    · exact .inl ⟨page, (hmem page).mp hpage, rfl⟩
    · exact .inr ⟨run, hrun.1, hrun.2.1, fun page hpage => (hmem page).mp (hrun.2.2 page hpage)⟩
  case apart => exact hcoalesced.handedApart
  case width => exact fun copy hcopy => (hcoalesced.copied copy hcopy).1
  case copiesApart => exact hcoalesced.copiedApart
  case sources =>
    intro first hfirst second hsecond
    obtain ⟨hwidth, ⟨page, hpage, hdestination⟩, -⟩ := hcoalesced.copied first hfirst
    obtain ⟨hlength, -, hlow, hhigh⟩ := hcoalesced.copied second hsecond
    rw [Nat.zero_mul, Nat.add_zero] at hlow
    rw [Nat.zero_add] at hhigh
    rw [hwidth, hlength, hdestination]
    rcases hbuffers.scratch page hpage with hbefore | hbehind
    · exact .inl (hbefore.trans hlow)
    · exact .inr ((hhigh.trans (scratch_le hroom)).trans hbehind)
  case served => exact fun page hpage => hcoalesced.served page ((hmem page).mpr hpage)

def InFiles (basePages : Nat) (requests : List AlignedRead) : Prop :=
  ∀ request ∈ requests, request.offset + request.len ≤ basePages * sectorLen ∨
    basePages * sectorLen ≤ request.offset

theorem page_inFile (basePages page : Nat) : page * sectorLen + sectorLen ≤ basePages * sectorLen ∨
    basePages * sectorLen ≤ page * sectorLen := by
  rw [← Nat.succ_mul]
  rcases Nat.lt_or_ge page basePages with hbase | hoverlay
  · exact .inl (Nat.mul_le_mul_right _ hbase)
  · exact .inr (Nat.mul_le_mul_right _ hoverlay)

theorem inFiles_requests (basePages : Nat) : InFiles basePages round.requests := by
  intro request hrequest
  obtain ⟨read, -, rfl⟩ := List.mem_map.mp hrequest
  exact page_inFile basePages read.page

/-- The last page of the Base file and the first of the overlay are not both requested. -/
def Separate (round : ReadRound) (basePages : Nat) : Prop :=
  ∀ page, page + 1 = basePages → page ∈ round.pages → basePages ∉ round.pages

theorem Handed.inFiles {requests : List AlignedRead} {copies : List RangeCopy} {basePages : Nat}
    (hhanded : Handed round requests copies) (hseparate : round.Separate basePages) :
    InFiles basePages requests := by
  intro request hrequest
  rcases hhanded.handed request hrequest with ⟨page, -, rfl⟩ | ⟨run, hoffset, hlen, hpages⟩
  · exact page_inFile basePages page
  · rw [hoffset, hlen, ← Nat.add_mul]
    rcases Nat.lt_or_ge run.firstPage basePages with hbase | hoverlay
    · rcases Nat.lt_or_ge basePages (run.firstPage + run.pageCount) with hover | hinside
      · have hlast : basePages - 1 ∈ round.pages :=
          hpages _ (mem_pages.mpr ⟨basePages - 1 - run.firstPage, by omega, by omega⟩)
        have hfirst : basePages ∈ round.pages :=
          hpages _ (mem_pages.mpr ⟨basePages - run.firstPage, by omega, by omega⟩)
        exact absurd hfirst (hseparate (basePages - 1) (by omega) hlast)
      · exact .inl (Nat.mul_le_mul_right _ hinside)
    · exact .inr (Nat.mul_le_mul_right _ hoverlay)

end ReadRound

/-! ## Bytes -/

section Bytes

variable (contents : Descriptor → Nat → UInt8)

def pageByte (basePages page offset : Nat) : UInt8 :=
  if page < basePages then contents .base (page * sectorLen + offset)
  else contents .overlay ((page - basePages) * sectorLen + offset)

/-- The byte at a position of the Base file with the overlay behind it. -/
def virtualByte (virtualOffset position : Nat) : UInt8 :=
  if position < virtualOffset then contents .base position
  else contents .overlay (position - virtualOffset)

def operationWrite (operation : Descriptor × AlignedRead) : RangeWrite UInt8 where
  start := operation.2.buf
  length := operation.2.len
  content offset := contents operation.1 (operation.2.offset + offset)

/-- The memory after all operations, in the order in which they happen, and the copies. -/
def afterRead (operations : List IoOperation) (copies : List RangeCopy) (memory : Nat → UInt8) :
    Nat → UInt8 :=
  copies.foldl RangeCopy.apply
    ((operations.map fun operation =>
      operationWrite contents (operation.file, operation.request)).foldl RangeWrite.apply memory)

variable {contents} {basePages : Nat}

theorem virtualByte_page {page offset : Nat} (hoffset : offset < sectorLen) :
    virtualByte contents (basePages * sectorLen) (page * sectorLen + offset) =
      pageByte contents basePages page offset := by
  unfold virtualByte pageByte
  have hfile := ReadRound.page_inFile basePages page
  by_cases hbase : page < basePages
  · have hinside : page * sectorLen + sectorLen ≤ basePages * sectorLen := by
      rw [← Nat.succ_mul]
      exact Nat.mul_le_mul_right _ hbase
    rw [if_pos hbase, if_pos (by omega)]
  · have hbehind : basePages * sectorLen ≤ page * sectorLen :=
      Nat.mul_le_mul_right _ (Nat.not_lt.mp hbase)
    rw [if_neg hbase, if_neg (by omega), Nat.sub_mul]
    congr 1
    omega

def overlayReader (basePages : Nat) : AlignedFileReader where
  overlayVirtualOffset := some (basePages * sectorLen)

variable {requests : List AlignedRead} {operations : List IoOperation} {memory : Nat → UInt8}

/-- A request reads what stands at its place, whichever of the operations comes first. -/
theorem read_byte (contents : Descriptor → Nat → UInt8) (memory : Nat → UInt8)
    {request : AlignedRead} {offset : Nat}
    (hoperations : (operations.map fun operation => (operation.file, operation.request)).Perm
      (requests.map (overlayReader basePages).routed))
    (happart : requests.Pairwise fun first second =>
      first.buf + first.len ≤ second.buf ∨ second.buf + second.len ≤ first.buf)
    (hfiles : ReadRound.InFiles basePages requests) (hrequest : request ∈ requests)
    (hoffset : offset < request.len) :
    (operations.map fun operation =>
        operationWrite contents (operation.file, operation.request)).foldl RangeWrite.apply memory
        (request.buf + offset) =
      virtualByte contents (basePages * sectorLen) (request.offset + offset) := by
  have hrouted : ∀ request : AlignedRead,
      ((overlayReader basePages).routed request).2.buf = request.buf ∧
        ((overlayReader basePages).routed request).2.len = request.len := by
    intro request
    unfold AlignedFileReader.routed overlayReader
    dsimp only
    split <;> exact ⟨rfl, rfl⟩
  have hwrites : (operations.map fun operation =>
      operationWrite contents (operation.file, operation.request)).Perm
        (requests.map fun request =>
          operationWrite contents ((overlayReader basePages).routed request)) := by
    have hmapped := hoperations.map (operationWrite contents)
    rwa [List.map_map, List.map_map] at hmapped
  have hpairwise : (operations.map fun operation =>
      operationWrite contents (operation.file, operation.request)).Pairwise RangeWrite.Apart := by
    refine (hwrites.pairwise_iff RangeWrite.Apart.symm).mpr (List.pairwise_map.mpr ?_)
    refine happart.imp fun {first second} hapart => ?_
    simpa [RangeWrite.Apart, operationWrite, hrouted] using hapart
  have hmem := hwrites.mem_iff.mpr (List.mem_map_of_mem hrequest)
  have hbound : offset <
      (operationWrite contents ((overlayReader basePages).routed request)).length := by
    simpa [operationWrite, hrouted] using hoffset
  have hread := RangeWrite.foldl_of_mem memory hpairwise hmem hbound
  simp only [operationWrite, hrouted] at hread ⊢
  rw [hread]
  unfold virtualByte AlignedFileReader.routed overlayReader
  dsimp only
  rcases hfiles request hrequest with hbase | hoverlay
  · rw [if_neg (by omega), if_pos (by omega)]
  · rw [if_pos hoverlay, if_neg (by omega)]
    dsimp only
    congr 1
    omega

theorem ReadRound.Handed.afterRead_page {round : ReadRound} {copies : List RangeCopy}
    {page offset : Nat} (hhanded : round.Handed requests copies)
    (hoperations : (operations.map fun operation => (operation.file, operation.request)).Perm
      (requests.map (overlayReader basePages).routed))
    (hfiles : ReadRound.InFiles basePages requests) (hpage : page ∈ round.pages)
    (hoffset : offset < sectorLen) :
    afterRead contents operations copies memory (round.bufferOf page + offset) =
      pageByte contents basePages page offset := by
  rw [← virtualByte_page hoffset]
  rcases hhanded.served page hpage with ⟨hdirect, hkept⟩ | ⟨request, hrequest, place, hserved⟩
  · have houtside : ∀ copy ∈ copies, ¬ (copy.destination ≤ round.bufferOf page + offset ∧
        round.bufferOf page + offset < copy.destination + copy.length) := by
      intro copy hcopy
      rw [hhanded.width copy hcopy]
      rcases hkept copy hcopy with hbefore | hbehind <;> omega
    rw [afterRead, RangeCopy.foldl_outside houtside]
    exact read_byte contents memory hoperations hhanded.apart hfiles hdirect hoffset
  · obtain ⟨hplace, hfits, hcopy⟩ := hserved
    have hcopied := RangeCopy.foldl_of_mem ((operations.map fun operation =>
      operationWrite contents (operation.file, operation.request)).foldl RangeWrite.apply memory)
      hhanded.sources hhanded.copiesApart hcopy hoffset
    have hinside : place * sectorLen + offset < request.len := by omega
    have hread := read_byte contents memory hoperations hhanded.apart hfiles hrequest hinside
    rw [afterRead, hcopied, Nat.add_assoc, hread, ← Nat.add_assoc, hplace]

end Bytes

/-! ## Configuration -/

/-- The fields by which online adaptation is accepted. -/
structure OnlineConfig where
  enablePowerann : Bool := false
  enableTopologyVector : Bool := false
  enableCellLayout : Bool := false
  enableCellPageBatch : Bool := false
  enableCellPqTraversal : Bool := false
  enableOnlineCellAdaptation : Bool := false
  enableLruCache : Bool := false
  enableIoUring : Bool := false
  enableNodePrefetch : Bool := false
  enableCellPrefetch : Bool := false
  enableGatewayPrefetch : Bool := false

def checkOnlineAdaptation (config : OnlineConfig) : Except String Unit := do
  reject (config.enableCellPqTraversal = true ∧ config.enableOnlineCellAdaptation = true)
    "Cell-PQ traversal and online Cell adaptation are isolated stages"
  reject (config.enableOnlineCellAdaptation = true ∧
      (config.enablePowerann = false ∨ config.enableTopologyVector = false ∨
        config.enableCellLayout = false ∨ config.enableLruCache = false ∨
        config.enableCellPageBatch = true ∨ config.enableIoUring = true ∨
        config.enableNodePrefetch = true ∨ config.enableCellPrefetch = true ∨
        config.enableGatewayPrefetch = true))
    "Online Cell adaptation requires isolated Cell-4K plus LRU/libaio execution"

theorem not_batched {config : OnlineConfig} (honline : config.enableOnlineCellAdaptation = true)
    (haccepted : checkOnlineAdaptation config = .ok ()) : config.enableCellPageBatch = false := by
  simp only [checkOnlineAdaptation, bind_ok, reject_ok, honline, true_and, not_or] at haccepted
  obtain ⟨_, -, -, -, -, -, hbatch, -⟩ := haccepted
  exact Bool.not_eq_true _ ▸ hbatch

theorem ReadRound.exists_handed (round : ReadRound) (enableCellPageBatch : Bool) (basePages : Nat)
    (hseparate : round.canBatch enableCellPageBatch = false ∨ round.Separate basePages) :
    ∃ requests copies, round.handed enableCellPageBatch = .ok (requests, copies) ∧
      round.Handed requests copies ∧ InFiles basePages requests := by
  by_cases hbatch : round.canBatch enableCellPageBatch = true
  · have hbypassed : round.bypassed = false := by
      simp only [canBatch, Bool.and_eq_true, Bool.not_eq_true'] at hbatch
      exact hbatch.2
    obtain ⟨requests, copies, hcoalesce, hhanded⟩ := handed_runs hbypassed
    refine ⟨requests, copies, ?_, hhanded, hhanded.inFiles (hseparate.resolve_left ?_)⟩
    · rw [handed, if_pos hbatch, hcoalesce]
    · simp [hbatch]
  · refine ⟨round.requests, [], ?_, handed_requests, inFiles_requests basePages⟩
    rw [handed, if_neg hbatch]

/-- In a configuration that is accepted for an overlay, where nothing is batched, and in any
round without both pages at the boundary: each request is in one file, the reader refuses
none, and every buffer has the bytes of its page, in whatever order the kernel reads. -/
theorem handed_separate (config : OnlineConfig) (basePages : Nat) (round : ReadRound)
    (contents : Descriptor → Nat → UInt8)
    (hround : (config.enableOnlineCellAdaptation = true ∧ checkOnlineAdaptation config = .ok ()) ∨
      round.canBatch config.enableCellPageBatch = false ∨ round.Separate basePages) :
    ∃ requests copies batches,
      round.handed config.enableCellPageBatch = .ok (requests, copies) ∧
      ReadRound.InFiles basePages requests ∧
      (overlayReader basePages).batches requests = .ok batches ∧
      (∀ kernel context, ((overlayReader basePages).read kernel requests context).2 = .ok () ↔
        CountsMatch kernel 0 batches) ∧
      ∀ operations token memory, operations.Perm (operationsOf batches token) →
        ∀ read ∈ round.reads, ∀ offset < sectorLen,
          afterRead contents operations copies memory (read.buffer + offset) =
            pageByte contents basePages read.page offset := by
  have hseparate : round.canBatch config.enableCellPageBatch = false ∨
      round.Separate basePages := by
    rcases hround with ⟨honline, haccepted⟩ | hround
    · refine .inl ?_
      rw [ReadRound.canBatch, not_batched honline haccepted]
      rfl
    · exact hround
  obtain ⟨requests, copies, hhanded, hspec, hfiles⟩ :=
    round.exists_handed config.enableCellPageBatch basePages hseparate
  obtain ⟨files, hroute⟩ := AlignedFileReader.exists_route hfiles
  have hbatches : (overlayReader basePages).batches requests =
      .ok (batchesOf .base files.1 ++ batchesOf .overlay files.2) :=
    bind_ok.mpr ⟨(), rfl, bind_ok.mpr ⟨files, hroute, rfl⟩⟩
  refine ⟨requests, copies, _, hhanded, hfiles, hbatches, fun kernel context =>
    AlignedFileReader.read_ok hbatches, ?_⟩
  intro operations token memory hperm read hread offset hoffset
  have hoperations := (hperm.map fun operation => (operation.file, operation.request)).trans
    (AlignedFileReader.operations_perm hbatches token)
  rw [← ReadRound.bufferOf_page hread]
  exact hspec.afterRead_page hoperations hfiles (List.mem_map_of_mem hread) hoffset

/-- Two pages, the last of a Base file of two pages and the first of its overlay. -/
def boundaryRound : ReadRound where
  reads := [⟨1, 0⟩, ⟨2, 4096⟩]
  sectorScratch := 8192
  bypassed := false
  distinct := by decide
  buffers := by decide
  scratch := by decide

/-- With page batching both are one request, and the reader refuses it. -/
theorem handed_refuted : ∃ requests copies,
    boundaryRound.handed true = .ok (requests, copies) ∧ requests = [⟨4096, 8192, 8192⟩] ∧
      ¬ ReadRound.InFiles 2 requests ∧
      (overlayReader 2).batches requests = .error "Aligned read crosses the Base/overlay boundary" := by
  refine ⟨[⟨4096, 8192, 8192⟩], [⟨8192, 0, 4096⟩, ⟨12288, 4096, 4096⟩], by decide +kernel, rfl,
    fun hfiles => ?_, by decide +kernel⟩
  have hinside := hfiles ⟨4096, 8192, 8192⟩ List.mem_cons_self
  simp [sectorLen] at hinside

/-- Without page batching they are read one by one. -/
theorem handed_separate_boundary :
    ∃ requests copies batches, boundaryRound.handed false = .ok (requests, copies) ∧
      (overlayReader 2).batches requests = .ok batches := by
  obtain ⟨requests, copies, batches, hhanded, -, hbatches, -⟩ := handed_separate
    { enablePowerann := true, enableTopologyVector := true, enableCellLayout := true
      enableOnlineCellAdaptation := true, enableLruCache := true } 2 boundaryRound
    (fun _ _ => 0) (.inl ⟨rfl, by decide⟩)
  exact ⟨requests, copies, batches, hhanded, hbatches⟩

end SkipCell.Search

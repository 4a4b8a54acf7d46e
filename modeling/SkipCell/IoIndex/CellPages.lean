import SkipCell.Foundation.KeyRuns
import SkipCell.IoIndex.Pages
import SkipCell.Sidecar.Layout

/-! # Vectors placed Cell by Cell

Each Cell starts on a page of its own, so the page ranges of the Cells follow one
another, and every node is on a page of its own Cell.
-/

namespace SkipCell.IoIndex

open Foundation Sidecar

/-! ## The order of the nodes -/

theorem bestCandidate_mem {score : UInt32 → Nat} {candidates : List UInt32} {first : UInt32}
    (hfirst : first ∈ candidates) : bestCandidate score candidates first ∈ candidates := by
  refine List.foldlRecOn (motive := fun (best : UInt32 × Nat) => best.1 ∈ candidates) _ _
    hfirst ?_
  rintro ⟨best, bestScore⟩ hbest candidate hcandidate
  dsimp only
  split
  next => exact hcandidate
  next => exact hbest

theorem orderRemaining_perm (hasEdge : UInt32 → UInt32 → Bool) (vectorsPerPage : Nat)
    {count : Nat} {remaining ordered : List UInt32} (hcount : remaining.length ≤ count) :
    (orderRemaining hasEdge vectorsPerPage count remaining ordered).Perm
      (ordered ++ remaining) := by
  induction count generalizing remaining ordered with
  | zero =>
    obtain rfl := List.eq_nil_of_length_eq_zero (Nat.le_zero.mp hcount)
    rw [List.append_nil]
    rfl
  | succ count ih =>
    cases remaining with
    | nil =>
      rw [List.append_nil]
      rfl
    | cons first remaining =>
      rw [orderRemaining]
      set best := bestCandidate (affinity hasEdge
        (ordered.drop (ordered.length - vectorsPerPage))) (first :: remaining) first
      have hbest : best ∈ first :: remaining := bestCandidate_mem List.mem_cons_self
      have herased := List.length_erase_of_mem hbest
      rw [List.length_cons] at hcount herased
      refine (ih (by omega)).trans ?_
      rw [List.append_assoc]
      exact ((List.perm_cons_erase hbest).symm).append_left ordered

theorem orderCell_perm (hasEdge : UInt32 → UInt32 → Bool) (vectorsPerPage : Nat)
    (nodes : List UInt32) : (orderCell hasEdge vectorsPerPage nodes).Perm nodes :=
  (orderRemaining_perm hasEdge vectorsPerPage (Nat.le_refl _)).trans (List.mergeSort_perm _ _)

theorem map_of_perm_constant {α β : Type} {project : α → β} {values others : List α} {common : β}
    (hperm : values.Perm others) (hcommon : ∀ value ∈ others, project value = common) :
    values.map project = others.map project := by
  have hconstant : ∀ list : List α, (∀ value ∈ list, project value = common) →
      list.map project = List.replicate list.length common := by
    intro list hlist
    rw [List.map_congr_left hlist, List.map_const']
  rw [hconstant others hcommon, hconstant values, hperm.length_eq]
  exact fun value hvalue => hcommon value (hperm.mem_iff.mp hvalue)

variable {index : Index} {vectors : List (List UInt8)}
    {width vectorsPerPage vectorBytes cellId : Nat}

theorem cellOf_of_isChain {first : UInt32} {nodes : List UInt32}
    (hchain : (first :: nodes).IsChain fun left right => cellOf index left == cellOf index right) :
    ∀ node ∈ first :: nodes, cellOf index node = cellOf index first :=
  key_eq_of_isChain (hchain.imp fun _ _ => eq_of_beq)

theorem weightedOrder_within (index : Index) (hasEdge : UInt32 → UInt32 → Bool)
    (vectorsPerPage : Nat) (order : List UInt32) :
    (weightedOrder index hasEdge vectorsPerPage order).Perm order ∧
      (weightedOrder index hasEdge vectorsPerPage order).map (cellOf index) =
        order.map (cellOf index) := by
  set groups := order.splitBy fun left right => cellOf index left == cellOf index right
    with hgroups
  have hsame : ∀ group ∈ groups, (orderCell hasEdge vectorsPerPage group).map (cellOf index) =
      group.map (cellOf index) := by
    intro group hgroup
    have hperm := orderCell_perm hasEdge vectorsPerPage group
    cases group with
    | nil => rw [List.Perm.eq_nil hperm]
    | cons first nodes =>
      exact map_of_perm_constant hperm
        (cellOf_of_isChain (List.isChain_of_mem_splitBy hgroup))
  have hflatten : groups.flatten = order := List.flatten_splitBy _ _
  constructor
  · have hperm := List.Perm.flatMap_left groups
      fun group _ => orderCell_perm hasEdge vectorsPerPage group
    rw [List.flatMap_id', hflatten] at hperm
    exact hperm
  · calc (groups.flatMap (orderCell hasEdge vectorsPerPage)).map (cellOf index)
        = (groups.map (List.map (cellOf index))).flatten := by
          rw [List.map_flatMap, List.flatMap_def, List.map_congr_left hsame]
      _ = groups.flatten.map (cellOf index) := List.map_flatten.symm
      _ = order.map (cellOf index) := by rw [hflatten]

/-! ## Placing one Cell -/

def vectorAt (vectors : List (List UInt8)) (node : Nat) : List UInt8 := vectors.getD node []

theorem length_vectorAt (hwidth : ∀ vector ∈ vectors, vector.length = width) {node : Nat}
    (hnode : node < vectors.length) : (vectorAt vectors node).length = width := by
  rw [vectorAt, List.getD_eq_getElem _ _ hnode]
  exact hwidth _ (List.getElem_mem hnode)

theorem placeNodes_eq_ok (hwidth : ∀ vector ∈ vectors, vector.length = width) {nodes : List UInt32}
    (hbound : ∀ node ∈ nodes, node.toNat < vectors.length) {writer next : PageWriter}
    (hplaced : nodes.foldlM (placeNode vectors.flatten width vectorsPerPage) writer = .ok next) :
    next = (nodes.map UInt32.toNat).foldl (fun writer node =>
      writer.appendVector width vectorsPerPage node (vectorAt vectors node)) writer := by
  induction nodes generalizing writer with
  | nil => exact (Except.ok.inj hplaced).symm
  | cons node nodes ih =>
    obtain ⟨hnode, hrest⟩ := List.forall_mem_cons.mp hbound
    rw [List.foldlM_cons] at hplaced
    obtain ⟨placed, hfirst, hothers⟩ := bind_ok.mp hplaced
    simp only [placeNode, bind_ok, reject_ok] at hfirst
    obtain ⟨-, -, hfirst⟩ := hfirst
    have hrow : vectors[node.toNat]? = some (vectorAt vectors node.toNat) := by
      rw [vectorAt, List.getD_eq_getElem _ _ hnode]
      exact List.getElem?_eq_getElem hnode
    rw [subspan_flatten hwidth hrow] at hfirst
    obtain rfl := Except.ok.inj hfirst
    exact ih hrest hothers

/-- What the range of a Cell promises in a layout. -/
structure RangeFits (layout : VectorLayout) (range : CellPageRange) : Prop where
  nonempty : range.nodeCount ≠ 0
  pages : range.pageCount ≠ 0
  chunk : range.chunkSizeBytes.toNat ∈ chunkClasses
  page : layout ≠ .cellChunks → range.chunkSizeBytes.toNat = kIoVectorPageSize
  whole : layout = .cellChunks →
    range.pageCount.toNat % (range.chunkSizeBytes.toNat / kIoVectorPageSize) = 0

theorem le_roundUp (pages : Nat) {chunk : Nat} (hchunk : 0 < chunk) :
    pages ≤ (pages + chunk - 1) / chunk * chunk := by
  have hsplit := Nat.div_add_mod' (pages + chunk - 1) chunk
  have hrest := Nat.mod_lt (pages + chunk - 1) hchunk
  omega

theorem chunkBytes_mem (cellVectorBytes : Nat) {classes : List Nat} (hclasses : classes ≠ []) :
    chunkBytes classes cellVectorBytes ∈ classes := by
  induction classes with
  | nil => exact absurd rfl hclasses
  | cons size sizes ih =>
    cases sizes with
    | nil => exact List.mem_singleton_self _
    | cons next sizes =>
      rw [chunkBytes]
      split
      next => exact List.mem_cons_of_mem _ (ih (List.cons_ne_nil _ _))
      next => exact List.mem_cons_self

structure CellAdded (index : Index) (layout : VectorLayout) (vectorBytes vectorsPerPage cellId : Nat)
    (cell : Cell) (vectors : List (List UInt8)) (slots : List PlacedSlot) (placement next : Placement)
    (nodes : List UInt32) (range : CellPageRange) (added : List PlacedSlot) : Prop where
  holds : Holds vectorBytes vectorsPerPage (vectorAt vectors) next.writer (slots ++ added)
  empty : next.writer.outputSlot = 0
  length : next.writer.locations.length = placement.writer.locations.length
  taken : placement.remaining = nodes ++ next.remaining
  inCell : ∀ node ∈ nodes, (cellOf index node).map UInt32.toNat = some cellId
  same : added.map PlacedSlot.node = nodes.map UInt32.toNat
  pages : ∀ slot ∈ added, placement.writer.pagesWritten ≤ slot.page ∧
    slot.page < next.writer.pagesWritten
  offsets : ∀ (index : Nat) (slot : PlacedSlot), added[index]? = some slot →
    slot.offset = index % vectorsPerPage * vectorBytes
  ranges : next.cellRanges = placement.cellRanges ++ [range]
  firstPage : range.firstPage = .ofNat placement.writer.pagesWritten
  pageCount : next.writer.pagesWritten =
    placement.writer.pagesWritten + range.pageCount.toNat
  nodeCount : range.nodeCount.toNat = nodes.length % 2 ^ 32
  declared : range.nodeCount.toNat = cell.nodeCount.toNat
  fits : nodes.length < 2 ^ 32 → RangeFits layout range

/-- The steps of a placement: the nodes of the Cell, the last page of them, and the
padding of the last chunk. -/
theorem placeCell_eq_ok {layout : VectorLayout} {spool : List UInt8} {cell : Cell}
    {placement next : Placement}
    (hplaced : placeCell index layout spool vectorBytes vectorsPerPage cellId cell placement =
      .ok next) :
    ∃ nodes appended padding padded chunkSize,
      placement.remaining = nodes ++ next.remaining ∧
      (∀ node ∈ nodes, (cellOf index node).map UInt32.toNat = some cellId) ∧
      nodes.length % 2 ^ 32 = cell.nodeCount.toNat ∧
      nodes.foldlM (placeNode spool vectorBytes vectorsPerPage) placement.writer = .ok appended ∧
      PageWriter.appendPadding padding appended.flushPage = .ok padded ∧
      chunkSize ∈ chunkClasses ∧
      (layout ≠ .cellChunks → padding = 0 ∧ chunkSize = kIoVectorPageSize) ∧
      (layout = .cellChunks →
        let usefulPages := appended.flushPage.pagesWritten - placement.writer.pagesWritten
        let pagesPerChunk := chunkSize / kIoVectorPageSize
        padding = (usefulPages + pagesPerChunk - 1) / pagesPerChunk * pagesPerChunk -
          usefulPages) ∧
      (let pageCount := padded.pagesWritten - placement.writer.pagesWritten
      pageCount ≠ 0 ∧ pageCount < 2 ^ 32 ∧
      next.writer = padded ∧
      next.cellRanges = placement.cellRanges ++
        [⟨.ofNat placement.writer.pagesWritten, .ofNat pageCount, .ofNat nodes.length,
          .ofNat chunkSize⟩]) := by
  have hcell : ∀ node ∈ placement.remaining.takeWhile (fun node =>
      decide ((cellOf index node).map UInt32.toNat = some cellId)),
      (cellOf index node).map UInt32.toNat = some cellId :=
    fun node hnode => by simpa using List.mem_takeWhile_imp hnode
  by_cases hlayout : layout = .cellChunks
  · simp only [placeCell, if_pos hlayout, bind_ok, reject_ok, multiplyChecked_eq_ok,
      not_or] at hplaced
    obtain ⟨cellVectorBytes, -, appended, hnodes, allocated, hallocated, padded, hpadded, -,
      ⟨hdeclared, hpages, hsmall⟩, hnext⟩ := hplaced
    obtain rfl := Except.ok.inj hnext
    refine ⟨_, appended, _, padded, chunkBytes chunkClasses cellVectorBytes,
      List.takeWhile_append_dropWhile.symm, hcell, not_not.mp hdeclared, hnodes, hpadded,
      chunkBytes_mem _ (by decide), fun hother => absurd hlayout hother, ?_, hpages,
      Nat.lt_of_not_le hsmall, rfl, rfl⟩
    intro _
    rw [← hallocated.2]
  · simp only [placeCell, if_neg hlayout, bind_ok, reject_ok, not_or] at hplaced
    obtain ⟨cellVectorBytes, -, appended, hnodes, padded, hpadded, -, ⟨hdeclared, hpages, hsmall⟩,
      hnext⟩ := hplaced
    obtain rfl := Except.ok.inj hnext
    exact ⟨_, appended, 0, padded, kIoVectorPageSize, List.takeWhile_append_dropWhile.symm, hcell,
      not_not.mp hdeclared, hnodes, hpadded, by decide, fun _ => ⟨rfl, rfl⟩, fun hother => absurd hother hlayout, hpages,
      Nat.lt_of_not_le hsmall, rfl, rfl⟩

theorem placeCell_added {layout : VectorLayout}
    (hwidth : ∀ vector ∈ vectors, vector.length = vectorBytes) (hpositive : 0 < vectorBytes)
    (hroom : 0 < vectorsPerPage) (hfits : vectorsPerPage * vectorBytes ≤ kIoVectorPageSize)
    {cell : Cell} {placement next : Placement} {slots : List PlacedSlot}
    (hholds : Holds vectorBytes vectorsPerPage (vectorAt vectors) placement.writer slots)
    (hempty : placement.writer.outputSlot = 0)
    (hlocations : placement.writer.locations.length = vectors.length)
    (hnodup : (slots.map PlacedSlot.node ++ placement.remaining.map UInt32.toNat).Nodup)
    (hbound : ∀ node ∈ placement.remaining, node.toNat < vectors.length)
    (hplaced : placeCell index layout vectors.flatten vectorBytes vectorsPerPage cellId cell
      placement = .ok next) :
    ∃ nodes range added, CellAdded index layout vectorBytes vectorsPerPage cellId cell vectors
      slots placement next nodes range added := by
  obtain ⟨nodes, appended, padding, padded, chunkSize, htaken, hcell, hdeclared, hnodes, hpadded, hchunk,
    hpage, hwhole, hcount, hsmall, rfl, hranges⟩ := placeCell_eq_ok hplaced
  rw [htaken] at hbound hnodup
  have hnodesBound : ∀ node ∈ nodes, node.toNat < vectors.length :=
    fun node hnode => hbound node (List.mem_append_left _ hnode)
  have happend := placeNodes_eq_ok hwidth hnodesBound hnodes
  have hfirstNodup : (slots.map PlacedSlot.node ++ nodes.map UInt32.toNat).Nodup := by
    rw [List.map_append, ← List.append_assoc] at hnodup
    exact (List.nodup_append.mp hnodup).1
  have hnodesInside : ∀ node ∈ nodes.map UInt32.toNat,
      node < placement.writer.locations.length := by
    intro node hnode
    obtain ⟨placedNode, hplacedNode, rfl⟩ := List.mem_map.mp hnode
    rw [hlocations]
    exact hnodesBound placedNode hplacedNode
  obtain ⟨added, hadded⟩ := appendNodes _ hfits hholds (hempty ▸ hroom) hfirstNodup hnodesInside
    (fun node hnode => length_vectorAt hwidth (hlocations ▸ hnodesInside node hnode))
  rw [← happend] at hadded
  obtain ⟨hflushed, hflushedSlot, hflushedPages⟩ := hadded.holds.flushPage hfits
  obtain ⟨hholdsNext, hslot, hpagesNext, hlocationsNext⟩ := hflushed.appendPadding hfits hpadded
  have hgrows : placement.writer.pagesWritten ≤ appended.flushPage.pagesWritten :=
    hadded.grows.trans hflushedPages
  have hcountNat : (UInt32.ofNat (next.writer.pagesWritten -
      placement.writer.pagesWritten)).toNat =
      next.writer.pagesWritten - placement.writer.pagesWritten := by
    rw [UInt32.toNat_ofNat']
    exact Nat.mod_eq_of_lt hsmall
  refine ⟨nodes, ⟨.ofNat placement.writer.pagesWritten,
    .ofNat (next.writer.pagesWritten - placement.writer.pagesWritten), .ofNat nodes.length,
    .ofNat chunkSize⟩, added, ?_⟩
  constructor
  case holds => exact hholdsNext
  case ranges => exact hranges
  case taken => exact htaken
  case inCell => exact hcell
  case same => exact hadded.same
  case empty => exact hslot.trans hflushedSlot
  case firstPage => rfl
  case length =>
    rw [hlocationsNext, PageWriter.locations_flushPage]
    exact hadded.length
  case pages =>
    intro slot hslot'
    refine ⟨hadded.pages slot hslot', ?_⟩
    have hinside := (hholdsNext.inside slot (List.mem_append_right _ hslot')).2
    rw [PageWriter.cursor, hslot, hflushedSlot, PlacedSlot.start] at hinside
    by_contra hbehind
    have hlast := Nat.mul_le_mul_right kIoVectorPageSize (Nat.le_of_not_lt hbehind)
    omega
  case offsets =>
    intro position slot hposition
    have hoffset := hadded.offsets position slot hposition
    rwa [hempty, Nat.zero_add] at hoffset
  case pageCount =>
    rw [hcountNat]
    omega
  case nodeCount => exact UInt32.toNat_ofNat'
  case declared =>
    rw [← hdeclared]
    exact UInt32.toNat_ofNat'
  case fits =>
    intro hfew
    have hchunkNat : (UInt32.ofNat chunkSize).toNat = chunkSize := by
      rw [UInt32.toNat_ofNat']
      apply Nat.mod_eq_of_lt
      have hclasses : ∀ size ∈ chunkClasses, size < 2 ^ 32 := by decide
      exact hclasses chunkSize hchunk
    have hperChunk : 0 < chunkSize / kIoVectorPageSize := by
      have hclasses : ∀ size ∈ chunkClasses, 0 < size / kIoVectorPageSize := by decide
      exact hclasses chunkSize hchunk
    constructor
    case pages =>
      intro hzero
      have hnone := congrArg UInt32.toNat hzero
      rw [hcountNat] at hnone
      exact hcount hnone
    case chunk =>
      rw [hchunkNat]
      exact hchunk
    case page =>
      intro hother
      rw [hchunkNat]
      exact (hpage hother).2
    case whole =>
      intro hlayout
      have hpadding := hwhole hlayout
      have hround := le_roundUp (appended.flushPage.pagesWritten -
        placement.writer.pagesWritten) hperChunk
      have htotal : next.writer.pagesWritten - placement.writer.pagesWritten =
          (appended.flushPage.pagesWritten - placement.writer.pagesWritten +
            chunkSize / kIoVectorPageSize - 1) / (chunkSize / kIoVectorPageSize) *
            (chunkSize / kIoVectorPageSize) := by
        dsimp only at hpadding
        omega
      rw [hchunkNat, hcountNat, htotal]
      exact Nat.mul_mod_left _ _
    case nonempty =>
      intro hnone
      -- without a node nothing is written, and nothing is padded
      have hlength := congrArg UInt32.toNat hnone
      rw [UInt32.toNat_ofNat', Nat.mod_eq_of_lt hfew] at hlength
      obtain rfl := List.eq_nil_of_length_eq_zero hlength
      obtain rfl := Except.ok.inj hnodes
      have hsame : placement.writer.flushPage = placement.writer := if_pos hempty
      rw [hsame] at hpagesNext
      by_cases hlayout : layout = .cellChunks
      · have hpadding := hwhole hlayout
        rw [hsame] at hpadding
        dsimp only at hpadding
        rw [Nat.sub_self, Nat.zero_add, Nat.div_eq_of_lt (Nat.sub_lt hperChunk Nat.one_pos),
          Nat.zero_mul] at hpadding
        omega
      · have hnoPadding := (hpage hlayout).1
        omega

/-! ## Placing all Cells -/

def pageRanges (ranges : List CellPageRange) : List LabelledRange :=
  numberedRanges (fun range => range.firstPage.toNat) (fun range => range.pageCount.toNat) ranges

/-- The placement after `done` Cells. -/
structure CellsPlaced (index : Index) (layout : VectorLayout) (vectorBytes vectorsPerPage : Nat)
    (vectors : List (List UInt8)) (order : List UInt32) (done : Nat) (placement : Placement)
    (slots : List PlacedSlot) : Prop where
  holds : Holds vectorBytes vectorsPerPage (vectorAt vectors) placement.writer slots
  empty : placement.writer.outputSlot = 0
  length : placement.writer.locations.length = vectors.length
  covered : slots.map PlacedSlot.node ++ placement.remaining.map UInt32.toNat =
    order.map UInt32.toNat
  count : placement.cellRanges.length = done
  fits : ∀ range ∈ placement.cellRanges, RangeFits layout range
  declared : (placement.cellRanges.map fun range => range.nodeCount.toNat) =
    (index.cells.take done).map fun cell => cell.nodeCount.toNat
  nodes : (placement.cellRanges.map fun range => range.nodeCount.toNat).sum = slots.length
  -- page numbers are words of 64 bits
  tiles : placement.writer.pagesWritten < 2 ^ 64 →
    TilesFrom 0 (pageRanges placement.cellRanges) placement.writer.pagesWritten
  owned : placement.writer.pagesWritten < 2 ^ 64 → ∀ slot ∈ slots, ∀ cell,
    index.nodeToCell[slot.node]?.map UInt32.toNat = some cell →
      OwnedBy (pageRanges placement.cellRanges) slot.page cell
  offsets : ∀ slot ∈ slots, (∃ position < vectorsPerPage, slot.offset = position * vectorBytes) ∧
    (slot.offset = 0 ∨ ∃ range ∈ placement.cellRanges, 2 ≤ range.nodeCount.toNat)
  crowded : 2 ≤ vectorsPerPage → ∀ range ∈ placement.cellRanges, 2 ≤ range.nodeCount.toNat →
    ∃ slot ∈ slots, slot.offset = vectorBytes

structure PlacementSetting (vectorBytes vectorsPerPage : Nat) (vectors : List (List UInt8))
    (order : List UInt32) : Prop where
  width : ∀ vector ∈ vectors, vector.length = vectorBytes
  positive : 0 < vectorBytes
  room : 0 < vectorsPerPage
  fits : vectorsPerPage * vectorBytes ≤ kIoVectorPageSize
  perm : (order.map UInt32.toNat).Perm (List.range vectors.length)
  few : vectors.length < 2 ^ 32

namespace CellsPlaced

variable {index : Index} {layout : VectorLayout} {vectorBytes vectorsPerPage : Nat}
  {vectors : List (List UInt8)} {order : List UInt32} {done : Nat}
  {placement next : Placement} {slots : List PlacedSlot}

theorem start (index : Index) (layout : VectorLayout) (vectorBytes vectorsPerPage : Nat)
    (vectors : List (List UInt8)) (order : List UInt32) :
    CellsPlaced index layout vectorBytes vectorsPerPage vectors order 0
      { writer := { locations := List.replicate vectors.length {} }, remaining := order } [] := by
  constructor
  case holds => exact Holds.start ..
  case empty => rfl
  case length => exact List.length_replicate ..
  case covered => rfl
  case count => rfl
  case nodes => rfl
  case declared => rfl
  case tiles => exact fun _ => rfl
  case owned => exact fun _ slot hslot => absurd hslot List.not_mem_nil
  case fits => exact fun range hrange => absurd hrange List.not_mem_nil
  case offsets => exact fun slot hslot => absurd hslot List.not_mem_nil
  case crowded => exact fun _ range hrange => absurd hrange List.not_mem_nil

theorem step (hsetting : PlacementSetting vectorBytes vectorsPerPage vectors order)
    (hplaced : CellsPlaced index layout vectorBytes vectorsPerPage vectors order done placement
      slots)
    {cell : Cell} (hindex : index.cells[done]? = some cell)
    (hcell : placeCell index layout vectors.flatten vectorBytes vectorsPerPage done cell placement =
      .ok next) :
    ∃ added, CellsPlaced index layout vectorBytes vectorsPerPage vectors order (done + 1) next
      (slots ++ added) := by
  have hnodup : (slots.map PlacedSlot.node ++ placement.remaining.map UInt32.toNat).Nodup := by
    rw [hplaced.covered]
    exact hsetting.perm.nodup_iff.mpr List.nodup_range
  have hbound : ∀ node ∈ placement.remaining, node.toNat < vectors.length := by
    intro node hnode
    have hordered : node.toNat ∈ order.map UInt32.toNat := by
      rw [← hplaced.covered]
      exact List.mem_append_right _ (List.mem_map_of_mem hnode)
    exact List.mem_range.mp (hsetting.perm.mem_iff.mp hordered)
  obtain ⟨nodes, range, added, hadded⟩ := placeCell_added hsetting.width hsetting.positive
    hsetting.room hsetting.fits hplaced.holds hplaced.empty hplaced.length hnodup hbound hcell
  have hcovered : (slots ++ added).map PlacedSlot.node ++ next.remaining.map UInt32.toNat =
      order.map UInt32.toNat := by
    rw [← hplaced.covered, hadded.taken, List.map_append, hadded.same, List.map_append,
      List.append_assoc]
  have hlength : added.length = nodes.length := by
    simpa using congrArg List.length hadded.same
  have hfew : nodes.length < 2 ^ 32 := by
    have htotal := congrArg List.length hcovered
    have hcount := hsetting.perm.length_eq
    have hvectors := hsetting.few
    simp only [List.length_append, List.length_map, List.length_range] at htotal hcount
    omega
  have hnodeCount : range.nodeCount.toNat = added.length := by
    rw [hadded.nodeCount, hlength, Nat.mod_eq_of_lt hfew]
  have hpages := hadded.pageCount
  have hranges : pageRanges next.cellRanges = pageRanges placement.cellRanges ++
      [⟨range.firstPage.toNat, range.pageCount.toNat, done⟩] := by
    rw [pageRanges, hadded.ranges, numberedRanges_append, hplaced.count]
    rfl
  have hfirst : next.writer.pagesWritten < 2 ^ 64 →
      range.firstPage.toNat = placement.writer.pagesWritten := by
    intro hsmall
    rw [hadded.firstPage, UInt64.toNat_ofNat']
    exact Nat.mod_eq_of_lt (by omega)
  refine ⟨added, ?_⟩
  constructor
  case holds => exact hadded.holds
  case empty => exact hadded.empty
  case length => exact hadded.length.trans hplaced.length
  case covered => exact hcovered
  case count => rw [hadded.ranges, List.length_append, hplaced.count, List.length_singleton]
  case fits =>
    intro other hother
    rw [hadded.ranges] at hother
    rcases List.mem_append.mp hother with hold | hlast
    · exact hplaced.fits other hold
    · obtain rfl := List.mem_singleton.mp hlast
      exact hadded.fits hfew
  case declared =>
    rw [hadded.ranges, List.map_append, hplaced.declared, List.take_add_one, hindex, List.map_append,
      List.map_singleton, hadded.declared]
    rfl
  case nodes =>
    rw [hadded.ranges, List.map_append, List.sum_append, hplaced.nodes, List.length_append,
      ← hnodeCount, List.map_singleton, List.sum_singleton]
  case tiles =>
    intro hsmall
    rw [hranges, hpages]
    exact (hplaced.tiles (by omega)).snoc (hfirst hsmall)
  case owned =>
    intro hsmall slot hslot cell hslotCell
    rw [hranges]
    rcases List.mem_append.mp hslot with hold | hnew
    · exact (hplaced.owned (by omega) slot hold cell hslotCell).append _
    · have hnode : slot.node ∈ nodes.map UInt32.toNat := by
        rw [← hadded.same]
        exact List.mem_map_of_mem hnew
      obtain ⟨node, hnode, hsame⟩ := List.mem_map.mp hnode
      have howner := hadded.inCell node hnode
      rw [cellOf, hsame, hslotCell] at howner
      obtain rfl := Option.some.inj howner
      have hcount : (pageRanges placement.cellRanges).length = cell :=
        length_numberedRanges.trans hplaced.count
      obtain ⟨hbehind, hbefore⟩ := hadded.pages slot hnew
      rw [← hfirst hsmall] at hbehind hpages
      have hlast := OwnedBy.last (pageRanges placement.cellRanges)
        ⟨range.firstPage.toNat, range.pageCount.toNat, cell⟩ ⟨hbehind, hpages ▸ hbefore⟩
      rwa [hcount] at hlast
  case offsets =>
    intro slot hslot
    rcases List.mem_append.mp hslot with hold | hnew
    · obtain ⟨hmultiple, hzero | ⟨other, hother, htwo⟩⟩ := hplaced.offsets slot hold
      · exact ⟨hmultiple, .inl hzero⟩
      · refine ⟨hmultiple, .inr ⟨other, ?_, htwo⟩⟩
        rw [hadded.ranges]
        exact List.mem_append_left _ hother
    · obtain ⟨position, hposition⟩ := List.mem_iff_getElem?.mp hnew
      have hoffset := hadded.offsets position slot hposition
      refine ⟨⟨_, Nat.mod_lt _ hsetting.room, hoffset⟩, ?_⟩
      cases position with
      | zero =>
        rw [Nat.zero_mod, Nat.zero_mul] at hoffset
        exact .inl hoffset
      | succ position =>
        have hinside := (List.getElem_of_getElem? hposition).1
        refine .inr ⟨range, ?_, by omega⟩
        rw [hadded.ranges]
        exact List.mem_append_right _ (List.mem_singleton_self _)
  case crowded =>
    intro htwo other hother hcrowd
    rw [hadded.ranges] at hother
    rcases List.mem_append.mp hother with hold | hlast
    · obtain ⟨slot, hslot, hoffset⟩ := hplaced.crowded htwo other hold hcrowd
      exact ⟨slot, List.mem_append_left _ hslot, hoffset⟩
    · -- the second node of the Cell
      obtain rfl := List.mem_singleton.mp hlast
      have hsecond : 1 < added.length := by omega
      refine ⟨added[1], List.mem_append_right _ (List.getElem_mem hsecond), ?_⟩
      rw [hadded.offsets 1 _ (List.getElem?_eq_getElem hsecond), Nat.mod_eq_of_lt htwo, Nat.one_mul]

theorem run (hsetting : PlacementSetting vectorBytes vectorsPerPage vectors order)
    (hscan : scan (placeCell index layout vectors.flatten vectorBytes vectorsPerPage) 0 index.cells
      { writer := { locations := List.replicate vectors.length {} }, remaining := order } =
        .ok placement) :
    ∃ slots, CellsPlaced index layout vectorBytes vectorsPerPage vectors order index.cells.length
      placement slots := by
  have hrun := scan_invariant (motive := fun done placement => ∃ slots, CellsPlaced index layout
    vectorBytes vectorsPerPage vectors order done placement slots) hscan
    ⟨[], start index layout vectorBytes vectorsPerPage vectors order⟩ ?_
  · rwa [Nat.zero_add] at hrun
  · rintro done cell placement next hindex ⟨slots, hplaced⟩ hcell
    rw [Nat.zero_add] at hplaced hcell ⊢
    obtain ⟨added, hnext⟩ := hplaced.step hsetting hindex hcell
    exact ⟨slots ++ added, hnext⟩

end CellsPlaced

structure OrderedByPacket (index : Index) (order : List UInt32) : Prop where
  packets : ∀ packet node, order[packet]? = some node →
    index.nodeToPacketRecord[node.toNat]?.map UInt64.toNat = some packet
  perm : (order.map UInt32.toNat).Perm (List.range order.length)

theorem placementOrder_eq_ok {pointCount : Nat} {order : List UInt32} (hfew : pointCount < 2 ^ 32)
    (hrecords : index.nodeToPacketRecord.length = pointCount)
    (horder : placementOrder index pointCount = .ok order) :
    order.length = pointCount ∧ OrderedByPacket index order := by
  simp only [placementOrder, bind_ok, reject_ok] at horder
  obtain ⟨found, hscan, -, hset, hfound⟩ := horder
  obtain rfl := Except.ok.inj hfound
  have hrun := scan_invariant (motive := fun done order => order.length = pointCount ∧
    ∀ packet node, order[packet]? = some node → node ≠ 2 ^ 32 - 1 →
      node.toNat < done ∧ index.nodeToPacketRecord[node.toNat]?.map UInt64.toNat = some packet)
    hscan ?_ ?_
  · obtain ⟨hlength, hpackets⟩ := hrun
    have hall : ∀ packet node, found[packet]? = some node → node.toNat < pointCount ∧
        index.nodeToPacketRecord[node.toNat]?.map UInt64.toNat = some packet := by
      intro packet node hnode
      have hne : node ≠ 2 ^ 32 - 1 := by
        rintro rfl
        exact hset (List.mem_of_getElem? hnode)
      obtain ⟨hbelow, hpacket⟩ := hpackets packet node hnode hne
      exact ⟨by omega, hpacket⟩
    refine ⟨hlength, fun packet node hnode => (hall packet node hnode).2, ?_⟩
    have hsubset : found.map UInt32.toNat ⊆ List.range found.length := by
      intro node hnode
      obtain ⟨placed, hplaced, rfl⟩ := List.mem_map.mp hnode
      obtain ⟨packet, hpacket⟩ := List.mem_iff_getElem?.mp hplaced
      rw [hlength]
      exact List.mem_range.mpr (hall packet placed hpacket).1
    have hnodup : (found.map UInt32.toNat).Nodup := by
      -- distinct packets hold distinct nodes
      have hread : (found.map UInt32.toNat).map
          (fun node => index.nodeToPacketRecord[node]?.map UInt64.toNat) =
          (List.range found.length).map some := by
        rw [List.map_map]
        apply List.ext_getElem (by simp)
        intro packet hleft hright
        rw [List.length_map] at hleft
        rw [List.getElem_map, List.getElem_map, List.getElem_range]
        exact (hall packet _ (List.getElem?_eq_getElem hleft)).2
      have hdistinct : ((List.range found.length).map some).Nodup :=
        List.nodup_range.map (Option.some_injective _)
      exact List.Nodup.of_map _ (hread ▸ hdistinct)
    exact (List.subperm_of_subset hnodup hsubset).perm_of_length_le (by simp)
  · refine ⟨List.length_replicate .., ?_⟩
    intro packet node hnode hne
    exact absurd (List.eq_of_mem_replicate (List.mem_of_getElem? hnode)) hne
  · rintro node packet order next hpacket ⟨hlength, hpackets⟩ hbody
    simp only [bind_ok, reject_ok, not_or, not_le] at hbody
    obtain ⟨-, ⟨hinside, -⟩, hnext⟩ := hbody
    obtain rfl := Except.ok.inj hnext
    refine ⟨(List.length_set ..).trans hlength, ?_⟩
    intro other placed hplaced hne
    rw [Nat.zero_add] at hplaced hpackets ⊢
    by_cases hother : packet.toNat = other
    · subst hother
      have hnode := (List.getElem_of_getElem? hpacket).1
      rw [List.getElem?_set_self (by omega)] at hplaced
      obtain rfl := Option.some.inj hplaced
      rw [UInt32.toNat_ofNat', Nat.mod_eq_of_lt (by omega), hpacket]
      exact ⟨Nat.lt_succ_self _, rfl⟩
    · rw [List.getElem?_set_ne hother] at hplaced
      obtain ⟨hbelow, hpacket⟩ := hpackets other placed hplaced hne
      exact ⟨Nat.lt_succ_of_lt hbelow, hpacket⟩

end SkipCell.IoIndex

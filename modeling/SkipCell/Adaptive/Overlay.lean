import SkipCell.Adaptive.Mapping

/-! # The overlay is transparent

Physical merges copy vectors to fresh overlay pages. Over every sequence of
builds that complete or fail, and of publications that are taken or refused, a
snapshot leads from each node to the bytes of its Base vector, on a page of the
view of its own Cell.
-/

namespace SkipCell.Adaptive

open Foundation GroupTable

/-- A page of one of the view's runs. -/
def View.Covers (view : View) (pageId : Nat) : Prop :=
  ∃ run ∈ view.pageRuns, run.firstPage ≤ pageId ∧ pageId < run.firstPage + run.pageCount

/-! ## Node ownership -/

variable {nodes : List NodeId} {owners next : List (Option CellId)} {cellNodes : List (List NodeId)}

theorem assignNodes_spec {cell : CellId} (hassign : assignNodes cell nodes owners = .ok next) :
    next.length = owners.length ∧ (∀ node ∈ nodes, next[node]? = some (some cell)) ∧
      ∀ node, node ∉ nodes → next[node]? = owners[node]? := by
  induction nodes generalizing owners with
  | nil =>
    obtain rfl := Except.ok.inj hassign
    exact ⟨rfl, by simp, fun _ _ => rfl⟩
  | cons first rest ih =>
    unfold assignNodes at hassign
    split at hassign
    · next hfree =>
        obtain ⟨hlength, hinside, houtside⟩ := ih hassign
        have hbound : first < owners.length := (List.getElem_of_getElem? hfree).1
        refine ⟨by rw [hlength, List.length_set], fun node hnode => ?_, fun node hnode => ?_⟩
        · by_cases hrest : node ∈ rest
          · exact hinside node hrest
          · obtain rfl := (List.mem_cons.mp hnode).resolve_right hrest
            rw [houtside node hrest, List.getElem?_set_self hbound]
        · have hne : first ≠ node := fun heq => hnode (heq ▸ List.mem_cons_self)
          rw [houtside node fun hrest => hnode (List.mem_cons_of_mem _ hrest),
            List.getElem?_set_ne hne]
    · cases hassign

theorem assignNodes_owned {cell other : CellId} {node : NodeId}
    (hassign : assignNodes cell nodes owners = .ok next)
    (howned : owners[node]? = some (some other)) : node ∉ nodes := by
  induction nodes generalizing owners with
  | nil => simp
  | cons first rest ih =>
    unfold assignNodes at hassign
    split at hassign
    · next hfree =>
        have hne : first ≠ node := by
          rintro rfl
          simp [hfree] at howned
        have hkept : (owners.set first (some cell))[node]? = some (some other) := by
          rw [List.getElem?_set_ne hne, howned]
        exact List.not_mem_cons_of_ne_of_not_mem hne.symm (ih hassign hkept)
    · cases hassign

/-- What taking the nodes of Cells numbered from `cell` does to the owners. -/
structure Assigned (cell : CellId) (cellNodes : List (List NodeId))
    (owners next : List (Option CellId)) : Prop where
  length : next.length = owners.length
  inside : ∀ (index : Nat) (nodes : List NodeId), cellNodes[index]? = some nodes →
    ∀ node ∈ nodes, next[node]? = some (some (cell + index))
  outside : ∀ node : NodeId, (∀ nodes ∈ cellNodes, node ∉ nodes) → next[node]? = owners[node]?
  kept : ∀ (node : NodeId) (other : CellId), owners[node]? = some (some other) →
    next[node]? = some (some other)

theorem Assigned.nil (cell : CellId) (owners : List (Option CellId)) :
    Assigned cell [] owners owners where
  length := rfl
  inside := fun index nodes hnodes => by simp at hnodes
  outside := fun _ _ => rfl
  kept := fun _ _ howned => howned

theorem Assigned.cons {cell : CellId} {middle : List (Option CellId)}
    (hassign : assignNodes cell nodes owners = .ok middle)
    (hrest : Assigned (cell + 1) cellNodes middle next) :
    Assigned cell (nodes :: cellNodes) owners next := by
  obtain ⟨hlength, hinside, houtside⟩ := assignNodes_spec hassign
  refine ⟨hrest.length.trans hlength, ?_, ?_, ?_⟩
  · intro index found hfound node hnode
    cases index with
    | zero =>
      obtain rfl := Option.some.inj hfound
      exact hrest.kept node cell (hinside node hnode)
    | succ index =>
      rw [Nat.add_comm index 1, ← Nat.add_assoc]
      exact hrest.inside index found hfound node hnode
  · intro node hnode
    rw [hrest.outside node fun found hfound => hnode found (List.mem_cons_of_mem _ hfound),
      houtside node (hnode nodes List.mem_cons_self)]
  · intro node other howned
    refine hrest.kept node other ?_
    rw [houtside node (assignNodes_owned hassign howned), howned]

theorem ownCells_spec {base : BaseIndex} {cell : CellId} {sortedCells : List (List NodeId)}
    {ranges : List CellPageRange} (hlength : cellNodes.length = ranges.length)
    (howns : ownCells base cell cellNodes ranges owners = .ok (sortedCells, next)) :
    Assigned cell sortedCells owners next ∧ List.Forall₂ List.Perm sortedCells cellNodes := by
  induction cellNodes generalizing cell ranges owners sortedCells next with
  | nil =>
    unfold ownCells at howns
    obtain ⟨rfl, rfl⟩ := Prod.mk.inj (Except.ok.inj howns)
    exact ⟨.nil cell owners, .nil⟩
  | cons nodes cellNodes ih =>
    cases ranges with
    | nil => simp at hlength
    | cons range ranges =>
      simp only [ownCells] at howns
      split at howns
      · cases howns
      · split at howns
        · cases howns
        · split at howns
          · cases howns
          · next middle hassign =>
              split at howns
              · cases howns
              · next rest final hrest =>
                  obtain ⟨rfl, rfl⟩ := Prod.mk.inj (Except.ok.inj howns)
                  obtain ⟨hassigned, hperm⟩ := ih (Nat.succ.inj hlength) hrest
                  exact ⟨.cons hassign hassigned, .cons (List.perm_insertionSort _ _) hperm⟩

/-- Every node has one owner, the Cell that lists it. -/
structure Owned (physical : Physical) : Prop where
  owner : ∀ (cell : CellId) (nodes : List NodeId), physical.cellNodes[cell]? = some nodes →
    ∀ node ∈ nodes, physical.nodeToCell[node]? = some (some cell)
  listed : ∀ node < physical.baseIndex.vectorLocations.length, ∃ cell nodes,
    physical.nodeToCell[node]? = some (some cell) ∧ physical.cellNodes[cell]? = some nodes ∧
      node ∈ nodes

/-- What the constructor with a physical configuration checks and sets up. -/
structure CreatedPhysical (fixedCells : List CellPageRange) (candidates : List MergeCandidate)
    (config : Config) (base : BaseIndex) (vectorBytes : Nat) (cellNodes : List (List NodeId))
    (physical : Physical) (runtime : Runtime) : Prop where
  created : Created fixedCells candidates config (some physical) runtime
  sameBase : physical.baseIndex = base
  sameBytes : physical.vectorBytes = vectorBytes
  positive : 0 < vectorBytes
  fits : vectorBytes ≤ kIoVectorPageSize
  lengths : cellNodes.length = fixedCells.length
  owned : Owned physical
  sorted : List.Forall₂ List.Perm physical.cellNodes cellNodes

theorem created_of_createPhysical {fixedCells : List CellPageRange}
    {candidates : List MergeCandidate} {config : Config} {base : BaseIndex} {vectorBytes : Nat}
    {runtime : Runtime}
    (hcreate : createPhysical fixedCells candidates config base vectorBytes cellNodes = .ok runtime)
    :
    ∃ physical, CreatedPhysical fixedCells candidates config base vectorBytes cellNodes physical
      runtime := by
  unfold createPhysical at hcreate
  split at hcreate
  · cases hcreate
  · next hconfig =>
      simp only [not_or, not_lt, not_not] at hconfig
      obtain ⟨hpositive, hfits, hlength⟩ := hconfig
      split at hcreate
      · cases hcreate
      · next sortedCells owners howns =>
          split at hcreate
          · cases hcreate
          · next hcomplete =>
              obtain ⟨hassigned, hsorted⟩ := ownCells_spec hlength howns
              refine ⟨⟨base, vectorBytes, sortedCells, owners⟩, created_of_initializeRuntime hcreate,
                rfl, rfl, Nat.pos_of_ne_zero hpositive, hfits, hlength, ⟨?_, ?_⟩, hsorted⟩
              · intro cell nodes hnodes node hnode
                simpa using hassigned.inside cell nodes hnodes node hnode
              · intro node hnode
                have hmember : ∃ nodes ∈ sortedCells, node ∈ nodes := by
                  by_contra habsent
                  push Not at habsent
                  -- a node that no Cell lists stays without an owner
                  have howner := hassigned.outside node habsent
                  rw [List.getElem?_map, List.getElem?_eq_getElem hnode] at howner
                  exact hcomplete (List.mem_of_getElem? howner)
                obtain ⟨nodes, hnodes, hmem⟩ := hmember
                obtain ⟨cell, hcell⟩ := List.mem_iff_getElem?.mp hnodes
                refine ⟨cell, nodes, ?_, hcell, hmem⟩
                simpa using hassigned.inside cell nodes hcell node hmem

/-! ## Slots -/

namespace Runtime

def slotPosition (vectorBytes ordinal : Nat) : Nat :=
  slotPage vectorBytes ordinal * kIoVectorPageSize + slotOffset vectorBytes ordinal

section Slots

variable {vectorBytes : Nat}

section

variable (hpositive : 0 < vectorBytes) (hfits : vectorBytes ≤ kIoVectorPageSize)
include hpositive hfits

theorem slotOffset_fits (ordinal : Nat) :
    slotOffset vectorBytes ordinal + vectorBytes ≤ kIoVectorPageSize := by
  have hslots : 0 < kIoVectorPageSize / vectorBytes := Nat.div_pos hfits hpositive
  have hordinal : ordinal % (kIoVectorPageSize / vectorBytes) + 1 ≤ kIoVectorPageSize / vectorBytes :=
    Nat.mod_lt _ hslots
  calc slotOffset vectorBytes ordinal + vectorBytes
      = (ordinal % (kIoVectorPageSize / vectorBytes) + 1) * vectorBytes := by
        rw [slotOffset, Nat.add_mul, Nat.one_mul]
    _ ≤ kIoVectorPageSize / vectorBytes * vectorBytes := Nat.mul_le_mul_right _ hordinal
    _ ≤ kIoVectorPageSize := Nat.div_mul_le_self _ _

theorem slotPosition_apart {first second : Nat} (hlt : first < second) :
    slotPosition vectorBytes first + vectorBytes ≤ slotPosition vectorBytes second := by
  have hend := slotOffset_fits hpositive hfits first
  have hpages : slotPage vectorBytes first ≤ slotPage vectorBytes second :=
    Nat.div_le_div_right hlt.le
  rcases hpages.lt_or_eq with hpage | hpage
  · have hnext : (slotPage vectorBytes first + 1) * kIoVectorPageSize ≤
        slotPage vectorBytes second * kIoVectorPageSize := Nat.mul_le_mul_right _ hpage
    rw [Nat.add_mul, Nat.one_mul] at hnext
    unfold slotPosition
    omega
  · have hsplit := Nat.div_add_mod first (kIoVectorPageSize / vectorBytes)
    have hother := Nat.div_add_mod second (kIoVectorPageSize / vectorBytes)
    unfold slotPage at hpage
    rw [hpage] at hsplit
    have hrest : first % (kIoVectorPageSize / vectorBytes) + 1 ≤
        second % (kIoVectorPageSize / vectorBytes) := by omega
    have hscaled := Nat.mul_le_mul_right vectorBytes hrest
    rw [Nat.add_mul, Nat.one_mul] at hscaled
    unfold slotPosition slotPage slotOffset
    rw [hpage]
    omega

theorem slotPage_lt {ordinal count : Nat} (hordinal : ordinal < count) :
    slotPage vectorBytes ordinal <
      (count + kIoVectorPageSize / vectorBytes - 1) / (kIoVectorPageSize / vectorBytes) := by
  have hslots : 0 < kIoVectorPageSize / vectorBytes := Nat.div_pos hfits hpositive
  unfold slotPage
  rw [← Nat.succ_le_iff, Nat.succ_eq_add_one, ← Nat.add_div_right _ hslots]
  exact Nat.div_le_div_right (by omega)

theorem slotPosition_fits {ordinal pageCount : Nat}
    (hpage : slotPage vectorBytes ordinal < pageCount) :
    slotPosition vectorBytes ordinal + vectorBytes ≤ pageCount * kIoVectorPageSize := by
  have hend := slotOffset_fits hpositive hfits ordinal
  have hpages := Nat.mul_le_mul_right kIoVectorPageSize hpage
  rw [Nat.succ_eq_add_one, Nat.add_mul, Nat.one_mul] at hpages
  unfold slotPosition
  omega

end

end Slots

/-- Where a packed node's vector is: in the slot its location names, in the
payload, with the bytes that its source location had. -/
structure Packed (runtime : Runtime) (physical : Physical) (firstPage : Nat) (payload : ByteFile)
    (ordinal : Nat) (entry : NodeId × VectorLocation) : Prop where
  place : entry.2 = ⟨firstPage + slotPage physical.vectorBytes ordinal,
    slotOffset physical.vectorBytes ordinal⟩
  bytes : ∃ source bytes, physical.baseIndex.vectorLocations[entry.1]? = some source ∧
    runtime.readLocation physical (runtime.snapshot.vectorLocation entry.1 source) = some bytes ∧
    payload.read (slotPosition physical.vectorBytes ordinal) physical.vectorBytes = some bytes

variable {runtime next : Runtime} {physical : Physical}

theorem length_readLocation {location : VectorLocation} {bytes : List UInt8}
    (hread : runtime.readLocation physical location = some bytes) :
    bytes.length = physical.vectorBytes := by
  unfold readLocation at hread
  simp only at hread
  split at hread <;> exact ByteFile.length_of_read hread

/-- Packing fills one slot for each node, in order, and leaves earlier slots alone. -/
theorem packVectors_spec {firstPage : Nat} (hpositive : 0 < physical.vectorBytes)
    (hfits : physical.vectorBytes ≤ kIoVectorPageSize) {nodes : List NodeId} {ordinal : Nat}
    {payload next : ByteFile} {directory : SortedMap NodeId VectorLocation}
    (hpack : runtime.packVectors physical firstPage ordinal nodes payload = .ok (next, directory))
    (hroom : ∀ index < nodes.length,
      slotPosition physical.vectorBytes (ordinal + index) + physical.vectorBytes ≤ payload.size) :
    directory.map Prod.fst = nodes ∧ next.size = payload.size ∧
      (∀ entry ∈ directory, ∃ index < nodes.length,
        Packed runtime physical firstPage next (ordinal + index) entry) ∧
      ∀ earlier < ordinal, ∀ bytes,
        payload.read (slotPosition physical.vectorBytes earlier) physical.vectorBytes = some bytes →
        next.read (slotPosition physical.vectorBytes earlier) physical.vectorBytes = some bytes := by
  induction nodes generalizing ordinal payload next directory with
  | nil =>
    unfold packVectors at hpack
    obtain ⟨rfl, rfl⟩ := Prod.mk.inj (Except.ok.inj hpack)
    exact ⟨rfl, rfl, by simp, fun _ _ _ hread => hread⟩
  | cons node nodes ih =>
    unfold packVectors at hpack
    split at hpack
    · cases hpack
    · next fallback hfallback =>
        split at hpack
        · cases hpack
        · next bytes hbytes =>
            simp only at hpack
            split at hpack
            · cases hpack
            · next final rest hrest =>
                obtain ⟨rfl, rfl⟩ := Prod.mk.inj (Except.ok.inj hpack)
                have hsource : physical.baseIndex.vectorLocations[node]? = some fallback := by
                  unfold BaseIndex.vectorLocation at hfallback
                  split at hfallback
                  · next found hfound => rw [hfound, Except.ok.inj hfallback]
                  · cases hfallback
                have hcount := length_readLocation hbytes
                have hsize : (payload.write (slotPosition physical.vectorBytes ordinal) bytes).size =
                    payload.size := by
                  have hslot := hroom 0 (by simp)
                  rw [Nat.add_zero] at hslot
                  simp only [ByteFile.write, hcount]
                  omega
                obtain ⟨hnodes, hnext, hpacked, hearlier⟩ := ih hrest fun index hindex => by
                  have hslot := hroom (index + 1) (by simpa using hindex)
                  rw [Nat.add_assoc, Nat.add_comm 1 index]
                  exact hslot.trans_eq hsize.symm
                refine ⟨by simp [hnodes], hnext.trans hsize, ?_, ?_⟩
                · intro entry hentry
                  rcases List.mem_cons.mp hentry with rfl | hentry
                  · refine ⟨0, by simp, rfl, fallback, bytes, hsource, hbytes, ?_⟩
                    have hself := payload.read_write_self
                      (slotPosition physical.vectorBytes ordinal) bytes
                    rw [hcount] at hself
                    exact hearlier ordinal (Nat.lt_succ_self _) bytes hself
                  · obtain ⟨index, hindex, hentry⟩ := hpacked entry hentry
                    rw [Nat.add_assoc, Nat.add_comm 1 index] at hentry
                    exact ⟨index + 1, by simpa using hindex, hentry⟩
                · intro earlier hlt found hread
                  refine hearlier earlier (hlt.trans (Nat.lt_succ_self _)) found ?_
                  exact ByteFile.read_write_of_disjoint hread
                    (.inl (slotPosition_apart hpositive hfits hlt))

/-! ## Transparent views and snapshots -/

/-- What the Base loader and the caller promise: a node's vector lies in one page
of the Base file, and that page belongs to the node's Cell. -/
structure BaseLayout (fixedCells : List CellPageRange) (base : BaseIndex) (vectorBytes : Nat)
    (cellNodes : List (List NodeId)) : Prop where
  file : base.vectorPageCount * kIoVectorPageSize ≤ base.vectorFile.size
  location : ∀ location ∈ base.vectorLocations, location.pageId < base.vectorPageCount ∧
    location.pageOffset + vectorBytes ≤ kIoVectorPageSize
  cell : ∀ (cell : CellId) (nodes : List NodeId) (range : CellPageRange),
    cellNodes[cell]? = some nodes → fixedCells[cell]? = some range →
    ∀ node ∈ nodes, ∀ location, base.vectorLocations[node]? = some location →
      range.firstPage ≤ location.pageId ∧ location.pageId < range.firstPage + range.pageCount

def filePosition (location : VectorLocation) : Nat :=
  location.pageId * kIoVectorPageSize + location.pageOffset

def baseVector (physical : Physical) (location : VectorLocation) : Option (List UInt8) :=
  physical.baseIndex.vectorFile.read (filePosition location) physical.vectorBytes

/-- A location on a page of the view that holds the node's Base vector. Overlay
pages in use end at `nextOverlayPage`. -/
structure Holds (runtime : Runtime) (physical : Physical) (view : View) (source : VectorLocation)
    (location : VectorLocation) : Prop where
  bytes : ∃ bytes, baseVector physical source = some bytes ∧
    runtime.readLocation physical location = some bytes
  covered : view.Covers location.pageId
  inPage : location.pageOffset + physical.vectorBytes ≤ kIoVectorPageSize
  allocated : location.pageId < physical.baseIndex.vectorPageCount + runtime.nextOverlayPage

/-- Later overlay states: pages already handed out keep their bytes. -/
structure Extends (runtime next : Runtime) : Prop where
  pages : runtime.nextOverlayPage ≤ next.nextOverlayPage
  kept : ∀ offset count bytes, offset + count ≤ runtime.nextOverlayPage * kIoVectorPageSize →
    runtime.overlay.read offset count = some bytes → next.overlay.read offset count = some bytes

theorem Extends.refl (runtime : Runtime) : Extends runtime runtime :=
  ⟨Nat.le_refl _, fun _ _ _ _ hread => hread⟩

theorem Holds.extend {view : View} {source location : VectorLocation}
    (hholds : Holds runtime physical view source location) (hextends : Extends runtime next) :
    Holds next physical view source location := by
  obtain ⟨bytes, hbase, hread⟩ := hholds.bytes
  refine ⟨⟨bytes, hbase, ?_⟩, hholds.covered, hholds.inPage, ?_⟩
  · unfold readLocation at hread ⊢
    simp only at hread ⊢
    split
    · next hoverlay =>
        rw [if_pos hoverlay] at hread
        refine hextends.kept _ _ _ ?_ hread
        -- the location ends within its page, which is one of the pages handed out
        have hpage : location.pageId - physical.baseIndex.vectorPageCount + 1 ≤
            runtime.nextOverlayPage := by
          have hallocated := hholds.allocated
          omega
        have hend := Nat.mul_le_mul_right kIoVectorPageSize hpage
        rw [Nat.add_mul, Nat.one_mul] at hend
        have hin := hholds.inPage
        omega
    · next hbasePage =>
        rw [if_neg hbasePage] at hread
        exact hread
  · have hallocated := hholds.allocated
    have hpages := hextends.pages
    omega

/-- The nodes of the logical Cells that a view lists. -/
def Lists (physical : Physical) (view : View) (node : NodeId) : Prop :=
  ∃ cell ∈ view.logicalCellIds, ∃ nodes, physical.cellNodes[cell]? = some nodes ∧ node ∈ nodes

/-- A replacement built on the overlay: its directory lists exactly the nodes of
its Cells, and holds the Base vector of each on its own pages. -/
structure ViewTransparent (runtime : Runtime) (physical : Physical) (view : View) : Prop where
  lengths : view.vectorLocations.length = view.vectorNodes.length
  nodes : ∀ node, node ∈ view.vectorNodes ↔ Lists physical view node
  holds : ∀ entry ∈ view.vectorNodes.zip view.vectorLocations,
    ∃ source, physical.baseIndex.vectorLocations[entry.1]? = some source ∧
      Holds runtime physical view source entry.2

theorem ViewTransparent.extend {view : View} (hview : ViewTransparent runtime physical view)
    (hextends : Extends runtime next) :
    ViewTransparent next physical view where
  lengths := hview.lengths
  nodes := hview.nodes
  holds := by
    intro entry hentry
    obtain ⟨source, hsource, hholds⟩ := hview.holds entry hentry
    exact ⟨source, hsource, hholds.extend hextends⟩

/-- Every node is found, on a page of the view of its own Cell. -/
structure SnapshotTransparent (runtime : Runtime) (physical : Physical) (snapshot : Snapshot) :
    Prop where
  directory : snapshot.DirectoryOk
  holds : ∀ (node : NodeId) (source : VectorLocation) (cell : CellId),
    physical.baseIndex.vectorLocations[node]? = some source →
    physical.nodeToCell[node]? = some (some cell) →
    ∃ view, snapshot.cells[cell]? = some view ∧
      Holds runtime physical view source (snapshot.vectorLocation node source)

theorem SnapshotTransparent.extend {snapshot : Snapshot}
    (hsnapshot : SnapshotTransparent runtime physical snapshot) (hextends : Extends runtime next) :
    SnapshotTransparent next physical snapshot where
  directory := hsnapshot.directory
  holds := by
    intro node source cell hsource hcell
    obtain ⟨view, hview, hholds⟩ := hsnapshot.holds node source cell hsource hcell
    exact ⟨view, hview, hholds.extend hextends⟩

/-! ## Builds -/

section Build

variable {runtime : Runtime} {physical : Physical}

theorem write_extends (runtime : Runtime) (pageCount failures : Nat) (bytes : List UInt8) :
    Extends runtime { runtime with
      nextOverlayPage := runtime.nextOverlayPage + pageCount
      checksumFailures := failures
      overlay := runtime.overlay.write (runtime.nextOverlayPage * kIoVectorPageSize) bytes } where
  pages := Nat.le_add_right _ _
  kept := fun _ _ _ hend hread => ByteFile.read_write_of_disjoint hread (.inl hend)

theorem allocate_extends (runtime : Runtime) (pageCount : Nat) :
    Extends runtime { runtime with nextOverlayPage := runtime.nextOverlayPage + pageCount } where
  pages := Nat.le_add_right _ _
  kept := fun _ _ _ _ hread => hread

theorem packNodes_spec {cellNodes : List (List NodeId)} {cells : List CellId}
    {packed : List NodeId} (hpack : packNodes cellNodes cells = some packed) (node : NodeId) :
    node ∈ packed ↔ ∃ cell ∈ cells, ∃ nodes, cellNodes[cell]? = some nodes ∧ node ∈ nodes := by
  induction cells generalizing packed with
  | nil =>
    obtain rfl := Option.some.inj hpack
    simp
  | cons cell cells ih =>
    unfold packNodes at hpack
    split at hpack
    · next nodes rest hnodes hrest =>
        obtain rfl := Option.some.inj hpack
        rw [List.mem_append, ih hrest]
        simp [hnodes]
    · cases hpack

/-- A page of payload in the overlay: the location of a packed node reads the
bytes that the payload has in its slot. -/
theorem read_slot {first : Nat} {overlay payload : ByteFile} {ordinal : Nat} {bytes : List UInt8}
    (hwritten : overlay.read (first * kIoVectorPageSize) payload.size = some payload.contents)
    (hoverlay : runtime.overlay = overlay)
    (hslot : payload.read (slotPosition physical.vectorBytes ordinal) physical.vectorBytes =
      some bytes) :
    runtime.readLocation physical
      ⟨physical.baseIndex.vectorPageCount + first + slotPage physical.vectorBytes ordinal,
        slotOffset physical.vectorBytes ordinal⟩ = some bytes := by
  have hread := ByteFile.read_embedded hwritten hslot
  have hbase : physical.baseIndex.vectorPageCount ≤
      physical.baseIndex.vectorPageCount + first + slotPage physical.vectorBytes ordinal := by omega
  have hpage : physical.baseIndex.vectorPageCount + first + slotPage physical.vectorBytes ordinal -
      physical.baseIndex.vectorPageCount = first + slotPage physical.vectorBytes ordinal := by omega
  unfold readLocation
  simp only
  rw [if_pos hbase, hoverlay, hpage, Nat.add_mul, Nat.add_assoc]
  exact hread

/-- What a build leaves: earlier pages are kept, and a view that it returns is
transparent and lies on the pages the build was given. -/
structure Builds (runtime next : Runtime) (physical : Physical)
    (result : Except Error (Option View)) : Prop where
  extends_ : Extends runtime next
  view : ∀ view, result = .ok (some view) → ViewTransparent next physical view ∧
    ∀ pageId, view.Covers pageId →
      physical.baseIndex.vectorPageCount + runtime.nextOverlayPage ≤ pageId ∧
      pageId < physical.baseIndex.vectorPageCount + next.nextOverlayPage

theorem Builds.of_extends {next : Runtime} {result : Except Error (Option View)}
    (hextends : Extends runtime next) (hresult : ∀ view, result ≠ .ok (some view)) :
    Builds runtime next physical result :=
  ⟨hextends, fun view hview => absurd hview (hresult view)⟩

/-- A packed node's new location holds its Base vector, once the payload is in
the overlay. -/
theorem holds_of_packed (hpositive : 0 < physical.vectorBytes)
    (hfits : physical.vectorBytes ≤ kIoVectorPageSize) {reader next : Runtime} {view : View}
    {payload : ByteFile} {first pageCount ordinal : Nat} {entry : NodeId × VectorLocation}
    {cell : CellId} (hsnapshot : SnapshotTransparent reader physical reader.snapshot)
    (howner : physical.nodeToCell[entry.1]? = some (some cell))
    (hentry : Packed reader physical (physical.baseIndex.vectorPageCount + first) payload ordinal
      entry)
    (hpage : slotPage physical.vectorBytes ordinal < pageCount)
    (hwritten : next.overlay.read (first * kIoVectorPageSize) payload.size = some payload.contents)
    (hnext : next.nextOverlayPage = first + pageCount)
    (hruns : view.pageRuns = [⟨physical.baseIndex.vectorPageCount + first, pageCount⟩]) :
    ∃ source, physical.baseIndex.vectorLocations[entry.1]? = some source ∧
      Holds next physical view source entry.2 := by
  obtain ⟨hplace, source, bytes, hsource, hread, hslot⟩ := hentry
  obtain ⟨_, -, hholds⟩ := hsnapshot.holds entry.1 source cell hsource howner
  obtain ⟨found, hbase, hfound⟩ := hholds.bytes
  obtain rfl := Option.some.inj (hread.symm.trans hfound)
  refine ⟨source, hsource, ⟨bytes, hbase, ?_⟩, ?_, ?_, ?_⟩
  · rw [hplace]
    exact read_slot hwritten rfl hslot
  · rw [hplace]
    exact ⟨_, hruns ▸ List.mem_singleton_self _, Nat.le_add_right _ _, Nat.add_lt_add_left hpage _⟩
  · rw [hplace]
    exact slotOffset_fits hpositive hfits ordinal
  · rw [hplace, hnext]
    simp only
    omega

theorem writeReplacement_spec (hpositive : 0 < physical.vectorBytes)
    (hfits : physical.vectorBytes ≤ kIoVectorPageSize) (howned : Owned physical)
    (hsnapshot : SnapshotTransparent runtime physical runtime.snapshot) (pair : MergeCandidate)
    {logicalCells : List CellId} {packed : List NodeId}
    (hpacked : packNodes physical.cellNodes logicalCells = some packed) (io : Io) :
    Builds runtime (runtime.writeReplacement physical pair logicalCells packed io).1 physical
      (runtime.writeReplacement physical pair logicalCells packed io).2 := by
  unfold writeReplacement
  simp only
  generalize hcount : (packed.length + kIoVectorPageSize / physical.vectorBytes - 1) /
    (kIoVectorPageSize / physical.vectorBytes) = pageCount
  split
  · exact .of_extends (allocate_extends runtime pageCount) nofun
  · next payload directory hpack =>
      obtain ⟨hnodes, hsize, hentries, -⟩ := packVectors_spec hpositive hfits hpack
        fun index hindex => by
          have hpage := slotPage_lt hpositive hfits hindex
          rw [hcount] at hpage
          rw [Nat.zero_add]
          exact slotPosition_fits hpositive hfits hpage
      split
      · exact .of_extends (write_extends runtime pageCount _ _) nofun
      · split
        · exact .of_extends (write_extends runtime pageCount _ _) nofun
        · split
          · exact .of_extends (write_extends runtime pageCount _ _) nofun
          · split
            · exact .of_extends (write_extends runtime pageCount _ _) nofun
            · refine ⟨write_extends runtime pageCount _ _, fun view hview => ?_⟩
              obtain rfl := Option.some.inj (Except.ok.inj hview)
              refine ⟨⟨by simp, ?_, ?_⟩, ?_⟩
              · intro node
                rw [Lists, ← packNodes_spec hpacked, ← hnodes]
                simp [List.mem_insertionSort]
              · intro entry hentry
                have hentry : entry ∈ directory := by
                  rw [← List.mem_insertionSort fun first second => first.1 ≤ second.1]
                  simpa [List.zip_map', List.map_id''] using hentry
                have hnode : entry.1 ∈ packed := hnodes ▸ List.mem_map_of_mem hentry
                obtain ⟨cell, -, nodes, hcell, hmem⟩ := (packNodes_spec hpacked entry.1).mp hnode
                obtain ⟨index, hindex, hslot⟩ := hentries entry hentry
                have hpage := slotPage_lt hpositive hfits hindex
                rw [hcount] at hpage
                rw [Nat.zero_add] at hslot
                have hreader := hsnapshot.extend (allocate_extends runtime pageCount)
                refine holds_of_packed hpositive hfits hreader
                  (howned.owner cell nodes hcell entry.1 hmem) hslot hpage ?_ rfl rfl
                have hself := runtime.overlay.read_write_self
                  (runtime.nextOverlayPage * kIoVectorPageSize) payload.contents
                rwa [ByteFile.length_contents] at hself
              · rintro pageId ⟨run, hrun, hfirst, hlast⟩
                obtain rfl := List.mem_singleton.mp hrun
                exact ⟨hfirst, by rw [Nat.add_assoc] at hlast; exact hlast⟩

theorem makePhysicalReplacement_spec (hphysical : runtime.physical = some physical)
    (hpositive : 0 < physical.vectorBytes) (hfits : physical.vectorBytes ≤ kIoVectorPageSize)
    (howned : Owned physical)
    (hsnapshot : SnapshotTransparent runtime physical runtime.snapshot) (pair : MergeCandidate)
    (io : Io) :
    Builds runtime (runtime.makePhysicalReplacement pair io).1 physical
      (runtime.makePhysicalReplacement pair io).2 := by
  have hidle : ∀ result : Except Error (Option View), (∀ view, result ≠ .ok (some view)) →
      Builds runtime runtime physical result := fun result hresult =>
    .of_extends (.refl runtime) hresult
  unfold makePhysicalReplacement
  simp only [hphysical]
  split
  · split
    · exact hidle _ nofun
    · split
      · exact hidle _ nofun
      · next packed hpacked =>
          split
          · exact hidle _ nofun
          · exact writeReplacement_spec hpositive hfits howned hsnapshot pair hpacked io
  · exact hidle _ nofun
  · exact hidle _ nofun

end Build

/-! ## Publication -/

section Publish

variable {runtime : Runtime} {physical : Physical} {current : Snapshot} {pair : MergeCandidate}
  {view left right : View}

theorem sorted_of_admitted (hadmitted : Admitted current pair view left right) :
    SortedMap.Sorted (view.vectorNodes.zip view.vectorLocations) := by
  by_cases hempty : view.vectorNodes = []
  · rw [hempty, List.zip_nil_left]
    exact List.Pairwise.nil
  · have hdirectory := hadmitted.directory
    simp only [directoryRejected, not_and_or, not_or, not_not] at hdirectory
    obtain ⟨hnodes, -⟩ | ⟨-, hlengths, -, -, hle, hne⟩ := hdirectory
    · exact absurd hnodes hempty
    · have hlt : view.vectorNodes.Pairwise (· < ·) := by
        rw [← List.isChain_iff_pairwise, List.isChain_iff_getElem]
        intro index hindex
        exact lt_of_le_of_ne (List.isChain_iff_getElem.mp hle index hindex)
          (List.isChain_iff_getElem.mp hne index hindex)
      have hkeys : (view.vectorNodes.zip view.vectorLocations).map Prod.fst = view.vectorNodes :=
        List.map_fst_zip hlengths.ge
      rw [← hkeys] at hlt
      exact List.pairwise_map.mp hlt

theorem directoryOk_successor (hcurrent : current.DirectoryOk)
    (hadmitted : Admitted current pair view left right) :
    (successor current view).DirectoryOk ∧
      ∀ node, SortedMap.find (successor current view).directory node =
        (SortedMap.find (view.vectorNodes.zip view.vectorLocations) node).or
          (SortedMap.find current.directory node) := by
  have hupdates := sorted_of_admitted hadmitted
  have hempty : SortedMap.Sorted ([] : SortedMap NodeId VectorLocation) := List.Pairwise.nil
  have hdirectory : (successor current view).directory =
      SortedMap.setAll (view.vectorNodes.zip view.vectorLocations)
        (SortedMap.setAll current.directory []) := by
    simp [Snapshot.directory, successor, List.zip_map', List.map_id'']
  refine ⟨⟨by simp [successor], ?_, fun node hnode => filterContains_filterOf hnode⟩, fun node => ?_⟩
  · rw [hdirectory]
    exact (hempty.setAll _).setAll _
  · rw [hdirectory, SortedMap.find_setAll hupdates, SortedMap.find_setAll hcurrent.sorted,
      SortedMap.find_nil, Option.or_none]

theorem SnapshotTransparent.successor (hcurrent : SnapshotTransparent runtime physical current)
    (hview : ViewTransparent runtime physical view) (howned : Owned physical)
    (htable : Partitions View.logicalCellIds current.cells)
    (hadmitted : Admitted current pair view left right) :
    SnapshotTransparent runtime physical (successor current view) := by
  obtain ⟨hdirectory, hfind⟩ := directoryOk_successor hcurrent.directory hadmitted
  have hcells := htable.getElem?_merge hadmitted.leftCell hadmitted.rightCell fun cell => by
    rw [hadmitted.cells, mem_mergedCells]
  have hkeys : (view.vectorNodes.zip view.vectorLocations).map Prod.fst = view.vectorNodes :=
    List.map_fst_zip hview.lengths.ge
  refine ⟨hdirectory, fun node source cell hsource howner => ?_⟩
  rw [hdirectory.vectorLocation_eq, hfind]
  have hcell : (Runtime.successor current view).cells[cell]? =
      if cell ∈ view.logicalCellIds then some view else current.cells[cell]? := hcells cell
  by_cases hmoved : node ∈ view.vectorNodes
  · obtain ⟨location, hlocation⟩ := SortedMap.find_of_mem_keys (hkeys.symm ▸ hmoved)
    obtain ⟨found, hfound, hholds⟩ := hview.holds _ (SortedMap.mem_of_find hlocation)
    obtain rfl := Option.some.inj (hsource.symm.trans hfound)
    obtain ⟨other, hother, nodes, hnodes, hmem⟩ := (hview.nodes node).mp hmoved
    obtain rfl : other = cell :=
      Option.some.inj (Option.some.inj ((howned.owner other nodes hnodes node hmem).symm.trans howner))
    rw [hcell, if_pos hother, hlocation]
    exact ⟨view, rfl, hholds⟩
  · have hnone : SortedMap.find (view.vectorNodes.zip view.vectorLocations) node = none :=
      SortedMap.find_eq_none (hkeys.symm ▸ hmoved)
    have houtside : cell ∉ view.logicalCellIds := by
      intro hinside
      obtain ⟨other, nodes, howned, hnodes, hmem⟩ :=
        howned.listed node (List.getElem_of_getElem? hsource).1
      obtain rfl : other = cell := Option.some.inj (Option.some.inj (howned.symm.trans howner))
      exact hmoved ((hview.nodes node).mpr ⟨other, hinside, nodes, hnodes, hmem⟩)
    rw [hcell, if_neg houtside, hnone, Option.none_or, ← hcurrent.directory.vectorLocation_eq]
    exact hcurrent.holds node source cell hsource howner

end Publish

end Runtime

/-! ## Sessions -/

namespace Session

open SkipCell.Adaptive.Runtime

/-- Sessions whose replacements all come from `make_physical_replacement`. -/
def PhysicalPermitted (session : Session) : Action → Prop
  | .buildContiguous _ => False
  | action => session.Permitted action

def physicalTransition (runtime : Runtime) : Transition Session Action :=
  .guarded (· = start runtime) PhysicalPermitted perform

/-- No page belongs to both views. -/
def PagesApart (first second : View) : Prop :=
  ∀ pageId, first.Covers pageId → ¬ second.Covers pageId

/-- All that the session has built or published is transparent, and no two builds
share a page. -/
structure Transparent (fixedCells : List CellPageRange) (config : Config) (physical : Physical)
    (session : Session) : Prop where
  mapped : Mapped fixedCells config session
  samePhysical : session.runtime.physical = some physical
  published : ∀ snapshot ∈ session.published,
    SnapshotTransparent session.runtime physical snapshot
  current : session.runtime.snapshot ∈ session.published
  built : ∀ view ∈ session.built, ViewTransparent session.runtime physical view
  allocated : ∀ view ∈ session.built, ∀ pageId, view.Covers pageId →
    pageId < physical.baseIndex.vectorPageCount + session.runtime.nextOverlayPage
  apart : session.built.Pairwise PagesApart

theorem exists_read {file : ByteFile} {offset count : Nat} (hfits : offset + count ≤ file.size) :
    ∃ bytes, file.read offset count = some bytes :=
  ⟨_, if_pos hfits⟩

variable {runtime : Runtime}

theorem snapshotTransparent_start {fixedCells : List CellPageRange}
    {candidates : List MergeCandidate} {config : Config} {base : BaseIndex} {vectorBytes : Nat}
    {cellNodes : List (List NodeId)} {physical : Physical}
    (hcreated : CreatedPhysical fixedCells candidates config base vectorBytes cellNodes physical
      runtime) (hlayout : BaseLayout fixedCells base vectorBytes cellNodes) :
    SnapshotTransparent runtime physical runtime.snapshot := by
  obtain ⟨hcreated, rfl, rfl, -, -, hlengths, howned, hsorted⟩ := hcreated
  have hdirectory : runtime.snapshot.DirectoryOk := by
    refine ⟨?_, ?_, ?_⟩
    · rw [hcreated.overrideNodes, hcreated.overrideLocations]
      rfl
    · rw [Snapshot.directory, hcreated.overrideNodes]
      exact List.Pairwise.nil
    · rw [hcreated.overrideNodes]
      exact fun nodeId hnode => absurd hnode List.not_mem_nil
  refine ⟨hdirectory, fun node source cell hsource howner => ?_⟩
  have hfallback : runtime.snapshot.vectorLocation node source = source := by
    rw [hdirectory.vectorLocation_eq, Snapshot.directory, hcreated.overrideNodes]
    rfl
  obtain ⟨hpage, hoffset⟩ := hlayout.location source (List.mem_of_getElem? hsource)
  -- the Cell that owns the node has a range, and its view keeps that range
  obtain ⟨other, sorted, hother, hnodes, hmem⟩ :=
    howned.listed node (List.getElem_of_getElem? hsource).1
  obtain rfl : other = cell := Option.some.inj (Option.some.inj (hother.symm.trans howner))
  obtain ⟨hbound, hget⟩ := List.getElem_of_getElem? hnodes
  have hcells : other < cellNodes.length := hsorted.length_eq ▸ hbound
  have hperm := hsorted.get hbound hcells
  have hmember : node ∈ cellNodes[other] := hperm.mem_iff.mp (by simpa [hget] using hmem)
  obtain ⟨hviews, hspec⟩ := initialViews_spec hcreated.views
  have hview := List.getElem?_eq_getElem (hviews.symm ▸ hlengths ▸ hcells :
    other < runtime.snapshot.cells.length)
  obtain ⟨range, hrange, hinitial⟩ := hspec other _ hview
  obtain ⟨hfirst, hlast⟩ := hlayout.cell other _ range (List.getElem?_eq_getElem hcells) hrange node
    hmember source hsource
  refine ⟨_, hview, ?_⟩
  rw [hfallback]
  refine ⟨?_, ⟨_, hinitial.pageRuns ▸ List.mem_singleton_self _, hfirst, hlast⟩, hoffset,
    hpage.trans_le (Nat.le_add_right _ _)⟩
  have hfits : filePosition source + physical.vectorBytes ≤
      physical.baseIndex.vectorFile.size := by
    have hpages := Nat.mul_le_mul_right kIoVectorPageSize hpage
    rw [Nat.succ_eq_add_one, Nat.add_mul, Nat.one_mul] at hpages
    have hfile := hlayout.file
    unfold filePosition
    omega
  obtain ⟨bytes, hbytes⟩ := exists_read hfits
  refine ⟨bytes, hbytes, ?_⟩
  unfold readLocation
  simp only
  rw [if_neg (Nat.not_le.mpr hpage)]
  exact hbytes

namespace Transparent

variable {fixedCells : List CellPageRange} {config : Config} {physical : Physical}
  {session : Session}

section

variable (htransparent : Transparent fixedCells config physical session)
include htransparent

theorem of_frame {runtime : Runtime} (hframe : BuildFrame session.runtime runtime)
    (hextends : Extends session.runtime runtime) :
    Transparent fixedCells config physical { session with runtime := runtime } where
  mapped := htransparent.mapped.of_frame hframe rfl
  samePhysical := hframe.physical.trans htransparent.samePhysical
  published := fun snapshot hsnapshot => (htransparent.published snapshot hsnapshot).extend hextends
  current := by
    rw [hframe.snapshot]
    exact htransparent.current
  built := fun view hview => (htransparent.built view hview).extend hextends
  allocated := fun view hview pageId hcovers =>
    (htransparent.allocated view hview pageId hcovers).trans_le
      (Nat.add_le_add_left hextends.pages _)
  apart := htransparent.apart

theorem build_step (hpositive : 0 < physical.vectorBytes)
    (hfits : physical.vectorBytes ≤ kIoVectorPageSize) (howned : Owned physical) (candidate : Nat)
    (io : Io) :
    Transparent fixedCells config physical (session.perform (.buildPhysical candidate io)) := by
  simp only [perform]
  split
  · exact htransparent
  · next pair _ =>
      obtain ⟨hextends, hview⟩ := makePhysicalReplacement_spec htransparent.samePhysical hpositive
        hfits howned (htransparent.published _ htransparent.current) pair io
      have hframe := session.runtime.makePhysicalReplacement_frame pair io
      generalize session.runtime.makePhysicalReplacement pair io = outcome at hextends hview hframe
      have hnext := htransparent.of_frame hframe hextends
      unfold addBuilt
      split
      · next view hresult =>
          obtain ⟨hbuilt, hpages⟩ := hview view hresult
          refine ⟨hnext.mapped.of_frame ⟨rfl, rfl, rfl, rfl, rfl⟩ rfl, hnext.samePhysical,
            hnext.published, hnext.current, ?_, ?_, ?_⟩
          · exact List.forall_mem_cons.mpr ⟨hbuilt, hnext.built⟩
          · exact List.forall_mem_cons.mpr ⟨fun pageId hcovers => (hpages pageId hcovers).2,
              hnext.allocated⟩
          · refine List.pairwise_cons.mpr ⟨fun older holder pageId hnew hold => ?_, hnext.apart⟩
            exact absurd (htransparent.allocated older holder pageId hold)
              (Nat.not_lt.mpr (hpages pageId hnew).1)
      · exact hnext

theorem publish_step (howned : Owned physical) (candidate : Nat) (replacement : Option View)
    (force : Bool) (hpermitted : session.Permitted (.publish candidate replacement force)) :
    Transparent fixedCells config physical
      (session.perform (.publish candidate replacement force)) := by
  have hmapped := htransparent.mapped.publish_step candidate replacement force
  rcases session.runtime.tryPublish_cases candidate replacement force with
    ⟨pair, view, left, right, -, rfl, -, hadmitted, hcall⟩ | ⟨attempts, result, hresult, hcall⟩
  · simp only [perform, hcall] at hmapped ⊢
    have hextends : Extends session.runtime
        ({ session.runtime with
          publishAttempts := session.runtime.publishAttempts + 1 }.install view) :=
      ⟨Nat.le_refl _, fun _ _ _ _ hread => hread⟩
    have hcurrent := htransparent.published _ htransparent.current
    have hsnapshot := (hcurrent.successor (htransparent.built view hpermitted) howned
      htransparent.mapped.table.partitions hadmitted).extend hextends
    refine ⟨hmapped, htransparent.samePhysical, ?_, List.mem_cons_self, ?_,
      htransparent.allocated, htransparent.apart⟩
    · exact List.forall_mem_cons.mpr ⟨hsnapshot, fun snapshot holder =>
        (htransparent.published snapshot holder).extend hextends⟩
    · exact fun older holder => (htransparent.built older holder).extend hextends
  · simp only [perform, hcall]
    exact htransparent.of_frame ⟨rfl, rfl, rfl, rfl, rfl⟩ ⟨Nat.le_refl _, fun _ _ _ _ hread => hread⟩

theorem perform_step (hpositive : 0 < physical.vectorBytes)
    (hfits : physical.vectorBytes ≤ kIoVectorPageSize) (howned : Owned physical) {action : Action}
    (hpermitted : session.PhysicalPermitted action) :
    Transparent fixedCells config physical (session.perform action) := by
  cases action with
  | observe candidate leftLoaded rightLoaded fixedPages mergedPages fixedUnseen mergedUnseen =>
    obtain ⟨observations, counters, hframe⟩ := session.runtime.observe_frame candidate leftLoaded
      rightLoaded fixedPages mergedPages fixedUnseen mergedUnseen
    rw [perform, hframe]
    exact htransparent.of_frame ⟨rfl, rfl, rfl, rfl, rfl⟩
      ⟨Nat.le_refl _, fun _ _ _ _ hread => hread⟩
  | buildContiguous candidate => exact absurd hpermitted id
  | buildPhysical candidate io => exact htransparent.build_step hpositive hfits howned candidate io
  | publish candidate replacement force =>
    exact htransparent.publish_step howned candidate replacement force hpermitted

end

end Transparent

/-- What a reader of a session's snapshots relies on. -/
structure OverlayTransparent (base : BaseIndex) (vectorBytes : Nat) (session : Session) : Prop where
  /-- Each node's location leads to its Base vector, on a page of its Cell's view. -/
  vectors : ∀ snapshot ∈ session.published, ∀ (node : NodeId) (source : VectorLocation),
    base.vectorLocations[node]? = some source →
    ∃ bytes cell view,
      base.vectorFile.read (filePosition source) vectorBytes = some bytes ∧
      session.runtime.bytesAt (snapshot.vectorLocation node source) = some bytes ∧
      session.runtime.logicalCell node = some cell ∧ snapshot.cells[cell]? = some view ∧
      view.Covers (snapshot.vectorLocation node source).pageId ∧
      (snapshot.vectorLocation node source).pageOffset + vectorBytes ≤ kIoVectorPageSize
  filtered : ∀ snapshot ∈ session.published, ∀ nodeId ∈ snapshot.overrideNodes,
    filterContains snapshot.overrideFilter nodeId = true
  apart : session.built.Pairwise PagesApart

/-- After any builds, completed or not, and any publications, taken or refused,
every snapshot still leads to the Base vectors. -/
theorem overlay_transparent {fixedCells : List CellPageRange} {candidates : List MergeCandidate}
    {config : Config} {base : BaseIndex} {vectorBytes : Nat} {cellNodes : List (List NodeId)}
    {runtime : Runtime}
    (hcreate : createPhysical fixedCells candidates config base vectorBytes cellNodes = .ok runtime)
    (hlayout : BaseLayout fixedCells base vectorBytes cellNodes) {session : Session}
    (hreach : (physicalTransition runtime).Reachable session) :
    session.runtime.snapshot ∈ session.published ∧
      OverlayTransparent base vectorBytes session := by
  obtain ⟨physical, hcreated⟩ := created_of_createPhysical hcreate
  have hstart := snapshotTransparent_start hcreated hlayout
  obtain ⟨hcreated, rfl, rfl, hpositive, hfits, -, howned, -⟩ := hcreated
  have htransparent : Transparent fixedCells config physical session := by
    refine hreach.invariant ?_ ?_
    · rintro _ rfl
      refine ⟨.start hcreated, hcreated.physical, ?_, List.mem_singleton_self _, by simp [start],
        by simp [start], List.Pairwise.nil⟩
      exact fun snapshot hsnapshot => List.mem_singleton.mp hsnapshot ▸ hstart
    · rintro state action _ hstate ⟨hpermitted, rfl⟩
      exact hstate.perform_step hpositive hfits howned hpermitted
  refine ⟨htransparent.current, ?_, ?_, htransparent.apart⟩
  · intro snapshot hsnapshot node source hsource
    obtain ⟨cell, nodes, howner, -, -⟩ := howned.listed node (List.getElem_of_getElem? hsource).1
    obtain ⟨view, hview, hholds⟩ :=
      (htransparent.published snapshot hsnapshot).holds node source cell hsource howner
    obtain ⟨bytes, hbase, hread⟩ := hholds.bytes
    refine ⟨bytes, cell, view, hbase, ?_, ?_, hview, hholds.covered, hholds.inPage⟩
    · rw [bytesAt, htransparent.samePhysical]
      exact hread
    · rw [logicalCell, htransparent.samePhysical, Option.bind_some, howner]
      rfl
  · exact fun snapshot hsnapshot => (htransparent.published snapshot hsnapshot).directory.filtered

/-- Builds a replacement and publishes what the last build returned. -/
def merge (session : Session) (candidate : Nat) : Session :=
  let next := session.perform (.buildPhysical candidate .completes)
  next.perform (.publish candidate next.built.head? true)

theorem reachable_build {session : Session}
    (hreach : (physicalTransition runtime).Reachable session) (candidate : Nat) (io : Io) :
    (physicalTransition runtime).Reachable (session.perform (.buildPhysical candidate io)) := by
  refine Transition.Reachable.performed hreach ?_
  trivial

theorem reachable_merge {session : Session}
    (hreach : (physicalTransition runtime).Reachable session) (candidate : Nat) :
    (physicalTransition runtime).Reachable (session.merge candidate) := by
  have hbuild := reachable_build hreach candidate .completes
  unfold merge
  generalize session.perform (.buildPhysical candidate .completes) = next at hbuild ⊢
  refine Transition.Reachable.performed hbuild ?_
  change next.Permitted (.publish candidate next.built.head? true)
  cases hview : next.built.head? with
  | none => trivial
  | some view => exact List.mem_of_head? hview

/-- Five nodes in three Cells of one page each, four vectors to a page. -/
def fiveNodes : BaseIndex where
  vectorLocations := [⟨0, 0⟩, ⟨1, 0⟩, ⟨2, 0⟩, ⟨0, 1024⟩, ⟨1, 1024⟩]
  vectorPageCount := 3
  vectorFile := ⟨3 * 4096, UInt8.ofNat⟩

def fiveNodeCells : List CellPageRange := [⟨0, 1, 2⟩, ⟨1, 1, 2⟩, ⟨2, 1, 1⟩]

def fiveNodeRuntime : Runtime :=
  (createPhysical fiveNodeCells [⟨0, 1⟩, ⟨1, 2⟩] { enabled := true } fiveNodes 1024
    [[3, 0], [1, 4], [2]]).toOption.get (by decide)

theorem fiveNodes_layout : BaseLayout fiveNodeCells fiveNodes 1024 [[3, 0], [1, 4], [2]] where
  file := by decide
  location := by decide
  cell
    | 0, _, _, rfl, rfl => by decide
    | 1, _, _, rfl, rfl => by decide
    | 2, _, _, rfl, rfl => by decide

def chainedMerges : Session :=
  (((start fiveNodeRuntime).perform (.buildPhysical 0 (.stopsAfter 100))).merge 0).merge 1

theorem overlay_transparent_chained : chainedMerges.runtime.snapshot ∈ chainedMerges.published ∧
    OverlayTransparent fiveNodes 1024 chainedMerges :=
  overlay_transparent (show createPhysical fiveNodeCells [⟨0, 1⟩, ⟨1, 2⟩] { enabled := true }
      fiveNodes 1024 [[3, 0], [1, 4], [2]] = .ok fiveNodeRuntime from rfl) fiveNodes_layout
    (reachable_merge (reachable_merge (reachable_build (.of_initial rfl) 0 (.stopsAfter 100)) 0) 1)

end Session

end SkipCell.Adaptive

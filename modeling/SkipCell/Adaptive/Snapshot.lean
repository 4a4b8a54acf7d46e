import SkipCell.Foundation.SortedMap

/-! # Cell views and mapping-table snapshots

A snapshot maps every logical Cell to a view and keeps a sorted directory of
nodes whose vectors have moved. A two-bit filter stands in front of the
directory; the lemmas here say that it never hides an entry.
-/

namespace SkipCell.Adaptive

open Foundation

/-- Nodes and logical Cells are numbered by `uint32_t` in the source. -/
abbrev NodeId := Nat

abbrev CellId := Nat

structure PageRun where
  firstPage : Nat
  pageCount : Nat
  deriving DecidableEq

structure VectorLocation where
  pageId : Nat
  pageOffset : Nat
  deriving DecidableEq

structure CellPageRange where
  firstPage : Nat
  pageCount : Nat
  nodeCount : Nat

/-- A physical Cell descriptor. -/
structure View where
  viewId : Nat
  generation : Nat
  capacityClass : Nat
  nodeCount : Nat
  physicalPayloadReady : Bool
  logicalCellIds : List CellId
  pageRuns : List PageRun
  vectorNodes : List NodeId := []
  vectorLocations : List VectorLocation := []
  payloadChecksum : UInt64 := 0
  directoryChecksum : UInt64 := 0
  deriving DecidableEq

inductive Error
  | outOfRange (what : String)
  | invalidArgument (what : String)
  | runtimeError (what : String)

def kOverrideFilterBits : UInt64 := 64 * 64

def mixNodeId (nodeId : NodeId) : UInt64 :=
  let value := UInt64.ofNat nodeId + 0x9e3779b97f4a7c15
  let value := (value ^^^ (value >>> 30)) * 0xbf58476d1ce4e5b9
  let value := (value ^^^ (value >>> 27)) * 0x94d049bb133111eb
  value ^^^ (value >>> 31)

/-- The 64 words of the filter. -/
abbrev OverrideFilter := Fin 64 → UInt64

/-- The word that holds a bit; `bit / 64` is below 64 for every filter bit. -/
def filterWord (bit : UInt64) : Fin 64 := Fin.ofNat 64 (bit / 64).toNat

def filterMask (bit : UInt64) : UInt64 := 1 <<< (bit % 64)

def filterBits (nodeId : NodeId) : UInt64 × UInt64 :=
  let hash := mixNodeId nodeId
  (hash % kOverrideFilterBits, (hash >>> 32) % kOverrideFilterBits)

def filterTest (filter : OverrideFilter) (bit : UInt64) : Bool :=
  filter (filterWord bit) &&& filterMask bit != 0

def filterSet (filter : OverrideFilter) (bit : UInt64) : OverrideFilter := fun word =>
  if word = filterWord bit then filter word ||| filterMask bit else filter word

def filterContains (filter : OverrideFilter) (nodeId : NodeId) : Bool :=
  let (first, second) := filterBits nodeId
  filterTest filter first && filterTest filter second

def filterInsert (filter : OverrideFilter) (nodeId : NodeId) : OverrideFilter :=
  let (first, second) := filterBits nodeId
  filterSet (filterSet filter first) second

theorem filterMask_ne_zero (bit : UInt64) : filterMask bit ≠ 0 := by
  intro hzero
  have hnat := congrArg UInt64.toNat hzero
  have hshift : (bit % 64).toNat < 64 := by
    rw [UInt64.toNat_mod]
    exact Nat.mod_lt _ (by decide)
  rw [filterMask, UInt64.toNat_shiftLeft, Nat.mod_eq_of_lt hshift] at hnat
  have hpow : 2 ^ (bit % 64).toNat < 2 ^ 64 := Nat.pow_lt_pow_right (by decide) hshift
  have hpos : 0 < 2 ^ (bit % 64).toNat := Nat.two_pow_pos _
  simp only [UInt64.toNat_one, Nat.one_shiftLeft, UInt64.toNat_zero] at hnat
  rw [Nat.mod_eq_of_lt hpow] at hnat
  omega

theorem filterMask_or (word extra mask : UInt64) :
    (word ||| extra) &&& mask = (word &&& mask) ||| (extra &&& mask) :=
  UInt64.toBitVec_inj.mp BitVec.and_or_distrib_right

theorem filterTest_set_self (filter : OverrideFilter) (bit : UInt64) :
    filterTest (filterSet filter bit) bit = true := by
  have hmask := filterMask_ne_zero bit
  simp [filterTest, filterSet, filterMask_or, hmask]

variable {filter : OverrideFilter}

theorem filterTest_set {bit : UInt64} (other : UInt64) (htest : filterTest filter bit = true) :
    filterTest (filterSet filter other) bit = true := by
  simp only [filterTest, filterSet, bne_iff_ne, ne_eq] at htest ⊢
  split
  · rw [filterMask_or, UInt64.or_eq_zero_iff]
    exact fun hzero => htest hzero.1
  · exact htest

theorem filterContains_insert_self (filter : OverrideFilter) (nodeId : NodeId) :
    filterContains (filterInsert filter nodeId) nodeId = true := by
  simp only [filterContains, filterInsert, Bool.and_eq_true]
  exact ⟨filterTest_set _ (filterTest_set_self _ _), filterTest_set_self _ _⟩

theorem filterContains_insert {nodeId : NodeId} (other : NodeId)
    (hcontains : filterContains filter nodeId = true) :
    filterContains (filterInsert filter other) nodeId = true := by
  simp only [filterContains, filterInsert, Bool.and_eq_true] at hcontains ⊢
  exact ⟨filterTest_set _ (filterTest_set _ hcontains.1),
    filterTest_set _ (filterTest_set _ hcontains.2)⟩

/-- The filter that `try_publish` fills for a directory. -/
def filterOf (nodes : List NodeId) : OverrideFilter := nodes.foldl filterInsert fun _ => 0

theorem filterContains_foldl {nodeId : NodeId} (nodes : List NodeId)
    (hcontains : filterContains filter nodeId = true ∨ nodeId ∈ nodes) :
    filterContains (nodes.foldl filterInsert filter) nodeId = true := by
  induction nodes generalizing filter with
  | nil => exact hcontains.resolve_right List.not_mem_nil
  | cons first rest ih =>
    refine ih ?_
    rcases hcontains with hcontains | hmem
    · exact .inl (filterContains_insert first hcontains)
    · rcases List.mem_cons.mp hmem with rfl | hrest
      · exact .inl (filterContains_insert_self filter nodeId)
      · exact .inr hrest

theorem filterContains_filterOf {nodes : List NodeId} {nodeId : NodeId} (hnode : nodeId ∈ nodes) :
    filterContains (filterOf nodes) nodeId = true :=
  filterContains_foldl nodes (.inr hnode)

structure Snapshot where
  generation : Nat
  cells : List View
  overrideNodes : List NodeId
  overrideLocations : List VectorLocation
  overrideFilter : OverrideFilter

namespace Snapshot

variable {snapshot : Snapshot}

def cell (snapshot : Snapshot) (logicalCell : CellId) : Except Error View :=
  match snapshot.cells[logicalCell]? with
  | some view => .ok view
  | none => .error (.outOfRange "Adaptive Cell snapshot logical Cell is out of range")

/-- The filter comes first, then a binary search of the sorted directory. -/
def vectorLocation (snapshot : Snapshot) (nodeId : NodeId) (fallback : VectorLocation) :
    VectorLocation :=
  if filterContains snapshot.overrideFilter nodeId then
    let found := SortedMap.lowerBound snapshot.overrideNodes nodeId
    match snapshot.overrideNodes[found]?, snapshot.overrideLocations[found]? with
    | some node, some location => if node = nodeId then location else fallback
    | _, _ => fallback
  else
    fallback

/-- The directory that `overrideNodes` and `overrideLocations` store column by column. -/
def directory (snapshot : Snapshot) : SortedMap NodeId VectorLocation :=
  snapshot.overrideNodes.zip snapshot.overrideLocations

structure DirectoryOk (snapshot : Snapshot) : Prop where
  lengths : snapshot.overrideNodes.length = snapshot.overrideLocations.length
  sorted : SortedMap.Sorted snapshot.directory
  filtered : ∀ nodeId ∈ snapshot.overrideNodes,
    filterContains snapshot.overrideFilter nodeId = true

theorem DirectoryOk.nodes_eq (hdirectory : snapshot.DirectoryOk) :
    snapshot.directory.map Prod.fst = snapshot.overrideNodes :=
  List.map_fst_zip hdirectory.lengths.le

theorem DirectoryOk.vectorLocation_eq (hdirectory : snapshot.DirectoryOk) (nodeId : NodeId)
    (fallback : VectorLocation) :
    snapshot.vectorLocation nodeId fallback =
      (SortedMap.find snapshot.directory nodeId).getD fallback := by
  unfold vectorLocation
  by_cases hfilter : filterContains snapshot.overrideFilter nodeId = true
  · rw [if_pos hfilter, SortedMap.find_lowerBound hdirectory.sorted, hdirectory.nodes_eq]
    rw [directory, List.zip, List.getElem?_zipWith]
    simp only
    cases snapshot.overrideNodes[SortedMap.lowerBound snapshot.overrideNodes nodeId]? with
    | none => rfl
    | some node =>
      cases snapshot.overrideLocations[SortedMap.lowerBound snapshot.overrideNodes nodeId]? with
      | none => rfl
      | some location =>
        by_cases hnode : node = nodeId
        · simp [hnode]
        · simp [hnode]
  · -- a node that the filter does not contain has no entry
    have hnone : SortedMap.find snapshot.directory nodeId = none := by
      rw [← Option.not_isSome_iff_eq_none]
      intro hsome
      obtain ⟨location, hlocation⟩ := Option.isSome_iff_exists.mp hsome
      exact hfilter (hdirectory.filtered nodeId
        (List.of_mem_zip (SortedMap.mem_of_find hlocation)).1)
    rw [if_neg hfilter, hnone]
    rfl

end Snapshot

end SkipCell.Adaptive

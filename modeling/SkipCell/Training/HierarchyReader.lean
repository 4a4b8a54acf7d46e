import SkipCell.Foundation.ByteReader
import SkipCell.Foundation.Ieee
import SkipCell.Foundation.RootedTree
import SkipCell.Foundation.Subspan

/-! # The Python reader of hierarchies

`read_hierarchy` of `train_geometric_cells.py` checks that every node but the root and every Cell
has one parent. A cycle of nodes apart from the root passes these checks.
-/

namespace SkipCell.Training

open Foundation

structure HierarchyNode where
  centroid : List Single
  children : List Nat
  childrenAreCells : Bool
  descendantNodeCount : Nat
  radius : Single
  deriving DecidableEq

def hierarchyMagic : Nat := 0x0052454948434C50

def hierarchyVersion : Nat := 2

def invalidId : Nat := 2 ^ 32 - 1

structure HierarchyHeader where
  magic : Nat
  version : Nat
  dimension : Nat
  cellCount : Nat
  nodeCount : Nat
  communityCount : Nat
  childCount : Nat
  checksum : Nat

/-- `struct.error`. The sizes are checked before, so that no read meets it. -/
def structError : String := "unpack_from requires a larger buffer"

def readHeader : ByteReader String HierarchyHeader := do
  pure ⟨← readWord structError 8, ← readWord structError 4, ← readWord structError 4,
    ← readWord structError 4, ← readWord structError 4, ← readWord structError 4,
    ← readWord structError 4, ← readWord structError 8⟩

def readSingle : ByteReader String Single :=
  (fun bits => ⟨UInt32.ofNat bits⟩) <$> readWord structError 4

structure NodeRecord where
  nodeId : Nat
  childBegin : Nat
  count : Nat
  descendants : Nat
  radius : Single
  childrenAreCells : Nat

def readRecord : ByteReader String NodeRecord := do
  pure ⟨← readWord structError 4, ← readWord structError 4, ← readWord structError 4,
    ← readWord structError 8, ← readSingle, ← readWord structError 4⟩

def checkRecord (childCount expectedNodeId : Nat) (record : NodeRecord) : Except String Unit := do
  reject (record.nodeId ≠ expectedNodeId ∨ childCount < record.childBegin + record.count)
    "Source hierarchy has an invalid node record"
  reject (record.count = 0 ∨ (record.childrenAreCells ≠ 0 ∧ record.childrenAreCells ≠ 1))
    "Source hierarchy has an empty node or invalid child kind"
  reject (record.descendants = 0 ∨ record.radius.isFinite = false ∨ record.radius < .zero)
    "Source hierarchy has invalid geometry metadata"

def readRecords (childCount : Nat) : Nat → Nat → ByteReader String (List NodeRecord)
  | _, 0 => pure []
  | nodeId, count + 1 => do
    let record ← readRecord
    checkRecord childCount nodeId record
    return record :: (← readRecords childCount (nodeId + 1) count)

/-- The parents of the nodes (`false`) and of the Cells (`true`) that are known. -/
abbrev Parents := Bool → List (Option Nat)

def adopt (nodeId : Nat) : List Nat → List (Option Nat) → Except String (List (Option Nat))
  | [], parents => .ok parents
  | child :: children, parents => do
    reject (parents[child]? ≠ some none) "Source hierarchy has non-unique parentage"
    adopt nodeId children (parents.set child (some nodeId))

def adoptChildren (limit : Bool → Nat) (nodeId : Nat) (node : HierarchyNode) (parents : Parents) :
    Except String Parents := do
  reject (∃ child ∈ node.children, limit node.childrenAreCells ≤ child)
    "Source hierarchy contains an out-of-range child"
  let adopted ← adopt nodeId node.children (parents node.childrenAreCells)
  .ok (Function.update parents node.childrenAreCells adopted)

def checkTree (cellCount root : Nat) (hierarchy : List HierarchyNode) : Except String Unit := do
  let limit := fun cells : Bool => if cells then cellCount else hierarchy.length
  let parents ← scan (adoptChildren limit) 0 hierarchy fun cells =>
    List.replicate (limit cells) none
  reject ((parents false)[root]? ≠ some none ∨
      ∃ node < hierarchy.length, node ≠ root ∧ (parents false)[node]? = some none)
    "Source hierarchy is disconnected or its root has a parent"
  reject (none ∈ parents true) "Source hierarchy does not cover every Cell"

def toNode (dimension : Nat) (children : List Nat) (centroids : List Single)
    (numbered : NodeRecord × Nat) : HierarchyNode where
  centroid := subspan centroids (numbered.2 * dimension) dimension
  children := subspan children numbered.1.childBegin numbered.1.count
  childrenAreCells := numbered.1.childrenAreCells ≠ 0
  descendantNodeCount := numbered.1.descendants
  radius := numbered.1.radius

/-- `zlib.crc32` is a parameter. -/
def readHierarchy (crc32 : List UInt8 → Nat) (data : List UInt8) :
    Except String (Nat × Nat × Nat × List HierarchyNode) := do
  reject (data.length < 40) "Source hierarchy header is truncated"
  let (header, payload) ← readHeader data
  reject (header.magic ≠ hierarchyMagic ∨ (header.version ≠ 1 ∧ header.version ≠ hierarchyVersion))
    "Source hierarchy has an unsupported magic or version"
  reject (header.dimension = 0 ∨ header.cellCount = 0 ∨ header.nodeCount = 0 ∨
      header.communityCount = 0)
    "Source hierarchy has an invalid zero count"
  reject (data.length ≠ 40 + header.communityCount * 4 + header.nodeCount * 28 +
      header.childCount * 4 + header.nodeCount * header.dimension * 4)
    "Source hierarchy byte size disagrees with its header"
  let actualChecksum :=
    if header.version = 1 then (fnvBytes fnvOffsetBasis payload).toNat else crc32 payload
  reject (actualChecksum ≠ header.checksum) "Source hierarchy checksum mismatch"
  let (roots, payload) ← readMany (readWord structError 4) header.communityCount payload
  let validRoots := roots.filter (· ≠ invalidId)
  reject (validRoots.length ≠ 1 ∨ header.nodeCount ≤ validRoots.headD 0)
    "Source global hierarchy must contain exactly one valid root"
  let root := validRoots.headD 0
  let (records, payload) ← readRecords header.childCount 0 header.nodeCount payload
  let (children, payload) ← readMany (readWord structError 4) header.childCount payload
  let (centroids, _) ← readMany readSingle (header.nodeCount * header.dimension) payload
  reject (∃ value ∈ centroids, value.isFinite = false)
    "Source hierarchy contains a non-finite centroid"
  let hierarchy := records.zipIdx.map (toNode header.dimension children centroids)
  checkTree header.cellCount root hierarchy
  .ok (root, header.dimension, header.cellCount, hierarchy)

section Tree

variable (hierarchy : List HierarchyNode)

def ChildOf (parent node : Fin hierarchy.length) : Prop :=
  hierarchy[parent].childrenAreCells = false ∧ node.val ∈ hierarchy[parent].children

/-- The nodes are one tree, and every Cell is in one leaf, which a search comes to. -/
structure OneTree (cellCount : Nat) (root : Fin hierarchy.length) : Prop where
  nodes : RootedTree (ChildOf hierarchy) root
  cells : ∀ cell < cellCount, ∃! leaf : Fin hierarchy.length,
    (∃ path, Descent (ChildOf hierarchy) root leaf path) ∧
      hierarchy[leaf].childrenAreCells = true ∧ cell ∈ hierarchy[leaf].children

end Tree

/-- The known parents are those that a relation gives. -/
def Knows (parentOf : Nat → Nat → Prop) (parents : List (Option Nat)) : Prop :=
  ∀ child parent, parents[child]? = some (some parent) ↔ parentOf child parent

theorem knows_adopt {nodeId : Nat} {children : List Nat} {parents next : List (Option Nat)}
    (hadopt : adopt nodeId children parents = .ok next) {parentOf : Nat → Nat → Prop}
    (hknows : Knows parentOf parents) :
    next.length = parents.length ∧
      Knows (fun child parent => parentOf child parent ∨ child ∈ children ∧ parent = nodeId)
        next := by
  induction children generalizing parents parentOf with
  | nil =>
    cases hadopt
    exact ⟨rfl, fun child parent => (hknows child parent).trans (by simp)⟩
  | cons first children ih =>
    simp only [adopt, bind_ok, reject_ok, not_not] at hadopt
    obtain ⟨_, hfree, hadopt⟩ := hadopt
    have hbound := (List.getElem_of_getElem? hfree).1
    have hset : Knows (fun child parent => parentOf child parent ∨
        child = first ∧ parent = nodeId) (parents.set first (some nodeId)) := by
      intro child parent
      have hold := hknows child parent
      rw [List.getElem?_set]
      by_cases hsame : first = child
      · subst hsame
        have hnone : ¬ parentOf first parent := fun hparent => by
          cases hfree.symm.trans (hold.mpr hparent)
        simp [hbound, hnone, eq_comm]
      · simp [hsame, hold, Ne.symm hsame]
    obtain ⟨hlength, hnext⟩ := ih hadopt hset
    refine ⟨hlength.trans List.length_set, fun child parent => (hnext child parent).trans ?_⟩
    dsimp only
    rw [List.mem_cons, or_and_right, or_assoc]

theorem checkTree_eq_ok {cellCount root : Nat} {hierarchy : List HierarchyNode}
    (hcheck : checkTree cellCount root hierarchy = .ok ()) :
    ∃ parents : Parents,
      (∀ cells, (parents cells).length = if cells then cellCount else hierarchy.length) ∧
      (∀ cells, Knows (fun child parent => ∃ node, hierarchy[parent]? = some node ∧
        node.childrenAreCells = cells ∧ child ∈ node.children) (parents cells)) ∧
      (parents false)[root]? = some none ∧
      (∀ node < hierarchy.length, node ≠ root → (parents false)[node]? ≠ some none) ∧
      none ∉ parents true := by
  simp only [checkTree, bind_ok, reject_ok, not_or, not_not, not_exists, not_and]
    at hcheck
  obtain ⟨parents, hscan, _, ⟨hroot, hothers⟩, hcells⟩ := hcheck
  have hinvariant := scan_invariant hscan
    (motive := fun position (parents : Parents) => ∀ cells,
      (parents cells).length = (if cells then cellCount else hierarchy.length) ∧
      Knows (fun child parent => parent < position ∧ ∃ node, hierarchy[parent]? = some node ∧
        node.childrenAreCells = cells ∧ child ∈ node.children) (parents cells))
    (fun cells => ⟨by simp, fun child parent => by simp [List.getElem?_replicate]⟩) ?_
  · refine ⟨parents, fun cells => (hinvariant cells).1, fun cells child parent => ?_, hroot,
      hothers, hcells⟩
    rw [(hinvariant cells).2 child parent, Nat.zero_add]
    refine and_iff_right_of_imp ?_
    rintro ⟨node, hnode, -⟩
    exact (List.getElem_of_getElem? hnode).1
  · intro position node parents next hnode hbefore hstep cells
    rw [Nat.zero_add] at hbefore hstep ⊢
    simp only [adoptChildren, bind_ok, reject_ok, Except.ok.injEq] at hstep
    obtain ⟨_, -, adopted, hadopt, rfl⟩ := hstep
    obtain ⟨hlength, hknows⟩ := hbefore cells
    by_cases hkind : cells = node.childrenAreCells
    · subst hkind
      obtain ⟨hadopted, hnext⟩ := knows_adopt hadopt hknows
      rw [Function.update_self]
      refine ⟨hadopted.trans hlength, fun child parent => (hnext child parent).trans ?_⟩
      dsimp only
      rw [Nat.lt_succ_iff_lt_or_eq, or_and_right]
      refine or_congr_right ⟨?_, ?_⟩
      · rintro ⟨hchild, rfl⟩
        exact ⟨rfl, node, hnode, rfl, hchild⟩
      · rintro ⟨rfl, other, hother, -, hchild⟩
        obtain rfl := Option.some.inj (hnode.symm.trans hother)
        exact ⟨hchild, rfl⟩
    · rw [Function.update_of_ne hkind]
      refine ⟨hlength, fun child parent => (hknows child parent).trans ?_⟩
      dsimp only
      rw [Nat.lt_succ_iff_lt_or_eq, or_and_right]
      refine (or_iff_left ?_).symm
      rintro ⟨rfl, other, hother, hcells, -⟩
      obtain rfl := Option.some.inj (hnode.symm.trans hother)
      exact hkind hcells.symm

/-- What was accepted is one tree exactly if no node is among its own descendants. -/
theorem readHierarchy_tree_iff {crc32 : List UInt8 → Nat} {data : List UInt8}
    {root dimension cellCount : Nat} {hierarchy : List HierarchyNode}
    (hread : readHierarchy crc32 data = .ok (root, dimension, cellCount, hierarchy)) :
    ∃ hroot : root < hierarchy.length,
      OneTree hierarchy cellCount ⟨root, hroot⟩ ↔
        ∀ node, ¬ Relation.TransGen (ChildOf hierarchy) node node := by
  have hcheck : checkTree cellCount root hierarchy = .ok () := by
    simp only [readHierarchy, bind_ok, Except.ok.injEq, Prod.mk.injEq] at hread
    obtain ⟨_, -, _, -, _, -, _, -, _, -, _, -, _, -, _, -, _, -, _, -, _, -, _, -, _, hcheck,
      rfl, -, rfl, rfl⟩ := hread
    exact hcheck
  obtain ⟨parents, hlength, hknows, htop, hothers, hcells⟩ := checkTree_eq_ok hcheck
  have hroot : root < hierarchy.length := by
    have hbound := (List.getElem_of_getElem? htop).1
    rwa [hlength] at hbound
  have hchild : ∀ parent node : Fin hierarchy.length, ChildOf hierarchy parent node ↔
      (parents false)[node.val]? = some (some parent.val) := by
    intro parent node
    rw [hknows]
    simp [ChildOf]
  have htree := @rootedTree_iff _ (ChildOf hierarchy) ⟨root, hroot⟩
    (fun parent hparent => by cases htop.symm.trans ((hchild parent _).mp hparent))
    (fun {first second node} hfirst hsecond => by
      have hsame := ((hchild first node).mp hfirst).symm.trans ((hchild second node).mp hsecond)
      exact Fin.ext (Option.some.inj (Option.some.inj hsame)))
    _ (fun node hnode => by
      have hbound : node.val < (parents false).length := (hlength false).symm ▸ node.isLt
      have hsome := List.getElem?_eq_getElem hbound
      cases hparent : (parents false)[node.val] with
      | none =>
        rw [hparent] at hsome
        exact absurd hsome (hothers node node.isLt fun hsame => hnode (Fin.ext hsame))
      | some parent =>
        rw [hparent] at hsome
        obtain ⟨_, hinside, -⟩ := (hknows false _ _).mp hsome
        have hparentBound := (List.getElem_of_getElem? hinside).1
        exact ⟨⟨parent, hparentBound⟩, (hchild _ _).mpr hsome⟩)
  refine ⟨hroot, ?_⟩
  rw [← htree]
  refine ⟨OneTree.nodes, fun hnodes => ⟨hnodes, fun cell hcell => ?_⟩⟩
  have hbound : cell < (parents true).length := (hlength true).symm ▸ hcell
  have hsome := List.getElem?_eq_getElem hbound
  cases hleaf : (parents true)[cell] with
  | none => exact absurd (hleaf ▸ List.getElem_mem hbound) hcells
  | some leaf =>
    rw [hleaf] at hsome
    obtain ⟨node, hnode, hkind, hmem⟩ := (hknows true _ _).mp hsome
    obtain ⟨hleafBound, rfl⟩ := List.getElem_of_getElem? hnode
    refine ⟨⟨leaf, hleafBound⟩, ⟨(hnodes.reached _).exists, hkind, hmem⟩, ?_⟩
    rintro other ⟨-, hother, hagain⟩
    have hsecond := (hknows true cell other).mpr ⟨_, List.getElem?_eq_getElem other.isLt, hother,
      hagain⟩
    exact Fin.ext (Option.some.inj (Option.some.inj (hsecond.symm.trans hsome)))

/-- A file of the first version with one Cell, whose nodes have one child each. -/
def oneCellFile (nodes : List (Nat × Nat)) : List UInt8 :=
  let words := List.flatMap (encodeLittle 4)
  let payload := words [0] ++
    nodes.zipIdx.flatMap (fun ((_, childrenAreCells), nodeId) =>
      words [nodeId, nodeId, 1] ++ encodeLittle 8 1 ++ words [0, childrenAreCells]) ++
    words (nodes.map Prod.fst) ++ words (nodes.map fun _ => 0)
  encodeLittle 8 hierarchyMagic ++ words [1, 1, 1, nodes.length, 1, nodes.length] ++
    encodeLittle 8 (fnvBytes fnvOffsetBasis payload).toNat ++ payload

def onlyChild (child : Nat) (childrenAreCells : Bool) : HierarchyNode :=
  ⟨[.zero], [child], childrenAreCells, 1, .zero⟩

theorem readHierarchy_tree_iff_root : ∃ hroot : 0 < [onlyChild 0 true].length,
    OneTree [onlyChild 0 true] 1 ⟨0, hroot⟩ ↔
      ∀ node, ¬ Relation.TransGen (ChildOf [onlyChild 0 true]) node node :=
  readHierarchy_tree_iff (show readHierarchy (fun _ => 0) (oneCellFile [(0, 1)]) =
    .ok (0, 1, 1, [onlyChild 0 true]) by decide +kernel)

/-- The second node is its own child. -/
theorem readHierarchy_not_tree :
    let hierarchy := [onlyChild 0 true, onlyChild 1 false]
    readHierarchy (fun _ => 0) (oneCellFile [(0, 1), (1, 0)]) = .ok (0, 1, 1, hierarchy) ∧
      ¬ OneTree hierarchy 1 ⟨0, by decide⟩ := by
  refine ⟨by decide +kernel, fun htree => ?_⟩
  obtain ⟨path, hpath, hunique⟩ := htree.nodes.reached ⟨1, by decide⟩
  have hlonger := hunique _ (hpath.step (by simp [ChildOf, onlyChild]))
  exact absurd (congrArg List.length hlonger) (by simp)

end SkipCell.Training

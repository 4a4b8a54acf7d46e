import SkipCell.Foundation.RangeTree
import SkipCell.Search.CellHierarchy
import SkipCell.Sidecar.Layout

/-! # Both builders build one hierarchy

The stored hierarchy and the one that is built at load time are compared node by
node. Both builders are run in lockstep: each range appends as many nodes to both
states, and every node that is complete has the same children in both.
-/

namespace SkipCell.Search

open Foundation Sidecar Build

structure Builders where
  stored : ContiguousState := {}
  runtime : RuntimeHierarchy := {}

/-- A complete node has one number and the same children in both states. -/
def Agrees (builders : Builders) (node : Nat) : Prop :=
  ∃ left right children, builders.stored.nodes[node]? = some left ∧
    builders.runtime.cellHierarchyNodes[node]? = some right ∧
    builders.stored.nodeChildren[node]? = some children ∧
    left.nodeId = .ofNat node ∧ right.nodeId = .ofNat node ∧
    left.childrenAreCells = right.childrenAreCells ∧ children ≠ [] ∧
    left.childCount.toNat = children.length ∧ right.childCount.toNat = children.length ∧
    (builders.runtime.cellHierarchyChildren.drop right.childBegin.toNat).take children.length =
      children

/-- What appending nodes leaves as it was: the nodes before `bound`, and the
children that are laid out. -/
structure Keeps (before after : Builders) (bound : Nat) : Prop where
  stored : ∀ node < bound, after.stored.nodes[node]? = before.stored.nodes[node]?
  nodeChildren : ∀ node < bound,
    after.stored.nodeChildren[node]? = before.stored.nodeChildren[node]?
  runtime : ∀ node < bound,
    after.runtime.cellHierarchyNodes[node]? = before.runtime.cellHierarchyNodes[node]?
  children : before.runtime.cellHierarchyChildren <+: after.runtime.cellHierarchyChildren

/-- From `before` to `after` both builders have appended so many nodes, all complete,
and so many references to children. -/
structure Built (before after : Builders) (nodes references : Nat) : Prop where
  stored : after.stored.nodes.length = before.stored.nodes.length + nodes
  nodeChildren : after.stored.nodeChildren.length = before.stored.nodeChildren.length + nodes
  runtime : after.runtime.cellHierarchyNodes.length =
    before.runtime.cellHierarchyNodes.length + nodes
  children : after.runtime.cellHierarchyChildren.length =
    before.runtime.cellHierarchyChildren.length + references
  laid : after.stored.nodeChildren.flatten.length =
    before.stored.nodeChildren.flatten.length + references
  keeps : Keeps before after before.stored.nodes.length
  agrees : ∀ node, before.stored.nodes.length ≤ node → node < after.stored.nodes.length →
    Agrees after node

variable {position node bound later nodes references fuel cellCount : Nat} {first last : UInt32}
    {before after : Builders} {index : Index}

theorem length_flatten_set {rows : List (List UInt32)} {row : List UInt32}
    (hempty : rows[position]? = some []) :
    (rows.set position row).flatten.length = rows.flatten.length + row.length := by
  induction rows generalizing position with
  | nil => simp at hempty
  | cons first rows ih =>
    cases position with
    | zero =>
      obtain rfl := Option.some.inj hempty
      simp [Nat.add_comm]
    | succ position =>
      rw [List.getElem?_cons_succ] at hempty
      simp only [List.set_cons_succ, List.flatten_cons, List.length_append, ih hempty]
      omega

theorem take_drop_append {values rest slice : List UInt32} {first : Nat}
    (hslice : (values.drop first).take slice.length = slice) :
    ((values ++ rest).drop first).take slice.length = slice := by
  have hlength : slice.length ≤ (values.drop first).length := by
    have := congrArg List.length hslice
    rw [List.length_take] at this
    omega
  rw [List.drop_append, List.take_append_of_le_length hlength, hslice]

theorem Agrees.congr (hagrees : Agrees before node)
    (hstored : after.stored.nodes[node]? = before.stored.nodes[node]?)
    (hnodeChildren : after.stored.nodeChildren[node]? = before.stored.nodeChildren[node]?)
    (hruntime : after.runtime.cellHierarchyNodes[node]? =
      before.runtime.cellHierarchyNodes[node]?)
    (hextends : before.runtime.cellHierarchyChildren <+: after.runtime.cellHierarchyChildren) :
    Agrees after node := by
  obtain ⟨left, right, children, hleft, hright, hchildren, hleftId, hrightId, hcells, hnonempty,
    hleftCount, hrightCount, hslice⟩ := hagrees
  refine ⟨left, right, children, hstored.trans hleft, hruntime.trans hright,
    hnodeChildren.trans hchildren, hleftId, hrightId, hcells, hnonempty, hleftCount, hrightCount,
    ?_⟩
  obtain ⟨rest, hrest⟩ := hextends
  rw [← hrest]
  exact take_drop_append hslice

theorem Agrees.keeps (hagrees : Agrees before node) (hkeeps : Keeps before after bound)
    (hnode : node < bound) : Agrees after node :=
  hagrees.congr (hkeeps.stored node hnode) (hkeeps.nodeChildren node hnode)
    (hkeeps.runtime node hnode) hkeeps.children

theorem Keeps.trans {first second third : Builders} (hfirst : Keeps first second bound)
    (hsecond : Keeps second third later) (hle : bound ≤ later) : Keeps first third bound where
  stored node hnode := (hsecond.stored node (by omega)).trans (hfirst.stored node hnode)
  nodeChildren node hnode :=
    (hsecond.nodeChildren node (by omega)).trans (hfirst.nodeChildren node hnode)
  runtime node hnode := (hsecond.runtime node (by omega)).trans (hfirst.runtime node hnode)
  children := hfirst.children.trans hsecond.children

namespace Built

theorem refl (builders : Builders) : Built builders builders 0 0 where
  stored := rfl
  nodeChildren := rfl
  runtime := rfl
  children := rfl
  laid := rfl
  keeps := ⟨fun _ _ => rfl, fun _ _ => rfl, fun _ _ => rfl, List.prefix_rfl⟩
  agrees node hfirst hlast := absurd hlast (by omega)

theorem trans {first second third : Builders} {nodes references moreNodes moreReferences : Nat}
    (hfirst : Built first second nodes references)
    (hsecond : Built second third moreNodes moreReferences) :
    Built first third (nodes + moreNodes) (references + moreReferences) where
  stored := by rw [hsecond.stored, hfirst.stored, Nat.add_assoc]
  nodeChildren := by rw [hsecond.nodeChildren, hfirst.nodeChildren, Nat.add_assoc]
  runtime := by rw [hsecond.runtime, hfirst.runtime, Nat.add_assoc]
  children := by rw [hsecond.children, hfirst.children, Nat.add_assoc]
  laid := by rw [hsecond.laid, hfirst.laid, Nat.add_assoc]
  keeps := hfirst.keeps.trans hsecond.keeps (by rw [hfirst.stored]; omega)
  agrees node hge hlt := by
    by_cases hnode : node < second.stored.nodes.length
    · exact (hfirst.agrees node hge hnode).keeps hsecond.keeps hnode
    · exact hsecond.agrees node (Nat.le_of_not_lt hnode) hlt

end Built

/-- Both builders hold the same number of nodes. -/
def Lockstep (builders : Builders) : Prop :=
  builders.stored.nodeChildren.length = builders.stored.nodes.length ∧
    builders.runtime.cellHierarchyNodes.length = builders.stored.nodes.length

theorem Built.lockstep (hbuilt : Built before after nodes references) (hlock : Lockstep before) :
    Lockstep after :=
  ⟨by rw [hbuilt.nodeChildren, hbuilt.stored, hlock.1],
    by rw [hbuilt.runtime, hbuilt.stored, hlock.2]⟩

/-- Both builders have appended the record of a node whose children are to come. -/
structure Opened (before after : Builders) : Prop where
  stored : ∃ record, record.nodeId = .ofNat before.stored.nodes.length ∧
    after.stored.nodes = before.stored.nodes ++ [record]
  nodeChildren : after.stored.nodeChildren = before.stored.nodeChildren ++ [[]]
  runtime : ∃ record, record.nodeId = .ofNat before.runtime.cellHierarchyNodes.length ∧
    after.runtime.cellHierarchyNodes = before.runtime.cellHierarchyNodes ++ [record]
  children : after.runtime.cellHierarchyChildren = before.runtime.cellHierarchyChildren

theorem Opened.lockstep (hopened : Opened before after) (hlock : Lockstep before) :
    Lockstep after := by
  obtain ⟨_, -, hleft⟩ := hopened.stored
  obtain ⟨_, -, hright⟩ := hopened.runtime
  constructor
  · rw [hopened.nodeChildren, hleft, List.length_append, List.length_append, hlock.1]
    rfl
  · rw [hleft, hright, List.length_append, List.length_append, hlock.2]
    rfl

/-- The children of a node are written to both states. -/
def Builders.completeNode (builders : Builders) (nodeId : UInt32) (childrenAreCells : Bool)
    (children : List UInt32) : Builders where
  stored := builders.stored.completeNode nodeId childrenAreCells children
  runtime := builders.runtime.completeNode nodeId childrenAreCells children

theorem completeNode_keeps (builders : Builders) {nodeId : UInt32} (childrenAreCells : Bool)
    (children : List UInt32) (hother : node ≠ nodeId.toNat) :
    (builders.completeNode nodeId childrenAreCells children).stored.nodes[node]? =
        builders.stored.nodes[node]? ∧
      (builders.completeNode nodeId childrenAreCells children).stored.nodeChildren[node]? =
        builders.stored.nodeChildren[node]? ∧
      (builders.completeNode nodeId childrenAreCells children).runtime.cellHierarchyNodes[node]? =
        builders.runtime.cellHierarchyNodes[node]? := by
  refine ⟨?_, List.getElem?_set_ne hother.symm, ?_⟩
  · exact List.getElem?_modify_ne _ _ hother.symm
  · exact List.getElem?_modify_ne _ _ hother.symm

/-- A node is complete in both states once its children are written. -/
theorem Built.complete {opened grown : Builders} (hlock : Lockstep before)
    (hopened : Opened before opened) (hgrown : Built opened grown nodes references)
    (childrenAreCells : Bool) {children : List UInt32} (hchildren : children ≠ [])
    (hnode : before.stored.nodes.length < 2 ^ 32)
    (hoffset : grown.runtime.cellHierarchyChildren.length + children.length ≤ 2 ^ 32)
    (hcount : children.length < 2 ^ 32) :
    Built before
      (grown.completeNode (.ofNat before.stored.nodes.length) childrenAreCells children)
      (1 + nodes) (references + children.length) := by
  obtain ⟨left, hleftId, hleft⟩ := hopened.stored
  obtain ⟨right, hrightId, hright⟩ := hopened.runtime
  have hid : (UInt32.ofNat before.stored.nodes.length).toNat = before.stored.nodes.length := by
    rw [UInt32.toNat_ofNat', Nat.mod_eq_of_lt hnode]
  have hopenedLength : opened.stored.nodes.length = before.stored.nodes.length + 1 := by
    rw [hleft, List.length_append, List.length_singleton]
  have hpositive := List.length_pos_iff.mpr hchildren
  constructor
  case stored =>
    change (List.modify _ _ _).length = _
    rw [List.length_modify, hgrown.stored, hopenedLength]
    omega
  case nodeChildren =>
    change (List.set _ _ _).length = _
    rw [List.length_set, hgrown.nodeChildren, hopened.nodeChildren, List.length_append,
      List.length_singleton]
    omega
  case runtime =>
    change (List.modify _ _ _).length = _
    rw [List.length_modify, hgrown.runtime, hright, List.length_append, List.length_singleton]
    omega
  case children =>
    change (_ ++ children).length = _
    rw [List.length_append, hgrown.children, hopened.children, Nat.add_assoc]
  case laid =>
    have hempty : grown.stored.nodeChildren[before.stored.nodes.length]? = some [] := by
      rw [hgrown.keeps.nodeChildren _ (by omega), hopened.nodeChildren, ← hlock.1,
        List.getElem?_concat_length]
    change (List.set _ _ _).flatten.length = _
    rw [hid, length_flatten_set hempty, hgrown.laid, hopened.nodeChildren, List.flatten_append]
    simp only [List.flatten_cons, List.flatten_nil, List.append_nil]
    omega
  case keeps =>
    constructor
    case stored =>
      intro node hbefore
      rw [(completeNode_keeps _ _ _ (by omega)).1, hgrown.keeps.stored node (by omega), hleft,
        List.getElem?_append_left hbefore]
    case nodeChildren =>
      intro node hbefore
      rw [(completeNode_keeps _ _ _ (by omega)).2.1, hgrown.keeps.nodeChildren node (by omega),
        hopened.nodeChildren, List.getElem?_append_left (by rw [hlock.1]; exact hbefore)]
    case runtime =>
      intro node hbefore
      rw [(completeNode_keeps _ _ _ (by omega)).2.2, hgrown.keeps.runtime node (by omega), hright,
        List.getElem?_append_left (by rw [hlock.2]; exact hbefore)]
    case children =>
      rw [← hopened.children]
      exact hgrown.keeps.children.trans (List.prefix_append _ _)
  case agrees =>
    intro node hge hlt
    obtain rfl | hafter := Nat.eq_or_lt_of_le hge
    · -- The node itself: its children are the last that are laid out.
      have hleftOpen : grown.stored.nodes[before.stored.nodes.length]? = some left := by
        rw [hgrown.keeps.stored _ (by omega), hleft, List.getElem?_concat_length]
      have hrightOpen :
          grown.runtime.cellHierarchyNodes[before.stored.nodes.length]? = some right := by
        rw [hgrown.keeps.runtime _ (by omega), hright, ← hlock.2, List.getElem?_concat_length]
      have hslot : before.stored.nodes.length < grown.stored.nodeChildren.length := by
        rw [hgrown.nodeChildren, hopened.nodeChildren, List.length_append, hlock.1,
          List.length_singleton]
        omega
      refine ⟨{ left with childCount := .ofNat children.length, childrenAreCells },
        { right with
          childBegin := .ofNat grown.runtime.cellHierarchyChildren.length
          childCount := .ofNat children.length
          childrenAreCells }, children, ?_, ?_, ?_, hleftId, by rw [← hlock.2]; exact hrightId,
        rfl, hchildren, ?_, ?_, ?_⟩
      · change (List.modify _ _ _)[_]? = _
        rw [hid, List.getElem?_modify_eq, hleftOpen]
        rfl
      · change (List.modify _ _ _)[_]? = _
        rw [hid, List.getElem?_modify_eq, hrightOpen]
        rfl
      · change (List.set _ _ _)[_]? = _
        rw [hid, List.getElem?_set_self hslot]
      · exact Nat.mod_eq_of_lt hcount
      · exact Nat.mod_eq_of_lt hcount
      · change ((grown.runtime.cellHierarchyChildren ++ children).drop
          (UInt32.ofNat _).toNat).take _ = _
        rw [UInt32.toNat_ofNat', Nat.mod_eq_of_lt (by omega), List.drop_left, List.take_length]
    · -- A node below: it was complete before.
      have hother : node ≠ (UInt32.ofNat before.stored.nodes.length).toNat := by omega
      have hbelow : node < grown.stored.nodes.length := by
        change node < (List.modify _ _ _).length at hlt
        rwa [List.length_modify] at hlt
      obtain ⟨hstored, hnodeChildren, hruntime⟩ := completeNode_keeps grown
        childrenAreCells children hother
      exact (hgrown.agrees node (by omega) hbelow).congr hstored hnodeChildren hruntime
        (List.prefix_append _ _)

/-! ## Ranges of Cells -/

theorem length_cellRange (first last : UInt32) :
    (cellRange first last).length = last.toNat - first.toNat := by
  rw [cellRange, List.length_map, List.length_range']

theorem pairwise_cellRange (first last : UInt32) : (cellRange first last).Pairwise (· ≤ ·) := by
  apply List.pairwise_map.mpr
  apply (List.pairwise_lt_range' 1).imp_of_mem
  intro left right hleft hright hlt
  have hbound := last.toNat_lt
  rw [List.mem_range'_1] at hleft hright
  rw [UInt32.le_iff_toNat_le, UInt32.toNat_ofNat', UInt32.toNat_ofNat',
    Nat.mod_eq_of_lt (by omega), Nat.mod_eq_of_lt (by omega)]
  exact Nat.le_of_lt hlt

theorem insertionSort_cellRange (first last : UInt32) :
    (cellRange first last).insertionSort (· ≤ ·) = cellRange first last :=
  (pairwise_cellRange first last).insertionSort_eq

theorem cellRange_append {middle : UInt32} (hfirst : first.toNat ≤ middle.toNat)
    (hlast : middle.toNat ≤ last.toNat) :
    cellRange first middle ++ cellRange middle last = cellRange first last := by
  rw [cellRange, cellRange, cellRange, ← List.map_append]
  congr 1
  have happend := List.range'_append_1 (s := first.toNat) (m := middle.toNat - first.toNat)
    (n := last.toNat - middle.toNat)
  rw [Nat.add_sub_cancel' hfirst] at happend
  rw [happend]
  congr 1
  omega

theorem mapM_cellRange {cells : List Cell} (first : UInt32) (hlast : last.toNat ≤ cells.length) :
    (cellRange first last).mapM (fun cell => element Error.outOfBounds cells cell.toNat) =
      .ok ((cells.drop first.toNat).take (last.toNat - first.toNat)) := by
  rw [mapM_eq_ok, List.forall₂_iff_get]
  have hbound := last.toNat_lt
  refine ⟨by rw [length_cellRange, List.length_take, List.length_drop]; omega, ?_⟩
  intro position hleft hright
  rw [length_cellRange] at hleft
  simp only [cellRange, List.get_eq_getElem, List.getElem_map, List.getElem_range', Nat.one_mul,
    element_eq_ok, List.getElem_take, List.getElem_drop, UInt32.toNat_ofNat']
  rw [Nat.mod_eq_of_lt (by omega), List.getElem?_eq_getElem (by omega)]

theorem scan_checkedAdd {cells : List Cell} {context : String} {total : Nat}
    (hfits : total + (cells.map fun cell => cell.nodeCount.toNat).sum < 2 ^ 64) :
    scan (fun _ (cell : Cell) count => checkedAdd count cell.nodeCount.toNat context) position
      cells total = .ok (total + (cells.map fun cell => cell.nodeCount.toNat).sum) := by
  induction cells generalizing position total with
  | nil => rfl
  | cons cell cells ih =>
    rw [List.map_cons, List.sum_cons, ← Nat.add_assoc] at hfits ⊢
    rw [scan, checkedAdd, if_neg (by omega)]
    exact ih hfits

theorem sum_range_le (cells : List Cell) (first count : Nat) :
    (((cells.drop first).take count).map fun cell => cell.nodeCount.toNat).sum ≤
      (cells.map fun cell => cell.nodeCount.toNat).sum :=
  (((List.take_sublist _ _).trans (List.drop_sublist _ _)).map _).sum_le_sum
    (fun _ _ => Nat.zero_le _)

/-- What both builders rely on: the Cells of every Community are Cells of the index,
their positions are 32-bit and the nodes in them are counted in 64 bits. -/
structure CellRanges (index : Index) : Prop where
  cells : index.cells.length < 2 ^ 32
  counted : index.communities.length < 2 ^ 32
  members : (index.cells.map fun cell => cell.nodeCount.toNat).sum < 2 ^ 64
  communities : ∀ community ∈ index.communities, community.cellCount ≠ 0 →
    community.cellBegin.toNat + community.cellCount.toNat ≤ index.cells.length

theorem stored_openNode_eq {state next : ContiguousState}
    (hopen : state.openNode index first last = .ok next) :
    ∃ record : CellHierarchyNode, record.nodeId = .ofNat state.nodes.length ∧
      next.nodes = state.nodes ++ [record] ∧ next.nodeChildren = state.nodeChildren ++ [[]] := by
  unfold ContiguousState.openNode at hopen
  simp only [bind_ok] at hopen
  obtain ⟨_, _, _, _, hnext⟩ := hopen
  obtain rfl := Except.ok.inj hnext
  exact ⟨_, rfl, rfl, rfl⟩

theorem runtime_openNode_eq {cells : List UInt32} {state next : RuntimeHierarchy}
    (hopen : state.openNode index cells = .ok next) :
    ∃ record : CellHierarchyNode, record.nodeId = .ofNat state.cellHierarchyNodes.length ∧
      next.cellHierarchyNodes = state.cellHierarchyNodes ++ [record] ∧
      next.cellHierarchyChildren = state.cellHierarchyChildren := by
  unfold RuntimeHierarchy.openNode at hopen
  simp only [bind_ok] at hopen
  obtain ⟨_, _, hnext⟩ := hopen
  obtain rfl := Except.ok.inj hnext
  exact ⟨_, rfl, rfl, rfl⟩

theorem openNode_both (hranges : CellRanges index) (first : UInt32)
    (hlast : last.toNat ≤ index.cells.length) (builders : Builders) :
    ∃ opened : Builders, builders.stored.openNode index first last = .ok opened.stored ∧
      builders.runtime.openNode index (cellRange first last) = .ok opened.runtime ∧
      Opened builders opened := by
  have hrecords := mapM_cellRange first hlast
  have hsum := sum_range_le index.cells first.toNat (last.toNat - first.toNat)
  have hmembers := hranges.members
  obtain ⟨stored, hstored⟩ : ∃ stored,
      builders.stored.openNode index first last = .ok stored := by
    rw [ContiguousState.openNode, hrecords]
    simp only [bind, Except.bind]
    rw [scan_checkedAdd (by omega)]
    exact ⟨_, rfl⟩
  obtain ⟨runtime, hruntime⟩ : ∃ runtime,
      builders.runtime.openNode index (cellRange first last) = .ok runtime := by
    rw [RuntimeHierarchy.openNode, hrecords]
    exact ⟨_, rfl⟩
  obtain ⟨left, hleftId, hleft, hchildren⟩ := stored_openNode_eq hstored
  obtain ⟨right, hrightId, hright, hsame⟩ := runtime_openNode_eq hruntime
  exact ⟨⟨stored, runtime⟩, hstored, hruntime, ⟨left, hleftId, hleft⟩, hchildren,
    ⟨right, hrightId, hright⟩, hsame⟩

/-! ## One node and its children -/

theorem share_toNat (hfirst : first.toNat < last.toNat)
    (hfits : last.toNat - first.toNat + (later + 1) ≤ 2 ^ 32) :
    ((last - first + UInt32.ofNat (later + 1) - 1) / UInt32.ofNat (later + 1)).toNat =
      share (last.toNat - first.toNat) later := by
  have hlater : (UInt32.ofNat (later + 1)).toNat = later + 1 := by
    rw [UInt32.toNat_ofNat', Nat.mod_eq_of_lt (by omega)]
  have hbound := last.toNat_lt
  rw [UInt32.toNat_div, UInt32.toNat_sub, UInt32.toNat_add, UInt32.toNat_sub, hlater, share]
  congr 1
  change (2 ^ 32 - 1 + _) % 2 ^ 32 = _
  omega

def treeReferences (branching leafSize fuel count : Nat) : Nat :=
  treeNodes branching leafSize fuel count - 1 + count

def BuildsRange (index : Index) (config : CellHierarchyConfig) (fuel : Nat) : Prop :=
  ∀ (first last : UInt32) (builders : Builders), Lockstep builders →
    first.toNat < last.toNat → last.toNat ≤ index.cells.length →
    last.toNat - first.toNat ≤ fuel →
    builders.stored.nodes.length + treeNodes config.cellHierarchyBranching.toNat
      config.cellHierarchyLeafSize.toNat fuel (last.toNat - first.toNat) ≤ 2 ^ 32 →
    builders.runtime.cellHierarchyChildren.length + treeReferences
      config.cellHierarchyBranching.toNat config.cellHierarchyLeafSize.toNat fuel
      (last.toNat - first.toNat) ≤ 2 ^ 32 →
    ∃ after : Builders,
      appendNode index fuel first last builders.stored =
        .ok (.ofNat builders.stored.nodes.length, after.stored) ∧
      appendCells index config fuel (cellRange first last) builders.runtime =
        .ok (.ofNat builders.stored.nodes.length, after.runtime) ∧
      Built builders after
        (treeNodes config.cellHierarchyBranching.toNat config.cellHierarchyLeafSize.toNat fuel
          (last.toNat - first.toNat))
        (treeReferences config.cellHierarchyBranching.toNat config.cellHierarchyLeafSize.toNat
          fuel (last.toNat - first.toNat))

theorem appendChildren_both {config : CellHierarchyConfig} (hrange : BuildsRange index config fuel)
    (hlast : last.toNat ≤ index.cells.length) (parts : Nat) {builders : Builders}
    (hlock : Lockstep builders) (hparts : parts ≤ last.toNat - first.toNat)
    (hfits : last.toNat - first.toNat + parts ≤ 2 ^ 32)
    (hfuel : ∀ part ∈ shares (last.toNat - first.toNat) parts, part ≤ fuel)
    (hnodes : builders.stored.nodes.length +
      ((shares (last.toNat - first.toNat) parts).map (treeNodes config.cellHierarchyBranching.toNat
        config.cellHierarchyLeafSize.toNat fuel)).sum ≤ 2 ^ 32)
    (hreferences : builders.runtime.cellHierarchyChildren.length +
      ((shares (last.toNat - first.toNat) parts).map (treeReferences
        config.cellHierarchyBranching.toNat config.cellHierarchyLeafSize.toNat fuel)).sum ≤
          2 ^ 32) :
    ∃ (children : List UInt32) (after : Builders), children.length = parts ∧
      appendChildren (appendNode index fuel) last parts first builders.stored =
        .ok (children, after.stored) ∧
      appendClusters (appendCells index config fuel) parts (cellRange first last)
        builders.runtime = .ok (children, after.runtime) ∧
      Built builders after
        ((shares (last.toNat - first.toNat) parts).map (treeNodes
          config.cellHierarchyBranching.toNat config.cellHierarchyLeafSize.toNat fuel)).sum
        ((shares (last.toNat - first.toNat) parts).map (treeReferences
          config.cellHierarchyBranching.toNat config.cellHierarchyLeafSize.toNat fuel)).sum := by
  induction parts generalizing first builders with
  | zero => exact ⟨[], builders, rfl, rfl, rfl, Built.refl builders⟩
  | succ later ih =>
    have hsome : first.toNat < last.toNat := by omega
    have hshare := share_toNat hsome hfits
    have hpositive := share_pos hparts
    have hleave := share_add_le hparts
    -- The child takes its share, up to where the next child begins.
    set count := (last - first + UInt32.ofNat (later + 1) - 1) / UInt32.ofNat (later + 1)
      with hcountDef
    have hmiddle : (first + count).toNat =
        first.toNat + share (last.toNat - first.toNat) later := by
      have hbound := last.toNat_lt
      rw [UInt32.toNat_add, hshare, Nat.mod_eq_of_lt (by omega)]
    have hrest : last.toNat - (first + count).toNat =
        last.toNat - first.toNat - share (last.toNat - first.toNat) later := by omega
    have hpart : (first + count).toNat - first.toNat =
        share (last.toNat - first.toNat) later := by omega
    rw [shares, List.forall_mem_cons] at hfuel
    rw [shares, List.map_cons, List.sum_cons] at hnodes hreferences ⊢
    rw [List.map_cons, List.sum_cons]
    obtain ⟨grown, hstored, hruntime, hgrown⟩ := hrange first (first + count) builders hlock
      (by omega) (by omega) (by rw [hpart]; exact hfuel.1) (by rw [hpart]; omega)
      (by rw [hpart]; omega)
    rw [hpart] at hgrown
    have hchildren := hgrown.children
    have hgrownNodes := hgrown.stored
    rw [← hrest] at hfuel hnodes hreferences ⊢
    obtain ⟨children, after, hlength, hstoredRest, hruntimeRest, hafter⟩ := ih
      (hgrown.lockstep hlock) (by omega) (by omega) hfuel.2 (by omega) (by omega)
    refine ⟨.ofNat builders.stored.nodes.length :: children, after, by simp [hlength], ?_, ?_,
      hgrown.trans hafter⟩
    · rw [appendChildren]
      simp only [← hcountDef, hstored, hstoredRest, bind, Except.bind]
    · have hsplit : cellRange first (first + count) ++ cellRange (first + count) last =
          cellRange first last := cellRange_append (by omega) (by omega)
      have hlengthShare : ((cellRange first last).length + (later + 1) - 1) / (later + 1) =
          (cellRange first (first + count)).length := by
        rw [length_cellRange, length_cellRange, hpart]
        rfl
      rw [appendClusters]
      simp only [hlengthShare]
      rw [← hsplit, List.take_left, List.drop_left]
      simp only [hruntime, hruntimeRest, bind, Except.bind]

theorem sum_treeReferences (branching leafSize fuel : Nat) (parts : List Nat) :
    (parts.map (treeReferences branching leafSize fuel)).sum + parts.length =
      (parts.map (treeNodes branching leafSize fuel)).sum + parts.sum := by
  induction parts with
  | nil => rfl
  | cons part parts ih =>
    have hpos := treeNodes_pos branching leafSize fuel part
    simp only [List.map_cons, List.sum_cons, List.length_cons, treeReferences] at ih ⊢
    omega

theorem treeReferences_split {branching leafSize : Nat} (fuel : Nat) {count : Nat} (hbranching : 2 ≤ branching)
    (hleaf : 1 ≤ leafSize) (hcount : leafSize < count) :
    treeReferences branching leafSize (fuel + 1) count =
      ((shares count (min branching count)).map (treeReferences branching leafSize fuel)).sum +
        min branching count := by
  have hsum := sum_treeReferences branching leafSize fuel
    (shares count (min branching count))
  rw [length_shares, sum_shares (by omega) (Nat.min_le_right _ _)] at hsum
  rw [hsum, treeReferences, treeNodes, if_neg (by omega)]
  omega

theorem buildsRange (hranges : CellRanges index) {config : CellHierarchyConfig}
    (hbranching : config.cellHierarchyBranching = index.config.cellHierarchyBranching)
    (hleaf : config.cellHierarchyLeafSize = index.config.cellHierarchyLeafSize)
    (htwo : 2 ≤ config.cellHierarchyBranching.toNat) (hone : 1 ≤ config.cellHierarchyLeafSize.toNat)
    (fuel : Nat) :
    BuildsRange index config fuel := by
  induction fuel with
  | zero =>
    intro first last builders _ hlt _ hfuel
    omega
  | succ fuel ih =>
    intro first last builders hlock hlt hlast hfuel hnodes hreferences
    obtain ⟨opened, hstored, hruntime, hopened⟩ := openNode_both hranges first hlast builders
    have hcells := hranges.cells
    have hcountNat : (last - first).toNat = last.toNat - first.toNat :=
      UInt32.toNat_sub_of_le _ _ (UInt32.le_iff_toNat_le.mpr (Nat.le_of_lt hlt))
    have hfit : (last - first ≤ index.config.cellHierarchyLeafSize) ↔
        last.toNat - first.toNat ≤ config.cellHierarchyLeafSize.toNat := by
      rw [UInt32.le_iff_toNat_le, hcountNat, hleaf]
    have hguard : reject (last ≤ first ∨ index.cells.length < last.toNat)
        (Error.logicError "Contiguous Cell hierarchy range is invalid") = .ok () := by
      rw [reject_ok, UInt32.le_iff_toNat_le]
      omega
    have hlength := length_cellRange first last
    have hnonempty : cellRange first last ≠ [] := by
      rw [← List.length_pos_iff]
      omega
    have hposNodes := treeNodes_pos config.cellHierarchyBranching.toNat
      config.cellHierarchyLeafSize.toNat (fuel + 1) (last.toNat - first.toNat)
    have hopenedChildren := congrArg List.length hopened.children
    by_cases hsmall : last.toNat - first.toNat ≤ config.cellHierarchyLeafSize.toNat
    · -- The Cells fit into one leaf.
      have hone : treeNodes config.cellHierarchyBranching.toNat
          config.cellHierarchyLeafSize.toNat (fuel + 1) (last.toNat - first.toNat) = 1 := by
        rw [treeNodes, if_pos hsmall]
      have hbuilt := Built.complete hlock hopened (Built.refl opened) true hnonempty
        (by omega) (by rw [treeReferences] at hreferences; omega) (by omega)
      refine ⟨_, ?_, ?_, by simpa only [treeReferences, hone, hlength, Nat.sub_self] using hbuilt⟩
      · rw [appendNode]
        simp only [hguard, hstored, bind, Except.bind, if_pos (hfit.mpr hsmall)]
        rfl
      · rw [appendCells]
        simp only [reject, if_neg hnonempty, insertionSort_cellRange, hruntime, bind,
          Except.bind, hlength, if_pos hsmall, hlock.2]
        rfl
    · -- The Cells are split into as many parts as there may be children.
      have hlarge := Nat.lt_of_not_le hsmall
      set count := last.toNat - first.toNat with hcount
      set parts := min config.cellHierarchyBranching.toNat count with hparts
      have hsplit := treeReferences_split fuel htwo hone hlarge
      rw [← hparts] at hsplit
      have htree : treeNodes config.cellHierarchyBranching.toNat
          config.cellHierarchyLeafSize.toNat (fuel + 1) count =
            1 + ((shares count parts).map (treeNodes config.cellHierarchyBranching.toNat
              config.cellHierarchyLeafSize.toNat fuel)).sum := by
        rw [treeNodes, if_neg hsmall]
      have hfits : count + parts ≤ 2 ^ 32 := by
        have hle := le_treeNodes config.cellHierarchyBranching.toNat fuel hlarge
        rw [treeReferences] at hreferences
        omega
      have hopenedNodes : opened.stored.nodes.length = builders.stored.nodes.length + 1 := by
        obtain ⟨_, -, hleft⟩ := hopened.stored
        rw [hleft, List.length_append, List.length_singleton]
      rw [htree] at hnodes
      rw [hsplit] at hreferences
      obtain ⟨children, grown, hchildrenLength, hstoredChildren, hruntimeChildren, hgrown⟩ :=
        appendChildren_both ih hlast parts (hopened.lockstep hlock) (Nat.min_le_right _ _) hfits
          (fun part hpart => by
            have := lt_of_mem_shares htwo hone hlarge hpart
            omega)
          (by rw [← hcount]; omega) (by rw [← hcount]; omega)
      rw [← hcount] at hgrown
      have hgrownChildren := hgrown.children
      have hchildrenNonempty : children ≠ [] := List.length_pos_iff.mp (by omega)
      have hbuilt := Built.complete hlock hopened hgrown false hchildrenNonempty (by omega)
        (by omega) (by omega)
      rw [hchildrenLength, ← htree, ← hsplit] at hbuilt
      refine ⟨_, ?_, ?_, hbuilt⟩
      · rw [appendNode]
        simp only [hguard, hstored, bind, Except.bind, if_neg (mt hfit.mp hsmall), hcountNat,
          ← hbranching, ← hparts, hstoredChildren]
        rfl
      · rw [appendCells]
        simp only [reject, if_neg hnonempty, insertionSort_cellRange, hruntime, bind,
          Except.bind, hlength, if_neg hsmall, ← hparts, hruntimeChildren, hlock.2]
        rfl

/-! ## All Communities -/

/-- The references to children in the trees of all Communities. -/
def hierarchyReferences (communities : List Community) (config : CellHierarchyConfig) : Nat :=
  (communities.map fun community => treeReferences config.cellHierarchyBranching.toNat
    config.cellHierarchyLeafSize.toNat community.cellCount.toNat community.cellCount.toNat).sum

theorem cellRange_of_community {record : Community} (hcells : cellCount < 2 ^ 32)
    (hrange : record.cellBegin.toNat + record.cellCount.toNat ≤ cellCount) :
    (record.cellBegin + record.cellCount.toUInt64).toNat =
        record.cellBegin.toNat + record.cellCount.toNat ∧
      record.cellBegin.toUInt32.toNat = record.cellBegin.toNat ∧
      (record.cellBegin + record.cellCount.toUInt64).toUInt32.toNat =
        record.cellBegin.toNat + record.cellCount.toNat := by
  have hend : (record.cellBegin + record.cellCount.toUInt64).toNat =
      record.cellBegin.toNat + record.cellCount.toNat := by
    rw [UInt64.toNat_add, UInt32.toNat_toUInt64, Nat.mod_eq_of_lt (by omega)]
  refine ⟨hend, ?_, ?_⟩
  · rw [UInt64.toNat_toUInt32, Nat.mod_eq_of_lt (by omega)]
  · rw [UInt64.toNat_toUInt32, hend, Nat.mod_eq_of_lt (by omega)]

section Communities

variable {index : Index} {config : CellHierarchyConfig}

/-- Both builders build one tree for a Community and note the same root. -/
theorem appendCommunity_both (hranges : CellRanges index)
    (hbranching : config.cellHierarchyBranching = index.config.cellHierarchyBranching)
    (hleaf : config.cellHierarchyLeafSize = index.config.cellHierarchyLeafSize)
    (htwo : 2 ≤ config.cellHierarchyBranching.toNat)
    (hone : 1 ≤ config.cellHierarchyLeafSize.toNat) {record : Community}
    (hrecord : record ∈ index.communities) (community : Nat) (roots : List UInt32)
    {builders : Builders} (hlock : Lockstep builders)
    (hbalance : builders.stored.nodes.length ≤ builders.runtime.cellHierarchyChildren.length)
    (hfits : builders.runtime.cellHierarchyChildren.length +
      hierarchyReferences [record] config < 2 ^ 32) :
    ∃ (newRoots : List UInt32) (after : Builders) (nodes : Nat),
      appendCommunity index community record (roots, builders.stored) =
        .ok (newRoots, after.stored) ∧
      appendCommunityCells index config community record (roots, builders.runtime) =
        .ok (newRoots, after.runtime) ∧
      nodes ≤ hierarchyReferences [record] config ∧
      Built builders after nodes (hierarchyReferences [record] config) := by
  have hsingle : hierarchyReferences [record] config =
      treeReferences config.cellHierarchyBranching.toNat config.cellHierarchyLeafSize.toNat
        record.cellCount.toNat record.cellCount.toNat := by
    simp [hierarchyReferences]
  by_cases hempty : record.cellCount = 0
  · have hnone : hierarchyReferences [record] config = 0 := by
      rw [hsingle, hempty]
      rfl
    rw [hnone]
    refine ⟨roots, builders, 0, ?_, ?_, Nat.le_refl 0, Built.refl builders⟩
    · rw [appendCommunity, if_pos hempty]
    · rw [appendCommunityCells, if_pos hempty]
  · have hrange := hranges.communities record hrecord hempty
    have hcells := hranges.cells
    have hpositive : 0 < record.cellCount.toNat :=
      Nat.pos_of_ne_zero fun hzero => hempty (UInt32.toNat_inj.mp hzero)
    obtain ⟨hend, hfirst, hlast⟩ := cellRange_of_community hcells hrange
    have hfuel := treeNodes_fuel htwo hone
      (show record.cellCount.toNat ≤ index.cells.length + 1 by omega)
    have hcount : (record.cellBegin + record.cellCount.toUInt64).toUInt32.toNat -
        record.cellBegin.toUInt32.toNat = record.cellCount.toNat := by omega
    have hposNodes := treeNodes_pos config.cellHierarchyBranching.toNat
      config.cellHierarchyLeafSize.toNat record.cellCount.toNat record.cellCount.toNat
    rw [hsingle, treeReferences] at hfits
    obtain ⟨after, hstored, hruntime, hbuilt⟩ := buildsRange hranges hbranching hleaf htwo hone
      (index.cells.length + 1) record.cellBegin.toUInt32
      (record.cellBegin + record.cellCount.toUInt64).toUInt32 builders hlock (by omega) (by omega)
      (by omega) (by rw [hcount, hfuel]; omega) (by rw [hcount, treeReferences, hfuel]; omega)
    rw [hcount, treeReferences, hfuel, ← treeReferences, ← hsingle] at hbuilt
    refine ⟨roots.set community (.ofNat builders.stored.nodes.length), after, _, ?_, ?_,
      by rw [hsingle, treeReferences]; omega, hbuilt⟩
    · rw [appendCommunity, if_neg hempty]
      have hguard : reject (index.cells.length <
            (record.cellBegin + record.cellCount.toUInt64).toNat ∨
          2 ^ 32 - 1 < (record.cellBegin + record.cellCount.toUInt64).toNat)
          (Error.logicError "Community Cell range cannot be represented in its hierarchy") =
            .ok () := by
        rw [reject_ok]
        omega
      simp only [hguard, hstored, bind, Except.bind]
    · rw [appendCommunityCells, if_neg hempty]
      rw [cellRange, hcount, hfirst] at hruntime
      simp only [hruntime, bind, Except.bind]

theorem hierarchyReferences_cons (record : Community) (communities : List Community) :
    hierarchyReferences (record :: communities) config =
      hierarchyReferences [record] config + hierarchyReferences communities config := by
  simp [hierarchyReferences]

/-- The loops over the Communities build the same trees. -/
theorem scan_both (hranges : CellRanges index)
    (hbranching : config.cellHierarchyBranching = index.config.cellHierarchyBranching)
    (hleaf : config.cellHierarchyLeafSize = index.config.cellHierarchyLeafSize)
    (htwo : 2 ≤ config.cellHierarchyBranching.toNat)
    (hone : 1 ≤ config.cellHierarchyLeafSize.toNat) {communities : List Community}
    (hcommunities : communities ⊆ index.communities) (position : Nat) (roots : List UInt32)
    {builders : Builders} (hlock : Lockstep builders)
    (hbalance : builders.stored.nodes.length ≤ builders.runtime.cellHierarchyChildren.length)
    (hfits : builders.runtime.cellHierarchyChildren.length +
      hierarchyReferences communities config < 2 ^ 32) :
    ∃ (newRoots : List UInt32) (after : Builders) (nodes : Nat),
      scan (appendCommunity index) position communities (roots, builders.stored) =
        .ok (newRoots, after.stored) ∧
      scan (appendCommunityCells index config) position communities (roots, builders.runtime) =
        .ok (newRoots, after.runtime) ∧
      nodes ≤ hierarchyReferences communities config ∧
      Built builders after nodes (hierarchyReferences communities config) := by
  induction communities generalizing position roots builders with
  | nil => exact ⟨roots, builders, 0, rfl, rfl, Nat.le_refl 0, Built.refl builders⟩
  | cons record communities ih =>
    rw [hierarchyReferences_cons] at hfits ⊢
    obtain ⟨hrecord, hrest⟩ := List.cons_subset.mp hcommunities
    obtain ⟨newRoots, grown, nodes, hstored, hruntime, hnodes, hgrown⟩ :=
      appendCommunity_both hranges hbranching hleaf htwo hone hrecord position roots hlock
        hbalance (by omega)
    have hgrownNodes := hgrown.stored
    have hgrownChildren := hgrown.children
    obtain ⟨lastRoots, after, moreNodes, hstoredRest, hruntimeRest, hmoreNodes, hafter⟩ :=
      ih hrest (position + 1) newRoots (hgrown.lockstep hlock) (by omega) (by omega)
    refine ⟨lastRoots, after, nodes + moreNodes, ?_, ?_, by omega, hgrown.trans hafter⟩
    · simp only [scan, hstored, hstoredRest, bind, Except.bind]
    · simp only [scan, hruntime, hruntimeRest, bind, Except.bind]

end Communities

/-! ## The trees as they are read -/

/-- What a hierarchy says of each of its nodes: its number, what its children are,
and the children. -/
def hierarchyView (nodes : List CellHierarchyNode) (children : List UInt32) :
    List (UInt32 × Bool × List UInt32) :=
  nodes.map fun node => (node.nodeId, node.childrenAreCells,
    (children.drop node.childBegin.toNat).take node.childCount.toNat)

/-- Laid out in the order of the nodes, the children of each node are found again. -/
theorem layOutChildren_view {entries : List (CellHierarchyNode × List UInt32)} (position : Nat)
    (nodes : List CellHierarchyNode) (children : List UInt32)
    (hcounts : ∀ entry ∈ entries, entry.1.childCount.toNat = entry.2.length ∧ entry.2 ≠ [])
    (hfits : children.length + (entries.flatMap Prod.snd).length ≤ 2 ^ 32)
    (rest : List UInt32) :
    ∃ laid, scan (fun _ entry outcome => (.ok (layOutChildren entry outcome) : Except Error _))
        position entries (nodes, children) =
          .ok (nodes ++ laid, children ++ entries.flatMap Prod.snd) ∧
      hierarchyView laid (children ++ entries.flatMap Prod.snd ++ rest) =
        entries.map fun entry => (entry.1.nodeId, entry.1.childrenAreCells, entry.2) := by
  induction entries generalizing position nodes children with
  | nil => exact ⟨[], by simp [scan], rfl⟩
  | cons entry entries ih =>
    obtain ⟨⟨hcount, hnonempty⟩, hcounts⟩ := List.forall_mem_cons.mp hcounts
    rw [List.flatMap_cons] at hfits ⊢
    rw [List.length_append] at hfits
    have hpositive := List.length_pos_iff.mpr hnonempty
    have hlater : (children ++ entry.2).length + (entries.flatMap Prod.snd).length ≤ 2 ^ 32 := by
      rw [List.length_append]
      omega
    obtain ⟨laid, hscan, hview⟩ := ih (position + 1)
      (nodes ++ [{ entry.1 with childBegin := .ofNat children.length }]) (children ++ entry.2)
      hcounts hlater
    refine ⟨{ entry.1 with childBegin := .ofNat children.length } :: laid, ?_, ?_⟩
    · change scan _ (position + 1) entries (layOutChildren entry (nodes, children)) = _
      rw [layOutChildren, hscan, List.append_assoc, List.append_assoc, List.singleton_append]
    · rw [hierarchyView, List.map_cons, List.map_cons, ← List.append_assoc, ← hierarchyView, hview]
      congr 3
      rw [UInt32.toNat_ofNat', Nat.mod_eq_of_lt (by omega), hcount, List.append_assoc,
        List.append_assoc, List.drop_left, List.take_left]

/-- Both builders return, note the same roots, and number the nodes and list their
children alike. -/
def SameHierarchy (index : Index) (config : CellHierarchyConfig) : Prop :=
  ∃ stored roots runtime, buildContiguousCellHierarchy index = .ok stored ∧
    buildCellHierarchy index config = .ok (roots, runtime) ∧ stored.cellHierarchyRoots = roots ∧
    hierarchyView stored.cellHierarchyNodes stored.cellHierarchyChildren =
      hierarchyView runtime.cellHierarchyNodes runtime.cellHierarchyChildren

theorem views_of_built (hbuilt : Built {} after nodes references) :
    (∀ entry ∈ after.stored.nodes.zip after.stored.nodeChildren,
      entry.1.childCount.toNat = entry.2.length ∧ entry.2 ≠ []) ∧
    (after.stored.nodes.zip after.stored.nodeChildren).map
        (fun entry => (entry.1.nodeId, entry.1.childrenAreCells, entry.2)) =
      hierarchyView after.runtime.cellHierarchyNodes after.runtime.cellHierarchyChildren := by
  have hstored : after.stored.nodes.length = nodes := by simpa using hbuilt.stored
  have hchildren : after.stored.nodeChildren.length = nodes := by simpa using hbuilt.nodeChildren
  have hruntime : after.runtime.cellHierarchyNodes.length = nodes := by simpa using hbuilt.runtime
  constructor
  · intro entry hentry
    obtain ⟨node, hnode, rfl⟩ := List.mem_iff_getElem.mp hentry
    rw [List.length_zip] at hnode
    obtain ⟨left, right, children, hleft, -, hrow, -, -, -, hnonempty, hcount, -⟩ :=
      hbuilt.agrees node (Nat.zero_le node) (by omega)
    rw [List.getElem?_eq_getElem (by omega), Option.some.injEq] at hleft hrow
    rw [List.getElem_zip, hleft, hrow]
    exact ⟨hcount, hnonempty⟩
  · apply List.ext_getElem
    · rw [List.length_map, List.length_zip, hierarchyView, List.length_map]
      omega
    · intro node hleftBound hrightBound
      rw [List.length_map, List.length_zip] at hleftBound
      obtain ⟨left, right, children, hleft, hright, hrow, hleftId, hrightId, hcells, -, -, hcount,
        hslice⟩ := hbuilt.agrees node (Nat.zero_le node) (by omega)
      rw [List.getElem?_eq_getElem (by omega), Option.some.injEq] at hleft hright hrow
      simp only [hierarchyView, List.getElem_map, List.getElem_zip]
      rw [hleft, hright, hrow, hcount, hslice, hleftId, hrightId, hcells]

/-- Where 32 bits count the references to children, both builders build one hierarchy. -/
theorem buildCellHierarchy_same {index : Index} {config : CellHierarchyConfig}
    (hranges : CellRanges index) (hempty : index.cellHierarchyNodes = [])
    (hbranching : config.cellHierarchyBranching = index.config.cellHierarchyBranching)
    (hleaf : config.cellHierarchyLeafSize = index.config.cellHierarchyLeafSize)
    (htwo : 2 ≤ config.cellHierarchyBranching.toNat)
    (hone : 1 ≤ config.cellHierarchyLeafSize.toNat)
    (hreferences : hierarchyReferences index.communities config < 2 ^ 32) :
    SameHierarchy index config := by
  have hstart : Lockstep {} := ⟨rfl, rfl⟩
  obtain ⟨roots, after, nodes, hstored, hruntime, hnodes, hbuilt⟩ := scan_both hranges hbranching
    hleaf htwo hone (List.Subset.refl index.communities) 0
    (index.communities.map fun _ => UInt32.ofNat invalidId) hstart (Nat.le_refl 0)
    (by simpa using hreferences)
  obtain ⟨hcounts, hview⟩ := views_of_built hbuilt
  have hnodesLength : after.stored.nodes.length = nodes := by simpa using hbuilt.stored
  have hrowsLength : after.stored.nodeChildren.length = nodes := by
    simpa using hbuilt.nodeChildren
  have hlaidLength : ((after.stored.nodes.zip after.stored.nodeChildren).flatMap
      Prod.snd).length = hierarchyReferences index.communities config := by
    rw [List.flatMap_def, List.map_snd_zip (by omega), hbuilt.laid]
    simp
  obtain ⟨laid, hlaid, hlaidView⟩ := layOutChildren_view 0 [] [] hcounts
    (by rw [hlaidLength, List.length_nil]; omega) []
  refine ⟨{ index with
    cellHierarchyNodes := laid
    cellHierarchyRoots := roots
    cellHierarchyChildren :=
      (after.stored.nodes.zip after.stored.nodeChildren).flatMap Prod.snd
    cellHierarchyCentroids := after.stored.centroids }, roots, after.runtime, ?_, ?_, rfl, ?_⟩
  · rw [buildContiguousCellHierarchy, scan32, scanCounted, if_pos hranges.counted, hstored]
    simp only [bind, Except.bind, scan32]
    rw [scanCounted, if_pos (by rw [List.length_zip]; omega), hlaid]
    rfl
  · rw [buildCellHierarchy, if_pos (by rw [hempty]; rfl), scan32, scanCounted,
      if_pos hranges.counted, hruntime]
  · rw [List.append_nil] at hlaidView
    exact hlaidView.trans hview

/-! ## Where the 32-bit split overflows -/

theorem appendNode_empty {state : ContiguousState} {result : UInt32 × ContiguousState} :
    appendNode index fuel first first state ≠ .ok result := by
  cases fuel with
  | zero => nofun
  | succ fuel =>
    intro hok
    rw [appendNode] at hok
    simp only [bind_ok, reject_ok] at hok
    obtain ⟨_, hguard, -⟩ := hok
    exact hguard (Or.inl (UInt32.le_refl first))

/-- Where the Cells and the children of a node are more than 32 bits count, its first
child gets no Cell. -/
theorem appendNode_overflow {state : ContiguousState} (hlt : first.toNat < last.toNat)
    (hlarge : index.config.cellHierarchyLeafSize.toNat < last.toNat - first.toNat)
    (hoverflow : 2 ^ 32 < last.toNat - first.toNat +
      min index.config.cellHierarchyBranching.toNat (last.toNat - first.toNat))
    {result : UInt32 × ContiguousState} : appendNode index fuel first last state ≠ .ok result := by
  have hbound := last.toNat_lt
  have hcount : (last - first).toNat = last.toNat - first.toNat :=
    UInt32.toNat_sub_of_le _ _ (UInt32.le_iff_toNat_le.mpr (Nat.le_of_lt hlt))
  cases fuel with
  | zero => nofun
  | succ fuel =>
    intro hok
    rw [appendNode] at hok
    simp only [bind_ok] at hok
    obtain ⟨_, -, opened, -, hok⟩ := hok
    rw [if_neg (by rw [UInt32.le_iff_toNat_le, hcount]; omega), hcount] at hok
    obtain ⟨later, hparts⟩ : ∃ later, min index.config.cellHierarchyBranching.toNat
        (last.toNat - first.toNat) = later + 1 := ⟨_, (Nat.sub_add_cancel (by omega)).symm⟩
    rw [hparts, appendChildren] at hok
    simp only [bind_ok] at hok
    obtain ⟨_, ⟨⟨child, grown⟩, hchild, -⟩, -⟩ := hok
    have hlater : (UInt32.ofNat (later + 1)).toNat = later + 1 := by
      rw [UInt32.toNat_ofNat', Nat.mod_eq_of_lt (by omega)]
    have hnone : (last - first + UInt32.ofNat (later + 1) - 1) / UInt32.ofNat (later + 1) = 0 := by
      apply UInt32.toNat_inj.mp
      rw [UInt32.toNat_div, UInt32.toNat_sub, UInt32.toNat_add, hcount, hlater]
      apply Nat.div_eq_of_lt
      change (2 ^ 32 - 1 + _) % 2 ^ 32 < _
      omega
    rw [hnone, UInt32.add_zero] at hchild
    exact appendNode_empty hchild

theorem buildContiguousCellHierarchy_overflow {record : Community}
    (hrecord : record ∈ index.communities)
    (hrange : record.cellBegin.toNat + record.cellCount.toNat < 2 ^ 32)
    (hlarge : index.config.cellHierarchyLeafSize.toNat < record.cellCount.toNat)
    (hoverflow : 2 ^ 32 < record.cellCount.toNat +
      min index.config.cellHierarchyBranching.toNat record.cellCount.toNat) {stored : Index} :
    buildContiguousCellHierarchy index ≠ .ok stored := by
  intro hok
  unfold buildContiguousCellHierarchy at hok
  simp only [bind_ok, scanCounted_eq_ok] at hok
  obtain ⟨_, ⟨-, hcommunities⟩, -⟩ := hok
  obtain ⟨position, hposition⟩ := List.mem_iff_getElem?.mp hrecord
  obtain ⟨before, after, haccepted⟩ := scan_accepts hcommunities hposition
  have hnonempty : record.cellCount ≠ 0 := fun hzero => by simp [hzero] at hlarge
  rw [appendCommunity, if_neg hnonempty] at haccepted
  simp only [bind_ok] at haccepted
  obtain ⟨_, -, result, hnode, -⟩ := haccepted
  obtain ⟨hend, hfirst, hlast⟩ := cellRange_of_community
    (show 2 ^ 32 - 1 < 2 ^ 32 by omega) (Nat.le_pred_of_lt hrange)
  have hcount : (record.cellBegin + record.cellCount.toUInt64).toUInt32.toNat -
      record.cellBegin.toUInt32.toNat = record.cellCount.toNat := by omega
  exact appendNode_overflow (by omega) (by omega) (by rw [hcount]; exact hoverflow) hnode

/-- A Community that owns so many Cells. -/
def wholeCommunity (cellCount : Nat) : Community where
  communityId := 0
  nodeCount := .ofNat cellCount
  packetBytes := 0
  minimumNodeId := 0
  navigationHubId := 0
  sectorBegin := 0
  sectorCount := 1
  cellBegin := 0
  cellCount := .ofNat cellCount

/-- One Community with so many Cells of one node each. -/
def oneCommunity (cellCount : Nat) : Index where
  config := { communityCount := 1 }
  pointCount := .ofNat cellCount
  dimension := 0
  pqCodeWidth := 1
  nodeToCommunity := []
  nodeToCell := []
  nodeToPacketRecord := []
  communities := [wholeCommunity cellCount]
  communityPoles := []
  communityEdgeOffsets := []
  sectors := []
  cells := List.replicate cellCount
    { cellId := 0, communityId := 0, sectorId := 0, radialCellId := 0, nodeCount := 1
      capacityClass := 1, blockBegin := 0, blockCount := 1 }
  blocks := []
  packetPayload := []

theorem cellRanges_oneCommunity (hcells : cellCount < 2 ^ 32) :
    CellRanges (oneCommunity cellCount) where
  cells := by simpa [oneCommunity] using hcells
  counted := by simp [oneCommunity]
  members := by
    rw [oneCommunity, List.map_replicate, List.sum_replicate_nat]
    change cellCount * 1 < 2 ^ 64
    omega
  communities := by
    intro community hcommunity _
    obtain rfl := List.mem_singleton.mp hcommunity
    change 0 + cellCount % 2 ^ 32 ≤ (List.replicate cellCount _).length
    rw [List.length_replicate, Nat.mod_eq_of_lt hcells, Nat.zero_add]

theorem buildCellHierarchy_same_forty : SameHierarchy (oneCommunity 40) ⟨4, 16⟩ :=
  buildCellHierarchy_same (cellRanges_oneCommunity (by decide)) rfl rfl rfl (by decide) (by decide)
    (by decide)

/-- With nearly as many Cells as 32 bits count, only the builder at load time returns. -/
theorem oneCommunity_overflow :
    CellRanges (oneCommunity (2 ^ 32 - 2)) ∧
      (oneCommunity (2 ^ 32 - 2)).cellHierarchyNodes = [] ∧
      ¬ SameHierarchy (oneCommunity (2 ^ 32 - 2)) ⟨4, 16⟩ := by
  refine ⟨cellRanges_oneCommunity (by decide), rfl, ?_⟩
  rintro ⟨stored, _, _, hstored, -⟩
  have hrecord : wholeCommunity (2 ^ 32 - 2) ∈ (oneCommunity (2 ^ 32 - 2)).communities :=
    List.mem_singleton_self _
  exact buildContiguousCellHierarchy_overflow hrecord (by decide) (by decide) (by decide) hstored

end SkipCell.Search

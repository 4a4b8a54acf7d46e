import SkipCell.Foundation.Marking
import SkipCell.Sidecar.Layout

/-! # Visits of the Cell hierarchy

A depth-first visit marks each node, each reference to a node and each Cell once.
A walk is any part of such a traversal, and walks compose. The visit of a tree
ends: every level of its recursion marks a node that was fresh.
-/

namespace SkipCell.Sidecar

open Foundation

namespace Index

variable (index : Index)

/-- `children[offset]` is a child of `parent`: a Cell when `cells` holds, else a node. -/
def ChildAt (cells : Bool) (parent offset child : Nat) : Prop :=
  ∃ node, index.cellHierarchyNodes[parent]? = some node ∧ node.childrenAreCells = cells ∧
    node.childBegin.toNat ≤ offset ∧ offset < node.childBegin.toNat + node.childCount.toNat ∧
    index.cellHierarchyChildren[offset]?.map UInt32.toNat = some child

/-- An edge of the hierarchy. -/
def Parent (parent child : Nat) : Prop := ∃ offset, index.ChildAt false parent offset child

/-- The Cells of the leaves below a node. -/
inductive Below : Nat → Nat → Prop
  | leaf {node offset cell : Nat} : index.ChildAt true node offset cell → Below node cell
  | inner {parent child cell : Nat} : index.Parent parent child → Below child cell →
      Below parent cell

def IsRoot (community root : Nat) : Prop :=
  ∃ record, index.communities[community]? = some record ∧ record.cellCount ≠ 0 ∧
    index.cellHierarchyRoots[community]?.map UInt32.toNat = some root

/-- A path from the root of a Community, by the offsets of the children, last first. -/
inductive Path : Nat → List Nat → Nat → Prop
  | root {community root : Nat} : index.IsRoot community root → Path community [] root
  | step {community parent offset child : Nat} {offsets : List Nat} :
      Path community offsets parent → index.ChildAt false parent offset child →
        Path community (offset :: offsets) child

/-- The descendant count of a node is the sum over the Cells below it. -/
def Counted (node : Nat) : Prop :=
  ∃ cells : List Nat, cells.Nodup ∧ (∀ cell, cell ∈ cells ↔ index.Below node cell) ∧
    index.cellHierarchyNodes[node]?.map (fun record => record.descendantNodeCount.toNat) =
      some (cells.map index.cellNodes).sum

end Index

/-! ## Walks -/

/-- Where a node is referred to: as the root of a Community, or as a child. -/
inductive Source
  | root (community : Nat)
  | child (offset : Nat)

/-- What a part of the traversal has marked. -/
structure Trail where
  nodes : List Nat := []
  references : List (Source × Nat) := []
  places : List (Nat × Nat) := []

def Trail.append (first second : Trail) : Trail :=
  ⟨first.nodes ++ second.nodes, first.references ++ second.references,
    first.places ++ second.places⟩

def VisitState.visited (state : VisitState) : List Bool := state.nodeState.map (· != 0)

/-- A part of the traversal that visits the trees under `tops`. The references in
`loose` and the Cells in `stray` come from outside these trees. -/
structure Walk (index : Index) (tops : List Nat) (loose : List (Source × Nat))
    (stray : List (Nat × Nat)) (before after : VisitState) (trail : Trail) : Prop where
  nodes : Marks false true before.visited after.visited trail.nodes
  parents : Marks 0 1 before.parentCount after.parentCount (trail.references.map Prod.snd)
  cells : Marks false true before.cellSeen after.cellSeen (trail.places.map Prod.snd)
  references : ∀ source child, (source, child) ∈ trail.references ↔ (source, child) ∈ loose ∨
    ∃ parent ∈ trail.nodes, ∃ offset, source = .child offset ∧ index.ChildAt false parent offset child
  places : ∀ offset cell, (offset, cell) ∈ trail.places ↔ (offset, cell) ∈ stray ∨
    ∃ leaf ∈ trail.nodes, index.ChildAt true leaf offset cell
  closed : ∀ parent ∈ trail.nodes, ∀ child, index.Parent parent child → child ∈ trail.nodes
  reached : ∀ node ∈ trail.nodes, ∃ top ∈ tops, Relation.ReflTransGen index.Parent top node
  tops : ∀ top ∈ tops, top ∈ trail.nodes

namespace Walk

variable {index : Index} {tops moreTops : List Nat} {loose moreLoose : List (Source × Nat)}
  {stray moreStray : List (Nat × Nat)} {before between after : VisitState}
  {first second trail : Trail}

theorem refl (state : VisitState) : Walk index [] [] [] state state {} where
  nodes := .refl _
  parents := .refl _
  cells := .refl _
  references := by simp
  places := by simp
  closed := by simp
  reached := by simp
  tops := by simp

theorem append (hfirst : Walk index tops loose stray before between first)
    (hsecond : Walk index moreTops moreLoose moreStray between after second) :
    Walk index (tops ++ moreTops) (loose ++ moreLoose) (stray ++ moreStray) before after
      (first.append second) where
  nodes := hfirst.nodes.append Bool.false_ne_true hsecond.nodes
  parents := by
    rw [Trail.append, List.map_append]
    exact hfirst.parents.append Nat.zero_ne_one hsecond.parents
  cells := by
    rw [Trail.append, List.map_append]
    exact hfirst.cells.append Bool.false_ne_true hsecond.cells
  references := by
    intro source child
    simp only [Trail.append, List.mem_append, hfirst.references, hsecond.references, or_and_right,
      exists_or]
    exact or_or_or_comm
  places := by
    intro offset cell
    simp only [Trail.append, List.mem_append, hfirst.places, hsecond.places, or_and_right,
      exists_or]
    exact or_or_or_comm
  closed := by
    intro parent hparent child hchild
    rcases List.mem_append.mp hparent with hmem | hmem
    · exact List.mem_append_left _ (hfirst.closed parent hmem child hchild)
    · exact List.mem_append_right _ (hsecond.closed parent hmem child hchild)
  reached := by
    intro node hnode
    rcases List.mem_append.mp hnode with hmem | hmem
    · obtain ⟨top, htop, hreach⟩ := hfirst.reached node hmem
      exact ⟨top, List.mem_append_left _ htop, hreach⟩
    · obtain ⟨top, htop, hreach⟩ := hsecond.reached node hmem
      exact ⟨top, List.mem_append_right _ htop, hreach⟩
  tops := by
    intro top htop
    rcases List.mem_append.mp htop with hmem | hmem
    · exact List.mem_append_left _ (hfirst.tops top hmem)
    · exact List.mem_append_right _ (hsecond.tops top hmem)

variable {child node cell : Nat}

theorem of_addParent (index : Index) {state next : VisitState} {failure : Error} (source : Source)
    (hadd : addParent state child failure = .ok next) :
    Walk index [] [(source, child)] [] state next { references := [(source, child)] } := by
  unfold addParent at hadd
  split at hadd
  next => cases hadd
  next parents hparents =>
    simp only [bind_ok, reject_ok, not_not] at hadd
    obtain ⟨_, hfirst, hnext⟩ := hadd
    obtain rfl := Except.ok.inj hnext
    obtain rfl : parents = 0 := by omega
    exact
      { nodes := .refl _, parents := .set hparents, cells := .refl _
        references := by simp, places := by simp, closed := by simp, reached := by simp
        tops := by simp }

theorem of_visitCell {state next : VisitState} {community : Nat} {below found : Descendants}
    (offset : Nat) (hvisit : visitCell index community child state below = .ok (next, found)) :
    Walk index [] [] [(offset, child)] state next { places := [(offset, child)] } ∧
      found.cells = below.cells ++ [child] ∧
      found.count = below.count + index.cellNodes child ∧
      index.cells[child]?.map (fun cell => cell.communityId.toNat) = some community := by
  unfold visitCell at hvisit
  split at hvisit
  next => cases hvisit
  next cell hcell =>
    simp only [bind_ok, reject_ok, not_or, not_not, checkedAdd_eq_ok] at hvisit
    obtain ⟨_, ⟨hfresh, hcommunity⟩, _, ⟨-, rfl⟩, hnext⟩ := hvisit
    obtain ⟨rfl, rfl⟩ := Prod.mk.inj (Except.ok.inj hnext)
    refine ⟨?_, rfl, by simp [Index.cellNodes, hcell], by simp [hcell, hcommunity]⟩
    exact
      { nodes := .refl _, parents := .refl _, cells := .set hfresh
        references := by simp, places := by simp, closed := by simp, reached := by simp
        tops := by simp }

theorem close (hfresh : before.nodeState[node]? = some 0) (hwalk : Walk index tops loose stray
      { before with nodeState := before.nodeState.set node 1 } after trail)
    (hloose : ∀ source child, (source, child) ∈ loose ↔
      ∃ offset, source = .child offset ∧ index.ChildAt false node offset child)
    (hstray : ∀ offset cell, (offset, cell) ∈ stray ↔ index.ChildAt true node offset cell)
    (htops : ∀ top, top ∈ tops ↔ index.Parent node top) :
    Walk index [node] [] [] before
      { after with nodeState := after.nodeState.set node 2 }
      { trail with nodes := node :: trail.nodes } := by
  have hopened : Marks false true before.visited (before.visited.set node true) [node] := by
    apply Marks.set
    rw [VisitState.visited, List.getElem?_map, hfresh]
    rfl
  have hbetween : ({ before with nodeState := before.nodeState.set node 1 } : VisitState).visited =
      before.visited.set node true := by
    simp [VisitState.visited, List.map_set]
  have hnodes := hwalk.nodes
  rw [hbetween] at hnodes
  have hall := hopened.append Bool.false_ne_true hnodes
  have hmarked : after.visited[node]? = some true := hall.marked_of_mem List.mem_cons_self
  have hafter : ({ after with nodeState := after.nodeState.set node 2 } : VisitState).visited =
      after.visited := by
    rw [VisitState.visited, List.map_set]
    change after.visited.set node true = after.visited
    apply List.ext_getElem?
    intro position
    by_cases hsame : node = position
    · subst hsame
      obtain ⟨hbound, -⟩ := List.getElem_of_getElem? hmarked
      rw [List.getElem?_set_self hbound]
      exact hmarked.symm
    · rw [List.getElem?_set_ne hsame]
  constructor
  case nodes => rwa [hafter]
  case parents => exact hwalk.parents
  case cells => exact hwalk.cells
  case references =>
    intro source child
    simp [hwalk.references, hloose]
  case places =>
    intro offset cell
    simp [hwalk.places, hstray]
  case closed =>
    intro parent hparent child hchild
    apply List.mem_cons_of_mem
    rcases List.mem_cons.mp hparent with rfl | hmem
    · exact hwalk.tops child ((htops child).mpr hchild)
    · exact hwalk.closed parent hmem child hchild
  case reached =>
    intro other hother
    refine ⟨node, List.mem_singleton_self node, ?_⟩
    rcases List.mem_cons.mp hother with rfl | hmem
    · exact .refl
    · obtain ⟨top, htop, hreach⟩ := hwalk.reached other hmem
      exact hreach.head ((htops top).mp htop)
  case tops =>
    intro top htop
    rw [List.mem_singleton.mp htop]
    exact List.mem_cons_self

theorem mem_places_of_below (hwalk : Walk index tops loose stray before after first)
    (hnode : node ∈ first.nodes) (hbelow : index.Below node cell) :
    cell ∈ first.places.map Prod.snd := by
  induction hbelow with
  | leaf hchild =>
    exact List.mem_map_of_mem (f := Prod.snd) ((hwalk.places _ _).mpr (.inr ⟨_, hnode, hchild⟩))
  | inner hparent _ ih => exact ih (hwalk.closed _ hnode _ hparent)

theorem mem_places_iff (hwalk : Walk index [node] [] [] before after first) :
    cell ∈ first.places.map Prod.snd ↔ index.Below node cell := by
  constructor
  · intro hcell
    obtain ⟨⟨offset, _⟩, hplace, rfl⟩ := List.mem_map.mp hcell
    rcases (hwalk.places offset _).mp hplace with hstray | ⟨leaf, hleaf, hchild⟩
    · exact absurd hstray List.not_mem_nil
    · obtain ⟨top, htop, hreach⟩ := hwalk.reached leaf hleaf
      obtain rfl := List.mem_singleton.mp htop
      exact hreach.head_induction_on (.leaf hchild) fun hparent _ hbelow => .inner hparent hbelow
  · exact hwalk.mem_places_of_below (hwalk.tops node (List.mem_singleton_self node))

end Walk

/-! ## Visits -/

/-- What a visit of the tree under `node` establishes. -/
structure Visited (index : Index) (community node : Nat) (before after : VisitState)
    (below : Descendants) (trail : Trail) : Prop where
  walk : Walk index [node] [] [] before after trail
  counted : ∀ other ∈ trail.nodes, index.Counted other
  cells : below.cells = trail.places.map Prod.snd
  count : below.count = (below.cells.map index.cellNodes).sum
  community : ∀ cell ∈ below.cells,
    index.cells[cell]?.map (fun record => record.communityId.toNat) = some community

/-- The children of a node at the given offsets, when they are Cells as `cells` says. -/
def Index.childrenAt (index : Index) (record : CellHierarchyNode) (cells : Bool)
    (offsets : List Nat) : List (Nat × Nat) :=
  if record.childrenAreCells = cells then
    offsets.filterMap fun offset =>
      index.cellHierarchyChildren[offset]?.map fun child => (offset, child.toNat)
  else []

section Children

variable {index : Index} {record : CellHierarchyNode} {cells : Bool}

theorem childrenAt_append (first second : List Nat) :
    index.childrenAt record cells (first ++ second) =
      index.childrenAt record cells first ++ index.childrenAt record cells second := by
  unfold Index.childrenAt
  split
  next => exact List.filterMap_append
  next => rfl

theorem mem_childrenAt {offsets : List Nat} {offset child : Nat} :
    (offset, child) ∈ index.childrenAt record cells offsets ↔
      record.childrenAreCells = cells ∧ offset ∈ offsets ∧
        index.cellHierarchyChildren[offset]?.map UInt32.toNat = some child := by
  unfold Index.childrenAt
  split
  next hcells => simp [hcells]
  next hcells => simp [hcells]

theorem childOffsets_of_ne_nil (hoffsets : record.childOffsets ≠ []) :
    record.childOffsets = List.range' record.childBegin.toNat record.childCount.toNat := by
  have hbegin := record.childBegin.toNat_lt
  have hcount := record.childCount.toNat_lt
  rw [CellHierarchyNode.childOffsets, UInt32.toNat_add] at hoffsets ⊢
  by_cases hwrap : record.childBegin.toNat + record.childCount.toNat < 2 ^ 32
  · rw [Nat.mod_eq_of_lt hwrap, Nat.add_sub_cancel_left]
  · refine absurd ?_ hoffsets
    have hempty : (record.childBegin.toNat + record.childCount.toNat) % 2 ^ 32 -
        record.childBegin.toNat = 0 := by omega
    rw [hempty]
    rfl

theorem mem_childrenAt_iff {node : Nat} (hrecord : index.cellHierarchyNodes[node]? = some record)
    (hoffsets : record.childOffsets ≠ []) {offset child : Nat} :
    (offset, child) ∈ index.childrenAt record cells record.childOffsets ↔
      index.ChildAt cells node offset child := by
  rw [mem_childrenAt, childOffsets_of_ne_nil hoffsets, List.mem_range'_1]
  constructor
  · rintro ⟨hcells, ⟨hfirst, hlast⟩, hchild⟩
    exact ⟨record, hrecord, hcells, hfirst, hlast, hchild⟩
  · rintro ⟨found, hfound, hcells, hfirst, hlast, hchild⟩
    obtain rfl := Option.some.inj (hrecord.symm.trans hfound)
    exact ⟨hcells, ⟨hfirst, hlast⟩, hchild⟩

end Children

/-- The state of a visit after the children at `offsets`. -/
structure Descending (index : Index) (community : Nat) (record : CellHierarchyNode)
    (offsets : List Nat) (before after : VisitState) (below : Descendants) (trail : Trail) :
    Prop where
  walk : Walk index ((index.childrenAt record false offsets).map Prod.snd)
    ((index.childrenAt record false offsets).map fun child => (.child child.1, child.2))
    (index.childrenAt record true offsets) before after trail
  counted : ∀ other ∈ trail.nodes, index.Counted other
  cells : below.cells = trail.places.map Prod.snd
  count : below.count = (below.cells.map index.cellNodes).sum
  community : ∀ cell ∈ below.cells,
    index.cells[cell]?.map (fun record => record.communityId.toNat) = some community

namespace Descending

variable {index : Index} {community : Nat} {record : CellHierarchyNode} {offsets : List Nat}
  {before between after : VisitState} {below found : Descendants} {trail : Trail}

theorem start (index : Index) (community : Nat) (record : CellHierarchyNode)
    (state : VisitState) : Descending index community record [] state state {} {} where
  walk := by simpa [Index.childrenAt] using Walk.refl state
  counted := by simp
  cells := rfl
  count := rfl
  community := by simp

theorem visitChild {self : Nat → VisitState → Except Error (VisitState × Descendants)}
    (hself : ∀ {child before after below}, self child before = .ok (after, below) →
      ∃ trail, Visited index community child before after below trail)
    (hdescending : Descending index community record offsets before between below trail)
    {offset : Nat}
    (hvisit : visitChild index self community record.childrenAreCells offset (between, below) =
      .ok (after, found)) :
    ∃ next, Descending index community record (offsets ++ [offset]) before after found next := by
  simp only [Sidecar.visitChild, bind_ok, element_eq_ok] at hvisit
  obtain ⟨child, hchild, hvisit⟩ := hvisit
  split at hvisit
  next hcells =>
    obtain ⟨hpiece, hfound, hcount, hcommunity⟩ := Walk.of_visitCell offset hvisit
    have hwalk := hdescending.walk.append hpiece
    refine ⟨trail.append { places := [(offset, child.toNat)] }, ?_, ?_, ?_, ?_, ?_⟩
    · simpa [Index.childrenAt, hcells, hchild] using hwalk
    · simpa [Trail.append] using hdescending.counted
    · simp [Trail.append, hfound, hdescending.cells]
    · simp [hcount, hfound, hdescending.count]
    · intro cell hcell
      rw [hfound] at hcell
      rcases List.mem_append.mp hcell with hmem | hlast
      · exact hdescending.community cell hmem
      · rwa [List.mem_singleton.mp hlast]
  next hcells =>
    simp only [bind_ok, checkedAdd_eq_ok] at hvisit
    obtain ⟨counted, hadd, ⟨reached, deeper⟩, hrecursive, _, ⟨-, rfl⟩, hnext⟩ := hvisit
    obtain ⟨rfl, rfl⟩ := Prod.mk.inj (Except.ok.inj hnext)
    obtain ⟨subtree, hvisited⟩ := hself hrecursive
    have hreference := Walk.of_addParent index (.child offset) hadd
    have hwalk := hdescending.walk.append (hreference.append hvisited.walk)
    refine ⟨trail.append (Trail.append { references := [(.child offset, child.toNat)] } subtree),
      ?_, ?_, ?_, ?_, ?_⟩
    · rw [childrenAt_append, childrenAt_append, List.map_append, List.map_append]
      simpa [Index.childrenAt, hcells, hchild] using hwalk
    · intro other hother
      rcases List.mem_append.mp hother with hmem | hmem
      · exact hdescending.counted other hmem
      · exact hvisited.counted other hmem
    · simp [Trail.append, hdescending.cells, hvisited.cells]
    · simp [hdescending.count, hvisited.count]
    · intro cell hcell
      rcases List.mem_append.mp hcell with hmem | hmem
      · exact hdescending.community cell hmem
      · exact hvisited.community cell hmem

end Descending

/-- No node has zero descendants. -/
def Index.Populated (index : Index) : Prop :=
  ∀ record ∈ index.cellHierarchyNodes, record.descendantNodeCount.toNat ≠ 0

theorem visit_visited {index : Index} (hpopulated : index.Populated) {community fuel node : Nat}
    {before after : VisitState} {below : Descendants}
    (hvisit : visit index community fuel node before = .ok (after, below)) :
    ∃ trail, Visited index community node before after below trail := by
  induction fuel generalizing node before after below with
  | zero => cases hvisit
  | succ fuel ih =>
    simp only [visit, bind_ok, reject_ok, not_not, element_eq_ok] at hvisit
    obtain ⟨_, hfresh, record, hrecord, ⟨reached, found⟩, hscan, _, hcount, _, -, hnext⟩ := hvisit
    obtain ⟨rfl, rfl⟩ := Prod.mk.inj (Except.ok.inj hnext)
    have hinvariant := scan_invariant hscan
      (motive := fun position (outcome : VisitState × Descendants) =>
        ∃ trail, Descending index community record (record.childOffsets.take position)
          { before with nodeState := before.nodeState.set node 1 } outcome.1 outcome.2 trail)
      ⟨{}, .start index community record _⟩ ?_
    · rw [Nat.zero_add, List.take_length] at hinvariant
      obtain ⟨trail, hdescending⟩ := hinvariant
      have hoffsets : record.childOffsets ≠ [] := by
        intro hempty
        rw [hempty] at hscan
        obtain ⟨-, rfl⟩ := Prod.mk.inj (Except.ok.inj hscan)
        exact hpopulated record (List.mem_of_getElem? hrecord) hcount.symm
      have hwalk := hdescending.walk.close hfresh ?_ ?_ ?_
      · refine ⟨_, hwalk, ?_, hdescending.cells, hdescending.count, hdescending.community⟩
        intro other hother
        rcases List.mem_cons.mp hother with rfl | hmem
        · refine ⟨found.cells, ?_, fun cell => ?_, ?_⟩
          · rw [hdescending.cells]
            exact hdescending.walk.cells.nodup
          · rw [hdescending.cells]
            exact hwalk.mem_places_iff
          · rw [hrecord, ← hdescending.count, hcount]
            rfl
        · exact hdescending.counted other hmem
      · intro source child
        constructor
        · intro hmem
          obtain ⟨⟨offset, _⟩, hchild, hpair⟩ := List.mem_map.mp hmem
          obtain ⟨rfl, rfl⟩ := Prod.mk.inj hpair
          exact ⟨offset, rfl, (mem_childrenAt_iff hrecord hoffsets).mp hchild⟩
        · rintro ⟨offset, rfl, hchild⟩
          exact List.mem_map.mpr
            ⟨(offset, child), (mem_childrenAt_iff hrecord hoffsets).mpr hchild, rfl⟩
      · exact fun offset cell => mem_childrenAt_iff hrecord hoffsets
      · intro top
        constructor
        · intro hmem
          obtain ⟨⟨offset, _⟩, hchild, rfl⟩ := List.mem_map.mp hmem
          exact ⟨offset, (mem_childrenAt_iff hrecord hoffsets).mp hchild⟩
        · rintro ⟨offset, hchild⟩
          exact List.mem_map.mpr
            ⟨(offset, top), (mem_childrenAt_iff hrecord hoffsets).mpr hchild, rfl⟩
    · rintro position offset ⟨between, sofar⟩ ⟨after, found⟩ hoffset ⟨trail, hdescending⟩ hvisit
      rw [Nat.zero_add] at hdescending ⊢
      rw [take_succ hoffset]
      exact hdescending.visitChild ih hvisit

/-! ## Visits end -/

section Termination

variable {index : Index}

def VisitState.unvisited (state : VisitState) : Nat := state.visited.count false

theorem Walk.unvisited_le {tops : List Nat} {loose : List (Source × Nat)}
    {stray : List (Nat × Nat)} {before after : VisitState} {trail : Trail}
    (hwalk : Walk index tops loose stray before after trail) :
    after.unvisited ≤ before.unvisited :=
  hwalk.nodes.count_le Bool.false_ne_true

variable {state : VisitState}

theorem unvisited_open {node : Nat} (hfresh : state.nodeState[node]? = some 0) :
    ({ state with nodeState := state.nodeState.set node 1 } : VisitState).unvisited + 1 =
      state.unvisited := by
  have hvisited : state.visited[node]? = some false := by
    rw [VisitState.visited, List.getElem?_map, hfresh]
    rfl
  obtain ⟨hbound, hvalue⟩ := List.getElem_of_getElem? hvisited
  have hpositive : 0 < state.visited.count false :=
    List.count_pos_iff.mpr (List.mem_of_getElem? hvisited)
  rw [VisitState.unvisited, VisitState.visited, List.map_set, ← VisitState.visited]
  change (state.visited.set node true).count false + 1 = state.visited.count false
  rw [List.count_set hbound, hvalue]
  simp only [beq_self_eq_true, if_true, Bool.true_beq, Bool.false_eq_true, if_false]
  omega

theorem ends_checkedAdd (left right : Nat) (context : String) :
    Ends Error.endless (checkedAdd left right context) := by
  unfold checkedAdd
  split
  next => exact .error (by nofun)
  next => exact .ok _

theorem ends_checkedMultiply (left right : Nat) (context : String) :
    Ends Error.endless (checkedMultiply left right context) := by
  unfold checkedMultiply
  split
  next => exact .error (by nofun)
  next => exact .ok _

theorem ends_slice {α : Type} (values : List α) (first count : Nat) :
    Ends Error.endless (slice values first count) := by
  unfold slice
  split
  next => exact .ok _
  next => exact .error (by nofun)

theorem ends_checkRadius (nodeId : Nat) (radius : Single) (cells : List Nat) :
    Ends Error.endless (checkRadius index nodeId radius cells) := by
  induction cells with
  | nil => exact .ok ()
  | cons cell cells ih =>
    apply Ends.bind (ends_slice _ _ _)
    intro center _
    apply Ends.bind (ends_slice _ _ _)
    intro leafCenter _
    exact Ends.bind (.reject (by nofun)) fun _ _ => ih

theorem ends_visitCell (community child : Nat) (state : VisitState) (below : Descendants) :
    Ends Error.endless (visitCell index community child state below) := by
  unfold visitCell
  split
  next => exact .error (by nofun)
  next =>
    apply Ends.bind (.reject (by nofun))
    intro _ _
    exact Ends.bind (ends_checkedAdd _ _ _) fun _ _ => .ok _

theorem ends_addParent (state : VisitState) (child : Nat) {failure : Error}
    (hfailure : failure ≠ .endless) : Ends Error.endless (addParent state child failure) := by
  unfold addParent
  split
  next => exact .error hfailure
  next => exact Ends.bind (.reject hfailure) fun _ _ => .ok _

theorem ends_visitChild {self : Nat → VisitState → Except Error (VisitState × Descendants)}
    {community offset fuel : Nat} {areCells : Bool} {below : Descendants}
    (hself : ∀ child {before : VisitState}, before.unvisited < fuel →
      Ends Error.endless (self child before)) (hfuel : state.unvisited < fuel) :
    Ends Error.endless (visitChild index self community areCells offset (state, below)) := by
  unfold visitChild
  apply Ends.bind (.element (by nofun) _ _)
  intro child _
  split
  next => exact ends_visitCell _ _ _ _
  next =>
    apply Ends.bind (ends_addParent _ _ (by nofun))
    intro counted hadd
    have hle := (Walk.of_addParent index (.child offset) hadd).unvisited_le
    apply Ends.bind (hself _ (Nat.lt_of_le_of_lt hle hfuel))
    intro found _
    exact Ends.bind (ends_checkedAdd _ _ _) fun _ _ => .ok _

theorem ends_visit (hpopulated : index.Populated) {community fuel node : Nat}
    (hfuel : state.unvisited < fuel) :
    Ends Error.endless (visit index community fuel node state) := by
  induction fuel generalizing node state with
  | zero => exact absurd hfuel (Nat.not_lt_zero _)
  | succ fuel ih =>
    unfold visit
    apply Ends.bind (.reject (by nofun))
    intro _ hfresh
    apply Ends.bind (.element (by nofun) _ _)
    intro record _
    have hopen := unvisited_open (not_not.mp (reject_ok.mp hfresh))
    rw [← hopen] at hfuel
    apply Ends.bind
    · apply Ends.scan (motive := fun position (outcome : VisitState × Descendants) =>
        ∃ trail, Descending index community record (record.childOffsets.take position)
          { state with nodeState := state.nodeState.set node 1 } outcome.1 outcome.2 trail)
      · exact ⟨{}, .start index community record _⟩
      · rintro position offset ⟨between, below⟩ _ ⟨trail, hdescending⟩
        apply ends_visitChild fun child => ih
        exact Nat.lt_of_le_of_lt hdescending.walk.unvisited_le (Nat.lt_of_succ_lt_succ hfuel)
      · rintro position offset ⟨between, below⟩ ⟨after, found⟩ hoffset ⟨trail, hdescending⟩ hvisit
        rw [Nat.zero_add] at hdescending ⊢
        rw [take_succ hoffset]
        exact hdescending.visitChild (visit_visited hpopulated) hvisit
    · intro outcome _
      apply Ends.bind (.reject (by nofun))
      intro _ _
      exact Ends.bind (ends_checkRadius _ _ _) fun _ _ => .ok _

end Termination

end SkipCell.Sidecar

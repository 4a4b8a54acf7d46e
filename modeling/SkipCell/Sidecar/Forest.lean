import SkipCell.Sidecar.Hierarchy

/-! # The Cell hierarchy of an accepted index

What `validate_cell_hierarchy` accepts is a forest: every node has one path from
one root, and every Cell is attached at one place, in the tree of its Community.
-/

namespace SkipCell.Sidecar

open Foundation

/-! ## The roots -/

/-- The roots of the Communities below `done`. -/
def Index.rootsBelow (index : Index) (done : Nat) : List (Source × Nat) :=
  (List.range done).filterMap fun community =>
    match index.communities[community]?, index.cellHierarchyRoots[community]? with
    | some record, some root =>
      if record.cellCount = 0 then none else some (.root community, root.toNat)
    | _, _ => none

/-- The state of the loop over the Communities. -/
structure Rooted (index : Index) (done : Nat) (before after : VisitState) (trail : Trail) :
    Prop where
  walk : Walk index ((index.rootsBelow done).map Prod.snd) (index.rootsBelow done) [] before after
    trail
  counted : ∀ node ∈ trail.nodes, index.Counted node
  owned : ∀ community < done, ∀ root, index.IsRoot community root → ∀ cell,
    index.Below root cell →
      index.cells[cell]?.map (fun record => record.communityId.toNat) = some community
  empty : ∀ community < done, ∀ record, index.communities[community]? = some record →
    record.cellCount = 0 → index.cellHierarchyRoots[community]?.map UInt32.toNat = some invalidId

theorem Rooted.start (index : Index) (state : VisitState) : Rooted index 0 state state {} where
  walk := .refl state
  counted := by simp
  owned := fun _ hbound => absurd hbound (Nat.not_lt_zero _)
  empty := fun _ hbound => absurd hbound (Nat.not_lt_zero _)

theorem visitRoot_rooted {index : Index} (hpopulated : index.Populated) {community : Nat}
    {record : Community} {start before after : VisitState} {trail : Trail}
    (hrecord : index.communities[community]? = some record)
    (hrooted : Rooted index community start before trail)
    (hvisit : visitRoot index community record before = .ok after) :
    ∃ next, Rooted index (community + 1) start after next := by
  simp only [visitRoot, bind_ok, element_eq_ok] at hvisit
  obtain ⟨root, hroot, hvisit⟩ := hvisit
  split at hvisit
  next hempty =>
    simp only [bind_ok, reject_ok, not_not] at hvisit
    obtain ⟨_, hinvalid, hnext⟩ := hvisit
    obtain rfl := Except.ok.inj hnext
    have hroots : index.rootsBelow (community + 1) = index.rootsBelow community := by
      simp [Index.rootsBelow, List.range_succ, hrecord, hroot, hempty]
    refine ⟨trail, hroots ▸ hrooted.walk, hrooted.counted, ?_, ?_⟩
    · intro other hother
      rcases Nat.lt_succ_iff_lt_or_eq.mp hother with hbefore | rfl
      · exact hrooted.owned other hbefore
      · rintro _ ⟨found, hfound, hcount, -⟩
        obtain rfl := Option.some.inj (hrecord.symm.trans hfound)
        exact absurd hempty hcount
    · intro other hother
      rcases Nat.lt_succ_iff_lt_or_eq.mp hother with hbefore | rfl
      · exact hrooted.empty other hbefore
      · intro _ _ _
        rw [hroot, ← hinvalid]
        rfl
  next hcount =>
    simp only [bind_ok, reject_ok] at hvisit
    obtain ⟨counted, hadd, ⟨reached, below⟩, hrecursive, _, -, hnext⟩ := hvisit
    obtain rfl := Except.ok.inj hnext
    obtain ⟨subtree, hvisited⟩ := visit_visited hpopulated hrecursive
    have hreference := Walk.of_addParent index (.root community) hadd
    have hwalk := hrooted.walk.append (hreference.append hvisited.walk)
    have hroots : index.rootsBelow (community + 1) =
        index.rootsBelow community ++ [(.root community, root.toNat)] := by
      simp [Index.rootsBelow, List.range_succ, hrecord, hroot, hcount]
    refine ⟨trail.append (Trail.append { references := [(.root community, root.toNat)] } subtree),
      ?_, ?_, ?_, ?_⟩
    · rw [hroots, List.map_append]
      simpa using hwalk
    · intro node hnode
      rcases List.mem_append.mp hnode with hmem | hmem
      · exact hrooted.counted node hmem
      · exact hvisited.counted node hmem
    · intro other hother
      rcases Nat.lt_succ_iff_lt_or_eq.mp hother with hbefore | rfl
      · exact hrooted.owned other hbefore
      · rintro top ⟨found, -, -, htop⟩ cell hbelow
        rw [hroot] at htop
        obtain rfl := Option.some.inj htop
        apply hvisited.community
        rw [hvisited.cells]
        exact hvisited.walk.mem_places_iff.mpr hbelow
    · intro other hother
      rcases Nat.lt_succ_iff_lt_or_eq.mp hother with hbefore | rfl
      · exact hrooted.empty other hbefore
      · intro found hfound hempty
        obtain rfl := Option.some.inj (hrecord.symm.trans hfound)
        exact absurd hempty hcount

/-! ## The forest -/

/-- What the Cell hierarchy of an accepted index is. -/
structure CellForest (index : Index) : Prop where
  root : ∀ (community : Nat) (record : Community), index.communities[community]? = some record →
    record.cellCount ≠ 0 → ∃ root < index.cellHierarchyNodes.length,
      index.cellHierarchyRoots[community]?.map UInt32.toNat = some root
  noRoot : ∀ (community : Nat) (record : Community), index.communities[community]? = some record →
    record.cellCount = 0 → index.cellHierarchyRoots[community]?.map UInt32.toNat = some invalidId
  child : ∀ parent child, index.Parent parent child → child < index.cellHierarchyNodes.length
  path : ∀ node < index.cellHierarchyNodes.length,
    ∃! path : Nat × List Nat, index.Path path.1 path.2 node
  acyclic : ∀ node, ¬ Relation.TransGen index.Parent node node
  leaf : ∀ leaf offset cell, index.ChildAt true leaf offset cell → cell < index.cells.length
  attached : ∀ cell < index.cells.length,
    ∃! place : Nat × Nat, index.ChildAt true place.1 place.2 cell
  community : ∀ community offsets leaf offset cell, index.Path community offsets leaf →
    index.ChildAt true leaf offset cell →
      index.cells[cell]?.map (fun record => record.communityId.toNat) = some community
  counted : ∀ node < index.cellHierarchyNodes.length, index.Counted node

def Index.childRanges (index : Index) : List LabelledRange :=
  numberedRanges (fun record => record.childBegin.toNat) (fun record => record.childCount.toNat)
    index.cellHierarchyNodes

section Forest

variable {index : Index}

variable {node last other done community : Nat}

theorem checkHierarchyNode_eq_ok {expected next : Nat} {record : CellHierarchyNode}
    (hcheck : checkHierarchyNode index node record expected = .ok next) :
    record.childBegin.toNat = expected ∧ record.childCount ≠ 0 ∧
      record.descendantNodeCount ≠ 0 ∧ next = expected + record.childCount.toNat := by
  simp only [checkHierarchyNode, bind_ok, reject_ok, checkedAdd_eq_ok, not_or, not_not] at hcheck
  obtain ⟨_, ⟨-, hchildren, hbegin⟩, _, -, _, ⟨-, hcount, -⟩, _, ⟨-, rfl⟩, _, -, _, -,
    hnext⟩ := hcheck
  exact ⟨hbegin, hchildren, hcount, (Except.ok.inj hnext).symm⟩

theorem children_tile
    (hnodes : scan (checkHierarchyNode index) 0 index.cellHierarchyNodes 0 = .ok last) :
    TilesFrom 0 index.childRanges last := by
  have hinvariant := scan_invariant hnodes
    (motive := fun position next => TilesFrom 0 (index.childRanges.take position) next) rfl ?_
  · rwa [Nat.zero_add, Index.childRanges, List.take_of_length_le length_numberedRanges.le]
      at hinvariant
  · intro position record expected next hrecord htiles hcheck
    rw [Nat.zero_add] at htiles ⊢
    obtain ⟨hbegin, -, -, rfl⟩ := checkHierarchyNode_eq_ok hcheck
    rw [Index.childRanges, take_succ (getElem?_numberedRanges hrecord)]
    exact htiles.snoc hbegin

theorem populated
    (hnodes : scan (checkHierarchyNode index) 0 index.cellHierarchyNodes 0 = .ok last) :
    index.Populated := by
  intro record hrecord
  obtain ⟨node, hnode⟩ := List.mem_iff_getElem?.mp hrecord
  obtain ⟨before, after, hcheck⟩ := scan_accepts hnodes hnode
  have hcount := (checkHierarchyNode_eq_ok hcheck).2.2.1
  exact fun hzero => hcount (UInt64.toNat_inj.mp hzero)

theorem childAt_parent (htiles : TilesFrom 0 index.childRanges last) {cells others : Bool}
    {parent offset child grandchild : Nat} (hchild : index.ChildAt cells parent offset child)
    (hother : index.ChildAt others other offset grandchild) :
    parent = other ∧ child = grandchild := by
  obtain ⟨record, hrecord, -, hfirst, hlast, hvalue⟩ := hchild
  obtain ⟨found, hfound, -, hbegin, hend, hsame⟩ := hother
  have howned : OwnedBy index.childRanges offset parent :=
    ⟨_, getElem?_numberedRanges hrecord, hfirst, hlast⟩
  have hstop := (htiles.within (getElem?_numberedRanges hrecord)).2
  obtain ⟨owner, -, hunique⟩ := htiles.existsUnique (Nat.zero_le offset)
    (Nat.lt_of_lt_of_le hlast hstop)
  refine ⟨?_, Option.some.inj (hvalue.symm.trans hsame)⟩
  rw [hunique parent howned]
  exact (hunique other ⟨_, getElem?_numberedRanges hfound, hbegin, hend⟩).symm

theorem mem_rootsBelow {root : Nat} :
    (.root community, root) ∈ index.rootsBelow done ↔
      community < done ∧ index.IsRoot community root := by
  rw [Index.rootsBelow, List.mem_filterMap]
  constructor
  · rintro ⟨other, hother, hroot⟩
    split at hroot
    next record found hrecord hfound =>
      split at hroot
      next => cases hroot
      next hcount =>
        obtain ⟨hcommunity, rfl⟩ := Prod.mk.inj (Option.some.inj hroot)
        obtain rfl := Source.root.inj hcommunity
        exact ⟨List.mem_range.mp hother, record, hrecord, hcount, by rw [hfound]; rfl⟩
    next => cases hroot
  · rintro ⟨hbound, record, hrecord, hcount, hroot⟩
    obtain ⟨found, hfound, rfl⟩ := Option.map_eq_some_iff.mp hroot
    exact ⟨community, List.mem_range.mpr hbound, by simp [hrecord, hfound, hcount]⟩

theorem Index.Path.extend {descendant : Nat} {offsets : List Nat}
    (hpath : index.Path community offsets node)
    (hreach : Relation.ReflTransGen index.Parent node descendant) :
    ∃ more, index.Path community (more ++ offsets) descendant := by
  induction hreach with
  | refl => exact ⟨[], hpath⟩
  | tail _ hparent ih =>
    obtain ⟨more, hmore⟩ := ih
    obtain ⟨offset, hchild⟩ := hparent
    exact ⟨offset :: more, hmore.step hchild⟩

/-- A walk from all roots, over a children array that is tiled, gives one path to a node. -/
theorem Walk.path_unique {tops : List Nat} {start final : VisitState} {trail : Trail}
    (hwalk : Walk index tops (index.rootsBelow done) [] start final trail)
    (htiles : TilesFrom 0 index.childRanges last)
    (hdone : ∀ community root, index.IsRoot community root → community < done)
    (hparents : ∀ parent child, index.Parent parent child → parent ∈ trail.nodes)
    {offsets more : List Nat} (hpath : index.Path community offsets node)
    (hother : index.Path other more node) :
    community = other ∧ offsets = more := by
  have hsource : ∀ first second target, (first, target) ∈ trail.references →
      (second, target) ∈ trail.references → first = second := by
    intro first second target hfirst hsecond
    exact congrArg Prod.fst
      (List.inj_on_of_nodup_map hwalk.parents.nodup hfirst hsecond rfl)
  have hrootReference : ∀ community root, index.IsRoot community root →
      (.root community, root) ∈ trail.references := fun community root hroot =>
    (hwalk.references _ _).mpr (.inl (mem_rootsBelow.mpr ⟨hdone community root hroot, hroot⟩))
  have hchildReference : ∀ parent offset child, index.ChildAt false parent offset child →
      (.child offset, child) ∈ trail.references := fun parent offset child hchild =>
    (hwalk.references _ _).mpr (.inr ⟨parent, hparents parent child ⟨offset, hchild⟩, offset, rfl,
      hchild⟩)
  induction hpath generalizing other more with
  | root hroot =>
    cases hother with
    | root hsecond =>
      have hsame := hsource _ _ _ (hrootReference _ _ hroot) (hrootReference _ _ hsecond)
      exact ⟨Source.root.inj hsame, rfl⟩
    | step _ hchild =>
      exact nomatch hsource _ _ _ (hrootReference _ _ hroot) (hchildReference _ _ _ hchild)
  | step _ hchild ih =>
    cases hother with
    | root hsecond =>
      exact nomatch hsource _ _ _ (hrootReference _ _ hsecond) (hchildReference _ _ _ hchild)
    | step hbefore hsecond =>
      have hsame := hsource _ _ _ (hchildReference _ _ _ hchild) (hchildReference _ _ _ hsecond)
      obtain rfl := Source.child.inj hsame
      obtain ⟨rfl, -⟩ := childAt_parent htiles hchild hsecond
      obtain ⟨rfl, rfl⟩ := ih hbefore
      exact ⟨rfl, rfl⟩

/-- An accepted hierarchy that is not empty: the loops of the check and the marks they
leave. -/
structure AcceptedHierarchy (index : Index) where
  trail : Trail
  start : VisitState
  final : VisitState
  roots : index.cellHierarchyRoots.length = index.communities.length
  tiles : TilesFrom 0 index.childRanges index.cellHierarchyChildren.length
  rooted : Rooted index index.communities.length start final trail
  node : ∀ node, node ∈ trail.nodes ↔ node < index.cellHierarchyNodes.length
  cell : ∀ cell, cell ∈ trail.places.map Prod.snd ↔ cell < index.cells.length

theorem accepted_of_hierarchy (hnodes : index.cellHierarchyNodes ≠ [])
    (hvalid : validateCellHierarchy index = .ok ()) : Nonempty (AcceptedHierarchy index) := by
  rw [validateCellHierarchy, if_neg fun hempty => hnodes hempty.1] at hvalid
  simp only [bind_ok, reject_ok, not_or, not_not, scanCounted_eq_ok] at hvalid
  obtain ⟨_, ⟨-, -, -, -, -, hroots⟩, _, -, _, -, children, ⟨-, hscan⟩, _, rfl, final,
    ⟨-, hcommunities⟩, hunvisited, hunseen, -⟩ := hvalid
  have hinvariant := scan_invariant hcommunities
    (motive := fun position state => ∃ trail, Rooted index position
      ⟨index.cellHierarchyNodes.map fun _ => 0, index.cellHierarchyNodes.map fun _ => 0,
        index.cells.map fun _ => false⟩ state trail) ?_ ?_
  · rw [Nat.zero_add] at hinvariant
    obtain ⟨trail, hrooted⟩ := hinvariant
    have hcomplete : false ∉ final.visited := by
      simpa [VisitState.visited] using hunvisited
    refine ⟨trail, _, final, hroots, children_tile hscan, hrooted, fun node => ?_, fun cell => ?_⟩
    · constructor
      · intro hmem
        simpa [VisitState.visited] using hrooted.walk.nodes.lt_length hmem
      · intro hbound
        apply hrooted.walk.nodes.mem_of_complete hcomplete
        simp [VisitState.visited, hbound]
    · constructor
      · intro hmem
        simpa using hrooted.walk.cells.lt_length hmem
      · intro hbound
        apply hrooted.walk.cells.mem_of_complete hunseen
        simp [hbound]
  · exact ⟨{}, .start index _⟩
  · rintro position record before after hrecord ⟨trail, hrooted⟩ hvisit
    rw [Nat.zero_add] at hrooted hvisit ⊢
    exact visitRoot_rooted (populated hscan) hrecord hrooted hvisit

namespace AcceptedHierarchy

variable {parent offset child community root node cell : Nat}

theorem childAt_bound {cells : Bool} (hchild : index.ChildAt cells parent offset child) :
    parent < index.cellHierarchyNodes.length := by
  obtain ⟨record, hrecord, -⟩ := hchild
  exact (List.getElem_of_getElem? hrecord).1

theorem isRoot_bound (hroot : index.IsRoot community root) :
    community < index.communities.length := by
  obtain ⟨record, hrecord, -⟩ := hroot
  exact (List.getElem_of_getElem? hrecord).1

theorem path_below {offsets : List Nat} (hpath : index.Path community offsets node)
    (hbelow : index.Below node cell) :
    ∃ root, index.IsRoot community root ∧ index.Below root cell := by
  induction hpath with
  | root hroot => exact ⟨_, hroot, hbelow⟩
  | step _ hchild ih => exact ih (.inner ⟨_, hchild⟩ hbelow)

variable (accepted : AcceptedHierarchy index)
include accepted

theorem root_bound (hroot : index.IsRoot community root) :
    root < index.cellHierarchyNodes.length := by
  apply (accepted.node root).mp
  apply accepted.rooted.walk.tops
  exact List.mem_map_of_mem (f := Prod.snd) (mem_rootsBelow.mpr ⟨isRoot_bound hroot, hroot⟩)

theorem child_bound (hparent : index.Parent parent child) :
    child < index.cellHierarchyNodes.length := by
  obtain ⟨offset, hchild⟩ := hparent
  have hmem := (accepted.node parent).mpr (childAt_bound hchild)
  exact (accepted.node child).mp (accepted.rooted.walk.closed parent hmem child ⟨offset, hchild⟩)

theorem path_unique {other : Nat} {offsets more : List Nat}
    (hpath : index.Path community offsets node) (hother : index.Path other more node) :
    community = other ∧ offsets = more :=
  accepted.rooted.walk.path_unique accepted.tiles (fun _ _ => isRoot_bound)
    (fun parent _ ⟨_, hchild⟩ => (accepted.node parent).mpr (childAt_bound hchild)) hpath hother

theorem path_exists (hnode : node < index.cellHierarchyNodes.length) :
    ∃ community offsets, index.Path community offsets node := by
  obtain ⟨top, htop, hreach⟩ := accepted.rooted.walk.reached node ((accepted.node node).mpr hnode)
  obtain ⟨⟨source, _⟩, hroot, rfl⟩ := List.mem_map.mp htop
  cases source with
  | root community =>
    obtain ⟨more, hpath⟩ := (Index.Path.root (mem_rootsBelow.mp hroot).2).extend hreach
    exact ⟨community, _, hpath⟩
  | child offset =>
    obtain ⟨community, -, hsome⟩ := List.mem_filterMap.mp hroot
    split at hsome
    next =>
      split at hsome
      next => cases hsome
      next => cases hsome
    next => cases hsome

theorem acyclic (node : Nat) : ¬ Relation.TransGen index.Parent node node := by
  intro hcycle
  obtain ⟨child, ⟨offset, hchild⟩, hreach⟩ := Relation.TransGen.head'_iff.mp hcycle
  obtain ⟨community, offsets, hpath⟩ := accepted.path_exists (childAt_bound hchild)
  -- going round the cycle once gives a longer path to the same node
  obtain ⟨more, hlonger⟩ := (hpath.step hchild).extend hreach
  have hsame := (accepted.path_unique hpath hlonger).2
  have hlength := congrArg List.length hsame
  rw [List.length_append, List.length_cons] at hlength
  omega

theorem place_iff :
    (offset, cell) ∈ accepted.trail.places ↔ ∃ leaf, index.ChildAt true leaf offset cell := by
  rw [accepted.rooted.walk.places]
  constructor
  · rintro (hstray | ⟨leaf, -, hchild⟩)
    · exact absurd hstray List.not_mem_nil
    · exact ⟨leaf, hchild⟩
  · rintro ⟨leaf, hchild⟩
    exact .inr ⟨leaf, (accepted.node leaf).mpr (childAt_bound hchild), hchild⟩

theorem leaf_bound {leaf : Nat} (hchild : index.ChildAt true leaf offset cell) :
    cell < index.cells.length :=
  (accepted.cell cell).mp
    (List.mem_map_of_mem (f := Prod.snd) (accepted.place_iff.mpr ⟨leaf, hchild⟩))

theorem attached (hcell : cell < index.cells.length) :
    ∃! place : Nat × Nat, index.ChildAt true place.1 place.2 cell := by
  obtain ⟨⟨offset, _⟩, hplace, rfl⟩ := List.mem_map.mp ((accepted.cell cell).mpr hcell)
  obtain ⟨leaf, hchild⟩ := accepted.place_iff.mp hplace
  refine ⟨(leaf, offset), hchild, ?_⟩
  rintro ⟨other, position⟩ hother
  have hsecond := accepted.place_iff.mpr ⟨other, hother⟩
  have hsame := List.inj_on_of_nodup_map accepted.rooted.walk.cells.nodup hsecond hplace rfl
  obtain rfl : position = offset := congrArg Prod.fst hsame
  exact Prod.ext (childAt_parent accepted.tiles hother hchild).1 rfl

theorem forest : CellForest index := by
  have hrooted := accepted.rooted
  constructor
  case root =>
    intro community record hrecord hcount
    have hbound : community < index.cellHierarchyRoots.length :=
      accepted.roots ▸ (List.getElem_of_getElem? hrecord).1
    have hroot : index.IsRoot community index.cellHierarchyRoots[community].toNat :=
      ⟨record, hrecord, hcount, by rw [List.getElem?_eq_getElem hbound]; rfl⟩
    exact ⟨_, accepted.root_bound hroot, hroot.choose_spec.2.2⟩
  case noRoot =>
    intro community record hrecord hempty
    exact hrooted.empty community (List.getElem_of_getElem? hrecord).1 record hrecord hempty
  case child => exact fun parent child => accepted.child_bound
  case path =>
    intro node hnode
    obtain ⟨community, offsets, hpath⟩ := accepted.path_exists hnode
    refine ⟨(community, offsets), hpath, ?_⟩
    rintro ⟨other, more⟩ hother
    obtain ⟨rfl, rfl⟩ := accepted.path_unique hpath hother
    rfl
  case acyclic => exact accepted.acyclic
  case leaf => exact fun _ _ _ => accepted.leaf_bound
  case attached => exact fun _ => accepted.attached
  case community =>
    intro community offsets leaf offset cell hpath hchild
    obtain ⟨root, hroot, hbelow⟩ := path_below hpath (.leaf hchild)
    exact hrooted.owned community (isRoot_bound hroot) root hroot cell hbelow
  case counted => exact fun node hnode => hrooted.counted node ((accepted.node node).mpr hnode)

end AcceptedHierarchy

end Forest

/-! ## The check ends -/

section Termination

variable {index : Index}

theorem ends_checkHierarchyNode (node expected : Nat) (record : CellHierarchyNode) :
    Ends Error.endless (checkHierarchyNode index node record expected) := by
  unfold checkHierarchyNode
  apply Ends.bind (.reject (by nofun))
  intro _ _
  apply Ends.bind (ends_checkedAdd _ _ _)
  intro childEnd _
  apply Ends.bind (.reject (by nofun))
  intro _ _
  apply Ends.bind (ends_checkedAdd _ _ _)
  intro nextChild _
  apply Ends.bind (ends_slice _ _ _)
  intro centroid _
  exact Ends.bind (.reject (by nofun)) fun _ _ => .ok _

/-- A second round over the nodes fails at the first node: its children start at
zero, which is where the first round started and not where it ended. -/
theorem hierarchyNodes_once {nodes : List CellHierarchyNode} (hnodes : nodes ≠ [])
    {reached last : Nat} (hfirst : scan (checkHierarchyNode index) 0 nodes 0 = .ok reached) :
    scan (checkHierarchyNode index) 0 nodes reached ≠ .ok last := by
  intro hsecond
  cases nodes with
  | nil => exact hnodes rfl
  | cons head nodes =>
    obtain ⟨next, hhead, hrest⟩ := bind_ok.mp hfirst
    obtain ⟨again, hagain, -⟩ := bind_ok.mp hsecond
    obtain ⟨hbegin, hcount, -, hnext⟩ := checkHierarchyNode_eq_ok hhead
    obtain ⟨hsame, -, -, -⟩ := checkHierarchyNode_eq_ok hagain
    have hgrows := scan_invariant hrest (motive := fun _ cursor => next ≤ cursor) (Nat.le_refl _)
      fun position record before after _ hle hcheck => by
        obtain ⟨-, -, -, rfl⟩ := checkHierarchyNode_eq_ok hcheck
        exact hle.trans (Nat.le_add_right _ _)
    have hzero : head.childCount.toNat = 0 := by omega
    exact hcount (UInt32.toNat_inj.mp hzero)

theorem ends_hierarchyNodes (hnodes : index.cellHierarchyNodes ≠ []) :
    Ends Error.endless (scan32 (checkHierarchyNode index) index.cellHierarchyNodes 0) := by
  have hscan : ∀ nodes expected,
      Ends Error.endless (scan (checkHierarchyNode index) 0 nodes expected) :=
    fun nodes expected => Ends.scan (motive := fun _ _ => True) trivial
      (fun _ _ _ _ _ => ends_checkHierarchyNode _ _ _) fun _ _ _ _ _ _ _ => trivial
  unfold scan32 scanCounted
  split
  next => exact hscan _ _
  next hlong =>
    apply Ends.bind (hscan _ _)
    intro reached hreached
    apply Ends.bind (hscan _ _)
    intro last hlast
    refine absurd hlast (hierarchyNodes_once ?_ hreached)
    intro hempty
    rcases List.take_eq_nil_iff.mp hempty with hzero | hnil
    · cases hzero
    · exact hnodes hnil

theorem ends_visitRoot (hpopulated : index.Populated) {community : Nat} {record : Community}
    {state : VisitState} (hbound : state.unvisited ≤ index.cellHierarchyNodes.length) :
    Ends Error.endless (visitRoot index community record state) := by
  unfold visitRoot
  apply Ends.bind (.element (by nofun) _ _)
  intro root _
  split
  next => exact Ends.bind (.reject (by nofun)) fun _ _ => .ok _
  next =>
    apply Ends.bind (ends_addParent _ _ (by nofun))
    intro counted hadd
    have hle := (Walk.of_addParent index (.root community) hadd).unvisited_le
    apply Ends.bind (ends_visit hpopulated (Nat.lt_succ_of_le (hle.trans hbound)))
    intro outcome _
    exact Ends.bind (.reject (by nofun)) fun _ _ => .ok _

/-- The check ends when the Communities are as many as a `uint32_t` can count, which
`validate_loaded_index` has checked before. -/
theorem ends_validateCellHierarchy
    (hcommunities : index.communities.length = index.config.communityCount.toNat) :
    Ends Error.endless (validateCellHierarchy index) := by
  unfold validateCellHierarchy
  split
  next => exact .ok ()
  next =>
    apply Ends.bind (.reject (by simp))
    intro _ hpresent
    apply Ends.bind (ends_checkedMultiply _ _ _)
    intro centroids _
    apply Ends.bind (.reject (by simp))
    intro _ _
    have hnodes : index.cellHierarchyNodes ≠ [] := (not_or.mp (reject_ok.mp hpresent)).1
    apply Ends.bind (ends_hierarchyNodes hnodes)
    intro children hchildren
    have hpopulated := populated (scanCounted_eq_ok.mp hchildren).2
    apply Ends.bind (.reject (by simp))
    intro _ _
    apply Ends.bind
    · have hbound : index.communities.length < 2 ^ 32 := by
        rw [hcommunities]
        exact index.config.communityCount.toNat_lt
      unfold scan32 scanCounted
      rw [if_pos hbound]
      apply Ends.scan (motive := fun position state => ∃ trail, Rooted index position
        ⟨index.cellHierarchyNodes.map fun _ => 0, index.cellHierarchyNodes.map fun _ => 0,
          index.cells.map fun _ => false⟩ state trail)
      · exact ⟨{}, .start index _⟩
      · rintro position record state _ ⟨trail, hrooted⟩
        apply ends_visitRoot hpopulated
        apply hrooted.walk.unvisited_le.trans
        exact List.count_le_length.trans (by simp [VisitState.visited])
      · rintro position record before after hrecord ⟨trail, hrooted⟩ hvisit
        rw [Nat.zero_add] at hrooted hvisit ⊢
        exact visitRoot_rooted hpopulated hrecord hrooted hvisit
    · intro final _
      exact .reject (by simp)

end Termination

/-- `validate_cell_hierarchy` ends where its caller calls it, and what it accepts is a
forest. -/
theorem validateCellHierarchy_sound (index : Index) :
    (index.communities.length = index.config.communityCount.toNat →
      Ends Error.endless (validateCellHierarchy index)) ∧
    (validateCellHierarchy index = .ok () → index.cellHierarchyNodes ≠ [] → CellForest index) := by
  refine ⟨ends_validateCellHierarchy, fun hvalid hnodes => ?_⟩
  obtain ⟨accepted⟩ := accepted_of_hierarchy hnodes hvalid
  exact accepted.forest

theorem validateCellHierarchy_sound_twoNodes :
    validateCellHierarchy twoNodes = .ok () ∧ Ends Error.endless (validateCellHierarchy twoNodes) ∧
      CellForest twoNodes := by
  have hvalid : validateCellHierarchy twoNodes = .ok () := by decide +kernel
  obtain ⟨hends, hforest⟩ := validateCellHierarchy_sound twoNodes
  exact ⟨hvalid, hends rfl, hforest hvalid (by decide)⟩

end SkipCell.Sidecar

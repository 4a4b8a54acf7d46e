import SkipCell.Foundation.Checks

/-! # Groups that grow breadth first

The nodes below some bound are divided into groups of bounded size. A group starts with the
first node that has none and takes its nodes from a queue of neighbors; what is still queued
when the group is full is free again.
-/

namespace Foundation

/-- What is known of a node while a group grows. -/
inductive Mark
  | unseen
  | assigned
  | queued
  deriving DecidableEq

/-- A group that grows. The frontier is what is queued and not yet taken. -/
structure Growth where
  marks : Nat → Mark
  group : List Nat := []
  frontier : List Nat := []

namespace Growth

def enqueue (growth : Growth) (neighbor : Nat) : Growth :=
  if growth.marks neighbor = .unseen then
    { growth with
      marks := Function.update growth.marks neighbor .queued
      frontier := growth.frontier ++ [neighbor] }
  else growth

/-- A node joins the group, and its neighbors are queued. -/
def takeNode (growth : Growth) (node : Nat) (neighbors : List Nat) : Growth :=
  neighbors.foldl enqueue
    { growth with
      marks := Function.update growth.marks node .assigned
      group := growth.group ++ [node] }

/-- Takes nodes from the frontier while there is room. -/
def grow (adjacency : Nat → List Nat) : Nat → Growth → Growth
  | 0, growth => growth
  | room + 1, growth =>
    match growth.frontier with
    | [] => growth
    | node :: rest =>
      grow adjacency room ({ growth with frontier := rest }.takeNode node (adjacency node))

/-- The marks when the group is closed. -/
def release (growth : Growth) : Nat → Mark :=
  growth.frontier.foldl (fun marks node => Function.update marks node .unseen) growth.marks

end Growth

structure Grouping where
  marks : Nat → Mark := fun _ => .unseen
  groups : List (List Nat) := []

/-- A group from `seed`, unless it has one. -/
def growFrom (adjacency : Nat → List Nat) (target : Nat) (grouping : Grouping) (seed : Nat) :
    Grouping :=
  if grouping.marks seed ≠ .unseen then grouping
  else
    let growth := Growth.grow adjacency (target - 1)
      (Growth.takeNode { marks := grouping.marks } seed (adjacency seed))
    ⟨growth.release, grouping.groups ++ [growth.group]⟩

def groupNodes (adjacency : Nat → List Nat) (target size : Nat) : List (List Nat) :=
  ((List.range size).foldl (growFrom adjacency target) {}).groups

/-! ## Invariants -/

/-- The group and the frontier hold different nodes, all of them free before the group was
opened; the other marks are as they were. -/
structure Growing (size : Nat) (before : Nat → Mark) (growth : Growth) : Prop where
  marks : ∀ node, growth.marks node =
    if node ∈ growth.group then .assigned
    else if node ∈ growth.frontier then .queued
    else before node
  fresh : ∀ node ∈ growth.group ++ growth.frontier, before node = .unseen ∧ node < size
  nodup : (growth.group ++ growth.frontier).Nodup

variable {size : Nat} {before : Nat → Mark} {growth : Growth}

variable {node seed : Nat}

theorem Growing.unseen_iff (hgrowing : Growing size before growth) :
    growth.marks node = .unseen ↔
      before node = .unseen ∧ node ∉ growth.group ++ growth.frontier := by
  rw [hgrowing.marks, List.mem_append, not_or]
  by_cases hgroup : node ∈ growth.group
  · simp [hgroup]
  · by_cases hfrontier : node ∈ growth.frontier <;> simp [hgroup, hfrontier]

theorem Growing.enqueue (hgrowing : Growing size before growth) {neighbor : Nat}
    (hneighbor : neighbor < size) : Growing size before (growth.enqueue neighbor) := by
  rw [Growth.enqueue]
  split
  · next hunseen =>
      obtain ⟨hbefore, hout⟩ := hgrowing.unseen_iff.mp hunseen
      constructor
      case marks =>
        intro node
        by_cases hsame : node = neighbor
        · subst hsame
          rw [List.mem_append, not_or] at hout
          simp [hout.1]
        · dsimp only
          rw [Function.update_of_ne hsame, hgrowing.marks]
          simp [hsame]
      case fresh =>
        intro node hnode
        rw [← List.append_assoc, List.mem_append, List.mem_singleton] at hnode
        rcases hnode with hold | rfl
        · exact hgrowing.fresh node hold
        · exact ⟨hbefore, hneighbor⟩
      case nodup =>
        rw [← List.append_assoc, List.nodup_append]
        refine ⟨hgrowing.nodup, List.nodup_singleton _, fun node hnode other hother => ?_⟩
        rw [List.mem_singleton] at hother
        subst hother
        rintro rfl
        exact hout hnode
  · exact hgrowing

theorem Growing.enqueue_all (hgrowing : Growing size before growth) {neighbors : List Nat}
    (hneighbors : ∀ neighbor ∈ neighbors, neighbor < size) :
    Growing size before (neighbors.foldl Growth.enqueue growth) := by
  induction neighbors generalizing growth with
  | nil => exact hgrowing
  | cons neighbor neighbors ih =>
    obtain ⟨hhead, htail⟩ := List.forall_mem_cons.mp hneighbors
    exact ih (hgrowing.enqueue hhead) htail

theorem group_takeNode (growth : Growth) (node : Nat) (neighbors : List Nat) :
    (growth.takeNode node neighbors).group = growth.group ++ [node] := by
  have hfold : ∀ start : Growth, (neighbors.foldl Growth.enqueue start).group = start.group := by
    induction neighbors with
    | nil => exact fun start => rfl
    | cons neighbor neighbors ih =>
      intro start
      rw [List.foldl_cons, ih, Growth.enqueue]
      split <;> rfl
  exact hfold _

theorem Growing.admit_front (hgrowing : Growing size before growth) {rest neighbors : List Nat}
    (hfrontier : growth.frontier = node :: rest)
    (hneighbors : ∀ neighbor ∈ neighbors, neighbor < size) :
    Growing size before ({ growth with frontier := rest }.takeNode node neighbors) := by
  refine Growing.enqueue_all ?_ hneighbors
  have hnodup := hgrowing.nodup
  have hmoved : (growth.group ++ [node]) ++ rest = growth.group ++ growth.frontier := by
    rw [hfrontier, List.append_assoc, List.singleton_append]
  constructor
  case marks =>
    intro other
    by_cases hsame : other = node
    · subst hsame
      simp
    · dsimp only
      rw [Function.update_of_ne hsame, hgrowing.marks, hfrontier]
      simp [hsame]
  case fresh =>
    intro other hother
    rw [hmoved] at hother
    exact hgrowing.fresh other hother
  case nodup =>
    rw [hmoved]
    exact hnodup

theorem growing_open {neighbors : List Nat} (hseed : before seed = .unseen) (hsize : seed < size)
    (hneighbors : ∀ neighbor ∈ neighbors, neighbor < size) :
    Growing size before (Growth.takeNode { marks := before } seed neighbors) := by
  refine Growing.enqueue_all ?_ hneighbors
  constructor
  case marks =>
    intro node
    by_cases hsame : node = seed
    · subst hsame
      simp
    · simp [hsame]
  case fresh => simp [hseed, hsize]
  case nodup => simp

variable {adjacency : Nat → List Nat}

theorem Growing.grow (hgrowing : Growing size before growth)
    (hadjacency : ∀ node < size, ∀ neighbor ∈ adjacency node, neighbor < size) (room : Nat) :
    Growing size before (growth.grow adjacency room) ∧
      growth.group <+: (growth.grow adjacency room).group ∧
      (growth.grow adjacency room).group.length ≤ growth.group.length + room := by
  induction room generalizing growth with
  | zero => exact ⟨hgrowing, List.prefix_rfl, Nat.le_refl _⟩
  | succ room ih =>
    rw [Growth.grow]
    split
    · exact ⟨hgrowing, List.prefix_rfl, Nat.le_add_right _ _⟩
    · next node rest hfrontier =>
        have hnode : node < size := by
          refine (hgrowing.fresh node ?_).2
          rw [hfrontier]
          simp
        obtain ⟨hgrown, hbefore, hlength⟩ :=
          ih (hgrowing.admit_front hfrontier (hadjacency node hnode))
        rw [group_takeNode] at hbefore hlength
        rw [List.length_append, List.length_singleton, Nat.add_right_comm] at hlength
        exact ⟨hgrown, (List.prefix_append _ _).trans hbefore, hlength⟩

theorem Growing.release (hgrowing : Growing size before growth) (node : Nat) :
    growth.release node = if node ∈ growth.group then .assigned else before node := by
  have hfold : ∀ (frontier : List Nat) (marks : Nat → Mark),
      frontier.foldl (fun marks node => Function.update marks node .unseen) marks node =
        if node ∈ frontier then Mark.unseen else marks node := by
    intro frontier
    induction frontier with
    | nil => simp
    | cons other frontier ih =>
      intro marks
      rw [List.foldl_cons, ih]
      by_cases hsame : node = other
      · subst hsame
        simp
      · simp [hsame]
  rw [Growth.release, hfold, hgrowing.marks]
  by_cases hfrontier : node ∈ growth.frontier
  · have hout : node ∉ growth.group := fun hgroup =>
      (List.nodup_append.mp hgrowing.nodup).2.2 node hgroup node hfrontier rfl
    have hbefore := (hgrowing.fresh node (List.mem_append_right _ hfrontier)).1
    simp [hfrontier, hout, hbefore]
  · simp [hfrontier]

/-- Between two groups: which nodes have one. -/
structure Grouped (target size : Nat) (grouping : Grouping) : Prop where
  marks : ∀ node, grouping.marks node =
    if node ∈ grouping.groups.flatten then .assigned else .unseen
  nodup : grouping.groups.flatten.Nodup
  below : ∀ node ∈ grouping.groups.flatten, node < size
  sizes : ∀ group ∈ grouping.groups, 0 < group.length ∧ group.length ≤ target

variable {target : Nat} {grouping : Grouping}

theorem Grouped.growFrom (hgrouped : Grouped target size grouping) (htarget : 1 ≤ target)
    (hadjacency : ∀ node < size, ∀ neighbor ∈ adjacency node, neighbor < size)
    (hseed : seed < size) :
    Grouped target size (growFrom adjacency target grouping seed) ∧
      seed ∈ (Foundation.growFrom adjacency target grouping seed).groups.flatten ∧
      grouping.groups.flatten ⊆ (Foundation.growFrom adjacency target grouping seed).groups.flatten := by
  rw [Foundation.growFrom]
  split
  · next hmark =>
      refine ⟨hgrouped, ?_, List.Subset.refl _⟩
      by_contra hout
      rw [hgrouped.marks, if_neg hout] at hmark
      exact hmark rfl
  · next hmark =>
      rw [not_not] at hmark
      have hopen := growing_open hmark hseed (hadjacency seed hseed)
      obtain ⟨hgrown, hfirst, hlength⟩ := hopen.grow hadjacency (target - 1)
      rw [group_takeNode, List.nil_append] at hfirst hlength
      have hmember : seed ∈ (Growth.grow adjacency (target - 1)
          (Growth.takeNode { marks := grouping.marks } seed (adjacency seed))).group :=
        hfirst.subset List.mem_cons_self
      have hgroups := List.nodup_append.mp hgrown.nodup
      refine ⟨⟨fun node => ?_, ?_, ?_, ?_⟩, ?_, ?_⟩
      · dsimp only
        rw [hgrown.release, hgrouped.marks, List.flatten_concat]
        split
        · next hnew => rw [if_pos (List.mem_append_right _ hnew)]
        · next hout => simp [hout]
      · rw [List.flatten_concat, List.nodup_append]
        refine ⟨hgrouped.nodup, hgroups.1, fun node hold other hnew hsame => ?_⟩
        subst hsame
        have hfree := (hgrown.fresh node (List.mem_append_left _ hnew)).1
        rw [hgrouped.marks, if_pos hold] at hfree
        cases hfree
      · intro node hnode
        rw [List.flatten_concat, List.mem_append] at hnode
        rcases hnode with hold | hnew
        · exact hgrouped.below node hold
        · exact (hgrown.fresh node (List.mem_append_left _ hnew)).2
      · intro group hgroup
        rcases List.mem_append.mp hgroup with hold | hnew
        · exact hgrouped.sizes group hold
        · rw [List.mem_singleton] at hnew
          subst hnew
          rw [List.length_singleton] at hlength
          exact ⟨List.length_pos_of_mem hmember, by omega⟩
      · rw [List.flatten_concat]
        exact List.mem_append_right _ hmember
      · rw [List.flatten_concat]
        exact List.subset_append_left _ _

theorem grouped_start : Grouped target size {} where
  marks _ := rfl
  nodup := .nil
  below := List.forall_mem_nil _
  sizes := List.forall_mem_nil _

theorem grouped_seeds (htarget : 1 ≤ target)
    (hadjacency : ∀ node < size, ∀ neighbor ∈ adjacency node, neighbor < size) {seeds : Nat}
    (hseeds : seeds ≤ size) :
    Grouped target size ((List.range seeds).foldl (growFrom adjacency target) {}) ∧
      ∀ seed < seeds, seed ∈
        ((List.range seeds).foldl (growFrom adjacency target) {}).groups.flatten := by
  induction seeds with
  | zero => exact ⟨grouped_start, fun seed hseed => absurd hseed (Nat.not_lt_zero _)⟩
  | succ seeds ih =>
    obtain ⟨hgrouped, hcovered⟩ := ih (Nat.le_of_succ_le hseeds)
    obtain ⟨hnext, hseed, hkept⟩ := hgrouped.growFrom htarget hadjacency hseeds
    rw [List.range_succ, List.foldl_append, List.foldl_cons, List.foldl_nil]
    refine ⟨hnext, fun seed hless => ?_⟩
    rcases Nat.lt_succ_iff_lt_or_eq.mp hless with hbefore | rfl
    · exact hkept (hcovered seed hbefore)
    · exact hseed

/-- Every node is in exactly one group, and the groups are as large as they may be. -/
structure Partitions (target size : Nat) (groups : List (List Nat)) : Prop where
  nodup : groups.flatten.Nodup
  mem : ∀ node, node ∈ groups.flatten ↔ node < size
  sizes : ∀ group ∈ groups, 0 < group.length ∧ group.length ≤ target

theorem groupNodes_partitions (htarget : 1 ≤ target)
    (hadjacency : ∀ node < size, ∀ neighbor ∈ adjacency node, neighbor < size) :
    Partitions target size (groupNodes adjacency target size) := by
  obtain ⟨hgrouped, hcovered⟩ := grouped_seeds htarget hadjacency (Nat.le_refl size)
  exact ⟨hgrouped.nodup, fun node => ⟨hgrouped.below node, hcovered node⟩, hgrouped.sizes⟩

theorem length_le_flatten {groups : List (List Nat)}
    (hsizes : ∀ group ∈ groups, 0 < group.length) : groups.length ≤ groups.flatten.length := by
  induction groups with
  | nil => exact Nat.le_refl _
  | cons group groups ih =>
    obtain ⟨hhead, htail⟩ := List.forall_mem_cons.mp hsizes
    have hrest := ih htail
    rw [List.flatten_cons, List.length_append, List.length_cons]
    omega

theorem Partitions.length_le {groups : List (List Nat)} (hgroups : Partitions target size groups) :
    groups.length ≤ size := by
  have hnodes : groups.flatten.Subperm (List.range size) :=
    hgroups.nodup.subperm fun node hnode => List.mem_range.mpr ((hgroups.mem node).mp hnode)
  calc groups.length
      ≤ groups.flatten.length := length_le_flatten fun group hgroup => (hgroups.sizes group hgroup).1
    _ ≤ (List.range size).length := hnodes.length_le
    _ = size := List.length_range

theorem Grouped.length_lt (hgrouped : Grouped target size grouping) (hseed : seed < size)
    (hout : seed ∉ grouping.groups.flatten) :
    grouping.groups.length < size := by
  have hnodes : (seed :: grouping.groups.flatten).length ≤ (List.range size).length := by
    refine (List.subperm_of_subset (List.nodup_cons.mpr ⟨hout, hgrouped.nodup⟩) ?_).length_le
    intro node hnode
    rw [List.mem_range]
    rcases List.mem_cons.mp hnode with rfl | hold
    · exact hseed
    · exact hgrouped.below node hold
  have hsizes := length_le_flatten fun group hgroup => (hgrouped.sizes group hgroup).1
  rw [List.length_cons, List.length_range] at hnodes
  omega

/-! ## Labels -/

section Labels

universe uLabel

variable {Label : Type uLabel}

def labelGroup (label : Label) (group : List Nat) (labels : List Label) : List Label :=
  group.foldl (fun labels node => labels.set node label) labels

/-- Every group writes the label of its number, which starts at `first`. -/
def labelGroups (label : Nat → Label) : Nat → List (List Nat) → List Label → List Label
  | _, [], labels => labels
  | first, group :: groups, labels =>
    labelGroups label (first + 1) groups (labelGroup (label first) group labels)

theorem labelGroup_append (label : Label) (group more : List Nat) (labels : List Label) :
    labelGroup label (group ++ more) labels = labelGroup label more (labelGroup label group labels) :=
  List.foldl_append

@[simp]
theorem length_labelGroup (label : Label) (group : List Nat) (labels : List Label) :
    (labelGroup label group labels).length = labels.length := by
  induction group generalizing labels with
  | nil => rfl
  | cons node group ih => exact (ih _).trans (List.length_set ..)

theorem getElem?_labelGroup (label : Label) (group : List Nat) {labels : List Label} {node : Nat}
    (hnode : node < labels.length) :
    (labelGroup label group labels)[node]? = if node ∈ group then some label else labels[node]? := by
  induction group generalizing labels with
  | nil => simp [labelGroup]
  | cons other group ih =>
    have hstep : labelGroup label (other :: group) labels =
        labelGroup label group (labels.set other label) := rfl
    rw [hstep, ih (by rwa [List.length_set])]
    by_cases hsame : other = node
    · subst hsame
      rw [List.getElem?_set_self hnode]
      simp
    · rw [List.getElem?_set_ne hsame]
      simp [Ne.symm hsame]

section

variable (label : Nat → Label) (first : Nat)
include label first

@[simp]
theorem length_labelGroups (groups : List (List Nat)) (labels : List Label) :
    (labelGroups label first groups labels).length = labels.length := by
  induction groups generalizing first labels with
  | nil => rfl
  | cons group groups ih => exact (ih _ _).trans (length_labelGroup _ _ _)

theorem labelGroups_append (groups more : List (List Nat)) (labels : List Label) :
    labelGroups label first (groups ++ more) labels =
      labelGroups label (first + groups.length) more (labelGroups label first groups labels) := by
  induction groups generalizing first labels with
  | nil => rfl
  | cons group groups ih =>
    rw [List.cons_append, labelGroups, ih, labelGroups, List.length_cons,
      show first + 1 + groups.length = first + (groups.length + 1) by omega]

theorem getElem?_labelGroups_of_notMem {groups : List (List Nat)} {labels : List Label} {node : Nat}
    (hnode : node < labels.length) (hout : node ∉ groups.flatten) :
    (labelGroups label first groups labels)[node]? = labels[node]? := by
  induction groups generalizing first labels with
  | nil => rfl
  | cons group groups ih =>
    rw [List.flatten_cons, List.mem_append, not_or] at hout
    rw [labelGroups, ih _ (by rwa [length_labelGroup]) hout.2, getElem?_labelGroup _ _ hnode,
      if_neg hout.1]

theorem getElem?_labelGroups {groups : List (List Nat)} {labels : List Label} {node number : Nat}
    {group : List Nat} (hnode : node < labels.length) (hnodup : groups.flatten.Nodup)
    (hgroup : groups[number]? = some group) (hmem : node ∈ group) :
    (labelGroups label first groups labels)[node]? = some (label (first + number)) := by
  induction groups generalizing first labels number with
  | nil => cases hgroup
  | cons front groups ih =>
    rw [List.flatten_cons, List.nodup_append] at hnodup
    have hlength : node < (labelGroup (label first) front labels).length := by
      rwa [length_labelGroup]
    cases number with
    | zero =>
      obtain rfl := Option.some.inj hgroup
      have hout : node ∉ groups.flatten := fun hlater => hnodup.2.2 node hmem node hlater rfl
      rw [labelGroups, getElem?_labelGroups_of_notMem _ _ hlength hout,
        getElem?_labelGroup _ _ hnode, if_pos hmem, Nat.add_zero]
    | succ number =>
      rw [labelGroups, ih (first + 1) hlength hnodup.2.1 hgroup,
        show first + 1 + number = first + (number + 1) by omega]

end

variable {groups : List (List Nat)}

theorem Partitions.exists_group (hgroups : Partitions target size groups) {node : Nat}
    (hnode : node < size) :
    ∃ (number : Nat) (group : List Nat), groups[number]? = some group ∧ node ∈ group := by
  obtain ⟨group, hgroup, hmem⟩ := List.mem_flatten.mp ((hgroups.mem node).mpr hnode)
  obtain ⟨number, hnumber⟩ := List.mem_iff_getElem?.mp hgroup
  exact ⟨number, group, hnumber, hmem⟩

theorem Partitions.labelGroups_eq (hgroups : Partitions target size groups) (label : Nat → Label)
    {labels others : List Label} (hlabels : labels.length = size) (hothers : others.length = size) :
    labelGroups label 0 groups labels = labelGroups label 0 groups others := by
  apply List.ext_getElem?
  intro node
  by_cases hnode : node < size
  · obtain ⟨number, group, hnumber, hmem⟩ := hgroups.exists_group hnode
    rw [getElem?_labelGroups label 0 (hlabels ▸ hnode) hgroups.nodup hnumber hmem,
      getElem?_labelGroups label 0 (hothers ▸ hnode) hgroups.nodup hnumber hmem]
  · rw [List.getElem?_eq_none (by rw [length_labelGroups]; omega),
      List.getElem?_eq_none (by rw [length_labelGroups]; omega)]

/-- The nodes that have a label, in ascending order. -/
def labelled [DecidableEq Label] (label : Label) (labels : List Label) : List Nat :=
  (List.range labels.length).filter fun node => labels[node]? = some label

theorem Partitions.labelled_perm [DecidableEq Label] (hgroups : Partitions target size groups)
    {label : Nat → Label} (hapart : ∀ first < groups.length, ∀ second < groups.length,
      label first = label second → first = second) {labels : List Label}
    (hlabels : labels.length = size) {number : Nat} {group : List Nat}
    (hgroup : groups[number]? = some group) :
    (labelled (label number) (labelGroups label 0 groups labels)).Perm group := by
  have hnumber := (List.getElem_of_getElem? hgroup).1
  have hmember := List.mem_of_getElem? hgroup
  have hnodup : group.Nodup := (List.nodup_flatten.mp hgroups.nodup).1 group hmember
  refine (List.perm_ext_iff_of_nodup (List.nodup_range.filter _) hnodup).mpr fun node => ?_
  rw [List.mem_filter, List.mem_range, length_labelGroups, hlabels, decide_eq_true_iff]
  constructor
  · rintro ⟨hnode, hlabel⟩
    obtain ⟨other, found, hfound, hmem⟩ := hgroups.exists_group hnode
    rw [getElem?_labelGroups label 0 (hlabels ▸ hnode) hgroups.nodup hfound hmem, Nat.zero_add]
      at hlabel
    have hother := (List.getElem_of_getElem? hfound).1
    have hsame := hapart other hother number hnumber (Option.some.inj hlabel)
    rw [hsame, hgroup] at hfound
    rwa [Option.some.inj hfound]
  · intro hmem
    have hnode := (hgroups.mem node).mp (List.mem_flatten.mpr ⟨group, hmember, hmem⟩)
    refine ⟨hnode, ?_⟩
    rw [getElem?_labelGroups label 0 (hlabels ▸ hnode) hgroups.nodup hgroup hmem, Nat.zero_add]

end Labels

/-! ## Neighbors that are read -/

section Read

variable {Failure : Type} {neighbors : Nat → Except Failure (List Nat)}

/-- `grow`, where reading the neighbors of a node may fail. -/
def Growth.tryGrow (neighbors : Nat → Except Failure (List Nat)) :
    Nat → Growth → Except Failure Growth
  | 0, growth => .ok growth
  | room + 1, growth =>
    match growth.frontier with
    | [] => .ok growth
    | node :: rest => do
      let found ← neighbors node
      tryGrow neighbors room ({ growth with frontier := rest }.takeNode node found)

def Growth.releaseQueued (growth : Growth) : Nat → Mark :=
  growth.frontier.foldl
    (fun marks node =>
      if marks node = .queued then Function.update marks node .unseen else marks) growth.marks

/-- `permit` is asked before a group is opened, with the number of groups so far. -/
def tryGrowFrom (neighbors : Nat → Except Failure (List Nat)) (permit : Nat → Except Failure Unit)
    (target seed : Nat) (grouping : Grouping) : Except Failure Grouping :=
  if grouping.marks seed ≠ .unseen then .ok grouping
  else do
    permit grouping.groups.length
    let found ← neighbors seed
    let growth ← Growth.tryGrow neighbors (target - 1)
      (Growth.takeNode { marks := grouping.marks } seed found)
    .ok ⟨growth.releaseQueued, grouping.groups ++ [growth.group]⟩

def tryGroupNodes (neighbors : Nat → Except Failure (List Nat))
    (permit : Nat → Except Failure Unit) (target size : Nat) :
    Except Failure (List (List Nat)) := do
  let grouping ← scan (fun _ => tryGrowFrom neighbors permit target) 0 (List.range size) {}
  .ok grouping.groups

theorem Growing.releaseQueued_eq (hgrowing : Growing size before growth) :
    growth.releaseQueued = growth.release := by
  have hfold : ∀ (frontier : List Nat) (marks : Nat → Mark), frontier.Nodup →
      (∀ node ∈ frontier, marks node = .queued) →
      frontier.foldl (fun marks node =>
          if marks node = .queued then Function.update marks node .unseen else marks) marks =
        frontier.foldl (fun marks node => Function.update marks node .unseen) marks := by
    intro frontier
    induction frontier with
    | nil => exact fun _ _ _ => rfl
    | cons node frontier ih =>
      intro marks hnodup hqueued
      obtain ⟨hout, hrest⟩ := List.nodup_cons.mp hnodup
      obtain ⟨hnode, hothers⟩ := List.forall_mem_cons.mp hqueued
      rw [List.foldl_cons, List.foldl_cons, if_pos hnode]
      refine ih _ hrest fun other hother => ?_
      have hne : other ≠ node := by
        rintro rfl
        exact hout hother
      rw [Function.update_of_ne hne]
      exact hothers other hother
  obtain ⟨-, hfrontier, hapart⟩ := List.nodup_append.mp hgrowing.nodup
  refine hfold _ _ hfrontier fun node hnode => ?_
  rw [hgrowing.marks, if_neg (fun hgroup => hapart node hgroup node hnode rfl), if_pos hnode]

theorem Growing.tryGrow_eq (hgrowing : Growing size before growth)
    (hadjacency : ∀ node < size, ∀ neighbor ∈ adjacency node, neighbor < size)
    (hread : ∀ node < size, neighbors node = .ok (adjacency node)) (room : Nat) :
    growth.tryGrow neighbors room = .ok (growth.grow adjacency room) := by
  induction room generalizing growth with
  | zero => rfl
  | succ room ih =>
    rw [Growth.tryGrow, Growth.grow]
    split
    · rfl
    · next node rest hfrontier =>
        have hnode : node < size := by
          refine (hgrowing.fresh node ?_).2
          rw [hfrontier]
          simp
        rw [hread node hnode]
        exact ih (hgrowing.admit_front hfrontier (hadjacency node hnode))

variable {permit : Nat → Except Failure Unit}

theorem tryGrowFrom_eq (hgrouped : Grouped target size grouping)
    (hadjacency : ∀ node < size, ∀ neighbor ∈ adjacency node, neighbor < size)
    (hread : ∀ node < size, neighbors node = .ok (adjacency node))
    (hpermit : ∀ count < size, permit count = .ok ()) {seed : Nat} (hseed : seed < size) :
    tryGrowFrom neighbors permit target seed grouping =
      .ok (growFrom adjacency target grouping seed) := by
  rw [tryGrowFrom, growFrom]
  split
  · rfl
  · next hmark =>
      rw [not_not] at hmark
      have hopen := growing_open hmark hseed (hadjacency seed hseed)
      have hgrown := (hopen.grow hadjacency (target - 1)).1
      have hout : seed ∉ grouping.groups.flatten := by
        intro hmem
        rw [hgrouped.marks, if_pos hmem] at hmark
        cases hmark
      dsimp only
      rw [hpermit _ (hgrouped.length_lt hseed hout), hread seed hseed, ← hgrown.releaseQueued_eq]
      refine bind_ok.mpr ⟨(), rfl, bind_ok.mpr ⟨_, rfl, ?_⟩⟩
      exact bind_ok.mpr ⟨_, hopen.tryGrow_eq hadjacency hread (target - 1), rfl⟩

theorem tryGroupNodes_eq (htarget : 1 ≤ target)
    (hadjacency : ∀ node < size, ∀ neighbor ∈ adjacency node, neighbor < size)
    (hread : ∀ node < size, neighbors node = .ok (adjacency node))
    (hpermit : ∀ count < size, permit count = .ok ()) :
    tryGroupNodes neighbors permit target size = .ok (groupNodes adjacency target size) := by
  have hscan : ∀ seeds ≤ size, scan (fun _ => tryGrowFrom neighbors permit target) 0
      (List.range seeds) {} = .ok ((List.range seeds).foldl (growFrom adjacency target) {}) := by
    intro seeds hseeds
    induction seeds with
    | zero => rfl
    | succ seeds ih =>
      have hgrouped := (grouped_seeds htarget hadjacency (Nat.le_of_succ_le hseeds)).1
      rw [List.range_succ, scan_append, List.foldl_append, ih (Nat.le_of_succ_le hseeds)]
      refine bind_ok.mpr ⟨_, rfl, ?_⟩
      exact bind_ok.mpr
        ⟨_, tryGrowFrom_eq hgrouped hadjacency hread hpermit hseeds, rfl⟩
  rw [tryGroupNodes, hscan size (Nat.le_refl _)]
  rfl

/-! A failure that no node causes is not reported. -/

variable {endless : Failure}

end Read

end Foundation

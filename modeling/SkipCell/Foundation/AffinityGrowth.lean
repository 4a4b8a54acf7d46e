import SkipCell.Foundation.FrontierGroups

/-! # Groups that grow by affinity

A group takes the node with the most neighbors in it, from a queue that keeps an entry for every
affinity that a node ever had. Entries that are no longer true are dropped when they come up.
-/

namespace Foundation

universe u

/-! ## Queues of affinities -/

structure AffinityQueue (Entry : Type u) where
  make : Nat → Nat → Entry
  affinityOf : Entry → Nat
  nodeOf : Entry → Nat
  /-- A check of an entry that comes up. -/
  intact : Entry → Bool
  pop : List Entry → Option (Entry × List Entry)

/-- What is put in the queue is read back, and what comes first has the largest affinity. -/
structure AffinityQueue.Lawful {Entry : Type u} (queue : AffinityQueue Entry) (size : Nat) :
    Prop where
  affinityOf_make : ∀ affinity node, node < size →
    queue.affinityOf (queue.make affinity node) = affinity
  nodeOf_make : ∀ affinity node, node < size → queue.nodeOf (queue.make affinity node) = node
  intact_make : ∀ affinity node, node < size → queue.intact (queue.make affinity node) = true
  pop_some : ∀ entries, entries ≠ [] → ∃ first rest, queue.pop entries = some (first, rest)
  pop_perm : ∀ {entries first rest}, queue.pop entries = some (first, rest) →
    entries.Perm (first :: rest)
  pop_largest : ∀ {entries first rest}, queue.pop entries = some (first, rest) →
    ∀ entry ∈ entries, queue.affinityOf entry ≤ queue.affinityOf first

/-- A group that grows. Affinities are those of the nodes that are not assigned. -/
structure AffinityGrowth (Entry : Type u) where
  assigned : Nat → Bool
  affinity : Nat → Nat
  touched : List Nat := []
  group : List Nat := []
  frontier : List Entry := []

section Growth

variable {size : Nat} {Entry : Type u} (queue : AffinityQueue Entry)
  (adjacency : Nat → List Nat)

namespace AffinityGrowth

/-- One more neighbor of the node is in the group. -/
def attract (growth : AffinityGrowth Entry) (neighbor : Nat) : AffinityGrowth Entry :=
  if growth.assigned neighbor then growth
  else
    let affinity := growth.affinity neighbor + 1
    { growth with
      affinity := Function.update growth.affinity neighbor affinity
      touched :=
        if growth.affinity neighbor = 0 then growth.touched ++ [neighbor] else growth.touched
      frontier := growth.frontier ++ [queue.make affinity neighbor] }

def addNode (growth : AffinityGrowth Entry) (node : Nat) : AffinityGrowth Entry :=
  (adjacency node).foldl (attract queue)
    { growth with
      assigned := Function.update growth.assigned node true
      group := growth.group ++ [node] }

/-- An entry that does not say what its node's affinity is now. -/
def Stale (growth : AffinityGrowth Entry) (entry : Entry) : Prop :=
  growth.assigned (queue.nodeOf entry) = true ∨
    growth.affinity (queue.nodeOf entry) ≠ queue.affinityOf entry ∨ queue.intact entry = false

instance (growth : AffinityGrowth Entry) (entry : Entry) :
    Decidable (growth.Stale queue entry) := inferInstanceAs (Decidable (_ ∨ _))

/-- The first entry that is not stale, and the entries behind it. There are no more rounds than
entries. -/
def takeFresh (growth : AffinityGrowth Entry) : Nat → List Entry → Option (Nat × List Entry)
  | 0, _ => none
  | rounds + 1, frontier =>
    match queue.pop frontier with
    | none => none
    | some (entry, rest) =>
      if growth.Stale queue entry then takeFresh growth rounds rest
      else some (queue.nodeOf entry, rest)

/-- Takes as many nodes as there is room for. -/
def grow : Nat → AffinityGrowth Entry → AffinityGrowth Entry
  | 0, growth => growth
  | room + 1, growth =>
    match growth.takeFresh queue growth.frontier.length growth.frontier with
    | none => { growth with frontier := [] }
    | some (node, rest) =>
      grow room (addNode queue adjacency { growth with frontier := rest } node)

end AffinityGrowth

/-- The groups so far, and what is left for the next one. -/
structure AffinityGrouping where
  assigned : Nat → Bool := fun _ => false
  affinity : Nat → Nat := fun _ => 0
  groups : List (List Nat) := []

/-- The group of a seed that has none. Its affinities are forgotten when it is closed. -/
def growByAffinity (target : Nat) (grouping : AffinityGrouping) (seed : Nat) : AffinityGrouping :=
  if grouping.assigned seed then grouping
  else
    let opened := AffinityGrowth.addNode queue adjacency
      { assigned := grouping.assigned, affinity := grouping.affinity } seed
    let growth := AffinityGrowth.grow queue adjacency (target - 1) opened
    { assigned := growth.assigned
      affinity := growth.touched.foldl (fun affinity node => Function.update affinity node 0)
        growth.affinity
      groups := grouping.groups ++ [growth.group] }

def groupByAffinity (target : Nat) (seeds : List Nat) : List (List Nat) :=
  (seeds.foldl (growByAffinity queue adjacency target) {}).groups

end Growth

/-! ## One node -/

section Attraction

variable {size : Nat} {Entry : Type u} {queue : AffinityQueue Entry}

/-- What the neighbors of a node leave. -/
structure Attracted (queue : AffinityQueue Entry) (before after : AffinityGrowth Entry)
    (neighbors : List Nat) : Prop where
  assigned : after.assigned = before.assigned
  group : after.group = before.group
  affinity : ∀ node, after.affinity node =
    before.affinity node + if before.assigned node = false ∧ node ∈ neighbors then 1 else 0
  touched : ∀ node, node ∈ after.touched ↔ node ∈ before.touched ∨
    node ∈ neighbors ∧ before.assigned node = false ∧ before.affinity node = 0
  frontier : ∀ entry, entry ∈ after.frontier ↔ entry ∈ before.frontier ∨
    ∃ node ∈ neighbors, before.assigned node = false ∧
      entry = queue.make (before.affinity node + 1) node

theorem attract_assigned {growth : AffinityGrowth Entry} {node : Nat}
    (hassigned : growth.assigned node = true) : growth.attract queue node = growth := if_pos hassigned

theorem foldl_attract {neighbors : List Nat} (hnodup : neighbors.Nodup)
    (growth : AffinityGrowth Entry) :
    Attracted queue growth (neighbors.foldl (AffinityGrowth.attract queue) growth) neighbors := by
  induction neighbors using List.reverseRecOn with
  | nil => constructor <;> simp
  | append_singleton neighbors last ih =>
    obtain ⟨hfront, -, hapart⟩ := List.nodup_append.mp hnodup
    have hlast : last ∉ neighbors := fun hmem => hapart last hmem last List.mem_cons_self rfl
    have hbefore := ih hfront
    rw [List.foldl_append, List.foldl_cons, List.foldl_nil]
    set middle := neighbors.foldl (AffinityGrowth.attract queue) growth with hmiddle
    have hsame : middle.affinity last = growth.affinity last := by
      rw [hbefore.affinity, if_neg fun hmem => hlast hmem.2, Nat.add_zero]
    cases hassigned : growth.assigned last with
    | true =>
      rw [attract_assigned (by rw [hbefore.assigned, hassigned])]
      refine ⟨hbefore.assigned, hbefore.group, fun node => ?_, fun node => ?_, fun entry => ?_⟩
      · rw [hbefore.affinity]
        by_cases hnode : node = last
        · simp [hnode, hassigned]
        · simp [hnode]
      · rw [hbefore.touched]
        by_cases hnode : node = last
        · simp [hnode, hassigned]
        · simp [hnode]
      · rw [hbefore.frontier]
        refine or_congr_right ⟨?_, ?_⟩
        · rintro ⟨node, hnode, hfree, hentry⟩
          exact ⟨node, List.mem_append_left _ hnode, hfree, hentry⟩
        · rintro ⟨node, hnode, hfree, hentry⟩
          rcases List.mem_append.mp hnode with hnode | hnode
          · exact ⟨node, hnode, hfree, hentry⟩
          · rw [List.mem_singleton.mp hnode, hassigned] at hfree
            cases hfree
    | false =>
      have hfree : middle.assigned last = false := by rw [hbefore.assigned, hassigned]
      have hstep : middle.attract queue last =
          { middle with
            affinity := Function.update middle.affinity last (growth.affinity last + 1)
            touched :=
              if growth.affinity last = 0 then middle.touched ++ [last] else middle.touched
            frontier := middle.frontier ++ [queue.make (growth.affinity last + 1) last] } := by
        rw [AffinityGrowth.attract, if_neg (by simp [hfree]), hsame]
      rw [hstep]
      refine ⟨hbefore.assigned, hbefore.group, fun node => ?_, fun node => ?_, fun entry => ?_⟩
      · by_cases hnode : node = last
        · subst hnode
          simp [hassigned]
        · simp [hbefore.affinity, hnode]
      · dsimp only
        by_cases hnode : node = last
        · subst hnode
          split
          · next hzero => simp [hassigned, hzero]
          · next hsome => simp [hbefore.touched, hlast, hsome]
        · split
          · simp [hbefore.touched, hnode]
          · simp [hbefore.touched, hnode]
      · dsimp only
        rw [List.mem_append, List.mem_singleton, hbefore.frontier, or_assoc]
        refine or_congr_right ⟨?_, ?_⟩
        · rintro (⟨node, hnode, hnodeFree, hentry⟩ | hentry)
          · exact ⟨node, List.mem_append_left _ hnode, hnodeFree, hentry⟩
          · exact ⟨last, List.mem_append_right _ List.mem_cons_self, hassigned, hentry⟩
        · rintro ⟨node, hnode, hnodeFree, hentry⟩
          rcases List.mem_append.mp hnode with hnode | hnode
          · exact .inl ⟨node, hnode, hnodeFree, hentry⟩
          · exact .inr (List.mem_singleton.mp hnode ▸ hentry)

end Attraction

/-- The number of the nodes of a group that have the node as a neighbor. -/
def affinityTo (adjacency : Nat → List Nat) (group : List Nat) (node : Nat) : Nat :=
  group.countP fun member => node ∈ adjacency member

/-- The nodes behind the first had the largest affinities to those in front of them. -/
def TakenByAffinity (adjacency : Nat → List Nat) (size : Nat) (before : Nat → Prop)
    (group : List Nat) : Prop :=
  ∀ front node rest, group = front ++ node :: rest → front ≠ [] →
    0 < affinityTo adjacency front node ∧ ∀ other < size, ¬ before other → other ∉ front →
      affinityTo adjacency front other ≤ affinityTo adjacency front node

/-- The group of its first node, where some nodes have groups before. A node is left out only
if the group is full or the node has no neighbor in it. -/
structure Greedy (adjacency : Nat → List Nat) (size target : Nat) (before : Nat → Prop)
    (group : List Nat) : Prop where
  nonempty : group ≠ []
  bounded : group.length ≤ target
  taken : TakenByAffinity adjacency size before group
  closed : group.length < target → ∀ other < size, ¬ before other → other ∉ group →
    affinityTo adjacency group other = 0

theorem affinityTo_append (adjacency : Nat → List Nat) (group : List Nat) (member node : Nat) :
    affinityTo adjacency (group ++ [member]) node =
      affinityTo adjacency group node + if node ∈ adjacency member then 1 else 0 := by
  rw [affinityTo, List.countP_append, List.countP_singleton]
  simp only [decide_eq_true_eq]
  rfl

theorem TakenByAffinity.append {adjacency : Nat → List Nat} {size : Nat} {before : Nat → Prop}
    {group : List Nat} (htaken : TakenByAffinity adjacency size before group) {node : Nat}
    (hnode : group ≠ [] → 0 < affinityTo adjacency group node ∧
      ∀ other < size, ¬ before other → other ∉ group →
        affinityTo adjacency group other ≤ affinityTo adjacency group node) :
    TakenByAffinity adjacency size before (group ++ [node]) := by
  intro front last rest hsplit hfront
  rcases List.eq_nil_or_concat rest with rfl | ⟨rest, final, rfl⟩
  · obtain ⟨rfl, hlast⟩ := List.append_inj' hsplit rfl
    obtain rfl := List.singleton_inj.mp hlast
    exact hnode hfront
  · have hsame : group ++ [node] = (front ++ last :: rest) ++ [final] := by
      rw [hsplit, List.append_assoc, List.cons_append, List.concat_eq_append]
    exact htaken front last rest (List.append_inj' hsame rfl).1 hfront

/-! ## A group that grows -/

/-- What holds while a group grows: affinities are true, and every node with a neighbor in the
group has an entry that says so. -/
structure AffinityGrowing (size : Nat) {Entry : Type u} (queue : AffinityQueue Entry)
    (adjacency : Nat → List Nat) (before : Nat → Prop) (growth : AffinityGrowth Entry) : Prop where
  assigned : ∀ node, growth.assigned node = true ↔ before node ∨ node ∈ growth.group
  nodup : growth.group.Nodup
  fresh : ∀ node ∈ growth.group, ¬ before node ∧ node < size
  affinity : ∀ node, growth.assigned node = false →
    growth.affinity node = affinityTo adjacency growth.group node
  entries : ∀ entry ∈ growth.frontier, ∃ affinity node, node < size ∧ 0 < affinity ∧
    entry = queue.make affinity node
  current : ∀ node < size, growth.assigned node = false → 0 < growth.affinity node →
    queue.make (growth.affinity node) node ∈ growth.frontier
  touched : ∀ node, growth.affinity node ≠ 0 → node ∈ growth.touched
  taken : TakenByAffinity adjacency size before growth.group

section Growing

variable {size : Nat} {Entry : Type u} {queue : AffinityQueue Entry}
  {adjacency : Nat → List Nat} {before : Nat → Prop} {growth : AffinityGrowth Entry}
  {frontier : List Entry}

/-- A node joins the group that has, of the nodes that are not assigned, the largest affinity.
Its own entry may be gone. -/
theorem AffinityGrowing.addNode (hgrowing : AffinityGrowing size queue adjacency before growth)
    {node : Nat} (hnode : node < size) (hfree : growth.assigned node = false)
    (hadjacency : (adjacency node).Nodup ∧ ∀ neighbor ∈ adjacency node, neighbor < size)
    (hlargest : growth.group ≠ [] → 0 < growth.affinity node ∧
      ∀ other < size, growth.assigned other = false →
        growth.affinity other ≤ growth.affinity node)
    {rest : List Entry} (hrest : ∀ entry ∈ rest, entry ∈ growth.frontier)
    (hcurrent : ∀ other < size, other ≠ node → growth.assigned other = false →
      0 < growth.affinity other → queue.make (growth.affinity other) other ∈ rest) :
    AffinityGrowing size queue adjacency before
        (AffinityGrowth.addNode queue adjacency { growth with frontier := rest } node) ∧
      (AffinityGrowth.addNode queue adjacency { growth with frontier := rest } node).group =
        growth.group ++ [node] := by
  have hattracted := @foldl_attract _ queue _ hadjacency.1
    { growth with
      frontier := rest
      assigned := Function.update growth.assigned node true
      group := growth.group ++ [node] }
  rw [AffinityGrowth.addNode]
  set after := (adjacency node).foldl (AffinityGrowth.attract queue)
    { growth with
      frontier := rest
      assigned := Function.update growth.assigned node true
      group := growth.group ++ [node] } with hafter
  have hassigned : ∀ other, after.assigned other = true ↔
      other = node ∨ growth.assigned other = true := by
    intro other
    rw [hattracted.assigned]
    by_cases hother : other = node
    · simp [hother]
    · simp [hother]
  have hother : ∀ other, after.assigned other = false →
      other ≠ node ∧ growth.assigned other = false := by
    intro other hunassigned
    have hnot := (hassigned other).not.mp (by rw [hunassigned]; decide)
    rw [not_or, Bool.not_eq_true] at hnot
    exact hnot
  have haffinity : ∀ other, after.assigned other = false → after.affinity other =
      growth.affinity other + if other ∈ adjacency node then 1 else 0 := by
    intro other hunassigned
    rw [hattracted.affinity]
    simp [(hother other hunassigned).1, (hother other hunassigned).2]
  refine ⟨⟨fun other => ?_, ?_, ?_, fun other hunassigned => ?_, ?_, ?_, ?_, ?_⟩, hattracted.group⟩
  · rw [hassigned, hgrowing.assigned, hattracted.group, List.mem_append, List.mem_singleton,
      or_comm, or_assoc]
  · rw [hattracted.group]
    refine List.nodup_append.mpr ⟨hgrowing.nodup, List.nodup_singleton _, ?_⟩
    intro member hmember other hsame hequal
    have htaken := (hgrowing.assigned member).mpr (.inr hmember)
    rw [hequal, List.mem_singleton.mp hsame, hfree] at htaken
    cases htaken
  · rw [hattracted.group]
    intro member hmember
    rcases List.mem_append.mp hmember with hmember | hmember
    · exact hgrowing.fresh member hmember
    · rw [List.mem_singleton.mp hmember]
      refine ⟨fun hbefore => ?_, hnode⟩
      have htaken := (hgrowing.assigned node).mpr (.inl hbefore)
      rw [hfree] at htaken
      cases htaken
  · rw [haffinity other hunassigned, hgrowing.affinity other (hother other hunassigned).2,
      hattracted.group, affinityTo_append]
  · intro entry hentry
    rcases (hattracted.frontier entry).mp hentry with hold | ⟨neighbor, hneighbor, -, rfl⟩
    · exact hgrowing.entries entry (hrest entry hold)
    · exact ⟨_, neighbor, hadjacency.2 neighbor hneighbor, Nat.succ_pos _, rfl⟩
  · intro other hsize hunassigned hpositive
    obtain ⟨hne, hbefore⟩ := hother other hunassigned
    rw [haffinity other hunassigned] at hpositive ⊢
    rw [hattracted.frontier]
    by_cases hneighbor : other ∈ adjacency node
    · rw [if_pos hneighbor]
      exact .inr ⟨other, hneighbor, by simp [hne, hbefore], rfl⟩
    · rw [if_neg hneighbor] at hpositive ⊢
      exact .inl (hcurrent other hsize hne hbefore hpositive)
  · intro other hsome
    rw [hattracted.touched]
    by_cases hzero : growth.affinity other = 0
    · rw [hattracted.affinity] at hsome
      dsimp only at hsome ⊢
      rw [hzero, Nat.zero_add] at hsome
      split at hsome
      · next hattract => exact .inr ⟨hattract.2, hattract.1, hzero⟩
      · exact absurd rfl hsome
    · exact .inl (hgrowing.touched other hzero)
  · rw [hattracted.group]
    refine hgrowing.taken.append fun hsome => ?_
    obtain ⟨hpositive, hleast⟩ := hlargest hsome
    rw [← hgrowing.affinity node hfree]
    refine ⟨hpositive, fun other hsize hbefore hout => ?_⟩
    have hunassigned : growth.assigned other = false := by
      rw [← Bool.not_eq_true, hgrowing.assigned, not_or]
      exact ⟨hbefore, hout⟩
    rw [← hgrowing.affinity other hunassigned]
    exact hleast other hsize hunassigned

section

variable (hqueue : queue.Lawful size)
  (hentries : ∀ entry ∈ frontier, ∃ affinity node, node < size ∧ 0 < affinity ∧ entry =
    queue.make affinity node)
include hqueue hentries

/-- The first entry that is not stale is that of a node with the largest affinity; the entries
that say what is true of the others are behind it. -/
theorem takeFresh_some {rounds node : Nat} {rest : List Entry}
    (htaken : growth.takeFresh queue rounds frontier = some (node, rest)) :
    node < size ∧ growth.assigned node = false ∧ 0 < growth.affinity node ∧
      (∀ entry ∈ rest, entry ∈ frontier) ∧
      ∀ other < size, growth.assigned other = false →
        queue.make (growth.affinity other) other ∈ frontier →
          growth.affinity other ≤ growth.affinity node ∧
            (other ≠ node → queue.make (growth.affinity other) other ∈ rest) := by
  induction rounds generalizing frontier with
  | zero => cases htaken
  | succ rounds ih =>
    rw [AffinityGrowth.takeFresh] at htaken
    split at htaken
    · cases htaken
    · next entry behind hpop =>
        have hperm := hqueue.pop_perm hpop
        have hbehind : ∀ other ∈ behind, other ∈ frontier := fun other hother =>
          hperm.mem_iff.mpr (List.mem_cons_of_mem _ hother)
        obtain ⟨affinity, first, hfirst, hpositive, rfl⟩ :=
          hentries entry (hperm.mem_iff.mpr List.mem_cons_self)
        have hself : ∀ other < size, queue.make (growth.affinity other) other ∈ frontier →
            queue.make (growth.affinity other) other = queue.make affinity first ∨
              queue.make (growth.affinity other) other ∈ behind := fun other _ hmem =>
          List.mem_cons.mp (hperm.mem_iff.mp hmem)
        split at htaken
        · next hstale =>
            obtain ⟨hnode, hfree, hsome, hrest, hothers⟩ :=
              ih (fun entry hentry => hentries entry (hbehind entry hentry)) htaken
            refine ⟨hnode, hfree, hsome, fun entry hentry => hbehind entry (hrest entry hentry),
              fun other hother hunassigned hmem => ?_⟩
            rcases hself other hother hmem with hsame | hlater
            · refine absurd hstale ?_
              rw [← hsame, AffinityGrowth.Stale, hqueue.nodeOf_make _ _ hother,
                hqueue.affinityOf_make _ _ hother, hqueue.intact_make _ _ hother, hunassigned]
              simp
            · exact hothers other hother hunassigned hlater
        · next hfresh =>
            obtain ⟨rfl, rfl⟩ := Prod.mk.inj (Option.some.inj htaken)
            rw [AffinityGrowth.Stale, hqueue.nodeOf_make _ _ hfirst,
              hqueue.affinityOf_make _ _ hfirst, not_or, not_or, not_not, Bool.not_eq_true]
              at hfresh
            rw [hqueue.nodeOf_make _ _ hfirst]
            refine ⟨hfirst, hfresh.1, hfresh.2.1 ▸ hpositive, hbehind,
              fun other hother hunassigned hmem => ⟨?_, fun hne => ?_⟩⟩
            · have hle := hqueue.pop_largest hpop _ hmem
              rwa [hqueue.affinityOf_make _ _ hother, hqueue.affinityOf_make _ _ hfirst,
                ← hfresh.2.1] at hle
            · refine (hself other hother hmem).resolve_left fun hsame => hne ?_
              rw [← hqueue.nodeOf_make (growth.affinity other) other hother, hsame,
                hqueue.nodeOf_make _ _ hfirst]

theorem takeFresh_none {rounds : Nat} (hrounds : frontier.length ≤ rounds)
    (htaken : growth.takeFresh queue rounds frontier = none) {other : Nat} (hother : other < size)
    (hunassigned : growth.assigned other = false) :
    queue.make (growth.affinity other) other ∉ frontier := by
  induction rounds generalizing frontier with
  | zero =>
    rw [List.eq_nil_of_length_eq_zero (Nat.le_zero.mp hrounds)]
    exact List.not_mem_nil
  | succ rounds ih =>
    rw [AffinityGrowth.takeFresh] at htaken
    split at htaken
    · next hpop =>
        intro hmem
        obtain ⟨first, rest, hsome⟩ := hqueue.pop_some frontier (List.ne_nil_of_mem hmem)
        rw [hpop] at hsome
        cases hsome
    · next entry behind hpop =>
        have hperm := hqueue.pop_perm hpop
        have hlength := hperm.length_eq
        rw [List.length_cons] at hlength
        split at htaken
        · next hstale =>
            intro hmem
            rcases List.mem_cons.mp (hperm.mem_iff.mp hmem) with rfl | hlater
            · refine absurd hstale ?_
              rw [AffinityGrowth.Stale, hqueue.nodeOf_make _ _ hother,
                hqueue.affinityOf_make _ _ hother, hqueue.intact_make _ _ hother, hunassigned]
              simp
            · exact ih (fun entry hentry => hentries entry
                (hperm.mem_iff.mpr (List.mem_cons_of_mem _ hentry))) (by omega) htaken hlater
        · cases htaken

end

/-- How a group ends: it is full, or no node without a group has a neighbor in it. -/
theorem AffinityGrowing.grow (hgrowing : AffinityGrowing size queue adjacency before growth)
    (hqueue : queue.Lawful size)
    (hadjacency : ∀ node < size, (adjacency node).Nodup ∧
      ∀ neighbor ∈ adjacency node, neighbor < size) (room : Nat) :
    AffinityGrowing size queue adjacency before (growth.grow queue adjacency room) ∧
      (∃ more, (growth.grow queue adjacency room).group = growth.group ++ more ∧
        more.length ≤ room) ∧
      ((growth.grow queue adjacency room).group.length = growth.group.length + room ∨
        ∀ other < size, (growth.grow queue adjacency room).assigned other = false →
          (growth.grow queue adjacency room).affinity other = 0) := by
  induction room generalizing growth with
  | zero => exact ⟨hgrowing, ⟨[], (List.append_nil _).symm, Nat.le_refl _⟩, .inl rfl⟩
  | succ room ih =>
    rw [AffinityGrowth.grow]
    split
    · next hnone =>
        have hzero : ∀ other < size, growth.assigned other = false →
            growth.affinity other = 0 := by
          intro other hother hunassigned
          by_contra hsome
          exact takeFresh_none hqueue hgrowing.entries (Nat.le_refl _) hnone hother hunassigned
            (hgrowing.current other hother hunassigned (Nat.pos_of_ne_zero hsome))
        refine ⟨⟨hgrowing.assigned, hgrowing.nodup, hgrowing.fresh, hgrowing.affinity,
          fun entry hentry => absurd hentry List.not_mem_nil,
          fun node hnode hunassigned hpositive => ?_, hgrowing.touched, hgrowing.taken⟩,
          ⟨[], (List.append_nil _).symm, Nat.zero_le _⟩, .inr hzero⟩
        have hnothing := hzero node hnode hunassigned
        exact absurd hnothing (Nat.ne_of_gt hpositive)
    · next node rest hsome =>
        obtain ⟨hnode, hfree, hpositive, hrest, hothers⟩ :=
          takeFresh_some hqueue hgrowing.entries hsome
        have hlargest : ∀ other < size, growth.assigned other = false →
            growth.affinity other ≤ growth.affinity node := by
          intro other hother hunassigned
          by_cases hzero : growth.affinity other = 0
          · exact hzero ▸ Nat.zero_le _
          · exact (hothers other hother hunassigned
              (hgrowing.current other hother hunassigned (Nat.pos_of_ne_zero hzero))).1
        obtain ⟨hnext, hgroup⟩ := hgrowing.addNode hnode hfree (hadjacency node hnode)
          (fun _ => ⟨hpositive, hlargest⟩) hrest
          (fun other hother hne hunassigned hsome => (hothers other hother hunassigned
            (hgrowing.current other hother hunassigned hsome)).2 hne)
        obtain ⟨hlast, ⟨more, hmore, hlength⟩, hended⟩ := ih hnext
        rw [hgroup] at hmore hended
        refine ⟨hlast, ⟨node :: more, ?_, Nat.succ_le_succ hlength⟩, ?_⟩
        · rw [hmore, List.append_assoc]
          rfl
        · refine hended.imp_left fun hfull => hfull.trans ?_
          rw [List.length_append, List.length_singleton]
          omega

theorem growing_seed {assigned : Nat → Bool} {affinity : Nat → Nat}
    (hassigned : ∀ node, assigned node = true ↔ before node) (hclear : ∀ node, affinity node = 0)
    {seed : Nat} (hseed : seed < size) (hfree : assigned seed = false)
    (hadjacency : (adjacency seed).Nodup ∧ ∀ neighbor ∈ adjacency seed, neighbor < size) :
    AffinityGrowing size queue adjacency before (AffinityGrowth.addNode queue adjacency
        { assigned := assigned, affinity := affinity } seed) ∧
      (AffinityGrowth.addNode queue adjacency { assigned := assigned, affinity := affinity }
        seed).group = [seed] := by
  have hstart : AffinityGrowing size queue adjacency before
      { assigned := assigned, affinity := affinity } := by
    refine ⟨fun node => ?_, List.nodup_nil, fun node hnode => absurd hnode List.not_mem_nil,
      fun node _ => hclear node, fun entry hentry => absurd hentry List.not_mem_nil,
      fun node _ _ hsome => ?_, fun node hsome => ?_, fun front node rest hsplit => ?_⟩
    · rw [hassigned]
      simp
    · exact absurd (hclear node) (Nat.ne_of_gt hsome)
    · exact absurd (hclear node) hsome
    · exact absurd hsplit.symm (by simp)
  exact hstart.addNode hseed hfree hadjacency (fun hsome => absurd rfl hsome)
    (fun entry hentry => absurd hentry List.not_mem_nil)
    fun other _ _ _ hsome => absurd (hclear other) (Nat.ne_of_gt hsome)

theorem forget_touched {touched : List Nat} {affinity : Nat → Nat}
    (htouched : ∀ node, affinity node ≠ 0 → node ∈ touched) (node : Nat) :
    touched.foldl (fun affinity node => Function.update affinity node 0) affinity node = 0 := by
  induction touched generalizing affinity with
  | nil =>
    by_contra hsome
    exact absurd (htouched node hsome) List.not_mem_nil
  | cons first touched ih =>
    refine ih fun other hsome => ?_
    dsimp only at hsome
    by_cases hsame : other = first
    · rw [hsame, Function.update_self] at hsome
      exact absurd rfl hsome
    · rw [Function.update_of_ne hsame] at hsome
      exact (List.mem_cons.mp (htouched other hsome)).resolve_left hsame

end Growing

/-! ## All groups -/

/-- What holds between two groups. -/
structure AffinityGrouped (adjacency : Nat → List Nat) (size target : Nat)
    (grouping : AffinityGrouping) : Prop where
  assigned : ∀ node, grouping.assigned node = true ↔ node ∈ grouping.groups.flatten
  affinity : ∀ node, grouping.affinity node = 0
  nodup : grouping.groups.flatten.Nodup
  below : ∀ node ∈ grouping.groups.flatten, node < size
  greedy : ∀ front group rest, grouping.groups = front ++ group :: rest →
    Greedy adjacency size target (· ∈ front.flatten) group

section Grouping

variable {size target : Nat} {Entry : Type u} {queue : AffinityQueue Entry}
  {adjacency : Nat → List Nat} {grouping : AffinityGrouping}

theorem AffinityGrouped.seed (hgrouped : AffinityGrouped adjacency size target grouping)
    (hqueue : queue.Lawful size) (htarget : 1 ≤ target) (hadjacency : ∀ node < size, (adjacency node).Nodup ∧
      ∀ neighbor ∈ adjacency node, neighbor < size) {seed : Nat} (hseed : seed < size) :
    AffinityGrouped adjacency size target (growByAffinity queue adjacency target grouping seed) ∧
      seed ∈ (growByAffinity queue adjacency target grouping seed).groups.flatten ∧
      ∀ node ∈ grouping.groups.flatten,
        node ∈ (growByAffinity queue adjacency target grouping seed).groups.flatten := by
  rw [growByAffinity]
  split
  · next htaken => exact ⟨hgrouped, (hgrouped.assigned seed).mp htaken, fun _ hnode => hnode⟩
  · next hfree =>
      rw [Bool.not_eq_true] at hfree
      obtain ⟨hopened, hsingle⟩ : AffinityGrowing size queue adjacency _ _ ∧ _ :=
        growing_seed hgrouped.assigned hgrouped.affinity hseed hfree (hadjacency seed hseed)
      obtain ⟨hgrowing, ⟨more, hmore, hlength⟩, hended⟩ := hopened.grow hqueue hadjacency (target - 1)
      rw [hsingle] at hmore hended
      dsimp only
      set growth := (AffinityGrowth.addNode queue adjacency
        { assigned := grouping.assigned, affinity := grouping.affinity } seed).grow queue adjacency
          (target - 1) with hgrowth
      have hlengths : growth.group.length = 1 + more.length := by
        rw [hmore, List.length_append, List.length_singleton]
      have hflatten : (grouping.groups ++ [growth.group]).flatten =
          grouping.groups.flatten ++ growth.group := by
        rw [List.flatten_append, List.flatten_singleton]
      have hgreedy : Greedy adjacency size target (· ∈ grouping.groups.flatten) growth.group := by
        refine ⟨fun hnone => ?_, by omega, hgrowing.taken, fun hshort other hother hbefore hout => ?_⟩
        · rw [hnone] at hlengths
          exact absurd hlengths (by simp; omega)
        · rcases hended with hfull | hzero
          · rw [List.length_singleton] at hfull
            omega
          · have hunassigned : growth.assigned other = false := by
              rw [← Bool.not_eq_true, hgrowing.assigned, not_or]
              exact ⟨hbefore, hout⟩
            rw [← hgrowing.affinity other hunassigned]
            exact hzero other hother hunassigned
      refine ⟨⟨fun node => ?_, forget_touched hgrowing.touched, ?_, ?_, ?_⟩, ?_, ?_⟩
      · dsimp only
        rw [hgrowing.assigned, hflatten, List.mem_append]
      · dsimp only
        rw [hflatten]
        refine List.nodup_append.mpr ⟨hgrouped.nodup, hgrowing.nodup, ?_⟩
        rintro node hbefore _ hnode rfl
        exact (hgrowing.fresh node hnode).1 hbefore
      · dsimp only
        rw [hflatten]
        intro node hnode
        rcases List.mem_append.mp hnode with hbefore | hgroup
        · exact hgrouped.below node hbefore
        · exact (hgrowing.fresh node hgroup).2
      · intro front group rest hsplit
        dsimp only at hsplit
        rcases List.eq_nil_or_concat rest with rfl | ⟨rest, final, rfl⟩
        · obtain ⟨rfl, hlast⟩ := List.append_inj' hsplit rfl
          rw [← List.singleton_inj.mp hlast]
          exact hgreedy
        · have hsame : grouping.groups ++ [growth.group] = (front ++ group :: rest) ++ [final] := by
            rw [hsplit, List.append_assoc, List.cons_append, List.concat_eq_append]
          exact hgrouped.greedy front group rest (List.append_inj' hsame rfl).1
      · rw [hflatten, hmore]
        simp
      · rw [hflatten]
        exact fun node hnode => List.mem_append_left _ hnode

theorem groupByAffinity_spec (hqueue : queue.Lawful size) (htarget : 1 ≤ target)
    (hadjacency : ∀ node < size, (adjacency node).Nodup ∧
      ∀ neighbor ∈ adjacency node, neighbor < size) {seeds : List Nat}
    (hseeds : seeds.Perm (List.range size)) :
    Partitions target size (groupByAffinity queue adjacency target seeds) ∧
      ∀ front group rest, groupByAffinity queue adjacency target seeds = front ++ group :: rest →
        Greedy adjacency size target (· ∈ front.flatten) group := by
  have hgrouped : ∀ seeds : List Nat, (∀ seed ∈ seeds, seed < size) →
      AffinityGrouped adjacency size target
          (seeds.foldl (growByAffinity queue adjacency target) {}) ∧
        ∀ seed ∈ seeds,
          seed ∈ (seeds.foldl (growByAffinity queue adjacency target) {}).groups.flatten := by
    intro seeds
    induction seeds using List.reverseRecOn with
    | nil =>
      intro _
      refine ⟨⟨fun node => ?_, fun _ => rfl, List.nodup_nil,
        fun node hnode => absurd hnode List.not_mem_nil, fun front group rest hsplit => ?_⟩,
        fun seed hseed => absurd hseed List.not_mem_nil⟩
      · simp
      · exact absurd hsplit.symm (by simp)
    | append_singleton seeds seed ih =>
      intro hbelow
      obtain ⟨hbefore, hcovered⟩ := ih fun other hother =>
        hbelow other (List.mem_append_left _ hother)
      obtain ⟨hnext, hseed, hkept⟩ := hbefore.seed hqueue htarget hadjacency
        (hbelow seed (List.mem_append_right _ List.mem_cons_self))
      rw [List.foldl_append, List.foldl_cons, List.foldl_nil]
      refine ⟨hnext, fun other hother => ?_⟩
      rcases List.mem_append.mp hother with hother | hother
      · exact hkept other (hcovered other hother)
      · rwa [List.mem_singleton.mp hother]
  obtain ⟨hall, hcovered⟩ := hgrouped seeds fun seed hseed =>
    List.mem_range.mp (hseeds.mem_iff.mp hseed)
  refine ⟨⟨hall.nodup, fun node => ⟨hall.below node, fun hnode => ?_⟩, fun group hgroup => ?_⟩,
    hall.greedy⟩
  · exact hcovered node (hseeds.mem_iff.mpr (List.mem_range.mpr hnode))
  · obtain ⟨front, rest, hsplit⟩ := List.append_of_mem hgroup
    have hgreedy := hall.greedy front group rest hsplit
    exact ⟨List.length_pos_of_ne_nil hgreedy.nonempty, hgreedy.bounded⟩

end Grouping

section Connected

variable {adjacency : Nat → List Nat} {size target : Nat} {before : Nat → Prop} {group : List Nat}

theorem exists_member {node : Nat} (hpositive : 0 < affinityTo adjacency group node) :
    ∃ member ∈ group, node ∈ adjacency member := by
  obtain ⟨member, hmember, hneighbor⟩ := List.countP_pos_iff.mp hpositive
  exact ⟨member, hmember, of_decide_eq_true hneighbor⟩

/-- Two nodes of the group are neighbors. -/
def JoinedIn (adjacency : Nat → List Nat) (group : List Nat) (first second : Nat) : Prop :=
  first ∈ group ∧ second ∈ group ∧ second ∈ adjacency first

theorem TakenByAffinity.reached (htaken : TakenByAffinity adjacency size before group) {first : Nat}
    (hfirst : group.head? = some first) {node : Nat} (hnode : node ∈ group) :
    Relation.ReflTransGen (JoinedIn adjacency group) first node := by
  have hfront : ∀ front rest, group = front ++ rest → ∀ node ∈ front,
      Relation.ReflTransGen (JoinedIn adjacency group) first node := by
    intro front
    induction front using List.reverseRecOn with
    | nil => exact fun _ _ node hnode => absurd hnode List.not_mem_nil
    | append_singleton front last ih =>
      intro rest hsplit node hnode
      rw [List.append_assoc] at hsplit
      have hbefore := ih _ hsplit
      rcases List.mem_append.mp hnode with hnode | hnode
      · exact hbefore node hnode
      · obtain rfl := List.mem_singleton.mp hnode
        by_cases hempty : front = []
        · rw [hsplit, hempty] at hfirst
          obtain rfl := Option.some.inj hfirst
          exact .refl
        · obtain ⟨member, hmember, hneighbor⟩ :=
            exists_member (htaken front node rest hsplit hempty).1
          refine (hbefore member hmember).tail ⟨?_, ?_, hneighbor⟩
          · rw [hsplit]
            exact List.mem_append_left _ hmember
          · rw [hsplit]
            simp
  exact hfront group [] (List.append_nil _).symm node hnode

theorem TakenByAffinity.connected (htaken : TakenByAffinity adjacency size before group)
    (hmutual : ∀ first second, second ∈ adjacency first → first ∈ adjacency second)
    {start finish : Nat} (hstart : start ∈ group) (hfinish : finish ∈ group) :
    Relation.ReflTransGen (JoinedIn adjacency group) start finish := by
  obtain ⟨first, rest, hgroup⟩ := List.exists_cons_of_ne_nil (List.ne_nil_of_mem hstart)
  have hfirst : group.head? = some first := by rw [hgroup, List.head?_cons]
  have hsymmetric : Std.Symm (JoinedIn adjacency group) :=
    ⟨fun _ _ hjoined => ⟨hjoined.2.1, hjoined.1, hmutual _ _ hjoined.2.2⟩⟩
  have hback : Relation.ReflTransGen (JoinedIn adjacency group) start first :=
    Relation.ReflTransGen.stdSymm.symm _ _ (htaken.reached hfirst hstart)
  exact hback.trans (htaken.reached hfirst hfinish)

end Connected

end Foundation

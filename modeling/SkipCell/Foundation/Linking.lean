import SkipCell.Foundation.BestFirst
import SkipCell.Foundation.BudgetedSearch
import SkipCell.Foundation.Occlusion

/-! # Linking a graph

A graph is linked one node after the other: a search around the node gives candidates, of which
some become its neighbors, and each of these gets the node as a neighbor. A list that has grown
too long is selected anew, and at the end all that are longer than the degree are.
-/

namespace Foundation

universe uId uDistance

variable {Id : Type uId} {Distance : Type uDistance} [DecidableEq Id]

/-- The nodes that were not seen before, each once. -/
def unseenNodes (seen nodes : List Id) : List Id := takeUnseen nodes.length seen nodes

theorem unseenNodes_spec (seen nodes : List Id) :
    (unseenNodes seen nodes).Nodup ∧ ∀ id ∈ unseenNodes seen nodes, id ∈ nodes ∧ id ∉ seen :=
  ⟨takeUnseen_nodup _ _ _, fun _ => mem_of_mem_takeUnseen⟩

omit [DecidableEq Id] in
theorem nodup_take_insertionSort {order : Candidate Id Distance → Candidate Id Distance → Prop}
    [DecidableRel order] {pool : List (Candidate Id Distance)}
    (hnodup : (pool.map Candidate.id).Nodup) (count : Nat) :
    (((pool.insertionSort order).take count).map Candidate.id).Nodup :=
  (((List.perm_insertionSort order pool).map _).nodup_iff.mpr hnodup).sublist
    ((List.take_sublist _ _).map _)

omit [DecidableEq Id] in
/-- A selection from candidates of different nodes is one of their nodes. -/
theorem map_select_spec {Factor : Type*} [LinearOrder Factor]
    {occlusion : Occlusion (Candidate Id Distance) Factor} (hlawful : occlusion.Lawful)
    (degree : Nat) (kept : Candidate Id Distance → Bool) {pool : List (Candidate Id Distance)}
    (hnodup : (pool.map Candidate.id).Nodup) :
    ((occlusion.select degree kept pool).map Candidate.id).Nodup ∧
      (∀ id ∈ (occlusion.select degree kept pool).map Candidate.id,
        ∃ candidate ∈ pool, candidate.id = id ∧ kept candidate = true) ∧
      ((occlusion.select degree kept pool).map Candidate.id).length ≤ degree := by
  obtain ⟨hdistinct, hmem, hlength⟩ := Occlusion.select_spec hlawful degree kept hnodup.of_map
  refine ⟨?_, ?_, (List.length_map _).trans_le hlength⟩
  · refine hdistinct.map_on fun first hfirst second hsecond hsame => ?_
    exact List.inj_on_of_nodup_map hnodup (hmem first hfirst).1 (hmem second hsecond).1 hsame
  · intro id hid
    obtain ⟨candidate, hcandidate, rfl⟩ := List.mem_map.mp hid
    exact ⟨candidate, (hmem candidate hcandidate).1, rfl, (hmem candidate hcandidate).2⟩

/-- How neighbors are found and selected, and how long a list may grow by reverse edges. -/
structure Linking (Id : Type uId) (Distance : Type uDistance) where
  degree : Nat
  slack : Nat
  distance : Id → Id → Distance
  search : (Id → List Id) → Id → List (Candidate Id Distance)
  prune : Id → List (Candidate Id Distance) → List Id

namespace Linking

variable (linking : Linking Id Distance)

/-- The neighbors of a node as candidates, each once and without the node. -/
def makePool (node : Id) (neighbors : List Id) : List (Candidate Id Distance) :=
  (unseenNodes [node] neighbors).map fun neighbor => ⟨neighbor, linking.distance node neighbor, false⟩

/-- The neighbors that a search finds for a node. -/
def searchAndPrune (graph : Id → List Id) (node : Id) : List Id :=
  linking.prune node ((linking.search graph node).filter fun candidate => candidate.id ≠ node)

/-- `neighbor` gets `node` as a neighbor. -/
def reverseInsert (node : Id) (graph : Id → List Id) (neighbor : Id) : Id → List Id :=
  if node ∈ graph neighbor then graph
  else if (graph neighbor).length < linking.slack then
    Function.update graph neighbor (graph neighbor ++ [node])
  else
    Function.update graph neighbor
      (linking.prune neighbor (linking.makePool neighbor (graph neighbor ++ [node])))

def interInsert (node : Id) (neighbors : List Id) (graph : Id → List Id) : Id → List Id :=
  neighbors.foldl (linking.reverseInsert node) graph

/-- The list of a node, and then the reverse edges. -/
def linkNode (graph : Id → List Id) (node : Id) : Id → List Id :=
  let neighbors := linking.searchAndPrune graph node
  linking.interInsert node neighbors (Function.update graph node neighbors)

/-- A list that is longer than the degree is selected anew. -/
def cleanUp (graph : Id → List Id) (node : Id) : Id → List Id :=
  if (graph node).length ≤ linking.degree then graph
  else Function.update graph node (linking.prune node (linking.makePool node (graph node)))

/-- Lists of different valid nodes, of a bounded length, without their own node. -/
structure Listed (valid : Id → Prop) (bound : Nat) (node : Id) (list : List Id) : Prop where
  nodup : list.Nodup
  noLoop : node ∉ list
  valid : ∀ neighbor ∈ list, valid neighbor
  length : list.length ≤ bound

omit [DecidableEq Id] in
theorem Listed.mono {valid : Id → Prop} {bound other : Nat} {node : Id} {list : List Id}
    (hlisted : Listed valid bound node list) (hle : bound ≤ other) :
    Listed valid other node list :=
  ⟨hlisted.nodup, hlisted.noLoop, hlisted.valid, hlisted.length.trans hle⟩

/-- A search in a graph of valid nodes finds different valid nodes, and a selection takes some of
its candidates, no more than the degree and not the node itself. -/
structure Lawful (linking : Linking Id Distance) (valid : Id → Prop) : Prop where
  search : ∀ graph : Id → List Id,
    (∀ node, valid node → (graph node).Nodup ∧ ∀ neighbor ∈ graph node, valid neighbor) →
    ∀ node, valid node → ((linking.search graph node).map Candidate.id).Nodup ∧
      ∀ candidate ∈ linking.search graph node, valid candidate.id
  prune : ∀ node pool, (pool.map Candidate.id).Nodup → (linking.prune node pool).Nodup ∧
    node ∉ linking.prune node pool ∧
    (∀ id ∈ linking.prune node pool, id ∈ pool.map Candidate.id) ∧
    (linking.prune node pool).length ≤ linking.degree

variable {linking} {valid : Id → Prop} {graph : Id → List Id} {node neighbor : Id}

theorem Lawful.listed_prune (hlawful : linking.Lawful valid) {pool : List (Candidate Id Distance)}
    (hnodup : (pool.map Candidate.id).Nodup) (hvalid : ∀ candidate ∈ pool, valid candidate.id) :
    Listed valid linking.degree node (linking.prune node pool) := by
  obtain ⟨hdistinct, hnoLoop, hsubset, hlength⟩ := hlawful.prune node pool hnodup
  refine ⟨hdistinct, hnoLoop, fun other hother => ?_, hlength⟩
  obtain ⟨candidate, hcandidate, rfl⟩ := List.mem_map.mp (hsubset other hother)
  exact hvalid candidate hcandidate

theorem Lawful.listed_remade (hlawful : linking.Lawful valid) {neighbors : List Id}
    (hvalid : ∀ other ∈ neighbors, valid other) :
    Listed valid linking.degree node (linking.prune node (linking.makePool node neighbors)) := by
  obtain ⟨hnodup, hunseen⟩ := unseenNodes_spec [node] neighbors
  apply hlawful.listed_prune
  · rw [makePool, List.map_map]
    exact (List.map_id' _).symm ▸ hnodup
  · intro candidate hcandidate
    obtain ⟨other, hother, rfl⟩ := List.mem_map.mp hcandidate
    exact hvalid other (hunseen other hother).1

theorem Lawful.listed_searchAndPrune (hlawful : linking.Lawful valid)
    (hgraph : ∀ node, valid node → (graph node).Nodup ∧ ∀ neighbor ∈ graph node, valid neighbor)
    (hnode : valid node) :
    Listed valid linking.degree node (linking.searchAndPrune graph node) := by
  obtain ⟨hnodup, hvalid⟩ := hlawful.search graph hgraph node hnode
  apply hlawful.listed_prune
  · exact hnodup.sublist (List.filter_sublist.map _)
  · exact fun candidate hcandidate => hvalid candidate (List.mem_of_mem_filter hcandidate)

def Ordered (linking : Linking Id Distance) (valid : Id → Prop) (graph : Id → List Id) : Prop :=
  ∀ node, Listed valid (max linking.degree linking.slack) node (graph node)

theorem Ordered.update (hordered : linking.Ordered valid graph) {list : List Id}
    (hlist : Listed valid (max linking.degree linking.slack) node list) :
    linking.Ordered valid (Function.update graph node list) := by
  intro other
  by_cases hsame : other = node
  · subst hsame
    rw [Function.update_self]
    exact hlist
  · rw [Function.update_of_ne hsame]
    exact hordered other

theorem Ordered.lists (hordered : linking.Ordered valid graph) (node : Id) :
    (graph node).Nodup ∧ ∀ neighbor ∈ graph node, valid neighbor :=
  ⟨(hordered node).nodup, (hordered node).valid⟩

section

variable (hlawful : linking.Lawful valid) (hordered : linking.Ordered valid graph)
include hlawful hordered

theorem Ordered.reverseInsert (hnode : valid node) (hne : node ≠ neighbor) :
    linking.Ordered valid (linking.reverseInsert node graph neighbor) := by
  have hlist := hordered neighbor
  have hvalid : ∀ other ∈ graph neighbor ++ [node], valid other := by
    intro other hother
    rcases List.mem_append.mp hother with hold | hnew
    · exact hlist.valid other hold
    · exact List.mem_singleton.mp hnew ▸ hnode
  rw [Linking.reverseInsert]
  split
  · exact hordered
  · next hnew =>
      split
      · next hroom =>
          refine hordered.update ⟨?_, ?_, hvalid, ?_⟩
          · refine List.nodup_append.mpr ⟨hlist.nodup, List.nodup_singleton node, ?_⟩
            intro first hfirst last hlast hsame
            exact hnew (List.mem_singleton.mp hlast ▸ hsame ▸ hfirst)
          · rw [List.mem_append, List.mem_singleton, not_or]
            exact ⟨hlist.noLoop, hne.symm⟩
          · rw [List.length_append, List.length_singleton]
            exact (Nat.succ_le_of_lt hroom).trans (Nat.le_max_right _ _)
      · exact hordered.update ((hlawful.listed_remade hvalid).mono (Nat.le_max_left _ _))

theorem Ordered.interInsert (hnode : valid node) {neighbors : List Id}
    (hneighbors : node ∉ neighbors) :
    linking.Ordered valid (linking.interInsert node neighbors graph) := by
  refine List.foldlRecOn (motive := linking.Ordered valid) neighbors _ hordered ?_
  intro graph hgraph neighbor hneighbor
  exact hgraph.reverseInsert hlawful hnode fun hsame => hneighbors (hsame ▸ hneighbor)

theorem Ordered.partlyLinked (hnode : valid node) {done rest : List Id}
    (hneighbors : linking.searchAndPrune graph node = done ++ rest) :
    linking.Ordered valid (linking.interInsert node done
      (Function.update graph node (linking.searchAndPrune graph node))) := by
  have hlisted := hlawful.listed_searchAndPrune (fun node _ => hordered.lists node) hnode
  refine (hordered.update (hlisted.mono (Nat.le_max_left _ _))).interInsert hlawful hnode ?_
  intro hmem
  exact hlisted.noLoop (hneighbors ▸ List.mem_append_left rest hmem)

theorem Ordered.linkNode (hnode : valid node) :
    linking.Ordered valid (linking.linkNode graph node) :=
  hordered.partlyLinked hlawful hnode (List.append_nil _).symm

theorem Ordered.linkNodes {order : List Id} (horder : ∀ node ∈ order, valid node) :
    linking.Ordered valid (order.foldl linking.linkNode graph) :=
  List.foldlRecOn (motive := linking.Ordered valid) order _ hordered
    fun _ hgraph node hnode => hgraph.linkNode hlawful (horder node hnode)

theorem Ordered.cleanUp (node : Id) : linking.Ordered valid (linking.cleanUp graph node) := by
  rw [Linking.cleanUp]
  split
  · exact hordered
  · exact hordered.update
      ((hlawful.listed_remade (hordered node).valid).mono (Nat.le_max_left _ _))

theorem length_cleanUp (node other : Id)
    (hshort : (graph other).length ≤ linking.degree ∨ other = node) :
    (linking.cleanUp graph node other).length ≤ linking.degree := by
  rw [Linking.cleanUp]
  split
  · next hall => exact hshort.elim id fun hsame => hsame ▸ hall
  · by_cases hsame : other = node
    · subst hsame
      rw [Function.update_self]
      exact (hlawful.listed_remade (hordered other).valid).length
    · rw [Function.update_of_ne hsame]
      exact hshort.resolve_right hsame

theorem Ordered.cleanUps (order : List Id) :
    linking.Ordered valid (order.foldl linking.cleanUp graph) ∧
      ∀ node ∈ order, (order.foldl linking.cleanUp graph node).length ≤ linking.degree := by
  induction order using List.reverseRecOn with
  | nil => exact ⟨hordered, by simp⟩
  | append_singleton order last ih =>
    rw [List.foldl_append, List.foldl_cons, List.foldl_nil]
    refine ⟨ih.1.cleanUp hlawful last, fun node hnode => length_cleanUp hlawful ih.1 last node ?_⟩
    rcases List.mem_append.mp hnode with hold | hnew
    · exact .inl (ih.2 node hold)
    · exact .inr (List.mem_singleton.mp hnew)

end

end Linking

end Foundation

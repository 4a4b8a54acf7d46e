import Mathlib

/-! # Searching a graph with a budget

A search finds nodes, and expands in some order those that it found. Each expansion adds
the neighbors that are new, as long as there is room. The search ends when nothing is left
to expand or the budget is used up: then it has found every node that the starts reach, or
as many as the budget allows.
-/

namespace Foundation

universe u

variable {Node : Type u} [DecidableEq Node]

/-- The first nodes that were not seen before, each once, while there is room. -/
def takeUnseen : Nat → List Node → List Node → List Node
  | 0, _, _ => []
  | _ + 1, _, [] => []
  | room + 1, seen, node :: nodes =>
    if node ∈ seen then takeUnseen (room + 1) seen nodes
    else node :: takeUnseen room (node :: seen) nodes

section Take

theorem length_takeUnseen (room : Nat) (seen nodes : List Node) :
    (takeUnseen room seen nodes).length ≤ room := by
  induction nodes generalizing room seen with
  | nil => cases room <;> exact Nat.zero_le _
  | cons node nodes ih =>
    cases room with
    | zero => exact Nat.zero_le _
    | succ room =>
      rw [takeUnseen]
      split
      · exact ih (room + 1) seen
      · exact Nat.succ_le_succ (ih room (node :: seen))

theorem mem_of_mem_takeUnseen {room : Nat} {seen nodes : List Node} {found : Node}
    (hfound : found ∈ takeUnseen room seen nodes) : found ∈ nodes ∧ found ∉ seen := by
  induction nodes generalizing room seen with
  | nil =>
    cases room with
    | zero => cases hfound
    | succ room => cases hfound
  | cons node nodes ih =>
    cases room with
    | zero => cases hfound
    | succ room =>
      rw [takeUnseen] at hfound
      split at hfound
      · obtain ⟨hnodes, hseen⟩ := ih hfound
        exact ⟨List.mem_cons_of_mem _ hnodes, hseen⟩
      next hnew =>
        rcases List.mem_cons.mp hfound with rfl | hlater
        · exact ⟨List.mem_cons_self, hnew⟩
        · obtain ⟨hnodes, hseen⟩ := ih hlater
          exact ⟨List.mem_cons_of_mem _ hnodes, fun hmem =>
            hseen (List.mem_cons_of_mem _ hmem)⟩

theorem takeUnseen_nodup (room : Nat) (seen nodes : List Node) :
    (takeUnseen room seen nodes).Nodup := by
  induction nodes generalizing room seen with
  | nil => cases room <;> exact List.nodup_nil
  | cons node nodes ih =>
    cases room with
    | zero => exact List.nodup_nil
    | succ room =>
      rw [takeUnseen]
      split
      · exact ih (room + 1) seen
      · exact List.nodup_cons.mpr
          ⟨fun hmem => (mem_of_mem_takeUnseen hmem).2 List.mem_cons_self, ih room (node :: seen)⟩

theorem takeUnseen_congr {seen other : List Node} (hsame : ∀ node, node ∈ seen ↔ node ∈ other)
    (room : Nat) (nodes : List Node) : takeUnseen room seen nodes = takeUnseen room other nodes := by
  induction nodes generalizing room seen other with
  | nil => cases room <;> rfl
  | cons node nodes ih =>
    cases room with
    | zero => rfl
    | succ room =>
      have hcons : ∀ found, found ∈ node :: seen ↔ found ∈ node :: other := by
        intro found
        rw [List.mem_cons, List.mem_cons, hsame]
      simp only [takeUnseen, hsame node, ih hsame, ih hcons]

theorem subset_of_length_takeUnseen {room : Nat} {seen nodes : List Node}
    (hroom : (takeUnseen room seen nodes).length < room) :
    nodes ⊆ seen ++ takeUnseen room seen nodes := by
  induction nodes generalizing room seen with
  | nil => exact List.nil_subset _
  | cons node nodes ih =>
    cases room with
    | zero => cases hroom
    | succ room =>
      rw [takeUnseen] at hroom ⊢
      split at hroom
      next hseen =>
        rw [if_pos hseen]
        exact List.cons_subset.mpr ⟨List.mem_append_left _ hseen, ih hroom⟩
      next hnew =>
        rw [if_neg hnew]
        have hlater := ih (Nat.lt_of_succ_lt_succ hroom)
        refine List.cons_subset.mpr
          ⟨List.mem_append_right _ List.mem_cons_self, fun other hother => ?_⟩
        rcases List.mem_append.mp (hlater hother) with hseen | hfound
        · rcases List.mem_cons.mp hseen with rfl | hseen
          · exact List.mem_append_right _ List.mem_cons_self
          · exact List.mem_append_left _ hseen
        · exact List.mem_append_right _ (List.mem_cons_of_mem _ hfound)

end Take

variable (edges : Node → List Node) (starts : List Node)

def ReachedFrom : Set Node :=
  {node | ∃ start ∈ starts, Relation.ReflTransGen (fun source target => target ∈ edges source) start
    node}

variable {edges starts}

omit [DecidableEq Node] in
theorem ReachedFrom.edge {source target : Node} (hsource : source ∈ ReachedFrom edges starts)
    (htarget : target ∈ edges source) : target ∈ ReachedFrom edges starts := by
  obtain ⟨start, hstart, hpath⟩ := hsource
  exact ⟨start, hstart, hpath.tail htarget⟩

/-- What a search with a budget has found, and what is left to expand. -/
structure Searched (edges : Node → List Node) (starts : List Node) (budget : Nat)
    (found frontier : List Node) : Prop where
  nodup : found.Nodup
  begun : starts ⊆ found
  reached : ∀ node ∈ found, node ∈ ReachedFrom edges starts
  bounded : found.length ≤ budget
  expanded : found.length = budget ∨ ∀ node ∈ found, node ∈ frontier ∨ edges node ⊆ found

namespace Searched

variable {budget : Nat} {found frontier : List Node}

omit [DecidableEq Node] in
theorem start (hnodup : found.Nodup) (hfound : ∀ node, node ∈ found ↔ node ∈ starts)
    (hbudget : found.length ≤ budget) (hfrontier : found ⊆ frontier) :
    Searched edges starts budget found frontier where
  nodup := hnodup
  begun node hnode := (hfound node).mpr hnode
  reached node hnode := ⟨node, (hfound node).mp hnode, .refl⟩
  bounded := hbudget
  expanded := Or.inr fun _ hnode => Or.inl (hfrontier hnode)

theorem expand {node : Node} {after : List Node} (hsearched : Searched edges starts budget found frontier)
    (hnode : node ∈ found) (hafter : ∀ other ∈ frontier, other = node ∨ other ∈ after)
    (hfresh : takeUnseen (budget - found.length) found (edges node) ⊆ after) :
    Searched edges starts budget
      (found ++ takeUnseen (budget - found.length) found (edges node)) after := by
  have hlength := length_takeUnseen (budget - found.length) found (edges node)
  have hbounded := hsearched.bounded
  constructor
  case nodup =>
    refine List.nodup_append.mpr ⟨hsearched.nodup, takeUnseen_nodup _ _ _, ?_⟩
    rintro old hold new hnew rfl
    exact (mem_of_mem_takeUnseen hnew).2 hold
  case begun => exact List.subset_append_of_subset_left _ hsearched.begun
  case reached =>
    intro other hother
    rcases List.mem_append.mp hother with hold | hnew
    · exact hsearched.reached other hold
    · exact ReachedFrom.edge (hsearched.reached node hnode) (mem_of_mem_takeUnseen hnew).1
  case bounded =>
    rw [List.length_append]
    omega
  case expanded =>
    rcases Nat.lt_or_ge (takeUnseen (budget - found.length) found (edges node)).length
      (budget - found.length) with hroom | hfull
    · right
      intro other hother
      rcases List.mem_append.mp hother with hold | hnew
      · rcases hsearched.expanded with hused | hexpanded
        · omega
        · rcases hexpanded other hold with hfrontier | hnext
          · rcases hafter other hfrontier with rfl | hlater
            · exact Or.inr (subset_of_length_takeUnseen hroom)
            · exact Or.inl hlater
          · exact Or.inr (List.subset_append_of_subset_left _ hnext)
      · exact Or.inl (hfresh hnew)
    · left
      rw [List.length_append]
      omega

theorem length_eq (hsearched : Searched edges starts budget found frontier)
    (hended : frontier = [] ∨ budget ≤ found.length) (hfinite : (ReachedFrom edges starts).Finite) :
    found.length = min budget (ReachedFrom edges starts).ncard := by
  have hsubset : {node | node ∈ found} ⊆ ReachedFrom edges starts :=
    fun node hnode => hsearched.reached node hnode
  have hcard : {node | node ∈ found}.ncard = found.length := by
    rw [← List.coe_toFinset, Set.ncard_coe_finset, List.toFinset_card_of_nodup hsearched.nodup]
  have hle := Set.ncard_le_ncard hsubset hfinite
  have hbounded := hsearched.bounded
  rw [hcard] at hle
  rcases hsearched.expanded with hused | hexpanded
  · omega
  · rcases hended with rfl | hused
    · have hall : {node | node ∈ found} = ReachedFrom edges starts := by
        refine Set.Subset.antisymm hsubset ?_
        rintro node ⟨start, hstart, hpath⟩
        induction hpath with
        | refl => exact hsearched.begun hstart
        | tail _ hstep ih => exact ((hexpanded _ ih).resolve_left List.not_mem_nil) hstep
      rw [← hall, hcard]
      omega
    · omega

end Searched

end Foundation

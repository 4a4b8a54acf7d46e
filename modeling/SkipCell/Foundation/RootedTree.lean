import Mathlib

/-! # Rooted trees

Where every node but the root has one parent, and the root none, the child relation of finitely
many nodes is a tree exactly if it has no cycle.
-/

namespace Foundation

universe u

variable {α : Type u} (child : α → α → Prop) (root : α)

/-- The nodes of a way down from the root, the last one first. -/
inductive Descent : α → List α → Prop
  | start : Descent root [root]
  | step {parent node : α} {path : List α} :
      Descent parent path → child parent node → Descent node (node :: path)

/-- Every node is reached in one way, and every way down ends. -/
structure RootedTree : Prop where
  reached : ∀ node, ∃! path, Descent child root node path
  ends : WellFounded fun later earlier => child earlier later

variable {child root} {node : α} {path : List α}

theorem Descent.extend (hpath : Descent child root node path) {last : α}
    (hchain : Relation.TransGen child node last) :
    ∃ longer, Descent child root last longer ∧ path.length < longer.length := by
  induction hchain with
  | single hchild => exact ⟨_, hpath.step hchild, Nat.lt_succ_self _⟩
  | tail _ hchild ih =>
    obtain ⟨longer, hlonger, hlength⟩ := ih
    exact ⟨_, hlonger.step hchild, Nat.lt_succ_of_lt hlength⟩

variable (hroot : ∀ parent, ¬ child parent root)
  (hparent : ∀ {first second node : α}, child first node → child second node → first = second)
include hroot hparent

theorem Descent.unique (hpath : Descent child root node path) {other : List α}
    (hother : Descent child root node other) : path = other := by
  induction hpath generalizing other with
  | start =>
    cases hother with
    | start => rfl
    | step _ hchild => exact absurd hchild (hroot _)
  | step _ hchild ih =>
    cases hother with
    | start => exact absurd hchild (hroot _)
    | step hrest hagain =>
      obtain rfl := hparent hchild hagain
      rw [ih hrest]

theorem rootedTree_iff [Finite α] (hsome : ∀ node, node ≠ root → ∃ parent, child parent node) :
    RootedTree child root ↔ ∀ node, ¬ Relation.TransGen child node node := by
  constructor
  · intro htree node hcycle
    obtain ⟨path, hpath, hunique⟩ := htree.reached node
    obtain ⟨longer, hlonger, hlength⟩ := hpath.extend hcycle
    exact hlength.ne (congrArg List.length (hunique longer hlonger)).symm
  · intro hacyclic
    have hirrefl : Std.Irrefl (Relation.TransGen child) := ⟨hacyclic⟩
    have hup : WellFounded (Relation.TransGen child) := Finite.wellFounded_of_trans_of_irrefl _
    have hdown : WellFounded (Function.swap (Relation.TransGen child)) :=
      Finite.wellFounded_of_trans_of_irrefl _
    refine ⟨fun node => ?_, Subrelation.wf (fun hchild => .single hchild) hdown⟩
    obtain ⟨path, hpath⟩ : ∃ path, Descent child root node path := by
      -- from the parents, which a cycle would make go on for ever
      induction node using hup.induction with
      | h node ih =>
        by_cases htop : node = root
        · subst htop
          exact ⟨_, .start⟩
        · obtain ⟨parent, hchild⟩ := hsome node htop
          obtain ⟨path, hpath⟩ := ih parent (.single hchild)
          exact ⟨_, hpath.step hchild⟩
    exact ⟨path, hpath, fun other hother => hother.unique hroot hparent hpath⟩

end Foundation

import Mathlib

/-! # Resources that are taken in order

Parties hold resources and want at most one more. Where everyone wants a resource
above all that it holds, the parties that wait for one another form no cycle.
-/

namespace Foundation

universe uParty uResource

variable {Party : Type uParty} {Resource : Type uResource}

/-- `first` wants what `second` holds. -/
def WaitsFor (wants : Party → Option Resource) (holds : Party → Resource → Prop)
    (first second : Party) : Prop :=
  ∃ resource, wants first = some resource ∧ holds second resource

namespace WaitsFor

variable [Preorder Resource] {wants : Party → Option Resource} {holds : Party → Resource → Prop}

theorem lt_of_chain
    (hordered : ∀ party wanted held, wants party = some wanted → holds party held → held < wanted)
    {first last : Party} (hchain : Relation.TransGen (WaitsFor wants holds) first last) :
    ∀ wanted above, wants first = some wanted → wants last = some above → wanted < above := by
  induction hchain with
  | single hedge =>
    intro wanted above hwanted habove
    obtain ⟨resource, hresource, hheld⟩ := hedge
    obtain rfl := Option.some.inj (hresource.symm.trans hwanted)
    exact hordered _ above resource habove hheld
  | tail _ hedge ih =>
    intro wanted above hwanted habove
    obtain ⟨resource, hresource, hheld⟩ := hedge
    exact (ih wanted resource hwanted hresource).trans (hordered _ above resource habove hheld)

theorem acyclic
    (hordered : ∀ party wanted held, wants party = some wanted → holds party held → held < wanted)
    (party : Party) : ¬ Relation.TransGen (WaitsFor wants holds) party party := by
  intro hcycle
  obtain ⟨next, ⟨wanted, hwanted, -⟩, -⟩ := Relation.TransGen.head'_iff.mp hcycle
  exact lt_irrefl wanted (lt_of_chain hordered hcycle wanted wanted hwanted hwanted)

end WaitsFor

end Foundation

import SkipCell.Foundation.Checks

/-! # Scattering values by a permutation

Every value of a sequence is put at a place of its own. A place that was taken before is
refused, so nothing is accepted but distinct places.
-/

namespace Foundation

variable {Failure α : Type}

/-- Puts a value at a place that has none yet. -/
def put (taken : Failure) (place : Nat) (value : α) (state : List α × List Bool) :
    Except Failure (List α × List Bool) := do
  reject (state.2[place]? ≠ some false) taken
  .ok (state.1.set place value, state.2.set place true)

/-- Puts each value at its place. -/
def putAll (taken : Failure) (pairs : List (α × Nat)) (state : List α × List Bool) :
    Except Failure (List α × List Bool) :=
  scan (fun _ pair => put taken pair.2 pair.1) 0 pairs state

variable {taken : Failure} {list : List α} {places : List Nat} {state last : List α × List Bool}

@[simp]
theorem put_eq_ok {place : Nat} {value : α} :
    put taken place value state = .ok last ↔
      state.2[place]? = some false ∧ last = (state.1.set place value, state.2.set place true) := by
  simp only [put, bind_ok, reject_ok, not_not, Except.ok.injEq]
  constructor
  · rintro ⟨-, hfree, hlast⟩
    exact ⟨hfree, hlast.symm⟩
  · rintro ⟨hfree, hlast⟩
    exact ⟨(), hfree, hlast.symm⟩

/-- At some places the sequence is that of `list`, and these places are taken. -/
structure Placed (list : List α) (places : List Nat) (state : List α × List Bool) : Prop where
  length : state.1.length = list.length
  seen : ∀ place < list.length, state.2[place]? = some (decide (place ∈ places))
  values : ∀ place ∈ places, state.1[place]? = list[place]?

namespace Placed

theorem start (list : List α) (blank : α) :
    Placed list [] (List.replicate list.length blank, List.replicate list.length false) where
  length := List.length_replicate
  seen place hplace := by simp [hplace]
  values place hplace := absurd hplace List.not_mem_nil

theorem next (hplaced : Placed list places state) {place : Nat} {value : α}
    (hvalue : list[place]? = some value) (hnew : place ∉ places) :
    ∃ after, put taken place value state = .ok after ∧ Placed list (places ++ [place]) after := by
  have hinside : place < list.length := (List.getElem_of_getElem? hvalue).1
  have hfree := hplaced.seen place hinside
  rw [decide_eq_false hnew] at hfree
  have hmarks : place < state.2.length := (List.getElem_of_getElem? hfree).1
  refine ⟨_, put_eq_ok.mpr ⟨hfree, rfl⟩, ?_, ?_, ?_⟩
  · rw [List.length_set, hplaced.length]
  · intro other hother
    by_cases hsame : other = place
    · subst hsame
      rw [List.getElem?_set_self hmarks]
      simp
    · rw [List.getElem?_set_ne (Ne.symm hsame), hplaced.seen other hother]
      simp [hsame]
  · intro other hother
    by_cases hsame : other = place
    · subst hsame
      rw [List.getElem?_set_self (by rwa [hplaced.length]), hvalue]
    · rw [List.getElem?_set_ne (Ne.symm hsame)]
      have hbefore : other ∈ places := by simpa [hsame] using hother
      exact hplaced.values other hbefore

theorem finish (hplaced : Placed list places state)
    (hall : ∀ place < list.length, place ∈ places) : state.1 = list := by
  apply List.ext_getElem?
  intro place
  by_cases hplace : place < list.length
  · exact hplaced.values place (hall place hplace)
  · rw [List.getElem?_eq_none (Nat.not_lt.mp hplace),
      List.getElem?_eq_none (hplaced.length ▸ Nat.not_lt.mp hplace)]

end Placed

/-- A loop that puts the values of `list` in the order of a permutation restores it. -/
theorem scan_restores {β : Type} {body : Nat → β → List α × List Bool →
      Except Failure (List α × List Bool)} {items : List β} {place : β → Nat} {value : β → α}
    {blank : α} (hperm : (items.map place).Perm (List.range list.length))
    (hvalues : ∀ item ∈ items, list[place item]? = some (value item))
    (hbody : ∀ index item state, items[index]? = some item →
      Placed list ((items.take index).map place) state →
      body index item state = put taken (place item) (value item) state) :
    ∃ marks, scan body 0 items
      (List.replicate list.length blank, List.replicate list.length false) = .ok (list, marks) := by
  have hnodup : (items.map place).Nodup := hperm.nodup_iff.mpr List.nodup_range
  have hsteps : ∀ index item state, items[index]? = some item →
      Placed list ((items.take (0 + index)).map place) state →
      ∃ after, body (0 + index) item state = .ok after ∧
        Placed list ((items.take (0 + index + 1)).map place) after := by
    intro index item state hitem hplaced
    rw [Nat.zero_add] at hplaced ⊢
    have hplace : (items.map place)[index]? = some (place item) := by
      rw [List.getElem?_map, hitem]
      rfl
    have hnew : place item ∉ (items.take index).map place := by
      intro hmem
      rw [List.map_take] at hmem
      obtain ⟨earlier, hearlier⟩ := List.mem_iff_getElem?.mp hmem
      rw [List.getElem?_take] at hearlier
      split at hearlier
      next hbefore =>
        have hindex := (List.getElem_of_getElem? hearlier).1
        exact Nat.ne_of_lt hbefore ((List.getElem?_inj hindex hnodup).mp (hearlier.trans hplace.symm))
      next => cases hearlier
    have hnext : ∃ after, put taken (place item) (value item) state = .ok after ∧
        Placed list ((items.take index).map place ++ [place item]) after :=
      hplaced.next (hvalues item (List.mem_of_getElem? hitem)) hnew
    obtain ⟨after, hput, hafter⟩ := hnext
    refine ⟨after, (hbody index item state hitem hplaced).trans hput, ?_⟩
    rwa [List.take_add_one, hitem, List.map_append]
  have hstart : Placed list ((items.take 0).map place) _ := Placed.start list blank
  obtain ⟨last, hscan, hlast⟩ := scan_total
    (motive := fun index state => Placed list ((items.take index).map place) state) hstart hsteps
  rw [Nat.zero_add, List.take_length] at hlast
  have hlist : last.1 = list := by
    apply hlast.finish
    intro place hplace
    exact hperm.mem_iff.mpr (List.mem_range.mpr hplace)
  exact ⟨last.2, hscan.trans (congrArg Except.ok (Prod.ext hlist rfl))⟩

variable {pairs : List (α × Nat)}

theorem scan_put_nodup {position : Nat}
    (hscan : scan (fun _ pair => put taken pair.2 pair.1) position pairs state = .ok last) :
    (∀ pair ∈ pairs, state.2[pair.2]? = some false) ∧ (pairs.map Prod.snd).Nodup := by
  induction pairs generalizing position state with
  | nil => exact ⟨by simp, List.nodup_nil⟩
  | cons pair pairs ih =>
    obtain ⟨after, hput, hrest⟩ := bind_ok.mp hscan
    obtain ⟨hfree, rfl⟩ := put_eq_ok.mp hput
    obtain ⟨hothers, hnodup⟩ := ih hrest
    have hmarks : pair.2 < state.2.length := (List.getElem_of_getElem? hfree).1
    have hapart : ∀ other ∈ pairs, other.2 ≠ pair.2 := by
      intro other hother hsame
      have hstill := hothers other hother
      rw [hsame, List.getElem?_set_self hmarks] at hstill
      cases hstill
    constructor
    · refine List.forall_mem_cons.mpr ⟨hfree, fun other hother => ?_⟩
      have hstill := hothers other hother
      rwa [List.getElem?_set_ne (Ne.symm (hapart other hother))] at hstill
    · refine List.nodup_cons.mpr ⟨fun hmem => ?_, hnodup⟩
      obtain ⟨other, hother, hsame⟩ := List.mem_map.mp hmem
      exact hapart other hother hsame

theorem putAll_restores {blank : α} (hperm : (pairs.map Prod.snd).Perm (List.range list.length))
    (hvalues : ∀ pair ∈ pairs, list[pair.2]? = some pair.1) :
    ∃ marks, putAll taken pairs
      (List.replicate list.length blank, List.replicate list.length false) = .ok (list, marks) :=
  scan_restores hperm hvalues fun _ _ _ _ _ => rfl

theorem putAll_nodup (hputAll : putAll taken pairs state = .ok last) :
    (pairs.map Prod.snd).Nodup :=
  (scan_put_nodup hputAll).2

theorem length_foldl_set (writes : List (Nat × α)) (values : List α) :
    (writes.foldl (fun values (place, value) => values.set place value) values).length =
      values.length := by
  induction writes generalizing values with
  | nil => rfl
  | cons write writes ih => exact (ih _).trans (List.length_set ..)

theorem getElem?_foldl_set {writes : List (Nat × α)} {values : List α} {place : Nat} {value : α}
    (hplace : place < values.length) (hmem : (place, value) ∈ writes)
    (honly : ∀ other, (place, other) ∈ writes → other = value) :
    (writes.foldl (fun values (place, value) => values.set place value) values)[place]? =
      some value := by
  induction writes using List.reverseRecOn with
  | nil => exact absurd hmem List.not_mem_nil
  | append_singleton writes last ih =>
    obtain ⟨other, written⟩ := last
    rw [List.foldl_append, List.foldl_cons, List.foldl_nil]
    by_cases hsame : other = place
    · subst hsame
      rw [honly written (by simp)]
      exact List.getElem?_set_self (by rwa [length_foldl_set])
    · rw [List.getElem?_set_ne hsame]
      refine ih ?_ fun value hvalue => honly value (List.mem_append_left _ hvalue)
      rcases List.mem_append.mp hmem with hfront | hback
      · exact hfront
      · exact absurd (congrArg Prod.fst (List.mem_singleton.mp hback)).symm hsame

end Foundation

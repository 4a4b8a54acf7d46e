import Mathlib

/-! # Best-first search

A search over a graph keeps candidates in a queue of bounded size, with a cursor at the first
one to expand. Each step expands it and offers its neighbors that were not seen to the queue,
which may turn candidates away. Every node is expanded at most once.
-/

namespace Foundation

universe uId uDistance

variable {Id : Type uId} {Distance : Type uDistance} [DecidableEq Id]

structure Candidate (Id : Type uId) (Distance : Type uDistance) where
  id : Id
  distance : Distance
  expanded : Bool := false

/-- The nearer candidate comes first, and of two as near the one with the smaller id. -/
def Candidate.Before [LinearOrder Id] [LinearOrder Distance] (first second : Candidate Id Distance) :
    Prop :=
  first.distance < second.distance ∨ first.distance = second.distance ∧ first.id < second.id

instance [LinearOrder Id] [LinearOrder Distance] :
    DecidableRel (@Candidate.Before Id Distance _ _) :=
  fun _ _ => inferInstanceAs (Decidable (_ ∨ _ ∧ _))

omit [DecidableEq Id] in
theorem Candidate.not_before_of_eq [LinearOrder Id] [LinearOrder Distance]
    {first second : Candidate Id Distance} (hid : first.id = second.id)
    (hdistance : first.distance = second.distance) : ¬ first.Before second := by
  simp [Before, hid, hdistance]

omit [DecidableEq Id] in
theorem Candidate.Before.asymm [LinearOrder Id] [LinearOrder Distance]
    {first second : Candidate Id Distance} (hbefore : first.Before second) :
    ¬ second.Before first := by
  rintro (hnear | ⟨hsame, hid⟩)
  · exact hbefore.elim (fun hfar => lt_asymm hfar hnear) fun heq => hnear.ne' heq.1
  · exact hbefore.elim (fun hfar => hfar.ne' hsame) fun heq => lt_asymm heq.2 hid

structure CandidateQueue (Id : Type uId) (Distance : Type uDistance) where
  items : List (Candidate Id Distance) := []
  capacity : Nat
  cursor : Nat := 0

namespace CandidateQueue

variable (queue : CandidateQueue Id Distance)

/-- A candidate to expand comes in at `place`; what does not fit any more falls out behind. -/
def insertAt (id : Id) (distance : Distance) (place : Nat) : CandidateQueue Id Distance :=
  { queue with
    items := (queue.items.take place ++ ⟨id, distance, false⟩ :: queue.items.drop place).take
      queue.capacity
    cursor := if place < queue.cursor then place else queue.cursor }

/-- The first place from `place` on with a candidate to expand, or the end. -/
def skipExpanded (items : List (Candidate Id Distance)) (place : Nat) : Nat :=
  place + (items.drop place).findIdx fun item => !item.expanded

/-- The candidate at the cursor counts as expanded. -/
def markExpanded : CandidateQueue Id Distance :=
  let items := queue.items.modify queue.cursor fun item => { item with expanded := true }
  { queue with items := items, cursor := skipExpanded items queue.cursor }

/-- The cursor is at a candidate to expand or at the end, and no two candidates are of one
node. -/
structure Sound : Prop where
  nodup : (queue.items.map Candidate.id).Nodup
  cursor : ∀ item, queue.items[queue.cursor]? = some item → item.expanded = false
  length : queue.items.length ≤ queue.capacity
  cursor_le : queue.cursor ≤ queue.items.length

variable {queue}

omit [DecidableEq Id] in
theorem mem_insertAt {id : Id} {distance : Distance} {place : Nat} {item : Candidate Id Distance}
    (hitem : item ∈ (queue.insertAt id distance place).items) :
    item ∈ queue.items ∨ item = ⟨id, distance, false⟩ := by
  rcases List.mem_append.mp (List.mem_of_mem_take hitem) with hfront | hback
  · exact .inl (List.mem_of_mem_take hfront)
  · rcases List.mem_cons.mp hback with hnew | hback
    · exact .inr hnew
    · exact .inl (List.mem_of_mem_drop hback)

omit [DecidableEq Id] in
theorem Sound.insertAt (hsound : queue.Sound) {id : Id} {distance : Distance} {place : Nat}
    (hplace : place ≤ queue.items.length) (hnew : id ∉ queue.items.map Candidate.id) :
    (queue.insertAt id distance place).Sound where
  nodup := by
    have hall : ((queue.items.take place ++ ⟨id, distance, false⟩ :: queue.items.drop place).map
        Candidate.id).Nodup := by
      have hsplit := hsound.nodup
      rw [← List.take_append_drop place queue.items, List.map_append] at hsplit hnew
      rw [List.map_append, List.map_cons]
      refine (List.perm_middle.nodup_iff).mpr (List.nodup_cons.mpr ⟨hnew, hsplit⟩)
    exact (hall.sublist ((List.take_sublist _ _).map _))
  cursor item hitem := by
    simp only [CandidateQueue.insertAt] at hitem
    rw [List.getElem?_take] at hitem
    obtain ⟨-, hitem⟩ := Option.ite_none_right_eq_some.mp hitem
    have hfront : (queue.items.take place).length = place := by simp [hplace]
    split at hitem
    · next hearly =>
        rw [List.getElem?_append_right (by omega), hfront, Nat.sub_self, List.getElem?_cons_zero,
          Option.some_inj] at hitem
        rw [← hitem]
    · next hlate =>
        rcases Nat.lt_or_eq_of_le (Nat.not_lt.mp hlate) with hless | hsame
        · rw [List.getElem?_append_left (by omega), List.getElem?_take_of_lt hless] at hitem
          exact hsound.cursor item hitem
        · rw [List.getElem?_append_right (by omega), hfront, hsame, Nat.sub_self,
            List.getElem?_cons_zero, Option.some_inj] at hitem
          rw [← hitem]
  length := List.length_take_le _ _
  cursor_le := by
    have hlength := hsound.length
    have hcursor := hsound.cursor_le
    simp only [CandidateQueue.insertAt, List.length_take, List.length_append, List.length_cons,
      List.length_drop]
    split <;> omega

omit [DecidableEq Id] in
theorem map_modify_expanded (items : List (Candidate Id Distance)) (place : Nat) :
    (items.modify place fun item => { item with expanded := true }).map Candidate.id =
      items.map Candidate.id := by
  apply List.ext_getElem
  · simp
  · intro other hleft hright
    rw [List.getElem_map, List.getElem_map, List.getElem_modify]
    split <;> rfl

omit [DecidableEq Id] in
theorem Sound.markExpanded (hsound : queue.Sound) : queue.markExpanded.Sound where
  nodup := by
    have hids := map_modify_expanded queue.items queue.cursor
    exact hids ▸ hsound.nodup
  cursor item hitem := by
    simp only [CandidateQueue.markExpanded, skipExpanded, ← List.getElem?_drop] at hitem
    simpa using List.findIdx_of_getElem?_eq_some hitem
  length := by
    rw [CandidateQueue.markExpanded, List.length_modify]
    exact hsound.length
  cursor_le := by
    have hcursor := hsound.cursor_le
    have hskip := @List.findIdx_le_length _ (fun item : Candidate Id Distance => !item.expanded)
      ((queue.items.modify queue.cursor fun item => { item with expanded := true }).drop
        queue.cursor)
    rw [List.length_drop, List.length_modify] at hskip
    simp only [CandidateQueue.markExpanded, skipExpanded, List.length_modify]
    omega

omit [DecidableEq Id] in
theorem mem_markExpanded (hsound : queue.Sound) {current item : Candidate Id Distance}
    (hcurrent : queue.items[queue.cursor]? = some current)
    (hitem : item ∈ queue.markExpanded.items) :
    ∃ old ∈ queue.items, item.id = old.id ∧
      (item.expanded = false → old.expanded = false ∧ item.id ≠ current.id) := by
  obtain ⟨place, hplace, rfl⟩ := List.mem_iff_getElem.mp hitem
  simp only [CandidateQueue.markExpanded, List.length_modify] at hplace
  refine ⟨queue.items[place], List.getElem_mem hplace, ?_⟩
  simp only [CandidateQueue.markExpanded, List.getElem_modify]
  split
  · exact ⟨rfl, fun hopen => by cases hopen⟩
  · next hother =>
      refine ⟨rfl, fun hopen => ⟨hopen, fun hsame => hother ?_⟩⟩
      obtain ⟨hcursor, rfl⟩ := List.getElem_of_getElem? hcurrent
      have hids : (queue.items.map Candidate.id)[place]? =
          (queue.items.map Candidate.id)[queue.cursor]? := by
        simpa [hplace, hcursor] using hsame
      exact ((List.getElem?_inj (by simpa using hplace) hsound.nodup).mp hids).symm

end CandidateQueue

/-- A graph around a query, with the way in which its queue takes candidates and in which the
neighbors that were seen are left out. -/
structure BestFirst (Id : Type uId) (Distance : Type uDistance) [DecidableEq Id] where
  distance : Id → Distance
  neighbors : Id → List Id
  insert : CandidateQueue Id Distance → Id → Distance → CandidateQueue Id Distance
  unseen : List Id → List Id → List Id

/-- The queue, the nodes that were seen, and the expanded candidates. -/
structure SearchState (Id : Type uId) (Distance : Type uDistance) where
  queue : CandidateQueue Id Distance
  visited : List Id := []
  pool : List (Candidate Id Distance) := []

namespace BestFirst

variable (search : BestFirst Id Distance)

/-- Nodes that were not seen are marked and offered. -/
def offer (state : SearchState Id Distance) (nodes : List Id) : SearchState Id Distance :=
  let fresh := search.unseen state.visited nodes
  { state with
    queue := fresh.foldl (fun queue id => search.insert queue id (search.distance id)) state.queue
    visited := fresh ++ state.visited }

/-- The candidate at the cursor is expanded, if there is one. -/
def step (state : SearchState Id Distance) : SearchState Id Distance :=
  match state.queue.items[state.queue.cursor]? with
  | none => state
  | some current =>
    search.offer
      { state with
        queue := state.queue.markExpanded
        pool := state.pool ++ [{ current with expanded := true }] }
      (search.neighbors current.id)

/-- The search with at most `fuel` expansions. -/
def run (capacity fuel : Nat) (starts : List Id) : SearchState Id Distance :=
  search.step^[fuel] (search.offer { queue := { capacity := capacity } } starts)

/-- The queue takes one candidate at some place or not at all, and what is left to offer is of
the neighbors, not seen, and each once. -/
structure Lawful (search : BestFirst Id Distance) : Prop where
  insert : ∀ queue id distance, queue.Sound → search.insert queue id distance = queue ∨
    ∃ place ≤ queue.items.length, search.insert queue id distance =
      queue.insertAt id distance place
  unseen : ∀ visited nodes, nodes.Nodup → (search.unseen visited nodes).Nodup ∧
    ∀ id ∈ search.unseen visited nodes, id ∈ nodes ∧ id ∉ visited

variable {search}

/-- The expanded candidates are of different nodes, and none of them is expanded again. -/
structure Searching (valid : Id → Prop) (state : SearchState Id Distance) : Prop where
  sound : state.queue.Sound
  seen : ∀ item ∈ state.queue.items, item.id ∈ state.visited
  toExpand : ∀ item ∈ state.queue.items, item.expanded = false →
    item.id ∉ state.pool.map Candidate.id
  poolSeen : ∀ item ∈ state.pool, item.id ∈ state.visited
  pool : (state.pool.map Candidate.id).Nodup
  valid : ∀ id ∈ state.visited, valid id

variable {valid : Id → Prop} {state : SearchState Id Distance}

theorem Searching.offer (hlawful : search.Lawful) (hsearching : Searching valid state)
    {nodes : List Id} (hnodup : nodes.Nodup) (hvalid : ∀ id ∈ nodes, valid id) :
    Searching valid (search.offer state nodes) := by
  obtain ⟨hfresh, hunseen⟩ := hlawful.unseen state.visited nodes hnodup
  -- The queue after some of the fresh nodes.
  suffices hqueue : ∀ fresh : List Id, fresh.Nodup →
      (∀ id ∈ fresh, id ∉ state.visited) → ∀ queue : CandidateQueue Id Distance, queue.Sound →
      (∀ item ∈ queue.items, item.id ∉ fresh) →
      (fresh.foldl (fun queue id => search.insert queue id (search.distance id)) queue).Sound ∧
      ∀ item ∈ (fresh.foldl (fun queue id => search.insert queue id (search.distance id))
        queue).items, item ∈ queue.items ∨ item.id ∈ fresh by
    obtain ⟨hsound, hitems⟩ := hqueue _ hfresh (fun id hid => (hunseen id hid).2) state.queue
      hsearching.sound fun item hitem hmem => (hunseen _ hmem).2 (hsearching.seen item hitem)
    constructor
    case sound => exact hsound
    case seen =>
      intro item hitem
      rcases hitems item hitem with hold | hnew
      · exact List.mem_append_right _ (hsearching.seen item hold)
      · exact List.mem_append_left _ hnew
    case toExpand =>
      intro item hitem hopen
      rcases hitems item hitem with hold | hnew
      · exact hsearching.toExpand item hold hopen
      · intro hpool
        obtain ⟨other, hother, hsame⟩ := List.mem_map.mp hpool
        exact (hunseen _ hnew).2 (hsame ▸ hsearching.poolSeen other hother)
    case poolSeen => exact fun item hitem => List.mem_append_right _ (hsearching.poolSeen item hitem)
    case pool => exact hsearching.pool
    case valid =>
      intro id hid
      rcases List.mem_append.mp hid with hnew | hold
      · exact hvalid id (hunseen id hnew).1
      · exact hsearching.valid id hold
  intro fresh
  induction fresh with
  | nil => exact fun _ _ queue hsound _ => ⟨hsound, fun item hitem => .inl hitem⟩
  | cons id fresh ih =>
    intro hnodup hout queue hsound hqueue
    obtain ⟨hid, hfresh⟩ := List.nodup_cons.mp hnodup
    have hnew : id ∉ queue.items.map Candidate.id := fun hmem => by
      obtain ⟨item, hitem, rfl⟩ := List.mem_map.mp hmem
      exact hqueue item hitem List.mem_cons_self
    rw [List.foldl_cons]
    rcases hlawful.insert queue id (search.distance id) hsound with hsame | ⟨place, hplace, hinsert⟩
    · rw [hsame]
      obtain ⟨hafter, hitems⟩ := ih hfresh (fun other hother => hout other (List.mem_cons_of_mem _ hother))
        queue hsound fun item hitem hmem => hqueue item hitem (List.mem_cons_of_mem _ hmem)
      exact ⟨hafter, fun item hitem => (hitems item hitem).imp_right (List.mem_cons_of_mem _)⟩
    · rw [hinsert]
      obtain ⟨hafter, hitems⟩ := ih hfresh (fun other hother => hout other (List.mem_cons_of_mem _ hother))
        _ (hsound.insertAt hplace hnew) fun item hitem hmem => by
          rcases CandidateQueue.mem_insertAt hitem with hold | rfl
          · exact hqueue item hold (List.mem_cons_of_mem _ hmem)
          · exact hid hmem
      refine ⟨hafter, fun item hitem => ?_⟩
      rcases hitems item hitem with hqueued | hlater
      · rcases CandidateQueue.mem_insertAt hqueued with hold | rfl
        · exact .inl hold
        · exact .inr List.mem_cons_self
      · exact .inr (List.mem_cons_of_mem _ hlater)

theorem Searching.step (hlawful : search.Lawful) (hsearching : Searching valid state)
    (hneighbors : ∀ id, valid id → (search.neighbors id).Nodup ∧
      ∀ neighbor ∈ search.neighbors id, valid neighbor) :
    Searching valid (search.step state) := by
  rw [BestFirst.step]
  cases hcurrent : state.queue.items[state.queue.cursor]? with
  | none => exact hsearching
  | some current =>
    have hmem : current ∈ state.queue.items := List.mem_of_getElem? hcurrent
    have hvalid := hneighbors current.id (hsearching.valid _ (hsearching.seen current hmem))
    refine Searching.offer hlawful ?_ hvalid.1 hvalid.2
    have hopen := hsearching.sound.cursor current hcurrent
    constructor
    case sound => exact hsearching.sound.markExpanded
    case seen =>
      intro item hitem
      obtain ⟨old, hold, hsame, -⟩ :=
        CandidateQueue.mem_markExpanded hsearching.sound hcurrent hitem
      exact hsame ▸ hsearching.seen old hold
    case toExpand =>
      intro item hitem hitemOpen
      obtain ⟨old, hold, hsame, hother⟩ :=
        CandidateQueue.mem_markExpanded hsearching.sound hcurrent hitem
      obtain ⟨holdOpen, hne⟩ := hother hitemOpen
      rw [List.map_append, List.mem_append, not_or]
      exact ⟨hsame ▸ hsearching.toExpand old hold holdOpen, by simpa using hne⟩
    case poolSeen =>
      intro item hitem
      rcases List.mem_append.mp hitem with hold | hnew
      · exact hsearching.poolSeen item hold
      · obtain rfl := List.mem_singleton.mp hnew
        exact hsearching.seen current hmem
    case pool =>
      rw [List.map_append]
      refine List.nodup_append.mpr ⟨hsearching.pool, List.nodup_singleton _, ?_⟩
      intro first hfirst last hlast hsame
      obtain rfl := List.mem_singleton.mp hlast
      exact hsearching.toExpand current hmem hopen (hsame ▸ hfirst)
    case valid => exact hsearching.valid

omit [DecidableEq Id] in
theorem searching_empty (valid : Id → Prop) (capacity : Nat) :
    Searching valid ({ queue := { capacity := capacity } } : SearchState Id Distance) := by
  refine ⟨⟨.nil, ?_, ?_, ?_⟩, ?_, ?_, ?_, .nil, ?_⟩ <;> simp

theorem run_searching (hlawful : search.Lawful) (capacity fuel : Nat) {starts : List Id}
    (hnodup : starts.Nodup) (hstarts : ∀ id ∈ starts, valid id)
    (hneighbors : ∀ id, valid id → (search.neighbors id).Nodup ∧
      ∀ neighbor ∈ search.neighbors id, valid neighbor) :
    Searching valid (search.run capacity fuel starts) := by
  rw [run]
  induction fuel with
  | zero => exact (searching_empty valid capacity).offer hlawful hnodup hstarts
  | succ fuel ih =>
    rw [Function.iterate_succ_apply']
    exact ih.step hlawful hneighbors

/-- Candidates come with their own distances. -/
structure Measured (search : BestFirst Id Distance) (state : SearchState Id Distance) : Prop where
  queue : ∀ item ∈ state.queue.items, item.distance = search.distance item.id
  pool : ∀ item ∈ state.pool, item.distance = search.distance item.id

section

variable
  (hinsert : ∀ queue id distance, ∀ item ∈ (search.insert queue id distance).items, item ∈
    queue.items ∨ item = ⟨id, distance, false⟩)
include hinsert

theorem Measured.offer (hmeasured : search.Measured state) (nodes : List Id) :
    search.Measured (search.offer state nodes) := by
  refine ⟨?_, hmeasured.pool⟩
  refine List.foldlRecOn (motive := fun queue : CandidateQueue Id Distance =>
    ∀ item ∈ queue.items, item.distance = search.distance item.id) _ _ hmeasured.queue ?_
  intro queue hqueue id _ item hitem
  rcases hinsert queue id _ item hitem with hold | rfl
  · exact hqueue item hold
  · rfl

theorem Measured.run (capacity fuel : Nat) (starts : List Id) :
    search.Measured (search.run capacity fuel starts) := by
  rw [BestFirst.run]
  induction fuel with
  | zero =>
    exact Measured.offer hinsert ⟨by simp, by simp⟩ starts
  | succ fuel ih =>
    rw [Function.iterate_succ_apply', BestFirst.step]
    split
    · exact ih
    · next current hcurrent =>
        refine Measured.offer hinsert ⟨?_, ?_⟩ _
        · intro item hitem
          obtain ⟨place, hplace, rfl⟩ := List.mem_iff_getElem.mp hitem
          simp only [CandidateQueue.markExpanded, List.length_modify] at hplace
          have hold := ih.queue _ (List.getElem_mem hplace)
          simp only [CandidateQueue.markExpanded, List.getElem_modify]
          split <;> exact hold
        · intro item hitem
          rcases List.mem_append.mp hitem with hold | hnew
          · exact ih.pool item hold
          · obtain rfl := List.mem_singleton.mp hnew
            exact ih.queue current (List.mem_of_getElem? hcurrent)

end

/-- Nothing is left to expand. -/
def Finished (state : SearchState Id Distance) : Prop :=
  state.queue.items[state.queue.cursor]? = none

theorem step_finished (hfinished : Finished state) : search.step state = state := by
  rw [BestFirst.step, hfinished]

theorem length_run_pool (capacity fuel : Nat) (starts : List Id) :
    (search.run capacity fuel starts).pool.length = fuel ∨
      Finished (search.run capacity fuel starts) := by
  induction fuel with
  | zero => exact .inl rfl
  | succ fuel ih =>
    rw [run, Function.iterate_succ_apply', ← run]
    rcases ih with hlength | hfinished
    · rw [BestFirst.step]
      cases hcurrent : (search.run capacity fuel starts).queue.items[
        (search.run capacity fuel starts).queue.cursor]? with
      | none => exact .inr hcurrent
      | some current =>
        left
        simp only [BestFirst.offer, List.length_append, List.length_singleton, hlength]
    · rw [step_finished hfinished]
      exact .inr hfinished

theorem run_finished (hlawful : search.Lawful) (capacity : Nat) {starts : List Id}
    (nodes : Finset Id) (hnodup : starts.Nodup) (hstarts : ∀ id ∈ starts, id ∈ nodes)
    (hneighbors : ∀ id ∈ nodes, (search.neighbors id).Nodup ∧
      ∀ neighbor ∈ search.neighbors id, neighbor ∈ nodes) :
    Finished (search.run capacity nodes.card starts) := by
  have hsearching := @run_searching _ _ _ search (· ∈ nodes) hlawful capacity nodes.card starts
    hnodup hstarts hneighbors
  refine (length_run_pool capacity nodes.card starts).elim (fun hlength => ?_) id
  generalize search.run capacity nodes.card starts = state at hsearching hlength ⊢
  rw [Finished, Option.eq_none_iff_forall_ne_some]
  intro current hcurrent
  -- The candidate to expand is one node more than there are.
  have hmem := List.mem_of_getElem? hcurrent
  have hnew := hsearching.toExpand current hmem (hsearching.sound.cursor current hcurrent)
  have hsubset : current.id :: state.pool.map Candidate.id ⊆ nodes.toList := by
    intro id hid
    rw [Finset.mem_toList]
    rcases List.mem_cons.mp hid with rfl | hpool
    · exact hsearching.valid _ (hsearching.seen current hmem)
    · obtain ⟨item, hitem, rfl⟩ := List.mem_map.mp hpool
      exact hsearching.valid _ (hsearching.poolSeen item hitem)
  have hlong := ((List.nodup_cons.mpr ⟨hnew, hsearching.pool⟩).subperm hsubset).length_le
  rw [List.length_cons, List.length_map, hlength, Finset.length_toList] at hlong
  exact Nat.not_succ_le_self _ hlong

end BestFirst

end Foundation

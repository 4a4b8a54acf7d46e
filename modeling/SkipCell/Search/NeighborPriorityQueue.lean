import SkipCell.Search.NeighborQueue

/-! # The slots of the candidate queue

`data_` has one slot more than the capacity, and the entries are its first ones. Over any
sequence of calls the entries stay sorted with different ids and the cursor stays at the
first one to expand, exactly as long as no insertion passes by an entry with its id and no
update uncovers an expanded entry at the cursor.
-/

namespace SkipCell.Search

open Foundation

/-- `std::memmove` between slots. -/
def memmove (data : List Neighbor) (target source count : Nat) : List Neighbor :=
  data.take target ++ (data.drop source).take count ++ data.drop (target + count)

/-- `neighbor_priority_queue_t`. -/
structure NeighborPriorityQueue where
  size : Nat := 0
  capacity : Nat
  cur : Nat := 0
  data : List Neighbor
  deriving DecidableEq

namespace NeighborPriorityQueue

/-- The constructor, which sets all slots to zero. -/
def withCapacity (capacity : Nat) : NeighborPriorityQueue where
  capacity := capacity
  data := List.replicate (capacity + 1) ⟨0, .zero, false⟩

/-- The first test of `insert`, which reads in front of the slots where there is no entry. -/
def rejects (queue : NeighborPriorityQueue) (nbr : Neighbor) : Option Bool :=
  if queue.size = queue.capacity then
    if queue.size = 0 then none
    else queue.data[queue.size - 1]?.map fun last => last.precedes nbr
  else some false

/-- The end of `insert`. -/
def write (queue : NeighborPriorityQueue) (nbr : Neighbor) (lo : Nat) : NeighborPriorityQueue :=
  let data :=
    if lo < queue.capacity then memmove queue.data (lo + 1) lo (queue.size - lo) else queue.data
  { queue with
    data := data.set lo ⟨nbr.id, nbr.distance, false⟩
    size := if queue.size < queue.capacity then queue.size + 1 else queue.size
    cur := if lo < queue.cur then lo else queue.cur }

/-- `insert`, or nothing where it reads outside of the slots. -/
def insert (queue : NeighborPriorityQueue) (nbr : Neighbor) : Option NeighborPriorityQueue :=
  (queue.rejects nbr).map fun rejected =>
    if rejected then queue
    else
      match NeighborQueue.search queue.data nbr (queue.size + 1) 0 queue.size with
      | none => queue
      | some lo => queue.write nbr lo

/-- The body of the loop of `insert_or_update`. -/
def remove (queue : NeighborPriorityQueue) (position : Nat) : NeighborPriorityQueue :=
  { queue with
    data :=
      if position + 1 < queue.size then
        memmove queue.data position (position + 1) (queue.size - position - 1)
      else queue.data
    size := queue.size - 1
    cur := if position < queue.cur then queue.cur - 1 else queue.cur }

def insertOrUpdate (queue : NeighborPriorityQueue) (nbr : Neighbor) :
    Option NeighborPriorityQueue :=
  match (queue.data.take queue.size).findIdx? fun item => decide (item.id = nbr.id) with
  | none => queue.insert nbr
  | some position => (queue.remove position).insert nbr

/-- `closest_unexpanded`, which returns the slot at the cursor also where no entry is left. -/
def closestUnexpanded (queue : NeighborPriorityQueue) :
    Option (NeighborPriorityQueue × Neighbor) :=
  queue.data[queue.cur]?.map fun slot =>
    let data := queue.data.set queue.cur { slot with expanded := true }
    ({ queue with
        data := data
        cur := NeighborQueue.skipExpanded (data.take queue.size) queue.cur },
      { slot with expanded := true })

/-- The queue by its entries. -/
def view (queue : NeighborPriorityQueue) : NeighborQueue where
  items := queue.data.take queue.size
  capacity := queue.capacity
  cursor := queue.cur

/-- There is a slot behind the entries of a full queue. -/
structure Fits (queue : NeighborPriorityQueue) : Prop where
  size : queue.size ≤ queue.capacity
  slots : queue.capacity < queue.data.length

variable {queue : NeighborPriorityQueue} {nbr : Neighbor}

theorem Fits.length_items (hfits : queue.Fits) : queue.view.items.length = queue.size := by
  have hsize := hfits.size
  have hslots := hfits.slots
  simp only [view, List.length_take]
  omega

theorem rejects_eq (hfits : queue.Fits) (hcapacity : 0 < queue.capacity) :
    queue.rejects nbr = some (queue.view.rejects nbr) := by
  have hlength := hfits.length_items
  have hslots := hfits.slots
  unfold rejects NeighborQueue.rejects
  rw [hlength]
  change _ = some (decide (queue.size = queue.capacity) && _)
  by_cases hfull : queue.size = queue.capacity
  · rw [if_pos hfull, if_neg (by omega), decide_eq_true hfull, List.getLast?_eq_getElem?, hlength]
    have hlast : queue.view.items[queue.size - 1]? = queue.data[queue.size - 1]? :=
      List.getElem?_take_of_lt (by omega)
    rw [hlast, List.getElem?_eq_getElem (by omega)]
    simp
  · simp [hfull]

theorem search_take (data : List Neighbor) (size : Nat) {fuel low high : Nat} (hhigh : high ≤ size) :
    NeighborQueue.search data nbr fuel low high =
      NeighborQueue.search (data.take size) nbr fuel low high := by
  induction fuel generalizing low high with
  | zero => rfl
  | succ fuel ih =>
    rw [NeighborQueue.search, NeighborQueue.search]
    split
    next hopen =>
      rw [List.getElem?_take_of_lt (by omega)]
      cases data[(low + high) / 2]? with
      | none => rfl
      | some other => simp only [ih hhigh, ih (show (low + high) / 2 ≤ size by omega)]
    next => rfl

theorem take_write {data : List Neighbor} {size capacity lo : Nat} {item : Neighbor}
    (hlo : lo ≤ size) (hcapacity : lo < capacity) (hsize : size ≤ capacity)
    (hslots : capacity < data.length) :
    ((memmove data (lo + 1) lo (size - lo)).set lo item).take
        (if size < capacity then size + 1 else size) =
      ((data.take size).take lo ++ item :: (data.take size).drop lo).take capacity := by
  have hfront : (data.take (lo + 1)).set lo item = data.take lo ++ [item] := by
    rw [List.take_succ_eq_append_getElem (by omega), List.set_append_right _ _ (by simp)]
    simp [Nat.min_eq_left (show lo ≤ data.length by omega)]
  have hmoved : (memmove data (lo + 1) lo (size - lo)).set lo item =
      (data.take lo ++ item :: (data.take size).drop lo) ++ data.drop (size + 1) := by
    rw [memmove, List.append_assoc, List.set_append_left _ _ (by simp; omega), hfront,
      List.drop_take]
    simp [show lo + 1 + (size - lo) = size + 1 by omega]
  have hlength : (data.take lo ++ item :: (data.take size).drop lo).length = size + 1 := by
    simp
    omega
  rw [hmoved, List.take_take, Nat.min_eq_left hlo]
  generalize data.take lo ++ item :: (data.take size).drop lo = entries at hlength
  split
  next hopen => rw [List.take_left' hlength, List.take_of_length_le (by omega)]
  next hfull =>
    rw [List.take_append_of_le_length (by omega), show capacity = size by omega]

theorem write_spec (hfits : queue.Fits) {lo : Nat} (hlo : lo ≤ queue.size)
    (hcapacity : lo < queue.capacity) :
    (queue.write nbr lo).Fits ∧ (queue.write nbr lo).capacity = queue.capacity ∧
      (queue.write nbr lo).view =
        { queue.view with
          items := (queue.view.items.take lo ++
            ⟨nbr.id, nbr.distance, false⟩ :: queue.view.items.drop lo).take queue.capacity
          cursor := if lo < queue.cur then lo else queue.cur } := by
  have hsize := hfits.size
  have hslots := hfits.slots
  refine ⟨⟨?_, ?_⟩, rfl, ?_⟩
  · simp only [write]
    split <;> omega
  · simp only [write, if_pos hcapacity, List.length_set, memmove, List.length_append,
      List.length_take, List.length_drop]
    omega
  · simp only [write, view, if_pos hcapacity, take_write hlo hcapacity hsize hslots]

theorem insert_spec (hfits : queue.Fits) (hcomparable : queue.view.Comparable)
    (hcapacity : 0 < queue.capacity) (hnumber : nbr.IsNumber) :
    ∃ next, queue.insert nbr = some next ∧ next.Fits ∧ next.capacity = queue.capacity ∧
      next.view = queue.view.insert nbr := by
  have hsearch : NeighborQueue.search queue.data nbr (queue.size + 1) 0 queue.size =
      NeighborQueue.search queue.view.items nbr (queue.view.items.length + 1) 0
        queue.view.items.length := by
    rw [hfits.length_items]
    exact search_take queue.data queue.size (Nat.le_refl _)
  unfold insert NeighborQueue.insert
  rw [rejects_eq hfits hcapacity, hsearch, NeighborQueue.search_items hcomparable hnumber]
  cases hrejects : queue.view.rejects nbr with
  | true => exact ⟨queue, rfl, hfits, rfl, rfl⟩
  | false =>
    by_cases hmeets : NeighborQueue.Meets queue.view.items nbr
    · rw [if_pos hmeets]
      exact ⟨queue, rfl, hfits, rfl, rfl⟩
    · rw [if_neg hmeets]
      have hplace : NeighborQueue.place queue.view.items nbr < queue.capacity :=
        NeighborQueue.place_lt_capacity hcomparable hcapacity hnumber hrejects hmeets
      have hinside : NeighborQueue.place queue.view.items nbr ≤ queue.size := by
        rw [← hfits.length_items]
        exact boundary_le _ _
      exact ⟨_, rfl, write_spec hfits hinside hplace⟩

theorem remove_spec (hfits : queue.Fits) {position : Nat} (hposition : position < queue.size) :
    (queue.remove position).Fits ∧ (queue.remove position).capacity = queue.capacity ∧
      (queue.remove position).view =
        { queue.view with
          items := queue.view.items.eraseIdx position
          cursor := if position < queue.cur then queue.cur - 1 else queue.cur } := by
  have hsize := hfits.size
  have hslots := hfits.slots
  have hitems : (if position + 1 < queue.size then
        memmove queue.data position (position + 1) (queue.size - position - 1)
      else queue.data).take (queue.size - 1) =
      (queue.data.take queue.size).eraseIdx position := by
    rw [List.eraseIdx_eq_take_drop_succ, List.take_take, List.drop_take,
      Nat.min_eq_left hposition.le]
    split
    next hbehind =>
      have hlength : (queue.data.take position ++
          (queue.data.drop (position + 1)).take (queue.size - position - 1)).length =
          queue.size - 1 := by
        simp
        omega
      rw [memmove, List.take_left' hlength, Nat.sub_sub]
    next hlast =>
      rw [show queue.size - (position + 1) = 0 by omega, List.take_zero, List.append_nil]
      congr 1
      omega
  refine ⟨⟨?_, ?_⟩, rfl, ?_⟩
  · exact (Nat.sub_le _ _).trans hsize
  · simp only [remove]
    split
    · simp only [memmove, List.length_append, List.length_take, List.length_drop]
      omega
    · exact hslots
  · simp only [remove, view, hitems]

theorem insertOrUpdate_spec (hfits : queue.Fits) (hordered : queue.view.Ordered)
    (hcapacity : 0 < queue.capacity) (hfinite : nbr.distance.isFinite = true) :
    ∃ next, queue.insertOrUpdate nbr = some next ∧ next.Fits ∧ next.capacity = queue.capacity ∧
      next.view = queue.view.insertOrUpdate nbr := by
  have hkept := hordered.forget nbr.id
  have hnumber := Neighbor.isNumber_of_isFinite hfinite
  have hfind : (queue.data.take queue.size).findIdx? (fun item => decide (item.id = nbr.id)) =
      queue.view.items.findIdx? fun item => decide (item.id = nbr.id) := rfl
  unfold insertOrUpdate NeighborQueue.insertOrUpdate
  unfold NeighborQueue.forget at hkept ⊢
  rw [hfind]
  cases hfound : queue.view.items.findIdx? fun item => decide (item.id = nbr.id) with
  | none => exact insert_spec hfits hordered.comparable hcapacity hnumber
  | some position =>
    rw [hfound] at hkept
    have hposition : position < queue.size := by
      rw [← hfits.length_items]
      exact (List.findIdx?_eq_some_iff_getElem.mp hfound).1
    obtain ⟨hremoved, hsame, hview⟩ := remove_spec hfits hposition
    obtain ⟨next, hnext, hfitsNext, hcapacityNext, hviewNext⟩ :=
      insert_spec hremoved (hview ▸ hkept.comparable) (hsame ▸ hcapacity) hnumber
    refine ⟨next, hnext, hfitsNext, hcapacityNext.trans hsame, ?_⟩
    rw [hviewNext, hview]
    rfl

theorem closestUnexpanded_spec (hfits : queue.Fits) (hopen : queue.cur < queue.view.items.length) :
    ∃ next, queue.closestUnexpanded =
        some (next, { queue.view.items[queue.cur] with expanded := true }) ∧
      next.Fits ∧ next.capacity = queue.capacity ∧ next.view = queue.view.markExpanded := by
  have hcur : queue.cur < queue.size := hfits.length_items ▸ hopen
  have hsize := hfits.size
  have hslots := hfits.slots
  have hslot : queue.data[queue.cur]? = some queue.view.items[queue.cur] := by
    rw [← List.getElem?_eq_getElem hopen]
    exact (List.getElem?_take_of_lt hcur).symm
  have hinside : queue.cur < queue.data.length := by omega
  have hitem : queue.view.items[queue.cur] = queue.data[queue.cur] := List.getElem_take
  have hitems : (queue.data.set queue.cur { queue.view.items[queue.cur] with expanded := true }).take
      queue.size = queue.view.items.modify queue.cur fun item => { item with expanded := true } := by
    rw [List.modify_eq_set_getElem?, List.getElem?_eq_getElem hopen]
    exact List.take_set
  rw [closestUnexpanded, hslot]
  refine ⟨_, rfl, ⟨hsize, ?_⟩, rfl, ?_⟩
  · simpa using hslots
  · simp only [view, NeighborQueue.markExpanded] at hitems ⊢
    rw [hitems]

inductive Call
  | insert (nbr : Neighbor)
  | insertOrUpdate (nbr : Neighbor)
  | closestUnexpanded

def Call.Finite : Call → Prop
  | insert nbr | insertOrUpdate nbr => nbr.distance.isFinite = true
  | closestUnexpanded => True

/-- The queue after a call, and the entry it returns. -/
def step (queue : NeighborPriorityQueue) : Call → Option (NeighborPriorityQueue × Option Neighbor)
  | .insert nbr => (queue.insert nbr).map fun next => (next, none)
  | .insertOrUpdate nbr => (queue.insertOrUpdate nbr).map fun next => (next, none)
  | .closestUnexpanded => queue.closestUnexpanded.map fun result => (result.1, some result.2)

/-- The entries are the first slots, sorted with different ids, and the cursor is at the
first one to expand. -/
def Sound (queue : NeighborPriorityQueue) : Prop := queue.Fits ∧ queue.view.Sound

/-- An answer is an entry that was not expanded, which it is now. -/
def ReturnsUnexpanded (queue : NeighborPriorityQueue) (answer : Option Neighbor) : Prop :=
  ∀ returned ∈ answer, ∃ entry ∈ queue.view.items, entry.expanded = false ∧
    returned = { entry with expanded := true }

/-- Every state of a run is sound, and every answer an entry to expand. -/
def Holds (queue : NeighborPriorityQueue) : List Call → Prop
  | [] => queue.Sound
  | call :: calls => queue.Sound ∧ ∃ next answer, queue.step call = some (next, answer) ∧
      queue.ReturnsUnexpanded answer ∧ Holds next calls

/-- No insertion passes by an entry with its id, no update uncovers an expanded entry, and
entries are asked for only while there is one. A queue without capacity takes nothing. -/
def Allows (queue : NeighborPriorityQueue) : Call → Prop
  | .insert nbr => 0 < queue.capacity ∧ queue.view.Admits nbr
  | .insertOrUpdate nbr => 0 < queue.capacity ∧ ¬ queue.view.Strands nbr
  | .closestUnexpanded => queue.cur < queue.size

instance (queue : NeighborPriorityQueue) : (call : Call) → Decidable (queue.Allows call)
  | .insert _ | .insertOrUpdate _ => inferInstanceAs (Decidable (_ ∧ _))
  | .closestUnexpanded => inferInstanceAs (Decidable (_ < _))

/-- Every call of a run is allowed where it is made. -/
def Permits (queue : NeighborPriorityQueue) : List Call → Prop
  | [] => True
  | call :: calls => queue.Allows call ∧
      ∀ next answer, queue.step call = some (next, answer) → Permits next calls

/-- A queue that was made, cleared or given more capacity. -/
structure Cleared (queue : NeighborPriorityQueue) : Prop where
  size : queue.size = 0
  cur : queue.cur = 0
  slots : queue.capacity < queue.data.length

theorem Cleared.sound (hcleared : queue.Cleared) : queue.Sound := by
  have hitems : queue.view.items = [] := by simp [view, hcleared.size]
  refine ⟨⟨by rw [hcleared.size]; exact Nat.zero_le _, hcleared.slots⟩, ⟨?_, ?_, ?_, ?_⟩, ?_⟩
  all_goals rw [hitems]
  · exact Nat.zero_le _
  · exact nofun
  · exact List.Pairwise.nil
  · exact List.nodup_nil
  · exact hcleared.cur

theorem insert_eq_none (hfits : queue.Fits) (hcapacity : ¬ 0 < queue.capacity) :
    queue.insert nbr = none := by
  have hsize := hfits.size
  rw [insert, rejects, if_pos (by omega), if_pos (by omega)]
  rfl

theorem insertOrUpdate_eq_none (hfits : queue.Fits) (hcapacity : ¬ 0 < queue.capacity) :
    queue.insertOrUpdate nbr = none := by
  have hsize := hfits.size
  have hitems : queue.data.take queue.size = [] := by
    rw [show queue.size = 0 by omega, List.take_zero]
  rw [insertOrUpdate, hitems]
  exact insert_eq_none hfits hcapacity

theorem step_sound_iff (hsound : queue.Sound) {call : Call} (hfinite : call.Finite) :
    (∃ next answer, queue.step call = some (next, answer) ∧ queue.ReturnsUnexpanded answer ∧
      next.Sound) ↔ queue.Allows call := by
  obtain ⟨hfits, hview⟩ := hsound
  cases call with
  | insert nbr =>
    by_cases hcapacity : 0 < queue.capacity
    · obtain ⟨next, hnext, hfitsNext, -, hviewNext⟩ :=
        insert_spec hfits hview.toOrdered.comparable hcapacity
          (Neighbor.isNumber_of_isFinite hfinite)
      simp only [step, hnext, Allows, hcapacity, true_and, Option.map_some, Option.some.injEq,
        Prod.mk.injEq]
      rw [← NeighborQueue.insert_sound_iff hview hcapacity hfinite, ← hviewNext]
      constructor
      · rintro ⟨_, _, ⟨rfl, -⟩, -, hsoundNext⟩
        exact hsoundNext.2
      · exact fun hsoundNext => ⟨next, none, ⟨rfl, rfl⟩, nofun, hfitsNext, hsoundNext⟩
    · simp [step, insert_eq_none hfits hcapacity, Allows, hcapacity]
  | insertOrUpdate nbr =>
    by_cases hcapacity : 0 < queue.capacity
    · obtain ⟨next, hnext, hfitsNext, -, hviewNext⟩ :=
        insertOrUpdate_spec hfits hview.toOrdered hcapacity hfinite
      simp only [step, hnext, Allows, hcapacity, true_and, Option.map_some, Option.some.injEq,
        Prod.mk.injEq]
      rw [← NeighborQueue.insertOrUpdate_sound_iff hview hcapacity hfinite, ← hviewNext]
      constructor
      · rintro ⟨_, _, ⟨rfl, -⟩, -, hsoundNext⟩
        exact hsoundNext.2
      · exact fun hsoundNext => ⟨next, none, ⟨rfl, rfl⟩, nofun, hfitsNext, hsoundNext⟩
    · simp [step, insertOrUpdate_eq_none hfits hcapacity, Allows, hcapacity]
  | closestUnexpanded =>
    constructor
    · rintro ⟨next, answer, hstep, hreturns, -⟩
      obtain ⟨⟨_, slot⟩, hclosest, heq⟩ := Option.map_eq_some_iff.mp hstep
      obtain ⟨rfl, rfl⟩ := Prod.mk.inj heq
      obtain ⟨entry, hentry, hunexpanded, -⟩ := hreturns slot rfl
      have hcursor : queue.cur < queue.view.items.length := by
        rw [show queue.cur = _ from hview.cursor]
        exact List.findIdx_lt_length_of_exists ⟨entry, hentry, by simp [hunexpanded]⟩
      rw [hfits.length_items] at hcursor
      exact hcursor
    · intro hcur
      have hopen : queue.cur < queue.view.items.length := hfits.length_items.symm ▸ hcur
      obtain ⟨next, hnext, hfitsNext, -, hviewNext⟩ := closestUnexpanded_spec hfits hopen
      obtain ⟨hunexpanded, hsoundNext⟩ := NeighborQueue.markExpanded_sound hview hopen
      refine ⟨next, _, by rw [step, hnext]; rfl, ?_, hfitsNext, hviewNext ▸ hsoundNext⟩
      intro returned hreturned
      obtain rfl := Option.mem_some_iff.mp hreturned
      exact ⟨_, List.getElem_mem hopen, hunexpanded, rfl⟩

/-- The queue after a run and the entries it returned. -/
def run (queue : NeighborPriorityQueue) : List Call → Option (NeighborPriorityQueue × List Neighbor)
  | [] => some (queue, [])
  | call :: calls => do
    let (next, answer) ← queue.step call
    let (last, answers) ← run next calls
    return (last, answer.toList ++ answers)

variable {calls : List Call}

theorem Holds.sound (hholds : queue.Holds calls) : queue.Sound := by
  cases calls with
  | nil => exact hholds
  | cons => exact hholds.1

theorem Holds.run (hholds : queue.Holds calls) :
    ∃ last answers, queue.run calls = some (last, answers) ∧ last.Sound := by
  induction calls generalizing queue with
  | nil => exact ⟨queue, [], rfl, hholds⟩
  | cons call calls ih =>
    obtain ⟨-, next, answer, hstep, -, hnext⟩ := hholds
    obtain ⟨last, answers, hrun, hsound⟩ := ih hnext
    exact ⟨last, answer.toList ++ answers, by simp [NeighborPriorityQueue.run, hstep, hrun], hsound⟩

theorem holds_iff_of_sound (hsound : queue.Sound) (hfinite : ∀ call ∈ calls, call.Finite) :
    queue.Holds calls ↔ queue.Permits calls := by
  induction calls generalizing queue with
  | nil => exact iff_of_true hsound trivial
  | cons call calls ih =>
    have hcall := step_sound_iff hsound (hfinite call List.mem_cons_self)
    have hcalls : ∀ call ∈ calls, call.Finite :=
      fun call hmem => hfinite call (List.mem_cons_of_mem _ hmem)
    rw [Holds, Permits]
    constructor
    · rintro ⟨-, next, answer, hstep, hreturns, hnext⟩
      refine ⟨hcall.mp ⟨next, answer, hstep, hreturns, hnext.sound⟩, ?_⟩
      intro other _ hother
      obtain ⟨rfl, -⟩ := Prod.mk.inj (Option.some.inj (hstep.symm.trans hother))
      exact (ih (hnext.sound) hcalls).mp hnext
    · rintro ⟨hallows, hrest⟩
      obtain ⟨next, answer, hstep, hreturns, hnext⟩ := hcall.mpr hallows
      exact ⟨hsound, next, answer, hstep, hreturns, (ih hnext hcalls).mpr (hrest _ _ hstep)⟩

/-- For every sequence of calls on a cleared queue: the entries stay sorted with different
ids, the cursor stays at the first one to expand and only such entries are returned, if and
only if every call is allowed where it is made. -/
theorem holds_iff_permits (queue : NeighborPriorityQueue) (hcleared : queue.Cleared)
    (calls : List Call) (hfinite : ∀ call ∈ calls, call.Finite) :
    queue.Holds calls ↔ queue.Permits calls :=
  holds_iff_of_sound hcleared.sound hfinite

/-- The same id comes back at a distance at which the halving does not meet it. -/
def repeatedCalls : List Call :=
  [.insert ⟨1, .one, false⟩, .insert ⟨2, ⟨0x3FC00000⟩, false⟩, .insert ⟨1, ⟨0x40000000⟩, false⟩]

/-- A closer entry is scored anew in front of an expanded one. -/
def uncoveredCalls : List Call :=
  [.insert ⟨1, .one, false⟩, .closestUnexpanded, .insert ⟨2, ⟨0x3F000000⟩, false⟩,
    .insertOrUpdate ⟨2, ⟨0x40000000⟩, false⟩]

/-- The first run ends with two entries of one id. The second leaves the cursor at an
expanded entry, which is returned again. -/
theorem holds_refuted :
    ¬ (withCapacity 4).Holds repeatedCalls ∧ ¬ (withCapacity 4).Holds uncoveredCalls ∧
      ((withCapacity 4).run repeatedCalls).map (fun result => result.1.view.items.map (·.id)) =
        some [1, 2, 1] ∧
      ((withCapacity 4).run (uncoveredCalls ++ [.closestUnexpanded])).map
        (fun result => result.2.map (·.id)) = some [1, 1] := by
  refine ⟨fun hholds => ?_, fun hholds => ?_, by decide +kernel, by decide +kernel⟩
  · obtain ⟨last, answers, hrun, -, hsound⟩ := hholds.run
    have hids : ((withCapacity 4).run repeatedCalls).map
        (fun result => result.1.view.items.map (·.id)) = some [1, 2, 1] := by decide +kernel
    rw [hrun, Option.map_some, Option.some.injEq] at hids
    have hunique := hsound.unique
    rw [hids] at hunique
    exact absurd hunique (by decide)
  · obtain ⟨last, answers, hrun, -, hsound⟩ := hholds.run
    have hcursor : ((withCapacity 4).run uncoveredCalls).map (fun result =>
        (result.1.view.cursor, result.1.view.items.findIdx fun item => !item.expanded)) =
        some (0, 1) := by decide +kernel
    rw [hrun, Option.map_some, Option.some.injEq, Prod.mk.injEq, ← hsound.cursor] at hcursor
    exact absurd (hcursor.1.symm.trans hcursor.2) (by decide)

theorem holds_iff_permits_updated :
    (withCapacity 4).Holds [.insert ⟨7, .one, false⟩, .insertOrUpdate ⟨7, .zero, false⟩,
      .closestUnexpanded] := by
  refine (holds_iff_permits (withCapacity 4) ⟨rfl, rfl, by decide⟩ _ ?_).mpr ?_
  · intro call hcall
    simp only [List.mem_cons, List.not_mem_nil, or_false] at hcall
    rcases hcall with rfl | rfl | rfl
    · exact (by decide : Single.one.isFinite = true)
    · exact (by decide : Single.zero.isFinite = true)
    · trivial
  · refine ⟨by decide +kernel, fun next answer hstep => ?_⟩
    cases hstep
    refine ⟨by decide +kernel, fun next answer hstep => ?_⟩
    cases hstep
    exact ⟨by decide +kernel, fun _ _ _ => trivial⟩

end NeighborPriorityQueue

end SkipCell.Search

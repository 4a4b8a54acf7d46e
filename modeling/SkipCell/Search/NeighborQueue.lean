import SkipCell.Foundation.Halving
import SkipCell.Foundation.Ieee

/-! # The candidate queue

Candidates are kept in the order of their distances up to a capacity, with a cursor at the
first one that was not expanded. An insertion looks for the same id only where the halving
passes, and an update keeps the cursor where the old entry was.
-/

namespace SkipCell.Search

open Foundation

/-- `neighbor_t`. -/
structure Neighbor where
  id : UInt32
  distance : Single
  expanded : Bool := false
  deriving DecidableEq

/-- `operator<`. -/
def Neighbor.precedes (left right : Neighbor) : Bool :=
  decide (left.distance < right.distance) ||
    (decide (left.distance ≤ right.distance) && decide (right.distance ≤ left.distance) &&
      decide (left.id < right.id))

/-- `neighbor_priority_queue_t` by its entries. The slot behind a full queue is never read
while there is an entry to expand. -/
structure NeighborQueue where
  items : List Neighbor := []
  capacity : Nat
  cursor : Nat := 0

namespace NeighborQueue

/-- The binary search of `insert`, which finds nothing where it meets the same id. The
fuel bounds the halvings. -/
def search (items : List Neighbor) (neighbor : Neighbor) : Nat → Nat → Nat → Option Nat
  | 0, low, _ => some low
  | fuel + 1, low, high =>
    if low < high then
      match items[(low + high) / 2]? with
      | none => some low
      | some other =>
        if neighbor.precedes other then search items neighbor fuel low ((low + high) / 2)
        else if other.id = neighbor.id then none
        else search items neighbor fuel ((low + high) / 2 + 1) high
    else some low

/-- The last item of a full queue precedes the new one. -/
def rejects (queue : NeighborQueue) (neighbor : Neighbor) : Bool :=
  decide (queue.items.length = queue.capacity) &&
    queue.items.getLast?.any fun last => last.precedes neighbor

def insert (queue : NeighborQueue) (neighbor : Neighbor) : NeighborQueue :=
  if queue.rejects neighbor then queue
  else
    match search queue.items neighbor (queue.items.length + 1) 0 queue.items.length with
    | none => queue
    | some place =>
      { queue with
        items := (queue.items.take place ++
          ⟨neighbor.id, neighbor.distance, false⟩ :: queue.items.drop place).take queue.capacity
        cursor := if place < queue.cursor then place else queue.cursor }

/-- The loop of `insert_or_update`. -/
def forget (queue : NeighborQueue) (id : UInt32) : NeighborQueue :=
  match queue.items.findIdx? fun item => decide (item.id = id) with
  | none => queue
  | some position =>
    { queue with
      items := queue.items.eraseIdx position
      cursor := if position < queue.cursor then queue.cursor - 1 else queue.cursor }

def insertOrUpdate (queue : NeighborQueue) (neighbor : Neighbor) : NeighborQueue :=
  (queue.forget neighbor.id).insert neighbor

/-- The first place from one on whose entry was not expanded, or the end. -/
def skipExpanded (items : List Neighbor) (place : Nat) : Nat :=
  place + (items.drop place).findIdx fun item => !item.expanded

/-- The queue in which the entry at the cursor is expanded. -/
def markExpanded (queue : NeighborQueue) : NeighborQueue :=
  let items := queue.items.modify queue.cursor fun item => { item with expanded := true }
  { queue with items := items, cursor := skipExpanded items queue.cursor }

end NeighborQueue

/-! ## The order of the entries -/

/-- Distances that are numbers order the entries linearly. -/
def Neighbor.rank (neighbor : Neighbor) : Int ×ₗ Nat :=
  toLex (neighbor.distance.key, neighbor.id.toNat)

/-- The distance is no NaN. -/
def Neighbor.IsNumber (neighbor : Neighbor) : Prop :=
  FloatFormat.single.isNan neighbor.distance.bits.toNat = false

theorem Neighbor.isNumber_of_isFinite {neighbor : Neighbor}
    (hfinite : neighbor.distance.isFinite = true) : neighbor.IsNumber :=
  FloatFormat.isNan_of_isFinite _ hfinite

theorem Neighbor.precedes_iff {left right : Neighbor} (hleft : left.IsNumber)
    (hright : right.IsNumber) : left.precedes right = true ↔ left.rank < right.rank := by
  have hlt : left.distance < right.distance ↔ left.distance.key < right.distance.key := by
    change FloatFormat.single.lt _ _ = true ↔ _
    rw [FloatFormat.lt, hleft, hright]
    exact decide_eq_true_iff
  have hle : ∀ {first second : Neighbor}, first.IsNumber → second.IsNumber →
      (first.distance ≤ second.distance ↔ first.distance.key ≤ second.distance.key) := by
    intro first second hfirst hsecond
    change FloatFormat.single.le _ _ = true ↔ _
    rw [FloatFormat.le, hfirst, hsecond]
    exact decide_eq_true_iff
  rw [precedes, rank, rank, Prod.Lex.toLex_lt_toLex]
  simp only [Bool.or_eq_true, Bool.and_eq_true, decide_eq_true_eq, hlt, hle hleft hright,
    hle hright hleft, UInt32.lt_iff_toNat_lt]
  constructor
  · rintro (hless | ⟨⟨hle, hge⟩, hid⟩)
    · exact .inl hless
    · exact .inr ⟨Int.le_antisymm hle hge, hid⟩
  · rintro (hless | ⟨hsame, hid⟩)
    · exact .inl hless
    · exact .inr ⟨⟨hsame.le, hsame.ge⟩, hid⟩

theorem Neighbor.id_eq_of_rank_eq {left right : Neighbor} (hrank : left.rank = right.rank) :
    left.id = right.id :=
  UInt32.toNat_inj.mp (congrArg (fun rank => (ofLex rank).2) hrank)

namespace NeighborQueue

/-- Entries up to the capacity, with finite distances, sorted and of different ids. -/
structure Ordered (queue : NeighborQueue) : Prop where
  size : queue.items.length ≤ queue.capacity
  finite : ∀ item ∈ queue.items, item.distance.isFinite = true
  sorted : queue.items.Pairwise fun left right => left.precedes right = true
  unique : (queue.items.map Neighbor.id).Nodup

/-- And the cursor is at the first entry that was not expanded, or at the end. -/
structure Sound (queue : NeighborQueue) : Prop extends queue.Ordered where
  cursor : queue.cursor = queue.items.findIdx fun item => !item.expanded

/-- What an insertion asks of the entries: they can be compared, and are sorted. -/
structure Comparable (queue : NeighborQueue) : Prop where
  size : queue.items.length ≤ queue.capacity
  numbers : ∀ item ∈ queue.items, item.IsNumber
  ranked : queue.items.Pairwise fun left right => left.rank < right.rank

variable {queue : NeighborQueue} {neighbor : Neighbor}

theorem Ordered.numbers (hordered : queue.Ordered) : ∀ item ∈ queue.items, item.IsNumber :=
  fun item hitem => Neighbor.isNumber_of_isFinite (hordered.finite item hitem)

theorem Ordered.ranked (hordered : queue.Ordered) :
    queue.items.Pairwise fun left right => left.rank < right.rank := by
  refine hordered.sorted.imp_of_mem fun hleft hright hprecedes => ?_
  exact (Neighbor.precedes_iff (hordered.numbers _ hleft) (hordered.numbers _ hright)).mp hprecedes

theorem Ordered.comparable (hordered : queue.Ordered) : queue.Comparable :=
  ⟨hordered.size, hordered.numbers, hordered.ranked⟩

variable {items front back : List Neighbor}

theorem sorted_of_ranked (hnumbers : ∀ item ∈ items, item.IsNumber)
    (hranked : items.Pairwise fun left right => left.rank < right.rank) :
    items.Pairwise fun left right => left.precedes right = true := by
  refine hranked.imp_of_mem fun hleft hright hrank => ?_
  exact (Neighbor.precedes_iff (hnumbers _ hleft) (hnumbers _ hright)).mpr hrank

abbrev place (items : List Neighbor) (neighbor : Neighbor) : Nat :=
  boundary Neighbor.rank neighbor.rank items

/-- The halving that goes for the place of a candidate looks at an entry with its id that
does not come behind it. -/
def Meets (items : List Neighbor) (neighbor : Neighbor) : Prop :=
  ∃ middle ∈ probes (place items neighbor) (items.length + 1) 0 items.length,
    middle < place items neighbor ∧ items[middle]?.map Neighbor.id = some neighbor.id

instance (items : List Neighbor) (neighbor : Neighbor) : Decidable (Meets items neighbor) :=
  inferInstanceAs (Decidable (∃ middle ∈ _, _))

theorem search_eq (hnumbers : ∀ item ∈ items, item.IsNumber)
    (hranked : items.Pairwise fun left right => left.rank < right.rank)
    (hneighbor : neighbor.IsNumber) {fuel low high : Nat} (hlow : low ≤ place items neighbor)
    (hhigh : place items neighbor ≤ high) (hend : high ≤ items.length) (hfuel : high - low ≤ fuel) :
    search items neighbor fuel low high =
      if ∃ middle ∈ probes (place items neighbor) fuel low high,
        middle < place items neighbor ∧ items[middle]?.map Neighbor.id = some neighbor.id
      then none else some (place items neighbor) := by
  induction fuel generalizing low high with
  | zero =>
    have hplace : low = place items neighbor := by omega
    simp [search, probes, ← hplace]
  | succ fuel ih =>
    rw [search, probes]
    split
    next hopen =>
      have hmiddle : (low + high) / 2 < items.length := by omega
      have hbefore := Neighbor.precedes_iff hneighbor
        (hnumbers _ (List.getElem_mem hmiddle))
      have hplace : (low + high) / 2 < place items neighbor ↔
          items[(low + high) / 2].rank ≤ neighbor.rank := lt_boundary_iff hranked hmiddle
      rw [List.getElem?_eq_getElem hmiddle]
      dsimp only
      by_cases hprecedes : neighbor.precedes items[(low + high) / 2] = true
      · have hgreater : ¬ (low + high) / 2 < place items neighbor := fun hless =>
          absurd (hplace.mp hless) (not_le_of_gt (hbefore.mp hprecedes))
        rw [if_pos hprecedes, if_neg hgreater, ih hlow (by omega) (by omega) (by omega)]
        simp [hgreater]
      · have hless : (low + high) / 2 < place items neighbor :=
          hplace.mpr (le_of_not_gt fun hrank => hprecedes (hbefore.mpr hrank))
        rw [if_neg hprecedes, if_pos hless]
        by_cases hsame : items[(low + high) / 2].id = neighbor.id
        · simp [hsame, hless, hmiddle]
        · rw [if_neg hsame, ih hless hhigh hend (by omega)]
          simp [hsame, hless, hmiddle]
    next hclosed =>
      have hplace : low = place items neighbor := by omega
      simp [← hplace]

/-! ## Insertion -/

/-- The entry that `insert` writes. -/
abbrev fresh (neighbor : Neighbor) : Neighbor := ⟨neighbor.id, neighbor.distance, false⟩

theorem meets_of_rank_eq (hcomparable : queue.Comparable) {other : Neighbor}
    (hother : other ∈ queue.items) (hrank : other.rank = neighbor.rank) :
    Meets queue.items neighbor := by
  obtain ⟨index, hindex, rfl⟩ := List.getElem_of_mem hother
  have hfront : index < place queue.items neighbor :=
    (lt_boundary_iff hcomparable.ranked hindex).mpr hrank.le
  have hplace : place queue.items neighbor ≤ queue.items.length := boundary_le _ _
  have hlast : index = place queue.items neighbor - 1 := by
    by_contra hne
    have hinside : place queue.items neighbor - 1 < queue.items.length := by omega
    have hbelow : queue.items[index].rank < queue.items[place queue.items neighbor - 1].rank :=
      List.pairwise_iff_getElem.mp hcomparable.ranked _ _ hindex hinside (by omega)
    have hbefore : place queue.items neighbor - 1 < place queue.items neighbor := by omega
    have hle : queue.items[place queue.items neighbor - 1].rank ≤ neighbor.rank :=
      (lt_boundary_iff hcomparable.ranked hinside).mp hbefore
    exact absurd (hrank ▸ hbelow) (not_lt_of_ge hle)
  refine ⟨index, ?_, hfront, ?_⟩
  · rw [hlast]
    exact pred_mem_probes (by omega) hplace (by omega)
  · rw [List.getElem?_eq_getElem hindex]
    exact congrArg some (Neighbor.id_eq_of_rank_eq hrank)

theorem place_lt_capacity (hcomparable : queue.Comparable) (hcapacity : 0 < queue.capacity)
    (hneighbor : neighbor.IsNumber) (hrejects : queue.rejects neighbor = false)
    (hmeets : ¬ Meets queue.items neighbor) :
    place queue.items neighbor < queue.capacity := by
  have hplace : place queue.items neighbor ≤ queue.items.length := boundary_le _ _
  rcases Nat.lt_or_eq_of_le hcomparable.size with hopen | hfull
  · exact hplace.trans_lt hopen
  · have hne : queue.items ≠ [] := List.ne_nil_of_length_pos (by omega)
    have hlast : (queue.items.getLast hne).precedes neighbor = false := by
      simpa [rejects, hfull, List.getLast?_eq_some_getLast hne] using hrejects
    have hmem := List.getLast_mem hne
    have hbehind : neighbor.rank < (queue.items.getLast hne).rank := by
      refine lt_of_le_of_ne (le_of_not_gt fun hless => ?_) fun hsame => ?_
      · have hprecedes := (Neighbor.precedes_iff (hcomparable.numbers _ hmem) hneighbor).mpr hless
        rw [hlast] at hprecedes
        cases hprecedes
      · exact hmeets (meets_of_rank_eq hcomparable hmem hsame.symm)
    have hinside : queue.items.length - 1 < queue.items.length := by omega
    rw [List.getLast_eq_getElem] at hbehind
    have houtside : ¬ queue.items.length - 1 < place queue.items neighbor := fun hless =>
      absurd ((lt_boundary_iff hcomparable.ranked hinside).mp hless) (not_le_of_gt hbehind)
    omega

theorem search_items (hcomparable : queue.Comparable) (hneighbor : neighbor.IsNumber) :
    search queue.items neighbor (queue.items.length + 1) 0 queue.items.length =
      if Meets queue.items neighbor then none else some (place queue.items neighbor) :=
  search_eq hcomparable.numbers hcomparable.ranked hneighbor (Nat.zero_le _) (boundary_le _ _)
    (Nat.le_refl _) (by omega)

/-- The queue with an entry at its place. The last entry of a full queue is pushed out. -/
def inserted (queue : NeighborQueue) (neighbor : Neighbor) : NeighborQueue :=
  { queue with
    items := noGreater Neighbor.rank neighbor.rank queue.items ++ fresh neighbor ::
      (greater Neighbor.rank neighbor.rank queue.items).take
        (queue.capacity - 1 - place queue.items neighbor)
    cursor := min (place queue.items neighbor) queue.cursor }

theorem insert_eq (hcomparable : queue.Comparable) (hcapacity : 0 < queue.capacity)
    (hneighbor : neighbor.IsNumber) :
    queue.insert neighbor =
      if queue.rejects neighbor = true ∨ Meets queue.items neighbor then queue
      else queue.inserted neighbor := by
  unfold insert
  split
  next hrejects => rw [if_pos (.inl hrejects)]
  next hrejects =>
    rw [search_items hcomparable hneighbor]
    by_cases hmeets : Meets queue.items neighbor
    · rw [if_pos hmeets, if_pos (.inr hmeets)]
    · have hplace := place_lt_capacity hcomparable hcapacity hneighbor (by simpa using hrejects) hmeets
      rw [if_neg hmeets, if_neg (not_or.mpr ⟨hrejects, hmeets⟩)]
      simp only [inserted, NeighborQueue.mk.injEq, true_and]
      refine ⟨?_, by split <;> omega⟩
      have hlength : (noGreater Neighbor.rank neighbor.rank queue.items).length =
          place queue.items neighbor := rfl
      rw [take_boundary, drop_boundary, List.take_append, hlength,
        List.take_of_length_le (by omega),
        show queue.capacity - place queue.items neighbor =
          queue.capacity - 1 - place queue.items neighbor + 1 by omega, List.take_succ_cons]

theorem items_inserted_perm (queue : NeighborQueue) (neighbor : Neighbor)
    (hplace : place queue.items neighbor < queue.capacity) :
    (queue.inserted neighbor).items.Perm
      (fresh neighbor :: queue.items.take (queue.capacity - 1)) := by
  have hkept : queue.items.take (queue.capacity - 1) =
      noGreater Neighbor.rank neighbor.rank queue.items ++
        (greater Neighbor.rank neighbor.rank queue.items).take
          (queue.capacity - 1 - place queue.items neighbor) := by
    have happend : noGreater Neighbor.rank neighbor.rank queue.items ++
        greater Neighbor.rank neighbor.rank queue.items = queue.items :=
      noGreater_append_greater _ _
    conv_lhs => rw [← happend]
    rw [List.take_append, List.take_of_length_le]
    · rfl
    · exact Nat.le_sub_one_of_lt hplace
  rw [hkept]
  exact List.perm_middle

theorem Comparable.inserted (hcomparable : queue.Comparable) (hneighbor : neighbor.IsNumber)
    (hplace : place queue.items neighbor < queue.capacity)
    (hmeets : ¬ Meets queue.items neighbor) : (queue.inserted neighbor).Comparable := by
  have hperm := items_inserted_perm queue neighbor hplace
  refine ⟨?_, fun item hitem => ?_, ?_⟩
  · rw [hperm.length_eq, List.length_cons, List.length_take]
    change _ ≤ queue.capacity
    omega
  · rcases List.mem_cons.mp (hperm.mem_iff.mp hitem) with rfl | hold
    · exact hneighbor
    · exact hcomparable.numbers item (List.mem_of_mem_take hold)
  · have hother : ∀ other ∈ queue.items, other.rank ≠ (fresh neighbor).rank :=
      fun other hother hrank => hmeets (meets_of_rank_eq hcomparable hother hrank)
    have hsorted := sorted_insert hcomparable.ranked hother
    exact hsorted.sublist ((List.take_sublist _ _).cons_cons _ |>.append_left _)

theorem Ordered.inserted (hordered : queue.Ordered)
    (hneighbor : neighbor.distance.isFinite = true)
    (hplace : place queue.items neighbor < queue.capacity)
    (hmeets : ¬ Meets queue.items neighbor)
    (hnew : ∀ item ∈ queue.items.take (queue.capacity - 1), item.id ≠ neighbor.id) :
    (queue.inserted neighbor).Ordered := by
  have hperm := items_inserted_perm queue neighbor hplace
  have hcomparable := hordered.comparable.inserted (Neighbor.isNumber_of_isFinite hneighbor)
    hplace hmeets
  refine ⟨hcomparable.size, fun item hitem => ?_,
    sorted_of_ranked hcomparable.numbers hcomparable.ranked, ?_⟩
  · rcases List.mem_cons.mp (hperm.mem_iff.mp hitem) with rfl | hold
    · exact hneighbor
    · exact hordered.finite item (List.mem_of_mem_take hold)
  · rw [(hperm.map Neighbor.id).nodup_iff, List.map_cons, List.nodup_cons]
    refine ⟨fun hold => ?_, hordered.unique.sublist ((List.take_sublist _ _).map _)⟩
    obtain ⟨item, hitem, hid⟩ := List.mem_map.mp hold
    exact hnew item hitem hid

theorem findIdx_inserted (queue : NeighborQueue) (neighbor : Neighbor) :
    ((queue.inserted neighbor).items.findIdx fun item => !item.expanded) =
      min (place queue.items neighbor) (queue.items.findIdx fun item => !item.expanded) := by
  have happend : noGreater Neighbor.rank neighbor.rank queue.items ++
      greater Neighbor.rank neighbor.rank queue.items = queue.items :=
    noGreater_append_greater _ _
  have hlength : (noGreater Neighbor.rank neighbor.rank queue.items).length =
      place queue.items neighbor := rfl
  have hfront : ((noGreater Neighbor.rank neighbor.rank queue.items).findIdx
      fun item => !item.expanded) ≤ place queue.items neighbor := List.findIdx_le_length
  conv_rhs => rw [← happend]
  simp only [inserted, List.findIdx_append, List.findIdx_cons]
  rw [happend, hlength]
  split
  next hbefore =>
    rw [Nat.min_eq_right (by omega)]
  next hbehind =>
    simp only [Bool.not_false, cond_true]
    omega

/-- What `insert` needs: the candidate is rejected, or the halving meets its id, or no
entry that stays has the id. -/
def Admits (queue : NeighborQueue) (neighbor : Neighbor) : Prop :=
  queue.rejects neighbor = true ∨ Meets queue.items neighbor ∨
    ∀ item ∈ queue.items.take (queue.capacity - 1), item.id ≠ neighbor.id

instance (queue : NeighborQueue) (neighbor : Neighbor) : Decidable (queue.Admits neighbor) :=
  inferInstanceAs (Decidable (_ ∨ _))

theorem inserted_sound_iff (hordered : (queue.inserted neighbor).Ordered) :
    (queue.inserted neighbor).Sound ↔
      min (place queue.items neighbor) queue.cursor =
        min (place queue.items neighbor) (queue.items.findIdx fun item => !item.expanded) := by
  rw [← findIdx_inserted]
  exact ⟨fun hsound => hsound.cursor, fun hcursor => ⟨hordered, hcursor⟩⟩

theorem insert_sound_iff (hsound : queue.Sound) (hcapacity : 0 < queue.capacity)
    (hneighbor : neighbor.distance.isFinite = true) :
    (queue.insert neighbor).Sound ↔ queue.Admits neighbor := by
  have hnumber := Neighbor.isNumber_of_isFinite hneighbor
  rw [insert_eq hsound.toOrdered.comparable hcapacity hnumber, Admits, ← or_assoc]
  split
  next hkept => exact ⟨fun _ => .inl hkept, fun _ => hsound⟩
  next hkept =>
    rw [or_iff_right hkept]
    obtain ⟨hrejects, hmeets⟩ := not_or.mp hkept
    have hplace := place_lt_capacity hsound.toOrdered.comparable hcapacity hnumber
      (by simpa using hrejects) hmeets
    constructor
    · intro hnext item hitem hid
      have hunique := hnext.unique
      rw [((items_inserted_perm queue neighbor hplace).map Neighbor.id).nodup_iff, List.map_cons,
        List.nodup_cons] at hunique
      exact hunique.1 (List.mem_map.mpr ⟨item, hitem, hid⟩)
    · intro hnew
      refine (inserted_sound_iff (hsound.toOrdered.inserted hneighbor hplace hmeets hnew)).mpr ?_
      rw [← hsound.cursor]

/-! ## Update -/

/-- `insert_or_update` takes the entry at the cursor away from in front of an expanded one
that the new entry comes behind. -/
def Strands (queue : NeighborQueue) (neighbor : Neighbor) : Prop :=
  queue.items[queue.cursor]?.map Neighbor.id = some neighbor.id ∧
    ∃ next ∈ queue.items[queue.cursor + 1]?, next.expanded = true ∧ next.precedes neighbor = true

instance (queue : NeighborQueue) (neighbor : Neighbor) : Decidable (queue.Strands neighbor) :=
  inferInstanceAs (Decidable (_ ∧ _))

theorem Ordered.forget (hordered : queue.Ordered) (id : UInt32) : (queue.forget id).Ordered := by
  unfold NeighborQueue.forget
  split
  · exact hordered
  next position _ =>
    have hsublist := queue.items.eraseIdx_sublist position
    exact ⟨hsublist.length_le.trans hordered.size,
      fun item hitem => hordered.finite item (hsublist.subset hitem),
      hordered.sorted.sublist hsublist, hordered.unique.sublist (hsublist.map _)⟩

theorem forget_eq_self {id : UInt32} (habsent : ∀ item ∈ queue.items, item.id ≠ id) :
    queue.forget id = queue := by
  have hnone : (queue.items.findIdx? fun item => decide (item.id = id)) = none :=
    List.findIdx?_eq_none_iff.mpr fun item hitem => decide_eq_false (habsent item hitem)
  rw [forget, hnone]

theorem forget_eq (queue : NeighborQueue) {id : UInt32}
    (hpresent : ∃ item ∈ queue.items, item.id = id) :
    ∃ front item back, queue.items = front ++ item :: back ∧ item.id = id ∧
      queue.forget id =
        { queue with
          items := front ++ back
          cursor := if front.length < queue.cursor then queue.cursor - 1 else queue.cursor } := by
  obtain ⟨item, hitem, hid⟩ := hpresent
  have hsome : (queue.items.findIdx? fun item => decide (item.id = id)).isSome = true :=
    List.findIdx?_isSome ▸ List.any_eq_true.mpr ⟨item, hitem, decide_eq_true hid⟩
  obtain ⟨position, hposition⟩ := Option.isSome_iff_exists.mp hsome
  obtain ⟨hinside, hfound, -⟩ := List.findIdx?_eq_some_iff_getElem.mp hposition
  refine ⟨queue.items.take position, queue.items[position], queue.items.drop (position + 1), ?_,
    of_decide_eq_true hfound, ?_⟩
  · rw [← List.drop_eq_getElem_cons hinside, List.take_append_drop]
  · rw [forget, hposition]
    simp only [List.eraseIdx_eq_take_drop_succ, List.length_take, Nat.min_eq_left hinside.le]

theorem insert_fresh (hordered : queue.Ordered) (hroom : queue.items.length < queue.capacity)
    (hneighbor : neighbor.distance.isFinite = true)
    (habsent : ∀ item ∈ queue.items, item.id ≠ neighbor.id) :
    queue.insert neighbor = queue.inserted neighbor ∧ (queue.inserted neighbor).Ordered := by
  have hrejects : queue.rejects neighbor = false := by simp [rejects, hroom.ne]
  have hmeets : ¬ Meets queue.items neighbor := by
    rintro ⟨middle, -, -, hid⟩
    obtain ⟨item, hitem, hid⟩ := Option.map_eq_some_iff.mp hid
    exact habsent item (List.mem_of_getElem? hitem) hid
  have hcapacity : 0 < queue.capacity := by omega
  have hnumber := Neighbor.isNumber_of_isFinite hneighbor
  have hplace := place_lt_capacity hordered.comparable hcapacity hnumber hrejects hmeets
  constructor
  · rw [insert_eq hordered.comparable hcapacity hnumber, if_neg]
    exact not_or.mpr ⟨by simp [hrejects], hmeets⟩
  · exact hordered.inserted hneighbor hplace hmeets
      fun item hitem => habsent item (List.mem_of_mem_take hitem)

/-- The cursor after a removal is at the first entry that was not expanded, except where
the removed entry was that one. -/
theorem cursor_removed {item : Neighbor} {cursor : Nat}
    (hcursor : cursor = (front ++ item :: back).findIdx fun item => !item.expanded) :
    (cursor ≠ front.length → (if front.length < cursor then cursor - 1 else cursor) =
        (front ++ back).findIdx fun item => !item.expanded) ∧
      (cursor = front.length → (front ++ back).findIdx (fun item => !item.expanded) =
        front.length + back.findIdx fun item => !item.expanded) := by
  have hfront : (front.findIdx fun item => !item.expanded) ≤ front.length := List.findIdx_le_length
  rw [List.findIdx_append, List.findIdx_cons] at hcursor
  rw [List.findIdx_append]
  cases hexpanded : item.expanded <;> simp only [hexpanded] at hcursor <;> grind

/-- The cursor stays right where the entry behind the removed one may be expanded, or the
new entry comes in front of it. -/
theorem min_place_eq_iff (hfinite : ∀ item ∈ front ++ back, item.distance.isFinite = true)
    (hranked : (front ++ back).Pairwise fun left right => left.rank < right.rank)
    (habsent : ∀ item ∈ front ++ back, item.id ≠ neighbor.id)
    (hneighbor : neighbor.distance.isFinite = true) :
    min (place (front ++ back) neighbor) front.length =
        min (place (front ++ back) neighbor)
          (front.length + back.findIdx fun item => !item.expanded) ↔
      ¬ ∃ next ∈ back.head?, next.expanded = true ∧ next.precedes neighbor = true := by
  cases back with
  | nil => simp
  | cons next rest =>
    have hmem : next ∈ front ++ next :: rest := by simp
    have hprecedes : next.precedes neighbor = true ↔
        front.length < place (front ++ next :: rest) neighbor := by
      have hinside : front.length < (front ++ next :: rest).length := by simp
      have hplace : front.length < place (front ++ next :: rest) neighbor ↔
          (front ++ next :: rest)[front.length].rank ≤ neighbor.rank :=
        lt_boundary_iff hranked hinside
      have hnext : (front ++ next :: rest)[front.length] = next := by simp
      rw [Neighbor.precedes_iff (Neighbor.isNumber_of_isFinite (hfinite next hmem))
        (Neighbor.isNumber_of_isFinite hneighbor), hplace, hnext]
      constructor
      · exact fun hless => hless.le
      · exact fun hle => lt_of_le_of_ne hle fun hrank =>
          habsent next hmem (Neighbor.id_eq_of_rank_eq hrank)
    cases hexpanded : next.expanded
    · simp [List.findIdx_cons, hexpanded]
    · simp only [List.findIdx_cons, List.head?_cons, Option.mem_some_iff, exists_eq_left',
        hexpanded, Bool.not_true, cond_false, true_and, hprecedes]
      omega

theorem insertOrUpdate_sound_iff (hsound : queue.Sound) (hcapacity : 0 < queue.capacity)
    (hneighbor : neighbor.distance.isFinite = true) :
    (queue.insertOrUpdate neighbor).Sound ↔ ¬ queue.Strands neighbor := by
  rw [insertOrUpdate]
  by_cases hpresent : ∃ item ∈ queue.items, item.id = neighbor.id
  · obtain ⟨front, old, back, hitems, hid, hforget⟩ := forget_eq queue hpresent
    have hlength : queue.items.length = front.length + back.length + 1 := by
      rw [hitems, List.length_append, List.length_cons]
      omega
    have hunique := hsound.unique
    rw [hitems, List.map_append, List.map_cons] at hunique
    have habsent : ∀ item ∈ front ++ back, item.id ≠ neighbor.id := by
      intro item hitem hsame
      refine (List.nodup_cons.mp (List.perm_middle.nodup_iff.mp hunique)).1 ?_
      rw [← List.map_append]
      exact List.mem_map.mpr ⟨item, hitem, hsame.trans hid.symm⟩
    have hkept := hsound.toOrdered.forget neighbor.id
    have hroom : (queue.forget neighbor.id).items.length < (queue.forget neighbor.id).capacity := by
      rw [hforget]
      have hsize := hsound.size
      simp only [List.length_append]
      omega
    obtain ⟨hinsert, hordered⟩ := insert_fresh hkept hroom hneighbor (by rw [hforget]; exact habsent)
    rw [hinsert, inserted_sound_iff hordered]
    rw [hforget] at hkept ⊢
    have hcursor := hsound.cursor
    rw [hitems] at hcursor
    obtain ⟨hother, hfirst⟩ := cursor_removed hcursor
    rw [Strands, hitems]
    by_cases hat : queue.cursor = front.length
    · rw [hfirst hat, hat, if_neg (Nat.lt_irrefl _),
        min_place_eq_iff hkept.finite hkept.ranked habsent hneighbor]
      simp [hid, List.head?_eq_getElem?, List.getElem?_append]
    · refine iff_of_true (by rw [hother hat]) ?_
      rintro ⟨hsame, -⟩
      rw [← List.getElem?_map, List.map_append, List.map_cons] at hsame
      have hplaces : (front.map Neighbor.id ++ old.id :: back.map Neighbor.id)[queue.cursor]? =
          (front.map Neighbor.id ++ old.id :: back.map Neighbor.id)[front.length]? := by
        rw [hsame, ← hid]
        simp
      exact hat ((List.getElem?_inj (List.getElem_of_getElem? hsame).1 hunique).mp hplaces)
  · have habsent : ∀ item ∈ queue.items, item.id ≠ neighbor.id :=
      fun item hitem hid => hpresent ⟨item, hitem, hid⟩
    rw [forget_eq_self habsent, insert_sound_iff hsound hcapacity hneighbor]
    refine iff_of_true (.inr (.inr fun item hitem => habsent item (List.mem_of_mem_take hitem))) ?_
    rintro ⟨hcursor, -⟩
    obtain ⟨item, hitem, hid⟩ := Option.map_eq_some_iff.mp hcursor
    exact habsent item (List.mem_of_getElem? hitem) hid

theorem Ordered.of_map_eq (hordered : queue.Ordered) {cursor : Nat}
    (hitems : items.map (fun item => fresh item) = queue.items.map fun item => fresh item) :
    ({ queue with items := items, cursor := cursor } : NeighborQueue).Ordered := by
  have hlength : items.length = queue.items.length := by
    simpa using congrArg List.length hitems
  refine ⟨hlength.trans_le hordered.size, ?_, ?_, ?_⟩
  · intro item hitem
    have hmem : fresh item ∈ queue.items.map fun item => fresh item :=
      hitems ▸ List.mem_map.mpr ⟨item, hitem, rfl⟩
    obtain ⟨old, hold, hsame⟩ := List.mem_map.mp hmem
    have hdistance : (fresh old).distance = (fresh item).distance := by rw [hsame]
    exact hdistance ▸ hordered.finite old hold
  · have hsorted : (queue.items.map fun item => fresh item).Pairwise
        fun left right => left.precedes right = true := List.pairwise_map.mpr hordered.sorted
    rw [← hitems] at hsorted
    exact List.pairwise_map.mp hsorted
  · have hids : items.map Neighbor.id = queue.items.map Neighbor.id := by
      simpa [Function.comp_def] using congrArg (List.map Neighbor.id) hitems
    change (items.map Neighbor.id).Nodup
    rw [hids]
    exact hordered.unique

theorem markExpanded_cursor
    (hcursor : queue.cursor = queue.items.findIdx fun item => !item.expanded)
    (hopen : queue.cursor < queue.items.length) :
    queue.items[queue.cursor].expanded = false ∧ queue.markExpanded.cursor =
      queue.markExpanded.items.findIdx fun item => !item.expanded := by
  have hunexpanded : queue.items[queue.cursor].expanded = false := by
    have hat : queue.items[queue.items.findIdx fun item => !item.expanded]? =
        some queue.items[queue.cursor] := by
      rw [← hcursor]
      exact List.getElem?_eq_getElem hopen
    have hfound := List.findIdx_of_getElem?_eq_some hat
    simpa using hfound
  refine ⟨hunexpanded, ?_⟩
  have hlength : (queue.items.take queue.cursor).length = queue.cursor := by
    rw [List.length_take, Nat.min_eq_left hopen.le]
  have hfront : ((queue.items.take queue.cursor).findIdx fun item => !item.expanded) =
      queue.cursor := by
    refine Eq.trans (List.findIdx_eq_length.mpr fun item hitem => ?_) hlength
    obtain ⟨index, hindex, rfl⟩ := List.mem_take_iff_getElem.mp hitem
    have hbefore : index < queue.items.findIdx fun item => !item.expanded := by
      rw [← hcursor]
      omega
    simpa using List.not_of_lt_findIdx hbefore
  simp only [markExpanded, skipExpanded]
  rw [List.modify_eq_take_cons_drop hopen, List.drop_left' hlength, List.findIdx_append, hfront,
    hlength, if_neg (Nat.lt_irrefl _), Nat.add_comm]

theorem markExpanded_sound (hsound : queue.Sound) (hopen : queue.cursor < queue.items.length) :
    queue.items[queue.cursor].expanded = false ∧ queue.markExpanded.Sound := by
  obtain ⟨hunexpanded, hcursor⟩ := markExpanded_cursor hsound.cursor hopen
  refine ⟨hunexpanded, ?_, hcursor⟩
  refine hsound.toOrdered.of_map_eq ?_
  rw [List.modify_eq_take_cons_drop hopen, List.map_append, List.map_cons]
  conv_rhs => rw [← List.take_append_drop queue.cursor queue.items,
    List.drop_eq_getElem_cons hopen, List.map_append, List.map_cons]

end NeighborQueue

end SkipCell.Search

import Mathlib

/-! # Maps kept as sorted lists

A map is a list of entries with strictly increasing keys. `set` inserts or
replaces an entry in order; `lowerBound` is the position of the first key that
is not below the one searched for.
-/

namespace Foundation

universe uKey uValue

variable {Key : Type uKey} {Value : Type uValue} [LinearOrder Key]

abbrev SortedMap (Key : Type uKey) (Value : Type uValue) := List (Key × Value)

namespace SortedMap

/-- Keys increase strictly. -/
def Sorted (entries : SortedMap Key Value) : Prop := entries.Pairwise fun first second =>
  first.1 < second.1

def find (entries : SortedMap Key Value) (key : Key) : Option Value :=
  (entries.find? fun entry => entry.1 = key).map Prod.snd

def set (key : Key) (value : Value) : SortedMap Key Value → SortedMap Key Value
  | [] => [(key, value)]
  | entry :: rest =>
    if key < entry.1 then (key, value) :: entry :: rest
    else if entry.1 < key then entry :: set key value rest
    else (key, value) :: rest

def setAll (updates entries : SortedMap Key Value) : SortedMap Key Value :=
  updates.foldl (fun entries update => set update.1 update.2 entries) entries

def lowerBound (keys : List Key) (key : Key) : Nat := keys.findIdx fun other => !(other < key)

@[simp]
theorem find_nil (key : Key) : find ([] : SortedMap Key Value) key = none := rfl

theorem find_cons (entry : Key × Value) (entries : SortedMap Key Value) (key : Key) :
    find (entry :: entries) key = if entry.1 = key then some entry.2 else find entries key := by
  simp only [find, List.find?_cons]
  by_cases hkey : entry.1 = key <;> simp [hkey]

variable {entries : SortedMap Key Value}

theorem mem_of_find {key : Key} {value : Value} (hfind : find entries key = some value) :
    (key, value) ∈ entries := by
  induction entries with
  | nil => cases hfind
  | cons entry rest ih =>
    rw [find_cons] at hfind
    split at hfind
    · next hkey =>
        obtain rfl := Option.some.inj hfind
        rw [← hkey]
        exact List.mem_cons_self
    · exact List.mem_cons_of_mem _ (ih hfind)

theorem find_of_mem_keys {key : Key} (hkey : key ∈ entries.map Prod.fst) :
    ∃ value, find entries key = some value := by
  induction entries with
  | nil => cases hkey
  | cons entry rest ih =>
    rw [find_cons]
    split
    · exact ⟨entry.2, rfl⟩
    · next hne => exact ih ((List.mem_cons.mp hkey).resolve_left (Ne.symm hne))

theorem find_eq_none {key : Key} (hkey : key ∉ entries.map Prod.fst) : find entries key = none := by
  rw [← Option.not_isSome_iff_eq_none]
  intro hsome
  obtain ⟨value, hvalue⟩ := Option.isSome_iff_exists.mp hsome
  exact hkey (List.mem_map_of_mem (mem_of_find hvalue))

theorem mem_set {key : Key} {value : Value} {entry : Key × Value}
    (hentry : entry ∈ set key value entries) : entry = (key, value) ∨ entry ∈ entries := by
  induction entries with
  | nil => exact .inl (List.mem_singleton.mp hentry)
  | cons first rest ih =>
    unfold set at hentry
    split at hentry
    · exact (List.mem_cons.mp hentry).imp_right id
    · split at hentry
      · rcases List.mem_cons.mp hentry with rfl | hentry
        · exact .inr List.mem_cons_self
        · exact (ih hentry).imp_right (List.mem_cons_of_mem _)
      · exact (List.mem_cons.mp hentry).imp_right (List.mem_cons_of_mem _)

theorem Sorted.set (hsorted : Sorted entries) (key : Key) (value : Value) :
    Sorted (set key value entries) := by
  induction entries with
  | nil => exact List.pairwise_singleton _ _
  | cons first rest ih =>
    obtain ⟨hfirst, hrest⟩ := List.pairwise_cons.mp hsorted
    unfold SortedMap.set
    split
    · next hbelow =>
        refine List.pairwise_cons.mpr ⟨fun entry hentry => ?_, hsorted⟩
        rcases List.mem_cons.mp hentry with rfl | hentry
        · exact hbelow
        · exact hbelow.trans (hfirst entry hentry)
    · split
      · next habove =>
          refine List.pairwise_cons.mpr ⟨fun entry hentry => ?_, ih hrest⟩
          rcases mem_set hentry with rfl | hentry
          · exact habove
          · exact hfirst entry hentry
      · next hnotBelow hnotAbove =>
          have hkey : first.1 = key := le_antisymm (not_lt.mp hnotBelow) (not_lt.mp hnotAbove)
          refine List.pairwise_cons.mpr ⟨fun entry hentry => ?_, hrest⟩
          exact hkey ▸ hfirst entry hentry

theorem find_set (entries : SortedMap Key Value) (key : Key) (value : Value) (other : Key) :
    find (set key value entries) other = if other = key then some value else find entries other := by
  induction entries with
  | nil => simp [set, find_cons, eq_comm]
  | cons first rest ih =>
    unfold set
    by_cases hother : other = key
    · subst hother
      rw [if_pos rfl]
      split
      · rw [find_cons, if_pos rfl]
      · split
        · next habove => rw [find_cons, if_neg habove.ne, ih, if_pos rfl]
        · rw [find_cons, if_pos rfl]
    · rw [if_neg hother]
      split
      · rw [find_cons, if_neg (Ne.symm hother)]
      · split
        · rw [find_cons, find_cons, ih, if_neg hother]
        · next hnotBelow hnotAbove =>
            have hkey : first.1 = key := le_antisymm (not_lt.mp hnotBelow) (not_lt.mp hnotAbove)
            rw [find_cons, find_cons, if_neg (Ne.symm hother), if_neg (hkey ▸ Ne.symm hother)]

theorem Sorted.setAll (hsorted : Sorted entries) (updates : SortedMap Key Value) :
    Sorted (setAll updates entries) := by
  induction updates generalizing entries with
  | nil => exact hsorted
  | cons update updates ih => exact ih (hsorted.set update.1 update.2)

/-- Later updates win: a key outside the updates keeps its entry, and a sorted
list of updates overrides the rest. -/
theorem find_setAll {updates : SortedMap Key Value} (hupdates : Sorted updates)
    (entries : SortedMap Key Value) (key : Key) :
    find (setAll updates entries) key = (find updates key).or (find entries key) := by
  induction updates generalizing entries with
  | nil => rfl
  | cons update updates ih =>
    obtain ⟨hfirst, hrest⟩ := List.pairwise_cons.mp hupdates
    have hstep : setAll (update :: updates) entries =
        setAll updates (set update.1 update.2 entries) := rfl
    rw [hstep, ih hrest, find_set, find_cons]
    by_cases hkey : key = update.1
    · have hnone : find updates key = none := by
        refine find_eq_none fun hmem => ?_
        obtain ⟨entry, hentry, heq⟩ := List.mem_map.mp hmem
        exact (hfirst entry hentry).ne (hkey.symm.trans heq.symm)
      rw [hnone, if_pos hkey, if_pos hkey.symm]
      rfl
    · rw [if_neg hkey, if_neg (Ne.symm hkey)]

theorem find_lowerBound (hsorted : Sorted entries) (key : Key) :
    find entries key =
      match entries[lowerBound (entries.map Prod.fst) key]? with
      | some entry => if entry.1 = key then some entry.2 else none
      | none => none := by
  induction entries with
  | nil => rfl
  | cons first rest ih =>
    obtain ⟨hfirst, hrest⟩ := List.pairwise_cons.mp hsorted
    rw [find_cons]
    by_cases hbelow : first.1 < key
    · have hbound : lowerBound ((first :: rest).map Prod.fst) key =
          lowerBound (rest.map Prod.fst) key + 1 := by
        simp [lowerBound, List.findIdx_cons, hbelow]
      rw [if_neg hbelow.ne, hbound, List.getElem?_cons_succ, ih hrest]
    · have hbound : lowerBound ((first :: rest).map Prod.fst) key = 0 := by
        simp [lowerBound, List.findIdx_cons, hbelow]
      rw [hbound, List.getElem?_cons_zero]
      by_cases hkey : first.1 = key
      · simp [hkey]
      · -- every later key is above this one, and so above the key searched for
        have habove : key < first.1 := lt_of_le_of_ne (not_lt.mp hbelow) (Ne.symm hkey)
        have hnone : find rest key = none := by
          refine find_eq_none fun hmem => ?_
          obtain ⟨entry, hentry, heq⟩ := List.mem_map.mp hmem
          exact (habove.trans (hfirst entry hentry)).ne heq.symm
        simp [hkey, hnone]

/-- `emplace_back` on the list of a key. -/
def push (key : Key) (value : Value) (entries : SortedMap Key (List Value)) :
    SortedMap Key (List Value) :=
  set key ((find entries key).getD [] ++ [value]) entries

/-- The values of a key, in the order in which they were seen. -/
def valuesOf (seen : List (Key × Value)) (key : Key) : List Value :=
  (seen.filter fun entry => entry.1 = key).map Prod.snd

/-- Every key that was seen, with its values. -/
structure Groups (seen : List (Key × Value)) (entries : SortedMap Key (List Value)) : Prop where
  sorted : Sorted entries
  find : ∀ key, find entries key = if valuesOf seen key = [] then none else some (valuesOf seen key)

theorem Groups.nil : Groups ([] : List (Key × Value)) [] := ⟨.nil, fun _ => rfl⟩

theorem valuesOf_append (seen : List (Key × Value)) (entry : Key × Value) (key : Key) :
    valuesOf (seen ++ [entry]) key =
      valuesOf seen key ++ if entry.1 = key then [entry.2] else [] := by
  by_cases hkey : entry.1 = key <;> simp [valuesOf, hkey]

section

variable {seen : List (Key × Value)} {entries : SortedMap Key (List Value)}
  (hgroups : Groups seen entries)
include hgroups

theorem Groups.push (entry : Key × Value) :
    Groups (seen ++ [entry]) (push entry.1 entry.2 entries) where
  sorted := hgroups.sorted.set _ _
  find := fun key => by
    rw [SortedMap.push, find_set, hgroups.find, hgroups.find, valuesOf_append]
    by_cases hkey : entry.1 = key
    · subst hkey
      by_cases hnone : valuesOf seen entry.1 = [] <;> simp [hnone]
    · simp [hkey, Ne.symm hkey]

theorem Groups.of_mem {entry : Key × List Value} (hentry : entry ∈ entries) :
    entry.2 = valuesOf seen entry.1 ∧ entry.2 ≠ [] := by
  have hfind : SortedMap.find entries entry.1 = some entry.2 := by
    obtain ⟨value, hvalue⟩ := find_of_mem_keys (List.mem_map_of_mem hentry)
    have hsame := (hgroups.sorted.imp fun hless => ne_of_lt hless : entries.Pairwise
      fun first second => first.1 ≠ second.1)
    have hmember := mem_of_find hvalue
    have hkeys : (entries.map Prod.fst).Nodup := List.pairwise_map.mpr hsame
    rw [hvalue, List.inj_on_of_nodup_map hkeys hentry hmember rfl]
  rw [hgroups.find] at hfind
  split at hfind
  next => cases hfind
  next hsome =>
    obtain hsame := Option.some.inj hfind
    exact ⟨hsame.symm, hsame ▸ hsome⟩

theorem Groups.mem_keys (key : Key) :
    key ∈ entries.map Prod.fst ↔ key ∈ seen.map Prod.fst := by
  have hlisted : valuesOf seen key = [] ↔ key ∉ seen.map Prod.fst := by
    rw [valuesOf, List.map_eq_nil_iff, List.filter_eq_nil_iff, List.mem_map]
    constructor
    · rintro hnone ⟨entry, hentry, hkey⟩
      exact hnone entry hentry (decide_eq_true hkey)
    · intro hnone entry hentry hkey
      exact hnone ⟨entry, hentry, of_decide_eq_true hkey⟩
  constructor
  · intro hkey
    obtain ⟨entry, hentry, rfl⟩ := List.mem_map.mp hkey
    obtain ⟨hvalues, hsome⟩ := hgroups.of_mem hentry
    by_contra hnone
    exact hsome (hvalues.trans (hlisted.mpr hnone))
  · intro hkey
    by_contra hnone
    have hfind := hgroups.find key
    rw [find_eq_none hnone, if_neg fun hempty => hlisted.mp hempty hkey] at hfind
    cases hfind

end

end SortedMap

theorem exists_adjacent_eq_iff {keys : List Key} (hsorted : keys.Pairwise (· ≤ ·)) :
    (∃ pair ∈ keys.zip keys.tail, pair.1 = pair.2) ↔ ¬ keys.Nodup := by
  induction keys with
  | nil => simp
  | cons first keys ih =>
    obtain ⟨hfirst, hrest⟩ := List.pairwise_cons.mp hsorted
    cases keys with
    | nil => simp
    | cons second keys =>
      have hsplit : (∃ pair ∈ (first :: second :: keys).zip (first :: second :: keys).tail,
          pair.1 = pair.2) ↔ first = second ∨
            ∃ pair ∈ (second :: keys).zip (second :: keys).tail, pair.1 = pair.2 := by
        simp
      have hfront : first ∈ second :: keys ↔ first = second := by
        constructor
        · intro hmem
          rcases List.mem_cons.mp hmem with hsame | hlater
          · exact hsame
          · have hle := hfirst second List.mem_cons_self
            have hge := (List.pairwise_cons.mp hrest).1 first hlater
            exact le_antisymm hle hge
        · rintro rfl
          exact List.mem_cons_self
      rw [hsplit, ih hrest, ← hfront, @List.nodup_cons _ first, not_and_or, not_not]

end Foundation

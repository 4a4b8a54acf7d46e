import SkipCell.Foundation.Checks

/-! # Sets and maps of natural numbers

`natural_number_set_t` keeps its elements in a vector and in a bitset,
`natural_number_map_t` its values by key, with a bitset of the keys and a count.
-/

namespace SkipCell.Vamana

open Foundation

/-- The exceptions of the source, an assertion that fails, and what it leaves undefined: an
access out of bounds. -/
inductive Error
  | diskannException (what : String)
  | assertionFailed (what : String)
  | outOfBounds
  deriving DecidableEq

/-- The last value is the next one popped. -/
structure NaturalNumberSet where
  values : List Nat := []
  bits : List Bool := []

namespace NaturalNumberSet

variable (set : NaturalNumberSet)

def isEmpty : Bool := set.values.isEmpty

def size : Nat := set.values.length

def insert (id : Nat) : NaturalNumberSet where
  values := set.values ++ [id]
  bits := (set.bits ++ List.replicate (id + 1 - set.bits.length) false).set id true

def popAny : Except Error (Nat × NaturalNumberSet) :=
  match set.values.getLast? with
  | none => .error (.diskannException "No values available")
  | some id => .ok (id, ⟨set.values.dropLast, set.bits.set id false⟩)

/-- The bitset may only be tested below its size. -/
def isInSet (id : Nat) : Except Error Bool := element .outOfBounds set.bits id

/-- The vector and the bitset hold the same elements. -/
structure Valid : Prop where
  nodup : set.values.Nodup
  bits : ∀ id, set.bits[id]? = some true ↔ id ∈ set.values

variable {set} {id other : Nat}

theorem valid_empty : ({} : NaturalNumberSet).Valid := ⟨.nil, by simp⟩

theorem mem_insert : other ∈ (set.insert id).values ↔ other ∈ set.values ∨ other = id := by
  simp [insert]

theorem length_insert_values : (set.insert id).values.length = set.values.length + 1 := by
  simp [insert]

theorem length_insert_bits :
    (set.insert id).bits.length = max set.bits.length (id + 1) := by
  simp only [insert, List.length_set, List.length_append, List.length_replicate]
  omega

theorem Valid.insert (hvalid : set.Valid) (hnew : id ∉ set.values) : (set.insert id).Valid where
  nodup := List.nodup_append.mpr ⟨hvalid.nodup, List.nodup_singleton id, by
    intro first hfirst last hlast hsame
    exact hnew (List.mem_singleton.mp hlast ▸ hsame ▸ hfirst)⟩
  bits other := by
    rw [mem_insert, ← hvalid.bits]
    simp only [NaturalNumberSet.insert]
    by_cases hsame : other = id
    · subst hsame
      rw [List.getElem?_set_self (by simp; omega)]
      simp
    · rw [List.getElem?_set_ne (Ne.symm hsame), List.getElem?_append]
      split
      · simp [hsame]
      · next hlong =>
          rw [List.getElem?_eq_none (Nat.not_lt.mp hlong), List.getElem?_replicate]
          simp [hsame]

theorem isInSet_eq_ok (hvalid : set.Valid) (hid : id < set.bits.length) :
    set.isInSet id = .ok (decide (id ∈ set.values)) := by
  rw [isInSet, element_eq_ok]
  have hbits := hvalid.bits id
  rw [List.getElem?_eq_getElem hid] at hbits ⊢
  cases hbit : set.bits[id] with
  | false =>
    rw [hbit] at hbits
    have habsent : id ∉ set.values := fun hmem => by simpa using hbits.mpr hmem
    rw [decide_eq_false habsent]
  | true =>
    rw [hbit] at hbits
    rw [decide_eq_true (hbits.mp rfl)]

theorem popAny_spec (hvalid : set.Valid) (hsome : set.values ≠ []) :
    ∃ id rest, set.popAny = .ok (id, rest) ∧ set.values = rest.values ++ [id] ∧ rest.Valid ∧
      id ∉ rest.values ∧ rest.bits.length = set.bits.length := by
  rcases List.eq_nil_or_concat set.values with hnil | ⟨before, last, hlast⟩
  · exact absurd hnil hsome
  · rw [List.concat_eq_append] at hlast
    have hnodup := hvalid.nodup
    rw [hlast, List.nodup_append] at hnodup
    have hout : last ∉ before := fun hmem => hnodup.2.2 last hmem last List.mem_cons_self rfl
    refine ⟨last, ⟨before, set.bits.set last false⟩, ?_, hlast, ⟨hnodup.1, fun other => ?_⟩, hout,
      List.length_set⟩
    · rw [popAny, hlast, List.getLast?_concat]
      simp
    · have hbits := hvalid.bits other
      rw [hlast, List.mem_append, List.mem_singleton] at hbits
      by_cases hsame : other = last
      · subst hsame
        simp [List.getElem?_set, hout]
      · rw [List.getElem?_set_ne (Ne.symm hsame), hbits]
        simp [hsame]

theorem insert_of_popAny {rest : NaturalNumberSet} (hvalid : set.Valid)
    (hpop : set.popAny = .ok (id, rest)) : rest.insert id = set ∧ rest.isInSet id = .ok false := by
  rcases List.eq_nil_or_concat set.values with hnil | ⟨before, last, hlast⟩
  · rw [popAny, hnil] at hpop
    cases hpop
  · rw [List.concat_eq_append] at hlast
    rw [popAny, hlast, List.getLast?_concat] at hpop
    dsimp only at hpop
    rw [List.dropLast_concat] at hpop
    cases hpop
    have hbit : set.bits[id]? = some true := (hvalid.bits id).mpr (by simp [hlast])
    have hlong : id < set.bits.length := (List.getElem_of_getElem? hbit).1
    constructor
    · obtain ⟨values, bits⟩ := set
      dsimp only at hlast hbit hlong ⊢
      rw [insert, List.length_set, show id + 1 - bits.length = 0 by omega, List.replicate_zero,
        List.append_nil, List.set_set, hlast]
      congr 1
      refine List.ext_getElem? fun place => ?_
      by_cases hsame : place = id
      · subst hsame
        rw [List.getElem?_set_self hlong, hbit]
      · rw [List.getElem?_set_ne (Ne.symm hsame)]
    · rw [isInSet, element_eq_ok]
      exact List.getElem?_set_self hlong

end NaturalNumberSet

structure NaturalNumberMap (Value : Type) where
  entries : List (Option Value) := []
  size : Nat := 0

namespace NaturalNumberMap

variable {Value : Type} (map : NaturalNumberMap Value)

def tryGet (key : Nat) : Option Value := map.entries[key]?.join

def contains (key : Nat) : Bool := (map.tryGet key).isSome

def set (key : Nat) (value : Value) : NaturalNumberMap Value where
  entries := (map.entries ++ List.replicate (key + 1 - map.entries.length) none).set key
    (some value)
  size := if map.contains key then map.size else map.size + 1

def erase (key : Nat) : NaturalNumberMap Value where
  entries := map.entries.set key none
  size := if map.contains key then map.size - 1 else map.size

/-- The keys, in the order in which positions enumerate them. -/
def positions : List Nat := (List.range map.entries.length).filter (map.contains ·)

def keys : Finset Nat := (Finset.range map.entries.length).filter (map.contains · = true)

/-- The count is the number of the keys. -/
def Valid : Prop := map.size = map.keys.card

variable {map} {key other : Nat} {value : Value}

theorem valid_empty : ({} : NaturalNumberMap Value).Valid := rfl

@[simp]
theorem tryGet_empty : ({} : NaturalNumberMap Value).tryGet key = none := rfl

theorem contains_iff : map.contains key = true ↔ ∃ value, map.tryGet key = some value :=
  Option.isSome_iff_exists

theorem lt_of_contains (hcontains : map.contains key = true) : key < map.entries.length := by
  obtain ⟨value, hvalue⟩ := contains_iff.mp hcontains
  by_contra hlong
  rw [tryGet, List.getElem?_eq_none (Nat.not_lt.mp hlong)] at hvalue
  cases hvalue

@[simp]
theorem mem_keys : key ∈ map.keys ↔ map.contains key = true := by
  rw [keys, Finset.mem_filter, Finset.mem_range, and_iff_right_iff_imp]
  exact lt_of_contains

theorem tryGet_set : (map.set key value).tryGet other =
    if other = key then some value else map.tryGet other := by
  simp only [tryGet, set]
  split
  · next hsame =>
      subst hsame
      rw [List.getElem?_set_self (by simp; omega)]
      rfl
  · next hother =>
      rw [List.getElem?_set_ne (Ne.symm hother), List.getElem?_append]
      split
      · rfl
      · next hlong =>
          rw [List.getElem?_eq_none (Nat.not_lt.mp hlong), List.getElem?_replicate]
          split <;> rfl

theorem tryGet_erase : (map.erase key).tryGet other =
    if other = key then none else map.tryGet other := by
  simp only [tryGet, erase]
  split
  · next hsame =>
      subst hsame
      rw [List.getElem?_set]
      simp only [if_true]
      split <;> rfl
  · next hother => rw [List.getElem?_set_ne (Ne.symm hother)]

theorem keys_set : (map.set key value).keys = insert key map.keys := by
  ext other
  rw [Finset.mem_insert, mem_keys, mem_keys, contains, contains, tryGet_set]
  split <;> simp [*]

theorem keys_erase : (map.erase key).keys = map.keys.erase key := by
  ext other
  rw [Finset.mem_erase, mem_keys, mem_keys, contains, contains, tryGet_erase]
  split <;> simp [*]

theorem Valid.set (hvalid : map.Valid) (key : Nat) (value : Value) :
    (map.set key value).Valid := by
  rw [Valid, keys_set]
  simp only [NaturalNumberMap.set]
  split
  · next hpresent => rw [Finset.insert_eq_of_mem (mem_keys.mpr hpresent), hvalid]
  · next habsent =>
      rw [Finset.card_insert_of_notMem (fun hmem => habsent (mem_keys.mp hmem)), hvalid]

theorem Valid.erase (hvalid : map.Valid) (key : Nat) : (map.erase key).Valid := by
  rw [Valid, keys_erase]
  simp only [NaturalNumberMap.erase]
  split
  · next hpresent => rw [Finset.card_erase_of_mem (mem_keys.mpr hpresent), hvalid]
  · next habsent => rw [Finset.erase_eq_of_notMem (fun hmem => habsent (mem_keys.mp hmem)), hvalid]

theorem size_set_of_absent (habsent : map.contains key = false) :
    (map.set key value).size = map.size + 1 := by
  rw [set, habsent]
  rfl

theorem size_erase_of_present (hpresent : map.contains key = true) :
    (map.erase key).size = map.size - 1 := by
  rw [erase, hpresent]
  rfl

end NaturalNumberMap

end SkipCell.Vamana

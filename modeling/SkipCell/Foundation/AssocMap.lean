import Mathlib

/-! # Finite maps with distinct keys

`AssocMap` is Mathlib's `AList` at a constant value type. Its entries are read
as a multiset: the lemmas split off the entry of one key, and say what insertion
and erasure do to the keys and to the values.
-/

namespace Foundation

universe uKey uValue uItem

/-- A finite map, kept as a list of entries with pairwise distinct keys. -/
abbrev AssocMap (Key : Type uKey) (Value : Type uValue) := AList fun _ : Key => Value

namespace AssocMap

variable {Key : Type uKey} {Value : Type uValue}

/-- The stored values, in the order of the entries. -/
def values (entries : AssocMap Key Value) : List Value := entries.entries.map fun entry => entry.2

@[simp]
theorem values_empty : values (∅ : AssocMap Key Value) = [] := rfl

theorem length_values (entries : AssocMap Key Value) :
    (values entries).length = entries.entries.length :=
  List.length_map _

def mapValues (change : Value → Value) (entries : AssocMap Key Value) : AssocMap Key Value where
  entries := entries.entries.map fun entry => ⟨entry.1, change entry.2⟩
  nodupKeys := by
    have hkeys : (entries.entries.map fun entry : Sigma fun _ : Key => Value =>
        (⟨entry.1, change entry.2⟩ : Sigma fun _ : Key => Value)).keys = entries.entries.keys := by
      simp [List.keys, Function.comp_def]
    have hnodup := entries.nodupKeys
    rw [List.NodupKeys] at hnodup ⊢
    rwa [hkeys]

theorem mapValues_mapValues (change next : Value → Value) (entries : AssocMap Key Value) :
    mapValues next (mapValues change entries) = mapValues (next ∘ change) entries := by
  apply AList.ext
  simp [mapValues, Function.comp_def]

@[simp]
theorem mapValues_id (entries : AssocMap Key Value) : mapValues id entries = entries := by
  apply AList.ext
  simp [mapValues]

variable [DecidableEq Key]

/-- Inserts only when the key is absent, and keeps the stored value otherwise. -/
def emplace (key : Key) (value : Value) (entries : AssocMap Key Value) : AssocMap Key Value :=
  if key ∈ entries then entries else entries.insert key value

variable {key : Key} {entries : AssocMap Key Value} {value : Value}

theorem emplace_of_notMem (hkey : key ∉ entries) (value : Value) :
    emplace key value entries = entries.insert key value :=
  if_neg hkey

theorem mem_of_lookup (hlookup : entries.lookup key = some value) : key ∈ entries := by
  rw [← AList.lookup_isSome, hlookup]
  rfl

theorem exists_lookup (hkey : key ∈ entries) :
    ∃ value, entries.lookup key = some value :=
  Option.isSome_iff_exists.mp (AList.lookup_isSome.mpr hkey)

theorem entry_mem_iff :
    (⟨key, value⟩ : Sigma fun _ : Key => Value) ∈ entries.entries ↔
      entries.lookup key = some value :=
  AList.mem_lookup_iff.symm

section

variable {key : Key} {value : Value} {entries : AssocMap Key Value}
  (hlookup : entries.lookup key = some value)
include hlookup

theorem entries_perm_of_lookup :
    entries.entries.Perm (⟨key, value⟩ :: (entries.erase key).entries) := by
  have hnotin : key ∉ entries.erase key := by simp [AList.mem_erase]
  have hnodup : (⟨key, value⟩ :: (entries.erase key).entries).Nodup := by
    refine List.nodup_cons.mpr ⟨?_, (entries.erase key).nodupKeys.nodup⟩
    intro hmem
    exact hnotin (mem_of_lookup (entry_mem_iff.mp hmem))
  refine (List.perm_ext_iff_of_nodup entries.nodupKeys.nodup hnodup).mpr ?_
  rintro ⟨other, found⟩
  rw [List.mem_cons, entry_mem_iff, entry_mem_iff]
  by_cases hother : other = key
  · subst hother
    rw [hlookup, AList.lookup_erase]
    simp [eq_comm]
  · rw [AList.lookup_erase_ne hother]
    simp [hother]

theorem keys_perm_of_lookup :
    entries.keys.Perm (key :: (entries.erase key).keys) :=
  (entries_perm_of_lookup hlookup).map Sigma.fst

theorem values_perm_of_lookup :
    (values entries).Perm (value :: values (entries.erase key)) :=
  (entries_perm_of_lookup hlookup).map fun entry : (_ : Key) × Value => entry.2

theorem mem_values_of_lookup : value ∈ values entries :=
  (values_perm_of_lookup hlookup).mem_iff.mpr List.mem_cons_self

end

theorem mem_values :
    value ∈ values entries ↔ ∃ key, entries.lookup key = some value := by
  constructor
  · intro hvalue
    obtain ⟨⟨key, found⟩, hentry, rfl⟩ := List.mem_map.mp hvalue
    exact ⟨key, entry_mem_iff.mp hentry⟩
  · rintro ⟨key, hlookup⟩
    exact mem_values_of_lookup hlookup

theorem erase_of_notMem (hkey : key ∉ entries) :
    entries.erase key = entries :=
  AList.ext (List.kerase_of_notMem_keys hkey)

theorem values_insert (key : Key) (value : Value) (entries : AssocMap Key Value) :
    values (entries.insert key value) = value :: values (entries.erase key) := by
  rw [values, AList.entries_insert, List.map_cons]
  rfl

theorem values_insert_of_notMem (hkey : key ∉ entries) (value : Value) :
    values (entries.insert key value) = value :: values entries := by
  rw [values_insert, erase_of_notMem hkey]

/-- What `entry` gives for each item is inserted, one item after the other. -/
def insertAll {Item : Type uItem} (entry : Item → Option (Key × Value)) (items : List Item) :
    AssocMap Key Value :=
  items.foldl (fun entries item =>
    match entry item with
    | some (key, value) => entries.insert key value
    | none => entries) ∅

theorem insertAll_concat {Item : Type uItem} (entry : Item → Option (Key × Value))
    (items : List Item) (item : Item) :
    insertAll entry (items ++ [item]) =
      match entry item with
      | some (key, value) => (insertAll entry items).insert key value
      | none => insertAll entry items := by
  rw [insertAll, List.foldl_append]
  rfl

theorem lookup_insertAll {Item : Type uItem} {entry : Item → Option (Key × Value)}
    {items : List Item} :
    (insertAll entry items).lookup key = some value ↔
      ∃ before item after, items = before ++ item :: after ∧ entry item = some (key, value) ∧
        ∀ other ∈ after, ∀ found, entry other ≠ some (key, found) := by
  induction items using List.reverseRecOn with
  | nil => simp [insertAll]
  | append_singleton items last ih =>
    rw [insertAll_concat]
    have hkept : (∀ found, entry last ≠ some (key, found)) →
        ((insertAll entry items).lookup key = some value ↔
          ∃ before item after, items ++ [last] = before ++ item :: after ∧
            entry item = some (key, value) ∧
            ∀ other ∈ after, ∀ found, entry other ≠ some (key, found)) := by
      intro hlast
      rw [ih]
      constructor
      · rintro ⟨before, item, after, rfl, hitem, hafter⟩
        refine ⟨before, item, after ++ [last], by simp, hitem, fun other hother => ?_⟩
        rcases List.mem_append.mp hother with hold | hnew
        · exact hafter other hold
        · exact List.mem_singleton.mp hnew ▸ hlast
      · rintro ⟨before, item, after, hitems, hitem, hafter⟩
        rcases List.eq_nil_or_concat after with rfl | ⟨rest, other, rfl⟩
        · obtain ⟨-, hsame⟩ := List.append_inj' hitems rfl
          cases hsame
          exact absurd hitem (hlast value)
        · rw [List.concat_eq_append, ← List.cons_append, ← List.append_assoc] at hitems
          obtain ⟨hitems, -⟩ := List.append_inj' hitems rfl
          exact ⟨before, item, rest, hitems, hitem, fun other hother =>
            hafter other (by simp [hother])⟩
    cases hlast : entry last with
    | none => exact hkept fun found => by simp [hlast]
    | some inserted =>
      obtain ⟨newKey, newValue⟩ := inserted
      dsimp only
      by_cases hsame : key = newKey
      · subst hsame
        rw [AList.lookup_insert, Option.some_inj]
        constructor
        · rintro rfl
          exact ⟨items, last, [], rfl, hlast, by simp⟩
        · rintro ⟨before, item, after, hitems, hitem, hafter⟩
          rcases List.eq_nil_or_concat after with rfl | ⟨rest, other, rfl⟩
          · obtain ⟨-, hsame⟩ := List.append_inj' hitems rfl
            cases hsame
            rw [hlast] at hitem
            cases hitem
            rfl
          · rw [List.concat_eq_append, ← List.cons_append, ← List.append_assoc] at hitems
            obtain ⟨-, hsame⟩ := List.append_inj' hitems rfl
            cases hsame
            exact absurd hlast (hafter last (by simp) newValue)
      · rw [AList.lookup_insert_ne hsame]
        refine hkept fun found hfound => hsame ?_
        rw [hlast] at hfound
        cases hfound
        rfl

end AssocMap

end Foundation

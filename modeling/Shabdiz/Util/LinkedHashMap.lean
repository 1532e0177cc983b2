import Mathlib.Data.List.Nodup

/-!
# Maps in the order of insertion

A `LinkedHashMap` is gone through in the order in which its keys were first put into it: a key that
is put again keeps its place and changes its value.

## Main definitions

* `LinkedHashMap` — entries, no two with the same key
* `LinkedHashMap.get`, `LinkedHashMap.put` — the operations

## Main results

* `LinkedHashMap.keys_put` — the order of the keys
* `LinkedHashMap.get_put` — what is read after a value was put
* `LinkedHashMap.mem_entries_iff` — the entries are what is read
-/

namespace Shabdiz

/-- A map that keeps its keys in the order in which they came. -/
structure LinkedHashMap (κ ν : Type) where
  entries : List (κ × ν)
  nodup : (entries.map Prod.fst).Nodup
deriving DecidableEq

namespace LinkedHashMap

variable {κ ν : Type}

/-- The map without entries. -/
def empty : LinkedHashMap κ ν where
  entries := []
  nodup := List.Pairwise.nil

/-- The keys in their order. -/
def keys (map : LinkedHashMap κ ν) : List κ := map.entries.map Prod.fst

variable [DecidableEq κ] {map : LinkedHashMap κ ν} {key other : κ} {value : ν}

/-- `get`, where `none` is `null`. -/
def get (map : LinkedHashMap κ ν) (key : κ) : Option ν := map.entries.lookup key

/-- The entries with another value for a key that there is already. -/
def replace (entries : List (κ × ν)) (key : κ) (value : ν) : List (κ × ν) :=
  entries.map fun entry => if entry.1 = key then (key, value) else entry

theorem map_fst_replace (entries : List (κ × ν)) (key : κ) (value : ν) :
    (replace entries key value).map Prod.fst = entries.map Prod.fst := by
  rw [replace, List.map_map]
  refine List.map_congr_left fun entry _ => ?_
  rw [Function.comp_apply]
  split
  · next h => exact h.symm
  · rfl

/-- Put a value: a key that is there keeps its place. -/
def put (map : LinkedHashMap κ ν) (key : κ) (value : ν) : LinkedHashMap κ ν :=
  if h : key ∈ map.keys then
    ⟨replace map.entries key value, by rw [map_fst_replace]; exact map.nodup⟩
  else
    ⟨map.entries ++ [(key, value)], by
      rw [List.map_append, List.nodup_append_comm]
      exact List.nodup_cons.mpr ⟨h, map.nodup⟩⟩

/-- **The order of the keys**: a new key is the last one. -/
theorem keys_put : (map.put key value).keys =
    if key ∈ map.keys then map.keys else map.keys ++ [key] := by
  rw [put]
  split
  · exact map_fst_replace map.entries key value
  · exact List.map_append

theorem lookup_replace_self {entries : List (κ × ν)} (h : key ∈ entries.map Prod.fst) :
    (replace entries key value).lookup key = some value := by
  induction entries with
  | nil => exact absurd h List.not_mem_nil
  | cons entry entries ih =>
    rw [replace, List.map_cons]
    by_cases hentry : entry.1 = key
    · rw [if_pos hentry, List.lookup_cons_self]
    · have hrest : key ∈ entries.map Prod.fst :=
        (List.mem_cons.mp h).resolve_left (Ne.symm hentry)
      rw [if_neg hentry, List.lookup_cons, beq_false_of_ne (Ne.symm hentry)]
      exact ih hrest

theorem lookup_replace_of_ne (entries : List (κ × ν)) (hother : other ≠ key) :
    (replace entries key value).lookup other = entries.lookup other := by
  induction entries with
  | nil => rfl
  | cons entry entries ih =>
    rw [replace, List.map_cons, List.lookup_cons, List.lookup_cons]
    by_cases hentry : entry.1 = key
    · rw [if_pos hentry, hentry, beq_false_of_ne hother]
      exact ih
    · rw [if_neg hentry]
      cases other == entry.1 with
      | true => rfl
      | false => exact ih

theorem lookup_eq_none_of_notMem {entries : List (κ × ν)} (h : key ∉ entries.map Prod.fst) :
    entries.lookup key = none := by
  rw [List.lookup_eq_none_iff]
  intro entry hentry
  have hne : key ≠ entry.1 := by
    rintro rfl
    exact h (List.mem_map_of_mem hentry)
  simpa using hne

/-- **What is read after a value was put**: that value, and under another key what was there. -/
theorem get_put : (map.put key value).get other =
    if other = key then some value else map.get other := by
  rw [put, get, get]
  by_cases hother : other = key
  · subst hother
    rw [if_pos rfl]
    split
    · next h => exact lookup_replace_self h
    · next h =>
      rw [List.lookup_append, lookup_eq_none_of_notMem h, List.lookup_cons_self, Option.none_or]
  · rw [if_neg hother]
    split
    · exact lookup_replace_of_ne map.entries hother
    · rw [List.lookup_append, List.lookup_cons, beq_false_of_ne hother, List.lookup_nil,
        Option.or_none]

/-- **The entries are what is read**. -/
theorem mem_entries_iff : (key, value) ∈ map.entries ↔ map.get key = some value := by
  obtain ⟨entries, hnodup⟩ := map
  rw [get]
  induction entries with
  | nil => simp
  | cons entry entries ih =>
    obtain ⟨k, v⟩ := entry
    obtain ⟨hk, hnodup⟩ := List.nodup_cons.mp hnodup
    rw [List.mem_cons, ih hnodup, List.lookup_cons, Prod.mk.injEq]
    by_cases hkey : key = k
    · -- No other entry has the key.
      subst hkey
      rw [lookup_eq_none_of_notMem hk, beq_self_eq_true]
      simp [eq_comm]
    · rw [beq_false_of_ne hkey]
      simp [hkey]

theorem mem_keys_iff : key ∈ map.keys ↔ ∃ value, map.get key = some value := by
  constructor
  · intro h
    obtain ⟨⟨k, value⟩, hentry, rfl⟩ := List.mem_map.mp h
    exact ⟨value, mem_entries_iff.mp hentry⟩
  · rintro ⟨value, hvalue⟩
    exact List.mem_map.mpr ⟨(key, value), mem_entries_iff.mpr hvalue, rfl⟩

end LinkedHashMap

end Shabdiz

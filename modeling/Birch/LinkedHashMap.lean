import Mathlib.Data.List.Basic
import Mathlib.Data.List.Nodup
import Mathlib.Tactic.Common

/-!
# Insertion-ordered maps

A map that iterates over its entries in the order in which their keys were
first inserted.  Keys are distinct by construction.
-/

/-- Entries in insertion order, one for each key. -/
structure LinkedHashMap (Key Value : Type*) where
  entries : List (Key × Value)
  nodupKeys : (entries.map Prod.fst).Nodup
  deriving DecidableEq

namespace LinkedHashMap

variable {Key Value : Type*}

@[ext]
theorem ext {first second : LinkedHashMap Key Value}
    (entriesEq : first.entries = second.entries) : first = second := by
  cases first
  cases second
  simpa using entriesEq

def empty : LinkedHashMap Key Value := ⟨[], List.nodup_nil⟩

instance : EmptyCollection (LinkedHashMap Key Value) := ⟨empty⟩

instance : Inhabited (LinkedHashMap Key Value) := ⟨∅⟩

@[simp]
theorem entries_empty : (∅ : LinkedHashMap Key Value).entries = [] :=
  rfl

def keys (map : LinkedHashMap Key Value) : List Key :=
  map.entries.map Prod.fst

theorem nodup_keys_concat {entries : List (Key × Value)} {key : Key}
    (nodup : (entries.map Prod.fst).Nodup)
    (absent : key ∉ entries.map Prod.fst) (value : Value) :
    ((entries ++ [(key, value)]).map Prod.fst).Nodup := by
  rw [List.map_append, List.nodup_append]
  refine ⟨nodup, List.nodup_singleton _, ?_⟩
  intro old oldMem new newMem equal
  simp only [List.map_cons, List.map_nil, List.mem_singleton] at newMem
  exact absent (by rwa [← newMem, ← equal])

variable [DecidableEq Key]

/-- Replace the value at a key that is already present. -/
def overwrite (key : Key) (value : Value) (entry : Key × Value) : Key × Value :=
  if entry.1 = key then (entry.1, value) else entry

theorem map_fst_overwrite (key : Key) (value : Value)
    (entries : List (Key × Value)) :
    (entries.map (overwrite key value)).map Prod.fst =
      entries.map Prod.fst := by
  rw [List.map_map]
  apply List.map_congr_left
  intro entry _
  simp only [Function.comp_apply, overwrite]
  split <;> rfl

/-- `map[key] = value`: the last value given to a key stays. -/
def assign (map : LinkedHashMap Key Value) (key : Key) (value : Value) :
    LinkedHashMap Key Value :=
  if present : key ∈ map.keys then
    ⟨map.entries.map (overwrite key value), by
      rw [map_fst_overwrite]; exact map.nodupKeys⟩
  else
    ⟨map.entries ++ [(key, value)],
      nodup_keys_concat map.nodupKeys present value⟩

/-- `map.emplace(key, value)`: the first value given to a key stays. -/
def emplace (map : LinkedHashMap Key Value) (key : Key) (value : Value) :
    LinkedHashMap Key Value :=
  if present : key ∈ map.keys then
    map
  else
    ⟨map.entries ++ [(key, value)],
      nodup_keys_concat map.nodupKeys present value⟩

theorem entries_assign_of_absent {map : LinkedHashMap Key Value} {key : Key}
    (absent : key ∉ map.keys) (value : Value) :
    (map.assign key value).entries = map.entries ++ [(key, value)] := by
  simp [assign, absent]

theorem entries_emplace_of_absent {map : LinkedHashMap Key Value} {key : Key}
    (absent : key ∉ map.keys) (value : Value) :
    (map.emplace key value).entries = map.entries ++ [(key, value)] := by
  simp [emplace, absent]

/-- An entry after an assignment is the assigned one or an old one. -/
theorem mem_assign {map : LinkedHashMap Key Value} {key : Key} {value : Value}
    {entry : Key × Value} (member : entry ∈ (map.assign key value).entries) :
    entry = (key, value) ∨ entry ∈ map.entries := by
  by_cases present : key ∈ map.keys
  · simp only [assign, present, dite_true, List.mem_map] at member
    obtain ⟨old, oldMem, rfl⟩ := member
    by_cases equal : old.1 = key
    · left
      simp [overwrite, equal]
    · right
      simpa [overwrite, equal] using oldMem
  · rw [entries_assign_of_absent present, List.mem_append,
      List.mem_singleton] at member
    exact member.symm

theorem mem_emplace {map : LinkedHashMap Key Value} {key : Key} {value : Value}
    {entry : Key × Value} (member : entry ∈ (map.emplace key value).entries) :
    entry = (key, value) ∨ entry ∈ map.entries := by
  by_cases present : key ∈ map.keys
  · simp only [emplace, present, dite_true] at member
    exact Or.inr member
  · rw [entries_emplace_of_absent present, List.mem_append,
      List.mem_singleton] at member
    exact member.symm

end LinkedHashMap

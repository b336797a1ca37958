import Birch.LinkedHashMapWrites
import Mathlib.Data.List.Basic

/-!
# Erasure, and maps that index a list

A map to lists can index a list by a key of its items: under each key it has the
items with that key, and no key without items.  Adding an item to the list it
has for the key, and removing items from it, keep the map an index.
-/

namespace LinkedHashMap

variable {Key Value Item : Type*} [DecidableEq Key]

theorem entries_eq_nil_iff (map : LinkedHashMap Key Value) :
    map.entries = [] ↔ ∀ key, map.lookup key = none := by
  constructor
  · intro nil key
    rw [lookup, nil]
    rfl
  · intro missing
    cases entriesEq : map.entries with
    | nil => rfl
    | cons entry entries =>
        have absent := missing entry.1
        rw [lookup, entriesEq, List.lookup_cons_self] at absent
        cases absent

theorem lookup_entries_of_mem {entries : List (Key × Value)} {key : Key}
    {value : Value} (nodup : (entries.map Prod.fst).Nodup)
    (member : (key, value) ∈ entries) : entries.lookup key = some value := by
  induction entries with
  | nil => cases member
  | cons entry entries ih =>
      obtain ⟨absent, tailNodup⟩ := List.nodup_cons.mp nodup
      rcases List.mem_cons.mp member with rfl | later
      · exact List.lookup_cons_self
      · have different : key ≠ entry.1 := by
          intro equal
          exact absent (List.mem_map.mpr ⟨(key, value), later, equal⟩)
        have test : (key == entry.1) = false := by simpa using different
        rw [List.lookup_cons, test]
        exact ih tailNodup later

theorem mem_entries_of_lookup {entries : List (Key × Value)} {key : Key}
    {value : Value} (found : entries.lookup key = some value) :
    (key, value) ∈ entries := by
  induction entries with
  | nil => cases found
  | cons entry entries ih =>
      by_cases atKey : key = entry.1
      · rw [atKey, List.lookup_cons_self, Option.some.injEq] at found
        exact List.mem_cons.mpr (Or.inl (Prod.ext atKey found.symm))
      · have test : (key == entry.1) = false := by simpa using atKey
        rw [List.lookup_cons, test] at found
        exact List.mem_cons_of_mem entry (ih found)

theorem lookup_eq_some_iff (map : LinkedHashMap Key Value) (key : Key)
    (value : Value) :
    map.lookup key = some value ↔ (key, value) ∈ map.entries :=
  ⟨mem_entries_of_lookup, lookup_entries_of_mem map.nodupKeys⟩

theorem lookup_eq_none_iff (map : LinkedHashMap Key Value) (key : Key) :
    map.lookup key = none ↔ key ∉ map.keys :=
  lookup_eq_none_iff_keys map.entries key

theorem mem_keys_of_lookup {map : LinkedHashMap Key Value} {key : Key}
    {value : Value} (found : map.lookup key = some value) : key ∈ map.keys := by
  by_contra absent
  rw [(lookup_eq_none_iff map key).mpr absent] at found
  cases found

theorem exists_lookup_of_mem_keys {map : LinkedHashMap Key Value} {key : Key}
    (present : key ∈ map.keys) : ∃ value, map.lookup key = some value := by
  rw [← Option.ne_none_iff_exists', ne_eq, lookup_eq_none_iff]
  exact not_not_intro present

theorem entries_assign_of_mem {map : LinkedHashMap Key Value} {key : Key}
    (present : key ∈ map.keys) (value : Value) :
    (map.assign key value).entries = map.entries.map (overwrite key value) := by
  simp only [assign, present, dite_true]

/-! ## Erasure -/

def erase (map : LinkedHashMap Key Value) (key : Key) :
    LinkedHashMap Key Value :=
  ⟨map.entries.filter fun entry => entry.1 ≠ key,
    (List.filter_sublist.map Prod.fst).nodup map.nodupKeys⟩

theorem entries_erase (map : LinkedHashMap Key Value) (key : Key) :
    (map.erase key).entries = map.entries.filter fun entry => entry.1 ≠ key :=
  rfl

theorem mem_keys_erase (map : LinkedHashMap Key Value) (key other : Key) :
    other ∈ (map.erase key).keys ↔ other ∈ map.keys ∧ other ≠ key := by
  simp only [keys, entries_erase, List.mem_map, List.mem_filter,
    decide_eq_true_eq]
  constructor
  · rintro ⟨entry, ⟨member, different⟩, rfl⟩
    exact ⟨⟨entry, member, rfl⟩, different⟩
  · rintro ⟨⟨entry, member, rfl⟩, different⟩
    exact ⟨entry, ⟨member, different⟩, rfl⟩

theorem lookup_filter_ne (entries : List (Key × Value)) (key other : Key) :
    (entries.filter fun entry => entry.1 ≠ key).lookup other =
      if other = key then none else entries.lookup other := by
  induction entries with
  | nil => simp
  | cons entry entries ih =>
      rcases entry with ⟨first, value⟩
      by_cases erased : first = key
      · rw [List.filter_cons_of_neg (by simpa using erased), ih, List.lookup_cons]
        by_cases atKey : other = key
        · rw [if_pos atKey, if_pos atKey]
        · have test : (other == first) = false := by simpa [erased] using atKey
          rw [if_neg atKey, if_neg atKey, test]
      · rw [List.filter_cons_of_pos (by simpa using erased), List.lookup_cons,
          List.lookup_cons, ih]
        by_cases atFirst : other = first
        · simp [atFirst, erased]
        · have test : (other == first) = false := by simpa using atFirst
          simp only [test]

@[simp]
theorem lookup_erase (map : LinkedHashMap Key Value) (key other : Key) :
    (map.erase key).lookup other =
      if other = key then none else map.lookup other :=
  lookup_filter_ne map.entries key other

theorem erase_of_absent {map : LinkedHashMap Key Value} {key : Key}
    (absent : key ∉ map.keys) : map.erase key = map := by
  apply ext
  rw [entries_erase]
  apply List.filter_eq_self.mpr
  intro entry member
  have different : entry.1 ≠ key := by
    rintro rfl
    exact absent (List.mem_map_of_mem member)
  simpa using different

/-- What was inserted and erased again leaves the map as it was. -/
theorem erase_emplace_of_absent {map : LinkedHashMap Key Value} {key : Key}
    (absent : key ∉ map.keys) (value : Value) :
    (map.emplace key value).erase key = map := by
  apply ext
  have others : map.entries.filter (fun entry => entry.1 ≠ key) = map.entries :=
    congrArg entries (erase_of_absent absent)
  rw [entries_erase, entries_emplace_of_absent absent, List.filter_append, others]
  simp

theorem erase_assign (map : LinkedHashMap Key Value) (key : Key)
    (value : Value) : (map.assign key value).erase key = map.erase key := by
  apply ext
  rw [entries_erase, entries_erase]
  by_cases present : key ∈ map.keys
  · rw [entries_assign_of_mem present, List.filter_map]
    have sameTest : (fun entry : Key × Value => decide (entry.1 ≠ key)) ∘
        overwrite key value = fun entry => decide (entry.1 ≠ key) := by
      funext entry
      simp only [Function.comp_apply, overwrite]
      split <;> rfl
    rw [sameTest]
    have unchanged : (map.entries.filter fun entry => entry.1 ≠ key).map
        (overwrite key value) =
          (map.entries.filter fun entry => entry.1 ≠ key).map id := by
      apply List.map_congr_left
      intro entry member
      have different : entry.1 ≠ key := by simpa using (List.mem_filter.mp member).2
      exact if_neg different
    rw [unchanged, List.map_id]
  · rw [entries_assign_of_absent present, List.filter_append]
    simp

theorem perm_erase {map : LinkedHashMap Key Value} {key : Key} {value : Value}
    (found : map.lookup key = some value) :
    map.entries.Perm ((key, value) :: (map.erase key).entries) := by
  rw [List.perm_ext_iff_of_nodup]
  · rintro ⟨other, otherValue⟩
    rw [List.mem_cons, entries_erase, List.mem_filter, ← lookup_eq_some_iff]
    by_cases atKey : other = key
    · subst atKey
      simp [found, eq_comm]
    · simp [atKey]
  · exact List.Nodup.of_map Prod.fst map.nodupKeys
  · rw [List.nodup_cons]
    refine ⟨?_, List.Nodup.of_map Prod.fst (map.erase key).nodupKeys⟩
    simp [entries_erase]

/-- What an assignment keeps of the value it replaces is kept of all values. -/
theorem map_assign_of_lookup {Feature : Type*} (feature : Value → Feature)
    {map : LinkedHashMap Key Value} {key : Key} {old value : Value}
    (found : map.lookup key = some old) (same : feature value = feature old) :
    (map.assign key value).entries.map (fun entry => feature entry.2) =
      map.entries.map fun entry => feature entry.2 := by
  rw [entries_assign_of_mem (mem_keys_of_lookup found), List.map_map]
  apply List.map_congr_left
  rintro ⟨other, otherValue⟩ member
  simp only [Function.comp_apply, overwrite]
  split
  · rename_i atKey
    rw [atKey, ← lookup_eq_some_iff, found, Option.some.injEq] at member
    rw [same, member]
  · rfl

/-! ## Items of the values -/

section Items

variable {Item : Type*} (items : Key → Value → List Item)
  {map : LinkedHashMap Key Value} {key : Key} {old : Value} {keep : Item → Bool}

/-- An assignment that drops items of one value drops them from all. -/
theorem flatMap_assign_filter (found : map.lookup key = some old) {value : Value}
    (here : items key value = (items key old).filter keep)
    (elsewhere : ∀ other otherValue, map.lookup other = some otherValue →
      other ≠ key → (items other otherValue).filter keep = items other otherValue) :
    ((map.assign key value).entries.flatMap fun entry => items entry.1 entry.2) =
      (map.entries.flatMap fun entry => items entry.1 entry.2).filter keep := by
  rw [entries_assign_of_mem (mem_keys_of_lookup found), List.flatMap_map,
    List.filter_flatMap, List.flatMap_def, List.flatMap_def]
  congr 1
  apply List.map_congr_left
  rintro ⟨other, otherValue⟩ member
  have atOther := (lookup_eq_some_iff map other otherValue).mpr member
  by_cases atKey : other = key
  · subst atKey
    obtain rfl := Option.some.inj (found.symm.trans atOther)
    simpa [overwrite] using here
  · simpa [overwrite, atKey] using (elsewhere other otherValue atOther atKey).symm

/-- So does the erasure of a value without items that are kept. -/
theorem flatMap_erase_filter (found : map.lookup key = some old)
    (here : (items key old).filter keep = [])
    (elsewhere : ∀ other otherValue, map.lookup other = some otherValue →
      other ≠ key → (items other otherValue).filter keep = items other otherValue) :
    ((map.erase key).entries.flatMap fun entry => items entry.1 entry.2) =
      (map.entries.flatMap fun entry => items entry.1 entry.2).filter keep := by
  have kept : ∀ entry ∈ map.entries,
      (items entry.1 entry.2).filter keep =
        if entry.1 ≠ key then items entry.1 entry.2 else [] := by
    rintro ⟨other, otherValue⟩ member
    have atOther := (lookup_eq_some_iff map other otherValue).mpr member
    by_cases atKey : other = key
    · subst atKey
      obtain rfl := Option.some.inj (found.symm.trans atOther)
      simpa using here
    · simpa [atKey] using elsewhere other otherValue atOther atKey
  rw [entries_erase, List.filter_flatMap, List.flatMap_def, List.flatMap_def,
    List.map_congr_left kept]
  induction map.entries with
  | nil => rfl
  | cons entry entries ih =>
      by_cases atKey : entry.1 = key
      · simpa [atKey] using ih
      · simpa [atKey] using ih

theorem mem_flatMap_entries (item : Item) :
    (item ∈ map.entries.flatMap fun entry => items entry.1 entry.2) ↔
      ∃ key value, map.lookup key = some value ∧ item ∈ items key value := by
  simp only [List.mem_flatMap, Prod.exists, lookup_eq_some_iff]

end Items

/-! ## Indexes -/

/-- Append to the list under the key: `map[key].push_back(value)`. -/
def push (map : LinkedHashMap Key (List Value)) (key : Key) (value : Value) :
    LinkedHashMap Key (List Value) :=
  map.assign key ((map.lookup key).getD [] ++ [value])

/-- Remove values from the list under the key, and the key with the last of
them. -/
def removeIf (map : LinkedHashMap Key (List Value)) (key : Key)
    (drops : Value → Bool) : LinkedHashMap Key (List Value) :=
  match map.lookup key with
  | none => map
  | some values =>
      if (values.filter fun value => !drops value) = [] then map.erase key
      else map.assign key (values.filter fun value => !drops value)

/-- No list for an empty one. -/
def nonempty (values : List Value) : Option (List Value) :=
  if values.isEmpty then none else some values

@[simp]
theorem getD_nonempty (values : List Value) : (nonempty values).getD [] = values := by
  cases values <;> rfl

@[simp]
theorem nonempty_eq_none_iff (values : List Value) :
    nonempty values = none ↔ values = [] := by
  cases values <;> simp [nonempty]

theorem nonempty_eq_some_iff (values other : List Value) :
    nonempty values = some other ↔ values = other ∧ other ≠ [] := by
  cases values with
  | nil => simp +contextual [nonempty, eq_comm]
  | cons value values =>
      simp only [nonempty, List.isEmpty_cons, Bool.false_eq_true, if_false,
        Option.some.injEq]
      constructor
      · rintro rfl
        exact ⟨rfl, List.cons_ne_nil value values⟩
      · exact And.left

theorem lookup_push (map : LinkedHashMap Key (List Value)) (key other : Key)
    (value : Value) :
    (map.push key value).lookup other =
      if other = key then some ((map.lookup key).getD [] ++ [value])
      else map.lookup other :=
  lookup_assign map key other _

theorem lookup_removeIf (map : LinkedHashMap Key (List Value)) (key other : Key)
    (drops : Value → Bool) :
    (map.removeIf key drops).lookup other =
      if other = key then
        (map.lookup key).bind fun values =>
          nonempty (values.filter fun value => !drops value)
      else map.lookup other := by
  unfold removeIf
  cases found : map.lookup key with
  | none =>
      by_cases atKey : other = key
      · simp [atKey, found]
      · simp [atKey]
  | some values =>
      by_cases noneLeft : (values.filter fun value => !drops value) = []
      · simp only [noneLeft, if_true, lookup_erase, Option.bind_some]
        rfl
      · have test : (values.filter fun value => !drops value).isEmpty = false := by
          rw [Bool.eq_false_iff, ne_eq, List.isEmpty_iff]
          exact noneLeft
        simp only [if_neg noneLeft, lookup_assign, Option.bind_some, nonempty,
          test, Bool.false_eq_true, if_false]

variable (map : LinkedHashMap Key (List Value)) (keyOf : Item → Key)
  (valueOf : Item → Value) (items : List Item)

/-- What the index has of the items under a key. -/
def under (key : Key) : List Value :=
  (items.filter fun item => keyOf item = key).map valueOf

/-- The map has the items under their keys, in order, and no other keys. -/
def Indexes : Prop :=
  ∀ key, map.lookup key = nonempty (under keyOf valueOf items key)

variable {map keyOf valueOf items}

theorem indexes_empty : (∅ : LinkedHashMap Key (List Value)).Indexes keyOf valueOf [] := by
  intro key
  rfl

theorem under_concat (item : Item) (key : Key) :
    under keyOf valueOf (items ++ [item]) key =
      under keyOf valueOf items key ++
        if keyOf item = key then [valueOf item] else [] := by
  by_cases atKey : keyOf item = key <;>
    simp [under, List.filter_append, atKey]

theorem Indexes.push (indexes : map.Indexes keyOf valueOf items) (item : Item) :
    (map.push (keyOf item) (valueOf item)).Indexes keyOf valueOf
      (items ++ [item]) := by
  intro key
  rw [lookup_push, under_concat]
  by_cases atKey : key = keyOf item
  · subst atKey
    rw [if_pos rfl, if_pos rfl, indexes (keyOf item), getD_nonempty, nonempty]
    simp
  · rw [if_neg atKey, if_neg (Ne.symm atKey), List.append_nil, indexes key]

/-- Removal from one key removes from all of the list, where no other key has
anything to remove. -/
theorem Indexes.removeIf (indexes : map.Indexes keyOf valueOf items) (key : Key)
    (drops : Value → Bool)
    (only : ∀ item ∈ items, drops (valueOf item) = true → keyOf item = key) :
    (map.removeIf key drops).Indexes keyOf valueOf
      (items.filter fun item => !drops (valueOf item)) := by
  intro other
  have kept : under keyOf valueOf
      (items.filter fun item => !drops (valueOf item)) other =
        (under keyOf valueOf items other).filter fun value => !drops value := by
    simp only [under, List.filter_map, List.filter_filter, Function.comp_def,
      Bool.and_comm]
  rw [lookup_removeIf, kept]
  by_cases atKey : other = key
  · rw [if_pos atKey, atKey, indexes key]
    cases values : under keyOf valueOf items key with
    | nil => rfl
    | cons value values => rfl
  · rw [if_neg atKey, indexes other]
    congr 1
    symm
    apply List.filter_eq_self.mpr
    intro value member
    obtain ⟨item, itemMem, rfl⟩ := List.mem_map.mp member
    obtain ⟨itemMem, itemKey⟩ := List.mem_filter.mp itemMem
    cases dropped : drops (valueOf item) with
    | false => rfl
    | true =>
        have atOther : keyOf item = other := by simpa using itemKey
        exact absurd (atOther.symm.trans (only item itemMem dropped)) atKey

theorem Indexes.entries_eq_nil_iff (indexes : map.Indexes keyOf valueOf items) :
    map.entries = [] ↔ items = [] := by
  rw [LinkedHashMap.entries_eq_nil_iff]
  constructor
  · intro missing
    cases items with
    | nil => rfl
    | cons item items =>
        have absent := missing (keyOf item)
        rw [indexes, nonempty_eq_none_iff] at absent
        simp [under] at absent
  · rintro rfl key
    rw [indexes]
    rfl

/-- Items in the order of their keys. -/
theorem flatMap_filter_perm (keyOf : Item → Key) {keys : List Key}
    (nodup : keys.Nodup) {items : List Item}
    (covered : ∀ item ∈ items, keyOf item ∈ keys) :
    (keys.flatMap fun key => items.filter fun item => keyOf item = key).Perm
      items := by
  induction keys generalizing items with
  | nil =>
      rw [List.eq_nil_iff_forall_not_mem.mpr fun item member =>
        List.not_mem_nil (covered item member)]
      exact List.Perm.refl _
  | cons key keys ih =>
      obtain ⟨absent, tailNodup⟩ := List.nodup_cons.mp nodup
      have others : ∀ item ∈ items.filter fun item => keyOf item ≠ key,
          keyOf item ∈ keys := by
        intro item member
        obtain ⟨itemMem, different⟩ := List.mem_filter.mp member
        exact (List.mem_cons.mp (covered item itemMem)).resolve_left
          (by simpa using different)
      have later : (keys.flatMap fun other =>
          items.filter fun item => keyOf item = other) =
            keys.flatMap fun other =>
              (items.filter fun item => keyOf item ≠ key).filter
                fun item => keyOf item = other := by
        simp only [List.flatMap_def]
        congr 1
        apply List.map_congr_left
        intro other otherMem
        rw [List.filter_filter]
        apply List.filter_congr
        intro item _
        have different : other ≠ key := by
          rintro rfl
          exact absent otherMem
        by_cases atOther : keyOf item = other
        · simp [atOther, different]
        · simp [atOther]
      have split := List.filter_append_perm (fun item => decide (keyOf item = key))
        items
      rw [List.flatMap_cons, later]
      refine ((ih tailNodup others).append_left _).trans ?_
      simpa using split

/-- The values of the index are those of the items. -/
theorem Indexes.mem_iff (indexes : map.Indexes keyOf valueOf items)
    (key : Key) (value : Value) :
    (∃ values, (key, values) ∈ map.entries ∧ value ∈ values) ↔
      ∃ item ∈ items, keyOf item = key ∧ valueOf item = value := by
  have found : ∀ values, (key, values) ∈ map.entries ↔
      under keyOf valueOf items key = values ∧ values ≠ [] := by
    intro values
    rw [← lookup_eq_some_iff, indexes, nonempty_eq_some_iff]
  constructor
  · rintro ⟨values, entryMem, valueMem⟩
    obtain ⟨rfl, _⟩ := (found values).mp entryMem
    obtain ⟨item, itemMem, valueEq⟩ := List.mem_map.mp valueMem
    obtain ⟨itemMem, itemKey⟩ := List.mem_filter.mp itemMem
    exact ⟨item, itemMem, by simpa using itemKey, valueEq⟩
  · rintro ⟨item, itemMem, itemKey, rfl⟩
    have member : valueOf item ∈ under keyOf valueOf items key :=
      List.mem_map_of_mem (List.mem_filter.mpr ⟨itemMem, by simpa using itemKey⟩)
    exact ⟨_, (found _).mpr ⟨rfl, List.ne_nil_of_mem member⟩, member⟩

theorem Indexes.values_eq (indexes : map.Indexes keyOf valueOf items)
    {entry : Key × List Value} (member : entry ∈ map.entries) :
    entry.2 = under keyOf valueOf items entry.1 := by
  have found := indexes entry.1
  rw [(lookup_eq_some_iff map entry.1 entry.2).mpr member] at found
  exact ((nonempty_eq_some_iff _ _).mp found.symm).1.symm

/-- The values of the index under their keys are those of the items. -/
theorem Indexes.perm (indexes : map.Indexes keyOf valueOf items) :
    (map.entries.flatMap fun entry =>
      entry.2.map fun value => (entry.1, value)).Perm
        (items.map fun item => (keyOf item, valueOf item)) := by
  have covered : ∀ item ∈ items, keyOf item ∈ map.keys := by
    intro item member
    obtain ⟨values, entryMem, _⟩ :=
      (indexes.mem_iff (keyOf item) (valueOf item)).mpr ⟨item, member, rfl, rfl⟩
    exact List.mem_map.mpr ⟨_, entryMem, rfl⟩
  have byKeys : (map.entries.flatMap fun entry =>
      entry.2.map fun value => (entry.1, value)) =
        (map.keys.flatMap fun key =>
          items.filter fun item => keyOf item = key).map
            fun item => (keyOf item, valueOf item) := by
    rw [List.map_flatMap, keys, List.flatMap_map]
    simp only [List.flatMap_def]
    congr 1
    apply List.map_congr_left
    intro entry member
    rw [indexes.values_eq member, under, List.map_map]
    apply List.map_congr_left
    intro item itemMem
    have atKey : keyOf item = entry.1 := by
      simpa using (List.mem_filter.mp itemMem).2
    simp [atKey]
  rw [byKeys]
  exact (flatMap_filter_perm keyOf map.nodupKeys covered).map _

end LinkedHashMap

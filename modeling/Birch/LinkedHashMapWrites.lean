import Birch.LinkedHashMap
import Mathlib.Data.List.Induction

/-!
# Sequences of writes to an insertion-ordered map

A write either assigns to its key or inserts only where the key is absent.  The
writes of a key that stand are its first one and the assigning ones: the last
of these gives the value.
-/

namespace LinkedHashMap

variable {Key Value : Type*}

theorem lookup_eq_none_iff_keys [DecidableEq Key]
    (entries : List (Key × Value)) (key : Key) :
    entries.lookup key = none ↔ key ∉ entries.map Prod.fst := by
  rw [List.lookup_eq_none_iff]
  constructor
  · intro different member
    obtain ⟨entry, entryMem, rfl⟩ := List.mem_map.mp member
    simpa using different entry entryMem
  · intro absent entry entryMem
    have atEntry : key ≠ entry.1 := by
      rintro rfl
      exact absent (List.mem_map_of_mem entryMem)
    simpa using atEntry

/-- A write that assigns to its key, or one that only inserts it. -/
structure Write (Key Value : Type*) where
  key : Key
  value : Value
  assigns : Bool
  deriving DecidableEq

/-- Of writes to one key, the first and the ones that assign. -/
def firstAndAssigning : List (Write Key Value) → List (Write Key Value)
  | [] => []
  | first :: others => first :: others.filter Write.assigns

theorem firstAndAssigning_concat (writes : List (Write Key Value))
    (last : Write Key Value) :
    firstAndAssigning (writes ++ [last]) =
      firstAndAssigning writes ++
        if last.assigns = true ∨ writes = [] then [last] else [] := by
  cases writes with
  | nil => simp [firstAndAssigning]
  | cons first others =>
      by_cases assigns : last.assigns = true <;>
        simp [firstAndAssigning, List.filter_append, assigns]

variable [DecidableEq Key]

def lookup (map : LinkedHashMap Key Value) (key : Key) : Option Value :=
  map.entries.lookup key

theorem keys_assign (map : LinkedHashMap Key Value) (key : Key) (value : Value) :
    (map.assign key value).keys =
      if key ∈ map.keys then map.keys else map.keys ++ [key] := by
  by_cases present : key ∈ map.keys
  · rw [if_pos present, keys]
    simp only [assign, present, dite_true]
    exact map_fst_overwrite key value map.entries
  · rw [if_neg present, keys, entries_assign_of_absent present]
    simp [keys]

theorem keys_emplace (map : LinkedHashMap Key Value) (key : Key)
    (value : Value) :
    (map.emplace key value).keys =
      if key ∈ map.keys then map.keys else map.keys ++ [key] := by
  by_cases present : key ∈ map.keys
  · simp only [emplace, present, dite_true, if_true]
  · rw [if_neg present, keys, entries_emplace_of_absent present]
    simp [keys]

theorem mem_keys_emplace (map : LinkedHashMap Key Value) (key other : Key)
    (value : Value) :
    other ∈ (map.emplace key value).keys ↔ other ∈ map.keys ∨ other = key := by
  rw [keys_emplace]
  split
  · rename_i present
    constructor
    · exact Or.inl
    · rintro (old | rfl)
      · exact old
      · exact present
  · rw [List.mem_append, List.mem_singleton]

theorem mem_keys_assign (map : LinkedHashMap Key Value) (key other : Key)
    (value : Value) :
    other ∈ (map.assign key value).keys ↔ other ∈ map.keys ∨ other = key := by
  rw [keys_assign, ← keys_emplace map key value]
  exact mem_keys_emplace map key other value

theorem lookup_map_overwrite (entries : List (Key × Value)) (key other : Key)
    (value : Value) :
    (entries.map (overwrite key value)).lookup other =
      if other = key then (entries.lookup key).map fun _ => value
      else entries.lookup other := by
  induction entries with
  | nil => simp
  | cons entry entries ih =>
      rcases entry with ⟨first, old⟩
      by_cases atFirst : other = first
      · subst atFirst
        by_cases atKey : other = key
        · simp [overwrite, atKey]
        · simp [overwrite, atKey]
      · have test : (other == first) = false := by simpa using atFirst
        by_cases atKey : first = key
        · subst atKey
          simp [overwrite, List.lookup_cons, test, ih, atFirst]
        · have keyTest : (key == first) = false := by simpa using Ne.symm atKey
          simp [overwrite, List.lookup_cons, test, keyTest, ih, atKey]

theorem lookup_concat (entries : List (Key × Value)) (key other : Key)
    (value : Value) :
    (entries ++ [(key, value)]).lookup other =
      (entries.lookup other).or (if other = key then some value else none) := by
  induction entries with
  | nil =>
      by_cases atKey : other = key
      · simp [atKey]
      · have test : (other == key) = false := by simpa using atKey
        simp [List.lookup_cons, atKey, test]
  | cons entry entries ih =>
      rcases entry with ⟨first, old⟩
      by_cases atFirst : other = first
      · simp [atFirst]
      · have test : (other == first) = false := by simpa using atFirst
        simp [List.lookup_cons, test, ih]

theorem lookup_assign (map : LinkedHashMap Key Value) (key other : Key)
    (value : Value) :
    (map.assign key value).lookup other =
      if other = key then some value else map.lookup other := by
  by_cases present : key ∈ map.keys
  · have found : map.entries.lookup key ≠ none :=
      mt (lookup_eq_none_iff_keys map.entries key).mp (not_not_intro present)
    obtain ⟨old, lookupEq⟩ := Option.ne_none_iff_exists'.mp found
    rw [lookup, assign, dif_pos present, lookup_map_overwrite, lookupEq]
    rfl
  · have missing := (lookup_eq_none_iff_keys map.entries key).mpr present
    rw [lookup, entries_assign_of_absent present, lookup_concat]
    by_cases atKey : other = key
    · simp [atKey, missing]
    · simp [atKey, lookup]

theorem lookup_emplace (map : LinkedHashMap Key Value) (key other : Key)
    (value : Value) :
    (map.emplace key value).lookup other =
      if other = key ∧ key ∉ map.keys then some value
      else map.lookup other := by
  by_cases present : key ∈ map.keys
  · rw [emplace, dif_pos present]
    simp [present]
  · have missing := (lookup_eq_none_iff_keys map.entries key).mpr present
    rw [lookup, entries_emplace_of_absent present, lookup_concat]
    by_cases atKey : other = key
    · simp [atKey, missing, present]
    · simp [atKey, lookup]

theorem entries_eq_of_lookup {first second : List (Key × Value)}
    (nodup : (first.map Prod.fst).Nodup)
    (keysEq : first.map Prod.fst = second.map Prod.fst)
    (lookupEq : ∀ key, first.lookup key = second.lookup key) :
    first = second := by
  induction first generalizing second with
  | nil => simpa using keysEq.symm
  | cons entry first ih =>
      rcases entry with ⟨key, value⟩
      rcases second with _ | ⟨⟨otherKey, otherValue⟩, second⟩
      · simp at keysEq
      · obtain ⟨rfl, tailEq⟩ := List.cons.inj keysEq
        obtain ⟨absent, tailNodup⟩ := List.nodup_cons.mp nodup
        have valueEq := lookupEq key
        simp only [List.lookup_cons_self, Option.some.injEq] at valueEq
        rw [valueEq, ih tailNodup tailEq]
        intro other
        by_cases atKey : other = key
        · subst atKey
          rw [(lookup_eq_none_iff_keys first other).mpr absent,
            (lookup_eq_none_iff_keys second other).mpr (tailEq ▸ absent)]
        · have test : (other == key) = false := by simpa using atKey
          simpa [List.lookup_cons, test] using lookupEq other

/-- A map is its keys in order and what it has for them. -/
theorem eq_of_keys_of_lookup {first second : LinkedHashMap Key Value}
    (keysEq : first.keys = second.keys)
    (lookupEq : ∀ key, first.lookup key = second.lookup key) :
    first = second :=
  ext (entries_eq_of_lookup first.nodupKeys keysEq lookupEq)

/-! ## Writes -/

def write (map : LinkedHashMap Key Value) (entry : Write Key Value) :
    LinkedHashMap Key Value :=
  if entry.assigns then map.assign entry.key entry.value
  else map.emplace entry.key entry.value

def writeAll (map : LinkedHashMap Key Value) (writes : List (Write Key Value)) :
    LinkedHashMap Key Value :=
  writes.foldl write map

/-- The keys that are written, in the order of their first writes. -/
def writtenKeys (writes : List (Write Key Value)) : List Key :=
  (writes.map Write.key).eraseDups

/-- The value of the last write of a key. -/
def lastWritten (writes : List (Write Key Value)) (key : Key) : Option Value :=
  (writes.filter fun entry => entry.key = key).getLast?.map Write.value

/-- The writes of a key that stand. -/
def standing (writes : List (Write Key Value)) (key : Key) :
    List (Write Key Value) :=
  firstAndAssigning (writes.filter fun entry => entry.key = key)

def lastStanding (writes : List (Write Key Value)) (key : Key) : Option Value :=
  (standing writes key).getLast?.map Write.value

theorem writeAll_concat (map : LinkedHashMap Key Value)
    (writes : List (Write Key Value)) (last : Write Key Value) :
    map.writeAll (writes ++ [last]) = (map.writeAll writes).write last := by
  simp [writeAll]

theorem writeAll_append (map : LinkedHashMap Key Value)
    (first second : List (Write Key Value)) :
    map.writeAll (first ++ second) = (map.writeAll first).writeAll second := by
  simp [writeAll]

theorem keys_write (map : LinkedHashMap Key Value) (entry : Write Key Value) :
    (map.write entry).keys =
      if entry.key ∈ map.keys then map.keys else map.keys ++ [entry.key] := by
  unfold write
  split
  · exact keys_assign map entry.key entry.value
  · exact keys_emplace map entry.key entry.value

theorem lookup_write (map : LinkedHashMap Key Value) (entry : Write Key Value)
    (key : Key) :
    (map.write entry).lookup key =
      if key = entry.key ∧ (entry.assigns = true ∨ key ∉ map.keys) then
        some entry.value
      else
        map.lookup key := by
  unfold write
  split
  · rename_i assigns
    simp [lookup_assign, assigns]
  · rename_i inserts
    rw [lookup_emplace]
    simp only [inserts, Bool.false_eq_true, false_or]
    by_cases atKey : key = entry.key <;> simp [atKey]

theorem eraseDups_concat (keys : List Key) (key : Key) :
    (keys ++ [key]).eraseDups =
      if key ∈ keys then keys.eraseDups else keys.eraseDups ++ [key] := by
  rw [List.eraseDups_append]
  by_cases present : key ∈ keys <;>
    simp [present, List.removeAll, List.eraseDups_cons]

/-- The keys are in the order of their first writes. -/
theorem keys_writeAll (writes : List (Write Key Value)) :
    (writeAll ∅ writes).keys = writtenKeys writes := by
  unfold writtenKeys
  induction writes using List.reverseRecOn with
  | nil => rfl
  | append_singleton writes last ih =>
      simp only [writeAll_concat, keys_write, ih, List.map_append,
        List.map_singleton, eraseDups_concat, List.mem_eraseDups]

theorem mem_keys_writeAll (writes : List (Write Key Value)) (key : Key) :
    key ∈ (writeAll ∅ writes).keys ↔ key ∈ writes.map Write.key := by
  rw [keys_writeAll, writtenKeys, List.mem_eraseDups]

theorem standing_concat_self (writes : List (Write Key Value))
    (last : Write Key Value) :
    standing (writes ++ [last]) last.key =
      standing writes last.key ++
        if last.assigns = true ∨ last.key ∉ writes.map Write.key then [last]
        else [] := by
  have noneBefore : writes.filter (fun entry => entry.key = last.key) = [] ↔
      last.key ∉ writes.map Write.key := by
    simp [List.filter_eq_nil_iff]
  rw [standing, List.filter_append, show [last].filter
    (fun entry => entry.key = last.key) = [last] by simp,
    firstAndAssigning_concat]
  simp only [noneBefore]
  rfl

theorem standing_concat_of_ne (writes : List (Write Key Value))
    (last : Write Key Value) {key : Key} (other : key ≠ last.key) :
    standing (writes ++ [last]) key = standing writes key := by
  simp [standing, List.filter_append, Ne.symm other]

theorem lastStanding_concat (writes : List (Write Key Value))
    (last : Write Key Value) (key : Key) :
    lastStanding (writes ++ [last]) key =
      if key = last.key ∧ (last.assigns = true ∨ key ∉ writes.map Write.key) then
        some last.value
      else
        lastStanding writes key := by
  by_cases atKey : key = last.key
  · subst atKey
    rw [lastStanding, standing_concat_self]
    by_cases stands : last.assigns = true ∨ last.key ∉ writes.map Write.key
    · rw [if_pos stands, if_pos ⟨rfl, stands⟩, List.getLast?_concat]
      rfl
    · rw [if_neg stands, if_neg fun both => stands both.2, List.append_nil]
      rfl
  · rw [lastStanding, standing_concat_of_ne writes last atKey]
    simp [atKey, lastStanding]

theorem lastWritten_concat (writes : List (Write Key Value))
    (last : Write Key Value) (key : Key) :
    lastWritten (writes ++ [last]) key =
      if key = last.key then some last.value else lastWritten writes key := by
  rw [lastWritten, List.filter_append]
  by_cases atKey : key = last.key
  · rw [List.filter_cons_of_pos (by simp [atKey]), List.filter_nil,
      List.getLast?_concat, if_pos atKey]
    rfl
  · rw [List.filter_cons_of_neg (by simp [Ne.symm atKey]), List.filter_nil,
      List.append_nil, if_neg atKey]
    rfl

/-- The value of a key is the one of its last standing write. -/
theorem lookup_writeAll (writes : List (Write Key Value)) (key : Key) :
    (writeAll ∅ writes).lookup key = lastStanding writes key := by
  induction writes using List.reverseRecOn with
  | nil => rfl
  | append_singleton writes last ih =>
      simp only [writeAll_concat, lookup_write, lastStanding_concat, ih,
        mem_keys_writeAll]

/-! ## The last write of a key -/

theorem lastStanding_of_filter {first second : List (Write Key Value)}
    {key : Key}
    (same : first.filter (fun entry => entry.key = key) =
      second.filter (fun entry => entry.key = key)) :
    lastStanding first key = lastStanding second key := by
  rw [lastStanding, lastStanding, standing, standing, same]

theorem exists_last_write {writes : List (Write Key Value)} {key : Key}
    (written : key ∈ writes.map Write.key) :
    ∃ before entry after, writes = before ++ entry :: after ∧
      entry.key = key ∧ key ∉ after.map Write.key := by
  induction writes using List.reverseRecOn with
  | nil => cases written
  | append_singleton writes last ih =>
      by_cases atKey : last.key = key
      · exact ⟨writes, last, [], rfl, atKey, List.not_mem_nil⟩
      · have earlier : key ∈ writes.map Write.key := by
          simpa [Ne.symm atKey] using written
        obtain ⟨before, entry, after, rfl, entryKey, noLater⟩ := ih earlier
        refine ⟨before, entry, after ++ [last], by simp, entryKey, ?_⟩
        simpa [Ne.symm atKey] using noLater

section Last

variable {before after : List (Write Key Value)} {entry : Write Key Value}

theorem filter_last (noLater : entry.key ∉ after.map Write.key) :
    (before ++ entry :: after).filter (fun other => other.key = entry.key) =
      (before ++ [entry]).filter fun other => other.key = entry.key := by
  have none : after.filter (fun other => other.key = entry.key) = [] := by
    simpa [List.filter_eq_nil_iff] using noLater
  simp [List.filter_append, none]

theorem lastWritten_of_last (noLater : entry.key ∉ after.map Write.key) :
    lastWritten (before ++ entry :: after) entry.key = some entry.value := by
  rw [lastWritten, filter_last noLater, List.filter_append,
    List.filter_cons_of_pos (by simp), List.filter_nil, List.getLast?_concat]
  rfl

theorem lastStanding_of_last (noLater : entry.key ∉ after.map Write.key) :
    lastStanding (before ++ entry :: after) entry.key =
      if entry.assigns = true ∨ entry.key ∉ before.map Write.key then
        some entry.value
      else lastStanding before entry.key := by
  rw [lastStanding_of_filter (filter_last noLater), lastStanding_concat]
  simp only [true_and]

end Last

/-- The last write of every key is the one that gives the value exactly if each
one that only inserts into a key that is there has the value already. -/
theorem lastStanding_eq_lastWritten_iff (writes : List (Write Key Value)) :
    (∀ key, lastStanding writes key = lastWritten writes key) ↔
      ∀ before entry after, writes = before ++ entry :: after →
        entry.assigns = false → entry.key ∈ before.map Write.key →
          entry.key ∉ after.map Write.key →
            lastStanding before entry.key = some entry.value := by
  constructor
  · rintro agree before entry after rfl inserts present noLater
    have atKey := agree entry.key
    rw [lastWritten_of_last noLater, lastStanding_of_last noLater, if_neg] at atKey
    · exact atKey
    · simp [inserts, present]
  · intro each key
    by_cases written : key ∈ writes.map Write.key
    · obtain ⟨before, entry, after, rfl, rfl, noLater⟩ :=
        exists_last_write written
      rw [lastWritten_of_last noLater, lastStanding_of_last noLater]
      split
      · rfl
      · rename_i falls
        simp only [not_or, Bool.not_eq_true, Decidable.not_not] at falls
        exact each before entry after rfl falls.1 falls.2 noLater
    · have none : writes.filter (fun entry => entry.key = key) = [] := by
        simpa [List.filter_eq_nil_iff] using written
      rw [lastStanding, standing, lastWritten, none]
      rfl

/-! ## One write made the other way -/

/-- The same write, the other way. -/
def Write.swap (entry : Write Key Value) : Write Key Value :=
  { entry with assigns := !entry.assigns }

/-- The value of the last write that assigns to a key. -/
def lastAssigned (writes : List (Write Key Value)) (key : Key) : Option Value :=
  (writes.filter fun entry => entry.key = key ∧ entry.assigns = true).getLast?.map
    Write.value

theorem lastAssigned_eq_none_iff (writes : List (Write Key Value)) (key : Key) :
    lastAssigned writes key = none ↔
      ¬ ∃ entry ∈ writes, entry.key = key ∧ entry.assigns = true := by
  simp [lastAssigned]

theorem lastAssigned_concat (writes : List (Write Key Value))
    (last : Write Key Value) (key : Key) :
    lastAssigned (writes ++ [last]) key =
      if last.key = key ∧ last.assigns = true then some last.value
      else lastAssigned writes key := by
  by_cases seen : last.key = key ∧ last.assigns = true
  · rw [lastAssigned, List.filter_append, List.filter_cons_of_pos (by simpa using seen),
      List.filter_nil, List.getLast?_concat, if_pos seen]
    rfl
  · rw [lastAssigned, List.filter_append, List.filter_cons_of_neg (by simpa using seen),
      List.filter_nil, List.append_nil, if_neg seen]
    rfl

/-- Writes to a map that has the key: only the ones that assign are seen. -/
theorem lookup_writeAll_of_mem {map : LinkedHashMap Key Value} {key : Key}
    (present : key ∈ map.keys) (writes : List (Write Key Value)) :
    key ∈ (map.writeAll writes).keys ∧
      (map.writeAll writes).lookup key =
        (lastAssigned writes key).or (map.lookup key) := by
  induction writes using List.reverseRecOn with
  | nil => exact ⟨present, rfl⟩
  | append_singleton writes last ih =>
      obtain ⟨stays, valueEq⟩ := ih
      rw [writeAll_concat, keys_write, lookup_write, lastAssigned_concat, valueEq]
      constructor
      · split
        · exact stays
        · exact List.mem_append_left _ stays
      · by_cases seen : last.key = key ∧ last.assigns = true
        · rw [if_pos seen, if_pos ⟨seen.1.symm, Or.inl seen.2⟩]
          rfl
        · rw [if_neg seen, if_neg]
          rintro ⟨atKey, assigns | absent⟩
          · exact seen ⟨atKey.symm, assigns⟩
          · exact absent stays

/-- The value of a key that is written between other writes. -/
theorem lookup_writeAll_between (before after : List (Write Key Value))
    (middle : Write Key Value) {key : Key} (atKey : middle.key = key) :
    (writeAll ∅ (before ++ middle :: after)).lookup key =
      (lastAssigned after key).or
        (if middle.assigns = true ∨ key ∉ before.map Write.key then
          some middle.value
        else lastStanding before key) := by
  subst atKey
  have present : middle.key ∈ (writeAll ∅ (before ++ [middle])).keys := by
    rw [mem_keys_writeAll]
    simp
  rw [← List.singleton_append, ← List.append_assoc, writeAll_append,
    (lookup_writeAll_of_mem present after).2, lookup_writeAll,
    lastStanding_concat]
  simp only [true_and]

/-- Only the key of a write can tell in which way it was made. -/
theorem writeAll_swap_iff_lookup (before after : List (Write Key Value))
    (entry : Write Key Value) :
    writeAll ∅ (before ++ entry.swap :: after) =
        writeAll ∅ (before ++ entry :: after) ↔
      (writeAll ∅ (before ++ entry.swap :: after)).lookup entry.key =
        (writeAll ∅ (before ++ entry :: after)).lookup entry.key := by
  constructor
  · intro same
    rw [same]
  · intro atKey
    apply eq_of_keys_of_lookup
    · simp only [keys_writeAll, writtenKeys, List.map_append, List.map_cons,
        Write.swap]
    · intro key
      by_cases isKey : entry.key = key
      · rw [← isKey, atKey]
      · rw [lookup_writeAll, lookup_writeAll]
        apply lastStanding_of_filter
        simp [List.filter_append, Write.swap, isKey]

/-- A write may be made the other way exactly if it is the first of its key, a
later one assigns to the key, or the key has the value already. -/
theorem writeAll_swap_iff (before after : List (Write Key Value))
    (entry : Write Key Value) :
    writeAll ∅ (before ++ entry.swap :: after) =
        writeAll ∅ (before ++ entry :: after) ↔
      entry.key ∉ before.map Write.key ∨
        (∃ later ∈ after, later.key = entry.key ∧ later.assigns = true) ∨
        lastStanding before entry.key = some entry.value := by
  have sameKey : entry.swap.key = entry.key := rfl
  have unseen := lastAssigned_eq_none_iff after entry.key
  rw [writeAll_swap_iff_lookup, lookup_writeAll_between before after entry rfl,
    lookup_writeAll_between before after entry.swap sameKey]
  rcases assigned : lastAssigned after entry.key with _ | value
  · have noLater := unseen.mp assigned
    by_cases absent : entry.key ∉ before.map Write.key
    · simp [absent, Write.swap]
    · rcases entry with ⟨key, value, assigns⟩
      cases assigns
      · simp only [Write.swap, Option.none_or, absent, noLater, Bool.not_false,
          true_or, if_true, false_or, Bool.false_eq_true, if_false]
        exact eq_comm
      · simp only [Write.swap, Option.none_or, absent, noLater, Bool.not_true,
          if_true, false_or, or_false, Bool.false_eq_true, if_false]
  · have later : ∃ later ∈ after,
        later.key = entry.key ∧ later.assigns = true := by
      by_contra noLater
      rw [unseen.mpr noLater] at assigned
      cases assigned
    simp [later]

end LinkedHashMap

import Birch.LinkedHashMapIndex
import Mathlib.Data.List.Dedup

/-!
# What remains of a history of additions and removals

A history adds items, and takes out all items of some kind.  What remains are
the items that were added and not taken out since, in the order of the additions
and as often as they were added.  A map tracks a history if its keys are the
items that remain.
-/

namespace ChangeHistory

variable {Item : Type*}

/-- An item is added, or every item that is `gone` is taken out. -/
inductive Change (Item : Type*)
  | add (item : Item)
  | remove (gone : Item → Bool)

def Change.removes : Change Item → Item → Bool
  | add _, _ => false
  | remove gone, item => gone item

/-- One of the changes takes the item out. -/
def removed (changes : List (Change Item)) (item : Item) : Bool :=
  changes.any fun change => change.removes item

/-- The items that were added and not taken out since. -/
def remaining : List (Change Item) → List Item
  | [] => []
  | .add item :: later =>
      if removed later item then remaining later else item :: remaining later
  | .remove _ :: later => remaining later

theorem removed_append (first second : List (Change Item)) (item : Item) :
    removed (first ++ second) item =
      (removed first item || removed second item) :=
  List.any_append

/-- Of what remains after the first changes, the second ones take out some. -/
theorem remaining_append (first second : List (Change Item)) :
    remaining (first ++ second) =
      (remaining first).filter (fun item => !removed second item) ++
        remaining second := by
  induction first with
  | nil => rfl
  | cons change first ih =>
      cases change with
      | remove gone => exact ih
      | add item =>
          simp only [List.cons_append, remaining, removed_append, ih]
          by_cases before : removed first item = true
          · simp [before]
          · by_cases after : removed second item = true <;>
              simp [before, after]

theorem remaining_concat_add (history : List (Change Item)) (item : Item) :
    remaining (history ++ [.add item]) = remaining history ++ [item] := by
  rw [remaining_append]
  simp [remaining, removed, Change.removes]

theorem remaining_concat_remove (history : List (Change Item))
    (gone : Item → Bool) :
    remaining (history ++ [.remove gone]) =
      (remaining history).filter fun item => !gone item := by
  rw [remaining_append]
  simp [remaining, removed, Change.removes]

end ChangeHistory

namespace LinkedHashMap

open ChangeHistory

variable {Key Value : Type*} [DecidableEq Key]

/-- The keys of the map are the ones that remain. -/
def Tracks (map : LinkedHashMap Key Value) (history : List (Change Key)) :
    Prop :=
  ∀ key, key ∈ map.keys ↔ key ∈ remaining history

namespace Tracks

variable {map : LinkedHashMap Key Value} {history : List (Change Key)}

omit [DecidableEq Key] in
theorem empty : Tracks (∅ : LinkedHashMap Key Value) [] := by
  intro key
  exact Iff.rfl

theorem emplace (tracks : Tracks map history) (key : Key) (value : Value) :
    Tracks (map.emplace key value) (history ++ [.add key]) := by
  intro other
  rw [mem_keys_emplace, remaining_concat_add, List.mem_append,
    List.mem_singleton, tracks other]

theorem erase (tracks : Tracks map history) (key : Key) :
    Tracks (map.erase key) (history ++ [.remove (· = key)]) := by
  intro other
  rw [mem_keys_erase, remaining_concat_remove, List.mem_filter, tracks other]
  simp

omit [DecidableEq Key] in
theorem add_of_mem (tracks : Tracks map history) {key : Key}
    (present : key ∈ map.keys) : Tracks map (history ++ [.add key]) := by
  intro other
  rw [remaining_concat_add, List.mem_append, List.mem_singleton, ← tracks other]
  constructor
  · exact Or.inl
  · rintro (old | rfl)
    · exact old
    · exact present

/-- Assigning to a key that is there changes no key. -/
theorem assign_of_mem (tracks : Tracks map history) {key : Key}
    (present : key ∈ map.keys) (value : Value) :
    Tracks (map.assign key value) history := by
  intro other
  rw [keys_assign, if_pos present]
  exact tracks other

/-- There is one key for each different item that remains. -/
theorem length_entries (tracks : Tracks map history) :
    map.entries.length = (remaining history).dedup.length := by
  have perm : map.keys.Perm (remaining history).dedup := by
    apply (List.perm_ext_iff_of_nodup map.nodupKeys (List.nodup_dedup _)).mpr
    intro key
    rw [List.mem_dedup]
    exact tracks key
  have lengths := perm.length_eq
  rwa [keys, List.length_map] at lengths

end Tracks

end LinkedHashMap

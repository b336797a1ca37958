import Birch.LinkedHashMapIndex
import Mathlib.Data.List.Perm.Basic
import Mathlib.Data.List.Nodup

/-!
# Ledgers of resources

A system hands out resources that are not in use, and takes them back.  The
ledger has the resources that are in use, and those that were given back when
they were not.  A program is in order when its resources, each of which it has
once, are the ones in use.
-/

structure ResourceLedger (Resource : Type*) where
  opened : List Resource := []
  faults : List Resource := []

namespace ResourceLedger

variable {Resource : Type*}

/-- The resources in use are these, each of them once, and none was given back
that was not in use. -/
structure Owned (ledger : ResourceLedger Resource) (owned : List Resource) :
    Prop where
  perm : ledger.opened.Perm owned
  nodup : owned.Nodup
  noFault : ledger.faults = []

theorem owned_initial : Owned ({} : ResourceLedger Resource) [] :=
  ⟨List.Perm.refl _, List.nodup_nil, rfl⟩

namespace Owned

variable {ledger : ResourceLedger Resource} {owned other : List Resource}

theorem reorder (owns : Owned ledger owned) (perm : owned.Perm other) :
    Owned ledger other :=
  ⟨owns.perm.trans perm, perm.nodup_iff.mp owns.nodup, owns.noFault⟩

theorem mem_iff (owns : Owned ledger owned) (resource : Resource) :
    resource ∈ ledger.opened ↔ resource ∈ owned :=
  owns.perm.mem_iff

theorem opened_eq_nil (owns : Owned ledger []) : ledger.opened = [] :=
  owns.perm.eq_nil

end Owned

section Moves

variable [DecidableEq Resource]

/-- The resource is handed out, if it is not in use. -/
def acquire (ledger : ResourceLedger Resource) (resource : Resource) :
    Option (ResourceLedger Resource) :=
  if resource ∈ ledger.opened then none
  else some { ledger with opened := resource :: ledger.opened }

def release (ledger : ResourceLedger Resource) (resource : Resource) :
    ResourceLedger Resource :=
  if resource ∈ ledger.opened then
    { ledger with opened := ledger.opened.erase resource }
  else
    { ledger with faults := ledger.faults ++ [resource] }

variable {ledger next : ResourceLedger Resource} {owned : List Resource}
  {resource : Resource}

/-- What was handed out and taken back leaves the ledger as it was. -/
theorem release_of_acquire (acquired : ledger.acquire resource = some next) :
    next.release resource = ledger := by
  unfold acquire at acquired
  split at acquired
  · cases acquired
  · cases acquired
    rw [release, if_pos List.mem_cons_self, List.erase_cons_head]

theorem Owned.acquire (owns : Owned ledger owned)
    (acquired : ledger.acquire resource = some next) :
    Owned next (resource :: owned) := by
  unfold ResourceLedger.acquire at acquired
  split at acquired
  · cases acquired
  · rename_i free
    cases acquired
    have notOwned : resource ∉ owned := by
      intro used
      exact free ((owns.mem_iff resource).mpr used)
    exact ⟨owns.perm.cons resource, List.nodup_cons.mpr ⟨notOwned, owns.nodup⟩,
      owns.noFault⟩

theorem Owned.release (owns : Owned ledger (resource :: owned)) :
    Owned (ledger.release resource) owned := by
  have used : resource ∈ ledger.opened :=
    (owns.mem_iff resource).mpr List.mem_cons_self
  have erased := owns.perm.erase resource
  rw [List.erase_cons_head] at erased
  rw [ResourceLedger.release, if_pos used]
  exact ⟨erased, (List.nodup_cons.mp owns.nodup).2, owns.noFault⟩

end Moves

/-! ## Resources of the values of a map -/

section Map

open LinkedHashMap

variable {Key Value : Type*} (resources : Value → List Resource)

/-- The resources of all values. -/
def heldBy (map : LinkedHashMap Key Value) : List Resource :=
  map.entries.flatMap fun entry => resources entry.2

variable [DecidableEq Key] {map : LinkedHashMap Key Value} {key : Key}

/-- A value has its resources apart from the others. -/
theorem heldBy_perm {value : Value} (found : map.lookup key = some value) :
    (heldBy resources map).Perm
      (resources value ++ heldBy resources (map.erase key)) :=
  (perm_erase found).flatMap_right _

theorem heldBy_assign (map : LinkedHashMap Key Value) (key : Key) (value : Value) :
    (heldBy resources (map.assign key value)).Perm
      (resources value ++ heldBy resources (map.erase key)) := by
  have found : (map.assign key value).lookup key = some value := by
    rw [lookup_assign, if_pos rfl]
  have perm := heldBy_perm resources found
  rwa [erase_assign] at perm

theorem heldBy_emplace (absent : key ∉ map.keys) (value : Value) :
    (heldBy resources (map.emplace key value)).Perm
      (resources value ++ heldBy resources map) := by
  rw [heldBy, entries_emplace_of_absent absent, List.flatMap_append,
    List.flatMap_singleton]
  exact List.perm_append_comm

end Map

end ResourceLedger

import Mathlib.Data.List.Perm.Basic
import Mathlib.Tactic.Common

/-!
# Counted references

An object with shared owners is destroyed by the one who gives up the last
reference.  Only a count of the references is kept; it is right if it is the
number of those who hold one.
-/

namespace SharedOwnership

variable {Holder : Type*}

/-- Of a weak reference a strong one is made, unless the object is gone. -/
def lock (useCount : Nat) : Option Nat :=
  if useCount = 0 then none else some (useCount + 1)

/-- The count after a release, and whether it was the last one. -/
def release (useCount : Nat) : Nat × Bool :=
  (useCount - 1, useCount == 1)

def Counts (useCount : Nat) (holders : List Holder) : Prop :=
  useCount = holders.length

namespace Counts

variable {useCount locked : Nat} {holders others : List Holder} {holder : Holder}

theorem perm (counts : Counts useCount holders) (perm : holders.Perm others) :
    Counts useCount others := by
  rw [Counts, counts, perm.length_eq]

/-- A holder makes another reference of the one it has. -/
theorem copy (counts : Counts useCount holders) (holder : Holder) :
    Counts (useCount + 1) (holder :: holders) := by
  rw [Counts, counts, List.length_cons]

theorem lock (counts : Counts useCount holders)
    (locks : SharedOwnership.lock useCount = some locked) (holder : Holder) :
    Counts locked (holder :: holders) ∧ holders ≠ [] := by
  unfold SharedOwnership.lock at locks
  split at locks
  · cases locks
  · rename_i used
    cases locks
    refine ⟨counts.copy holder, ?_⟩
    rintro rfl
    exact used counts

theorem release (counts : Counts useCount holders)
    (perm : holders.Perm (holder :: others)) :
    Counts (SharedOwnership.release useCount).1 others := by
  have total := counts.perm perm
  rw [Counts, List.length_cons] at total
  rw [Counts, SharedOwnership.release, total, Nat.add_sub_cancel]

/-- The object is destroyed by the one who holds the only reference. -/
theorem last_iff (counts : Counts useCount holders)
    (perm : holders.Perm (holder :: others)) :
    (SharedOwnership.release useCount).2 = true ↔ others = [] := by
  have total := counts.perm perm
  rw [Counts, List.length_cons] at total
  rw [SharedOwnership.release, total, beq_iff_eq, Nat.add_eq_right,
    List.length_eq_zero_iff]

end Counts

end SharedOwnership

import Mathlib.Data.List.Basic
import Mathlib.Tactic.Common

/-!
# Lists of entries that die

Entries of a list may die at any time, and dead ones may be dropped at any time.
Two lists are the same to a reader who skips the dead entries if their live
entries are the same, in the same order and as often.
-/

namespace LiveEntries

variable {Entry : Type*} {live later : Entry → Bool}
  {first second third : List Entry}

def SameLive (live : Entry → Bool) (first second : List Entry) : Prop :=
  first.filter live = second.filter live

theorem SameLive.refl (entries : List Entry) : SameLive live entries entries :=
  rfl

theorem SameLive.append {firstEnd secondEnd : List Entry}
    (same : SameLive live first second)
    (sameEnd : SameLive live firstEnd secondEnd) :
    SameLive live (first ++ firstEnd) (second ++ secondEnd) := by
  rw [SameLive, List.filter_append, List.filter_append, same, sameEnd]

/-- What is taken out of both lists is taken out of their live entries. -/
theorem SameLive.filter (same : SameLive live first second)
    (keep : Entry → Bool) :
    SameLive live (first.filter keep) (second.filter keep) := by
  rw [SameLive, List.filter_comm, same, List.filter_comm]

theorem filter_fading (fades : ∀ entry ∈ first,
      later entry = true → live entry = true) :
    (first.filter live).filter later = first.filter later := by
  rw [List.filter_filter]
  apply List.filter_congr
  intro entry member
  by_cases stays : later entry = true
  · simp [stays, fades entry member stays]
  · simp [stays]

/-- No entry comes back to life, so the lists stay the same. -/
theorem SameLive.fade (same : SameLive live first second)
    (fadesFirst : ∀ entry ∈ first, later entry = true → live entry = true)
    (fadesSecond : ∀ entry ∈ second, later entry = true → live entry = true) :
    SameLive later first second := by
  rw [SameLive, ← filter_fading fadesFirst, ← filter_fading fadesSecond, same]

/-- A dead entry can be dropped. -/
theorem SameLive.drop {entry : Entry} {before after : List Entry}
    (same : SameLive live (before ++ entry :: after) second)
    (dead : live entry = false) : SameLive live (before ++ after) second := by
  rw [SameLive, ← same, List.filter_append, List.filter_append,
    List.filter_cons_of_neg (by simp [dead])]

/-- What is read from the live entries of the two lists. -/
theorem SameLive.filterMap {Value : Type*} {read : Entry → Option Value}
    (same : SameLive (fun entry => (read entry).isSome) first second) :
    first.filterMap read = second.filterMap read := by
  have ofLive : ∀ entries : List Entry, entries.filterMap read =
      (entries.filter fun entry => (read entry).isSome).filterMap read := by
    intro entries
    rw [List.filterMap_filter]
    apply List.filterMap_congr
    intro entry _
    cases read entry <;> rfl
  rw [ofLive first, ofLive second, same]

end LiveEntries

import Mathlib.Tactic.Common

/-!
# Strands

A strand takes the work that is submitted to it in order, and one piece at a
time.  What a piece of work has become while it runs is its task: nothing else
is taken until the strand is done with it.
-/

structure Strand (Work Task : Type*) where
  queue : List Work := []
  running : Option Task := none
  deriving DecidableEq

namespace Strand

variable {Work Task : Type*}

/-- Work that is dispatched to an idle strand runs at once. -/
def Idle (strand : Strand Work Task) : Prop :=
  strand.running = none ∧ strand.queue = []

instance (strand : Strand Work Task) : Decidable strand.Idle :=
  decidable_of_iff (strand.running.isNone ∧ strand.queue.isEmpty) (by
    rw [Idle, Option.isNone_iff_eq_none, List.isEmpty_iff])

def submit (strand : Strand Work Task) (work : Work) : Strand Work Task :=
  { strand with queue := strand.queue ++ [work] }

/-- The next piece of work, if the strand is free for it. -/
def take (strand : Strand Work Task) : Option (Work × Strand Work Task) :=
  match strand.running, strand.queue with
  | none, work :: queue => some (work, { strand with queue })
  | _, _ => none

def hold (strand : Strand Work Task) (task : Task) : Strand Work Task :=
  { strand with running := some task }

def finish (strand : Strand Work Task) : Strand Work Task :=
  { strand with running := none }

variable {strand rest : Strand Work Task} {work other : Work}

@[simp]
theorem queue_submit : (strand.submit work).queue = strand.queue ++ [work] :=
  rfl

@[simp]
theorem running_hold (task : Task) : (strand.hold task).running = some task :=
  rfl

@[simp]
theorem running_finish : strand.finish.running = none :=
  rfl

theorem take_eq_some (taken : strand.take = some (work, rest)) :
    strand.running = none ∧ rest.running = none ∧
      strand.queue = work :: rest.queue := by
  unfold take at taken
  split at taken
  · rename_i free queue
    obtain ⟨rfl, rfl⟩ := Prod.mk.inj (Option.some.inj taken)
    exact ⟨free, free, queue⟩
  · cases taken

/-- Work that is submitted later stays behind the next piece. -/
theorem head?_submit (next : strand.queue.head? = some work) :
    (strand.submit other).queue.head? = some work := by
  rw [queue_submit, List.head?_append, next]
  rfl

end Strand

import Mathlib.Data.List.Induction
import Mathlib.Tactic.Common

/-!
# Debouncers

A debouncer gathers the ids that are marked, and calls back in rounds.  A round
is about the ids that were marked since the one before it, each once however
often it was marked, and makes the calls that a table has for them when the
round begins.  Nothing is marked while a round is going on.  This file says of
a list of actions whether it is what can be seen of a debouncer.
-/

namespace Debouncing

/-- What can be seen of a debouncer. -/
inductive Action (Id Call : Type*)
  | mark (ids : List Id)
  | reset
  | begin (order : List Id) (table : Id → List Call)
  | call (call : Call)
  | finish

/-- What a round is about, the table that it looks into, and the calls that it
has made so far. -/
structure Round (Id Call : Type*) where
  order : List Id
  table : Id → List Call
  made : List Call := []

variable {Id Call : Type*}

/-- The call is one of the last round, which is the first one in the list. -/
def record (call : Call) : List (Round Id Call) → List (Round Id Call)
  | [] => []
  | round :: earlier => { round with made := round.made ++ [call] } :: earlier

namespace Action

/-- The ids that wait for a round after the action. -/
def marks (waiting : List Id) : Action Id Call → List Id
  | .mark ids => waiting ++ ids
  | .reset | .begin _ _ => []
  | .call _ | .finish => waiting

def rounds (before : List (Round Id Call)) :
    Action Id Call → List (Round Id Call)
  | .begin order table => { order, table } :: before
  | .call made => record made before
  | .mark _ | .reset | .finish => before

def called : Action Id Call → Option Call
  | .call made => some made
  | _ => none

end Action

/-! ## The law -/

/-- The ids that were marked since the last round began, unless they were
dropped. -/
def markedSince (actions : List (Action Id Call)) : List Id :=
  actions.foldl Action.marks []

/-- The rounds, the last one first. -/
def rounds (actions : List (Action Id Call)) : List (Round Id Call) :=
  actions.foldl Action.rounds []

def calls (actions : List (Action Id Call)) : List Call :=
  actions.filterMap Action.called

/-- A round is going on, which has these calls left. -/
def InRound (actions : List (Action Id Call)) (left : List Call) : Prop :=
  ∃ earlier order table made,
    actions = earlier ++ .begin order table :: made.map .call ∧
      order.flatMap table = made ++ left

/-- The action may come after those before it. -/
def Action.Follows (before : List (Action Id Call)) : Action Id Call → Prop
  | .mark _ | .reset => ∀ left, ¬ InRound before left
  | .begin order _ => (∀ left, ¬ InRound before left) ∧ order ≠ [] ∧
      order.Nodup ∧ ∀ id, id ∈ order ↔ id ∈ markedSince before
  | .call made => ∃ left, InRound before (made :: left)
  | .finish => InRound before []

/-- Each action may come after those before it. -/
def Debounced (actions : List (Action Id Call)) : Prop :=
  ∀ before action after, actions = before ++ action :: after →
    action.Follows before

/-! ## One more action -/

variable {actions : List (Action Id Call)}

@[simp]
theorem markedSince_concat (actions : List (Action Id Call))
    (action : Action Id Call) :
    markedSince (actions ++ [action]) = action.marks (markedSince actions) := by
  simp [markedSince]

@[simp]
theorem rounds_concat (actions : List (Action Id Call))
    (action : Action Id Call) :
    rounds (actions ++ [action]) = action.rounds (rounds actions) := by
  simp [rounds]

@[simp]
theorem calls_concat (actions : List (Action Id Call))
    (action : Action Id Call) :
    calls (actions ++ [action]) = calls actions ++ action.called.toList := by
  cases called : action.called <;> simp [calls, called]

theorem debounced_nil : Debounced ([] : List (Action Id Call)) := by
  intro before action after split
  simp at split

theorem Debounced.concat (debounced : Debounced actions)
    {action : Action Id Call} (follows : action.Follows actions) :
    Debounced (actions ++ [action]) := by
  intro before other after split
  rcases after.eq_nil_or_concat with rfl | ⟨rest, last, rfl⟩
  · obtain ⟨rfl, same⟩ := List.append_inj' split rfl
    cases same
    exact follows
  · have regrouped : actions ++ [action] =
        (before ++ other :: rest) ++ [last] := by simpa using split
    exact debounced before other rest (List.append_inj' regrouped rfl).1

theorem Debounced.of_concat {action : Action Id Call}
    (debounced : Debounced (actions ++ [action])) : Debounced actions := by
  intro before other after split
  exact debounced before other (after ++ [action]) (by simp [split])

/-! ### Rounds that are going on -/

@[simp]
theorem not_inRound_nil (left : List Call) :
    ¬ InRound ([] : List (Action Id Call)) left := by
  rintro ⟨earlier, order, table, made, split, _⟩
  simp at split

/-- The last action of a round that is going on begins it, or calls. -/
theorem inRound_concat (action : Action Id Call) (left : List Call) :
    InRound (actions ++ [action]) left ↔
      (∃ order table, action = .begin order table ∧ order.flatMap table = left) ∨
        ∃ call, action = .call call ∧ InRound actions (call :: left) := by
  constructor
  · rintro ⟨earlier, order, table, made, split, lacks⟩
    rcases made.eq_nil_or_concat with rfl | ⟨before, call, rfl⟩
    · have ends := (List.append_inj' split rfl).2
      cases ends
      exact Or.inl ⟨order, table, rfl, lacks⟩
    · have regrouped : actions ++ [action] = (earlier ++
          .begin order table :: before.map .call) ++ [.call call] := by
        simpa using split
      obtain ⟨rfl, ends⟩ := List.append_inj' regrouped rfl
      cases ends
      exact Or.inr ⟨call, rfl, earlier, order, table, before, rfl,
        by simpa using lacks⟩
  · rintro (⟨order, table, rfl, lacks⟩ | ⟨call, rfl, going⟩)
    · exact ⟨actions, order, table, [], rfl, lacks⟩
    · obtain ⟨earlier, order, table, made, rfl, lacks⟩ := going
      exact ⟨earlier, order, table, made ++ [call], by simp, by simp [lacks]⟩

@[simp]
theorem inRound_begin (order : List Id) (table : Id → List Call)
    (left : List Call) :
    InRound (actions ++ [.begin order table]) left ↔
      order.flatMap table = left := by
  simp [inRound_concat]

@[simp]
theorem inRound_call (call : Call) (left : List Call) :
    InRound (actions ++ [.call call]) left ↔ InRound actions (call :: left) := by
  simp [inRound_concat]

@[simp]
theorem not_inRound_mark (ids : List Id) (left : List Call) :
    ¬ InRound (actions ++ [.mark ids]) left := by
  simp [inRound_concat]

@[simp]
theorem not_inRound_reset (left : List Call) :
    ¬ InRound (actions ++ [.reset]) left := by
  simp [inRound_concat]

@[simp]
theorem not_inRound_finish (left : List Call) :
    ¬ InRound (actions ++ [.finish]) left := by
  simp [inRound_concat]

/-! ## What follows from the law -/

/-- What is marked is in a later round, or is dropped, or waits. -/
theorem Debounced.kept {before after : List (Action Id Call)} {ids : List Id}
    (debounced : Debounced (before ++ .mark ids :: after)) {id : Id}
    (marked : id ∈ ids) :
    id ∈ markedSince (before ++ .mark ids :: after) ∨ .reset ∈ after ∨
      ∃ order table, .begin order table ∈ after ∧ id ∈ order := by
  induction after using List.reverseRecOn with
  | nil =>
      rw [markedSince_concat]
      exact Or.inl (List.mem_append_right _ marked)
  | append_singleton after action ih =>
      have regrouped : before ++ .mark ids :: (after ++ [action]) =
          (before ++ .mark ids :: after) ++ [action] := by simp
      rw [regrouped] at debounced ⊢
      rcases ih debounced.of_concat with
        waits | dropped | ⟨order, table, round, inOrder⟩
      · cases action with
        | mark others =>
            rw [markedSince_concat]
            exact Or.inl (List.mem_append_left _ waits)
        | call | finish =>
            rw [markedSince_concat]
            exact Or.inl waits
        | reset => exact Or.inr (Or.inl (by simp))
        | begin order table =>
            have begins := debounced _ (.begin order table) [] rfl
            exact Or.inr (Or.inr ⟨order, table, by simp,
              (begins.2.2.2 id).mpr waits⟩)
      · exact Or.inr (Or.inl (List.mem_append_left _ dropped))
      · exact Or.inr (Or.inr ⟨order, table, List.mem_append_left _ round, inOrder⟩)

end Debouncing

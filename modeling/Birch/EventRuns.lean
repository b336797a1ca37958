import Mathlib.Data.List.Basic
import Mathlib.Tactic.Common

/-!
# Runs of event-driven systems

A system reacts to an event by moving to another state, or is not able to take
the event where it stands.  The rules carry what one step preserves, or what
one step adds to a condition, over to whole runs.
-/

namespace EventRuns

variable {State Event : Type*} (step : State → Event → Option State)

/-- The state after the events, if each one can be taken. -/
def run : State → List Event → Option State
  | state, [] => some state
  | state, event :: events =>
      (step state event).bind fun next => run next events

/-- Each event of the run meets the condition in the state where it is taken. -/
def EachStep (condition : State → Event → Prop) : State → List Event → Prop
  | _, [] => True
  | state, event :: events => condition state event ∧
      ∀ next, step state event = some next → EachStep condition next events

variable {step}

theorem run_cons {state final : State} {event : Event} {events : List Event}
    (ran : run step state (event :: events) = some final) :
    ∃ next, step state event = some next ∧ run step next events = some final := by
  rw [run, Option.bind_eq_some_iff] at ran
  exact ran

/-- Some events lead from one state to the other. -/
def Reaches (step : State → Event → Option State) (state final : State) :
    Prop :=
  ∃ events, run step state events = some final

theorem run_append (first second : List Event) (state : State) :
    run step state (first ++ second) =
      (run step state first).bind fun middle => run step middle second := by
  induction first generalizing state with
  | nil => rfl
  | cons event first ih =>
      rw [List.cons_append, run, run]
      cases stepped : step state event with
      | none => rfl
      | some next => exact ih next

theorem reaches_refl (state : State) : Reaches step state state :=
  ⟨[], rfl⟩

theorem Reaches.run {state middle final : State} {events : List Event}
    (reaches : Reaches step state middle)
    (ran : run step middle events = some final) :
    Reaches step state final := by
  obtain ⟨first, reached⟩ := reaches
  refine ⟨first ++ events, ?_⟩
  rw [run_append, reached]
  exact ran

/-- What each step preserves holds after the run. -/
theorem run_invariant {Invariant : State → Prop}
    (preserves : ∀ state event next, Invariant state →
      step state event = some next → Invariant next)
    {state final : State} {events : List Event} (initial : Invariant state)
    (ran : run step state events = some final) : Invariant final := by
  induction events generalizing state with
  | nil =>
      rw [run, Option.some.injEq] at ran
      exact ran ▸ initial
  | cons event events ih =>
      obtain ⟨next, stepped, rest⟩ := run_cons ran
      exact ih (preserves state event next initial stepped) rest

/-- What holds of the events so far and the state that they led to, if each
step preserves it. -/
theorem run_history {Invariant : List Event → State → Prop} {start : State}
    (preserves : ∀ events state event next, run step start events = some state →
      Invariant events state → step state event = some next →
        Invariant (events ++ [event]) next)
    (initial : Invariant [] start) {final : State} {events : List Event}
    (ran : run step start events = some final) : Invariant events final := by
  have later : ∀ (rest earlier : List Event) (state : State),
      run step start earlier = some state → Invariant earlier state →
        run step state rest = some final → Invariant (earlier ++ rest) final := by
    intro rest
    induction rest with
    | nil =>
        intro earlier state _ holds ended
        rw [run, Option.some.injEq] at ended
        rw [List.append_nil, ← ended]
        exact holds
    | cons event rest ih =>
        intro earlier state reached holds ended
        obtain ⟨next, stepped, ended⟩ := run_cons ended
        have reachedNext : run step start (earlier ++ [event]) = some next := by
          rw [run_append, reached, Option.bind_some, run, stepped]
          rfl
        have all := ih (earlier ++ [event]) next reachedNext
          (preserves earlier state event next reached holds stepped) ended
        rwa [List.append_assoc, List.singleton_append] at all
  exact later events [] start rfl initial ran

/-- What each step preserves under a condition holds after a run whose steps
all meet the condition. -/
theorem run_invariant_of_eachStep {Invariant : State → Prop}
    {condition : State → Event → Prop}
    (preserves : ∀ state event next, Invariant state →
      condition state event → step state event = some next → Invariant next)
    {state final : State} {events : List Event} (initial : Invariant state)
    (each : EachStep step condition state events)
    (ran : run step state events = some final) : Invariant final := by
  induction events generalizing state with
  | nil =>
      rw [run, Option.some.injEq] at ran
      exact ran ▸ initial
  | cons event events ih =>
      obtain ⟨next, stepped, rest⟩ := run_cons ran
      obtain ⟨here, later⟩ := each
      exact ih (preserves state event next initial here stepped)
        (later next stepped) rest

/-- What each step preserves under a condition on its event. -/
theorem run_invariant_of_forall {Invariant : State → Prop}
    {condition : Event → Prop}
    (preserves : ∀ state event next, Invariant state → condition event →
      step state event = some next → Invariant next)
    {state final : State} {events : List Event} (initial : Invariant state)
    (each : ∀ event ∈ events, condition event)
    (ran : run step state events = some final) : Invariant final := by
  induction events generalizing state with
  | nil =>
      rw [run, Option.some.injEq] at ran
      exact ran ▸ initial
  | cons event events ih =>
      obtain ⟨next, stepped, rest⟩ := run_cons ran
      obtain ⟨here, later⟩ := List.forall_mem_cons.mp each
      exact ih (preserves state event next initial here stepped) later rest

/-- If a property holds after a step only if it held before, and the step met a
condition, then after a run it holds only if each step met the condition. -/
theorem eachStep_of_run {Invariant Good : State → Prop}
    {condition : State → Event → Prop}
    (preserves : ∀ state event next, Invariant state →
      step state event = some next → Invariant next)
    (needs : ∀ state event next, Invariant state →
      step state event = some next → Good next →
        Good state ∧ condition state event)
    {state final : State} {events : List Event} (initial : Invariant state)
    (ran : run step state events = some final) (good : Good final) :
    Good state ∧ EachStep step condition state events := by
  induction events generalizing state with
  | nil =>
      rw [run, Option.some.injEq] at ran
      exact ⟨ran ▸ good, trivial⟩
  | cons event events ih =>
      obtain ⟨next, stepped, rest⟩ := run_cons ran
      obtain ⟨goodNext, later⟩ :=
        ih (preserves state event next initial stepped) rest
      obtain ⟨goodHere, here⟩ :=
        needs state event next initial stepped goodNext
      refine ⟨goodHere, here, ?_⟩
      intro other reached
      rw [stepped, Option.some.injEq] at reached
      exact reached ▸ later

/-- Where one step keeps a property exactly under its condition, the run keeps
it exactly if each of its steps meets the condition. -/
theorem run_iff_eachStep (Invariant Good : State → Prop)
    {condition : State → Event → Prop}
    (preserves : ∀ state event next, Invariant state →
      step state event = some next → Invariant next)
    (keeps : ∀ state event next, Invariant state →
      step state event = some next →
        (Good next ↔ Good state ∧ condition state event))
    {state final : State} {events : List Event} (initial : Invariant state)
    (ran : run step state events = some final) :
    Good final ↔ Good state ∧ EachStep step condition state events := by
  constructor
  · intro good
    exact eachStep_of_run preserves
      (fun state event next holds stepped =>
        (keeps state event next holds stepped).mp) initial ran good
  · rintro ⟨good, each⟩
    have preservesBoth : ∀ state event next,
        (Invariant state ∧ Good state) → condition state event →
          step state event = some next → Invariant next ∧ Good next := by
      rintro state event next ⟨holds, goodHere⟩ here stepped
      exact ⟨preserves state event next holds stepped,
        (keeps state event next holds stepped).mpr ⟨goodHere, here⟩⟩
    exact (run_invariant_of_eachStep preservesBoth ⟨initial, good⟩ each ran).2

/-- Each state of the run has the property. -/
def Throughout (step : State → Event → Option State)
    (property : State → Prop) : State → List Event → Prop
  | state, [] => property state
  | state, event :: events => property state ∧
      ∀ next, step state event = some next →
        Throughout step property next events

theorem Throughout.first {property : State → Prop} {state : State}
    {events : List Event} (throughout : Throughout step property state events) :
    property state := by
  cases events with
  | nil => exact throughout
  | cons event events => exact throughout.1

theorem Throughout.last {property : State → Prop} {state final : State}
    {events : List Event} (throughout : Throughout step property state events)
    (ran : run step state events = some final) : property final := by
  induction events generalizing state with
  | nil =>
      rw [run, Option.some.injEq] at ran
      exact ran ▸ throughout
  | cons event events ih =>
      obtain ⟨next, stepped, rest⟩ := run_cons ran
      exact ih (throughout.2 next stepped) rest

theorem throughout_of_eachStep {Good property : State → Prop}
    {condition : State → Event → Prop}
    (holds : ∀ state, Good state → property state)
    (preserves : ∀ state event next, Good state → condition state event →
      step state event = some next → Good next)
    {state : State} {events : List Event} (good : Good state)
    (each : EachStep step condition state events) :
    Throughout step property state events := by
  induction events generalizing state with
  | nil => exact holds state good
  | cons event events ih =>
      obtain ⟨here, later⟩ := each
      refine ⟨holds state good, ?_⟩
      intro next stepped
      exact ih (preserves state event next good here stepped)
        (later next stepped)

/-- What each step preserves holds in each state of a run. -/
theorem throughout_invariant {Invariant property : State → Prop}
    (holds : ∀ state, Invariant state → property state)
    (preserves : ∀ state event next, Invariant state →
      step state event = some next → Invariant next)
    {state : State} (initial : Invariant state) (events : List Event) :
    Throughout step property state events := by
  induction events generalizing state with
  | nil => exact holds state initial
  | cons event events ih =>
      refine ⟨holds state initial, ?_⟩
      intro next stepped
      exact ih (preserves state event next initial stepped)

theorem eachStep_of_throughout {Good property : State → Prop}
    {condition : State → Event → Prop}
    (preserves : ∀ state event next, Good state → condition state event →
      step state event = some next → Good next)
    (breaks : ∀ state event, Good state → ¬ condition state event →
      ∃ next, step state event = some next ∧ ¬ property next)
    {state : State} {events : List Event} (good : Good state)
    (throughout : Throughout step property state events) :
    EachStep step condition state events := by
  induction events generalizing state with
  | nil => trivial
  | cons event events ih =>
      obtain ⟨_, later⟩ := throughout
      have here : condition state event := by
        by_contra fails
        obtain ⟨next, stepped, broken⟩ := breaks state event good fails
        exact broken (later next stepped).first
      refine ⟨here, ?_⟩
      intro next stepped
      exact ih (preserves state event next good here stepped)
        (later next stepped)

/-- Where a step under its condition keeps what the property follows from, and
one that fails the condition breaks the property, a run has the property in each
of its states exactly if each of its steps meets the condition. -/
theorem throughout_iff_eachStep (Good : State → Prop)
    {property : State → Prop} {condition : State → Event → Prop}
    (holds : ∀ state, Good state → property state)
    (preserves : ∀ state event next, Good state → condition state event →
      step state event = some next → Good next)
    (breaks : ∀ state event, Good state → ¬ condition state event →
      ∃ next, step state event = some next ∧ ¬ property next)
    {state : State} (good : Good state) (events : List Event) :
    Throughout step property state events ↔
      EachStep step condition state events := by
  constructor
  · exact eachStep_of_throughout preserves breaks good
  · exact throughout_of_eachStep holds preserves good

/-! ## Runs that come to an end -/

/-- The potential method.  An event that spends takes one from the measure, and
one that grants adds at most `grant` to it. -/
theorem countP_le_measure {Invariant : State → Prop}
    {spends grants : Event → Bool} {grant : Nat} {measure : State → Nat}
    (bounded : ∀ state event next, Invariant state →
      step state event = some next → Invariant next ∧
        measure next + (spends event).toNat ≤
          measure state + grant * (grants event).toNat)
    {state final : State} {events : List Event} (initial : Invariant state)
    (ran : run step state events = some final) :
    events.countP spends + measure final ≤
      measure state + grant * events.countP grants := by
  induction events generalizing state with
  | nil =>
      rw [run, Option.some.injEq] at ran
      subst ran
      simp
  | cons event events ih =>
      obtain ⟨next, stepped, rest⟩ := run_cons ran
      obtain ⟨holds, here⟩ := bounded state event next initial stepped
      have later := ih holds rest
      rw [List.countP_cons, List.countP_cons, Nat.mul_add]
      rcases spent : spends event <;> rcases granted : grants event <;>
        simp [spent, granted] at here ⊢ <;> omega

/-- Bounded response.  What is pending gets done, or has only so many events left
that spend: each of them takes one from the measure, and one that grants adds at
most `grant` to it. -/
theorem responds_within {Pending Done : State → Prop} {condition : Event → Prop}
    {spends grants : Event → Bool} {grant : Nat} {measure : State → Nat}
    (advances : ∀ state event next, Pending state → condition event →
      step state event = some next → Done next ∨ Pending next ∧
        measure next + (spends event).toNat ≤
          measure state + grant * (grants event).toNat)
    {state final : State} {events : List Event} (pending : Pending state)
    (each : ∀ event ∈ events, condition event)
    (ran : run step state events = some final) :
    (∃ first rest middle, events = first ++ rest ∧
      run step state first = some middle ∧ run step middle rest = some final ∧
        Done middle) ∨
      Pending final ∧ events.countP spends + measure final ≤
        measure state + grant * events.countP grants := by
  induction events generalizing state with
  | nil =>
      rw [run, Option.some.injEq] at ran
      subst ran
      exact Or.inr ⟨pending, by simp⟩
  | cons event events ih =>
      obtain ⟨here, later⟩ := List.forall_mem_cons.mp each
      obtain ⟨next, stepped, rest⟩ := run_cons ran
      rcases advances state event next pending here stepped with
        done | ⟨still, bounded⟩
      · refine Or.inl ⟨[event], events, next, rfl, ?_, rest, done⟩
        rw [run, stepped]
        rfl
      · rcases ih still later rest with
          ⟨first, last, middle, rfl, reached, ended, done⟩ | ⟨left, within⟩
        · refine Or.inl ⟨event :: first, last, middle, rfl, ?_, ended, done⟩
          rw [run, stepped]
          exact reached
        · refine Or.inr ⟨left, ?_⟩
          rw [List.countP_cons, List.countP_cons, Nat.mul_add]
          rcases spent : spends event <;> rcases granted : grants event <;>
            simp [spent, granted] at bounded ⊢ <;> omega

/-- What is pending gets done, where a step can be taken that does it or that
decreases the measure. -/
theorem exists_run_to_done {Pending Done : State → Prop}
    {condition : Event → Prop} {measure : State → Nat}
    (advances : ∀ state, Pending state →
      ∃ event next, condition event ∧ step state event = some next ∧
        (Done next ∨ Pending next ∧ measure next < measure state))
    {state : State} (pending : Pending state) :
    ∃ events final, (∀ event ∈ events, condition event) ∧
      run step state events = some final ∧ Done final := by
  induction bound : measure state using Nat.strongRecOn generalizing state with
  | ind size ih =>
      obtain ⟨event, next, own, stepped, done | ⟨still, less⟩⟩ :=
        advances state pending
      · refine ⟨[event], next, ?_, ?_, done⟩
        · exact List.forall_mem_singleton.mpr own
        · rw [run, stepped]
          rfl
      · obtain ⟨events, final, each, ran, done⟩ :=
          ih (measure next) (bound ▸ less) still rfl
        refine ⟨event :: events, final, ?_, ?_, done⟩
        · exact List.forall_mem_cons.mpr ⟨own, each⟩
        · rw [run, stepped]
          exact ran

/-- Where every state outside of the goal can take a step that decreases the
measure, the goal is reached. -/
theorem exists_run_to_goal {Invariant Goal : State → Prop}
    {condition : Event → Prop} {measure : State → Nat}
    (advances : ∀ state, Invariant state → ¬ Goal state →
      ∃ event next, condition event ∧ step state event = some next ∧
        Invariant next ∧ measure next < measure state)
    {state : State} (initial : Invariant state) :
    ∃ events final, (∀ event ∈ events, condition event) ∧
      run step state events = some final ∧ Invariant final ∧ Goal final := by
  have step : ∀ state, Invariant state ∧ ¬ Goal state →
      ∃ event next, condition event ∧ step state event = some next ∧
        ((Invariant next ∧ Goal next) ∨
          (Invariant next ∧ ¬ Goal next) ∧ measure next < measure state) := by
    rintro state ⟨holds, outside⟩
    obtain ⟨event, next, own, stepped, still, less⟩ :=
      advances state holds outside
    by_cases goal : Goal next
    · exact ⟨event, next, own, stepped, Or.inl ⟨still, goal⟩⟩
    · exact ⟨event, next, own, stepped, Or.inr ⟨⟨still, goal⟩, less⟩⟩
  by_cases goal : Goal state
  · exact ⟨[], state, by simp, rfl, initial, goal⟩
  · exact exists_run_to_done step ⟨initial, goal⟩

/-! ## What can be seen of a run -/

/-- What can be seen of the events, each in the state in which it is taken. -/
def observed {Label : Type*} (step : State → Event → Option State)
    (observe : State → Event → List Label) : State → List Event → List Label
  | _, [] => []
  | state, event :: events => observe state event ++
      ((step state event).map fun next =>
        observed step observe next events).getD []

theorem observed_append {Label : Type*} (observe : State → Event → List Label)
    (second : List Event) {first : List Event} {state middle : State}
    (ran : run step state first = some middle) :
    observed step observe state (first ++ second) =
      observed step observe state first ++ observed step observe middle second := by
  induction first generalizing state with
  | nil =>
      rw [run, Option.some.injEq] at ran
      rw [ran]
      rfl
  | cons event first ih =>
      obtain ⟨next, stepped, rest⟩ := run_cons ran
      simp only [List.cons_append, observed, stepped, Option.map_some,
        Option.getD_some, List.append_assoc, ih rest]

/-- What holds of the labels seen so far and the state that they led to, if each
step preserves it. -/
theorem run_observed {Label : Type*} {observe : State → Event → List Label}
    {Invariant : List Label → State → Prop} {start : State}
    (preserves : ∀ labels state event next, Invariant labels state →
      step state event = some next →
        Invariant (labels ++ observe state event) next)
    (initial : Invariant [] start) {final : State} {events : List Event}
    (ran : run step start events = some final) :
    Invariant (observed step observe start events) final := by
  refine @run_history _ _ step
    (fun events state => Invariant (observed step observe start events) state)
    start ?_ initial final events ran
  intro events state event next reached holds stepped
  have seen : observed step observe start (events ++ [event]) =
      observed step observe start events ++ observe state event := by
    rw [observed_append observe [event] reached]
    simp only [observed, stepped, Option.map_some, Option.getD_some,
      List.append_nil]
  rw [seen]
  exact preserves _ state event next holds stepped

/-- What is seen comes from one of the events, in the state in which it is
taken. -/
theorem exists_of_observed {Label : Type*} {observe : State → Event → List Label}
    {events : List Event} {start final : State}
    (ran : run step start events = some final) {before after : List Label}
    {label : Label}
    (split : observed step observe start events = before ++ label :: after) :
    ∃ first event rest middle next, events = first ++ event :: rest ∧
      run step start first = some middle ∧ step middle event = some next ∧
        ∃ earlier later, observe middle event = earlier ++ label :: later ∧
          before = observed step observe start first ++ earlier := by
  induction events generalizing start before with
  | nil => simp [observed] at split
  | cons event events ih =>
      obtain ⟨next, stepped, ran⟩ := run_cons ran
      simp only [observed, stepped, Option.map_some, Option.getD_some] at split
      have parts : (∃ between, before = observe start event ++ between ∧
          observed step observe next events = between ++ label :: after) ∨
            ∃ between, observe start event = before ++ label :: between := by
        rcases List.append_eq_append_iff.mp split with
          ⟨between, same, rest⟩ | ⟨between, seen, rest⟩
        · exact Or.inl ⟨between, same, rest⟩
        · cases between with
          | nil =>
              exact Or.inl ⟨[], by simpa using seen.symm, by simpa using rest.symm⟩
          | cons other between =>
              cases rest
              exact Or.inr ⟨between, seen⟩
      rcases parts with ⟨between, rfl, rest⟩ | ⟨between, seen⟩
      · obtain ⟨first, other, others, middle, last, rfl, reached, taken, earlier,
          behind, seen, rfl⟩ := ih ran rest
        refine ⟨event :: first, other, others, middle, last, rfl, ?_, taken,
          earlier, behind, seen, ?_⟩
        · rw [run, stepped]
          exact reached
        · simp only [observed, stepped, Option.map_some, Option.getD_some,
            List.append_assoc]
      · exact ⟨[], event, events, start, next, rfl, rfl, stepped, before, between,
          seen, rfl⟩

end EventRuns

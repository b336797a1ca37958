import Birch.ChangeHistory
import Birch.EventRuns
import Birch.LiveEntries

/-!
# Observers

An `Observable` has weak pointers to its observers.  Its operations hold the
mutex while they go through the pointers, one at a time, and observers may
expire between any two.  `Notify` has strong pointers to the observers that it
has found alive until it has called its function on each of them, without the
mutex: the function, and other threads, may add, remove and notify meanwhile.
-/

namespace Birch

open ChangeHistory LiveEntries

/-- An empty pointer, or one to an observer that may have expired. -/
abbrev WeakPtr (Observer : Type*) := Option Observer

namespace Observable

variable {Observer : Type*}

/-- The loops over the pointers. -/
inductive Loop (Observer : Type*)
  | eraseDeallocated (notifies : Bool)
  | removeObserver (observer : Option Observer)
  | collectLive
  deriving DecidableEq

/-- An operation that has locked the mutex: the pointers that its loop has left
in the vector, the ones that it has not come to, and its strong pointers.  The
observers that are `due` to be called are not read by the operation. -/
structure Critical (Observer : Type*) where
  loop : Loop Observer
  seen : List (WeakPtr Observer) := []
  rest : List (WeakPtr Observer)
  held : List Observer
  due : List Observer := []

/-- A `Notify` that has unlocked the mutex. -/
structure Notification (Observer : Type*) where
  due : List Observer
  called : List Observer := []
  pending : List Observer
  finished : Bool := false

/-- Its strong pointers go when it returns. -/
def Notification.held (notification : Notification Observer) : List Observer :=
  if notification.finished then [] else notification.called ++ notification.pending

variable [DecidableEq Observer]

/-- An observer is alive while there is a strong pointer to it. -/
def lock (strong : List Observer) : WeakPtr Observer → Option Observer
  | none => none
  | some observer => if observer ∈ strong then some observer else none

def expired (strong : List Observer) (weak : WeakPtr Observer) : Bool :=
  (lock strong weak).isNone

end Observable

open Observable

/-- The vector of an `Observable` and the strong pointers there are: the ones
`owned` by the rest of the program, and those of operations and notifications. -/
structure Observable (Observer : Type*) where
  observers : List (WeakPtr Observer) := []
  critical : Option (Critical Observer) := none
  notifications : List (Notification Observer) := []
  owned : List Observer := []
  created : List Observer := []
  history : List (Change (WeakPtr Observer)) := []

namespace Observable

variable {Observer : Type*} [DecidableEq Observer]
  (state : Observable Observer)

def strong : List Observer :=
  state.owned ++ (state.critical.elim [] Critical.held ++
    state.notifications.flatMap Notification.held)

/-- The observers that are alive, once for each registration since their last
removal and the last `Clear`, in the order of the registrations. -/
def registeredLive : List Observer :=
  (remaining state.history).filterMap (lock state.strong)

/-! ## Under the mutex -/

def addObserver (observer : Option Observer) : Observable Observer :=
  { state with
    observers := state.observers ++ [observer]
    critical := some
      { loop := .eraseDeallocated false
        rest := state.observers ++ [observer]
        held := observer.toList }
    history := state.history ++ [.add observer] }

def removeObserver (observer : Option Observer) : Observable Observer :=
  { state with
    critical := some
      { loop := .removeObserver observer
        rest := state.observers
        held := observer.toList }
    history := state.history ++ [.remove (· = observer)] }

def clear : Observable Observer :=
  { state with
    observers := []
    history := state.history ++ [.remove fun _ => true] }

def notify : Observable Observer :=
  { state with
    critical := some
      { loop := .collectLive
        rest := state.observers
        held := [] } }

/-- The loop comes to the next pointer. -/
def examine (critical : Critical Observer) (weak : WeakPtr Observer)
    (rest : List (WeakPtr Observer)) : Critical Observer :=
  match critical.loop with
  | .eraseDeallocated _ =>
      if expired state.strong weak then
        { critical with rest }
      else
        { critical with seen := critical.seen ++ [weak], rest }
  | .removeObserver observer =>
      match lock state.strong weak with
      | none => { critical with rest }
      | some ptr =>
          if some ptr = observer then
            { critical with rest }
          else
            { critical with seen := critical.seen ++ [weak], rest }
  | .collectLive =>
      { critical with
        seen := critical.seen ++ [weak]
        rest
        held := critical.held ++ (lock state.strong weak).toList }

/-- The mutex is unlocked with the strong pointers in a vector of their own. -/
def startCalls (held due : List Observer) : Observable Observer :=
  { state with
    critical := none
    notifications := state.notifications ++ [{ due, pending := held }] }

def endLoop (critical : Critical Observer) : Observable Observer :=
  match critical.loop with
  | .eraseDeallocated false =>
      { state with observers := critical.seen, critical := none }
  | .eraseDeallocated true =>
      startCalls { state with observers := critical.seen }
        critical.held critical.due
  | .removeObserver _ =>
      { state with observers := critical.seen, critical := none }
  | .collectLive =>
      if critical.held.length ≠ state.observers.length then
        { state with
          critical := some
            { loop := .eraseDeallocated true
              rest := state.observers
              held := critical.held
              due := state.registeredLive } }
      else
        state.startCalls critical.held state.registeredLive

/-! ## Runs -/

/-- What the program does with its own strong pointers, the operations as they
lock the mutex, the turns of their loops, and the calls of a notification. -/
inductive Event (Observer : Type*)
  | create (observer : Observer)
  | share (observer : Observer)
  | drop (observer : Observer)
  | addObserver (observer : Option Observer)
  | removeObserver (observer : Option Observer)
  | clear
  | notify
  | examine
  | endLoop
  | call (index : Nat)
  | finish (index : Nat)
  deriving DecidableEq

/-- The caller of an operation has a strong pointer to its argument. -/
def step : Event Observer → Option (Observable Observer)
  | .create observer =>
      if observer ∈ state.created then
        none
      else
        some { state with
          owned := observer :: state.owned
          created := observer :: state.created }
  | .share observer =>
      if observer ∈ state.strong then
        some { state with owned := observer :: state.owned }
      else
        none
  | .drop observer =>
      some { state with owned := state.owned.filter (· ≠ observer) }
  | .addObserver observer =>
      if state.critical.isNone ∧ ∀ o ∈ observer.toList, o ∈ state.strong then
        some (state.addObserver observer)
      else
        none
  | .removeObserver observer =>
      if state.critical.isNone ∧ ∀ o ∈ observer.toList, o ∈ state.strong then
        some (state.removeObserver observer)
      else
        none
  | .clear => if state.critical.isNone then some state.clear else none
  | .notify => if state.critical.isNone then some state.notify else none
  | .examine =>
      match state.critical with
      | none => none
      | some critical =>
          match critical.rest with
          | [] => none
          | weak :: rest => some { state with
              critical := some (state.examine critical weak rest) }
  | .endLoop =>
      match state.critical with
      | none => none
      | some critical =>
          match critical.rest with
          | [] => some (state.endLoop critical)
          | _ :: _ => none
  | .call index =>
      match state.notifications[index]? with
      | none => none
      | some notification =>
          match notification.pending with
          | [] => none
          | observer :: pending => some { state with
              notifications := state.notifications.set index { notification with
                called := notification.called ++ [observer]
                pending } }
  | .finish index =>
      match state.notifications[index]? with
      | none => none
      | some notification =>
          match notification.pending with
          | [] => some { state with
              notifications := state.notifications.set index { notification with
                finished := true } }
          | _ :: _ => none

/-- The function is called on the observers that are due, in their order, and
the vector has what is registered up to expired observers.  No operation has to
wait for another one than the one that has locked the mutex. -/
structure NotifiesRegistered (state : Observable Observer) : Prop where
  calls : ∀ notification ∈ state.notifications,
    notification.called.IsPrefix notification.due
  returns : ∀ notification ∈ state.notifications,
    notification.finished = true → notification.called = notification.due
  registered : state.critical = none →
    state.observers.Sublist (remaining state.history)
  live : state.critical = none →
    state.observers.filterMap (lock state.strong) = state.registeredLive
  unlocks : ∃ turns next, (∀ event ∈ turns, event = .examine ∨ event = .endLoop) ∧
    EventRuns.run step state turns = some next ∧ next.critical = none
  completes : ∀ index notification,
    state.notifications[index]? = some notification →
      ∃ next, EventRuns.run step state
          (List.replicate notification.pending.length (.call index) ++
            [.finish index]) = some next ∧
        next.notifications[index]? = some { notification with
          called := notification.called ++ notification.pending
          pending := []
          finished := true }

end Observable

end Birch

import Birch.WinNotifications
import Birch.WinResponse

/-!
# From a completion to the callbacks

What a completion says of a directory goes through the set of dirty watches, a
firing and the list of the callbacks that it takes.  This file follows a watch
from one end to the other, through any run in which no callback throws and the
watcher is not destroyed.
-/

namespace Birch

open EventRuns LinkedHashMap

variable {Path Callback : Type*}

namespace WinDirWatcher

variable {dir : WinDirWatcher Path Callback}

end WinDirWatcher

namespace WinFileWatcher

/-- Nobody destroys the watcher, and no callback throws. -/
def Event.IsCalm : Event Path Callback → Prop
  | .destroy | .callbackThrows => False
  | _ => True

theorem registeredFor_subset (watcher : WinFileWatcher Path Callback)
    {id : WinWatchId} {order : List WinWatchId} (member : id ∈ order) :
    watcher.registeredFor id ⊆ watcher.fireDirty order := by
  intro callback registered
  rw [fireDirty_eq_flatMap]
  exact List.mem_flatMap.mpr ⟨id, member, registered⟩

end WinFileWatcher

open WinFileWatcher

namespace WinWatcherSystem

variable {start system next : WinWatcherSystem Path Callback}
  {toLowerKey : WString → WString} {watchId : WinWatchId}

/-! ## Callbacks in the hands of the thread -/

/-- The callbacks that have run, and those that the thread has taken. -/
def taken (system : WinWatcherSystem Path Callback) : List (Callback × Path) :=
  system.invoked ++ system.stage.firing.getD []

theorem taken_eq (invoked : next.invoked = system.invoked)
    (before : system.stage.firing = none) (after : next.stage.firing = none) :
    next.taken = system.taken := by
  rw [taken, taken, invoked, before, after]

theorem Visits.taken_eq (visits : Visits system next) :
    next.taken = system.taken := by
  rw [taken, taken, visits.invoked, visits.stage]

/-- No callback that the thread has taken is dropped. -/
theorem taken_step {event : Event Path Callback} (calm : event.IsCalm)
    (stepped : step toLowerKey system event = some next) :
    system.taken <+: next.taken := by
  have idle : ∀ {next : WinWatcherSystem Path Callback},
      next.invoked = system.invoked → system.stage.firing = none →
        next.stage.firing = none → system.taken <+: next.taken := by
    intro next invoked before after
    rw [taken_eq invoked before after]
  cases moves_of_step stepped with
  | callWatchFile canon parentPath filename currentPath callback =>
      rw [(visits_callWatchFile toLowerKey canon parentPath filename currentPath
        callback).taken_eq]
  | @watchFile callId call replies =>
      rw [(visits_watchFile callId call replies).taken_eq]
      exact List.prefix_rfl
  | closeWatch | wake => exact List.prefix_rfl
  | flag | join | callbackThrows => exact calm.elim
  | checkShutdown atStage =>
      unfold WinWatcherSystem.checkShutdown
      split <;> exact idle rfl (by rw [atStage]; rfl) rfl
  | checkExit atStage =>
      unfold WinWatcherSystem.checkExit
      split <;> exact idle rfl (by rw [atStage]; rfl) rfl
  | lookUp atStage =>
      unfold WinWatcherSystem.lookUp
      split
      · exact idle rfl (by rw [atStage]; rfl) rfl
      · split <;> exact idle rfl (by rw [atStage]; rfl) rfl
  | issueRead issued atStage =>
      cases issued <;> exact idle rfl (by rw [atStage]; rfl) rfl
  | clock passed atStage =>
      unfold WinWatcherSystem.clock
      split <;> exact idle rfl (by rw [atStage]; rfl) rfl
  | drain atStage | retire atStage | collect atStage | takeOut atStage
  | dequeueNothing atStage | dequeueWake atStage | dequeueRead _ atStage =>
      exact idle rfl (by rw [atStage]; rfl) rfl
  | fire atStage =>
      simp only [taken, WinWatcherSystem.fire, goTo, atStage, Stage.firing,
        Option.getD_none, List.append_nil]
      exact List.prefix_append _ _
  | @invoke callbacks atStage =>
      cases callbacks <;>
        simp [taken, WinWatcherSystem.invoke, atStage, Stage.firing]

/-! ## Watches that are dirty -/

/-- No firing has taken the watch, and one can. -/
structure StillDirty (watchId : WinWatchId)
    (system : WinWatcherSystem Path Callback) : Prop where
  keeps : KeepsReads system
  running : system.watcher.shutdown = false
  notReturned : system.stage.hasReturned = false
  notFiring : system.stage.firing = none
  dirty : watchId ∈ system.dirty

namespace StillDirty

theorem visits (still : StillDirty watchId system) (keeps : KeepsReads next)
    (visits : Visits system next) : StillDirty watchId next := by
  refine ⟨keeps, visits.shutdown.trans still.running, ?_, ?_, ?_⟩
  · rw [visits.stage]
    exact still.notReturned
  · rw [visits.stage]
    exact still.notFiring
  · rw [visits.dirty]
    exact still.dirty

/-- The watch stays dirty, or the thread takes the callbacks. -/
theorem step (still : StillDirty watchId system) {event : Event Path Callback}
    (calm : event.IsCalm)
    (stepped : WinWatcherSystem.step toLowerKey system event = some next) :
    StillDirty watchId next ∨ ∃ order, event = .fire order ∧
      system.stage = .fire ∧ order.Perm system.dirty ∧ next = system.fire order := by
  have keeps := still.keeps.step stepped
  have notFiring := still.notFiring
  have goesOn : ∀ {next : WinWatcherSystem Path Callback}, KeepsReads next →
      next.watcher.shutdown = system.watcher.shutdown →
        next.stage.hasReturned = false → next.stage.firing = none →
          system.dirty ⊆ next.dirty → StillDirty watchId next :=
    fun keeps shutdown notReturned notFiring dirty =>
      ⟨keeps, shutdown.trans still.running, notReturned, notFiring,
        dirty still.dirty⟩
  cases moves_of_step stepped with
  | callWatchFile canon parentPath filename currentPath callback =>
      exact Or.inl (still.visits keeps (visits_callWatchFile toLowerKey canon
        parentPath filename currentPath callback))
  | @watchFile callId call replies =>
      have visits :=
        @visits_watchFile _ _ (system.finishCall callId) callId call replies
      exact Or.inl (goesOn keeps visits.shutdown (visits.stage ▸ still.notReturned)
        (visits.stage ▸ notFiring) (visits.dirty ▸ List.Subset.refl _))
  | closeWatch | wake =>
      exact Or.inl (goesOn keeps rfl still.notReturned notFiring
        (List.Subset.refl _))
  | flag | join => exact calm.elim
  | checkShutdown =>
      rw [checkShutdown_eq still.running] at keeps ⊢
      exact Or.inl (goesOn keeps rfl rfl rfl (List.Subset.refl _))
  | retire atStage =>
      exact absurd atStage (still.keeps.notRetire still.running)
  | checkExit =>
      rw [still.keeps.checkExit_eq still.running] at keeps ⊢
      exact Or.inl (goesOn keeps rfl rfl rfl (List.Subset.refl _))
  | lookUp =>
      refine Or.inl ?_
      revert keeps
      unfold WinWatcherSystem.lookUp
      split
      · exact fun keeps => goesOn keeps rfl rfl rfl (List.Subset.refl _)
      · split <;> exact fun keeps => goesOn keeps rfl rfl rfl (List.Subset.refl _)
  | @collect object bytes buffer =>
      exact Or.inl (goesOn keeps rfl rfl rfl
        (system.subset_collect toLowerKey object buffer bytes))
  | issueRead issued =>
      cases issued <;>
        exact Or.inl (goesOn keeps rfl rfl rfl (List.Subset.refl _))
  | clock passed =>
      refine Or.inl ?_
      revert keeps
      unfold WinWatcherSystem.clock
      split <;> exact fun keeps => goesOn keeps rfl rfl rfl (List.Subset.refl _)
  | takeOut =>
      exact Or.inl (goesOn keeps (shutdown_takeOut system.watcher _) rfl rfl
        (List.Subset.refl _))
  | drain =>
      exact Or.inl (goesOn keeps (drainPendingUnwatches_frame _).1 rfl rfl
        (List.Subset.refl _))
  | dequeueNothing | dequeueWake | dequeueRead =>
      exact Or.inl (goesOn keeps rfl rfl rfl (List.Subset.refl _))
  | fire atStage iterates => exact Or.inr ⟨_, rfl, atStage, iterates, rfl⟩
  | invoke atStage | callbackThrows atStage =>
      rw [atStage] at notFiring
      cases notFiring

end StillDirty

theorem StillDirty.responds {events : List (Event Path Callback)}
    (still : StillDirty watchId system)
    (ran : EventRuns.run (WinWatcherSystem.step toLowerKey) {} events =
      some system) : Responds toLowerKey system := by
  by_cases atFire : system.stage = .fire
  · exact responds_atFire toLowerKey atFire
  · exact (awaitsFiring_of_run ran still.running still.notReturned
      ⟨atFire, still.notFiring⟩ (List.ne_nil_of_mem still.dirty)).responds toLowerKey

/-! ## From one end to the other -/

/-- A firing of the run has taken all callbacks that were registered for the
watch, and what it has taken has run since, or is in the hands of the thread. -/
def CalledBackIn (toLowerKey : WString → WString)
    (start : WinWatcherSystem Path Callback) (watchId : WinWatchId)
    (events : List (Event Path Callback))
    (system : WinWatcherSystem Path Callback) : Prop :=
  ∃ first order rest taker, events = first ++ .fire order :: rest ∧
    EventRuns.run (step toLowerKey) start first = some taker ∧
      taker.stage = .fire ∧ order.Perm taker.dirty ∧
      taker.watcher.registeredFor watchId ⊆ taker.watcher.fireDirty order ∧
      taker.invoked ++ taker.watcher.fireDirty order <+: system.taken

/-- What is true of a watch that was dirty at first, after a calm run. -/
def Follows (toLowerKey : WString → WString)
    (start : WinWatcherSystem Path Callback) (watchId : WinWatchId)
    (events : List (Event Path Callback))
    (system : WinWatcherSystem Path Callback) : Prop :=
  (∀ event ∈ events, Event.IsCalm event) →
    StillDirty watchId system ∨
      CalledBackIn toLowerKey start watchId events system

theorem Follows.step {events : List (Event Path Callback)}
    {event : Event Path Callback}
    (follows : Follows toLowerKey start watchId events system)
    (ran : EventRuns.run (step toLowerKey) start events = some system)
    (stepped : WinWatcherSystem.step toLowerKey system event = some next) :
    Follows toLowerKey start watchId (events ++ [event]) next := by
  intro calm
  have calmNow := calm event (by simp)
  have calmBefore : ∀ event ∈ events, Event.IsCalm event :=
    fun event member => calm event (List.mem_append_left _ member)
  rcases follows calmBefore with still | called
  · rcases still.step calmNow stepped with
      still | ⟨order, rfl, atFire, iterates, rfl⟩
    · exact Or.inl still
    · exact Or.inr ⟨events, order, [], system, rfl, ran, atFire, iterates,
        registeredFor_subset system.watcher (iterates.mem_iff.mpr still.dirty),
        List.prefix_rfl⟩
  · obtain ⟨first, order, rest, taker, rfl, taking, atFire, iterates, takes,
      hasRun⟩ := called
    exact Or.inr ⟨first, order, rest ++ [event], taker, by simp, taking, atFire,
      iterates, takes, hasRun.trans (taken_step calmNow stepped)⟩

end WinWatcherSystem

end Birch

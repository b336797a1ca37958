import Birch.WatcherRounds
import Birch.WinFileWatcherReads
import Mathlib.Algebra.BigOperators.Group.Finset.Piecewise

/-!
# How soon the Windows watcher calls back

Some completions send the thread of the Windows watcher back to the top of its
loop without a look at the deadline: those of directories that drain, of
directories that are gone, and those with an error.  Their reads are not issued
anew.  So the reads that are outstanding bound how long the thread can be kept
from a firing that is due.
-/

namespace Birch

open EventRuns LinkedHashMap

variable {Path Callback : Type*}

namespace WinFileWatcher

/-- A step of the thread, and not of a client. -/
def Event.isOwn : Event Path Callback → Bool
  | .work | .dequeueNothing | .dequeueWake | .dequeueRead _ _ | .issueRead _
  | .clock _ | .fire _ | .callbackThrows => true
  | _ => false

/-- A call of `WatchFile` may issue the first read of a directory. -/
def Event.opens : Event Path Callback → Bool
  | .watchFile _ _ => true
  | _ => false

/-- The deadline has passed, and nobody destroys the watcher. -/
def Event.IsPast : Event Path Callback → Prop
  | .clock passed => passed = true
  | .destroy => False
  | _ => True

end WinFileWatcher

open WinFileWatcher

namespace WinWatcherSystem

/-- The reads whose completions have not been taken from the port. -/
def outstanding (system : WinWatcherSystem Path Callback) : Nat :=
  Finset.sum (Finset.range system.nextObject) system.reads

/-- The steps of the thread until it fires, at most.  A completion that is
skipped takes five. -/
def stepsLeft (system : WinWatcherSystem Path Callback) : Nat :=
  match system.stage with
  | .top => 5 * system.outstanding + 5
  | .shutdownCheck => 5 * system.outstanding + 4
  | .exitCheck => 5 * system.outstanding + 3
  | .waiting => 5 * system.outstanding + 2
  | .lookUp _ _ => 5 * system.outstanding + 6
  | .collect _ _ _ => 4
  | .reissue _ => 3
  | .takeOut _ => 2
  | .deadlineCheck => 1
  | .retire | .fire | .invoking _ | .returned => 0

variable {before system next : WinWatcherSystem Path Callback}

/-! ## Reads -/

/-- The reads are those of directories that were opened, and the thread lets go
of all directories only when it is told to. -/
structure KeepsReads (system : WinWatcherSystem Path Callback) : Prop where
  below : ∀ object, system.nextObject ≤ object → system.reads object = 0
  held : ∀ object, system.stage.held = some object → object < system.nextObject
  told : system.shuttingDown = true → system.watcher.shutdown = true
  retires : system.stage = .retire → system.watcher.shutdown = true

theorem keepsReads_initial :
    KeepsReads ({} : WinWatcherSystem Path Callback) := by
  refine ⟨fun _ _ => rfl, ?_, ?_, ?_⟩
  · rintro object ⟨⟩
  · rintro ⟨⟩
  · rintro ⟨⟩

theorem sum_update_add (objects : Finset Nat) (reads : Nat → Nat) {object : Nat}
    (member : object ∈ objects) (count : Nat) :
    Finset.sum objects (Function.update reads object count) + reads object =
      Finset.sum objects reads + count := by
  rw [Finset.sum_update_of_mem member, Finset.sdiff_singleton_eq_erase,
    ← Finset.add_sum_erase objects reads member]
  omega

theorem outstanding_dequeueRead {object left : Nat}
    (completion : ReadCompletion) (below : object < system.nextObject)
    (issued : system.reads object = left + 1) :
    (system.dequeueRead object completion).outstanding + 1 =
      system.outstanding := by
  have updated := sum_update_add _ system.reads (Finset.mem_range.mpr below)
    (system.reads object - 1)
  simp only [outstanding, dequeueRead]
  omega

theorem outstanding_visits (keeps : KeepsReads system)
    (visits : Visits system next) :
    next.outstanding ≤ system.outstanding + 1 := by
  have grown : Finset.sum (Finset.range (system.nextObject + 1)) system.reads =
      system.outstanding := by
    rw [Finset.sum_range_succ, keeps.below system.nextObject (Nat.le_refl _)]
    rfl
  rcases visits.reads with ⟨same, more⟩ | ⟨first, opened⟩
  · have unchanged : system.outstanding = next.outstanding := by
      unfold outstanding
      rw [same]
      refine Finset.sum_subset (Finset.range_subset_range.mpr more) ?_
      intro object _ outside
      exact keeps.below object (by simpa using outside)
    omega
  · have updated := sum_update_add (Finset.range (system.nextObject + 1))
      system.reads (Finset.self_mem_range_succ system.nextObject)
      (system.reads system.nextObject + 1)
    rw [outstanding, first, opened]
    omega

namespace KeepsReads

theorem visits (keeps : KeepsReads system) (visits : Visits system next) :
    KeepsReads next := by
  have nextObject : system.nextObject ≤ next.nextObject := by
    rcases visits.reads with ⟨_, more⟩ | ⟨_, opened⟩
    · exact more
    · omega
  refine ⟨?_, ?_, ?_, ?_⟩
  · intro object above
    rcases visits.reads with ⟨same, _⟩ | ⟨first, opened⟩
    · rw [same]
      exact keeps.below object (Nat.le_trans nextObject above)
    · rw [first, Function.update_of_ne (by omega)]
      exact keeps.below object (by omega)
  · intro object holds
    rw [visits.stage] at holds
    exact Nat.lt_of_lt_of_le (keeps.held object holds) nextObject
  · rw [visits.shuttingDown, visits.shutdown]
    exact keeps.told
  · rw [visits.stage, visits.shutdown]
    exact keeps.retires

/-- The thread goes on, with the directory that it holds if it holds one. -/
theorem goesOn (keeps : KeepsReads system) (reads : next.reads = system.reads)
    (nextObject : next.nextObject = system.nextObject)
    (shuttingDown : next.shuttingDown = system.shuttingDown)
    (shutdown : next.watcher.shutdown = system.watcher.shutdown)
    (held : ∀ object, next.stage.held = some object →
      system.stage.held = some object)
    (notRetire : next.stage ≠ .retire) : KeepsReads next := by
  refine ⟨?_, ?_, ?_, fun atRetire => absurd atRetire notRetire⟩
  · rw [reads, nextObject]
    exact keeps.below
  · intro object holds
    rw [nextObject]
    exact keeps.held object (held object holds)
  · rw [shuttingDown, shutdown]
    exact keeps.told

theorem below_of_reads (keeps : KeepsReads system) {object left : Nat}
    (issued : system.reads object = left + 1) : object < system.nextObject := by
  by_contra above
  have none := keeps.below object (Nat.le_of_not_lt above)
  omega

theorem step {toLowerKey : WString → WString} (keeps : KeepsReads system)
    {event : Event Path Callback}
    (stepped : WinWatcherSystem.step toLowerKey system event = some next) :
    KeepsReads next := by
  cases moves_of_step stepped with
  | callWatchFile canon parentPath filename currentPath callback =>
      exact keeps.visits (visits_callWatchFile toLowerKey canon parentPath filename
        currentPath callback)
  | @watchFile id call replies =>
      have finished : KeepsReads (system.finishCall id) :=
        ⟨keeps.below, keeps.held, keeps.told, keeps.retires⟩
      exact finished.visits (visits_watchFile id call replies)
  | closeWatch | wake | join =>
      exact ⟨keeps.below, keeps.held, keeps.told, keeps.retires⟩
  | flag => exact ⟨keeps.below, keeps.held, fun _ => rfl, fun _ => rfl⟩
  | drain =>
      exact keeps.goesOn rfl rfl rfl (drainPendingUnwatches_frame _).1
        (by rintro object ⟨⟩) (by rintro ⟨⟩)
  | checkShutdown =>
      unfold WinWatcherSystem.checkShutdown
      split
      · rename_i told
        refine ⟨keeps.below, ?_, keeps.told, fun _ => told.2⟩
        rintro object ⟨⟩
      · exact keeps.goesOn rfl rfl rfl rfl (by rintro object ⟨⟩) (by rintro ⟨⟩)
  | retire atStage =>
      have shutdown := keeps.retires atStage
      refine ⟨keeps.below, ?_, fun _ => shutdown, fun _ => shutdown⟩
      rintro object ⟨⟩
  | checkExit =>
      unfold WinWatcherSystem.checkExit
      split <;>
        exact keeps.goesOn rfl rfl rfl rfl (by rintro object ⟨⟩) (by rintro ⟨⟩)
  | lookUp atStage =>
      unfold WinWatcherSystem.lookUp
      split
      · exact keeps.goesOn rfl rfl rfl rfl (by rintro object ⟨⟩) (by rintro ⟨⟩)
      · split
        · exact keeps.goesOn rfl rfl rfl rfl (by rintro object ⟨⟩) (by rintro ⟨⟩)
        · exact keeps.goesOn rfl rfl rfl rfl (by rintro object ⟨⟩) (by rintro ⟨⟩)
        · refine keeps.goesOn rfl rfl rfl rfl ?_ (by rintro ⟨⟩)
          rw [atStage]
          exact fun _ holds => holds
  | collect atStage =>
      refine keeps.goesOn rfl rfl rfl rfl ?_ (by rintro ⟨⟩)
      rw [atStage]
      exact fun _ holds => holds
  | takeOut =>
      exact keeps.goesOn rfl rfl rfl (shutdown_takeOut system.watcher _)
        (by rintro object ⟨⟩) (by rintro ⟨⟩)
  | fire | dequeueNothing | dequeueWake | callbackThrows =>
      exact keeps.goesOn rfl rfl rfl rfl (by rintro object ⟨⟩) (by rintro ⟨⟩)
  | @invoke callbacks =>
      cases callbacks <;>
        exact keeps.goesOn rfl rfl rfl rfl (by rintro object ⟨⟩) (by rintro ⟨⟩)
  | @dequeueRead object left completion atStage issued =>
      have opened := keeps.below_of_reads issued
      refine ⟨?_, ?_, keeps.told, by rintro ⟨⟩⟩
      · intro other above
        have apart : other ≠ object := by
          rintro rfl
          exact Nat.not_lt.mpr above opened
        have unchanged : (system.dequeueRead object completion).reads other =
            system.reads other := Function.update_of_ne apart _ _
        rw [unchanged]
        exact keeps.below other above
      · rintro _ ⟨⟩
        exact opened
  | @issueRead object issued atStage =>
      have opened := keeps.held object (by rw [atStage]; rfl)
      cases issued with
      | false =>
          refine keeps.goesOn rfl rfl rfl rfl ?_ (by rintro ⟨⟩)
          rw [atStage]
          exact fun _ holds => holds
      | true =>
          refine ⟨?_, by rintro _ ⟨⟩, keeps.told, by rintro ⟨⟩⟩
          intro other above
          have apart : other ≠ object := by
            rintro rfl
            exact Nat.not_lt.mpr above opened
          have unchanged : (system.issueRead object true).reads other =
              system.reads other := Function.update_of_ne apart _ _
          rw [unchanged]
          exact keeps.below other above
  | clock passed =>
      unfold WinWatcherSystem.clock
      split <;>
        exact keeps.goesOn rfl rfl rfl rfl (by rintro object ⟨⟩) (by rintro ⟨⟩)

theorem notRetire (keeps : KeepsReads system)
    (running : system.watcher.shutdown = false) : system.stage ≠ .retire := by
  intro atStage
  have shutdown := keeps.retires atStage
  rw [running] at shutdown
  cases shutdown

theorem notTold (keeps : KeepsReads system)
    (running : system.watcher.shutdown = false) :
    system.shuttingDown = false := by
  cases told : system.shuttingDown with
  | false => rfl
  | true =>
      have shutdown := keeps.told told
      rw [running] at shutdown
      cases shutdown

theorem checkExit_eq (keeps : KeepsReads system)
    (running : system.watcher.shutdown = false) :
    system.checkExit = system.goTo .waiting := by
  simp [checkExit, keeps.notTold running]

end KeepsReads

theorem checkShutdown_eq (running : system.watcher.shutdown = false) :
    system.checkShutdown = system.goTo .exitCheck := by
  simp [checkShutdown, running]

theorem subset_collect (system : WinWatcherSystem Path Callback)
    (toLowerKey : WString → WString) (object : Nat) (buffer : List UInt8)
    (bytes : Nat) :
    system.dirty ⊆ (system.collect toLowerKey object buffer bytes).dirty := by
  intro id member
  exact (mem_collect toLowerKey object buffer bytes id).mpr (Or.inl member)

/-! ## The steps of the thread -/

/-- The thread goes on to a firing of the watches that were dirty. -/
structure AwaitsFiring (before system : WinWatcherSystem Path Callback) : Prop where
  keeps : KeepsReads system
  running : system.watcher.shutdown = false
  notFiring : system.stage ≠ .fire ∧ system.stage.firing = none
  notReturned : system.stage.hasReturned = false
  dirty : before.dirty ⊆ system.dirty
  nonempty : before.dirty ≠ []
  armed : system.stage.collected = false → system.deadline = true

/-- Every watch that was dirty is dirty still. -/
structure Fires (before system : WinWatcherSystem Path Callback) : Prop where
  atStage : system.stage = .fire
  dirty : before.dirty ⊆ system.dirty

namespace AwaitsFiring

theorem dirty_ne_nil (awaits : AwaitsFiring before system) : system.dirty ≠ [] := by
  obtain ⟨id, member⟩ := List.exists_mem_of_ne_nil _ awaits.nonempty
  exact List.ne_nil_of_mem (awaits.dirty member)

theorem stepsLeft_pos (awaits : AwaitsFiring before system) :
    0 < system.stepsLeft := by
  cases atStage : system.stage with
  | retire => exact absurd atStage (awaits.keeps.notRetire awaits.running)
  | fire => exact absurd atStage awaits.notFiring.1
  | invoking callbacks =>
      have notFiring := awaits.notFiring.2
      rw [atStage] at notFiring
      cases notFiring
  | returned =>
      have notReturned := awaits.notReturned
      rw [atStage] at notReturned
      cases notReturned
  | _ => simp [stepsLeft, atStage]

theorem visits (awaits : AwaitsFiring before system) (keeps : KeepsReads next)
    (visits : Visits system next) : AwaitsFiring before next := by
  refine ⟨keeps, ?_, ?_, ?_, ?_, awaits.nonempty, ?_⟩
  · exact visits.shutdown.trans awaits.running
  · rw [visits.stage]
    exact awaits.notFiring
  · rw [visits.stage]
    exact awaits.notReturned
  · rw [visits.dirty]
    exact awaits.dirty
  · rw [visits.stage, visits.due]
    exact awaits.armed

theorem stepsLeft_visits (keeps : KeepsReads system)
    (visits : Visits system next) : next.stepsLeft ≤ system.stepsLeft + 5 := by
  have grows := outstanding_visits keeps visits
  unfold stepsLeft
  rw [visits.stage]
  split <;> omega

/-- The thread goes on to another stage, from one where the deadline is set. -/
theorem goesOn (awaits : AwaitsFiring before system) (keeps : KeepsReads next)
    (running : next.watcher.shutdown = system.watcher.shutdown)
    (dirty : system.dirty ⊆ next.dirty) (due : next.deadline = system.deadline)
    (fromStage : system.stage.collected = false) (notFire : next.stage ≠ .fire)
    (notInvoking : next.stage.firing = none)
    (notReturned : next.stage.hasReturned = false) : AwaitsFiring before next :=
  ⟨keeps, running.trans awaits.running, ⟨notFire, notInvoking⟩, notReturned,
    fun _ member => dirty (awaits.dirty member), awaits.nonempty,
    fun _ => due.trans (awaits.armed fromStage)⟩

/-- The thread comes to the deadline with watches that are dirty. -/
theorem comesToDeadline (awaits : AwaitsFiring before system)
    (keeps : KeepsReads next) (dirty : next.dirty = system.dirty)
    (due : next.deadline = (system.deadline || !system.dirty.isEmpty))
    (running : next.watcher.shutdown = system.watcher.shutdown)
    (atStage : next.stage = .deadlineCheck) : AwaitsFiring before next := by
  have nonempty := awaits.dirty_ne_nil
  refine ⟨keeps, running.trans awaits.running, ?_, ?_, ?_, awaits.nonempty, ?_⟩
  · rw [atStage]
    exact ⟨by rintro ⟨⟩, rfl⟩
  · rw [atStage]
    rfl
  · rw [dirty]
    exact awaits.dirty
  · intro _
    simp [due, nonempty]

/-- A completion is looked up, and skipped or collected. -/
theorem lookUp (awaits : AwaitsFiring before system) {object : Nat}
    {completion : ReadCompletion}
    (atStage : system.stage = .lookUp object completion)
    (keeps : KeepsReads (system.lookUp object completion)) :
    AwaitsFiring before (system.lookUp object completion) ∧
      (system.lookUp object completion).stepsLeft + 1 ≤ system.stepsLeft := by
  have fromStage : system.stage.collected = false := by
    rw [atStage]
    rfl
  revert keeps
  unfold WinWatcherSystem.lookUp
  split
  · intro keeps
    refine ⟨awaits.goesOn keeps rfl (List.Subset.refl _) rfl fromStage
      (by rintro ⟨⟩) rfl rfl, ?_⟩
    simp [stepsLeft, outstanding, atStage]
  · split <;> intro keeps <;>
      refine ⟨awaits.goesOn keeps rfl (List.Subset.refl _) rfl fromStage
        (by rintro ⟨⟩) rfl rfl, ?_⟩ <;>
      simp [stepsLeft, outstanding, goTo, atStage]

/-- A step of the thread comes nearer to the firing.  A completion that it skips
takes one from the outstanding reads. -/
theorem thread (awaits : AwaitsFiring before system) (keeps : KeepsReads next)
    {toLowerKey : WString → WString} {event : Event Path Callback}
    (own : event.isOwn = true) (past : event.IsPast)
    (moves : Moves toLowerKey system event next) :
    Fires before next ∨
      AwaitsFiring before next ∧ next.stepsLeft + 1 ≤ system.stepsLeft := by
  have notFiring := awaits.notFiring
  cases moves with
  | callWatchFile | watchFile | closeWatch | wake => cases own
  | flag | join => exact past.elim
  | drain atStage =>
      refine Or.inr ⟨awaits.goesOn keeps (drainPendingUnwatches_frame _).1
        (List.Subset.refl _) rfl (by rw [atStage]; rfl) (by rintro ⟨⟩) rfl rfl, ?_⟩
      simp [stepsLeft, WinWatcherSystem.drain, outstanding, atStage]
  | checkShutdown atStage =>
      rw [checkShutdown_eq awaits.running] at keeps ⊢
      refine Or.inr ⟨awaits.goesOn keeps rfl (List.Subset.refl _) rfl
        (by rw [atStage]; rfl) (by rintro ⟨⟩) rfl rfl, ?_⟩
      simp [stepsLeft, goTo, outstanding, atStage]
  | retire atStage => exact absurd atStage (awaits.keeps.notRetire awaits.running)
  | checkExit atStage =>
      rw [awaits.keeps.checkExit_eq awaits.running] at keeps ⊢
      refine Or.inr ⟨awaits.goesOn keeps rfl (List.Subset.refl _) rfl
        (by rw [atStage]; rfl) (by rintro ⟨⟩) rfl rfl, ?_⟩
      simp [stepsLeft, goTo, outstanding, atStage]
  | lookUp atStage => exact Or.inr (awaits.lookUp atStage keeps)
  | @collect object bytes buffer atStage =>
      have grown := system.subset_collect toLowerKey object buffer bytes
      refine Or.inr ⟨awaits.goesOn keeps rfl grown rfl (by rw [atStage]; rfl)
        (by rintro ⟨⟩) rfl rfl, ?_⟩
      simp [stepsLeft, WinWatcherSystem.collect, atStage]
  | @takeOut object atStage =>
      refine Or.inr ⟨awaits.comesToDeadline keeps rfl rfl
        (shutdown_takeOut system.watcher object) rfl, ?_⟩
      simp [stepsLeft, WinWatcherSystem.takeOut, armDeadline, atStage]
  | fire atStage => exact absurd atStage notFiring.1
  | invoke atStage | callbackThrows atStage =>
      rw [atStage] at notFiring
      cases notFiring.2
  | dequeueNothing atStage | dequeueWake atStage =>
      refine Or.inr ⟨awaits.goesOn keeps rfl (List.Subset.refl _) rfl
        (by rw [atStage]; rfl) (by rintro ⟨⟩) rfl rfl, ?_⟩
      simp [stepsLeft, goTo, atStage]
  | @dequeueRead object left completion atStage issued =>
      have fewer := outstanding_dequeueRead completion
        (awaits.keeps.below_of_reads issued) issued
      refine Or.inr ⟨awaits.goesOn keeps rfl (List.Subset.refl _) rfl
        (by rw [atStage]; rfl) (by rintro ⟨⟩) rfl rfl, ?_⟩
      have afterwards : (system.dequeueRead object completion).stepsLeft =
          5 * (system.dequeueRead object completion).outstanding + 6 := rfl
      rw [afterwards]
      simp only [stepsLeft, atStage]
      omega
  | @issueRead object issued atStage =>
      cases issued with
      | true =>
          refine Or.inr ⟨awaits.comesToDeadline keeps rfl rfl rfl rfl, ?_⟩
          simp [stepsLeft, WinWatcherSystem.issueRead, armDeadline, atStage]
      | false =>
          refine Or.inr ⟨⟨keeps, awaits.running, ⟨by rintro ⟨⟩, rfl⟩, rfl,
            awaits.dirty, awaits.nonempty, by rintro ⟨⟩⟩, ?_⟩
          simp [stepsLeft, WinWatcherSystem.issueRead, goTo, atStage]
  | clock passed atStage =>
      have due := awaits.armed (by rw [atStage]; rfl)
      have isPast : passed = true := past
      refine Or.inl ⟨?_, ?_⟩
      · simp [clock, due, isPast, goTo]
      · simp only [clock, due, isPast, Bool.and_self, if_true, goTo]
        exact awaits.dirty

/-- A step of a client keeps nobody from firing, but for the first read of a
directory. -/
theorem client (awaits : AwaitsFiring before system) (keeps : KeepsReads next)
    {toLowerKey : WString → WString} {event : Event Path Callback}
    (notOwn : event.isOwn = false) (past : event.IsPast)
    (moves : Moves toLowerKey system event next) :
    AwaitsFiring before next ∧
      next.stepsLeft ≤ system.stepsLeft + 5 * event.opens.toNat := by
  cases moves with
  | callWatchFile canon parentPath filename currentPath callback =>
      refine ⟨awaits.visits keeps (visits_callWatchFile toLowerKey canon parentPath
        filename currentPath callback), ?_⟩
      unfold callWatchFile
      split <;> exact Nat.le_refl _
  | @watchFile id call replies =>
      have finished : AwaitsFiring before (system.finishCall id) :=
        ⟨⟨awaits.keeps.below, awaits.keeps.held, awaits.keeps.told,
          awaits.keeps.retires⟩, awaits.running, awaits.notFiring,
          awaits.notReturned, awaits.dirty, awaits.nonempty, awaits.armed⟩
      have visits := @visits_watchFile _ _ (system.finishCall id) id call replies
      have fewer := stepsLeft_visits finished.keeps visits
      exact ⟨finished.visits keeps visits, fewer⟩
  | closeWatch | wake =>
      exact ⟨awaits.visits keeps
        ⟨rfl, rfl, rfl, rfl, rfl, rfl, Or.inl ⟨rfl, Nat.le_refl _⟩⟩, Nat.le_refl _⟩
  | flag | join => exact past.elim
  | _ => cases notOwn

theorem step (awaits : AwaitsFiring before system)
    {toLowerKey : WString → WString} {event : Event Path Callback}
    (past : event.IsPast)
    (stepped : WinWatcherSystem.step toLowerKey system event = some next) :
    Fires before next ∨ AwaitsFiring before next ∧
      next.stepsLeft + event.isOwn.toNat ≤
        system.stepsLeft + 5 * event.opens.toNat := by
  have keeps := awaits.keeps.step stepped
  have moves := moves_of_step stepped
  cases own : event.isOwn with
  | true =>
      rcases awaits.thread keeps own past moves with fires | ⟨still, fewer⟩
      · exact Or.inl fires
      · exact Or.inr ⟨still, Nat.le_trans fewer (Nat.le_add_right _ _)⟩
  | false => exact Or.inr (awaits.client keeps own past moves)

/-- The thread can take a step: where no packet is in the port, the wait for one
is over at once. -/
theorem exists_step (awaits : AwaitsFiring before system)
    (toLowerKey : WString → WString) :
    ∃ event next, (event.isOwn = true ∧ event.IsPast) ∧
      WinWatcherSystem.step toLowerKey system event = some next := by
  cases atStage : system.stage with
  | waiting =>
      refine ⟨.dequeueNothing, ?_⟩
      simp [WinWatcherSystem.step, atStage, Event.isOwn, Event.IsPast]
  | reissue object =>
      refine ⟨.issueRead true, ?_⟩
      simp [WinWatcherSystem.step, atStage, Event.isOwn, Event.IsPast]
  | deadlineCheck =>
      refine ⟨.clock true, ?_⟩
      simp [WinWatcherSystem.step, atStage, Event.isOwn, Event.IsPast]
  | fire => exact absurd atStage awaits.notFiring.1
  | returned =>
      have notReturned := awaits.notReturned
      rw [atStage] at notReturned
      cases notReturned
  | _ =>
      refine ⟨.work, ?_⟩
      simp [WinWatcherSystem.step, work, atStage, Event.isOwn, Event.IsPast]

theorem advances (awaits : AwaitsFiring before system)
    (toLowerKey : WString → WString) :
    ∃ event next, (event.isOwn = true ∧ event.IsPast) ∧
      WinWatcherSystem.step toLowerKey system event = some next ∧
        (Fires before next ∨ AwaitsFiring before next ∧
          next.stepsLeft < system.stepsLeft) := by
  obtain ⟨event, next, ⟨own, past⟩, stepped⟩ := awaits.exists_step toLowerKey
  refine ⟨event, next, ⟨own, past⟩, stepped, ?_⟩
  exact (awaits.thread (awaits.keeps.step stepped) own past
    (moves_of_step stepped))

end AwaitsFiring

/-! ## The response -/

/-- In the run a firing comes with all the watches that were dirty. -/
def FiresIn (toLowerKey : WString → WString)
    (system : WinWatcherSystem Path Callback)
    (events : List (Event Path Callback)) : Prop :=
  ∃ first rest middle, events = first ++ rest ∧
    EventRuns.run (step toLowerKey) system first = some middle ∧
      Fires system middle

/-- How soon the dirty watches are called back. -/
structure Responds (toLowerKey : WString → WString)
    (system : WinWatcherSystem Path Callback) : Prop where
  within : ∀ later final, (∀ event ∈ later, Event.IsPast event) →
    EventRuns.run (step toLowerKey) system later = some final →
      5 * system.outstanding + 6 + 5 * later.countP Event.opens ≤
        later.countP Event.isOwn → FiresIn toLowerKey system later
  goesOn : ∀ later final, (∀ event ∈ later, Event.IsPast event) →
    EventRuns.run (step toLowerKey) system later = some final →
      ∃ more last, (∀ event ∈ more, event.isOwn = true ∧ Event.IsPast event) ∧
        EventRuns.run (step toLowerKey) final more = some last ∧
          FiresIn toLowerKey system (later ++ more)

theorem stepsLeft_le (system : WinWatcherSystem Path Callback) :
    system.stepsLeft ≤ 5 * system.outstanding + 6 := by
  unfold stepsLeft
  split <;> omega

theorem keepsReads_of_run {toLowerKey : WString → WString}
    {events : List (Event Path Callback)}
    (ran : EventRuns.run (step toLowerKey) {} events = some system) :
    KeepsReads system :=
  run_invariant (fun _ _ _ keeps stepped => KeepsReads.step keeps stepped)
    keepsReads_initial ran

theorem awaitsFiring_of_run {toLowerKey : WString → WString}
    {events : List (Event Path Callback)}
    (ran : EventRuns.run (step toLowerKey) {} events = some system)
    (running : system.watcher.shutdown = false)
    (notReturned : system.stage.hasReturned = false)
    (notFiring : system.stage ≠ .fire ∧ system.stage.firing = none)
    (dirty : system.dirty ≠ []) : AwaitsFiring system system := by
  have keeps := keepsDeadline_of_run ran
  exact ⟨keepsReads_of_run ran, running, notFiring, notReturned,
    List.Subset.refl _, dirty,
    fun elsewhere => keeps.armed notReturned elsewhere dirty⟩

theorem firesIn_atFire (toLowerKey : WString → WString)
    (atFire : system.stage = .fire) (later : List (Event Path Callback)) :
    FiresIn toLowerKey system later :=
  ⟨[], later, system, rfl, rfl, atFire, List.Subset.refl _⟩

theorem responds_atFire (toLowerKey : WString → WString)
    (atFire : system.stage = .fire) : Responds toLowerKey system := by
  refine ⟨fun later _ _ _ _ => firesIn_atFire toLowerKey atFire later, ?_⟩
  intro later final _ went
  exact ⟨[], final, by simp, rfl, firesIn_atFire toLowerKey atFire _⟩

theorem AwaitsFiring.responds (awaits : AwaitsFiring system system)
    (toLowerKey : WString → WString) : Responds toLowerKey system := by
  have response : ∀ later final, (∀ event ∈ later, Event.IsPast event) →
      EventRuns.run (WinWatcherSystem.step toLowerKey) system later = some final →
        FiresIn toLowerKey system later ∨ AwaitsFiring system final ∧
          later.countP Event.isOwn + final.stepsLeft ≤
            system.stepsLeft + 5 * later.countP Event.opens := by
    intro later final past went
    rcases responds_within
        (fun _ _ _ awaits here stepped => AwaitsFiring.step awaits here stepped)
        awaits past went with
      ⟨first, rest, middle, split, reached, _, fires⟩ | within
    · exact Or.inl ⟨first, rest, middle, split, reached, fires⟩
    · exact Or.inr within
  refine ⟨?_, ?_⟩
  · intro later final past went enough
    rcases response later final past went with fires | ⟨still, within⟩
    · exact fires
    · have atMost := system.stepsLeft_le
      have positive := still.stepsLeft_pos
      omega
  · intro later final past went
    rcases response later final past went with
      ⟨first, rest, middle, rfl, reached, fires⟩ | ⟨still, _⟩
    · exact ⟨[], final, by simp, rfl, first, rest, middle, by simp, reached, fires⟩
    · have advances := fun state awaits =>
        @AwaitsFiring.advances _ _ system state awaits toLowerKey
      obtain ⟨more, last, own, ended, fires⟩ := exists_run_to_done advances still
      refine ⟨more, last, own, ended, later ++ more, [], last, by simp, ?_, fires⟩
      rw [run_append, went]
      exact ended

/-- In every state of a run in which watches are dirty, no firing is going on and
the thread has not returned, as it does after a callback that throws, the thread
fires them within a number of its own steps that the outstanding reads bound,
once the deadline has passed, whatever completions, clients and packets come, and
it can always take them. -/
theorem winWatcher_responds (toLowerKey : WString → WString)
    (events : List (Event Path Callback))
    (system : WinWatcherSystem Path Callback)
    (ran : EventRuns.run (step toLowerKey) {} events = some system)
    (running : system.watcher.shutdown = false)
    (notReturned : system.stage.hasReturned = false)
    (notFiring : system.stage.firing = none) (dirty : system.dirty ≠ []) :
    Responds toLowerKey system := by
  by_cases atFire : system.stage = .fire
  · exact responds_atFire toLowerKey atFire
  · exact (awaitsFiring_of_run ran running notReturned ⟨atFire, notFiring⟩
      dirty).responds toLowerKey

/-- The read of the directory is issued anew, and its watch waits for the
deadline. -/
theorem winWatcher_responds_overflownDirectory :
    ∃ system, EventRuns.run (step id) {} (overflownDirectory.take 9) =
      some system ∧ Responds id system := by
  obtain ⟨system, ran, running, notReturned, notFiring, dirty⟩ : ∃ system,
      EventRuns.run (step id) {} (overflownDirectory.take 9) = some system ∧
        system.watcher.shutdown = false ∧ system.stage.hasReturned = false ∧
        system.stage.firing = none ∧ system.dirty = [1] := ⟨_, rfl, rfl, rfl, rfl, rfl⟩
  have nonempty : system.dirty ≠ [] := by
    rw [dirty]
    exact List.cons_ne_nil _ _
  exact ⟨system, ran, winWatcher_responds id (overflownDirectory.take 9) system ran
    running notReturned notFiring nonempty⟩

end WinWatcherSystem

end Birch

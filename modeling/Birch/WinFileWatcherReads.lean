import Birch.WinDirectoryTables

/-!
# Reads of directories

A directory of the Windows watcher is to have one read issued as long as it is
in a table: an active one for what changes in it, a draining one so that the
completion lets go of it.  The reads that are issued are balanced against the
directories in the tables, up to the directory whose completion the thread has
in its hands.  A completion with an error breaks the balance where it is one of
an active directory: that directory stays in its table without a read.
-/

namespace Birch

open EventRuns LinkedHashMap

variable {Path Callback : Type*}

namespace WinFileWatcher

/-! ## Directories in the tables -/

section Tables

variable {watcher : WinFileWatcher Path Callback}

theorem objects_drainOne
    (drained : WinFileWatcher Path Callback × List (WinDirWatcher Path Callback))
    (id : WinWatchId) (nodup : drained.1.objects.Nodup) :
    (drainOne drained id).1.objects.Perm drained.1.objects := by
  unfold drainOne
  split
  · exact List.Perm.refl _
  · rename_i location located
    dsimp only
    split
    · exact List.Perm.refl _
    · rename_i dir found
      split
      · have notDraining : dir.object ∉ drained.1.draining.keys :=
          not_draining_of_active nodup (mem_activeObjects_of_lookup found)
        have erased := (perm_erase found).map fun entry => entry.2.object
        have drainingKeys : ∀ removed : WinDirWatcher Path Callback,
            (drained.1.draining.emplace dir.object removed).keys =
              drained.1.draining.keys ++ [dir.object] := by
          intro removed
          rw [keys_emplace, if_neg notDraining]
        have moved := (erased.append_right drained.1.draining.keys).symm
        refine List.Perm.trans ?_ moved
        simp only [objects, activeObjects, WinDirWatcher.remove, drainingKeys]
        rw [← List.append_assoc]
        exact List.perm_append_singleton _ _
      · apply List.Perm.of_eq
        simp only [objects, activeObjects]
        congr 1
        exact map_assign_of_lookup WinDirWatcher.object found rfl

theorem objects_foldl_drainOne (ids : List WinWatchId)
    (drained : WinFileWatcher Path Callback × List (WinDirWatcher Path Callback))
    (nodup : drained.1.objects.Nodup) :
    (ids.foldl drainOne drained).1.objects.Perm drained.1.objects := by
  induction ids generalizing drained with
  | nil => exact List.Perm.refl _
  | cons id ids ih =>
      have first := objects_drainOne drained id nodup
      exact (ih (drainOne drained id) (first.nodup_iff.mpr nodup)).trans first

theorem objects_drainPendingUnwatches (nodup : watcher.objects.Nodup) :
    watcher.drainPendingUnwatches.1.objects.Perm watcher.objects :=
  objects_foldl_drainOne watcher.pendingUnwatches (watcher, []) nodup

theorem keys_drainDirs (dirs : List (WinDirWatcher Path Callback))
    (draining : LinkedHashMap Nat (WinDirWatcher Path Callback))
    (nodup : (draining.keys ++ dirs.map WinDirWatcher.object).Nodup) :
    (drainDirs draining dirs).keys =
      draining.keys ++ dirs.map WinDirWatcher.object := by
  induction dirs generalizing draining with
  | nil => simp [drainDirs]
  | cons dir dirs ih =>
      have absent : dir.object ∉ draining.keys := by
        intro member
        exact (List.nodup_append.mp nodup).2.2 dir.object member dir.object
          (by simp) rfl
      have emplaced : (draining.emplace dir.object dir).keys =
          draining.keys ++ [dir.object] := by
        rw [keys_emplace, if_neg absent]
      rw [drainDirs, List.foldl_cons, ← drainDirs, ih, emplaced]
      · simp
      · rw [emplaced]
        simpa using nodup

theorem objects_retireAll (nodup : watcher.objects.Nodup) :
    watcher.retireAll.objects.Perm watcher.objects := by
  have active : (watcher.dirWatchers.entries.map Prod.snd).map
      WinDirWatcher.object = watcher.activeObjects := by
    rw [List.map_map]
    rfl
  have swapped : (watcher.draining.keys ++ watcher.activeObjects).Perm
      watcher.objects := List.perm_append_comm
  have keysEq := keys_drainDirs (watcher.dirWatchers.entries.map Prod.snd)
    watcher.draining (by rw [active]; exact swapped.nodup_iff.mpr nodup)
  rw [active] at keysEq
  have drained : watcher.retireAll.objects =
      watcher.draining.keys ++ watcher.activeObjects := keysEq
  rw [drained]
  exact swapped

theorem objects_takeOut {object : Nat} (active : object ∈ watcher.activeObjects) :
    watcher.objects.Perm (object :: (watcher.takeOut object).objects) := by
  obtain ⟨dirKey, dir, found, atKey, rfl⟩ := exists_findActive active
  have moved := (perm_erase atKey).map fun entry => entry.2.object
  have takenOut : watcher.takeOut dir.object =
      { watcher with dirWatchers := watcher.dirWatchers.erase dirKey } := by
    simp only [takeOut, found]
  rw [takenOut]
  exact moved.append_right watcher.draining.keys

theorem shutdown_takeOut (watcher : WinFileWatcher Path Callback) (object : Nat) :
    (watcher.takeOut object).shutdown = watcher.shutdown := by
  unfold takeOut
  split <;> rfl

end Tables

/-- The directory whose completion was taken from the port, until its read is
issued anew or it leaves the tables. -/
def Stage.held : Stage Path Callback → Option Nat
  | .lookUp object _ | .collect object _ _ | .reissue object | .takeOut object =>
      some object
  | _ => none

end WinFileWatcher

open WinFileWatcher

namespace WinWatcherSystem

/-! ## The balance -/

/-- Each directory in a table has one read issued, or is in the hands of the
thread. -/
structure ReadsBalance (system : WinWatcherSystem Path Callback) : Prop where
  balanced : ∀ object,
    system.reads object + system.stage.held.toList.count object =
      system.watcher.objects.count object
  distinct : system.watcher.objects.Nodup
  below : ∀ object ∈ system.watcher.objects, object < system.nextObject

variable {system next : WinWatcherSystem Path Callback}

theorem readsBalance_initial :
    ReadsBalance ({} : WinWatcherSystem Path Callback) := by
  constructor
  · intro object
    rfl
  · exact List.nodup_nil
  · rintro object ⟨⟩

namespace ReadsBalance

theorem of_perm (balance : ReadsBalance system)
    (reads : next.reads = system.reads)
    (objects : next.watcher.objects.Perm system.watcher.objects)
    (nextObject : system.nextObject ≤ next.nextObject)
    (held : next.stage.held = system.stage.held) : ReadsBalance next := by
  constructor
  · intro object
    rw [reads, held, objects.count_eq]
    exact balance.balanced object
  · exact objects.nodup_iff.mpr balance.distinct
  · intro object member
    exact Nat.lt_of_lt_of_le (balance.below object (objects.mem_iff.mp member))
      nextObject

/-- The tables of directories are as they were. -/
theorem frame (balance : ReadsBalance system)
    (reads : next.reads = system.reads)
    (active : next.watcher.activeObjects = system.watcher.activeObjects)
    (draining : next.watcher.draining = system.watcher.draining)
    (nextObject : system.nextObject ≤ next.nextObject)
    (held : next.stage.held = system.stage.held) : ReadsBalance next := by
  have objects : next.watcher.objects = system.watcher.objects := by
    rw [WinFileWatcher.objects, active, draining]
    rfl
  exact balance.of_perm reads (List.Perm.of_eq objects) nextObject held

/-- What the thread holds leaves the tables. -/
theorem released (balance : ReadsBalance system) {object : Nat}
    (holds : system.stage.held = some object)
    (objects : system.watcher.objects.Perm (object :: next.watcher.objects))
    (reads : next.reads = system.reads)
    (nextObject : next.nextObject = system.nextObject)
    (held : next.stage.held = none) : ReadsBalance next := by
  constructor
  · intro other
    have before := balance.balanced other
    rw [holds, objects.count_eq, List.count_cons] at before
    rw [reads, held]
    simp only [Option.toList_some, Option.toList_none, List.count_cons,
      List.count_nil] at before ⊢
    omega
  · exact (List.nodup_cons.mp (objects.nodup_iff.mp balance.distinct)).2
  · intro other member
    rw [nextObject]
    exact balance.below other
      (objects.mem_iff.mpr (List.mem_cons_of_mem object member))

theorem reads_eq_zero (balance : ReadsBalance system) {object : Nat}
    (absent : object ∉ system.watcher.objects) : system.reads object = 0 := by
  have before := balance.balanced object
  rw [List.count_eq_zero_of_not_mem absent] at before
  omega

theorem reads_eq_one (balance : ReadsBalance system) {object : Nat}
    (member : object ∈ system.watcher.objects)
    (notHeld : system.stage.held = none) : system.reads object = 1 := by
  have before := balance.balanced object
  rw [List.count_eq_one_of_mem balance.distinct member, notHeld] at before
  simpa using before

/-! ### The callers -/

theorem callWatchFile (balance : ReadsBalance system)
    (toLowerKey : WString → WString) (canon : Path)
    (parentPath filename currentPath : WString) (callback : Callback) :
    ReadsBalance (system.callWatchFile toLowerKey canon parentPath filename
      currentPath callback).2 := by
  unfold WinWatcherSystem.callWatchFile
  split
  · exact balance
  · exact balance.frame rfl rfl rfl (Nat.le_refl _) rfl

theorem opened (balance : ReadsBalance system) (id : WinWatchId)
    {call : PendingCall Path Callback}
    (missing : system.watcher.dirWatchers.lookup call.dirKey = none) :
    ReadsBalance ((system.registerOpened id call
      { object := system.nextObject }).readIssued system.nextObject) := by
  have objects : ((system.registerOpened id call
      { object := system.nextObject }).readIssued
        system.nextObject).watcher.objects.Perm
          (system.nextObject :: system.watcher.objects) :=
    objects_registerOpened id missing _
  have fresh : system.nextObject ∉ system.watcher.objects := by
    intro member
    exact Nat.lt_irrefl _ (balance.below system.nextObject member)
  have unread := balance.reads_eq_zero fresh
  constructor
  · intro object
    have before := balance.balanced object
    rw [objects.count_eq, List.count_cons]
    by_cases same : system.nextObject = object
    · subst same
      simp only [readIssued, registerOpened, Function.update_self,
        beq_self_eq_true, if_true]
      omega
    · simpa [readIssued, registerOpened, Function.update_of_ne (Ne.symm same),
        same] using before
  · exact objects.nodup_iff.mpr (List.nodup_cons.mpr ⟨fresh, balance.distinct⟩)
  · intro object member
    rcases List.mem_cons.mp (objects.mem_iff.mp member) with rfl | old
    · exact Nat.lt_succ_self _
    · exact Nat.lt_succ_of_lt (balance.below object old)

theorem watchFile (balance : ReadsBalance system) (id : WinWatchId)
    (call : PendingCall Path Callback) (replies : SystemReplies) :
    ReadsBalance (system.watchFile id call replies).2 := by
  unfold WinWatcherSystem.watchFile
  split
  · rename_i dir found
    exact balance.frame rfl (activeObjects_register id found) rfl
      (Nat.le_refl _) rfl
  · rename_i missing
    split
    · exact balance
    · rename_i dir opens
      obtain rfl := object_of_openDir opens
      dsimp only
      split
      · exact balance.opened id missing
      · have unchanged := dirWatchers_unregister id missing
          { object := system.nextObject }
          (WinDirWatcher.add { object := system.nextObject } call.fileNameKey
            (call.entry id))
        refine balance.frame rfl ?_ rfl (Nat.le_succ _) rfl
        exact congrArg (List.map fun entry => entry.2.object)
          (congrArg LinkedHashMap.entries unchanged)

/-! ### The thread -/

section Thread

variable (balance : ReadsBalance system)

include balance

theorem drain (atTop : system.stage = .top) : ReadsBalance system.drain :=
  balance.of_perm rfl (objects_drainPendingUnwatches balance.distinct)
    (Nat.le_refl _) (by rw [atTop]; rfl)

theorem checkShutdown (atCheck : system.stage = .shutdownCheck) :
    ReadsBalance system.checkShutdown := by
  unfold WinWatcherSystem.checkShutdown
  split <;> exact balance.frame rfl rfl rfl (Nat.le_refl _) (by rw [atCheck]; rfl)

theorem retire (atRetire : system.stage = .retire) :
    ReadsBalance system.retire :=
  balance.of_perm rfl (objects_retireAll balance.distinct)
    (Nat.le_refl _) (by rw [atRetire]; rfl)

theorem checkExit (atCheck : system.stage = .exitCheck) :
    ReadsBalance system.checkExit := by
  unfold WinWatcherSystem.checkExit
  split <;> exact balance.frame rfl rfl rfl (Nat.le_refl _) (by rw [atCheck]; rfl)

/-- Of a directory in a table that the thread holds there is one. -/
theorem mem_objects_of_held {object : Nat}
    (holds : system.stage.held = some object) :
    object ∈ system.watcher.objects := by
  have before := balance.balanced object
  rw [holds, Option.toList_some, List.count_singleton_self] at before
  exact List.count_pos_iff.mp (by omega)

theorem lookUp {object : Nat} {completion : ReadCompletion}
    (atLookUp : system.stage = .lookUp object completion)
    (noError : ∀ error, completion = .failed error →
      system.watcher.findActive object = none) :
    ReadsBalance (system.lookUp object completion) := by
  have holds : system.stage.held = some object := by
    rw [atLookUp]
    rfl
  have member := balance.mem_objects_of_held holds
  unfold WinWatcherSystem.lookUp
  split
  · rename_i dir found
    have erased := (perm_erase found).map Prod.fst
    exact balance.released holds
      ((erased.append_left system.watcher.activeObjects).trans List.perm_middle)
      rfl rfl rfl
  · rename_i missing
    have active : object ∈ system.watcher.activeObjects := by
      rcases List.mem_append.mp member with active | draining
      · exact active
      · exact absurd draining ((lookup_eq_none_iff _ object).mp missing)
    split
    · rename_i inactive
      exact absurd active ((findActive_eq_none_iff object).mp inactive)
    · rename_i found
      rw [noError _ rfl] at found
      cases found
    · exact balance.frame rfl rfl rfl (Nat.le_refl _) holds.symm

theorem collect (toLowerKey : WString → WString) {object : Nat}
    {buffer : List UInt8} {bytes : Nat}
    (atCollect : system.stage = .collect object buffer bytes) :
    ReadsBalance (system.collect toLowerKey object buffer bytes) :=
  balance.frame rfl rfl rfl (Nat.le_refl _) (by rw [atCollect]; rfl)

theorem issueRead {object : Nat} (atReissue : system.stage = .reissue object)
    (issued : Bool) : ReadsBalance (system.issueRead object issued) := by
  have holds : system.stage.held = some object := by
    rw [atReissue]
    rfl
  cases issued with
  | false => exact balance.frame rfl rfl rfl (Nat.le_refl _) holds.symm
  | true =>
      constructor
      · intro other
        have before := balance.balanced other
        rw [holds] at before
        by_cases same : object = other
        · subst same
          simpa [WinWatcherSystem.issueRead, readIssued, armDeadline, Stage.held]
            using before
        · simpa [WinWatcherSystem.issueRead, readIssued, armDeadline, Stage.held,
            Function.update_of_ne (Ne.symm same), same] using before
      · exact balance.distinct
      · exact balance.below

theorem takeOut (live : LiveActive system) {object : Nat}
    (atTakeOut : system.stage = .takeOut object) :
    ReadsBalance (system.takeOut object) := by
  have active := live object (by rw [atTakeOut]; rfl)
  exact balance.released (by rw [atTakeOut]; rfl) (objects_takeOut active)
    rfl rfl rfl

theorem invoke {callbacks : List (Callback × Path)}
    (atInvoking : system.stage = .invoking callbacks) :
    ReadsBalance (system.invoke callbacks) := by
  cases callbacks <;>
    exact balance.frame rfl rfl rfl (Nat.le_refl _) (by rw [atInvoking]; rfl)

theorem dequeueRead (atWait : system.stage = .waiting) {object left : Nat}
    (issued : system.reads object = left + 1) (completion : ReadCompletion) :
    ReadsBalance (system.dequeueRead object completion) := by
  constructor
  · intro other
    have before := balance.balanced other
    rw [atWait] at before
    by_cases same : object = other
    · subst same
      simp only [Stage.held, Option.toList_none, List.count_nil] at before
      simp only [WinWatcherSystem.dequeueRead, Stage.held, Function.update_self,
        Option.toList_some, List.count_singleton_self]
      omega
    · simpa [WinWatcherSystem.dequeueRead, Stage.held, same,
        Function.update_of_ne (Ne.symm same)] using before
  · exact balance.distinct
  · exact balance.below

end Thread

end ReadsBalance

/-- No completion with an error is looked up for an active directory. -/
def NoActiveError (system : WinWatcherSystem Path Callback) :
    Event Path Callback → Prop
  | .work => ∀ object error, system.stage = .lookUp object (.failed error) →
      system.watcher.findActive object = none
  | _ => True

namespace ReadsBalance

variable {toLowerKey : WString → WString}

theorem step (balance : ReadsBalance system) (live : LiveActive system)
    {event : Event Path Callback} (condition : NoActiveError system event)
    (stepped : WinWatcherSystem.step toLowerKey system event = some next) :
    ReadsBalance next := by
  cases moves_of_step stepped with
  | callWatchFile canon parentPath filename currentPath callback =>
      exact balance.callWatchFile toLowerKey canon parentPath filename
        currentPath callback
  | @watchFile id call replies calling =>
      have finished : ReadsBalance (system.finishCall id) :=
        balance.frame rfl rfl rfl (Nat.le_refl _) rfl
      exact finished.watchFile id call replies
  | drain atStage => exact balance.drain atStage
  | checkShutdown atStage => exact balance.checkShutdown atStage
  | retire atStage => exact balance.retire atStage
  | checkExit atStage => exact balance.checkExit atStage
  | @lookUp object completion atStage =>
      apply balance.lookUp atStage
      rintro error rfl
      exact condition object error atStage
  | collect atStage => exact balance.collect toLowerKey atStage
  | takeOut atStage => exact balance.takeOut live atStage
  | invoke atStage => exact balance.invoke atStage
  | dequeueRead completion atStage issued =>
      exact balance.dequeueRead atStage issued completion
  | issueRead issued atStage => exact balance.issueRead atStage issued
  | clock passed atStage =>
      unfold WinWatcherSystem.clock
      split <;>
        exact balance.frame rfl rfl rfl (Nat.le_refl _) (by rw [atStage]; rfl)
  | closeWatch | wake | flag | join =>
      exact balance.frame rfl rfl rfl (Nat.le_refl _) rfl
  | fire atStage | dequeueNothing atStage | dequeueWake atStage
  | callbackThrows atStage =>
      exact balance.frame rfl rfl rfl (Nat.le_refl _) (by rw [atStage]; rfl)

end ReadsBalance

/-! ## The end of the thread -/

/-- The thread does not wait for a packet that does not come. -/
structure WakesThread (system : WinWatcherSystem Path Callback) : Prop where
  flagged : system.joining = true → system.watcher.shutdown = true
  packet : system.joining = true → system.shuttingDown = false →
    system.stage = .exitCheck ∨ system.stage = .waiting → 0 < system.wakes
  drains : system.stage = .waiting → system.shuttingDown = true →
    system.watcher.draining.entries ≠ []

theorem wakesThread_initial :
    WakesThread ({} : WinWatcherSystem Path Callback) := by
  constructor <;> rintro ⟨⟩

namespace WakesThread

/-- The thread goes to a stage from which it does not come to wait at once. -/
theorem elsewhere (wakes : WakesThread system)
    (joining : next.joining = system.joining)
    (shutdown : next.watcher.shutdown = system.watcher.shutdown)
    (notExit : next.stage ≠ .exitCheck) (notWaiting : next.stage ≠ .waiting) :
    WakesThread next := by
  constructor
  · rw [joining, shutdown]
    exact wakes.flagged
  · rintro _ _ (atExit | atWait)
    · exact absurd atExit notExit
    · exact absurd atWait notWaiting
  · intro atWait
    exact absurd atWait notWaiting

theorem frame (wakes : WakesThread system)
    (joining : next.joining = system.joining)
    (shutdown : next.watcher.shutdown = system.watcher.shutdown)
    (draining : next.watcher.draining = system.watcher.draining)
    (packets : system.wakes ≤ next.wakes)
    (shuttingDown : next.shuttingDown = system.shuttingDown)
    (stage : next.stage = system.stage) : WakesThread next := by
  constructor
  · rw [joining, shutdown]
    exact wakes.flagged
  · rw [joining, shuttingDown, stage]
    intro joins goesOn atStage
    exact Nat.lt_of_lt_of_le (wakes.packet joins goesOn atStage) packets
  · rw [shuttingDown, stage, draining]
    exact wakes.drains

theorem callWatchFile (wakes : WakesThread system)
    (toLowerKey : WString → WString) (canon : Path)
    (parentPath filename currentPath : WString) (callback : Callback) :
    WakesThread (system.callWatchFile toLowerKey canon parentPath filename
      currentPath callback).2 := by
  unfold WinWatcherSystem.callWatchFile
  split
  · exact wakes
  · exact wakes.frame rfl rfl rfl (Nat.le_refl _) rfl rfl

theorem watchFile (wakes : WakesThread system) (id : WinWatchId)
    (call : PendingCall Path Callback) (replies : SystemReplies) :
    WakesThread (system.watchFile id call replies).2 := by
  unfold WinWatcherSystem.watchFile
  split
  · exact wakes.frame rfl rfl rfl (Nat.le_refl _) rfl rfl
  · split
    · exact wakes
    · dsimp only
      split <;> exact wakes.frame rfl rfl rfl (Nat.le_refl _) rfl rfl

theorem drain (wakes : WakesThread system) : WakesThread system.drain :=
  wakes.elsewhere rfl (drainPendingUnwatches_frame system.watcher).1
    (by rintro ⟨⟩) (by rintro ⟨⟩)

theorem checkShutdown (wakes : WakesThread system) :
    WakesThread system.checkShutdown := by
  unfold WinWatcherSystem.checkShutdown
  split
  · exact wakes.elsewhere rfl rfl (by rintro ⟨⟩) (by rintro ⟨⟩)
  · rename_i goesOn
    refine ⟨wakes.flagged, ?_, by rintro ⟨⟩⟩
    intro joins notYet
    exact absurd ⟨notYet, wakes.flagged joins⟩ goesOn

theorem retire (wakes : WakesThread system) : WakesThread system.retire := by
  refine ⟨wakes.flagged, ?_, by rintro ⟨⟩⟩
  rintro _ ⟨⟩

theorem checkExit (wakes : WakesThread system)
    (atCheck : system.stage = .exitCheck) : WakesThread system.checkExit := by
  unfold WinWatcherSystem.checkExit
  split
  · exact wakes.elsewhere rfl rfl (by rintro ⟨⟩) (by rintro ⟨⟩)
  · rename_i waits
    refine ⟨wakes.flagged, ?_, ?_⟩
    · intro joins goesOn _
      exact wakes.packet joins goesOn (Or.inl atCheck)
    · intro _ ends none
      exact waits ⟨ends, none⟩

theorem lookUp (wakes : WakesThread system) (object : Nat)
    (completion : ReadCompletion) :
    WakesThread (system.lookUp object completion) := by
  unfold WinWatcherSystem.lookUp
  split
  · exact wakes.elsewhere rfl rfl (by rintro ⟨⟩) (by rintro ⟨⟩)
  · split <;> exact wakes.elsewhere rfl rfl (by rintro ⟨⟩) (by rintro ⟨⟩)

theorem step {toLowerKey : WString → WString} (wakes : WakesThread system)
    {event : Event Path Callback}
    (stepped : WinWatcherSystem.step toLowerKey system event = some next) :
    WakesThread next := by
  cases moves_of_step stepped with
  | callWatchFile canon parentPath filename currentPath callback =>
      exact wakes.callWatchFile toLowerKey canon parentPath filename currentPath
        callback
  | @watchFile id call replies calling =>
      have finished : WakesThread (system.finishCall id) :=
        wakes.frame rfl rfl rfl (Nat.le_refl _) rfl rfl
      exact finished.watchFile id call replies
  | closeWatch => exact wakes.frame rfl rfl rfl (Nat.le_refl _) rfl rfl
  | wake => exact wakes.frame rfl rfl rfl (Nat.le_succ _) rfl rfl
  | flag notJoining =>
      refine ⟨fun _ => rfl, ?_, wakes.drains⟩
      intro joins
      exact absurd (notJoining.symm.trans joins) Bool.false_ne_true
  | join flagged =>
      exact ⟨fun _ => flagged, fun _ _ _ => Nat.succ_pos _, wakes.drains⟩
  | drain => exact wakes.drain
  | checkShutdown => exact wakes.checkShutdown
  | retire => exact wakes.retire
  | checkExit atStage => exact wakes.checkExit atStage
  | lookUp => exact wakes.lookUp _ _
  | @takeOut object =>
      exact wakes.elsewhere rfl (shutdown_takeOut system.watcher object)
        (by rintro ⟨⟩) (by rintro ⟨⟩)
  | @invoke callbacks =>
      cases callbacks <;>
        exact wakes.elsewhere rfl rfl (by rintro ⟨⟩) (by rintro ⟨⟩)
  | issueRead issued =>
      cases issued <;>
        exact wakes.elsewhere rfl rfl (by rintro ⟨⟩) (by rintro ⟨⟩)
  | clock =>
      unfold WinWatcherSystem.clock
      split <;> exact wakes.elsewhere rfl rfl (by rintro ⟨⟩) (by rintro ⟨⟩)
  | collect | fire | dequeueNothing | dequeueWake | dequeueRead
  | callbackThrows =>
      exact wakes.elsewhere rfl rfl (by rintro ⟨⟩) (by rintro ⟨⟩)

end WakesThread

/-! ## One read each -/

/-- The thread's own steps lead to its end. -/
def Returns (toLowerKey : WString → WString)
    (system : WinWatcherSystem Path Callback) : Prop :=
  ∃ count final, run (step toLowerKey) system (List.replicate count .work) =
    some final ∧ final.stage = .returned

/-- At the top of the loop each directory in the tables has one read issued.  If
the shutdown was asked for and no read is left, no directory is draining and the
thread returns; and when it waits for a packet while the destructor waits for
it, a packet comes. -/
structure OneReadEach (toLowerKey : WString → WString)
    (system : WinWatcherSystem Path Callback) : Prop where
  oneRead : system.stage = .top →
    ∀ object ∈ system.watcher.objects, system.reads object = 1
  returns : system.stage = .top → system.watcher.shutdown = true →
    (∀ object, system.reads object = 0) →
      system.watcher.draining.entries = [] ∧ Returns toLowerKey system
  packetComes : system.stage = .waiting → system.joining = true →
    0 < system.wakes ∨
      ∃ object ∈ system.watcher.draining.keys, 0 < system.reads object

theorem draining_of_objects {watcher : WinFileWatcher Path Callback}
    (none : watcher.objects = []) : watcher.draining.entries = [] :=
  List.map_eq_nil_iff.mp (List.append_eq_nil_iff.mp none).2

section Returns

variable {toLowerKey : WString → WString}

theorem Returns.work (stepped : system.work toLowerKey = some next)
    (later : Returns toLowerKey next) : Returns toLowerKey system := by
  obtain ⟨count, final, ran, returned⟩ := later
  refine ⟨count + 1, final, ?_, returned⟩
  rw [List.replicate_succ, run, step, stepped]
  exact ran

theorem returns_of_exitCheck (atCheck : system.stage = .exitCheck)
    (ends : system.shuttingDown = true)
    (none : system.watcher.draining.entries = []) :
    Returns toLowerKey system := by
  have exits : system.work toLowerKey = some (system.goTo .returned) := by
    simp only [work, atCheck, checkExit, ends, none, and_self, if_true]
  exact Returns.work exits ⟨0, _, rfl, rfl⟩

theorem returns_of_retire (atRetire : system.stage = .retire)
    (none : system.watcher.objects = []) : Returns toLowerKey system := by
  have retires : system.work toLowerKey = some system.retire := by
    simp only [work, atRetire]
  have nodup : system.watcher.objects.Nodup := none ▸ List.nodup_nil
  have noneLeft : system.watcher.retireAll.objects = [] :=
    (none ▸ objects_retireAll nodup).eq_nil
  exact Returns.work retires
    (returns_of_exitCheck rfl rfl (draining_of_objects noneLeft))

theorem returns_of_shutdownCheck (atCheck : system.stage = .shutdownCheck)
    (flagged : system.watcher.shutdown = true)
    (none : system.watcher.objects = []) : Returns toLowerKey system := by
  have checks : system.work toLowerKey = some system.checkShutdown := by
    simp only [work, atCheck]
  apply Returns.work checks
  unfold checkShutdown
  split
  · exact returns_of_retire rfl none
  · rename_i already
    have ends : system.shuttingDown = true := by
      by_contra goesOn
      exact already ⟨Bool.eq_false_iff.mpr goesOn, flagged⟩
    exact returns_of_exitCheck rfl ends (draining_of_objects none)

theorem returns_of_top (atTop : system.stage = .top)
    (flagged : system.watcher.shutdown = true)
    (none : system.watcher.objects = []) : Returns toLowerKey system := by
  have drains : system.work toLowerKey = some system.drain := by
    simp only [work, atTop]
  have nodup : system.watcher.objects.Nodup := none ▸ List.nodup_nil
  have noneLeft : system.drain.watcher.objects = [] :=
    (none ▸ objects_drainPendingUnwatches nodup).eq_nil
  have stillFlagged : system.drain.watcher.shutdown = true :=
    (drainPendingUnwatches_frame system.watcher).1.trans flagged
  exact Returns.work drains
    (returns_of_shutdownCheck rfl stillFlagged noneLeft)

end Returns

/-- Without a read and without a completion in hand there is no directory. -/
theorem ReadsBalance.objects_eq_nil (balance : ReadsBalance system)
    (notHeld : system.stage.held = none)
    (noRead : ∀ object, system.reads object = 0) :
    system.watcher.objects = [] := by
  rw [List.eq_nil_iff_forall_not_mem]
  intro object member
  have one := balance.reads_eq_one member notHeld
  rw [noRead object] at one
  cases one

theorem oneReadEach_of_balance (toLowerKey : WString → WString)
    (balance : ReadsBalance system) (wakes : WakesThread system) :
    OneReadEach toLowerKey system := by
  constructor
  · intro atTop object member
    exact balance.reads_eq_one member (by rw [atTop]; rfl)
  · intro atTop flagged noRead
    have noDirectory := balance.objects_eq_nil (by rw [atTop]; rfl) noRead
    exact ⟨draining_of_objects noDirectory,
      returns_of_top atTop flagged noDirectory⟩
  · intro atWait joins
    cases ends : system.shuttingDown with
    | false => exact Or.inl (wakes.packet joins ends (Or.inr atWait))
    | true =>
        obtain ⟨entry, member⟩ :=
          List.exists_mem_of_ne_nil _ (wakes.drains atWait ends)
        have draining : entry.1 ∈ system.watcher.draining.keys :=
          List.mem_map_of_mem member
        have one := balance.reads_eq_one
          (List.mem_append_right system.watcher.activeObjects draining)
          (by rw [atWait]; rfl)
        exact Or.inr ⟨entry.1, draining, one ▸ Nat.one_pos⟩

/-- An active directory whose read has failed stays without a read. -/
theorem not_oneReadEach_of_activeError (toLowerKey : WString → WString)
    (balance : ReadsBalance system) {event : Event Path Callback}
    (activeError : ¬ NoActiveError system event) :
    ∃ next, step toLowerKey system event = some next ∧
      ¬ OneReadEach toLowerKey next := by
  cases event <;> try exact absurd trivial activeError
  simp only [NoActiveError, not_forall] at activeError
  obtain ⟨object, error, atLookUp, active⟩ := activeError
  have holds : system.stage.held = some object := by
    rw [atLookUp]
    rfl
  obtain ⟨entry, found⟩ := Option.ne_none_iff_exists'.mp active
  have activeMem : object ∈ system.watcher.activeObjects := by
    by_contra absent
    exact active ((findActive_eq_none_iff object).mpr absent)
  have notDraining : system.watcher.draining.lookup object = none := by
    rw [lookup_eq_none_iff]
    exact not_draining_of_active balance.distinct activeMem
  refine ⟨system.goTo .top, ?_, ?_⟩
  · simp only [step, work, atLookUp, lookUp, notDraining, found]
  · intro oneReadEach
    have member : object ∈ system.watcher.objects :=
      List.mem_append_left _ activeMem
    have one : system.reads object = 1 := oneReadEach.oneRead rfl object member
    have before := balance.balanced object
    rw [one, holds, List.count_eq_one_of_mem balance.distinct member] at before
    simp at before

/-- In each state of a run the directories have one read each, and the thread
comes to its end, exactly if no completion with an error is looked up for an
active directory. -/
theorem oneReadEach_iff_noActiveError (toLowerKey : WString → WString)
    (events : List (Event Path Callback)) :
    Throughout (step toLowerKey) (OneReadEach toLowerKey) {} events ↔
      EachStep (step toLowerKey) NoActiveError {} events := by
  refine throughout_iff_eachStep (fun system =>
    ReadsBalance system ∧ WakesThread system ∧ LiveActive system) ?_ ?_ ?_
      ⟨readsBalance_initial, wakesThread_initial, LiveActive.of_none rfl⟩ events
  · rintro system ⟨balance, wakes, _⟩
    exact oneReadEach_of_balance toLowerKey balance wakes
  · rintro system event next ⟨balance, wakes, live⟩ condition stepped
    exact ⟨balance.step live condition stepped, wakes.step stepped,
      live.step stepped⟩
  · rintro system event ⟨balance, _⟩ activeError
    exact not_oneReadEach_of_activeError toLowerKey balance activeError

/-- The read of the only directory ends with `ERROR_ACCESS_DENIED`.  Then the
watcher is destroyed, and the thread takes the packet that wakes it. -/
def deniedRead : List (Event WString Nat) :=
  [.callWatchFile [99, 92, 97] [99] [97] [] 0, .watchFile 1 {}] ++
    List.replicate 3 .work ++ [.dequeueRead 0 (.failed 5), .work] ++
    [.destroy, .destroy] ++ List.replicate 4 .work ++
    [.dequeueWake, .clock false] ++ List.replicate 3 .work

/-- The thread waits, no packet is left in the port, and the directory that is
draining has no read that could complete. -/
theorem not_oneReadEach_deniedRead :
    ¬ Throughout (step id) (OneReadEach id) {} deniedRead := by
  intro throughout
  have oneReadEach := throughout.last rfl
  rcases oneReadEach.packetComes rfl rfl with wakes | ⟨object, draining, read⟩
  · cases wakes
  · cases draining with
    | head => cases read
    | tail _ absent => cases absent

end WinWatcherSystem

end Birch

import Birch.WinFileWatcher
import Mathlib.Data.List.Perm.Basic
import Mathlib.Data.List.Nodup

/-!
# The tables of directories

Which directories the Windows watcher has, by their addresses, and what its
operations do to them.  What the thread has found among the active directories
stays one of them until the thread itself takes it out.
-/

namespace Birch

open LinkedHashMap

variable {Path Callback : Type*}

namespace WinFileWatcher

section Tables

variable (watcher : WinFileWatcher Path Callback)

def activeObjects : List Nat :=
  watcher.dirWatchers.entries.map fun entry => entry.2.object

/-- The directories of both tables. -/
def objects : List Nat :=
  watcher.activeObjects ++ watcher.draining.keys

variable {watcher}

theorem findActive_eq_none_iff (object : Nat) :
    watcher.findActive object = none ↔ object ∉ watcher.activeObjects := by
  simp [findActive, activeObjects, List.find?_eq_none]

theorem exists_findActive {object : Nat}
    (active : object ∈ watcher.activeObjects) :
    ∃ dirKey dir, watcher.findActive object = some (dirKey, dir) ∧
      watcher.dirWatchers.lookup dirKey = some dir ∧ dir.object = object := by
  cases found : watcher.findActive object with
  | none => exact absurd active ((findActive_eq_none_iff object).mp found)
  | some entry =>
      have member : (entry.1, entry.2) ∈ watcher.dirWatchers.entries :=
        List.mem_of_find?_eq_some found
      exact ⟨entry.1, entry.2, rfl, (lookup_eq_some_iff _ _ _).mpr member,
        by simpa using List.find?_some found⟩

theorem mem_activeObjects_of_lookup {dirKey : WString}
    {dir : WinDirWatcher Path Callback}
    (found : watcher.dirWatchers.lookup dirKey = some dir) :
    dir.object ∈ watcher.activeObjects :=
  List.mem_map.mpr ⟨(dirKey, dir), (lookup_eq_some_iff _ _ _).mp found, rfl⟩

/-- An active directory is not draining. -/
theorem not_draining_of_active (nodup : watcher.objects.Nodup) {object : Nat}
    (active : object ∈ watcher.activeObjects) :
    object ∉ watcher.draining.keys := by
  intro draining
  exact (List.nodup_append.mp nodup).2.2 object active object draining rfl

theorem activeObjects_register (id : WinWatchId) {call : PendingCall Path Callback}
    {dir : WinDirWatcher Path Callback}
    (found : watcher.dirWatchers.lookup call.dirKey = some dir) :
    (watcher.register id call dir).activeObjects = watcher.activeObjects :=
  map_assign_of_lookup WinDirWatcher.object found rfl

section Opened

variable {call : PendingCall Path Callback}

theorem absent_of_lookup
    (missing : watcher.dirWatchers.lookup call.dirKey = none) :
    call.dirKey ∉ watcher.dirWatchers.keys :=
  (lookup_eq_none_iff watcher.dirWatchers call.dirKey).mp missing

theorem lookup_insertDir
    (missing : watcher.dirWatchers.lookup call.dirKey = none)
    (dir : WinDirWatcher Path Callback) (dirKey : WString) :
    (watcher.insertDir call.dirKey dir).dirWatchers.lookup dirKey =
      if dirKey = call.dirKey then some dir
      else watcher.dirWatchers.lookup dirKey := by
  simp [insertDir, lookup_emplace, absent_of_lookup missing]

theorem activeObjects_registerOpened (id : WinWatchId)
    (missing : watcher.dirWatchers.lookup call.dirKey = none)
    (dir : WinDirWatcher Path Callback) :
    ((watcher.insertDir call.dirKey dir).register id call dir).activeObjects =
      watcher.activeObjects ++ [dir.object] := by
  have inserted := (lookup_insertDir missing dir call.dirKey).trans (if_pos rfl)
  rw [activeObjects_register id inserted, activeObjects, insertDir,
    entries_emplace_of_absent (absent_of_lookup missing), List.map_append]
  rfl

/-- After the failure the table of directories is the one before the call. -/
theorem dirWatchers_unregister (id : WinWatchId)
    (missing : watcher.dirWatchers.lookup call.dirKey = none)
    (dir added : WinDirWatcher Path Callback) :
    (((watcher.insertDir call.dirKey dir).register id call dir).unregister id call
      added).dirWatchers = watcher.dirWatchers := by
  simp only [unregister, register, insertDir, erase_assign]
  exact erase_emplace_of_absent (absent_of_lookup missing) dir

/-- So are the other tables. -/
theorem unregister_registerOpened {id : WinWatchId}
    (fresh : id ∉ watcher.watchLocations.keys)
    (missing : watcher.dirWatchers.lookup call.dirKey = none)
    (dir added : WinDirWatcher Path Callback) :
    ((watcher.insertDir call.dirKey dir).register id call dir).unregister id call
      added = watcher := by
  have directories := dirWatchers_unregister id missing dir added
  have locations : (watcher.watchLocations.emplace id
      ⟨call.dirKey, call.fileNameKey⟩).erase id = watcher.watchLocations :=
    erase_emplace_of_absent fresh _
  simp only [unregister, register, insertDir] at directories ⊢
  rw [directories, locations]

theorem objects_registerOpened (id : WinWatchId)
    (missing : watcher.dirWatchers.lookup call.dirKey = none)
    (dir : WinDirWatcher Path Callback) :
    ((watcher.insertDir call.dirKey dir).register id call dir).objects.Perm
      (dir.object :: watcher.objects) := by
  have active := activeObjects_registerOpened id missing dir
  have appended := congrArg (· ++ watcher.draining.keys) active
  simp only [List.append_assoc, List.singleton_append] at appended
  exact (List.Perm.of_eq appended).trans List.perm_middle

theorem mem_locations_register {id : WinWatchId}
    {dir : WinDirWatcher Path Callback} (other : WinWatchId)
    (member : other ∈ (watcher.register id call dir).watchLocations.keys) :
    other ∈ watcher.watchLocations.keys ∨ other = id :=
  (mem_keys_emplace watcher.watchLocations id other _).mp member

end Opened

theorem object_of_openDir {object : Nat} {replies : SystemReplies}
    {dir : WinDirWatcher Path Callback}
    (opens : openDir object replies = .ok dir) : dir = { object } := by
  unfold openDir at opens
  split at opens
  · cases opens
  · split at opens
    · cases opens
    · exact (Except.ok.inj opens).symm

/-! ### Other fields -/

theorem drainOne_frame
    (drained : WinFileWatcher Path Callback × List (WinDirWatcher Path Callback))
    (id : WinWatchId) :
    (drainOne drained id).1.shutdown = drained.1.shutdown ∧
      (drainOne drained id).1.nextWatchId = drained.1.nextWatchId := by
  unfold drainOne
  split
  · exact ⟨rfl, rfl⟩
  · dsimp only
    split
    · exact ⟨rfl, rfl⟩
    · split <;> exact ⟨rfl, rfl⟩

theorem foldl_drainOne_frame (ids : List WinWatchId)
    (drained : WinFileWatcher Path Callback × List (WinDirWatcher Path Callback)) :
    (ids.foldl drainOne drained).1.shutdown = drained.1.shutdown ∧
      (ids.foldl drainOne drained).1.nextWatchId = drained.1.nextWatchId := by
  induction ids generalizing drained with
  | nil => exact ⟨rfl, rfl⟩
  | cons id ids ih =>
      obtain ⟨shutdownOne, nextOne⟩ := drainOne_frame drained id
      obtain ⟨shutdownLater, nextLater⟩ := ih (drainOne drained id)
      exact ⟨shutdownLater.trans shutdownOne, nextLater.trans nextOne⟩

theorem drainPendingUnwatches_frame (watcher : WinFileWatcher Path Callback) :
    watcher.drainPendingUnwatches.1.shutdown = watcher.shutdown ∧
      watcher.drainPendingUnwatches.1.nextWatchId = watcher.nextWatchId :=
  foldl_drainOne_frame watcher.pendingUnwatches (watcher, [])

theorem takeOut_frame (watcher : WinFileWatcher Path Callback) (object : Nat) :
    (watcher.takeOut object).watchLocations = watcher.watchLocations ∧
      (watcher.takeOut object).nextWatchId = watcher.nextWatchId := by
  unfold takeOut
  split <;> exact ⟨rfl, rfl⟩

end Tables

/-- The directory that was found among the active ones. -/
def Stage.live : Stage Path Callback → Option Nat
  | .collect object _ _ | .reissue object | .takeOut object => some object
  | _ => none

end WinFileWatcher

open WinFileWatcher

namespace WinWatcherSystem

/-- The directory in the hands of the thread is still active. -/
def LiveActive (system : WinWatcherSystem Path Callback) : Prop :=
  ∀ object, system.stage.live = some object →
    object ∈ system.watcher.activeObjects

variable {system next : WinWatcherSystem Path Callback}

namespace LiveActive

theorem of_subset (live : LiveActive system)
    (stage : next.stage = system.stage)
    (active : system.watcher.activeObjects ⊆ next.watcher.activeObjects) :
    LiveActive next := by
  intro object found
  rw [stage] at found
  exact active (live object found)

theorem of_none (none : next.stage.live = none) : LiveActive next := by
  intro object found
  rw [none] at found
  cases found

theorem watchFile (live : LiveActive system) (id : WinWatchId)
    (call : PendingCall Path Callback) (replies : SystemReplies) :
    LiveActive (system.watchFile id call replies).2 := by
  unfold WinWatcherSystem.watchFile
  split
  · rename_i dir found
    refine live.of_subset rfl ?_
    rw [activeObjects_register id found]
    exact List.Subset.refl _
  · rename_i missing
    split
    · exact live
    · rename_i dir opens
      have active := activeObjects_registerOpened id missing dir
      dsimp only
      split
      · refine live.of_subset rfl ?_
        simp only [readIssued, registerOpened, active]
        exact List.subset_append_left _ _
      · have unchanged := dirWatchers_unregister id missing dir
          (dir.add call.fileNameKey (call.entry id))
        refine live.of_subset rfl ?_
        simp only [activeObjects, registerOpened, unchanged]
        exact List.Subset.refl _

theorem lookUp (object : Nat) (completion : ReadCompletion) :
    LiveActive (system.lookUp object completion) := by
  unfold WinWatcherSystem.lookUp
  split
  · exact of_none rfl
  · split
    · exact of_none rfl
    · exact of_none rfl
    · rename_i found
      rintro other ⟨⟩
      by_contra inactive
      have missing := (findActive_eq_none_iff object).mpr inactive
      cases missing.symm.trans found

theorem step {toLowerKey : WString → WString} (live : LiveActive system)
    {event : Event Path Callback}
    (stepped : WinWatcherSystem.step toLowerKey system event = some next) :
    LiveActive next := by
  cases moves_of_step stepped with
  | callWatchFile canon parentPath filename currentPath callback =>
      unfold callWatchFile
      split
      · exact live
      · exact live.of_subset rfl (List.Subset.refl _)
  | @watchFile id call replies calling =>
      have finished : LiveActive (system.finishCall id) := live
      exact finished.watchFile id call replies
  | closeWatch id => exact live.of_subset rfl (List.Subset.refl _)
  | wake | flag | join => exact live
  | lookUp atStage => exact lookUp _ _
  | @collect object _ _ atStage =>
      rintro other ⟨⟩
      exact live object (by rw [atStage]; rfl)
  | @issueRead object issued atStage =>
      cases issued with
      | true => exact of_none rfl
      | false =>
          rintro other ⟨⟩
          exact live object (by rw [atStage]; rfl)
  | checkShutdown =>
      unfold checkShutdown
      split <;> exact of_none rfl
  | checkExit =>
      unfold checkExit
      split <;> exact of_none rfl
  | clock =>
      unfold clock
      split <;> exact of_none rfl
  | @invoke callbacks => cases callbacks <;> exact of_none rfl
  | drain | retire | takeOut | fire | dequeueNothing | dequeueWake
  | dequeueRead | callbackThrows => exact of_none rfl

end LiveActive

end WinWatcherSystem

end Birch

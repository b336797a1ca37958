import Birch.EventRuns
import Birch.WinDirWatcher
import Mathlib.Logic.Function.Basic

/-!
# The Windows file watcher

`WinFileWatcher` has a `WinDirWatcher` for each directory with a watched file,
and reads the changes of each directory through one completion port.  A thread
takes the completions from the port.  A directory whose last watch is gone has
its read cancelled, and is kept until the completion of that read comes.  The
threads of the clients, the destructor and the kernel act between any two
sections of the loop of that thread that have the lock.
-/

namespace Birch

variable {Path Callback : Type*}

namespace WinFileWatcher

structure WatchLocation where
  dirKey : WString
  fileNameKey : WString
  deriving DecidableEq

end WinFileWatcher

/-- The directories in `draining` are under their addresses. -/
structure WinFileWatcher (Path Callback : Type*) where
  shutdown : Bool := false
  nextWatchId : WinWatchId := 1
  dirWatchers : LinkedHashMap WString (WinDirWatcher Path Callback) := ∅
  watchLocations :
    LinkedHashMap WinWatchId WinFileWatcher.WatchLocation := ∅
  pendingUnwatches : List WinWatchId := []
  draining : LinkedHashMap Nat (WinDirWatcher Path Callback) := ∅

namespace WinFileWatcher

/-! ## Errors -/

inductive WatchError
  | invalidArgument (message : String)
  | internal (message : String)
  deriving DecidableEq

def winErrorToStatus (error : Nat) (context : String) : WatchError :=
  .internal (context ++ ": GetLastError=" ++ toString error)

/-- What the system says to the calls in `WatchFile`: the errors of the calls
that fail, and whether the read is issued. -/
structure SystemReplies where
  createFile : Option Nat := none
  createIoCompletionPort : Option Nat := none
  readDirectoryChanges : Bool := true

/-- `WinDirWatcher::Open`. -/
def openDir (object : Nat) (replies : SystemReplies) :
    Except WatchError (WinDirWatcher Path Callback) :=
  match replies.createFile with
  | some error => .error (winErrorToStatus error "CreateFileW(dir)")
  | none =>
      match replies.createIoCompletionPort with
      | some error =>
          .error (winErrorToStatus error "CreateIoCompletionPort(dir)")
      | none => .ok { object }

/-! ## The tables -/

variable (watcher : WinFileWatcher Path Callback)

/-- What a call of `WatchFile` has computed when it asks for the lock. -/
structure PendingCall (Path Callback : Type*) where
  canon : Path
  dirKey : WString
  fileNameKey : WString
  callback : Callback

def PendingCall.entry (call : PendingCall Path Callback) (id : WinWatchId) :
    WinDirWatcher.Entry Path Callback :=
  ⟨id, call.canon, call.callback⟩

/-- Add the entry to the directory, and its location. -/
def register (id : WinWatchId) (call : PendingCall Path Callback)
    (dir : WinDirWatcher Path Callback) : WinFileWatcher Path Callback :=
  { watcher with
    dirWatchers := watcher.dirWatchers.assign call.dirKey
      (dir.add call.fileNameKey (call.entry id))
    watchLocations :=
      watcher.watchLocations.emplace id ⟨call.dirKey, call.fileNameKey⟩ }

def insertDir (dirKey : WString) (dir : WinDirWatcher Path Callback) :
    WinFileWatcher Path Callback :=
  { watcher with dirWatchers := watcher.dirWatchers.emplace dirKey dir }

/-- Undo the registration in a directory that was opened for it. -/
def unregister (id : WinWatchId) (call : PendingCall Path Callback)
    (dir : WinDirWatcher Path Callback) : WinFileWatcher Path Callback :=
  let removed := (dir.remove id call.fileNameKey).1
  { watcher with
    watchLocations := watcher.watchLocations.erase id
    dirWatchers :=
      (watcher.dirWatchers.assign call.dirKey removed).erase call.dirKey }

def closeWatch (id : WinWatchId) : WinFileWatcher Path Callback :=
  { watcher with pendingUnwatches := watcher.pendingUnwatches ++ [id] }

/-- One turn of the loop of `DrainPendingUnwatches`, which collects the
directories whose reads are to be cancelled. -/
def drainOne
    (drained : WinFileWatcher Path Callback × List (WinDirWatcher Path Callback))
    (id : WinWatchId) :
    WinFileWatcher Path Callback × List (WinDirWatcher Path Callback) :=
  match drained.1.watchLocations.lookup id with
  | none => drained
  | some location =>
      let erased := { drained.1 with
        watchLocations := drained.1.watchLocations.erase id }
      match drained.1.dirWatchers.lookup location.dirKey with
      | none => (erased, drained.2)
      | some dir =>
          let removed := (dir.remove id location.fileNameKey).1
          if removed.empty then
            ({ erased with
                dirWatchers := drained.1.dirWatchers.erase location.dirKey
                draining := drained.1.draining.emplace removed.object removed },
              drained.2 ++ [removed])
          else
            ({ erased with
                dirWatchers :=
                  drained.1.dirWatchers.assign location.dirKey removed },
              drained.2)

/-- The section of `DrainPendingUnwatches` that has the lock, and the
directories that it cancels after it. -/
def drainPendingUnwatches :
    WinFileWatcher Path Callback × List (WinDirWatcher Path Callback) :=
  let drained := watcher.pendingUnwatches.foldl drainOne (watcher, [])
  ({ drained.1 with pendingUnwatches := [] }, drained.2)

/-- The callbacks that `FireDirty` invokes, with their arguments, in the order
that the set has. -/
def fireDirty (order : List WinWatchId) : List (Callback × Path) :=
  order.filterMap fun id =>
    (watcher.watchLocations.lookup id).bind fun location =>
      (watcher.dirWatchers.lookup location.dirKey).bind fun dir =>
        (dir.forEachEntry id).map fun entry => (entry.callback, entry.reportPath)

/-- The active directory at an address, with its key. -/
def findActive (object : Nat) :
    Option (WString × WinDirWatcher Path Callback) :=
  watcher.dirWatchers.entries.find? fun entry => entry.2.object = object

/-- A directory whose read cannot be issued anew leaves the active ones. -/
def takeOut (object : Nat) : WinFileWatcher Path Callback :=
  match watcher.findActive object with
  | none => watcher
  | some entry =>
      { watcher with dirWatchers := watcher.dirWatchers.erase entry.1 }

/-- `m_draining.emplace` for each of the directories. -/
def drainDirs (draining : LinkedHashMap Nat (WinDirWatcher Path Callback))
    (dirs : List (WinDirWatcher Path Callback)) :
    LinkedHashMap Nat (WinDirWatcher Path Callback) :=
  dirs.foldl (fun draining dir => draining.emplace dir.object dir) draining

/-- All directories go to `draining` when the thread sees the shutdown. -/
def retireAll : WinFileWatcher Path Callback :=
  { watcher with
    draining :=
      drainDirs watcher.draining (watcher.dirWatchers.entries.map Prod.snd)
    dirWatchers := ∅
    watchLocations := ∅ }

end WinFileWatcher

/-! ## The thread, its callers and the kernel -/

/-- A completed read: the buffer with the number of bytes, or an error. -/
inductive ReadCompletion
  | transferred (buffer : List UInt8) (bytes : Nat)
  | failed (error : Nat)

namespace WinFileWatcher

/-- Where the thread is in `Run`. -/
inductive Stage (Path Callback : Type*)
  | top
  | shutdownCheck
  | retire
  | exitCheck
  | waiting
  | lookUp (object : Nat) (completion : ReadCompletion)
  | collect (object : Nat) (buffer : List UInt8) (bytes : Nat)
  | reissue (object : Nat)
  | takeOut (object : Nat)
  | deadlineCheck
  | fire
  | invoking (callbacks : List (Callback × Path))
  | returned

inductive Event (Path Callback : Type*)
  | callWatchFile (canon : Path) (parentPath filename currentPath : WString)
      (callback : Callback)
  | watchFile (id : WinWatchId) (replies : SystemReplies)
  | closeWatch (id : WinWatchId)
  | wake
  | destroy
  | work
  | dequeueNothing
  | dequeueWake
  | dequeueRead (object : Nat) (completion : ReadCompletion)
  | issueRead (issued : Bool)
  | clock (passed : Bool)
  | fire (order : List WinWatchId)
  | callbackThrows

end WinFileWatcher

open WinFileWatcher

/-- The watcher, the calls of `WatchFile` that ask for the lock, whether the
destructor waits for the thread, the kernel, and the thread.  For each
directory `reads` is the number of reads that were issued and whose completions
have not been taken from the port; `wakes` is that of the other packets in it.
The last field is the history of the callbacks. -/
structure WinWatcherSystem (Path Callback : Type*) where
  watcher : WinFileWatcher Path Callback := {}
  calls : LinkedHashMap WinWatchId (PendingCall Path Callback) := ∅
  joining : Bool := false
  reads : Nat → Nat := fun _ => 0
  wakes : Nat := 0
  nextObject : Nat := 0
  cancelled : List Nat := []
  shuttingDown : Bool := false
  dirty : List WinWatchId := []
  deadline : Bool := false
  stage : Stage Path Callback := .top
  invoked : List (Callback × Path) := []

namespace WinWatcherSystem

variable (toLowerKey : WString → WString)
variable (system : WinWatcherSystem Path Callback)

/-- `WatchFile` up to the lock, for a path that is absolute and normal. -/
def callWatchFile (canon : Path) (parentPath filename currentPath : WString)
    (callback : Callback) :
    Except WatchError WinWatchId × WinWatcherSystem Path Callback :=
  if filename = [] then
    (.error (.invalidArgument "WatchFile: empty filename"), system)
  else
    (.ok system.watcher.nextWatchId,
      { system with
        watcher := { system.watcher with
          nextWatchId := system.watcher.nextWatchId + 1 }
        calls := system.calls.emplace system.watcher.nextWatchId
          { canon
            dirKey :=
              toLowerKey (if parentPath = [] then currentPath else parentPath)
            fileNameKey := toLowerKey filename
            callback } })

def finishCall (id : WinWatchId) : WinWatcherSystem Path Callback :=
  { system with calls := system.calls.erase id }

/-- `ReadDirectoryChangesW` has taken the buffer. -/
def readIssued (object : Nat) : WinWatcherSystem Path Callback :=
  { system with
    reads := Function.update system.reads object (system.reads object + 1) }

/-- The registration in a directory that was just opened. -/
def registerOpened (id : WinWatchId) (call : PendingCall Path Callback)
    (dir : WinDirWatcher Path Callback) : WinWatcherSystem Path Callback :=
  { system with
    nextObject := system.nextObject + 1
    watcher := (system.watcher.insertDir call.dirKey dir).register id call dir }

/-- `WatchFile` from the lock on. -/
def watchFile (id : WinWatchId) (call : PendingCall Path Callback)
    (replies : SystemReplies) :
    Except WatchError WinWatchId × WinWatcherSystem Path Callback :=
  match system.watcher.dirWatchers.lookup call.dirKey with
  | some dir =>
      (.ok id, { system with watcher := system.watcher.register id call dir })
  | none =>
      match openDir system.nextObject replies with
      | .error status => (.error status, system)
      | .ok dir =>
          let opened := system.registerOpened id call dir
          if replies.readDirectoryChanges then
            (.ok id, opened.readIssued dir.object)
          else
            (.error (.internal "ReadDirectoryChangesW initial issue failed"),
              { opened with
                watcher := opened.watcher.unregister id call
                  (dir.add call.fileNameKey (call.entry id)) })

/-- The destructor: the flag is set, then a packet wakes the thread, and then
it waits. -/
def destroy : Option (WinWatcherSystem Path Callback) :=
  if system.joining then
    none
  else if system.watcher.shutdown then
    some { system with joining := true, wakes := system.wakes + 1 }
  else
    some { system with watcher := { system.watcher with shutdown := true } }

/-! ### The sections of `Run` -/

def goTo (stage : Stage Path Callback) : WinWatcherSystem Path Callback :=
  { system with stage }

def drain : WinWatcherSystem Path Callback :=
  let drained := system.watcher.drainPendingUnwatches
  { system with
    watcher := drained.1
    cancelled := system.cancelled ++ drained.2.map WinDirWatcher.object
    stage := .shutdownCheck }

def checkShutdown : WinWatcherSystem Path Callback :=
  if system.shuttingDown = false ∧ system.watcher.shutdown = true then
    system.goTo .retire
  else
    system.goTo .exitCheck

def retire : WinWatcherSystem Path Callback :=
  { system with
    shuttingDown := true
    watcher := system.watcher.retireAll
    cancelled := system.cancelled ++
      system.watcher.dirWatchers.entries.map fun entry => entry.2.object
    dirty := []
    deadline := false
    stage := .exitCheck }

def checkExit : WinWatcherSystem Path Callback :=
  if system.shuttingDown = true ∧ system.watcher.draining.entries = [] then
    system.goTo .returned
  else
    system.goTo .waiting

/-- The last completion of a draining directory lets go of it.  An error of an
active one is logged, unless it is `ERROR_OPERATION_ABORTED`. -/
def lookUp (object : Nat) (completion : ReadCompletion) :
    WinWatcherSystem Path Callback :=
  match system.watcher.draining.lookup object with
  | some _ =>
      { system with
        watcher := { system.watcher with
          draining := system.watcher.draining.erase object }
        stage := .top }
  | none =>
      match system.watcher.findActive object, completion with
      | none, _ => system.goTo .top
      | some _, .failed _ => system.goTo .top
      | some _, .transferred buffer bytes =>
          system.goTo (.collect object buffer bytes)

def collect (object : Nat) (buffer : List UInt8) (bytes : Nat) :
    WinWatcherSystem Path Callback :=
  { system with
    dirty := match system.watcher.findActive object with
      | some (_, dir) => dir.collectDirty toLowerKey buffer system.dirty bytes
      | none => system.dirty
    stage := .reissue object }

/-- Dirty watches wait for the end of the coalescing window. -/
def armDeadline : WinWatcherSystem Path Callback :=
  { system with
    deadline := system.deadline || !system.dirty.isEmpty
    stage := .deadlineCheck }

def issueRead (object : Nat) (issued : Bool) : WinWatcherSystem Path Callback :=
  if issued then (system.readIssued object).armDeadline
  else system.goTo (.takeOut object)

def takeOut (object : Nat) : WinWatcherSystem Path Callback :=
  armDeadline { system with watcher := system.watcher.takeOut object }

def clock (passed : Bool) : WinWatcherSystem Path Callback :=
  if system.deadline && passed then system.goTo .fire else system.goTo .top

def fire (order : List WinWatchId) : WinWatcherSystem Path Callback :=
  system.goTo (.invoking (system.watcher.fireDirty order))

def invoke : List (Callback × Path) → WinWatcherSystem Path Callback
  | [] => { system with dirty := [], deadline := false, stage := .top }
  | callback :: callbacks =>
      { system with
        invoked := system.invoked ++ [callback]
        stage := .invoking callbacks }

/-- The next section, where the thread asks neither the kernel nor the clock, and
does not go through the set. -/
def work : Option (WinWatcherSystem Path Callback) :=
  match system.stage with
  | .top => some system.drain
  | .shutdownCheck => some system.checkShutdown
  | .retire => some system.retire
  | .exitCheck => some system.checkExit
  | .lookUp object completion => some (system.lookUp object completion)
  | .collect object buffer bytes =>
      some (system.collect toLowerKey object buffer bytes)
  | .takeOut object => some (system.takeOut object)
  | .invoking callbacks => some (system.invoke callbacks)
  | .waiting | .reissue _ | .deadlineCheck | .fire | .returned => none

/-- `GetQueuedCompletionStatus` returns with a read. -/
def dequeueRead (object : Nat) (completion : ReadCompletion) :
    WinWatcherSystem Path Callback :=
  { system with
    reads := Function.update system.reads object (system.reads object - 1)
    stage := .lookUp object completion }

def step (system : WinWatcherSystem Path Callback) :
    Event Path Callback → Option (WinWatcherSystem Path Callback)
  | .callWatchFile canon parentPath filename currentPath callback =>
      some (system.callWatchFile toLowerKey canon parentPath filename
        currentPath callback).2
  | .watchFile id replies =>
      (system.calls.lookup id).map fun call =>
        ((system.finishCall id).watchFile id call replies).2
  | .closeWatch id => some { system with watcher := system.watcher.closeWatch id }
  | .wake => some { system with wakes := system.wakes + 1 }
  | .destroy => system.destroy
  | .work => system.work toLowerKey
  | .dequeueNothing =>
      match system.stage with
      | .waiting => some (system.goTo .deadlineCheck)
      | _ => none
  | .dequeueWake =>
      match system.stage, system.wakes with
      | .waiting, wakes + 1 => some { system.goTo .deadlineCheck with wakes }
      | _, _ => none
  | .dequeueRead object completion =>
      match system.stage, system.reads object with
      | .waiting, _ + 1 => some (system.dequeueRead object completion)
      | _, _ => none
  | .issueRead issued =>
      match system.stage with
      | .reissue object => some (system.issueRead object issued)
      | _ => none
  | .clock passed =>
      match system.stage with
      | .deadlineCheck => some (system.clock passed)
      | _ => none
  | .fire order =>
      match system.stage with
      | .fire =>
          if order.Perm system.dirty then some (system.fire order) else none
      | _ => none
  | .callbackThrows =>
      match system.stage with
      | .invoking (callback :: _) =>
          some { system.goTo .returned with
            invoked := system.invoked ++ [callback] }
      | _ => none

/-- What can happen, and where the thread is when it happens. -/
inductive Moves (system : WinWatcherSystem Path Callback) :
    Event Path Callback → WinWatcherSystem Path Callback → Prop
  | callWatchFile (canon : Path) (parentPath filename currentPath : WString)
      (callback : Callback) :
      Moves system
        (.callWatchFile canon parentPath filename currentPath callback)
        (system.callWatchFile toLowerKey canon parentPath filename currentPath
          callback).2
  | watchFile {id : WinWatchId} {call : PendingCall Path Callback}
      (replies : SystemReplies) (calling : system.calls.lookup id = some call) :
      Moves system (.watchFile id replies)
        ((system.finishCall id).watchFile id call replies).2
  | closeWatch (id : WinWatchId) :
      Moves system (.closeWatch id)
        { system with watcher := system.watcher.closeWatch id }
  | wake : Moves system .wake { system with wakes := system.wakes + 1 }
  | flag (notJoining : system.joining = false) :
      Moves system .destroy
        { system with watcher := { system.watcher with shutdown := true } }
  | join (flagged : system.watcher.shutdown = true) :
      Moves system .destroy
        { system with joining := true, wakes := system.wakes + 1 }
  | drain (atStage : system.stage = .top) : Moves system .work system.drain
  | checkShutdown (atStage : system.stage = .shutdownCheck) :
      Moves system .work system.checkShutdown
  | retire (atStage : system.stage = .retire) : Moves system .work system.retire
  | checkExit (atStage : system.stage = .exitCheck) :
      Moves system .work system.checkExit
  | lookUp {object : Nat} {completion : ReadCompletion}
      (atStage : system.stage = .lookUp object completion) :
      Moves system .work (system.lookUp object completion)
  | collect {object bytes : Nat} {buffer : List UInt8}
      (atStage : system.stage = .collect object buffer bytes) :
      Moves system .work (system.collect toLowerKey object buffer bytes)
  | takeOut {object : Nat} (atStage : system.stage = .takeOut object) :
      Moves system .work (system.takeOut object)
  | fire {order : List WinWatchId} (atStage : system.stage = .fire)
      (iterates : order.Perm system.dirty) :
      Moves system (.fire order) (system.fire order)
  | invoke {callbacks : List (Callback × Path)}
      (atStage : system.stage = .invoking callbacks) :
      Moves system .work (system.invoke callbacks)
  | dequeueNothing (atStage : system.stage = .waiting) :
      Moves system .dequeueNothing (system.goTo .deadlineCheck)
  | dequeueWake {wakes : Nat} (atStage : system.stage = .waiting)
      (packet : system.wakes = wakes + 1) :
      Moves system .dequeueWake { system.goTo .deadlineCheck with wakes }
  | dequeueRead {object left : Nat} (completion : ReadCompletion)
      (atStage : system.stage = .waiting)
      (issued : system.reads object = left + 1) :
      Moves system (.dequeueRead object completion)
        (system.dequeueRead object completion)
  | issueRead {object : Nat} (issued : Bool)
      (atStage : system.stage = .reissue object) :
      Moves system (.issueRead issued) (system.issueRead object issued)
  | clock (passed : Bool) (atStage : system.stage = .deadlineCheck) :
      Moves system (.clock passed) (system.clock passed)
  | callbackThrows {callback : Callback × Path} {callbacks : List (Callback × Path)}
      (atStage : system.stage = .invoking (callback :: callbacks)) :
      Moves system .callbackThrows
        { system.goTo .returned with invoked := system.invoked ++ [callback] }

variable {toLowerKey} {system next : WinWatcherSystem Path Callback}

theorem moves_of_work (stepped : system.work toLowerKey = some next) :
    Moves toLowerKey system .work next := by
  unfold work at stepped
  split at stepped <;> cases stepped
  case h_1 atStage => exact .drain atStage
  case h_2 atStage => exact .checkShutdown atStage
  case h_3 atStage => exact .retire atStage
  case h_4 atStage => exact .checkExit atStage
  case h_5 atStage => exact .lookUp atStage
  case h_6 atStage => exact .collect atStage
  case h_7 atStage => exact .takeOut atStage
  case h_8 atStage => exact .invoke atStage

theorem moves_of_destroy (stepped : system.destroy = some next) :
    Moves toLowerKey system .destroy next := by
  unfold destroy at stepped
  split at stepped
  · cases stepped
  · rename_i notJoining
    split at stepped
    · rename_i flagged
      cases stepped
      exact .join flagged
    · cases stepped
      exact .flag (Bool.eq_false_iff.mpr notJoining)

/-- A step is one of the moves. -/
theorem moves_of_step {event : Event Path Callback}
    (stepped : step toLowerKey system event = some next) :
    Moves toLowerKey system event next := by
  cases event with
  | callWatchFile canon parentPath filename currentPath callback =>
      cases stepped
      exact .callWatchFile canon parentPath filename currentPath callback
  | watchFile id replies =>
      obtain ⟨call, calling, rfl⟩ := Option.map_eq_some_iff.mp stepped
      exact .watchFile replies calling
  | closeWatch id =>
      cases stepped
      exact .closeWatch id
  | wake =>
      cases stepped
      exact .wake
  | destroy => exact moves_of_destroy stepped
  | work => exact moves_of_work stepped
  | dequeueNothing =>
      simp only [step] at stepped
      split at stepped <;> cases stepped
      rename_i atStage
      exact .dequeueNothing atStage
  | dequeueWake =>
      simp only [step] at stepped
      split at stepped <;> cases stepped
      rename_i atStage packet
      exact .dequeueWake atStage packet
  | dequeueRead object completion =>
      simp only [step] at stepped
      split at stepped <;> cases stepped
      rename_i atStage issued
      exact .dequeueRead completion atStage issued
  | issueRead issued =>
      simp only [step] at stepped
      split at stepped <;> cases stepped
      rename_i atStage
      exact .issueRead issued atStage
  | clock passed =>
      simp only [step] at stepped
      split at stepped <;> cases stepped
      rename_i atStage
      exact .clock passed atStage
  | fire order =>
      simp only [step] at stepped
      split at stepped
      · rename_i atStage
        split at stepped <;> cases stepped
        rename_i iterates
        exact .fire atStage iterates
      · cases stepped
  | callbackThrows =>
      simp only [step] at stepped
      split at stepped <;> cases stepped
      rename_i atStage
      exact .callbackThrows atStage

end WinWatcherSystem

end Birch

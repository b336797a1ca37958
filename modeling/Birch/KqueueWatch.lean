import Birch.EventRuns
import Birch.OctetClasses
import Birch.VnodeQueue

/-!
# The files that the watcher follows

`KqueueFileWatcher` follows a file by its path, but the kernel reports what
happens to the file that a descriptor was opened on.  So each watch holds a
descriptor of the file, which is opened anew when that file loses its name, and
one of the parent directory, which tells when the name may have come back.  The
file system can change between any two calls of the watcher.  This file
determines under which condition no watch stays on a file that is not the one
at its path.
-/

namespace Birch

open VnodeQueue

abbrev WatchId := Nat

abbrev Fd := Nat

/-- A path below a directory that stays in place. -/
structure FilePath where
  parent : Nat
  name : Text
  deriving DecidableEq

inductive Vnode
  | file (inode : Nat)
  | directory (id : Nat)
  deriving DecidableEq

/-- A `Watch`; no descriptor of the file stands for -1. -/
structure Watch where
  path : FilePath
  fileFd : Option Fd := none
  dirFd : Fd

/-- The watcher's own thread, and those that call `WatchFile`. -/
inductive WatcherThread
  | watcher
  | client
  deriving DecidableEq

/-- The system call that the thread with the lock makes next. -/
inductive WatchCall
  | armDir
  | closeFile
  | openFile
  | armFile
  deriving DecidableEq

structure WatchOperation where
  thread : WatcherThread
  watch : WatchId
  call : WatchCall
  deriving DecidableEq

/-- The names in the directories, the descriptors, and the watcher: its
watches, the events that it has read and not handled yet, the calls of
`WatchFile` that have opened the directory, and what the thread with the lock
is about to do. -/
structure KqueueFileWatcher where
  files : FilePath → Option Nat := fun _ => none
  kernel : Table Vnode WatchId := fun _ => none
  watches : WatchId → Option Watch := fun _ => none
  nextWatchId : WatchId := 1
  pendingUnwatches : List WatchId := []
  batch : List (VnodeQueue.Event WatchId) := []
  opened : List (FilePath × Fd) := []
  operation : Option WatchOperation := none

/-- The most events that are read at once. -/
def kBatch : Nat := 16

namespace KqueueFileWatcher

variable (watcher : KqueueFileWatcher)

/-- A name comes to stand for another file, or for none.  The file that loses
the name hears of it, and so does the directory. -/
def setEntry (path : FilePath) (inode : Option Nat) : KqueueFileWatcher :=
  let kernel := match watcher.files path with
    | some old => watcher.kernel.report (.file old) { gone := true }
    | none => watcher.kernel
  { watcher with
    files := Function.update watcher.files path inode
    kernel := kernel.report (.directory path.parent) { changed := true } }

/-- The thread with the lock goes on to another call, or drops the lock. -/
def proceed (operation : Option WatchOperation) : KqueueFileWatcher :=
  { watcher with operation }

def setFileFd (id : WatchId) (watch : Watch) (fileFd : Option Fd) :
    KqueueFileWatcher :=
  { watcher with
    watches := Function.update watcher.watches id (some { watch with fileFd }) }

/-- `HandleFileEvent`.  `DisarmFile` deletes the registration first. -/
def handleFileEvent (id : WatchId) (fd : Fd) (fflags : Flags) :
    KqueueFileWatcher :=
  if fflags.gone then
    { watcher with
      kernel := watcher.kernel.disarm fd
      operation := some ⟨.watcher, id, .closeFile⟩ }
  else
    watcher

def handleDirEvent (id : WatchId) (watch : Watch) : KqueueFileWatcher :=
  if watch.fileFd = none then
    watcher.proceed (some ⟨.watcher, id, .openFile⟩)
  else
    watcher

/-- One turn of the loop of `Run` over the events that were read. -/
def handleEvent (event : VnodeQueue.Event WatchId) : KqueueFileWatcher :=
  match watcher.watches event.udata with
  | none => watcher
  | some watch =>
      if watch.fileFd = some event.ident then
        watcher.handleFileEvent event.udata event.ident event.fflags
      else if event.ident = watch.dirFd then
        watcher.handleDirEvent event.udata watch
      else
        watcher

/-- `DisarmWatch` and the removal of the watch. -/
def removeWatch (id : WatchId) : KqueueFileWatcher :=
  match watcher.watches id with
  | none => watcher
  | some watch =>
      let kernel := match watch.fileFd with
        | some fd => watcher.kernel.close fd
        | none => watcher.kernel
      { watcher with
        kernel := kernel.close watch.dirFd
        watches := Function.update watcher.watches id none }

/-- `kevent` for the registration of the directory. -/
def armDir (operation : WatchOperation) (watch : Watch) (succeeds : Bool) :
    KqueueFileWatcher :=
  if succeeds then
    { watcher with
      kernel := watcher.kernel.arm watch.dirFd operation.watch
      operation := some { operation with call := .openFile } }
  else
    { watcher with
      kernel := watcher.kernel.close watch.dirFd
      watches := Function.update watcher.watches operation.watch none
      operation := none }

/-- The end of `DisarmFile`. -/
def closeFile (operation : WatchOperation) (watch : Watch) :
    KqueueFileWatcher :=
  let closed := match watch.fileFd with
    | some fd => { watcher with kernel := watcher.kernel.close fd }
    | none => watcher
  (closed.setFileFd operation.watch watch none).proceed
    (some { operation with call := .openFile })

/-- `open` in `TryOpenAndArmFile`, which gives the lowest descriptor that is
free or any other one. -/
def openFile (operation : WatchOperation) (watch : Watch) (fd : Fd) :
    Option KqueueFileWatcher :=
  match watcher.files watch.path with
  | none => some (watcher.proceed none)
  | some inode =>
      if (watcher.kernel fd).isNone then
        let opened :=
          { watcher with kernel := watcher.kernel.openFile fd (.file inode) }
        some ((opened.setFileFd operation.watch watch (some fd)).proceed
          (some { operation with call := .armFile }))
      else
        none

/-- `ArmFile`, and what `TryOpenAndArmFile` does where it fails. -/
def armFile (operation : WatchOperation) (watch : Watch) (succeeds : Bool) :
    KqueueFileWatcher :=
  match watch.fileFd with
  | none => watcher.proceed none
  | some fd =>
      if succeeds then
        KqueueFileWatcher.proceed
          { watcher with kernel := watcher.kernel.arm fd operation.watch } none
      else
        (KqueueFileWatcher.setFileFd
          { watcher with kernel := watcher.kernel.close fd }
          operation.watch watch none).proceed none

end KqueueFileWatcher

inductive KqueueEvent
  /-- The file system: a name in a directory changes, or something else is
  reported on a file, as a write or the loss of another name of it. -/
  | setEntry (path : FilePath) (inode : Option Nat)
  | touch (inode : Nat) (flags : Flags)
  /-- `WatchFile` opens the directory, and then registers the watch. -/
  | openDir (path : FilePath) (fd : Fd)
  | register (path : FilePath) (fd : Fd)
  /-- The next call of the thread with the lock. -/
  | armDir (succeeds : Bool)
  | closeFile
  | openFile (fd : Fd)
  | armFile (succeeds : Bool)
  /-- The watcher's thread reads events, or handles the next one. -/
  | readEvents (fds : List Fd)
  | handleEvent
  /-- `CloseWatch`, and the removal of a watch at the top of the loop. -/
  | closeWatch (id : WatchId)
  | drain

/-- The operation of the thread with the lock, if it is at this call, with its
watch. -/
def KqueueFileWatcher.atCall (watcher : KqueueFileWatcher) (call : WatchCall) :
    Option (WatchOperation × Watch) :=
  match watcher.operation with
  | some operation =>
      if operation.call = call then
        (watcher.watches operation.watch).map fun watch => (operation, watch)
      else
        none
  | none => none

/-- One event of the watcher and its surroundings, where it can happen. -/
def KqueueFileWatcher.step (watcher : KqueueFileWatcher) :
    KqueueEvent → Option KqueueFileWatcher
  | .setEntry path inode => some (watcher.setEntry path inode)
  | .touch inode flags => some { watcher with
      kernel := watcher.kernel.report (.file inode) flags }
  | .openDir path fd =>
      if (watcher.kernel fd).isNone then
        some { watcher with
          kernel := watcher.kernel.openFile fd (.directory path.parent)
          opened := watcher.opened ++ [(path, fd)] }
      else
        none
  | .register path fd =>
      if watcher.operation = none ∧ (path, fd) ∈ watcher.opened then
        some { watcher with
          nextWatchId := watcher.nextWatchId + 1
          opened := watcher.opened.erase (path, fd)
          watches := Function.update watcher.watches (watcher.nextWatchId + 1)
            (some { path, dirFd := fd })
          operation := some ⟨.client, watcher.nextWatchId + 1, .armDir⟩ }
      else
        none
  | .armDir succeeds =>
      (watcher.atCall .armDir).map fun (operation, watch) =>
        watcher.armDir operation watch succeeds
  | .closeFile =>
      (watcher.atCall .closeFile).map fun (operation, watch) =>
        watcher.closeFile operation watch
  | .openFile fd =>
      (watcher.atCall .openFile).bind fun (operation, watch) =>
        watcher.openFile operation watch fd
  | .armFile succeeds =>
      (watcher.atCall .armFile).map fun (operation, watch) =>
        watcher.armFile operation watch succeeds
  | .readEvents fds =>
      if watcher.batch = [] ∧ fds.length ≤ kBatch ∧ fds.Nodup ∧
          (∀ fd ∈ fds, watcher.kernel.ready fd = true) ∧
          watcher.operation.map WatchOperation.thread ≠ some .watcher then
        some { watcher with
          kernel := watcher.kernel.clear fds
          batch := watcher.kernel.events fds }
      else
        none
  | .handleEvent =>
      match watcher.batch, watcher.operation with
      | event :: rest, none =>
          some (KqueueFileWatcher.handleEvent { watcher with batch := rest }
            event)
      | _, _ => none
  | .closeWatch id => some { watcher with
      pendingUnwatches := watcher.pendingUnwatches ++ [id] }
  | .drain =>
      match watcher.pendingUnwatches, watcher.batch, watcher.operation with
      | id :: rest, [], none =>
          some (KqueueFileWatcher.removeWatch
            { watcher with pendingUnwatches := rest } id)
      | _, _, _ => none

def kqueueRun : KqueueFileWatcher → List KqueueEvent → Option KqueueFileWatcher :=
  EventRuns.run KqueueFileWatcher.step

/-- Nothing is left to be read, to be handled or to be drained. -/
structure Quiescent (watcher : KqueueFileWatcher) : Prop where
  nothingReady : ∀ fd, watcher.kernel.ready fd = false
  batch : watcher.batch = []
  operation : watcher.operation = none
  pendingUnwatches : watcher.pendingUnwatches = []

/-- The watch holds no descriptor just when no file is at its path, and one
that it holds is open and armed on the file at the path. -/
structure FollowsPath (watcher : KqueueFileWatcher) (id : WatchId)
    (watch : Watch) : Prop where
  absent : watch.fileFd = none ↔ watcher.files watch.path = none
  current : ∀ fd, watch.fileFd = some fd →
    ∃ inode, watcher.files watch.path = some inode ∧
      watcher.kernel.Armed fd (.file inode) id

/-- A file is armed with success, while it is still the one at the path. -/
def ArmsCurrent (watcher : KqueueFileWatcher) : KqueueEvent → Prop
  | .armFile succeeds => succeeds = true ∧
      ∀ operation watch fd descriptor,
        watcher.atCall .armFile = some (operation, watch) →
          watch.fileFd = some fd → watcher.kernel fd = some descriptor →
            (watcher.files watch.path).map Vnode.file = some descriptor.vnode
  | _ => True

end Birch

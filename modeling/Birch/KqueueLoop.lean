import Birch.KqueueDescriptors
import Birch.KqueueWatch

/-!
# The loop of the kqueue watcher

The thread of `KqueueFileWatcher` does not call back at once.  An event that it
handles as a change makes its watch dirty, and the first of them sets a deadline.
When the deadline has passed, the callbacks of the dirty watches run.  The
threads of the clients act between any two sections of the loop that have the
lock, and the kernel and the clock are free to say what they like.  The callbacks
return, and do not throw.
-/

namespace Birch

open LinkedHashMap

namespace KqueueDescriptors

variable {Path Callback : Type*}

/-- A callback with its argument, and the watch that has it. -/
structure Invocation (Path Callback : Type*) where
  id : WatchId
  callback : Callback
  path : Path

def Watch.invocation (watch : Watch Path Callback) (id : WatchId) :
    Invocation Path Callback :=
  ⟨id, watch.callback, watch.path⟩

/-- What `kevent` reports: a wake-up, or a change of a vnode. -/
inductive KEvent
  | wake
  | vnode (udata : WatchId) (ident : Int) (fflags : VnodeQueue.Flags)

structure Timespec where
  tvSec : Int
  tvNsec : Int

/-- In nanoseconds, as all times. -/
def kCoalesceWindow : Int := 50000000

def nanosecondsPerSecond : Int := 1000000000

/-- How long to wait for events. -/
def timespecUntil (deadline now : Int) : Timespec :=
  let remaining := if deadline - now < 0 then 0 else deadline - now
  { tvSec := remaining / nanosecondsPerSecond
    tvNsec := remaining - remaining / nanosecondsPerSecond * nanosecondsPerSecond }

/-- Where the thread is in `Run`. -/
inductive LoopStage (Path Callback : Type*)
  | top
  | unwatch
  | wait
  | polling (timeout : Option Timespec)
  | handling (events : List KEvent)
  | deadlineCheck
  | fire
  | invoking (callbacks : List (Invocation Path Callback))
  | returned

/-- The history of a firing: the events that were handled since the one before
it, each with its watch and whether that has changed, the watches that were
registered, the ids whose unwatches had been drained, and the callbacks that
have run. -/
structure Firing (Path Callback : Type*) where
  handled : List (WatchId × Bool)
  registered : LinkedHashMap WatchId (Watch Path Callback)
  drained : List WatchId
  ran : List (Invocation Path Callback) := []

/-- The watcher, the handles that the clients have, and the thread.  The last
three fields are the history: the events that were handled since the last
firing, the ids whose unwatches have been drained, and the firings, the last one
first. -/
structure RunLoop (Path Callback : Type*) where
  watcher : KqueueDescriptors Path Callback := {}
  handles : List WatchId := []
  shutdown : Bool := false
  dirty : List WatchId := []
  deadline : Option Int := none
  stage : LoopStage Path Callback := .top
  history : List (WatchId × Bool) := []
  drained : List WatchId := []
  firings : List (Firing Path Callback) := []

namespace RunLoop

inductive Event (Path Callback : Type*)
  | callWatchFile (path parentPath : Path) (callback : Callback)
      (reply : Except Nat Nat)
  | watchFile (id : WatchId) (armDir : Option Nat) (replies : FileReplies)
  | closeWatch (id : WatchId)
  | shutDown
  | work
  | clock (now : Int)
  | keventFails
  | keventReturns (events : List KEvent)
  | handle (now : Int) (replies : FileReplies)
  | fire (order : List WatchId)

variable (loop : RunLoop Path Callback)

/-- A call of `WatchFile` that succeeds returns a handle. -/
def returnCall (result : Except ErrnoStatus WatchId ×
    KqueueDescriptors Path Callback) : RunLoop Path Callback :=
  { loop with
    watcher := result.2
    handles := match result.1 with
      | .ok id => loop.handles ++ [id]
      | .error _ => loop.handles }

/-- `Unwatch` of a handle, which lets go of the watcher. -/
def closeWatch (id : WatchId) : RunLoop Path Callback :=
  { loop with
    watcher := loop.watcher.closeWatch id
    handles := loop.handles.erase id }

/-! ### The sections of `Run` -/

def goTo (stage : LoopStage Path Callback) : RunLoop Path Callback :=
  { loop with stage }

def checkShutdown : RunLoop Path Callback :=
  if loop.shutdown then loop.goTo .returned else loop.goTo .unwatch

def drain : RunLoop Path Callback :=
  { loop with
    watcher := loop.watcher.drain
    drained := loop.drained ++ loop.watcher.pendingUnwatches
    stage := .wait }

/-- The clock is only read where there is a deadline. -/
def wait (now : Int) : RunLoop Path Callback :=
  loop.goTo (.polling (loop.deadline.map fun deadline =>
    timespecUntil deadline now))

def insertDirty (id : WatchId) (now : Int) : RunLoop Path Callback :=
  { loop with
    dirty := loop.dirty.insert id
    deadline := some (loop.deadline.getD (now + kCoalesceWindow)) }

/-- After `HandleFileEvent` or `HandleDirEvent`, which says whether the watch has
changed. -/
def handled (id : WatchId) (now : Int)
    (result : Bool × Watch Path Callback × ResourceLedger Int) :
    RunLoop Path Callback :=
  let next := { loop with
    watcher := loop.watcher.setWatch id result
    history := loop.history ++ [(id, result.1)] }
  if result.1 then next.insertDirty id now else next

/-- One turn of the loop over the events. -/
def handleEvent (event : KEvent) (now : Int) (replies : FileReplies) :
    Option (RunLoop Path Callback) :=
  match event with
  | .wake => some loop
  | .vnode id ident fflags =>
      match loop.watcher.watches.lookup id with
      | none => some loop
      | some watch =>
          if ident = watch.fileFd then
            (watch.handleFileEvent loop.watcher.ledger fflags replies).map
              (loop.handled id now)
          else if ident = watch.dirFd then
            (watch.handleDirEvent loop.watcher.ledger replies).map
              (loop.handled id now)
          else
            some loop

def checkDeadline (now : Int) : RunLoop Path Callback :=
  match loop.deadline with
  | some deadline =>
      if deadline ≤ now then loop.goTo .fire else loop.goTo .top
  | none => loop.goTo .top

/-- The callbacks that `FireDirty` takes, in the order that the set has. -/
def fireDirty (watches : LinkedHashMap WatchId (Watch Path Callback))
    (order : List WatchId) : List (Invocation Path Callback) :=
  order.filterMap fun id =>
    (watches.lookup id).map fun watch => watch.invocation id

def fire (order : List WatchId) : RunLoop Path Callback :=
  { loop with
    stage := .invoking (fireDirty loop.watcher.watches order)
    history := []
    firings :=
      { handled := loop.history
        registered := loop.watcher.watches
        drained := loop.drained } :: loop.firings }

/-- The callback is one of the last firing. -/
def record (invocation : Invocation Path Callback) :
    List (Firing Path Callback) → List (Firing Path Callback)
  | [] => []
  | firing :: older =>
      { firing with ran := firing.ran ++ [invocation] } :: older

def invoke : List (Invocation Path Callback) → RunLoop Path Callback
  | [] => { loop with dirty := [], deadline := none, stage := .top }
  | invocation :: callbacks =>
      { loop with
        firings := record invocation loop.firings
        stage := .invoking callbacks }

/-- The next section, where the thread asks neither the kernel nor the clock. -/
def work : Option (RunLoop Path Callback) :=
  match loop.stage with
  | .top => some loop.checkShutdown
  | .unwatch => some loop.drain
  | .handling [] => some (loop.goTo .deadlineCheck)
  | .invoking callbacks => some (loop.invoke callbacks)
  | _ => none

def step (loop : RunLoop Path Callback) :
    Event Path Callback → Option (RunLoop Path Callback)
  | .callWatchFile path parentPath callback reply =>
      (loop.watcher.callWatchFile path parentPath callback reply).map
        fun result => { loop with watcher := result.2 }
  | .watchFile id armDir replies =>
      (loop.watcher.calls.lookup id).bind fun watch =>
        ((loop.watcher.finishCall id).watchFile id watch armDir replies).map
          loop.returnCall
  | .closeWatch id =>
      if id ∈ loop.handles then some (loop.closeWatch id) else none
  | .shutDown => some { loop with shutdown := true }
  | .work => loop.work
  | .clock now =>
      match loop.stage with
      | .wait => some (loop.wait now)
      | .deadlineCheck => some (loop.checkDeadline now)
      | _ => none
  | .keventFails =>
      match loop.stage with
      | .polling _ => some (loop.goTo .top)
      | _ => none
  | .keventReturns events =>
      match loop.stage with
      | .polling _ =>
          if events.length ≤ kBatch then some (loop.goTo (.handling events))
          else none
      | _ => none
  | .handle now replies =>
      match loop.stage with
      | .handling (event :: events) =>
          (loop.goTo (.handling events)).handleEvent event now replies
      | _ => none
  | .fire order =>
      match loop.stage with
      | .fire => if order.Perm loop.dirty then some (loop.fire order) else none
      | _ => none

/-- What can happen, and where the thread is when it happens. -/
inductive Moves (loop : RunLoop Path Callback) :
    Event Path Callback → RunLoop Path Callback → Prop
  | callWatchFile {path parentPath : Path} {callback : Callback}
      {reply : Except Nat Nat}
      {result : Except ErrnoStatus WatchId × KqueueDescriptors Path Callback}
      (called : loop.watcher.callWatchFile path parentPath callback reply =
        some result) :
      Moves loop (.callWatchFile path parentPath callback reply)
        { loop with watcher := result.2 }
  | watchFile {id : WatchId} {watch : Watch Path Callback} {armDir : Option Nat}
      {replies : FileReplies}
      {result : Except ErrnoStatus WatchId × KqueueDescriptors Path Callback}
      (calling : loop.watcher.calls.lookup id = some watch)
      (called : (loop.watcher.finishCall id).watchFile id watch armDir replies =
        some result) :
      Moves loop (.watchFile id armDir replies) (loop.returnCall result)
  | closeWatch {id : WatchId} (handle : id ∈ loop.handles) :
      Moves loop (.closeWatch id) (loop.closeWatch id)
  | shutDown : Moves loop .shutDown { loop with shutdown := true }
  | checkShutdown (atStage : loop.stage = .top) :
      Moves loop .work loop.checkShutdown
  | drain (atStage : loop.stage = .unwatch) : Moves loop .work loop.drain
  | wait (now : Int) (atStage : loop.stage = .wait) :
      Moves loop (.clock now) (loop.wait now)
  | keventFails {timeout : Option Timespec}
      (atStage : loop.stage = .polling timeout) :
      Moves loop .keventFails (loop.goTo .top)
  | keventReturns {timeout : Option Timespec} (events : List KEvent)
      (atStage : loop.stage = .polling timeout) :
      Moves loop (.keventReturns events) (loop.goTo (.handling events))
  | handle {event : KEvent} {events : List KEvent} {now : Int}
      {replies : FileReplies} {next : RunLoop Path Callback}
      (atStage : loop.stage = .handling (event :: events))
      (handled : (loop.goTo (.handling events)).handleEvent event now replies =
        some next) :
      Moves loop (.handle now replies) next
  | noneLeft (atStage : loop.stage = .handling []) :
      Moves loop .work (loop.goTo .deadlineCheck)
  | checkDeadline (now : Int) (atStage : loop.stage = .deadlineCheck) :
      Moves loop (.clock now) (loop.checkDeadline now)
  | fire {order : List WatchId} (atStage : loop.stage = .fire)
      (iterates : order.Perm loop.dirty) :
      Moves loop (.fire order) (loop.fire order)
  | invoke {callbacks : List (Invocation Path Callback)}
      (atStage : loop.stage = .invoking callbacks) :
      Moves loop .work (loop.invoke callbacks)

variable {loop} {next : RunLoop Path Callback}

theorem moves_of_work (stepped : loop.work = some next) :
    Moves loop .work next := by
  unfold work at stepped
  split at stepped <;> cases stepped
  case h_1 atStage => exact .checkShutdown atStage
  case h_2 atStage => exact .drain atStage
  case h_3 atStage => exact .noneLeft atStage
  case h_4 atStage => exact .invoke atStage

/-- A step is one of the moves. -/
theorem moves_of_step {event : Event Path Callback}
    (stepped : step loop event = some next) : Moves loop event next := by
  cases event with
  | callWatchFile path parentPath callback reply =>
      obtain ⟨result, called, rfl⟩ := Option.map_eq_some_iff.mp stepped
      exact .callWatchFile called
  | watchFile id armDir replies =>
      obtain ⟨watch, calling, finished⟩ := Option.bind_eq_some_iff.mp stepped
      obtain ⟨result, called, rfl⟩ := Option.map_eq_some_iff.mp finished
      exact .watchFile calling called
  | closeWatch id =>
      simp only [step] at stepped
      split at stepped <;> cases stepped
      rename_i handle
      exact .closeWatch handle
  | shutDown =>
      cases stepped
      exact .shutDown
  | work => exact moves_of_work stepped
  | clock now =>
      simp only [step] at stepped
      split at stepped <;> cases stepped
      case h_1 atStage => exact .wait now atStage
      case h_2 atStage => exact .checkDeadline now atStage
  | keventFails =>
      simp only [step] at stepped
      split at stepped <;> cases stepped
      rename_i atStage
      exact .keventFails atStage
  | keventReturns events =>
      simp only [step] at stepped
      split at stepped
      · rename_i atStage
        split at stepped <;> cases stepped
        exact .keventReturns events atStage
      · cases stepped
  | handle now replies =>
      simp only [step] at stepped
      split at stepped
      · rename_i atStage
        exact .handle atStage stepped
      · cases stepped
  | fire order =>
      simp only [step] at stepped
      split at stepped
      · rename_i atStage
        split at stepped <;> cases stepped
        rename_i iterates
        exact .fire atStage iterates
      · cases stepped

end RunLoop

end KqueueDescriptors

end Birch

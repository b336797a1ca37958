import Birch.ConnectionDisconnect
import Birch.Strand

/-!
# The end of a connection

The read loop, the write loop and every closure that is posted to the strand
hold a reference to the connection, and all of them may close it.  This file
models the connection from its construction to its destructor, and proves that
`NotifyDisconnect` runs once, on the strand, and before anything can be left for
the destructor.
-/

namespace Birch

/-- The errors that the loops tell apart. -/
inductive IoError
  | eof
  | operationAborted
  | other
  deriving DecidableEq

/-- What the loops wait for. -/
inductive LoopOperation
  | asyncReadSome
  | asyncReceive
  | asyncWrite
  deriving DecidableEq

/-- Where a loop is: its operation is in flight, the completion of it is queued,
or the loop runs in the handler of the completion. -/
inductive LoopState
  | unspawned
  | spawned
  | awaiting (operation : LoopOperation)
  | completed
  | resumed
  | ended
  deriving DecidableEq

/-- What runs on the strand of a connection. -/
inductive ConnectionWork
  | addObserver (observer : ObserverId)
  | runReadLoop
  | runWriteLoop
  | completion (operation : LoopOperation) (ec : Option IoError)
  | closeUnderLock
  deriving DecidableEq

inductive NoticeKind
  | message
  | disconnect
  deriving DecidableEq

/-- A call of `NotifyMessage` or `NotifyDisconnect`: whether it is made from a
handler of the strand, and what was open at that moment. -/
structure StrandNotice where
  kind : NoticeKind
  onStrand : Bool
  socketOpen : Bool
  writeQueueOpen : Bool
  deriving DecidableEq

/-- A connection, with the number of references to it from outside of its own
handlers and loops, and its history. -/
structure AsioConnection where
  socketOpen : Bool := true
  writeQueueOpen : Bool := true
  observers : List ObserverId := []
  strand : Strand ConnectionWork ConnectionWork := {}
  readLoop : LoopState := .unspawned
  writeLoop : LoopState := .unspawned
  references : Nat := 1
  destroyed : Bool := false
  notices : List StrandNotice := []
  deriving DecidableEq

namespace AsioConnection

variable (connection : AsioConnection)

def loop : LoopOperation → LoopState
  | .asyncReadSome => connection.readLoop
  | .asyncReceive | .asyncWrite => connection.writeLoop

def setLoop (operation : LoopOperation) (state : LoopState) : AsioConnection :=
  match operation with
  | .asyncReadSome => { connection with readLoop := state }
  | .asyncReceive | .asyncWrite => { connection with writeLoop := state }

def submit (work : ConnectionWork) : AsioConnection :=
  { connection with strand := connection.strand.submit work }

def notify (kind : NoticeKind) : AsioConnection :=
  { connection with
    notices := connection.notices ++
      [{ kind
         onStrand := connection.strand.running.isSome
         socketOpen := connection.socketOpen
         writeQueueOpen := connection.writeQueueOpen }] }

/-- `CloseUnderLock`, with the observers whose `OnDisconnect` it calls. -/
def closeUnderLock : AsioConnection × List ObserverId :=
  if connection.socketOpen then
    let queueClosed := { connection with writeQueueOpen := false }
    let closed := { queueClosed with socketOpen := false }
    (closed.notify .disconnect, closed.observers)
  else
    (connection, [])

/-- A loop goes on with the result of its operation.  After an error of any
kind it calls `Close()`, which runs in the handler, and returns.  The messages
of a read, and the next read, are events of their own. -/
def resume (operation : LoopOperation) (ec : Option IoError) :
    AsioConnection × List ObserverId :=
  match ec, operation with
  | some _, _ => (connection.setLoop operation .resumed).closeUnderLock
  | none, .asyncReadSome => ({ connection with readLoop := .resumed }, [])
  | none, .asyncReceive =>
      ({ connection with writeLoop := .awaiting .asyncWrite }, [])
  | none, .asyncWrite =>
      ({ connection with writeLoop := .awaiting .asyncReceive }, [])

def handle : ConnectionWork → AsioConnection × List ObserverId
  | .addObserver observer =>
      ({ connection with observers := connection.observers ++ [observer] }, [])
  | .runReadLoop =>
      ({ connection with readLoop := .awaiting .asyncReadSome }, [])
  | .runWriteLoop =>
      ({ connection with writeLoop := .awaiting .asyncReceive }, [])
  | .completion operation ec => connection.resume operation ec
  | .closeUnderLock => connection.closeUnderLock

/-- The strand takes its next piece of work. -/
def takeWork : Option (AsioConnection × List ObserverId) :=
  connection.strand.take.map fun (work, rest) =>
    { connection with strand := rest.hold work }.handle work

/-- The handler returns, and with it a loop that has met an error. -/
def finishWork : Option AsioConnection :=
  let finished := { connection with strand := connection.strand.finish }
  match connection.strand.running with
  | none => none
  | some (.completion operation (some _)) =>
      some (finished.setLoop operation .ended)
  | some (.completion .asyncReadSome none) =>
      if connection.readLoop = .resumed then none else some finished
  | some _ => some finished

/-- A loop holds a reference from when it is spawned until it has ended, and so
does everything that is queued or runs on the strand. -/
def Unreferenced : Prop :=
  connection.references = 0 ∧ connection.strand.Idle ∧
    (connection.readLoop = .unspawned ∨ connection.readLoop = .ended) ∧
      (connection.writeLoop = .unspawned ∨ connection.writeLoop = .ended)

instance : Decidable connection.Unreferenced := by
  unfold Unreferenced
  infer_instance

end AsioConnection

/-- The handlers in which observers are called. -/
def ConnectionWork.notifies : ConnectionWork → Bool
  | .completion .asyncReadSome _ => true
  | .completion _ ec => ec.isSome
  | .closeUnderLock => true
  | _ => false

inductive ConnectionEvent
  /-- A reference is copied or released outside, or used for a call. -/
  | retain
  | release
  | addObserver (observer : ObserverId)
  | spawnReadLoop
  | spawnWriteLoop
  | close
  /-- The operation of a loop completes. -/
  | complete (operation : LoopOperation) (ec : Option IoError)
  /-- The strand takes its next piece of work; the read loop notifies a message
  and goes on to the next read; an observer that is being notified calls
  `Close()`; the handler returns. -/
  | takeWork
  | notifyMessage
  | closeInNotification
  | readAgain
  | finishWork
  /-- The destructor, once nothing refers to the connection. -/
  | destroy

namespace AsioConnection

/-- One event of the connection, where it can happen, with the observers whose
`OnDisconnect` is called. -/
def react (connection : AsioConnection) :
    ConnectionEvent → Option (AsioConnection × List ObserverId)
  | .retain =>
      if 0 < connection.references then
        some ({ connection with references := connection.references + 1 }, [])
      else
        none
  | .release =>
      if 0 < connection.references then
        some ({ connection with references := connection.references - 1 }, [])
      else
        none
  | .addObserver observer =>
      if 0 < connection.references then
        some (connection.submit (.addObserver observer), [])
      else
        none
  | .spawnReadLoop =>
      if 0 < connection.references ∧ connection.readLoop = .unspawned then
        some ({ connection.submit .runReadLoop with readLoop := .spawned }, [])
      else
        none
  | .spawnWriteLoop =>
      if 0 < connection.references ∧ connection.readLoop ≠ .unspawned ∧
          connection.writeLoop = .unspawned then
        some ({ connection.submit .runWriteLoop with writeLoop := .spawned },
          [])
      else
        none
  | .close =>
      if 0 < connection.references then
        some (connection.submit .closeUnderLock, [])
      else
        none
  | .complete operation ec =>
      if connection.loop operation = .awaiting operation then
        some ((connection.submit (.completion operation ec)).setLoop operation
          .completed, [])
      else
        none
  | .takeWork => connection.takeWork
  | .notifyMessage =>
      if connection.strand.running = some (.completion .asyncReadSome none) ∧
          connection.readLoop = .resumed then
        some (connection.notify .message, [])
      else
        none
  | .closeInNotification =>
      if connection.strand.running.any ConnectionWork.notifies then
        some connection.closeUnderLock
      else
        none
  | .readAgain =>
      if connection.strand.running = some (.completion .asyncReadSome none) ∧
          connection.readLoop = .resumed then
        some ({ connection with readLoop := .awaiting .asyncReadSome }, [])
      else
        none
  | .finishWork => connection.finishWork.map (·, [])
  | .destroy =>
      if connection.Unreferenced ∧ connection.destroyed = false then
        some ({ connection.closeUnderLock.1 with destroyed := true },
          connection.closeUnderLock.2)
      else
        none

def step (connection : AsioConnection) (event : ConnectionEvent) :
    Option AsioConnection :=
  (connection.react event).map Prod.fst

end AsioConnection

def connectionRun : AsioConnection → List ConnectionEvent → Option AsioConnection :=
  EventRuns.run AsioConnection.step

/-- `NotifyDisconnect` has run at most once, after the socket and the write
queue were closed, and has run where a loop has ended; every notification was
made on the strand; and the destructor finds the socket closed. -/
structure TornDownOnce (connection : AsioConnection) : Prop where
  atMostOnce : connection.notices.countP (·.kind = .disconnect) ≤ 1
  afterClosing : ∀ notice ∈ connection.notices, notice.kind = .disconnect →
    notice.socketOpen = false ∧ notice.writeQueueOpen = false
  beforeLoopEnds :
    connection.readLoop = .ended ∨ connection.writeLoop = .ended →
      ∃ notice ∈ connection.notices, notice.kind = .disconnect
  onStrand : ∀ notice ∈ connection.notices, notice.onStrand = true
  destructor : ∀ next, connection.step .destroy = some next →
    connection.socketOpen = false ∧ next.notices = connection.notices

/-! ## Closing -/

namespace AsioConnection

variable {connection : AsioConnection}

/-- The connection after `CloseUnderLock` has found the socket open. -/
def disconnected (connection : AsioConnection) : AsioConnection :=
  { connection with
    socketOpen := false
    writeQueueOpen := false
    notices := connection.notices ++
      [{ kind := .disconnect
         onStrand := connection.strand.running.isSome
         socketOpen := false
         writeQueueOpen := false }] }

theorem closeUnderLock_open (isOpen : connection.socketOpen = true) :
    connection.closeUnderLock =
      (connection.disconnected, connection.observers) := by
  rw [closeUnderLock, if_pos isOpen]
  rfl

theorem closeUnderLock_closed (closed : connection.socketOpen = false) :
    connection.closeUnderLock = (connection, []) := by
  rw [closeUnderLock, closed]
  rfl

theorem socketOpen_closeUnderLock :
    connection.closeUnderLock.1.socketOpen = false := by
  rcases opened : connection.socketOpen
  · rw [closeUnderLock_closed opened, opened]
  · rw [closeUnderLock_open opened]
    rfl

theorem destroyed_closeUnderLock :
    connection.closeUnderLock.1.destroyed = connection.destroyed := by
  unfold closeUnderLock
  split <;> rfl

end AsioConnection

/-! ## Each event -/

/-- The socket is open as long as no disconnect has been notified. -/
structure Noticed (connection : AsioConnection) : Prop where
  disconnects : connection.notices.countP (·.kind = .disconnect) =
    if connection.socketOpen then 0 else 1
  afterClosing : ∀ notice ∈ connection.notices, notice.kind = .disconnect →
    notice.socketOpen = false ∧ notice.writeQueueOpen = false

/-- What holds between any two events.  A loop has closed the socket when it is
about to return, so it keeps the connection alive until then. -/
structure Sound (connection : AsioConnection) : Prop extends
    Noticed connection where
  onStrand : connection.writeLoop ≠ .unspawned ∨ connection.destroyed = false →
    ∀ notice ∈ connection.notices, notice.onStrand = true
  ended : connection.readLoop = .ended ∨ connection.writeLoop = .ended →
    connection.socketOpen = false
  returning : ∀ operation error,
    connection.strand.running = some (.completion operation (some error)) →
      connection.socketOpen = false
  dead : connection.destroyed = true → connection.Unreferenced

theorem sound_initial : Sound {} where
  disconnects := rfl
  afterClosing := by simp
  onStrand := by simp
  ended := by simp
  returning := by simp
  dead := by simp

namespace Sound

variable {connection : AsioConnection}

/-- An event that closes nothing and notifies nothing. -/
theorem frame (sound : Sound connection)
    (alive : connection.destroyed = false) {observers : List ObserverId}
    {strand : Strand ConnectionWork ConnectionWork}
    {readLoop writeLoop : LoopState} {references : Nat}
    (ended : readLoop = .ended ∨ writeLoop = .ended →
      connection.socketOpen = false)
    (returning : ∀ operation error,
      strand.running = some (.completion operation (some error)) →
        connection.socketOpen = false) :
    Sound { connection with
      observers, strand, readLoop, writeLoop, references } where
  disconnects := sound.disconnects
  afterClosing := sound.afterClosing
  onStrand := fun _ => sound.onStrand (Or.inr alive)
  ended := ended
  returning := returning
  dead := fun destroyed => by
    rw [alive] at destroyed
    cases destroyed

theorem submit (sound : Sound connection)
    (alive : connection.destroyed = false) (work : ConnectionWork) :
    Sound (connection.submit work) :=
  sound.frame alive sound.ended sound.returning

theorem setLoop (sound : Sound connection)
    (alive : connection.destroyed = false) (operation : LoopOperation)
    {state : LoopState}
    (ended : state = .ended → connection.socketOpen = false) :
    Sound (connection.setLoop operation state) := by
  cases operation with
  | asyncReadSome =>
      refine sound.frame alive ?_ sound.returning
      rintro (returned | other)
      · exact ended returned
      · exact sound.ended (Or.inr other)
  | asyncReceive | asyncWrite =>
      refine sound.frame alive ?_ sound.returning
      rintro (other | returned)
      · exact sound.ended (Or.inl other)
      · exact ended returned

end Sound

theorem Noticed.disconnected {connection : AsioConnection}
    (noticed : Noticed connection) (isOpen : connection.socketOpen = true) :
    Noticed connection.disconnected where
  disconnects := by
    have before := noticed.disconnects
    rw [isOpen] at before
    simp [AsioConnection.disconnected, List.countP_append, before]
  afterClosing := by
    intro notice member
    rcases List.mem_append.mp member with old | new
    · exact noticed.afterClosing notice old
    · obtain rfl := List.mem_singleton.mp new
      exact fun _ => ⟨rfl, rfl⟩

/-- After `CloseUnderLock` in a handler, a loop may return. -/
theorem sound_closeUnderLock {connection : AsioConnection}
    (noticed : Noticed connection)
    (onStrand : ∀ notice ∈ connection.notices, notice.onStrand = true)
    (alive : connection.destroyed = false)
    (running : connection.strand.running.isSome = true) :
    Sound connection.closeUnderLock.1 := by
  have closed := connection.socketOpen_closeUnderLock
  have stays : connection.closeUnderLock.1.destroyed = false := by
    rw [AsioConnection.destroyed_closeUnderLock, alive]
  refine ⟨?_, ?_, fun _ => closed, fun _ _ _ => closed, ?_⟩
  · rcases opened : connection.socketOpen
    · rwa [AsioConnection.closeUnderLock_closed opened]
    · rw [AsioConnection.closeUnderLock_open opened]
      exact noticed.disconnected opened
  · intro _
    rcases opened : connection.socketOpen
    · rwa [AsioConnection.closeUnderLock_closed opened]
    · rw [AsioConnection.closeUnderLock_open opened]
      intro notice member
      rcases List.mem_append.mp member with old | new
      · exact onStrand notice old
      · obtain rfl := List.mem_singleton.mp new
        exact running
  · intro destroyed
    rw [stays] at destroyed
    cases destroyed

namespace Sound

variable {connection next : AsioConnection} {calls : List ObserverId}

theorem notifyMessage (sound : Sound connection)
    (alive : connection.destroyed = false)
    (running : connection.strand.running.isSome = true) :
    Sound (connection.notify .message) where
  disconnects := by
    rw [AsioConnection.notify, List.countP_append, sound.disconnects]
    rfl
  afterClosing := by
    intro notice member
    rcases List.mem_append.mp member with old | new
    · exact sound.afterClosing notice old
    · obtain rfl := List.mem_singleton.mp new
      exact fun absurd => NoticeKind.noConfusion absurd
  onStrand := by
    intro _ notice member
    rcases List.mem_append.mp member with old | new
    · exact sound.onStrand (Or.inr alive) notice old
    · obtain rfl := List.mem_singleton.mp new
      exact running
  ended := sound.ended
  returning := sound.returning
  dead := fun destroyed => by
    rw [AsioConnection.notify, alive] at destroyed
    cases destroyed

/-- By cases on the work: only a loop that has met an error, and a posted
`Close()`, close the connection. -/
theorem takeWork (sound : Sound connection)
    (alive : connection.destroyed = false)
    (taken : connection.takeWork = some (next, calls)) : Sound next := by
  obtain ⟨⟨work, rest⟩, take, handled⟩ := Option.map_eq_some_iff.mp taken
  obtain rfl : (AsioConnection.handle _ work).1 = next :=
    congrArg Prod.fst handled
  have onStrand := sound.onStrand (Or.inr alive)
  have held (harmless : ∀ operation error,
      work ≠ .completion operation (some error)) :
      Sound { connection with strand := rest.hold work } :=
    sound.frame alive sound.ended fun operation error running =>
      absurd (Option.some.inj running) (harmless operation error)
  cases work with
  | addObserver observer => exact sound.frame alive sound.ended (by simp)
  | runReadLoop =>
      exact (held (by simp)).setLoop alive .asyncReadSome (by simp)
  | runWriteLoop =>
      exact (held (by simp)).setLoop alive .asyncReceive (by simp)
  | closeUnderLock =>
      exact sound_closeUnderLock ⟨sound.disconnects, sound.afterClosing⟩
        onStrand alive rfl
  | completion operation ec =>
      cases ec with
      | some error =>
          cases operation <;>
            exact sound_closeUnderLock ⟨sound.disconnects, sound.afterClosing⟩
              onStrand alive rfl
      | none =>
          cases operation with
          | asyncReadSome =>
              exact (held (by simp)).setLoop alive .asyncReadSome (by simp)
          | asyncReceive | asyncWrite =>
              exact (held (by simp)).setLoop alive .asyncReceive (by simp)

theorem finishWork (sound : Sound connection)
    (alive : connection.destroyed = false)
    (finished : connection.finishWork = some next) : Sound next := by
  have quiet : Sound { connection with strand := connection.strand.finish } :=
    sound.frame alive sound.ended (by simp)
  unfold AsioConnection.finishWork at finished
  split at finished
  · cases finished
  · rename_i operation error running
    obtain rfl := Option.some.inj finished
    have closed := sound.returning operation error running
    exact quiet.setLoop alive operation fun _ => closed
  · split at finished
    · cases finished
    · obtain rfl := Option.some.inj finished
      exact quiet
  · obtain rfl := Option.some.inj finished
    exact quiet

/-- A connection on which `OnConnected` has been called has both loops behind
it when nothing refers to it any more. -/
theorem closed_of_unreferenced (sound : Sound connection)
    (connected : connection.writeLoop ≠ .unspawned)
    (unreferenced : connection.Unreferenced) :
    connection.socketOpen = false := by
  obtain ⟨_, _, _, writeLoop⟩ := unreferenced
  exact sound.ended (Or.inr (writeLoop.resolve_left connected))

theorem destroy (sound : Sound connection)
    (alive : connection.destroyed = false)
    (unreferenced : connection.Unreferenced) :
    Sound { connection.closeUnderLock.1 with destroyed := true } := by
  rcases opened : connection.socketOpen
  · rw [AsioConnection.closeUnderLock_closed opened]
    exact {
      disconnects := sound.disconnects
      afterClosing := sound.afterClosing
      onStrand := fun _ => sound.onStrand (Or.inr alive)
      ended := sound.ended
      returning := sound.returning
      dead := fun _ => unreferenced }
  · have unconnected : connection.writeLoop = .unspawned := by
      by_contra connected
      have closed := sound.closed_of_unreferenced connected unreferenced
      rw [opened] at closed
      cases closed
    have noticed := sound.toNoticed.disconnected opened
    rw [AsioConnection.closeUnderLock_open opened]
    exact {
      disconnects := noticed.disconnects
      afterClosing := noticed.afterClosing
      onStrand := fun still => by
        rcases still with connected | notDestroyed
        · exact absurd unconnected connected
        · cases notDestroyed
      ended := fun _ => rfl
      returning := fun _ _ _ => rfl
      dead := fun _ => unreferenced }

end Sound

/-- Nothing happens to a connection to which nothing refers, except for its
destructor. -/
theorem react_unreferenced {connection : AsioConnection}
    (unreferenced : connection.Unreferenced) {event : ConnectionEvent}
    {result : AsioConnection × List ObserverId}
    (reacted : connection.react event = some result) :
    connection.destroyed = false := by
  obtain ⟨references, ⟨free, queue⟩, readLoop, writeLoop⟩ := unreferenced
  cases event with
  | destroy =>
      simp only [AsioConnection.react, Option.ite_none_right_eq_some] at reacted
      exact reacted.1.2
  | takeWork =>
      simp [AsioConnection.react, AsioConnection.takeWork, Strand.take, free,
        queue] at reacted
  | finishWork =>
      simp [AsioConnection.react, AsioConnection.finishWork, free] at reacted
  | complete operation ec =>
      rcases readLoop with readLoop | readLoop <;>
        rcases writeLoop with writeLoop | writeLoop <;>
          cases operation <;>
            simp [AsioConnection.react, AsioConnection.loop, readLoop,
              writeLoop] at reacted
  | retain | release | addObserver _ | spawnReadLoop | spawnWriteLoop | close =>
      simp [AsioConnection.react, references] at reacted
  | notifyMessage | closeInNotification | readAgain =>
      simp [AsioConnection.react, free] at reacted

theorem Sound.react {connection next : AsioConnection} {event : ConnectionEvent}
    {calls : List ObserverId} (sound : Sound connection)
    (reacted : connection.react event = some (next, calls)) : Sound next := by
  have alive : connection.destroyed = false := by
    by_contra destroyed
    rw [Bool.not_eq_false] at destroyed
    rw [react_unreferenced (sound.dead destroyed) reacted] at destroyed
    cases destroyed
  cases event with
  | takeWork => exact sound.takeWork alive reacted
  | finishWork =>
      obtain ⟨finished, finish, same⟩ := Option.map_eq_some_iff.mp reacted
      obtain ⟨rfl, _⟩ := Prod.mk.inj same
      exact sound.finishWork alive finish
  | retain | release =>
      obtain ⟨_, same⟩ := Option.ite_none_right_eq_some.mp reacted
      obtain ⟨rfl, _⟩ := Prod.mk.inj (Option.some.inj same)
      exact sound.frame alive sound.ended sound.returning
  | addObserver _ | close =>
      obtain ⟨_, same⟩ := Option.ite_none_right_eq_some.mp reacted
      obtain ⟨rfl, _⟩ := Prod.mk.inj (Option.some.inj same)
      exact sound.submit alive _
  | spawnReadLoop =>
      obtain ⟨_, same⟩ := Option.ite_none_right_eq_some.mp reacted
      obtain ⟨rfl, _⟩ := Prod.mk.inj (Option.some.inj same)
      exact (sound.submit alive .runReadLoop).setLoop alive .asyncReadSome
        (by simp)
  | spawnWriteLoop =>
      obtain ⟨_, same⟩ := Option.ite_none_right_eq_some.mp reacted
      obtain ⟨rfl, _⟩ := Prod.mk.inj (Option.some.inj same)
      exact (sound.submit alive .runWriteLoop).setLoop alive .asyncReceive
        (by simp)
  | complete operation ec =>
      obtain ⟨_, same⟩ := Option.ite_none_right_eq_some.mp reacted
      obtain ⟨rfl, _⟩ := Prod.mk.inj (Option.some.inj same)
      exact (sound.submit alive _).setLoop alive operation (by simp)
  | notifyMessage =>
      obtain ⟨⟨running, _⟩, same⟩ := Option.ite_none_right_eq_some.mp reacted
      obtain ⟨rfl, _⟩ := Prod.mk.inj (Option.some.inj same)
      exact sound.notifyMessage alive (by rw [running]; rfl)
  | closeInNotification =>
      obtain ⟨notifies, same⟩ := Option.ite_none_right_eq_some.mp reacted
      obtain rfl : connection.closeUnderLock.1 = next :=
        congrArg Prod.fst (Option.some.inj same)
      have running : connection.strand.running.isSome = true := by
        rcases running : connection.strand.running
        · rw [running] at notifies
          cases notifies
        · rfl
      exact sound_closeUnderLock sound.toNoticed (sound.onStrand (Or.inr alive))
        alive running
  | readAgain =>
      obtain ⟨_, same⟩ := Option.ite_none_right_eq_some.mp reacted
      obtain ⟨rfl, _⟩ := Prod.mk.inj (Option.some.inj same)
      exact sound.setLoop alive .asyncReadSome (by simp)
  | destroy =>
      obtain ⟨⟨unreferenced, _⟩, same⟩ :=
        Option.ite_none_right_eq_some.mp reacted
      obtain ⟨rfl, _⟩ := Prod.mk.inj (Option.some.inj same)
      exact sound.destroy alive unreferenced

theorem Sound.step {connection next : AsioConnection} {event : ConnectionEvent}
    (sound : Sound connection) (stepped : connection.step event = some next) :
    Sound next := by
  obtain ⟨⟨_, calls⟩, reacted, rfl⟩ := Option.map_eq_some_iff.mp stepped
  exact sound.react reacted

/-! ## Runs -/

theorem sound_of_run {events : List ConnectionEvent}
    {connection : AsioConnection}
    (ran : connectionRun {} events = some connection) : Sound connection :=
  EventRuns.run_invariant (fun _ _ _ sound stepped => sound.step stepped)
    sound_initial ran

theorem Sound.teardown {connection : AsioConnection} (sound : Sound connection)
    (connected : connection.writeLoop ≠ .unspawned) :
    TornDownOnce connection := by
  have disconnects := sound.disconnects
  refine ⟨?_, sound.afterClosing, ?_, sound.onStrand (Or.inl connected), ?_⟩
  · rw [disconnects]
    split <;> simp
  · intro ended
    rw [sound.ended ended] at disconnects
    obtain ⟨notice, member, isDisconnect⟩ :=
      List.countP_pos_iff.mp (by rw [disconnects]; decide)
    exact ⟨notice, member, of_decide_eq_true isDisconnect⟩
  · intro next stepped
    obtain ⟨⟨_, calls⟩, reacted, rfl⟩ := Option.map_eq_some_iff.mp stepped
    obtain ⟨⟨unreferenced, _⟩, same⟩ :=
      Option.ite_none_right_eq_some.mp reacted
    have closed := sound.closed_of_unreferenced connected unreferenced
    obtain ⟨rfl, _⟩ := Prod.mk.inj (Option.some.inj same)
    rw [AsioConnection.closeUnderLock_closed closed]
    exact ⟨closed, rfl⟩

/-- A connection is torn down once, whatever the order in which its loops meet
errors, `Close()` is called, and its references are released. -/
theorem tornDownOnce (events : List ConnectionEvent)
    (connection : AsioConnection)
    (ran : connectionRun {} events = some connection)
    (connected : connection.writeLoop ≠ .unspawned) :
    TornDownOnce connection :=
  (sound_of_run ran).teardown connected

/-- The peer hangs up after a message, the last outside reference is released
while that is handled, and the write loop ends through the closed queue. -/
def hungUpEvents : List ConnectionEvent :=
  [.addObserver 7, .spawnReadLoop, .spawnWriteLoop, .takeWork, .finishWork,
    .takeWork, .finishWork, .takeWork, .finishWork,
    .complete .asyncReadSome none, .takeWork, .notifyMessage, .readAgain,
    .finishWork, .complete .asyncReadSome (some .eof), .takeWork, .release,
    .closeInNotification, .finishWork,
    .complete .asyncReceive (some .operationAborted), .takeWork, .finishWork,
    .destroy]

theorem tornDownOnce_hungUp :
    ∃ connection, connectionRun {} hungUpEvents = some connection ∧
      connection.destroyed = true ∧ connection.notices.length = 2 ∧
        TornDownOnce connection :=
  ⟨_, rfl, rfl, rfl, tornDownOnce hungUpEvents _ rfl (by decide)⟩

end Birch

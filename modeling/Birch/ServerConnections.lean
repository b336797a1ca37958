import Birch.ConnectionTeardown
import Mathlib.Data.List.Nodup
import Mathlib.Data.List.Perm.Basic
import Mathlib.Logic.Function.Basic

/-!
# The connections of the server

`AcceptConnections` and `HandleSignals` run on the strand of the server, each
connection on a strand of its own, and `OnDisconnect` sends the removal of a
connection from its strand back to the one of the server.  This file composes
the connections of `ConnectionTeardown` with the server, and says what one step
of each can do.
-/

namespace Birch

abbrev ConnId := UInt64

/-- The server, among the observers of a connection. -/
def serverObserver : ObserverId := 0

inductive Signal
  | hangup
  | interrupt
  | terminate
  | other
  deriving DecidableEq

def reloadSignals : List Signal := [.hangup]

def terminalSignals : List Signal := [.interrupt, .terminate]

inductive AcceptResult
  | accepted
  | aborted
  | failed
  deriving DecidableEq

/-- What runs on the strand of the server.  A wait for a signal that fails ends
`HandleSignals`. -/
inductive ServerWork
  | handleSignals
  | acceptConnections
  | signalled (sig : Option Signal)
  | acceptCompleted (result : AcceptResult)
  | eraseConnection (connId : ConnId)
  deriving DecidableEq

/-- Where `AcceptConnections` is with a new connection: it has put it into the
table, has called `AddObserver`, or has spawned the read loop. -/
inductive AcceptStage
  | emplaced
  | observed
  | reading
  deriving DecidableEq

inductive ServerTask
  | accepting (connId : ConnId) (stage : AcceptStage)
  | closing
  deriving DecidableEq

/-- The loop over the table in `HandleSignals`: the entries in the order in
which it visits them, its calls of `Close()`, and what it has still to visit. -/
structure ShutdownLoop where
  entries : List ConnId
  closeCalls : List ConnId
  remaining : List ConnId

/-- The server, the keys of `m_connections`, and all of the connections that it
has made.  The last three fields are its history: the connections that were put
into the table and those that were erased, each in order, and whether the table
was changed while the loop was visiting it. -/
structure Server where
  connections : List ConnId := []
  objects : ConnId → Option AsioConnection := fun _ => none
  nextConnId : ConnId := 1
  draining : Bool := false
  strand : Strand ServerWork ServerTask :=
    { queue := [.handleSignals, .acceptConnections] }
  waitsForSignal : Bool := false
  waitsForAccept : Bool := false
  shutdown : Option ShutdownLoop := none
  accepted : List ConnId := []
  erased : List ConnId := []
  tableChanged : Bool := false

namespace AsioConnection

/-- `Close()` on a thread that is not in the strand of the connection.  It runs
before the call returns if the strand is idle. -/
def dispatchClose (connection : AsioConnection) :
    AsioConnection × List ObserverId :=
  if connection.strand.Idle then
    let closed := closeUnderLock
      { connection with strand := connection.strand.hold .closeUnderLock }
    ({ closed.1 with strand := closed.1.strand.finish }, closed.2)
  else
    (connection.submit .closeUnderLock, [])

end AsioConnection

/-- What a connection does without being called.  The calls are those of
`AcceptConnections` and `HandleSignals`. -/
def ConnectionEvent.isOwn : ConnectionEvent → Bool
  | .retain | .release | .addObserver _ => false
  | .spawnReadLoop | .spawnWriteLoop | .close => false
  | _ => true

namespace Server

variable (state : Server)

def setConnections (connections : List ConnId) : Server :=
  { state with
    connections
    tableChanged := state.tableChanged ||
      (state.strand.running = some .closing ∧
        connections ≠ state.connections) }

/-- The closure that `OnDisconnect` dispatches. -/
def eraseConnection (connId : ConnId) : Server :=
  { state.setConnections (state.connections.filter (· ≠ connId)) with
    erased := state.erased ++ [connId] }

/-- `OnDisconnect`.  The closure runs before it returns if the thread is in the
strand of the server, or the strand is idle. -/
def onDisconnect (inStrand : Bool) (connId : ConnId) : Server :=
  if inStrand = true ∨ state.strand.Idle then
    state.eraseConnection connId
  else
    { state with strand := state.strand.submit (.eraseConnection connId) }

/-- A connection has done something, in which it has called the `OnDisconnect`
of these observers. -/
def setConnection (inStrand : Bool) (connId : ConnId)
    (result : AsioConnection × List ObserverId) : Server :=
  let updated := { state with
    objects := Function.update state.objects connId (some result.1) }
  if serverObserver ∈ result.2 then
    updated.onDisconnect inStrand connId
  else
    updated

def reactConnection (connId : ConnId) (event : ConnectionEvent) :
    Option Server :=
  match state.objects connId with
  | none => none
  | some connection =>
      (connection.react event).map (state.setConnection false connId)

/-- The conditions of the two loops, and what they wait for next. -/
def waitForSignal : Server :=
  if state.draining then state else { state with waitsForSignal := true }

def waitForAccept : Server :=
  if state.draining then state else { state with waitsForAccept := true }

/-- `m_nextConnId.fetch_add` and `m_connections.emplace`. -/
def accept : Server :=
  let connId := state.nextConnId
  let inserted := state.setConnections
    (if connId ∈ state.connections then state.connections
      else state.connections ++ [connId])
  { inserted with
    nextConnId := connId + 1
    objects := Function.update state.objects connId (some {})
    accepted := state.accepted ++ [connId]
    strand := state.strand.hold (.accepting connId .emplaced) }

/-- `HandleSignals` begins to visit the table. -/
def shutDown (order : List ConnId) : Server :=
  { state with
    draining := true
    shutdown := some
      { entries := order, closeCalls := [], remaining := order }
    strand := state.strand.hold .closing }

/-- The handlers of the strand, up to where other threads can tell how far they
have come.  A signal that ends the server has the order in which the loop visits
the table, or none if `m_acceptor.close()` throws. -/
def handle (order : Option (List ConnId)) : ServerWork → Option Server
  | .handleSignals => some state.waitForSignal
  | .acceptConnections => some state.waitForAccept
  | .signalled none => some state
  | .signalled (some sig) =>
      if sig ∈ reloadSignals then
        some state.waitForSignal
      else if sig ∈ terminalSignals then
        match order with
        | none => some { state with draining := true }
        | some order =>
            if order.Perm state.connections then
              some (state.shutDown order)
            else
              none
      else
        some state.waitForSignal
  | .acceptCompleted result =>
      if result ≠ .accepted ∨ state.draining = true then
        some state
      else
        some state.accept
  | .eraseConnection connId => some (state.eraseConnection connId)

def takeWork (order : Option (List ConnId)) : Option Server :=
  match state.strand.take with
  | none => none
  | some (work, strand) => { state with strand }.handle order work

def holdStage (connId : ConnId) (stage : AcceptStage) : Server :=
  { state with strand := state.strand.hold (.accepting connId stage) }

/-- The next statement of `AcceptConnections`, with the new connection. -/
def proceed : Option Server :=
  match state.strand.running with
  | some (.accepting connId .emplaced) =>
      (state.reactConnection connId (.addObserver serverObserver)).map
        (·.holdStage connId .observed)
  | some (.accepting connId .observed) =>
      (state.reactConnection connId .spawnReadLoop).map
        (·.holdStage connId .reading)
  | some (.accepting connId .reading) =>
      (state.reactConnection connId .spawnWriteLoop).map fun next =>
        { next with strand := next.strand.finish }.waitForAccept
  | _ => none

/-- The loop calls `Close()` on the next entry.  An entry that is erased by that
takes none of those that follow with it. -/
def closeNext : Option Server :=
  match state.strand.running, state.shutdown with
  | some .closing, some { entries, closeCalls, remaining := connId :: rest } =>
      match state.objects connId with
      | none => none
      | some connection =>
          let visited := { state with
            shutdown := some
              { entries, closeCalls := closeCalls ++ [connId]
                remaining := rest } }
          some (visited.setConnection true connId connection.dispatchClose)
  | _, _ => none

def loopEnds : Option Server :=
  match state.strand.running, state.shutdown with
  | some .closing, some { remaining := [], .. } =>
      some { state with strand := state.strand.finish }
  | _, _ => none

end Server

inductive ServerEvent
  | signalArrives (sig : Option Signal)
  | acceptCompletes (result : AcceptResult)
  /-- The strand of the server takes its next piece of work, and goes on with
  what it has begun. -/
  | takeWork (order : Option (List ConnId))
  | proceed
  | closeNext
  | loopEnds
  /-- One event of a connection. -/
  | connection (connId : ConnId) (event : ConnectionEvent)

def Server.step (state : Server) : ServerEvent → Option Server
  | .signalArrives sig =>
      if state.waitsForSignal = true then
        some { state with
          waitsForSignal := false
          strand := state.strand.submit (.signalled sig) }
      else
        none
  | .acceptCompletes result =>
      if state.waitsForAccept = true then
        some { state with
          waitsForAccept := false
          strand := state.strand.submit (.acceptCompleted result) }
      else
        none
  | .takeWork order => state.takeWork order
  | .proceed => state.proceed
  | .closeNext => state.closeNext
  | .loopEnds => state.loopEnds
  | .connection connId event =>
      if event.isOwn = true then
        state.reactConnection connId event
      else
        none

def serverRun : Server → List ServerEvent → Option Server :=
  EventRuns.run Server.step

/-! ## What a connection can do -/

/-- The calls of the server. -/
def ConnectionEvent.isCall : ConnectionEvent → Bool
  | .addObserver _ | .spawnReadLoop | .spawnWriteLoop | .close => true
  | _ => false

/-- An event either closes the socket and calls all of the observers, or leaves
it and calls none. -/
structure Reacts (connection next : AsioConnection) (calls : List ObserverId) :
    Prop where
  observers : connection.observers ⊆ next.observers
  references : next.references = connection.references
  socket : next.socketOpen = connection.socketOpen ∧ calls = [] ∨
    connection.socketOpen = true ∧ next.socketOpen = false ∧
      calls = connection.observers

theorem reacts_quiet {connection next : AsioConnection}
    (observers : connection.observers ⊆ next.observers)
    (references : next.references = connection.references)
    (socket : next.socketOpen = connection.socketOpen) :
    Reacts connection next [] :=
  ⟨observers, references, Or.inl ⟨socket, rfl⟩⟩

namespace AsioConnection

variable {connection next : AsioConnection} {calls : List ObserverId}

theorem reacts_closeUnderLock (connection : AsioConnection) :
    Reacts connection connection.closeUnderLock.1
      connection.closeUnderLock.2 := by
  rcases opened : connection.socketOpen
  · rw [closeUnderLock_closed opened]
    exact reacts_quiet (List.Subset.refl _) rfl rfl
  · rw [closeUnderLock_open opened]
    exact ⟨List.Subset.refl _, rfl, Or.inr ⟨opened, rfl, rfl⟩⟩

theorem reacts_takeWork (taken : connection.takeWork = some (next, calls)) :
    Reacts connection next calls := by
  obtain ⟨⟨work, rest⟩, take, handled⟩ := Option.map_eq_some_iff.mp taken
  obtain ⟨rfl, rfl⟩ := Prod.mk.inj handled
  cases work with
  | addObserver observer =>
      exact reacts_quiet (List.subset_append_left _ _) rfl rfl
  | runReadLoop | runWriteLoop =>
      exact reacts_quiet (List.Subset.refl _) rfl rfl
  | closeUnderLock =>
      obtain ⟨observers, references, socket⟩ := reacts_closeUnderLock
        { connection with strand := rest.hold .closeUnderLock }
      exact ⟨observers, references, socket⟩
  | completion operation ec =>
      cases ec with
      | some error =>
          obtain ⟨observers, references, socket⟩ := reacts_closeUnderLock
            (setLoop { connection with
              strand := rest.hold (.completion operation (some error)) }
                operation .resumed)
          cases operation <;> exact ⟨observers, references, socket⟩
      | none =>
          cases operation <;> exact reacts_quiet (List.Subset.refl _) rfl rfl

theorem reacts_setLoop (connection : AsioConnection)
    (operation : LoopOperation) (state : LoopState) :
    Reacts connection (connection.setLoop operation state) [] := by
  cases operation <;> exact reacts_quiet (List.Subset.refl _) rfl rfl

theorem reacts_finishWork (finished : connection.finishWork = some next) :
    Reacts connection next [] := by
  unfold finishWork at finished
  split at finished
  · cases finished
  · obtain rfl := Option.some.inj finished
    obtain ⟨observers, references, socket⟩ := reacts_setLoop
      { connection with strand := connection.strand.finish } _ .ended
    exact ⟨observers, references, socket⟩
  · split at finished
    · cases finished
    · obtain rfl := Option.some.inj finished
      exact reacts_quiet (List.Subset.refl _) rfl rfl
  · obtain rfl := Option.some.inj finished
    exact reacts_quiet (List.Subset.refl _) rfl rfl

theorem reacts_of_react {event : ConnectionEvent} (own : event.isOwn = true)
    (reacted : connection.react event = some (next, calls)) :
    Reacts connection next calls := by
  cases event with
  | retain | release | addObserver _ | spawnReadLoop | spawnWriteLoop | close =>
      cases own
  | takeWork => exact reacts_takeWork reacted
  | finishWork =>
      obtain ⟨finished, finish, same⟩ := Option.map_eq_some_iff.mp reacted
      obtain ⟨rfl, rfl⟩ := Prod.mk.inj same
      exact reacts_finishWork finish
  | closeInNotification =>
      obtain ⟨_, same⟩ := Option.ite_none_right_eq_some.mp reacted
      obtain ⟨rfl, rfl⟩ := Prod.mk.inj (Option.some.inj same)
      exact reacts_closeUnderLock connection
  | destroy =>
      obtain ⟨_, same⟩ := Option.ite_none_right_eq_some.mp reacted
      obtain ⟨rfl, rfl⟩ := Prod.mk.inj (Option.some.inj same)
      obtain ⟨observers, references, socket⟩ := reacts_closeUnderLock connection
      exact ⟨observers, references, socket⟩
  | complete operation ec =>
      obtain ⟨_, same⟩ := Option.ite_none_right_eq_some.mp reacted
      obtain ⟨rfl, rfl⟩ := Prod.mk.inj (Option.some.inj same)
      obtain ⟨observers, references, socket⟩ := reacts_setLoop
        (connection.submit (.completion operation ec)) operation .completed
      exact ⟨observers, references, socket⟩
  | _ =>
      obtain ⟨_, same⟩ := Option.ite_none_right_eq_some.mp reacted
      obtain ⟨rfl, rfl⟩ := Prod.mk.inj (Option.some.inj same)
      exact reacts_quiet (List.Subset.refl _) rfl rfl

theorem reacts_dispatchClose :
    Reacts connection connection.dispatchClose.1
      connection.dispatchClose.2 := by
  unfold dispatchClose
  split
  · obtain ⟨observers, references, socket⟩ := reacts_closeUnderLock
      { connection with strand := connection.strand.hold .closeUnderLock }
    exact ⟨observers, references, socket⟩
  · exact reacts_quiet (List.Subset.refl _) rfl rfl

/-- A call only leaves something to the strand. -/
theorem react_call {event : ConnectionEvent} (call : event.isCall = true)
    (reacted : connection.react event = some (next, calls)) :
    Reacts connection next calls ∧
      next.socketOpen = connection.socketOpen ∧ calls = [] := by
  cases event with
  | addObserver _ | spawnReadLoop | spawnWriteLoop | close =>
      obtain ⟨_, same⟩ := Option.ite_none_right_eq_some.mp reacted
      obtain ⟨rfl, rfl⟩ := Prod.mk.inj (Option.some.inj same)
      exact ⟨reacts_quiet (List.Subset.refl _) rfl rfl, rfl, rfl⟩
  | _ => cases call

end AsioConnection

/-! ## What the server can do -/

theorem Server.reactConnection_eq_some {state next : Server} {connId : ConnId}
    {event : ConnectionEvent}
    (reacted : state.reactConnection connId event = some next) :
    ∃ connection after calls, state.objects connId = some connection ∧
      connection.react event = some (after, calls) ∧
        next = state.setConnection false connId (after, calls) := by
  unfold reactConnection at reacted
  split at reacted
  · cases reacted
  · rename_i connection found
    obtain ⟨⟨after, calls⟩, react, rfl⟩ := Option.map_eq_some_iff.mp reacted
    exact ⟨connection, after, calls, found, react, rfl⟩

namespace Server

variable {state next : Server}

theorem setConnection_frame (inStrand : Bool) (connId : ConnId)
    (result : AsioConnection × List ObserverId) :
    ∃ connections erased tableChanged queue,
      state.setConnection inStrand connId result =
        { state with
          objects := Function.update state.objects connId (some result.1)
          connections, erased, tableChanged
          strand := { state.strand with queue } } := by
  by_cases calls : serverObserver ∈ result.2
  · rw [setConnection, if_pos calls, onDisconnect]
    split <;> exact ⟨_, _, _, _, rfl⟩
  · rw [setConnection, if_neg calls]
    exact ⟨_, _, _, _, rfl⟩

theorem waitForSignal_eq (state : Server) :
    ∃ waitsForSignal, state.waitForSignal = { state with waitsForSignal } := by
  unfold waitForSignal
  split <;> exact ⟨_, rfl⟩

theorem waitForAccept_eq (state : Server) :
    ∃ waitsForAccept, state.waitForAccept = { state with waitsForAccept } := by
  unfold waitForAccept
  split <;> exact ⟨_, rfl⟩

/-- A handler erases a connection, or accepts one, or begins to visit the table,
or changes nothing but what the coroutines wait for. -/
theorem handle_cases {order : Option (List ConnId)} {work : ServerWork}
    (handled : state.handle order work = some next) :
    (∃ connId, work = .eraseConnection connId ∧
        next = state.eraseConnection connId) ∨
      (∀ connId, work ≠ .eraseConnection connId) ∧
        ((∃ draining waitsForSignal waitsForAccept,
            (state.draining = true → draining = true) ∧
              next =
                { state with draining, waitsForSignal, waitsForAccept }) ∨
          (state.draining = false ∧ next = state.accept) ∨
            ∃ visited, visited.Perm state.connections ∧
              next = state.shutDown visited) := by
  obtain ⟨_, signal⟩ := state.waitForSignal_eq
  obtain ⟨_, accept⟩ := state.waitForAccept_eq
  cases work with
  | eraseConnection connId =>
      exact Or.inl ⟨connId, rfl, (Option.some.inj handled).symm⟩
  | handleSignals =>
      obtain rfl := Option.some.inj handled
      exact Or.inr ⟨by simp, Or.inl ⟨_, _, _, id, signal⟩⟩
  | acceptConnections =>
      obtain rfl := Option.some.inj handled
      exact Or.inr ⟨by simp, Or.inl ⟨_, _, _, id, accept⟩⟩
  | acceptCompleted result =>
      refine Or.inr ⟨by simp, ?_⟩
      simp only [handle] at handled
      split at handled
      · obtain rfl := Option.some.inj handled
        exact Or.inl ⟨_, _, _, id, rfl⟩
      · rename_i goesOn
        have notDraining : state.draining = false :=
          Bool.eq_false_iff.mpr fun drains => goesOn (Or.inr drains)
        exact Or.inr (Or.inl ⟨notDraining, (Option.some.inj handled).symm⟩)
  | signalled sig =>
      refine Or.inr ⟨by simp, ?_⟩
      cases sig with
      | none =>
          obtain rfl := Option.some.inj handled
          exact Or.inl ⟨_, _, _, id, rfl⟩
      | some sig =>
          simp only [handle] at handled
          split at handled
          · obtain rfl := Option.some.inj handled
            exact Or.inl ⟨_, _, _, id, signal⟩
          · split at handled
            · split at handled
              · obtain rfl := Option.some.inj handled
                exact Or.inl ⟨true, _, _, fun _ => rfl, rfl⟩
              · obtain ⟨perm, same⟩ :=
                  Option.ite_none_right_eq_some.mp handled
                exact Or.inr
                  (Or.inr ⟨_, perm, (Option.some.inj same).symm⟩)
            · obtain rfl := Option.some.inj handled
              exact Or.inl ⟨_, _, _, id, signal⟩

/-- Each statement of `AcceptConnections` is a call of the new connection, and
`AddObserver` is the first. -/
theorem proceed_cases (proceeds : state.proceed = some next) :
    ∃ connId stage event reacted running waitsForAccept,
      state.strand.running = some (.accepting connId stage) ∧
        running ≠ some .closing ∧ event.isCall = true ∧
          (stage = .emplaced → event = .addObserver serverObserver) ∧
            state.reactConnection connId event = some reacted ∧
              next = { reacted with
                strand := { reacted.strand with running }
                waitsForAccept } := by
  unfold proceed at proceeds
  split at proceeds
  · rename_i connId accepting
    obtain ⟨reacted, react, rfl⟩ := Option.map_eq_some_iff.mp proceeds
    exact ⟨_, _, _, _, _, _, accepting, by simp, rfl, by simp, react, rfl⟩
  · rename_i connId accepting
    obtain ⟨reacted, react, rfl⟩ := Option.map_eq_some_iff.mp proceeds
    exact ⟨_, _, _, _, _, _, accepting, by simp, rfl, by simp, react, rfl⟩
  · rename_i connId accepting
    obtain ⟨reacted, react, rfl⟩ := Option.map_eq_some_iff.mp proceeds
    obtain ⟨_, accept⟩ :=
      waitForAccept_eq { reacted with strand := reacted.strand.finish }
    exact ⟨_, _, _, _, _, _, accepting, by simp, rfl, by simp, react, accept⟩
  · cases proceeds

end Server

end Birch

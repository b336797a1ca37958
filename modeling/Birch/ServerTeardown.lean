import Birch.ServerConnections

/-!
# The connections of the server, each on its own

Whatever the server does with a connection is among the events of the connection
itself, so each connection of a running server has gone through one of the runs
of `ConnectionTeardown`, and is torn down as those are.
-/

namespace Birch

/-- The connection has come from its construction to here through its own
events, and the table still refers to it. -/
structure Arrived (connection : AsioConnection) : Prop where
  reaches : EventRuns.Reaches AsioConnection.step {} connection
  referenced : 0 < connection.references

namespace Arrived

variable {connection next : AsioConnection} {event : ConnectionEvent}
  {calls : List ObserverId}

theorem react (arrived : Arrived connection)
    (reacted : connection.react event = some (next, calls))
    (references : next.references = connection.references) : Arrived next where
  reaches := by
    have stepped : connection.step event = some next := by
      rw [AsioConnection.step, reacted]
      rfl
    have ran : EventRuns.run AsioConnection.step connection [event] =
        some next := by
      rw [EventRuns.run, stepped]
      rfl
    exact arrived.reaches.run ran
  referenced := by
    rw [references]
    exact arrived.referenced

/-- What `Close()` runs before it returns. -/
theorem takeWork_submit (idle : connection.strand.Idle) :
    (connection.submit .closeUnderLock).takeWork =
      some (AsioConnection.closeUnderLock
        { connection with
          strand := connection.strand.hold .closeUnderLock }) := by
  obtain ⟨free, empty⟩ := idle
  rcases connection with ⟨_, _, _, ⟨queue, running⟩⟩
  obtain rfl : running = none := free
  obtain rfl : queue = [] := empty
  rfl

theorem finishWork_closeUnderLock (connection : AsioConnection)
    (running : connection.strand.running = some .closeUnderLock) :
    connection.closeUnderLock.1.finishWork =
      some { connection.closeUnderLock.1 with
        strand := connection.closeUnderLock.1.strand.finish } := by
  have stays : connection.closeUnderLock.1.strand.running =
      some .closeUnderLock := by
    rw [← running, AsioConnection.closeUnderLock]
    split <;> rfl
  rw [AsioConnection.finishWork, stays]

/-- `Close()` on an idle strand is the call, the handler that it runs, and the
end of the handler. -/
theorem run_dispatchClose (idle : connection.strand.Idle)
    (referenced : 0 < connection.references) :
    connectionRun connection [.close, .takeWork, .finishWork] =
      some connection.dispatchClose.1 := by
  have taken := takeWork_submit idle
  have finished := finishWork_closeUnderLock
    { connection with strand := connection.strand.hold .closeUnderLock } rfl
  rw [AsioConnection.dispatchClose, if_pos idle]
  simp only [connectionRun, EventRuns.run, AsioConnection.step,
    AsioConnection.react, if_pos referenced, taken, finished, Option.map_some,
    Option.bind_some]

theorem dispatchClose (arrived : Arrived connection) :
    Arrived connection.dispatchClose.1 where
  reaches := by
    have referenced := arrived.referenced
    by_cases idle : connection.strand.Idle
    · exact arrived.reaches.run (run_dispatchClose idle referenced)
    · have ran : connectionRun connection [.close] =
          some connection.dispatchClose.1 := by
        rw [AsioConnection.dispatchClose, if_neg idle]
        simp [connectionRun, EventRuns.run, AsioConnection.step,
          AsioConnection.react, referenced]
      exact arrived.reaches.run ran
  referenced := by
    rw [connection.reacts_dispatchClose.references]
    exact arrived.referenced

end Arrived

/-! ## Runs of the server -/

def AllArrived (state : Server) : Prop :=
  ∀ connId connection, state.objects connId = some connection →
    Arrived connection

namespace AllArrived

variable {state next : Server}

theorem update (arrived : AllArrived state) {connId : ConnId}
    {connection : AsioConnection} (here : Arrived connection)
    (objects : next.objects =
      Function.update state.objects connId (some connection)) :
    AllArrived next := by
  intro other found isFound
  rw [objects] at isFound
  by_cases same : other = connId
  · subst same
    rw [Function.update_self, Option.some.injEq] at isFound
    exact isFound ▸ here
  · rw [Function.update_of_ne same] at isFound
    exact arrived other found isFound

theorem setConnection (arrived : AllArrived state) {inStrand : Bool}
    {connId : ConnId} {result : AsioConnection × List ObserverId}
    (here : Arrived result.1) :
    AllArrived (state.setConnection inStrand connId result) := by
  obtain ⟨_, _, _, _, same⟩ := state.setConnection_frame inStrand connId result
  rw [same]
  exact arrived.update here rfl

theorem reactConnection (arrived : AllArrived state) {connId : ConnId}
    {event : ConnectionEvent}
    (kind : event.isOwn = true ∨ event.isCall = true)
    (reacted : state.reactConnection connId event = some next) :
    AllArrived next := by
  obtain ⟨connection, after, calls, found, react, rfl⟩ :=
    Server.reactConnection_eq_some reacted
  have reacts : Reacts connection after calls := by
    rcases kind with own | call
    · exact AsioConnection.reacts_of_react own react
    · exact (AsioConnection.react_call call react).1
  exact arrived.setConnection
    ((arrived connId connection found).react react reacts.references)

theorem takeWork (arrived : AllArrived state) {order : Option (List ConnId)}
    (taken : state.takeWork order = some next) : AllArrived next := by
  unfold Server.takeWork at taken
  split at taken
  · cases taken
  · rcases Server.handle_cases taken with ⟨_, _, rfl⟩ | ⟨_, other⟩
    · exact arrived
    · rcases other with ⟨_, _, _, _, rfl⟩ | ⟨_, rfl⟩ | ⟨_, _, rfl⟩
      · exact arrived
      · exact arrived.update ⟨EventRuns.reaches_refl _, by decide⟩ rfl
      · exact arrived

theorem closeNext (arrived : AllArrived state)
    (closes : state.closeNext = some next) : AllArrived next := by
  unfold Server.closeNext at closes
  split at closes
  · rename_i entries closeCalls connId rest _ _
    split at closes
    · cases closes
    · rename_i connection found
      obtain rfl := Option.some.inj closes
      have visited : AllArrived { state with
          shutdown := some
            { entries, closeCalls := closeCalls ++ [connId]
              remaining := rest } } := arrived
      exact visited.setConnection (arrived _ connection found).dispatchClose
  · cases closes

theorem step (arrived : AllArrived state) {event : ServerEvent}
    (stepped : state.step event = some next) : AllArrived next := by
  cases event with
  | signalArrives | acceptCompletes =>
      obtain ⟨_, same⟩ := Option.ite_none_right_eq_some.mp stepped
      obtain rfl := Option.some.inj same
      exact arrived
  | takeWork order => exact arrived.takeWork stepped
  | proceed =>
      obtain ⟨_, _, _, reacted, _, _, _, _, call, _, react, rfl⟩ :=
        Server.proceed_cases stepped
      have all := arrived.reactConnection (Or.inr call) react
      exact all
  | closeNext => exact arrived.closeNext stepped
  | loopEnds =>
      simp only [Server.step, Server.loopEnds] at stepped
      split at stepped
      · obtain rfl := Option.some.inj stepped
        exact arrived
      · cases stepped
  | connection connId event =>
      obtain ⟨own, reacted⟩ := Option.ite_none_right_eq_some.mp stepped
      exact arrived.reactConnection (Or.inl own) reacted

end AllArrived

/-- In any run of the server, each connection on which `OnConnected` has been
called is torn down once. -/
theorem tornDownOnce_of_server {events : List ServerEvent} {state : Server}
    (ran : serverRun {} events = some state) {connId : ConnId}
    {connection : AsioConnection}
    (found : state.objects connId = some connection)
    (connected : connection.writeLoop ≠ .unspawned) :
    TornDownOnce connection := by
  have none : AllArrived {} := by
    intro connId connection absurd
    cases absurd
  have arrived : AllArrived state :=
    EventRuns.run_invariant (fun _ _ _ arrived stepped => arrived.step stepped)
      none ran
  obtain ⟨own, reached⟩ := (arrived connId connection found).reaches
  exact (sound_of_run reached).teardown connected

end Birch

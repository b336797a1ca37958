import Birch.ServerRegistry

/-!
# The shutdown of the server

`HandleSignals` calls `Close()` on each entry of `m_connections` in a loop over
that table.  If the strand of the connection is idle, `Close()` disconnects it
before it returns, and `OnDisconnect` erases the entry within the loop.  This
file determines in which runs the table stays as it is until the loop is done.
-/

namespace Birch

/-- The table has not been changed within the loop, and the loop calls `Close()`
once on each of its entries. -/
structure VisitsTable (state : Server) : Prop where
  unchanged : state.tableChanged = false
  entries : state.strand.running = some .closing →
    ∀ loop, state.shutdown = some loop →
      loop.entries.Perm state.connections
  once : ∀ loop, state.shutdown = some loop →
    loop.entries.Nodup ∧ loop.closeCalls ++ loop.remaining = loop.entries
  complete : state.strand.running ≠ some .closing →
    ∀ loop, state.shutdown = some loop → loop.closeCalls = loop.entries
  goesOn : state.strand.running = some .closing →
    state.closeNext.isSome = true ∨ state.loopEnds.isSome = true

/-- The connection that the loop comes to is closed, or its strand is busy. -/
def ClosesBusy (state : Server) : ServerEvent → Prop
  | .closeNext => ∀ loop connId rest connection,
      state.shutdown = some loop → loop.remaining = connId :: rest →
        state.objects connId = some connection →
          connection.socketOpen = true → ¬ connection.strand.Idle
  | _ => True

/-! ## Changes of the table -/

namespace Server

variable {state next : Server}

theorem unchanged_setConnections_iff (connections : List ConnId) :
    (state.setConnections connections).tableChanged = false ↔
      state.tableChanged = false ∧
        (state.strand.running = some .closing →
          connections = state.connections) := by
  simp [setConnections]

/-- From outside of the strand of the server nothing is erased within the
loop. -/
theorem tableChanged_setConnection_outside (connId : ConnId)
    (result : AsioConnection × List ObserverId) :
    (state.setConnection false connId result).tableChanged =
      state.tableChanged := by
  by_cases calls : serverObserver ∈ result.2
  · rw [setConnection, if_pos calls, onDisconnect]
    split
    · rename_i inline
      have idle : state.strand.Idle := inline.resolve_left (by simp)
      simp [eraseConnection, setConnections, idle.1]
    · rfl
  · rw [setConnection, if_neg calls]

theorem tableChanged_reactConnection {connId : ConnId}
    {event : ConnectionEvent}
    (reacted : state.reactConnection connId event = some next) :
    next.tableChanged = state.tableChanged := by
  obtain ⟨_, _, _, _, _, rfl⟩ := reactConnection_eq_some reacted
  exact tableChanged_setConnection_outside _ _

theorem tableChanged_setConnections {connections : List ConnId}
    (free : state.strand.running = none) :
    (state.setConnections connections).tableChanged = state.tableChanged := by
  simp [setConnections, free]

theorem tableChanged_handle {order : Option (List ConnId)}
    {work : ServerWork} (free : state.strand.running = none)
    (handled : state.handle order work = some next) :
    next.tableChanged = state.tableChanged := by
  rcases handle_cases handled with ⟨connId, _, rfl⟩ | ⟨_, other⟩
  · exact tableChanged_setConnections free
  · rcases other with ⟨_, _, _, _, rfl⟩ | ⟨_, rfl⟩ | ⟨_, _, rfl⟩
    · rfl
    · exact tableChanged_setConnections free
    · rfl

theorem tableChanged_proceed (proceeds : state.proceed = some next) :
    next.tableChanged = state.tableChanged := by
  obtain ⟨_, _, _, _, _, _, _, _, _, _, reacted, rfl⟩ :=
    proceed_cases proceeds
  have same := tableChanged_reactConnection reacted
  exact same

/-- Only the calls of `Close()` in the loop can change the table within it. -/
theorem tableChanged_step {event : ServerEvent}
    (stepped : state.step event = some next) (other : event ≠ .closeNext) :
    next.tableChanged = state.tableChanged := by
  cases event with
  | signalArrives | acceptCompletes =>
      obtain ⟨_, same⟩ := Option.ite_none_right_eq_some.mp stepped
      obtain rfl := Option.some.inj same
      rfl
  | takeWork order =>
      simp only [step, takeWork] at stepped
      split at stepped
      · cases stepped
      · rename_i work strand take
        obtain ⟨_, freed, _⟩ := Strand.take_eq_some take
        have handled := tableChanged_handle freed stepped
        exact handled
  | proceed => exact tableChanged_proceed stepped
  | closeNext => exact absurd rfl other
  | loopEnds =>
      simp only [step, loopEnds] at stepped
      split at stepped
      · obtain rfl := Option.some.inj stepped
        rfl
      · cases stepped
  | connection connId event =>
      obtain ⟨_, reacted⟩ := Option.ite_none_right_eq_some.mp stepped
      exact tableChanged_reactConnection reacted

end Server

/-! ## The loop -/

/-- What the loop keeps, whether or not the table is changed. -/
structure Walks (state : Server) : Prop where
  nodup : state.connections.Nodup
  objects : ∀ connId ∈ state.connections,
    (state.objects connId).isSome = true
  begun : state.strand.running = some .closing → state.shutdown.isSome = true
  once : ∀ loop, state.shutdown = some loop →
    loop.entries.Nodup ∧ loop.closeCalls ++ loop.remaining = loop.entries
  remaining : ∀ loop, state.shutdown = some loop →
    ∀ connId ∈ loop.remaining, (state.objects connId).isSome = true
  entries : state.strand.running = some .closing →
    state.tableChanged = false → ∀ loop, state.shutdown = some loop →
      loop.entries.Perm state.connections
  complete : state.strand.running ≠ some .closing →
    ∀ loop, state.shutdown = some loop → loop.remaining = []

theorem walks_initial : Walks {} where
  nodup := List.nodup_nil
  objects := by simp
  begun := by simp
  once := by simp
  remaining := by simp
  entries := by simp
  complete := by simp

namespace Walks

variable {state next : Server}

/-- A step that leaves the table and the loop. -/
theorem frame (walks : Walks state)
    (connections : next.connections = state.connections)
    (objects : ∀ connId, (state.objects connId).isSome = true →
      (next.objects connId).isSome = true)
    (running : next.strand.running = state.strand.running)
    (shutdown : next.shutdown = state.shutdown)
    (tableChanged : next.tableChanged = state.tableChanged) : Walks next where
  nodup := by rw [connections]; exact walks.nodup
  objects := by
    intro connId member
    rw [connections] at member
    exact objects connId (walks.objects connId member)
  begun := by rw [running, shutdown]; exact walks.begun
  once := by rw [shutdown]; exact walks.once
  remaining := by
    intro loop visits connId member
    rw [shutdown] at visits
    exact objects connId (walks.remaining loop visits connId member)
  entries := by
    rw [running, tableChanged, shutdown, connections]
    exact walks.entries
  complete := by rw [running, shutdown]; exact walks.complete

theorem setObject (walks : Walks state) (connId : ConnId)
    (connection : AsioConnection) :
    Walks { state with
      objects :=
        Function.update state.objects connId (some connection) } := by
  refine walks.frame rfl ?_ rfl rfl rfl
  intro other isObject
  by_cases same : other = connId
  · simp [same]
  · simpa [same] using isObject

theorem eraseConnection (walks : Walks state) (connId : ConnId) :
    Walks (state.eraseConnection connId) where
  nodup := walks.nodup.filter _
  objects := by
    intro other member
    exact walks.objects other (List.mem_of_mem_filter member)
  begun := walks.begun
  once := walks.once
  remaining := walks.remaining
  entries := by
    intro closing unchanged loop visits
    obtain ⟨before, same⟩ :=
      (Server.unchanged_setConnections_iff _).mp unchanged
    rw [Server.eraseConnection, Server.setConnections, same closing]
    exact walks.entries closing before loop visits
  complete := walks.complete

theorem setConnection (walks : Walks state) (inStrand : Bool)
    (connId : ConnId) (result : AsioConnection × List ObserverId) :
    Walks (state.setConnection inStrand connId result) := by
  have updated := walks.setObject connId result.1
  by_cases calls : serverObserver ∈ result.2
  · rw [Server.setConnection, if_pos calls, Server.onDisconnect]
    split
    · exact updated.eraseConnection connId
    · exact updated.frame rfl (fun _ isObject => isObject) rfl rfl rfl
  · rw [Server.setConnection, if_neg calls]
    exact updated

/-- The strand goes on to something else than the loop. -/
theorem setRunning (walks : Walks state)
    (before : state.strand.running ≠ some .closing)
    {strand : Strand ServerWork ServerTask}
    (after : strand.running ≠ some .closing) {waitsForAccept : Bool} :
    Walks { state with strand, waitsForAccept } where
  nodup := walks.nodup
  objects := walks.objects
  begun := fun closing => absurd closing after
  once := walks.once
  remaining := walks.remaining
  entries := fun closing => absurd closing after
  complete := fun _ => walks.complete before

theorem accept (walks : Walks state)
    (free : state.strand.running = none) : Walks state.accept := by
  have notClosing : state.strand.running ≠ some .closing := by simp [free]
  have after : state.accept.strand.running ≠ some .closing := by
    simp [Server.accept]
  refine ⟨?_, ?_, fun closing => absurd closing after, walks.once, ?_,
    fun closing => absurd closing after, fun _ => walks.complete notClosing⟩
  · by_cases present : state.nextConnId ∈ state.connections
    · simpa [Server.accept, Server.setConnections, present] using walks.nodup
    · have fresh : (state.connections ++ [state.nextConnId]).Nodup := by
        rw [List.nodup_append_comm, List.singleton_append, List.nodup_cons]
        exact ⟨present, walks.nodup⟩
      simpa [Server.accept, Server.setConnections, present] using fresh
  · intro connId member
    by_cases same : connId = state.nextConnId
    · simp [Server.accept, same]
    · have old : connId ∈ state.connections := by
        simp only [Server.accept, Server.setConnections] at member
        split at member
        · exact member
        · simpa [same] using member
      simpa [Server.accept, Server.setConnections, same] using
        walks.objects connId old
  · intro loop visits connId member
    rw [walks.complete notClosing loop visits] at member
    cases member

theorem shutDown (walks : Walks state) {visited : List ConnId}
    (perm : visited.Perm state.connections) :
    Walks (state.shutDown visited) where
  nodup := walks.nodup
  objects := walks.objects
  begun := fun _ => rfl
  once := by
    rintro _ ⟨⟩
    exact ⟨perm.nodup_iff.mpr walks.nodup, rfl⟩
  remaining := by
    rintro _ ⟨⟩ connId member
    exact walks.objects connId (perm.mem_iff.mp member)
  entries := by
    rintro _ _ _ ⟨⟩
    exact perm
  complete := fun other => absurd rfl other

theorem takeWork (walks : Walks state) {order : Option (List ConnId)}
    (taken : state.takeWork order = some next) : Walks next := by
  unfold Server.takeWork at taken
  split at taken
  · cases taken
  · rename_i work strand take
    obtain ⟨free, freed, _⟩ := Strand.take_eq_some take
    have popped : Walks { state with strand } :=
      walks.setRunning (by simp [free]) (by simp [freed])
    rcases Server.handle_cases taken with ⟨connId, _, rfl⟩ | ⟨_, other⟩
    · exact popped.eraseConnection connId
    · rcases other with ⟨_, _, _, _, rfl⟩ | ⟨_, rfl⟩ | ⟨_, perm, rfl⟩
      · exact popped.frame rfl (fun _ isObject => isObject) rfl rfl rfl
      · exact popped.accept freed
      · exact popped.shutDown perm

theorem reactConnection (walks : Walks state) {connId : ConnId}
    {event : ConnectionEvent}
    (reacted : state.reactConnection connId event = some next) :
    Walks next := by
  obtain ⟨_, _, _, _, _, rfl⟩ := Server.reactConnection_eq_some reacted
  exact walks.setConnection false connId _

theorem running_reactConnection {connId : ConnId} {event : ConnectionEvent}
    (reacted : state.reactConnection connId event = some next) :
    next.strand.running = state.strand.running := by
  obtain ⟨_, after, calls, _, _, rfl⟩ := Server.reactConnection_eq_some reacted
  obtain ⟨_, _, _, _, same⟩ := state.setConnection_frame false connId
    (after, calls)
  rw [same]

theorem proceed (walks : Walks state)
    (proceeds : state.proceed = some next) : Walks next := by
  obtain ⟨_, _, _, reacted, running, _, accepting, notClosing, _, _, react,
    rfl⟩ := Server.proceed_cases proceeds
  have before : reacted.strand.running ≠ some .closing := by
    rw [running_reactConnection react, accepting]
    simp
  exact (walks.reactConnection react).setRunning before notClosing

theorem closeNext (walks : Walks state)
    (closes : state.closeNext = some next) : Walks next := by
  unfold Server.closeNext at closes
  split at closes
  · rename_i entries closeCalls connId rest closing shutdown
    split at closes
    · cases closes
    · obtain rfl := Option.some.inj closes
      obtain ⟨nodup, split⟩ := walks.once _ shutdown
      have visited : Walks { state with
          shutdown := some
            { entries, closeCalls := closeCalls ++ [connId]
              remaining := rest } } := {
        nodup := walks.nodup
        objects := walks.objects
        begun := fun _ => rfl
        once := by
          rintro _ ⟨⟩
          refine ⟨nodup, ?_⟩
          rw [List.append_assoc]
          exact split
        remaining := by
          rintro _ ⟨⟩ other member
          exact walks.remaining _ shutdown other
            (List.mem_cons_of_mem _ member)
        entries := by
          rintro _ unchanged _ ⟨⟩
          have perm := walks.entries closing unchanged _ shutdown
          exact perm
        complete := fun other => absurd closing other }
      exact visited.setConnection true connId _
  · cases closes

theorem loopEnds (walks : Walks state)
    (ends : state.loopEnds = some next) : Walks next := by
  unfold Server.loopEnds at ends
  split at ends
  · rename_i entries closeCalls closing shutdown
    obtain rfl := Option.some.inj ends
    have after : state.strand.finish.running ≠ some .closing := by simp
    refine ⟨walks.nodup, walks.objects, fun running => absurd running after,
      walks.once, walks.remaining, fun running => absurd running after, ?_⟩
    intro _ loop visits
    have visits : state.shutdown = some loop := visits
    rw [shutdown, Option.some.injEq] at visits
    exact visits ▸ rfl
  · cases ends

theorem step (walks : Walks state) {event : ServerEvent}
    (stepped : state.step event = some next) : Walks next := by
  cases event with
  | signalArrives | acceptCompletes =>
      obtain ⟨_, same⟩ := Option.ite_none_right_eq_some.mp stepped
      obtain rfl := Option.some.inj same
      exact walks.frame rfl (fun _ isObject => isObject) rfl rfl rfl
  | takeWork order => exact walks.takeWork stepped
  | proceed => exact walks.proceed stepped
  | closeNext => exact walks.closeNext stepped
  | loopEnds => exact walks.loopEnds stepped
  | connection connId event =>
      obtain ⟨_, reacted⟩ := Option.ite_none_right_eq_some.mp stepped
      exact walks.reactConnection reacted

/-- The loop is never stuck. -/
theorem goesOn (walks : Walks state)
    (closing : state.strand.running = some .closing) :
    state.closeNext.isSome = true ∨ state.loopEnds.isSome = true := by
  obtain ⟨loop, visits⟩ := Option.isSome_iff_exists.mp (walks.begun closing)
  rcases loop with ⟨entries, closeCalls, remaining⟩
  cases remaining with
  | nil =>
      right
      simp [Server.loopEnds, closing, visits]
  | cons connId rest =>
      left
      have isObject := walks.remaining _ visits connId List.mem_cons_self
      obtain ⟨connection, found⟩ := Option.isSome_iff_exists.mp isObject
      simp [Server.closeNext, closing, visits, found]

theorem visitsTable (walks : Walks state)
    (unchanged : state.tableChanged = false) : VisitsTable state where
  unchanged := unchanged
  entries := fun closing => walks.entries closing unchanged
  once := walks.once
  complete := by
    intro notClosing loop visits
    obtain ⟨_, split⟩ := walks.once loop visits
    rw [walks.complete notClosing loop visits, List.append_nil] at split
    exact split
  goesOn := walks.goesOn

end Walks

/-! ## Closing an entry -/

theorem dispatchClose_quiet {connection : AsioConnection}
    (busy : connection.socketOpen = true → ¬ connection.strand.Idle) :
    connection.dispatchClose.2 = [] := by
  unfold AsioConnection.dispatchClose
  split
  · rename_i idle
    have closed : connection.socketOpen = false := by
      by_contra isOpen
      exact busy (Bool.not_eq_false _ ▸ isOpen) idle
    have held : AsioConnection.closeUnderLock
        { connection with
          strand := connection.strand.hold .closeUnderLock } = (_, []) :=
      AsioConnection.closeUnderLock_closed closed
    exact congrArg Prod.snd held
  · rfl

theorem dispatchClose_calls {connection : AsioConnection}
    (isOpen : connection.socketOpen = true)
    (idle : connection.strand.Idle) :
    connection.dispatchClose.2 = connection.observers := by
  have held : AsioConnection.closeUnderLock
      { connection with
        strand := connection.strand.hold .closeUnderLock } =
          (_, connection.observers) :=
    AsioConnection.closeUnderLock_open isOpen
  rw [AsioConnection.dispatchClose, if_pos idle]
  exact congrArg Prod.snd held

/-- A connection that is busy, or closed already, is not erased within the
loop. -/
theorem unchanged_closeNext {state next : Server}
    (closes : state.closeNext = some next)
    (busy : ClosesBusy state .closeNext) :
    next.tableChanged = state.tableChanged := by
  unfold Server.closeNext at closes
  split at closes
  · rename_i entries closeCalls connId rest closing shutdown
    split at closes
    · cases closes
    · rename_i connection found
      obtain rfl := Option.some.inj closes
      have quiet := dispatchClose_quiet
        (busy _ connId rest connection shutdown rfl found)
      rw [Server.setConnection, quiet]
      rfl
  · cases closes

/-- Where the loop has left the table, the connection was busy, or closed
already: an idle one is erased by the call. -/
theorem busy_of_unchanged {state next : Server} (registered : Registered state)
    (closes : state.closeNext = some next)
    (unchanged : next.tableChanged = false) :
    state.tableChanged = false ∧ ClosesBusy state .closeNext := by
  unfold Server.closeNext at closes
  split at closes
  · rename_i entries closeCalls connId rest closing shutdown
    split at closes
    · cases closes
    · rename_i connection found
      obtain rfl := Option.some.inj closes
      by_cases quiet :
          connection.socketOpen = true → ¬ connection.strand.Idle
      · rw [Server.setConnection, dispatchClose_quiet quiet] at unchanged
        refine ⟨unchanged, ?_⟩
        intro loop other rest' connection' visits remaining found'
        rw [shutdown, Option.some.injEq] at visits
        subst visits
        obtain ⟨rfl, rfl⟩ := List.cons.inj remaining
        rw [found, Option.some.injEq] at found'
        exact found' ▸ quiet
      · push Not at quiet
        obtain ⟨isOpen, idle⟩ := quiet
        have observed : serverObserver ∈ connection.observers := by
          rcases registered.attended connId connection found with
            observed | waits | ⟨emplaced, _⟩
          · exact observed
          · exact absurd idle waits.not_idle
          · rw [closing] at emplaced
            cases emplaced
        have unscheduled : ¬ state.Scheduled connId := by
          rw [← registered.disconnected connId connection found, isOpen]
          simp
        have member : connId ∈ state.connections :=
          (registered.table connId).mpr
            ⟨registered.mem_accepted found,
              fun erased => unscheduled (Or.inl erased)⟩
        rw [Server.setConnection, if_pos (dispatchClose_calls isOpen idle ▸ observed),
          Server.onDisconnect, if_pos (Or.inl rfl)] at unchanged
        obtain ⟨_, same⟩ :=
          (Server.unchanged_setConnections_iff _).mp unchanged
        have kept : connId ∈ state.connections.filter (· ≠ connId) := by
          rw [same closing]
          exact member
        simp at kept
  · cases closes

/-! ## Runs -/

/-- In a run in which the loop comes only to connections that are closed or
busy, it visits the table as it is.  Up to `2 ^ 64` connections, these are all of
the runs in which it does. -/
theorem visitsTable_iff (events : List ServerEvent) (state : Server)
    (ran : serverRun {} events = some state) :
    (EventRuns.EachStep Server.step ClosesBusy {} events →
        VisitsTable state) ∧
      (state.accepted.length < UInt64.size → VisitsTable state →
        EventRuns.EachStep Server.step ClosesBusy {} events) := by
  have walks : Walks state :=
    EventRuns.run_invariant (fun _ _ _ walks stepped => walks.step stepped)
      walks_initial ran
  constructor
  · intro busy
    have keeps : ∀ (before : Server) event next,
        before.tableChanged = false → ClosesBusy before event →
          before.step event = some next → next.tableChanged = false := by
      intro before event next unchanged busy stepped
      by_cases closes : event = .closeNext
      · subst closes
        rw [unchanged_closeNext stepped busy, unchanged]
      · rw [Server.tableChanged_step stepped closes, unchanged]
    exact walks.visitsTable
      (EventRuns.run_invariant_of_eachStep keeps rfl busy ran)
  · intro few visits
    have needs : ∀ (before : Server) event next,
        (before.accepted.length < UInt64.size → Registered before) →
          before.step event = some next →
            (next.accepted.length < UInt64.size ∧ next.tableChanged = false) →
              (before.accepted.length < UInt64.size ∧
                before.tableChanged = false) ∧ ClosesBusy before event := by
      rintro before event next registered stepped ⟨few, unchanged⟩
      have earlier := Nat.lt_of_le_of_lt
        (Server.step_admits stepped).length_le few
      by_cases closes : event = .closeNext
      · subst closes
        obtain ⟨same, busy⟩ :=
          busy_of_unchanged (registered earlier) stepped unchanged
        exact ⟨⟨earlier, same⟩, busy⟩
      · rw [Server.tableChanged_step stepped closes] at unchanged
        refine ⟨⟨earlier, unchanged⟩, ?_⟩
        cases event with
        | closeNext => exact absurd rfl closes
        | _ => trivial
    exact (EventRuns.eachStep_of_run registered_preserved needs
      (fun _ => registered_initial) ran ⟨few, visits.unchanged⟩).2

/-- A terminal signal is handled before the strand of a new connection has run
anything. -/
def busyShutdown : List ServerEvent :=
  [.takeWork none, .takeWork none, .acceptCompletes .accepted, .takeWork none,
    .proceed, .proceed, .proceed, .signalArrives (some .terminate),
    .takeWork (some [1]), .closeNext, .loopEnds]

/-- It is handled while the one connection waits for its peer. -/
def idleShutdown : List ServerEvent :=
  acceptEvents ++
    [.signalArrives (some .terminate), .takeWork (some [1]), .closeNext]

theorem closesBusy_busyShutdown :
    EventRuns.EachStep Server.step ClosesBusy {} busyShutdown := by
  iterate 9
    refine ⟨trivial, ?_⟩
    rintro _ ⟨⟩
  refine ⟨?_, ?_⟩
  · rintro _ _ _ _ ⟨⟩ ⟨⟩ ⟨⟩ _ ⟨_, empty⟩
    cases empty
  · rintro _ ⟨⟩
    exact ⟨trivial, fun _ _ => trivial⟩

theorem visitsTable_busyShutdown :
    ∃ state, serverRun {} busyShutdown = some state ∧
      state.connections = [1] ∧ VisitsTable state :=
  ⟨_, rfl, rfl, (visitsTable_iff busyShutdown _ rfl).1 closesBusy_busyShutdown⟩

/-- The call of `Close()` has erased the entry that the loop is at. -/
theorem not_visitsTable_idleShutdown :
    ∃ state, serverRun {} idleShutdown = some state ∧
      state.strand.running = some .closing ∧ state.erased = [1] ∧
        ¬ VisitsTable state := by
  refine ⟨_, rfl, rfl, rfl, ?_⟩
  intro visits
  cases visits.unchanged

end Birch

import Birch.ConnectionWork
import Birch.ServerShutdown
import Birch.ServerTeardown

/-!
# The end of the server

`HandleSignals` closes the acceptor and every connection, so that the
`io_context` runs out of work and `run()` returns.  Once its loop has called
`Close()` on every entry of the table, each connection has `CloseUnderLock` on
its strand, or has disconnected already.  This file proves that the rest of the
run is finite, and that it ends with nothing left, however the strands of the
server and of the connections take turns.
-/

namespace Birch

/-! ## Which coroutine is where -/

/-- All that a disconnect leaves to the strand is an erase. -/
theorem Server.countP_setConnection {state : Server} {kind : ServerWork → Bool}
    (other : ∀ connId, kind (.eraseConnection connId) = false)
    (inStrand : Bool) (connId : ConnId)
    (result : AsioConnection × List ObserverId) :
    (state.setConnection inStrand connId result).strand.queue.countP kind =
      state.strand.queue.countP kind := by
  by_cases calls : serverObserver ∈ result.2
  · rw [Server.setConnection, if_pos calls, Server.onDisconnect]
    split
    · rfl
    · simp [Strand.submit, List.countP_append, other]
  · rw [Server.setConnection, if_neg calls]

/-- What runs the next statement of `HandleSignals`. -/
def ServerWork.isSignal : ServerWork → Bool
  | .handleSignals | .signalled _ => true
  | _ => false

/-- How often `HandleSignals` is waited for, or is to go on. -/
def Server.signalsLeft (state : Server) : Nat :=
  state.waitsForSignal.toNat + state.strand.queue.countP ServerWork.isSignal

/-- What holds of the two coroutines.  There is one `HandleSignals`, and with
its loop over the table it is done.  From then on nothing is accepted, and a
connection that the loop has visited is closed or has to run
`CloseUnderLock`. -/
structure Winding (state : Server) : Prop where
  signals : state.signalsLeft ≤ 1
  ended : state.shutdown.isSome = true → state.signalsLeft = 0
  draining : state.shutdown.isSome = true → state.draining = true
  notAccepting : state.shutdown.isSome = true → ∀ connId stage,
    state.strand.running ≠ some (.accepting connId stage)
  closing : ∀ loop, state.shutdown = some loop → ∀ connId connection,
    state.objects connId = some connection → connection.socketOpen = true →
      connId ∈ loop.remaining ∨
        .closeUnderLock ∈ connection.strand.queue

theorem winding_initial : Winding {} where
  signals := by decide
  ended := by simp
  draining := by simp
  notAccepting := by simp
  closing := by simp

namespace AsioConnection

variable {connection next : AsioConnection} {calls : List ObserverId}

/-- A queued `CloseUnderLock` stays until it has run. -/
theorem queued_of_takeWork (taken : connection.takeWork = some (next, calls))
    (queued : .closeUnderLock ∈ connection.strand.queue)
    (isOpen : next.socketOpen = true) :
    .closeUnderLock ∈ next.strand.queue := by
  obtain ⟨⟨work, rest⟩, take, handled⟩ := Option.map_eq_some_iff.mp taken
  obtain ⟨_, _, queue⟩ := Strand.take_eq_some take
  obtain rfl : (handle _ work).1 = next := congrArg Prod.fst handled
  rw [queue] at queued
  rcases List.mem_cons.mp queued with rfl | later
  · rw [handle, socketOpen_closeUnderLock] at isOpen
    cases isOpen
  · have same : (handle { connection with strand := rest.hold work }
        work).1.strand.queue = rest.queue := by
      cases work with
      | completion operation ec =>
          cases ec with
          | some error =>
              obtain ⟨_, _, _, frame⟩ := closeUnderLock_frame
                (setLoop { connection with
                  strand := rest.hold (.completion operation (some error)) }
                    operation .resumed)
              rw [handle, resume, frame]
              cases operation <;> rfl
          | none => cases operation <;> rfl
      | closeUnderLock =>
          obtain ⟨_, _, _, frame⟩ := closeUnderLock_frame
            { connection with strand := rest.hold .closeUnderLock }
          rw [handle, frame]
          rfl
      | _ => rfl
    rw [same]
    exact later

theorem queued_of_react {event : ConnectionEvent}
    (reacted : connection.react event = some (next, calls))
    (queued : .closeUnderLock ∈ connection.strand.queue)
    (isOpen : next.socketOpen = true) :
    .closeUnderLock ∈ next.strand.queue := by
  cases event with
  | takeWork => exact queued_of_takeWork reacted queued isOpen
  | finishWork =>
      obtain ⟨finished, finish, same⟩ := Option.map_eq_some_iff.mp reacted
      obtain ⟨rfl, _⟩ := Prod.mk.inj same
      have stays : finished.strand.queue = connection.strand.queue := by
        unfold finishWork at finish
        split at finish
        · cases finish
        · obtain rfl := Option.some.inj finish
          rename_i operation _ _
          cases operation <;> rfl
        · split at finish
          · cases finish
          · obtain rfl := Option.some.inj finish
            rfl
        · obtain rfl := Option.some.inj finish
          rfl
      rw [stays]
      exact queued
  | closeInNotification =>
      obtain ⟨_, same⟩ := Option.ite_none_right_eq_some.mp reacted
      obtain rfl : connection.closeUnderLock.1 = next :=
        congrArg Prod.fst (Option.some.inj same)
      rw [socketOpen_closeUnderLock] at isOpen
      cases isOpen
  | destroy =>
      obtain ⟨_, same⟩ := Option.ite_none_right_eq_some.mp reacted
      obtain ⟨rfl, _⟩ := Prod.mk.inj (Option.some.inj same)
      have closed := connection.socketOpen_closeUnderLock
      exact absurd (closed.symm.trans isOpen) (by decide)
  | complete operation ec =>
      obtain ⟨_, same⟩ := Option.ite_none_right_eq_some.mp reacted
      obtain ⟨rfl, _⟩ := Prod.mk.inj (Option.some.inj same)
      cases operation <;> exact List.mem_append_left _ queued
  | addObserver _ | spawnReadLoop | spawnWriteLoop | close =>
      obtain ⟨_, same⟩ := Option.ite_none_right_eq_some.mp reacted
      obtain ⟨rfl, _⟩ := Prod.mk.inj (Option.some.inj same)
      exact List.mem_append_left _ queued
  | retain | release | notifyMessage | readAgain =>
      obtain ⟨_, same⟩ := Option.ite_none_right_eq_some.mp reacted
      obtain ⟨rfl, _⟩ := Prod.mk.inj (Option.some.inj same)
      exact queued

/-- A connection that `Close()` leaves open has it on its strand. -/
theorem queued_of_dispatchClose
    (isOpen : connection.dispatchClose.1.socketOpen = true) :
    .closeUnderLock ∈ connection.dispatchClose.1.strand.queue := by
  unfold dispatchClose at isOpen ⊢
  split at isOpen
  · have closed := @socketOpen_closeUnderLock
      { connection with strand := connection.strand.hold .closeUnderLock }
    exact absurd (closed.symm.trans isOpen) (by decide)
  · rename_i busy
    rw [if_neg busy]
    exact List.mem_append_right _ (List.mem_singleton_self _)

end AsioConnection

namespace Winding

variable {state next : Server}

/-- A step that neither begins the loop nor goes on with it, nor accepts. -/
theorem frame (winding : Winding state)
    (signals : next.signalsLeft ≤ state.signalsLeft)
    (shutdown : next.shutdown = state.shutdown)
    (draining : state.draining = true → next.draining = true)
    (running : ∀ connId stage,
      next.strand.running = some (.accepting connId stage) →
        state.strand.running = some (.accepting connId stage))
    (objects : ∀ connId after, next.objects connId = some after →
      after.socketOpen = true → ∃ connection,
        state.objects connId = some connection ∧
          connection.socketOpen = true ∧
            (.closeUnderLock ∈ connection.strand.queue →
              .closeUnderLock ∈ after.strand.queue)) : Winding next where
  signals := signals.trans winding.signals
  ended := by
    intro begun
    rw [shutdown] at begun
    exact Nat.eq_zero_of_le_zero (winding.ended begun ▸ signals)
  draining := by
    intro begun
    rw [shutdown] at begun
    exact draining (winding.draining begun)
  notAccepting := by
    intro begun connId stage accepting
    rw [shutdown] at begun
    exact winding.notAccepting begun connId stage
      (running connId stage accepting)
  closing := by
    intro loop visits connId after found isOpen
    rw [shutdown] at visits
    obtain ⟨connection, before, wasOpen, stays⟩ :=
      objects connId after found isOpen
    exact (winding.closing loop visits connId connection before wasOpen).imp_right
      stays

/-- The step leaves the connections as they are. -/
theorem frameObjects (winding : Winding state)
    (signals : next.signalsLeft ≤ state.signalsLeft)
    (shutdown : next.shutdown = state.shutdown)
    (draining : state.draining = true → next.draining = true)
    (running : ∀ connId stage,
      next.strand.running = some (.accepting connId stage) →
        state.strand.running = some (.accepting connId stage))
    (objects : next.objects = state.objects) : Winding next := by
  refine winding.frame signals shutdown draining running ?_
  intro connId after found isOpen
  rw [objects] at found
  exact ⟨after, found, isOpen, id⟩

theorem signalsLeft_setConnection (inStrand : Bool) (connId : ConnId)
    (result : AsioConnection × List ObserverId) :
    (state.setConnection inStrand connId result).signalsLeft =
      state.signalsLeft := by
  have queued := @Server.countP_setConnection state ServerWork.isSignal
    (fun _ => rfl) inStrand connId result
  obtain ⟨_, _, _, _, same⟩ := state.setConnection_frame inStrand connId result
  rw [same] at queued ⊢
  exact congrArg (state.waitsForSignal.toNat + ·) queued

/-- A connection has taken a step of its own, or one that the server has asked
for. -/
theorem reactConnection (winding : Winding state) {connId : ConnId}
    {event : ConnectionEvent}
    (kind : event.isOwn = true ∨ event.isCall = true)
    (reacted : state.reactConnection connId event = some next) :
    Winding next := by
  obtain ⟨connection, after, calls, found, react, rfl⟩ :=
    Server.reactConnection_eq_some reacted
  have signals := @signalsLeft_setConnection state false connId (after, calls)
  obtain ⟨_, _, _, _, same⟩ := state.setConnection_frame false connId
    (after, calls)
  rw [same] at signals ⊢
  refine winding.frame signals.le rfl id (fun _ _ => id) ?_
  intro other found' isFound isOpen
  by_cases here : other = connId
  · subst here
    have isFound : (Function.update state.objects other (some after)) other =
        some found' := isFound
    rw [Function.update_self, Option.some.injEq] at isFound
    subst isFound
    refine ⟨connection, found, ?_, fun queued =>
      AsioConnection.queued_of_react react queued isOpen⟩
    have reacts : Reacts connection after calls := by
      rcases kind with own | call
      · exact AsioConnection.reacts_of_react own react
      · exact (AsioConnection.react_call call react).1
    rcases reacts.socket with ⟨socket, _⟩ | ⟨_, closed, _⟩
    · exact socket ▸ isOpen
    · rw [closed] at isOpen
      cases isOpen
  · have isFound : (Function.update state.objects connId (some after)) other =
        some found' := isFound
    rw [Function.update_of_ne here] at isFound
    exact ⟨found', isFound, isOpen, id⟩

/-- The handlers of the strand go on with the coroutine that has queued them. -/
theorem signalsLeft_handle {order : Option (List ConnId)} {work : ServerWork}
    (handled : state.handle order work = some next) :
    next.signalsLeft ≤ state.signalsLeft + work.isSignal.toNat ∧
      ((∃ connections erased tableChanged draining waitsForSignal
          waitsForAccept, (state.draining = true → draining = true) ∧
            next = { state with
              connections, erased, tableChanged, draining, waitsForSignal
              waitsForAccept }) ∨
        (state.draining = false ∧ next = state.accept) ∨
          ∃ visited, visited.Perm state.connections ∧
            next = state.shutDown visited ∧ work.isSignal = true) := by
  have waits : state.waitForSignal.signalsLeft ≤ state.signalsLeft + 1 := by
    unfold Server.waitForSignal
    split
    · exact Nat.le_succ _
    · simp only [Server.signalsLeft, Bool.toNat_true]
      omega
  obtain ⟨_, signal⟩ := state.waitForSignal_eq
  obtain ⟨_, accept⟩ := state.waitForAccept_eq
  cases work with
  | handleSignals =>
      obtain rfl := Option.some.inj handled
      exact ⟨waits, Or.inl ⟨_, _, _, _, _, _, id, signal⟩⟩
  | acceptConnections =>
      obtain rfl := Option.some.inj handled
      rw [accept]
      exact ⟨Nat.le_refl _, Or.inl ⟨_, _, _, _, _, _, id, rfl⟩⟩
  | eraseConnection connId =>
      obtain rfl := Option.some.inj handled
      exact ⟨Nat.le_refl _, Or.inl ⟨_, _, _, _, _, _, id, rfl⟩⟩
  | acceptCompleted result =>
      simp only [Server.handle] at handled
      split at handled
      · obtain rfl := Option.some.inj handled
        exact ⟨Nat.le_refl _, Or.inl ⟨_, _, _, _, _, _, id, rfl⟩⟩
      · rename_i goesOn
        obtain rfl := Option.some.inj handled
        have notDraining : state.draining = false :=
          Bool.eq_false_iff.mpr fun drains => goesOn (Or.inr drains)
        exact ⟨Nat.le_refl _, Or.inr (Or.inl ⟨notDraining, rfl⟩)⟩
  | signalled sig =>
      cases sig with
      | none =>
          obtain rfl := Option.some.inj handled
          exact ⟨Nat.le_succ _, Or.inl ⟨_, _, _, _, _, _, id, rfl⟩⟩
      | some sig =>
          simp only [Server.handle] at handled
          split at handled
          · obtain rfl := Option.some.inj handled
            exact ⟨waits, Or.inl ⟨_, _, _, _, _, _, id, signal⟩⟩
          · split at handled
            · split at handled
              · obtain rfl := Option.some.inj handled
                exact ⟨Nat.le_succ _,
                  Or.inl ⟨_, _, _, true, _, _, fun _ => rfl, rfl⟩⟩
              · obtain ⟨perm, same⟩ := Option.ite_none_right_eq_some.mp handled
                obtain rfl := Option.some.inj same
                exact ⟨Nat.le_succ _, Or.inr (Or.inr ⟨_, perm, rfl, rfl⟩)⟩
            · obtain rfl := Option.some.inj handled
              exact ⟨waits, Or.inl ⟨_, _, _, _, _, _, id, signal⟩⟩

/-- Before the loop has begun. -/
theorem unbegun (signals : state.signalsLeft ≤ 1)
    (notBegun : state.shutdown = none) : Winding state where
  signals := signals
  ended := by simp [notBegun]
  draining := by simp [notBegun]
  notAccepting := by simp [notBegun]
  closing := by simp [notBegun]

theorem shutdown_eq_none (winding : Winding state)
    (notDraining : state.draining = false) : state.shutdown = none := by
  by_contra begun
  have drains := winding.draining (Option.isSome_iff_ne_none.mpr begun)
  rw [notDraining] at drains
  cases drains

/-- The loop begins with every connection that is open. -/
theorem shutDown (registered : Registered state) (before : Server)
    (objects : before.objects = state.objects)
    (connections : before.connections = state.connections)
    (signals : before.signalsLeft = 0) {visited : List ConnId}
    (perm : visited.Perm before.connections) :
    Winding (before.shutDown visited) where
  signals := by
    have same : (before.shutDown visited).signalsLeft = before.signalsLeft := rfl
    rw [same, signals]
    exact Nat.zero_le _
  ended := fun _ => signals
  draining := fun _ => rfl
  notAccepting := by simp [Server.shutDown]
  closing := by
    rintro _ ⟨⟩ connId connection found isOpen
    have found : state.objects connId = some connection := objects ▸ found
    left
    apply perm.mem_iff.mpr
    rw [connections]
    apply (registered.table connId).mpr
    refine ⟨registered.mem_accepted found, ?_⟩
    intro erased
    have closed :=
      (registered.disconnected connId connection found).mpr (Or.inl erased)
    rw [isOpen] at closed
    cases closed

theorem takeWork (winding : Winding state) (registered : Registered state)
    {order : Option (List ConnId)}
    (taken : state.takeWork order = some next) : Winding next := by
  unfold Server.takeWork at taken
  split at taken
  · cases taken
  · rename_i work strand take
    obtain ⟨free, freed, queue⟩ := Strand.take_eq_some take
    have popped : ({ state with strand } : Server).signalsLeft +
        work.isSignal.toNat = state.signalsLeft := by
      simp only [Server.signalsLeft, queue, List.countP_cons]
      cases work.isSignal <;> simp
      omega
    obtain ⟨signals, cases⟩ := signalsLeft_handle taken
    rw [popped] at signals
    rcases cases with
      ⟨_, _, _, _, _, _, drains, rfl⟩ | ⟨notDraining, rfl⟩ |
        ⟨visited, perm, rfl, isSignal⟩
    · exact winding.frameObjects signals rfl drains
        (fun _ _ accepting => by simp [freed] at accepting) rfl
    · exact unbegun (signals.trans winding.signals)
        (winding.shutdown_eq_none notDraining)
    · have none : ({ state with strand } : Server).signalsLeft = 0 := by
        have one := winding.signals
        rw [isSignal, Bool.toNat_true] at popped
        omega
      exact shutDown registered { state with strand } rfl rfl none perm

theorem running_reactConnection {connId : ConnId} {event : ConnectionEvent}
    (reacted : state.reactConnection connId event = some next) :
    next.shutdown = state.shutdown ∧
      next.strand.running = state.strand.running := by
  obtain ⟨_, after, calls, _, _, rfl⟩ := Server.reactConnection_eq_some reacted
  obtain ⟨_, _, _, _, same⟩ := state.setConnection_frame false connId
    (after, calls)
  rw [same]
  exact ⟨rfl, rfl⟩

/-- While a connection is being accepted, the loop has not begun. -/
theorem proceed (winding : Winding state)
    (proceeds : state.proceed = some next) : Winding next := by
  obtain ⟨connId, stage, _, reacted, running, _, accepting, _, call, _, react,
    rfl⟩ := Server.proceed_cases proceeds
  have notBegun : state.shutdown = none := by
    by_contra begun
    exact winding.notAccepting (Option.isSome_iff_ne_none.mpr begun) connId
      stage accepting
  have after := winding.reactConnection (Or.inr call) react
  have same := (running_reactConnection react).1
  exact unbegun after.signals (same.trans notBegun)

/-- By cases on the connection: the one that is visited is closed, or is left
with `CloseUnderLock` on its strand. -/
theorem closeNext (winding : Winding state)
    (closes : state.closeNext = some next) : Winding next := by
  unfold Server.closeNext at closes
  split at closes
  · rename_i entries closeCalls connId rest closing shutdown
    split at closes
    · cases closes
    · rename_i connection found
      obtain rfl := Option.some.inj closes
      have begun : state.shutdown.isSome = true := by
        rw [shutdown]
        rfl
      have signals := (@signalsLeft_setConnection
        { state with
          shutdown := some
            { entries, closeCalls := closeCalls ++ [connId]
              remaining := rest } }
        true connId connection.dispatchClose).trans (winding.ended begun)
      obtain ⟨_, _, _, _, same⟩ := @Server.setConnection_frame
        { state with
          shutdown := some
            { entries, closeCalls := closeCalls ++ [connId]
              remaining := rest } }
        true connId connection.dispatchClose
      rw [same] at signals ⊢
      refine ⟨signals ▸ Nat.zero_le _, fun _ => signals,
        fun _ => winding.draining begun, ?_, ?_⟩
      · intro _ other stage accepting
        exact winding.notAccepting begun other stage accepting
      · rintro _ ⟨⟩ other found' isFound isOpen
        have isFound : (Function.update state.objects connId
            (some connection.dispatchClose.1)) other = some found' := isFound
        by_cases here : other = connId
        · subst here
          rw [Function.update_self, Option.some.injEq] at isFound
          subst isFound
          exact Or.inr (AsioConnection.queued_of_dispatchClose isOpen)
        · rw [Function.update_of_ne here] at isFound
          refine (winding.closing _ shutdown other found' isFound isOpen).imp_left
            ?_
          intro remaining
          exact (List.mem_cons.mp remaining).resolve_left here
  · cases closes

theorem step (winding : Winding state) (registered : Registered state)
    {event : ServerEvent} (stepped : state.step event = some next) :
    Winding next := by
  cases event with
  | signalArrives sig =>
      obtain ⟨waits, same⟩ := Option.ite_none_right_eq_some.mp stepped
      obtain rfl := Option.some.inj same
      refine winding.frameObjects ?_ rfl id (fun _ _ => id) rfl
      simp only [Server.signalsLeft, Strand.submit, List.countP_append,
        List.countP_singleton, waits, ServerWork.isSignal, if_true,
        Bool.toNat_true, Bool.toNat_false]
      omega
  | acceptCompletes result =>
      obtain ⟨_, same⟩ := Option.ite_none_right_eq_some.mp stepped
      obtain rfl := Option.some.inj same
      refine winding.frameObjects ?_ rfl id (fun _ _ => id) rfl
      simp [Server.signalsLeft, Strand.submit, List.countP_append,
        ServerWork.isSignal]
  | takeWork order => exact winding.takeWork registered stepped
  | proceed => exact winding.proceed stepped
  | closeNext => exact winding.closeNext stepped
  | loopEnds =>
      simp only [Server.step, Server.loopEnds] at stepped
      split at stepped
      · obtain rfl := Option.some.inj stepped
        exact winding.frameObjects (Nat.le_refl _) rfl id
          (fun _ _ accepting => by simp at accepting) rfl
      · cases stepped
  | connection connId event =>
      obtain ⟨own, reacted⟩ := Option.ite_none_right_eq_some.mp stepped
      exact winding.reactConnection (Or.inl own) reacted

end Winding

theorem winding_of_run {events : List ServerEvent} {state : Server}
    (ran : serverRun {} events = some state)
    (few : state.accepted.length < UInt64.size) : Winding state := by
  have preserves : ∀ (before : Server) event next,
      (before.accepted.length < UInt64.size →
        Registered before ∧ Winding before) →
          before.step event = some next →
            next.accepted.length < UInt64.size →
              Registered next ∧ Winding next := by
    intro before event next holds stepped few
    have earlier := Nat.lt_of_le_of_lt (Server.step_admits stepped).length_le few
    obtain ⟨registered, winding⟩ := holds earlier
    exact ⟨registered.step stepped few, winding.step registered stepped⟩
  exact (EventRuns.run_invariant preserves
    (fun _ => ⟨registered_initial, winding_initial⟩) ran few).2

/-! ## Counting what is left -/

/-- The steps of a connection, and its disconnect. -/
def connectionSteps : Option AsioConnection → Nat
  | none => 0
  | some connection => connection.stepsLeft + connection.socketOpen.toNat

def tableSteps (objects : ConnId → Option AsioConnection) :
    List ConnId → Nat
  | [] => 0
  | connId :: rest => connectionSteps (objects connId) + tableSteps objects rest

/-- What the server and its connections have still to do once it drains. -/
def Server.stepsLeft (state : Server) : Nat :=
  2 * state.waitsForAccept.toNat + state.strand.queue.length +
    tableSteps state.objects state.accepted

def ServerEvent.isWork : ServerEvent → Bool
  | .connection _ event => event.isWork
  | _ => true

/-- An operation of the socket of a connection succeeds. -/
def ServerEvent.succeeds : ServerEvent → Bool
  | .connection _ event => event.succeeds
  | _ => false

def ServerEvent.settles (event : ServerEvent) : Bool :=
  event.isWork && !event.succeeds

theorem tableSteps_update_of_notMem
    {objects : ConnId → Option AsioConnection} {connId : ConnId}
    {after : AsioConnection} {ids : List ConnId} (absent : connId ∉ ids) :
    tableSteps (Function.update objects connId (some after)) ids =
      tableSteps objects ids := by
  induction ids with
  | nil => rfl
  | cons other ids ih =>
      obtain ⟨differs, absent⟩ := List.ne_and_not_mem_of_not_mem_cons absent
      rw [tableSteps, tableSteps, ih absent,
        Function.update_of_ne (Ne.symm differs)]

/-- A step of one connection changes its own steps only. -/
theorem tableSteps_update {objects : ConnId → Option AsioConnection}
    {connId : ConnId} {after : AsioConnection} {ids : List ConnId}
    (member : connId ∈ ids) (nodup : ids.Nodup) :
    tableSteps (Function.update objects connId (some after)) ids +
        connectionSteps (objects connId) =
      tableSteps objects ids + connectionSteps (some after) := by
  induction ids with
  | nil => cases member
  | cons other ids ih =>
      obtain ⟨absent, nodup⟩ := List.nodup_cons.mp nodup
      rw [tableSteps, tableSteps]
      by_cases same : other = connId
      · subst same
        rw [tableSteps_update_of_notMem absent, Function.update_self]
        omega
      · have later := (List.mem_cons.mp member).resolve_left (Ne.symm same)
        have rest := ih later nodup
        rw [Function.update_of_ne same]
        omega

theorem ConnectionEvent.bringsWork_of_isOwn {event : ConnectionEvent}
    (own : event.isOwn = true) : event.bringsWork = event.succeeds := by
  cases event with
  | retain | release | addObserver _ | spawnReadLoop | spawnWriteLoop | close =>
      cases own
  | _ => rfl

theorem ConnectionEvent.isOwn_of_settles {event : ConnectionEvent}
    (settles : event.settles = true) : event.isOwn = true := by
  cases event with
  | retain | release | addObserver _ | spawnReadLoop | spawnWriteLoop | close =>
      cases settles
  | _ => rfl

/-! ## Draining -/

/-- `HandleSignals` has called `Close()` on every entry of the table, which
stayed as it was meanwhile. -/
structure ShutDown (state : Server) : Prop where
  begun : state.shutdown.isSome = true
  visited : state.strand.running ≠ some .closing
  unchanged : state.tableChanged = false

/-- What holds from then on. -/
structure Drains (state : Server) : Prop where
  few : state.accepted.length < UInt64.size
  registered : Registered state
  arrived : AllArrived state
  winding : Winding state
  begun : state.shutdown.isSome = true
  free : state.strand.running = none
  remaining : ∀ loop, state.shutdown = some loop → loop.remaining = []

/-- Nothing is left for the `io_context` to do: no wait is pending, the table is
empty, and of each connection nothing is left, its loops included that have been
spawned. -/
structure Drained (state : Server) : Prop where
  idle : state.strand.Idle
  signals : state.waitsForSignal = false
  accepts : state.waitsForAccept = false
  table : state.connections = []
  connections : ∀ connId connection,
    state.objects connId = some connection →
      WoundDown connection ∧ connection.socketOpen = false ∧
        connection.notices.countP (·.kind = .disconnect) = 1

namespace Drains

variable {state next : Server}

theorem noSignal (drains : Drains state) :
    state.waitsForSignal = false ∧
      ∀ work ∈ state.strand.queue, ServerWork.isSignal work = false := by
  have none := drains.winding.ended drains.begun
  obtain ⟨waits, queued⟩ := Nat.add_eq_zero_iff.mp none
  refine ⟨by simpa using waits, ?_⟩
  simpa [List.countP_eq_zero] using queued

/-- A handler erases a connection, or does nothing. -/
theorem handle {order : Option (List ConnId)} {work : ServerWork}
    (draining : state.draining = true) (noSignal : work.isSignal = false)
    (handled : state.handle order work = some next) :
    ∃ connections erased tableChanged,
      next = { state with connections, erased, tableChanged } := by
  cases work with
  | handleSignals | signalled _ => cases noSignal
  | acceptConnections =>
      obtain rfl := Option.some.inj handled
      rw [Server.waitForAccept, if_pos draining]
      exact ⟨_, _, _, rfl⟩
  | eraseConnection connId =>
      obtain rfl := Option.some.inj handled
      exact ⟨_, _, _, rfl⟩
  | acceptCompleted result =>
      rw [Server.handle, if_pos (Or.inr draining)] at handled
      obtain rfl := Option.some.inj handled
      exact ⟨_, _, _, rfl⟩

/-- A disconnect leaves at most one piece of work to the strand. -/
theorem length_queue_setConnection (connId : ConnId)
    {connection after : AsioConnection} {calls : List ObserverId}
    (reacts : Reacts connection after calls) :
    (state.setConnection false connId (after, calls)).strand.queue.length +
        after.socketOpen.toNat ≤
      state.strand.queue.length + connection.socketOpen.toNat := by
  by_cases called : serverObserver ∈ calls
  · rcases reacts.socket with ⟨_, rfl⟩ | ⟨isOpen, closed, _⟩
    · cases called
    · rw [Server.setConnection, if_pos called, Server.onDisconnect, isOpen,
        closed]
      split
      · exact Nat.le_add_right _ _
      · simp [Strand.submit]
  · rw [Server.setConnection, if_neg called]
    rcases reacts.socket with ⟨same, _⟩ | ⟨_, closed, _⟩
    · rw [same]
    · rw [closed]
      exact Nat.add_le_add_left (Nat.zero_le _) _

theorem connection (drains : Drains state) {connId : ConnId}
    {event : ConnectionEvent} (own : event.isOwn = true)
    (reacted : state.reactConnection connId event = some next) :
    next.shutdown = state.shutdown ∧ next.strand.running = none ∧
      next.accepted = state.accepted ∧
        next.stepsLeft + event.isWork.toNat ≤
          state.stepsLeft + 8 * event.succeeds.toNat := by
  obtain ⟨connection, after, calls, found, react, rfl⟩ :=
    Server.reactConnection_eq_some reacted
  have reacts := AsioConnection.reacts_of_react own react
  have stepped : connection.step event = some after := by
    rw [AsioConnection.step, react]
    rfl
  have cost := AsioConnection.stepsLeft_step stepped
  rw [ConnectionEvent.bringsWork_of_isOwn own] at cost
  have queue := @length_queue_setConnection state connId _ _ _ reacts
  have table := @tableSteps_update state.objects connId after _
    (drains.registered.mem_accepted found) drains.registered.nodup
  rw [found] at table
  obtain ⟨_, _, _, _, same⟩ := state.setConnection_frame false connId
    (after, calls)
  rw [same] at queue ⊢
  refine ⟨rfl, drains.free, rfl, ?_⟩
  simp only [Server.stepsLeft, connectionSteps] at queue table ⊢
  omega

/-- By cases on the event: the strand of the server and the connections go on,
and nothing new begins. -/
theorem moves (drains : Drains state) {event : ServerEvent}
    (stepped : state.step event = some next) :
    next.shutdown = state.shutdown ∧ next.strand.running = none ∧
      next.accepted = state.accepted ∧
        next.stepsLeft + event.isWork.toNat ≤
          state.stepsLeft + 8 * event.succeeds.toNat := by
  obtain ⟨waits, queued⟩ := drains.noSignal
  have free := drains.free
  cases event with
  | signalArrives sig =>
      obtain ⟨waiting, _⟩ := Option.ite_none_right_eq_some.mp stepped
      rw [waits] at waiting
      cases waiting
  | acceptCompletes result =>
      obtain ⟨waiting, same⟩ := Option.ite_none_right_eq_some.mp stepped
      obtain rfl := Option.some.inj same
      refine ⟨rfl, free, rfl, ?_⟩
      simp [Server.stepsLeft, Strand.submit, waiting, ServerEvent.isWork]
      omega
  | takeWork order =>
      simp only [Server.step, Server.takeWork] at stepped
      split at stepped
      · cases stepped
      · rename_i work strand take
        obtain ⟨_, freed, queue⟩ := Strand.take_eq_some take
        have noSignal := queued work (by simp [queue])
        have draining : ({ state with strand } : Server).draining = true :=
          drains.winding.draining drains.begun
        obtain ⟨_, _, _, rfl⟩ := handle draining noSignal stepped
        refine ⟨rfl, freed, rfl, ?_⟩
        simp [Server.stepsLeft, queue, ServerEvent.isWork]
        omega
  | proceed =>
      simp [Server.step, Server.proceed, free] at stepped
  | closeNext =>
      simp [Server.step, Server.closeNext, free] at stepped
  | loopEnds =>
      simp [Server.step, Server.loopEnds, free] at stepped
  | connection connId event =>
      obtain ⟨own, reacted⟩ := Option.ite_none_right_eq_some.mp stepped
      exact drains.connection own reacted

theorem step (drains : Drains state) {event : ServerEvent}
    (stepped : state.step event = some next) :
    Drains next ∧ next.stepsLeft + event.isWork.toNat ≤
      state.stepsLeft + 8 * event.succeeds.toNat := by
  obtain ⟨shutdown, free, accepted, cost⟩ := drains.moves stepped
  have few : next.accepted.length < UInt64.size := by
    rw [accepted]
    exact drains.few
  refine ⟨⟨few, drains.registered.step stepped few,
    drains.arrived.step stepped,
    drains.winding.step drains.registered stepped, ?_, free, ?_⟩, cost⟩
  · rw [shutdown]
    exact drains.begun
  · rw [shutdown]
    exact drains.remaining

theorem exists_settling_connection {connId : ConnId}
    {connection : AsioConnection}
    (found : state.objects connId = some connection)
    (drains : Drains state) (left : ¬ WoundDown connection) :
    ∃ event, ServerEvent.settles event = true ∧
      (state.step event).isSome = true := by
  obtain ⟨own, reached⟩ := (drains.arrived connId connection found).reaches
  obtain ⟨event, settles, steps⟩ :=
    exists_settling (sound_of_run reached) (tended_of_run reached) left
  have isOwn := ConnectionEvent.isOwn_of_settles settles
  refine ⟨.connection connId event, ?_, ?_⟩
  · rw [ConnectionEvent.settles,
      ConnectionEvent.bringsWork_of_isOwn isOwn] at settles
    exact settles
  · rw [AsioConnection.step, Option.isSome_map] at steps
    rw [Server.step, if_pos isOwn, Server.reactConnection, found]
    exact Option.isSome_map.trans steps

/-- The strand of the server takes whatever is queued. -/
theorem isSome_takeWork {work : ServerWork} {queue : List ServerWork}
    (free : state.strand.running = none)
    (queued : state.strand.queue = work :: queue) :
    (state.step (.takeWork none)).isSome = true := by
  rw [Server.step, Server.takeWork, Strand.take, free, queued]
  cases work with
  | signalled sig =>
      cases sig with
      | none => rfl
      | some sig => cases sig <;> rfl
  | acceptCompleted result =>
      simp only [Server.handle]
      split <;> rfl
  | _ => rfl

/-- When no connection has anything left to do, the table is empty. -/
theorem drained (drains : Drains state) (idle : state.strand.Idle)
    (accepts : state.waitsForAccept = false)
    (rest : ∀ connId connection, state.objects connId = some connection →
      WoundDown connection) : Drained state := by
  have closed : ∀ connId connection,
      state.objects connId = some connection →
        connection.socketOpen = false := by
    intro connId connection found
    by_contra isOpen
    rw [Bool.not_eq_false] at isOpen
    obtain ⟨loop, visits⟩ := Option.isSome_iff_exists.mp drains.begun
    rcases drains.winding.closing loop visits connId connection found isOpen with
      remaining | queued
    · rw [drains.remaining loop visits] at remaining
      cases remaining
    · rw [(rest connId connection found).idle.2] at queued
      cases queued
  refine ⟨idle, drains.noSignal.1, accepts, ?_, ?_⟩
  · apply List.eq_nil_iff_forall_not_mem.mpr
    intro connId member
    obtain ⟨isAccepted, kept⟩ := (drains.registered.table connId).mp member
    obtain ⟨connection, found⟩ := Option.isSome_iff_exists.mp
      ((drains.registered.objects connId).mpr isAccepted)
    rcases (drains.registered.disconnected connId connection found).mp
        (closed connId connection found) with erased | queued
    · exact kept erased
    · rw [idle.2] at queued
      cases queued
  · intro connId connection found
    obtain ⟨own, reached⟩ := (drains.arrived connId connection found).reaches
    have isClosed := closed connId connection found
    have disconnects := (sound_of_run reached).disconnects
    rw [isClosed] at disconnects
    exact ⟨rest connId connection found, isClosed, disconnects⟩

/-- As long as anything is left, something can go on. -/
theorem exists_settling (drains : Drains state) (left : ¬ Drained state) :
    ∃ event, ServerEvent.settles event = true ∧
      (state.step event).isSome = true := by
  rcases queue : state.strand.queue with _ | ⟨work, rest⟩
  · rcases accepts : state.waitsForAccept
    · by_contra stuck
      refine left (drains.drained ⟨drains.free, queue⟩ accepts ?_)
      intro connId connection found
      by_contra notDown
      exact stuck (exists_settling_connection found drains notDown)
    · refine ⟨.acceptCompletes .aborted, rfl, ?_⟩
      rw [Server.step, if_pos accepts]
      rfl
  · exact ⟨.takeWork none, rfl, isSome_takeWork drains.free queue⟩

end Drains

theorem ShutDown.drains {events : List ServerEvent} {state : Server}
    (shutDown : ShutDown state) (ran : serverRun {} events = some state)
    (few : state.accepted.length < UInt64.size) : Drains state where
  few := few
  registered := registered_of_run ran few
  arrived := by
    have none : AllArrived {} := by
      intro connId connection absurd
      cases absurd
    exact EventRuns.run_invariant
      (fun _ _ _ arrived stepped => arrived.step stepped) none ran
  winding := winding_of_run ran few
  begun := shutDown.begun
  free := by
    have winding := winding_of_run ran few
    rcases running : state.strand.running with _ | task
    · rfl
    · cases task with
      | accepting connId stage =>
          exact absurd running (winding.notAccepting shutDown.begun connId stage)
      | closing => exact absurd running shutDown.visited
  remaining := by
    have walks : Walks state := EventRuns.run_invariant
      (fun _ _ _ walks stepped => walks.step stepped) walks_initial ran
    exact walks.complete shutDown.visited

/-- The server comes to an end once `HandleSignals` is done: what it and its
connections do from then on is bounded, but for what still succeeds on a socket,
it can always go on until nothing is left, and it stops at nothing else. -/
theorem server_drains (events more : List ServerEvent) (state last : Server)
    (ran : serverRun {} events = some state)
    (few : state.accepted.length < UInt64.size) (shutDown : ShutDown state)
    (ranOn : serverRun state more = some last) :
    more.countP ServerEvent.isWork ≤
        state.stepsLeft + 8 * more.countP ServerEvent.succeeds ∧
      (∃ rest final, (∀ event ∈ rest, ServerEvent.settles event = true) ∧
        serverRun last rest = some final ∧ Drained final) ∧
      ((∀ event, ServerEvent.settles event = true →
        last.step event = none) → Drained last) := by
  have begins := shutDown.drains ran few
  have drains : Drains last := EventRuns.run_invariant
    (fun _ _ _ drains stepped => (drains.step stepped).1) begins ranOn
  refine ⟨?_, ?_, ?_⟩
  · have bounded := EventRuns.countP_le_measure
      (fun _ _ _ drains stepped => drains.step stepped) begins ranOn
    exact le_trans (Nat.le_add_right _ _) bounded
  · have advances : ∀ state, Drains state → ¬ Drained state →
        ∃ event next, ServerEvent.settles event = true ∧
          state.step event = some next ∧ Drains next ∧
            next.stepsLeft < state.stepsLeft := by
      intro state drains left
      obtain ⟨event, settles, steps⟩ := drains.exists_settling left
      obtain ⟨next, stepped⟩ := Option.isSome_iff_exists.mp steps
      obtain ⟨after, less⟩ := drains.step stepped
      refine ⟨event, next, settles, stepped, after, ?_⟩
      simp only [ServerEvent.settles, Bool.and_eq_true,
        Bool.not_eq_true'] at settles
      rw [settles.1, settles.2] at less
      exact less
    obtain ⟨rest, final, each, reached, _, drained⟩ :=
      EventRuns.exists_run_to_goal advances drains
    exact ⟨rest, final, each, reached, drained⟩
  · intro stuck
    by_contra left
    obtain ⟨event, settles, steps⟩ := drains.exists_settling left
    rw [stuck event settles] at steps
    cases steps

theorem server_drains_busyShutdown :
    ∃ state, serverRun {} busyShutdown = some state ∧
      state.connections = [1] ∧
        ∃ rest final, (∀ event ∈ rest, ServerEvent.settles event = true) ∧
          serverRun state rest = some final ∧ Drained final :=
  ⟨_, rfl, rfl,
    (server_drains busyShutdown [] _ _ rfl (by decide)
      ⟨rfl, by decide, rfl⟩ rfl).2.1⟩

end Birch

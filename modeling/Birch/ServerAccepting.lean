import Birch.ServerDrain

/-!
# Accepting connections

`AcceptConnections` accepts one connection after the other until an accept
fails, whatever the error, or the server drains.  This file proves that the
coroutine never gets stuck before that, however its strand and the connections
take turns, and that nothing is accepted afterwards.
-/

namespace Birch

/-- What goes on with `AcceptConnections`, if the server does not drain. -/
def ServerWork.isAccept : ServerWork → Bool
  | .acceptConnections | .acceptCompleted .accepted => true
  | _ => false

def ServerTask.isAccepting : ServerTask → Bool
  | .accepting _ _ => true
  | .closing => false

/-- The places in which `AcceptConnections` is. -/
def Server.acceptsLeft (state : Server) : Nat :=
  state.waitsForAccept.toNat +
    state.strand.queue.countP ServerWork.isAccept +
      (state.strand.running.any ServerTask.isAccepting).toNat

/-- The event is neither a failed accept nor a signal that ends the server. -/
def ServerEvent.KeepsServing : ServerEvent → Prop
  | .signalArrives (some sig) => sig ∉ terminalSignals
  | .acceptCompletes result => result = .accepted
  | _ => True

namespace Server

variable {state next : Server}

theorem reactConnection_call {connId : ConnId} {event : ConnectionEvent}
    (call : event.isCall = true)
    (reacted : state.reactConnection connId event = some next) :
    ∃ connection after, state.objects connId = some connection ∧
      connection.react event = some (after, []) ∧
        next = { state with
          objects := Function.update state.objects connId (some after) } := by
  obtain ⟨connection, after, calls, found, react, rfl⟩ :=
    reactConnection_eq_some reacted
  obtain ⟨_, _, rfl⟩ := AsioConnection.react_call call react
  exact ⟨connection, after, found, react, rfl⟩

theorem acceptsLeft_waitForAccept (state : Server) :
    state.waitForAccept.acceptsLeft ≤ state.acceptsLeft + 1 ∧
      (state.draining = false → 0 < state.waitForAccept.acceptsLeft) ∧
        state.waitForAccept.accepted = state.accepted := by
  unfold waitForAccept
  split
  · rename_i draining
    exact ⟨Nat.le_succ _, by simp [draining], rfl⟩
  · simp [acceptsLeft]
    omega

/-- By cases on where `AcceptConnections` is with the new connection. -/
theorem acceptsLeft_proceed (proceeds : state.proceed = some next) :
    next.acceptsLeft ≤ state.acceptsLeft ∧
      (state.draining = false → 0 < next.acceptsLeft) ∧
        next.accepted = state.accepted := by
  unfold proceed at proceeds
  split at proceeds
  · rename_i connId accepting
    obtain ⟨reacted, react, rfl⟩ := Option.map_eq_some_iff.mp proceeds
    obtain ⟨_, _, _, _, rfl⟩ := reactConnection_call rfl react
    simp [acceptsLeft, holdStage, Strand.hold, accepting,
      ServerTask.isAccepting]
  · rename_i connId accepting
    obtain ⟨reacted, react, rfl⟩ := Option.map_eq_some_iff.mp proceeds
    obtain ⟨_, _, _, _, rfl⟩ := reactConnection_call rfl react
    simp [acceptsLeft, holdStage, Strand.hold, accepting,
      ServerTask.isAccepting]
  · rename_i connId accepting
    obtain ⟨reacted, react, rfl⟩ := Option.map_eq_some_iff.mp proceeds
    obtain ⟨_, after, _, _, rfl⟩ := reactConnection_call rfl react
    obtain ⟨waits, serves, accepted⟩ := acceptsLeft_waitForAccept
      { state with
        objects := Function.update state.objects connId (some after)
        strand := state.strand.finish }
    refine ⟨waits.trans (Nat.le_of_eq ?_), serves, accepted⟩
    simp [acceptsLeft, Strand.finish, accepting, ServerTask.isAccepting]
  · cases proceeds

theorem acceptsLeft_setConnection (state : Server) (inStrand : Bool)
    (connId : ConnId) (result : AsioConnection × List ObserverId) :
    (state.setConnection inStrand connId result).acceptsLeft =
        state.acceptsLeft ∧
      (state.setConnection inStrand connId result).accepted =
        state.accepted := by
  have queued := @countP_setConnection state ServerWork.isAccept
    (fun _ => rfl) inStrand connId result
  obtain ⟨_, _, _, _, same⟩ := state.setConnection_frame inStrand connId result
  rw [same] at queued ⊢
  refine ⟨?_, rfl⟩
  simp only [acceptsLeft] at queued ⊢
  rw [queued]

theorem acceptsLeft_reactConnection {connId : ConnId} {event : ConnectionEvent}
    (reacted : state.reactConnection connId event = some next) :
    next.acceptsLeft = state.acceptsLeft ∧ next.accepted = state.accepted := by
  obtain ⟨_, after, calls, _, _, rfl⟩ := reactConnection_eq_some reacted
  exact acceptsLeft_setConnection state false connId (after, calls)

theorem acceptsLeft_closeNext (closes : state.closeNext = some next) :
    next.acceptsLeft = state.acceptsLeft ∧ next.accepted = state.accepted := by
  unfold closeNext at closes
  split at closes
  · split at closes
    · cases closes
    · obtain rfl := Option.some.inj closes
      exact acceptsLeft_setConnection _ true _ _
  · cases closes

/-- The handlers of the strand go on with `AcceptConnections`, or leave it. -/
theorem acceptsLeft_handle {order : Option (List ConnId)} {work : ServerWork}
    (free : state.strand.running = none)
    (handled : state.handle order work = some next) :
    next.acceptsLeft ≤ state.acceptsLeft + work.isAccept.toNat ∧
      (state.draining = false → 0 < state.acceptsLeft + work.isAccept.toNat →
        0 < next.acceptsLeft) ∧
        (next.accepted = state.accepted ∨ work.isAccept = true) := by
  have signal : state.waitForSignal.acceptsLeft = state.acceptsLeft ∧
      state.waitForSignal.accepted = state.accepted := by
    obtain ⟨_, same⟩ := state.waitForSignal_eq
    rw [same]
    exact ⟨rfl, rfl⟩
  cases work with
  | handleSignals =>
      obtain rfl := Option.some.inj handled
      rw [signal.1, signal.2]
      exact ⟨Nat.le_refl _, fun _ => id, Or.inl rfl⟩
  | eraseConnection connId =>
      obtain rfl := Option.some.inj handled
      exact ⟨Nat.le_refl _, fun _ => id, Or.inl rfl⟩
  | acceptConnections =>
      obtain rfl := Option.some.inj handled
      obtain ⟨waits, serves, accepted⟩ := acceptsLeft_waitForAccept state
      exact ⟨waits, fun serving _ => serves serving, Or.inl accepted⟩
  | acceptCompleted result =>
      simp only [handle] at handled
      split at handled
      · rename_i stops
        obtain rfl := Option.some.inj handled
        refine ⟨Nat.le_add_right _ _, ?_, Or.inl rfl⟩
        intro serving left
        rcases stops with failed | draining
        · cases result with
          | accepted => exact absurd rfl failed
          | aborted | failed => exact left
        · rw [serving] at draining
          cases draining
      · rename_i goesOn
        obtain rfl := Option.some.inj handled
        have accepted : result = .accepted := by
          by_contra failed
          exact goesOn (Or.inl failed)
        subst accepted
        simp [acceptsLeft, accept, setConnections, Strand.hold, free,
          ServerTask.isAccepting, ServerWork.isAccept]
  | signalled sig =>
      cases sig with
      | none =>
          obtain rfl := Option.some.inj handled
          exact ⟨Nat.le_refl _, fun _ => id, Or.inl rfl⟩
      | some sig =>
          simp only [handle] at handled
          split at handled
          · obtain rfl := Option.some.inj handled
            rw [signal.1, signal.2]
            exact ⟨Nat.le_refl _, fun _ => id, Or.inl rfl⟩
          · split at handled
            · split at handled
              · obtain rfl := Option.some.inj handled
                exact ⟨Nat.le_refl _, fun _ => id, Or.inl rfl⟩
              · obtain ⟨_, same⟩ := Option.ite_none_right_eq_some.mp handled
                obtain rfl := Option.some.inj same
                simp [acceptsLeft, shutDown, Strand.hold, free,
                  ServerTask.isAccepting, ServerWork.isAccept]
            · obtain rfl := Option.some.inj handled
              rw [signal.1, signal.2]
              exact ⟨Nat.le_refl _, fun _ => id, Or.inl rfl⟩

/-- A step never adds to the places of `AcceptConnections`, accepts only from
one of them, and takes one away where an accept has failed. -/
theorem acceptsLeft_step {event : ServerEvent}
    (stepped : state.step event = some next) :
    next.acceptsLeft ≤ state.acceptsLeft ∧
      (state.draining = false → event.KeepsServing →
        0 < state.acceptsLeft → 0 < next.acceptsLeft) ∧
        (next.accepted = state.accepted ∨ 0 < state.acceptsLeft) ∧
          ∀ result, event = .acceptCompletes result → result ≠ .accepted →
            next.acceptsLeft < state.acceptsLeft := by
  cases event with
  | signalArrives sig =>
      obtain ⟨_, same⟩ := Option.ite_none_right_eq_some.mp stepped
      obtain rfl := Option.some.inj same
      simp [acceptsLeft, Strand.submit, List.countP_append,
        ServerWork.isAccept]
  | acceptCompletes result =>
      obtain ⟨waits, same⟩ := Option.ite_none_right_eq_some.mp stepped
      obtain rfl := Option.some.inj same
      have submitted : Server.acceptsLeft
            { state with
              waitsForAccept := false
              strand := state.strand.submit (.acceptCompleted result) } + 1 =
          state.acceptsLeft +
            (ServerWork.acceptCompleted result).isAccept.toNat := by
        simp only [acceptsLeft, Strand.submit, List.countP_append,
          List.countP_singleton, waits, Bool.toNat_true, Bool.toNat_false]
        rcases (ServerWork.acceptCompleted result).isAccept <;>
          simp only [Bool.toNat_true, Bool.toNat_false, if_true,
            Bool.false_eq_true, if_false] <;> omega
      refine ⟨?_, ?_, Or.inl rfl, ?_⟩
      · cases result <;> simp only [ServerWork.isAccept, Bool.toNat_true,
          Bool.toNat_false] at submitted <;> omega
      · intro _ accepted left
        have accepted : result = .accepted := accepted
        subst accepted
        rw [ServerWork.isAccept, Bool.toNat_true] at submitted
        omega
      · rintro _ ⟨⟩ failed
        cases result with
        | accepted => exact absurd rfl failed
        | aborted | failed =>
            simp only [ServerWork.isAccept, Bool.toNat_false] at submitted
            omega
  | takeWork order =>
      simp only [step, takeWork] at stepped
      split at stepped
      · cases stepped
      · rename_i work strand take
        obtain ⟨free, freed, queue⟩ := Strand.take_eq_some take
        have popped : ({ state with strand } : Server).acceptsLeft +
            work.isAccept.toNat = state.acceptsLeft := by
          simp only [acceptsLeft, queue, free, freed, List.countP_cons]
          cases work.isAccept <;> simp
          omega
        have handled :=
          @acceptsLeft_handle { state with strand } _ _ _ freed stepped
        rw [popped] at handled
        obtain ⟨fewer, serves, accepted⟩ := handled
        refine ⟨fewer, fun serving _ left => serves serving left, ?_, by simp⟩
        refine accepted.imp_right fun isAccept => ?_
        rw [isAccept] at popped
        simp at popped
        omega
  | proceed =>
      obtain ⟨fewer, serves, accepted⟩ := acceptsLeft_proceed stepped
      exact ⟨fewer, fun serving _ _ => serves serving, Or.inl accepted, by simp⟩
  | closeNext =>
      obtain ⟨same, accepted⟩ := acceptsLeft_closeNext stepped
      exact ⟨same.le, fun _ _ left => same ▸ left, Or.inl accepted, by simp⟩
  | loopEnds =>
      simp only [step, loopEnds] at stepped
      split at stepped
      · rename_i closing _
        obtain rfl := Option.some.inj stepped
        simp [acceptsLeft, Strand.finish, closing, ServerTask.isAccepting]
      · cases stepped
  | connection connId event =>
      obtain ⟨_, reacted⟩ := Option.ite_none_right_eq_some.mp stepped
      obtain ⟨same, accepted⟩ := acceptsLeft_reactConnection reacted
      exact ⟨same.le, fun _ _ left => same ▸ left, Or.inl accepted, by simp⟩

end Server

/-! ## The connection that is being accepted -/

/-- What `AcceptConnections` has called of the connection that it is at. -/
structure SpawnsInOrder (state : Server) : Prop where
  arrived : AllArrived state
  stage : ∀ connId stage,
    state.strand.running = some (.accepting connId stage) →
      ∃ connection, state.objects connId = some connection ∧
        (connection.readLoop = .unspawned ↔ stage ≠ .reading) ∧
          connection.writeLoop = .unspawned

theorem spawnsInOrder_initial : SpawnsInOrder {} where
  arrived := by
    intro connId connection absurd
    cases absurd
  stage := by simp

namespace SpawnsInOrder

variable {state next : Server}

theorem spawnedFirst (spawns : SpawnsInOrder state) {connId : ConnId}
    {connection : AsioConnection}
    (found : state.objects connId = some connection) :
    SpawnedFirst connection := by
  obtain ⟨own, reached⟩ := (spawns.arrived connId connection found).reaches
  exact spawnedFirst_of_run reached

/-- A connection takes a step of its own. -/
theorem reactConnection (spawns : SpawnsInOrder state) {connId : ConnId}
    {event : ConnectionEvent} (own : event.isOwn = true)
    (reacted : state.reactConnection connId event = some next) :
    SpawnsInOrder next := by
  have arrived := spawns.arrived.reactConnection (Or.inl own) reacted
  obtain ⟨connection, after, calls, found, react, rfl⟩ :=
    Server.reactConnection_eq_some reacted
  obtain ⟨_, same⟩ := (spawns.spawnedFirst found).react react
  have same : SpawnsNothing connection after :=
    same (by rintro rfl; cases own) (by rintro rfl; cases own)
  refine ⟨arrived, ?_⟩
  obtain ⟨_, _, _, _, frame⟩ := state.setConnection_frame false connId
    (after, calls)
  rw [frame]
  intro other stage accepting
  obtain ⟨old, isOld, reading, writing⟩ := spawns.stage other stage accepting
  by_cases here : other = connId
  · subst here
    rw [found, Option.some.injEq] at isOld
    subst isOld
    exact ⟨after, Function.update_self .., same.1.trans reading,
      same.2.mpr writing⟩
  · exact ⟨old, (Function.update_of_ne here ..).trans isOld, reading, writing⟩

/-- `AcceptConnections` goes on: it spawns the read loop, and then the write
loop. -/
theorem proceed (spawns : SpawnsInOrder state)
    (proceeds : state.proceed = some next) : SpawnsInOrder next := by
  have stepped : state.step .proceed = some next := proceeds
  refine ⟨spawns.arrived.step stepped, ?_⟩
  unfold Server.proceed at proceeds
  split at proceeds
  · rename_i connId accepting
    obtain ⟨reacted, react, rfl⟩ := Option.map_eq_some_iff.mp proceeds
    obtain ⟨connection, after, found, called, rfl⟩ :=
      Server.reactConnection_call rfl react
    obtain ⟨old, isOld, reading, writing⟩ := spawns.stage connId _ accepting
    obtain rfl := Option.some.inj (found.symm.trans isOld)
    obtain ⟨_, same⟩ := Option.ite_none_right_eq_some.mp called
    obtain ⟨rfl, _⟩ := Prod.mk.inj (Option.some.inj same)
    rintro _ _ ⟨⟩
    exact ⟨_, Function.update_self .., reading.trans (by simp), writing⟩
  · rename_i connId accepting
    obtain ⟨reacted, react, rfl⟩ := Option.map_eq_some_iff.mp proceeds
    obtain ⟨connection, after, found, called, rfl⟩ :=
      Server.reactConnection_call rfl react
    obtain ⟨old, isOld, _, writing⟩ := spawns.stage connId _ accepting
    obtain rfl := Option.some.inj (found.symm.trans isOld)
    obtain ⟨_, same⟩ := Option.ite_none_right_eq_some.mp called
    obtain ⟨rfl, _⟩ := Prod.mk.inj (Option.some.inj same)
    rintro _ _ ⟨⟩
    exact ⟨_, Function.update_self .., by simp, writing⟩
  · rename_i connId accepting
    obtain ⟨reacted, react, rfl⟩ := Option.map_eq_some_iff.mp proceeds
    intro other stage still
    obtain ⟨_, same⟩ :=
      Server.waitForAccept_eq { reacted with strand := reacted.strand.finish }
    rw [same] at still
    cases still
  · cases proceeds

theorem takeWork (spawns : SpawnsInOrder state) {order : Option (List ConnId)}
    (taken : state.takeWork order = some next) : SpawnsInOrder next := by
  refine ⟨spawns.arrived.takeWork taken, ?_⟩
  unfold Server.takeWork at taken
  split at taken
  · cases taken
  · rename_i work strand take
    obtain ⟨_, freed, _⟩ := Strand.take_eq_some take
    intro connId stage accepting
    rcases Server.handle_cases taken with ⟨_, _, rfl⟩ | ⟨_, other⟩
    · exact absurd (freed.symm.trans accepting) (by simp)
    · rcases other with ⟨_, _, _, _, rfl⟩ | ⟨_, rfl⟩ | ⟨_, _, rfl⟩
      · exact absurd (freed.symm.trans accepting) (by simp)
      · obtain ⟨rfl, rfl⟩ : state.nextConnId = connId ∧ .emplaced = stage :=
          ServerTask.accepting.inj (Option.some.inj accepting)
        exact ⟨{}, Function.update_self .., by simp, rfl⟩
      · cases accepting

theorem step (spawns : SpawnsInOrder state) {event : ServerEvent}
    (stepped : state.step event = some next) : SpawnsInOrder next := by
  cases event with
  | signalArrives | acceptCompletes =>
      have arrived := spawns.arrived.step stepped
      obtain ⟨_, same⟩ := Option.ite_none_right_eq_some.mp stepped
      obtain rfl := Option.some.inj same
      exact ⟨arrived, spawns.stage⟩
  | takeWork order => exact spawns.takeWork stepped
  | proceed => exact spawns.proceed stepped
  | closeNext =>
      refine ⟨spawns.arrived.step stepped, ?_⟩
      have closing : next.strand.running = some .closing := by
        simp only [Server.step, Server.closeNext] at stepped
        split at stepped
        · rename_i closing _
          split at stepped
          · cases stepped
          · obtain rfl := Option.some.inj stepped
            obtain ⟨_, _, _, _, frame⟩ := Server.setConnection_frame true _ _
            rw [frame]
            exact closing
        · cases stepped
      simp [closing]
  | loopEnds =>
      refine ⟨spawns.arrived.step stepped, ?_⟩
      simp only [Server.step, Server.loopEnds] at stepped
      split at stepped
      · obtain rfl := Option.some.inj stepped
        simp
      · cases stepped
  | connection connId event =>
      obtain ⟨own, reacted⟩ := Option.ite_none_right_eq_some.mp stepped
      exact spawns.reactConnection own reacted

/-- `AcceptConnections` can go on with the connection that it is at. -/
theorem isSome_proceed (spawns : SpawnsInOrder state) {connId : ConnId}
    {stage : AcceptStage}
    (accepting : state.strand.running = some (.accepting connId stage)) :
    state.proceed.isSome = true := by
  obtain ⟨connection, found, reading, writing⟩ :=
    spawns.stage connId stage accepting
  have referenced := (spawns.arrived connId connection found).referenced
  cases stage with
  | emplaced =>
      simp [Server.proceed, accepting, Server.reactConnection, found,
        AsioConnection.react, referenced]
  | observed =>
      simp [Server.proceed, accepting, Server.reactConnection, found,
        AsioConnection.react, referenced, reading]
  | reading =>
      simp [Server.proceed, accepting, Server.reactConnection, found,
        AsioConnection.react, referenced, reading, writing]

end SpawnsInOrder

/-! ## Serving -/

/-- The piece of work does not end the server. -/
def ServerWork.KeepsServing : ServerWork → Prop
  | .signalled (some sig) => sig ∉ terminalSignals
  | _ => True

/-- The server has neither failed to accept nor been told to stop. -/
structure Serving (state : Server) : Prop where
  spawns : SpawnsInOrder state
  left : 0 < state.acceptsLeft
  draining : state.draining = false
  notClosing : state.strand.running ≠ some .closing
  queued : ∀ work ∈ state.strand.queue, ServerWork.KeepsServing work

theorem serving_initial : Serving {} where
  spawns := spawnsInOrder_initial
  left := by decide
  draining := rfl
  notClosing := by simp
  queued := by
    intro work member
    simp only [List.mem_cons, List.not_mem_nil, or_false] at member
    rcases member with rfl | rfl <;> trivial

namespace Serving

variable {state next : Server}

/-- A handler accepts a connection, erases one, or waits for the next signal or
connection. -/
theorem handle {order : Option (List ConnId)} {work : ServerWork}
    (keeps : work.KeepsServing)
    (handled : state.handle order work = some next) :
    work = .acceptCompleted .accepted ∧ next = state.accept ∨
      ∃ connections erased tableChanged waitsForSignal waitsForAccept,
        (waitsForAccept = true →
          state.waitsForAccept = true ∨ work = .acceptConnections) ∧
            next = { state with
              connections, erased, tableChanged, waitsForSignal
              waitsForAccept } := by
  obtain ⟨_, signal⟩ := state.waitForSignal_eq
  obtain ⟨_, accept⟩ := state.waitForAccept_eq
  cases work with
  | handleSignals =>
      obtain rfl := Option.some.inj handled
      exact Or.inr ⟨_, _, _, _, _, Or.inl, signal⟩
  | acceptConnections =>
      obtain rfl := Option.some.inj handled
      exact Or.inr ⟨_, _, _, _, _, fun _ => Or.inr rfl, accept⟩
  | eraseConnection connId =>
      obtain rfl := Option.some.inj handled
      exact Or.inr ⟨_, _, _, _, _, Or.inl, rfl⟩
  | acceptCompleted result =>
      simp only [Server.handle] at handled
      split at handled
      · obtain rfl := Option.some.inj handled
        exact Or.inr ⟨_, _, _, _, _, Or.inl, rfl⟩
      · rename_i goesOn
        obtain rfl := Option.some.inj handled
        left
        refine ⟨?_, rfl⟩
        by_contra failed
        exact goesOn (Or.inl fun accepted => failed (congrArg _ accepted))
  | signalled sig =>
      cases sig with
      | none =>
          obtain rfl := Option.some.inj handled
          exact Or.inr ⟨_, _, _, _, _, Or.inl, rfl⟩
      | some sig =>
          simp only [Server.handle] at handled
          split at handled
          · obtain rfl := Option.some.inj handled
            exact Or.inr ⟨_, _, _, _, _, Or.inl, signal⟩
          · rw [if_neg keeps] at handled
            obtain rfl := Option.some.inj handled
            exact Or.inr ⟨_, _, _, _, _, Or.inl, signal⟩

theorem reactConnection (serving : Serving state) {connId : ConnId}
    {event : ConnectionEvent}
    (reacted : state.reactConnection connId event = some next) :
    next.draining = false ∧ next.strand.running = state.strand.running ∧
      ∀ work ∈ next.strand.queue, ServerWork.KeepsServing work := by
  obtain ⟨_, after, calls, _, _, rfl⟩ := Server.reactConnection_eq_some reacted
  by_cases called : serverObserver ∈ calls
  · rw [Server.setConnection, if_pos called, Server.onDisconnect]
    split
    · exact ⟨serving.draining, rfl, serving.queued⟩
    · refine ⟨serving.draining, rfl, ?_⟩
      intro work member
      rcases List.mem_append.mp member with old | new
      · exact serving.queued work old
      · obtain rfl := List.mem_singleton.mp new
        trivial
  · rw [Server.setConnection, if_neg called]
    exact ⟨serving.draining, rfl, serving.queued⟩

/-- A piece of work that arrives at the strand. -/
theorem queued_submit (serving : Serving state) {work : ServerWork}
    (keeps : work.KeepsServing) :
    ∀ other ∈ (state.strand.submit work).queue,
      ServerWork.KeepsServing other := by
  intro other member
  rcases List.mem_append.mp member with old | new
  · exact serving.queued other old
  · exact List.mem_singleton.mp new ▸ keeps

theorem step (serving : Serving state) {event : ServerEvent}
    (keeps : event.KeepsServing) (stepped : state.step event = some next) :
    Serving next := by
  have spawns := serving.spawns.step stepped
  have left := (Server.acceptsLeft_step stepped).2.1 serving.draining keeps
    serving.left
  suffices next.draining = false ∧ next.strand.running ≠ some .closing ∧
      ∀ work ∈ next.strand.queue, ServerWork.KeepsServing work from
    ⟨spawns, left, this.1, this.2.1, this.2.2⟩
  cases event with
  | signalArrives sig =>
      obtain ⟨_, same⟩ := Option.ite_none_right_eq_some.mp stepped
      obtain rfl := Option.some.inj same
      refine ⟨serving.draining, serving.notClosing, serving.queued_submit ?_⟩
      cases sig with
      | none => trivial
      | some sig => exact keeps
  | acceptCompletes result =>
      obtain ⟨_, same⟩ := Option.ite_none_right_eq_some.mp stepped
      obtain rfl := Option.some.inj same
      exact ⟨serving.draining, serving.notClosing,
        serving.queued_submit trivial⟩
  | takeWork order =>
      simp only [Server.step, Server.takeWork] at stepped
      split at stepped
      · cases stepped
      · rename_i work strand take
        obtain ⟨_, freed, queue⟩ := Strand.take_eq_some take
        have keepsWork := serving.queued work (by simp [queue])
        have queued : ∀ other ∈ strand.queue, ServerWork.KeepsServing other :=
          fun other member => serving.queued other (by simp [queue, member])
        have notDraining : ({ state with strand } : Server).draining = false :=
          serving.draining
        rcases handle keepsWork stepped with
          ⟨_, rfl⟩ | ⟨_, _, _, _, _, _, rfl⟩
        · exact ⟨notDraining, by simp [Server.accept], queued⟩
        · exact ⟨notDraining, by simp [freed], queued⟩
  | proceed =>
      obtain ⟨_, _, _, reacted, _, _, _, notClosing, _, _, react, rfl⟩ :=
        Server.proceed_cases stepped
      obtain ⟨draining, _, queued⟩ := serving.reactConnection react
      exact ⟨draining, notClosing, queued⟩
  | closeNext =>
      simp only [Server.step, Server.closeNext] at stepped
      split at stepped
      · rename_i closing _
        exact absurd closing serving.notClosing
      · cases stepped
  | loopEnds =>
      simp only [Server.step, Server.loopEnds] at stepped
      split at stepped
      · rename_i closing _
        exact absurd closing serving.notClosing
      · cases stepped
  | connection connId event =>
      obtain ⟨_, reacted⟩ := Option.ite_none_right_eq_some.mp stepped
      obtain ⟨draining, running, queued⟩ := serving.reactConnection reacted
      exact ⟨draining, running ▸ serving.notClosing, queued⟩

end Serving

/-! ## The next connection -/

/-- The steps of the server until it has another connection, once a peer
connects. -/
def ServerWork.stepsToAccept : ServerWork → Nat
  | .acceptConnections => 5
  | _ => 1

def ServerTask.stepsToAccept : ServerTask → Nat
  | .accepting _ .emplaced => 8
  | .accepting _ .observed => 7
  | .accepting _ .reading => 6
  | .closing => 0

def queueToAccept : List ServerWork → Nat
  | [] => 0
  | work :: queue => work.stepsToAccept + queueToAccept queue

def Server.stepsToAccept (state : Server) : Nat :=
  queueToAccept state.strand.queue + 3 * state.waitsForAccept.toNat +
    (state.strand.running.map ServerTask.stepsToAccept).getD 0

/-- What the strand of the server does, and a peer that connects. -/
def ServerEvent.leadsToAccept : ServerEvent → Bool
  | .takeWork none | .proceed | .acceptCompletes .accepted => true
  | _ => false

/-- The next piece of work accepts a connection. -/
def Server.AboutToAccept (state : Server) : Prop :=
  ∃ strand, state.strand.take = some (.acceptCompleted .accepted, strand)

/-- The step leads towards the next connection. -/
structure NearsAccept (state next : Server) : Prop where
  serving : Serving next
  accepted : next.accepted = state.accepted
  nextConnId : next.nextConnId = state.nextConnId
  less : next.stepsToAccept < state.stepsToAccept

namespace Serving

variable {state : Server}

theorem nears_proceed (serving : Serving state) {connId : ConnId}
    {stage : AcceptStage}
    (accepting : state.strand.running = some (.accepting connId stage)) :
    ∃ next, state.step .proceed = some next ∧ NearsAccept state next := by
  obtain ⟨next, proceeds⟩ := Option.isSome_iff_exists.mp
    (serving.spawns.isSome_proceed accepting)
  have stepped : state.step .proceed = some next := proceeds
  have serves := serving.step (by trivial) stepped
  suffices frame : next.accepted = state.accepted ∧
      next.nextConnId = state.nextConnId ∧
        next.stepsToAccept < state.stepsToAccept from
    ⟨next, stepped, serves, frame.1, frame.2.1, frame.2.2⟩
  clear serves stepped
  unfold Server.proceed at proceeds
  rw [accepting] at proceeds
  cases stage with
  | emplaced | observed =>
      obtain ⟨reacted, react, rfl⟩ := Option.map_eq_some_iff.mp proceeds
      obtain ⟨_, _, _, _, rfl⟩ := Server.reactConnection_call rfl react
      refine ⟨rfl, rfl, ?_⟩
      simp [Server.stepsToAccept, Server.holdStage, Strand.hold, accepting,
        ServerTask.stepsToAccept]
  | reading =>
      obtain ⟨reacted, react, rfl⟩ := Option.map_eq_some_iff.mp proceeds
      obtain ⟨_, after, _, _, rfl⟩ := Server.reactConnection_call rfl react
      obtain ⟨waits, same⟩ := Server.waitForAccept_eq
        { state with
          objects := Function.update state.objects connId (some after)
          strand := state.strand.finish }
      rw [same]
      refine ⟨rfl, rfl, ?_⟩
      cases waits <;>
        simp [Server.stepsToAccept, Strand.finish, accepting,
          ServerTask.stepsToAccept] <;> omega

theorem nears_takeWork (serving : Serving state) {work : ServerWork}
    {strand : Strand ServerWork ServerTask}
    (take : state.strand.take = some (work, strand))
    (other : work ≠ .acceptCompleted .accepted) :
    ∃ next, state.step (.takeWork none) = some next ∧
      NearsAccept state next := by
  obtain ⟨free, freed, queue⟩ := Strand.take_eq_some take
  obtain ⟨next, stepped⟩ := Option.isSome_iff_exists.mp
    (Drains.isSome_takeWork free queue)
  have serves := serving.step (by trivial) stepped
  suffices frame : next.accepted = state.accepted ∧
      next.nextConnId = state.nextConnId ∧
        next.stepsToAccept < state.stepsToAccept from
    ⟨next, stepped, serves, frame.1, frame.2.1, frame.2.2⟩
  simp only [Server.step, Server.takeWork, take] at stepped
  have keeps := serving.queued work (by simp [queue])
  rcases handle keeps stepped with
    ⟨accepts, _⟩ | ⟨_, _, _, _, waits, waited, rfl⟩
  · exact absurd accepts other
  · refine ⟨rfl, rfl, ?_⟩
    simp only [Server.stepsToAccept, queue, queueToAccept, free, freed]
    have positive : 0 < work.stepsToAccept := by
      cases work <;> simp [ServerWork.stepsToAccept]
    rcases waits
    · rw [Bool.toNat_false]
      omega
    · rcases waited rfl with before | rfl
      · have before : state.waitsForAccept = true := before
        rw [before]
        omega
      · rw [ServerWork.stepsToAccept, Bool.toNat_true]
        omega

/-- By cases on where `AcceptConnections` is. -/
theorem nears (serving : Serving state) (later : ¬ state.AboutToAccept) :
    ∃ event next, ServerEvent.leadsToAccept event = true ∧
      state.step event = some next ∧ NearsAccept state next := by
  rcases running : state.strand.running with _ | task
  · rcases queue : state.strand.queue with _ | ⟨work, rest⟩
    · have waits : state.waitsForAccept = true := by
        have left := serving.left
        rw [Server.acceptsLeft, running, queue] at left
        by_contra idle
        rw [Bool.not_eq_true] at idle
        rw [idle] at left
        cases left
      have stepped : state.step (.acceptCompletes .accepted) = some
          { state with
            waitsForAccept := false
            strand := state.strand.submit (.acceptCompleted .accepted) } := by
        rw [Server.step, if_pos waits]
      have after := serving.step (by trivial) stepped
      refine ⟨_, _, rfl, stepped, after, rfl, rfl, ?_⟩
      simp [Server.stepsToAccept, Strand.submit, queueToAccept, queue, running,
        waits, ServerWork.stepsToAccept]
    · have take : state.strand.take =
          some (work, { state.strand with queue := rest }) := by
        simp [Strand.take, running, queue]
      have other : work ≠ .acceptCompleted .accepted := by
        rintro rfl
        exact later ⟨_, take⟩
      obtain ⟨next, stepped, nears⟩ := serving.nears_takeWork take other
      exact ⟨_, next, rfl, stepped, nears⟩
  · cases task with
    | accepting connId stage =>
        obtain ⟨next, stepped, nears⟩ := serving.nears_proceed running
        exact ⟨_, next, rfl, stepped, nears⟩
    | closing => exact absurd running serving.notClosing

/-- The server gets to its next connection. -/
theorem acceptsAnother (serving : Serving state) :
    ∃ more final,
      (∀ event ∈ more, ServerEvent.leadsToAccept event = true) ∧
        serverRun state more = some final ∧
          final.accepted = state.accepted ++ [state.nextConnId] := by
  have advances : ∀ before, (Serving before ∧
      before.accepted = state.accepted ∧
        before.nextConnId = state.nextConnId) → ¬ before.AboutToAccept →
      ∃ event next, ServerEvent.leadsToAccept event = true ∧
        before.step event = some next ∧
          (Serving next ∧ next.accepted = state.accepted ∧
            next.nextConnId = state.nextConnId) ∧
              next.stepsToAccept < before.stepsToAccept := by
    rintro before ⟨serving, accepted, nextConnId⟩ later
    obtain ⟨event, next, leads, stepped, nears⟩ := serving.nears later
    exact ⟨event, next, leads, stepped,
      ⟨nears.serving, nears.accepted.trans accepted,
        nears.nextConnId.trans nextConnId⟩, nears.less⟩
  obtain ⟨more, middle, each, reached, ⟨arrives, accepted, nextConnId⟩,
    strand, take⟩ := EventRuns.exists_run_to_goal advances ⟨serving, rfl, rfl⟩
  have stepped : middle.step (.takeWork none) =
      some ({ middle with strand } : Server).accept := by
    simp [Server.step, Server.takeWork, take, Server.handle,
      arrives.draining]
  have last : serverRun middle [.takeWork none] =
      some ({ middle with strand } : Server).accept := by
    rw [serverRun, EventRuns.run, stepped]
    rfl
  refine ⟨more ++ [.takeWork none], ({ middle with strand } : Server).accept,
    ?_, ?_, ?_⟩
  · intro event member
    rcases List.mem_append.mp member with earlier | new
    · exact each event earlier
    · obtain rfl := List.mem_singleton.mp new
      rfl
  · have both : serverRun state (more ++ [.takeWork none]) =
        (serverRun state more).bind (serverRun · [.takeWork none]) :=
      EventRuns.run_append more [.takeWork none] state
    rw [serverRun, reached] at both
    exact both.trans last
  · rw [← accepted, ← nextConnId]
    rfl

end Serving

theorem serving_of_run {events : List ServerEvent} {state : Server}
    (ran : serverRun {} events = some state)
    (keeps : ∀ event ∈ events, ServerEvent.KeepsServing event) :
    Serving state :=
  EventRuns.run_invariant_of_forall
    (fun _ _ _ serving keeps stepped => serving.step keeps stepped)
    serving_initial keeps ran

/-- A failed accept is the end of `AcceptConnections`. -/
theorem acceptsLeft_of_run {events : List ServerEvent} {state final : Server}
    (ran : serverRun state events = some final) :
    final.acceptsLeft ≤ state.acceptsLeft ∧
      ∀ result, .acceptCompletes result ∈ events → result ≠ .accepted →
        final.acceptsLeft < state.acceptsLeft := by
  induction events generalizing state with
  | nil =>
      obtain rfl := Option.some.inj ran
      exact ⟨Nat.le_refl _, by simp⟩
  | cons event events ih =>
      obtain ⟨next, stepped, rest⟩ := EventRuns.run_cons ran
      obtain ⟨fewer, _, _, fails⟩ := Server.acceptsLeft_step stepped
      obtain ⟨later, laterFails⟩ := ih rest
      refine ⟨later.trans fewer, ?_⟩
      intro result member failed
      rcases List.mem_cons.mp member with here | after
      · exact Nat.lt_of_le_of_lt later (fails result here.symm failed)
      · exact Nat.lt_of_lt_of_le (laterFails result after failed) fewer

theorem accepted_of_acceptsLeft {events : List ServerEvent}
    {state final : Server} (ended : state.acceptsLeft = 0)
    (ran : serverRun state events = some final) :
    final.accepted = state.accepted := by
  have preserves : ∀ (before : Server) event next,
      (before.acceptsLeft = 0 ∧ before.accepted = state.accepted) →
        before.step event = some next →
          (next.acceptsLeft = 0 ∧ next.accepted = state.accepted) := by
    rintro before event next ⟨none, same⟩ stepped
    obtain ⟨fewer, _, accepted, _⟩ := Server.acceptsLeft_step stepped
    refine ⟨by omega, ?_⟩
    rcases accepted with unchanged | some
    · exact unchanged.trans same
    · omega
  exact (EventRuns.run_invariant preserves ⟨ended, rfl⟩ ran).2

/-- As long as no accept has failed and no signal has told the server to stop,
the server gets to its next connection as soon as a peer connects.  After an
accept has failed, with whatever error, it has had its last connection. -/
theorem server_acceptsUntilFailure (events : List ServerEvent) (state : Server)
    (ran : serverRun {} events = some state) :
    ((∀ event ∈ events, ServerEvent.KeepsServing event) →
      ∃ more final,
        (∀ event ∈ more, ServerEvent.leadsToAccept event = true) ∧
          serverRun state more = some final ∧
            final.accepted = state.accepted ++ [state.nextConnId]) ∧
      ((∃ result, .acceptCompletes result ∈ events ∧ result ≠ .accepted) →
        ∀ more final, serverRun state more = some final →
          final.accepted = state.accepted) := by
  constructor
  · exact fun keeps => (serving_of_run ran keeps).acceptsAnother
  · rintro ⟨result, member, failed⟩ more final ranOn
    have fewer := (acceptsLeft_of_run ran).2 result member failed
    have ended : state.acceptsLeft = 0 := by
      have one : Server.acceptsLeft {} = 1 := rfl
      omega
    exact accepted_of_acceptsLeft ended ranOn

/-- One connection has been accepted, and the next accept fails. -/
def failedAcceptEvents : List ServerEvent :=
  acceptEvents ++ [.acceptCompletes .failed]

/-- Without the accept that fails there would be another connection. -/
theorem server_acceptsUntilFailure_failedAccept :
    ∃ state failed, serverRun {} acceptEvents = some state ∧
      serverRun {} failedAcceptEvents = some failed ∧
      (∃ more final,
        (∀ event ∈ more, ServerEvent.leadsToAccept event = true) ∧
          serverRun state more = some final ∧ final.accepted = [1, 2]) ∧
      failed.accepted = [1] ∧
      ∀ more final, serverRun failed more = some final →
        final.accepted = [1] :=
  ⟨_, _, rfl, rfl,
    (server_acceptsUntilFailure acceptEvents _ rfl).1
      (by simp [acceptEvents, ServerEvent.KeepsServing]),
    rfl,
    (server_acceptsUntilFailure failedAcceptEvents _ rfl).2
      ⟨.failed, by simp [failedAcceptEvents], by decide⟩⟩

end Birch

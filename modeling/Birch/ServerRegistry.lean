import Birch.ServerConnections

/-!
# The table of connections

A connection is put into the table on the strand of the server, and erased from
it on the same strand after it has disconnected on its own.  This file proves
what the table holds at any time, and in which order a connection is inserted,
observed, started and erased.
-/

namespace Birch

/-- The erase of a connection has run, or is to run on the strand. -/
def Server.Scheduled (state : Server) (connId : ConnId) : Prop :=
  connId ∈ state.erased ∨ .eraseConnection connId ∈ state.strand.queue

/-- The coroutine has come to its first operation. -/
def LoopState.HasStepped (loop : LoopState) : Prop :=
  loop ≠ .unspawned ∧ loop ≠ .spawned

/-- The table holds the connections that were accepted and are not erased, none
is accepted twice or erased before it is accepted, the server observes each one
before its read loop takes a step, those that have disconnected are gone when
the strand is idle, and none is added while the server drains. -/
structure RegistersConnections (state : Server) : Prop where
  table : ∀ connId, connId ∈ state.connections ↔
    connId ∈ state.accepted ∧ connId ∉ state.erased
  nodup : state.accepted.Nodup
  acceptedFirst : ∀ connId, state.Scheduled connId → connId ∈ state.accepted
  observedFirst : ∀ connId connection,
    state.objects connId = some connection →
      connection.readLoop.HasStepped → serverObserver ∈ connection.observers
  noneLeft : state.strand.Idle → ∀ connId ∈ state.connections,
    ∃ connection, state.objects connId = some connection ∧
      connection.socketOpen = true
  draining : state.draining = true → ∀ events final,
    serverRun state events = some final → final.accepted = state.accepted

/-! ## Before the server observes a connection -/

/-- The server is the first to run something on the strand of the connection,
and nothing else has run on it. -/
structure WaitsForObserver (connection : AsioConnection) : Prop where
  next : connection.strand.queue.head? = some (.addObserver serverObserver)
  free : connection.strand.running = none
  isOpen : connection.socketOpen = true
  readLoop : ¬ connection.readLoop.HasStepped
  writeLoop : ¬ connection.writeLoop.HasStepped

theorem WaitsForObserver.not_idle {connection : AsioConnection}
    (waits : WaitsForObserver connection) : ¬ connection.strand.Idle := by
  rintro ⟨_, empty⟩
  have next := waits.next
  rw [empty] at next
  cases next

/-- All that can happen on its own is that the server is registered. -/
theorem WaitsForObserver.react {connection next : AsioConnection}
    {event : ConnectionEvent} {calls : List ObserverId}
    (waits : WaitsForObserver connection) (own : event.isOwn = true)
    (reacted : connection.react event = some (next, calls)) :
    serverObserver ∈ next.observers ∧
      next.socketOpen = connection.socketOpen ∧ calls = [] := by
  have free := waits.free
  cases event with
  | retain | release | addObserver _ | spawnReadLoop | spawnWriteLoop | close =>
      cases own
  | takeWork =>
      obtain ⟨⟨work, rest⟩, take, handled⟩ := Option.map_eq_some_iff.mp reacted
      obtain ⟨_, _, queue⟩ := Strand.take_eq_some take
      have next := waits.next
      rw [queue, List.head?_cons, Option.some.injEq] at next
      subst next
      obtain ⟨rfl, rfl⟩ := Prod.mk.inj handled
      exact ⟨List.mem_append_right _ (List.mem_singleton_self _), rfl, rfl⟩
  | finishWork =>
      simp [AsioConnection.react, AsioConnection.finishWork, free] at reacted
  | notifyMessage | closeInNotification | readAgain =>
      simp [AsioConnection.react, free] at reacted
  | destroy =>
      obtain ⟨⟨unreferenced, _⟩, _⟩ := Option.ite_none_right_eq_some.mp reacted
      exact absurd unreferenced.2.1 waits.not_idle
  | complete operation ec =>
      obtain ⟨awaits, _⟩ := Option.ite_none_right_eq_some.mp reacted
      cases operation with
      | asyncReadSome =>
          refine absurd ?_ waits.readLoop
          have reading : connection.readLoop = .awaiting .asyncReadSome := awaits
          simp [LoopState.HasStepped, reading]
      | asyncReceive | asyncWrite =>
          refine absurd ?_ waits.writeLoop
          have writing : connection.writeLoop = .awaiting _ := awaits
          simp [LoopState.HasStepped, writing]

/-- What is called later stays behind. -/
theorem WaitsForObserver.call {connection next : AsioConnection}
    {event : ConnectionEvent} {calls : List ObserverId}
    (waits : WaitsForObserver connection) (call : event.isCall = true)
    (reacted : connection.react event = some (next, calls)) :
    WaitsForObserver next := by
  obtain ⟨first, free, isOpen, readLoop, writeLoop⟩ := waits
  cases event with
  | addObserver _ | close =>
      obtain ⟨_, same⟩ := Option.ite_none_right_eq_some.mp reacted
      obtain ⟨rfl, _⟩ := Prod.mk.inj (Option.some.inj same)
      exact ⟨Strand.head?_submit first, free, isOpen, readLoop, writeLoop⟩
  | spawnReadLoop =>
      obtain ⟨_, same⟩ := Option.ite_none_right_eq_some.mp reacted
      obtain ⟨rfl, _⟩ := Prod.mk.inj (Option.some.inj same)
      exact ⟨Strand.head?_submit first, free, isOpen,
        fun stepped => stepped.2 rfl, writeLoop⟩
  | spawnWriteLoop =>
      obtain ⟨_, same⟩ := Option.ite_none_right_eq_some.mp reacted
      obtain ⟨rfl, _⟩ := Prod.mk.inj (Option.some.inj same)
      exact ⟨Strand.head?_submit first, free, isOpen, readLoop,
        fun stepped => stepped.2 rfl⟩
  | _ => cases call

theorem WaitsForObserver.submit {connection : AsioConnection}
    (waits : WaitsForObserver connection) (work : ConnectionWork) :
    WaitsForObserver (connection.submit work) :=
  ⟨Strand.head?_submit waits.next, waits.free, waits.isOpen, waits.readLoop,
    waits.writeLoop⟩

theorem waitsForObserver_fresh :
    WaitsForObserver
      (AsioConnection.submit {} (.addObserver serverObserver)) where
  next := rfl
  free := rfl
  isOpen := rfl
  readLoop := fun stepped => stepped.1 rfl
  writeLoop := fun stepped => stepped.1 rfl

theorem react_fresh {event : ConnectionEvent} (own : event.isOwn = true) :
    AsioConnection.react {} event = none := by
  cases event with
  | retain | release | addObserver _ | spawnReadLoop | spawnWriteLoop | close =>
      cases own
  | complete operation ec => cases operation <;> rfl
  | _ => rfl

/-! ## The invariant of the server -/

/-- The server observes the connection, or will before anything else runs on
the strand of the connection, or has only just made it. -/
def Attended (state : Server) (connId : ConnId)
    (connection : AsioConnection) : Prop :=
  serverObserver ∈ connection.observers ∨ WaitsForObserver connection ∨
    state.strand.running = some (.accepting connId .emplaced) ∧ connection = {}

/-- The ids count the connections, as long as their number fits. -/
structure Numbered (state : Server) : Prop where
  next : state.nextConnId = UInt64.ofNat (state.accepted.length + 1)
  bound : ∀ connId ∈ state.accepted, connId.toNat ≤ state.accepted.length
  nodup : state.accepted.Nodup

structure Registered (state : Server) : Prop extends Numbered state where
  table : ∀ connId, connId ∈ state.connections ↔
    connId ∈ state.accepted ∧ connId ∉ state.erased
  objects : ∀ connId,
    (state.objects connId).isSome = true ↔ connId ∈ state.accepted
  scheduled : ∀ connId, state.Scheduled connId → connId ∈ state.accepted
  attended : ∀ connId connection, state.objects connId = some connection →
    Attended state connId connection
  disconnected : ∀ connId connection,
    state.objects connId = some connection →
      (connection.socketOpen = false ↔ state.Scheduled connId)

theorem registered_initial : Registered {} where
  next := rfl
  bound := by simp
  nodup := List.nodup_nil
  table := by simp
  objects := by simp
  scheduled := by simp [Server.Scheduled]
  attended := by simp
  disconnected := by simp

namespace Registered

variable {state next : Server}

/-- A step of the server that accepts nothing. -/
theorem frame (registered : Registered state)
    (objects : next.objects = state.objects)
    (nextConnId : next.nextConnId = state.nextConnId)
    (accepted : next.accepted = state.accepted)
    (table : ∀ connId, connId ∈ next.connections ↔
      connId ∈ next.accepted ∧ connId ∉ next.erased)
    (scheduled : ∀ connId, next.Scheduled connId ↔ state.Scheduled connId)
    (stage : ∀ connId,
      state.strand.running = some (.accepting connId .emplaced) →
        next.strand.running = state.strand.running) : Registered next where
  next := by rw [nextConnId, accepted, registered.next]
  bound := by simpa only [accepted] using registered.bound
  nodup := by simpa only [accepted] using registered.nodup
  table := table
  objects := by simpa only [objects, accepted] using registered.objects
  scheduled := by
    simpa only [scheduled, accepted] using registered.scheduled
  attended := by
    intro connId connection found
    rw [objects] at found
    rcases registered.attended connId connection found with
      observed | waits | ⟨emplaced, fresh⟩
    · exact Or.inl observed
    · exact Or.inr (Or.inl waits)
    · exact Or.inr (Or.inr ⟨(stage connId emplaced).trans emplaced, fresh⟩)
  disconnected := by
    simpa only [objects, scheduled] using registered.disconnected

/-- A step of one connection. -/
theorem update (registered : Registered state) {connId : ConnId}
    (isAccepted : connId ∈ state.accepted) {connection : AsioConnection}
    (objects : next.objects =
      Function.update state.objects connId (some connection))
    (nextConnId : next.nextConnId = state.nextConnId)
    (accepted : next.accepted = state.accepted)
    (table : ∀ other, other ∈ next.connections ↔
      other ∈ next.accepted ∧ other ∉ next.erased)
    (attended : Attended next connId connection)
    (disconnected : connection.socketOpen = false ↔ next.Scheduled connId)
    (scheduled : ∀ other, other ≠ connId →
      (next.Scheduled other ↔ state.Scheduled other))
    (stage : ∀ other, other ≠ connId →
      state.strand.running = some (.accepting other .emplaced) →
        next.strand.running = state.strand.running) : Registered next where
  next := by rw [nextConnId, accepted, registered.next]
  bound := by simpa only [accepted] using registered.bound
  nodup := by simpa only [accepted] using registered.nodup
  table := table
  objects := by
    intro other
    rw [objects, accepted]
    by_cases same : other = connId
    · subst same
      simp [isAccepted]
    · rw [Function.update_of_ne same]
      exact registered.objects other
  scheduled := by
    intro other isScheduled
    rw [accepted]
    by_cases same : other = connId
    · exact same ▸ isAccepted
    · exact registered.scheduled other ((scheduled other same).mp isScheduled)
  attended := by
    intro other found isFound
    rw [objects] at isFound
    by_cases same : other = connId
    · subst same
      rw [Function.update_self, Option.some.injEq] at isFound
      exact isFound ▸ attended
    · rw [Function.update_of_ne same] at isFound
      rcases registered.attended other found isFound with
        observed | waits | ⟨emplaced, fresh⟩
      · exact Or.inl observed
      · exact Or.inr (Or.inl waits)
      · have stays := stage other same emplaced
        exact Or.inr (Or.inr ⟨stays.trans emplaced, fresh⟩)
  disconnected := by
    intro other found isFound
    rw [objects] at isFound
    by_cases same : other = connId
    · subst same
      rw [Function.update_self, Option.some.injEq] at isFound
      exact isFound ▸ disconnected
    · rw [Function.update_of_ne same] at isFound
      rw [scheduled other same]
      exact registered.disconnected other found isFound

theorem mem_accepted (registered : Registered state) {connId : ConnId}
    {connection : AsioConnection}
    (found : state.objects connId = some connection) :
    connId ∈ state.accepted := by
  apply (registered.objects connId).mp
  rw [found]
  rfl

theorem table_eraseConnection (registered : Registered state) (connId : ConnId) :
    ∀ other, other ∈ (state.eraseConnection connId).connections ↔
      other ∈ state.accepted ∧
        other ∉ (state.eraseConnection connId).erased := by
  intro other
  simp only [Server.eraseConnection, Server.setConnections, List.mem_filter,
    List.mem_append, List.mem_singleton, registered.table other]
  grind

/-- The disconnect of a connection that the server observes. -/
theorem setConnection (registered : Registered state) {connId : ConnId}
    {connection after : AsioConnection} {calls : List ObserverId}
    (found : state.objects connId = some connection)
    (observed : serverObserver ∈ connection.observers)
    (reacts : Reacts connection after calls) (inStrand : Bool) :
    Registered (state.setConnection inStrand connId (after, calls)) := by
  have isAccepted := registered.mem_accepted found
  have stays : serverObserver ∈ after.observers := reacts.observers observed
  have before := registered.disconnected connId connection found
  rcases reacts.socket with ⟨same, rfl⟩ | ⟨_, closed, rfl⟩
  · refine registered.update isAccepted rfl rfl rfl registered.table
      (Or.inl stays) ?_ (fun _ _ => Iff.rfl) (fun _ _ _ => rfl)
    rw [same]
    exact before
  · rw [Server.setConnection, if_pos observed, Server.onDisconnect]
    split
    · refine registered.update isAccepted rfl rfl rfl
        (registered.table_eraseConnection connId) (Or.inl stays) ?_ ?_
        (fun _ _ _ => rfl)
      · simp [closed, Server.Scheduled, Server.eraseConnection]
      · intro other differs
        simp [Server.Scheduled, Server.eraseConnection, Server.setConnections,
          differs]
    · refine registered.update isAccepted rfl rfl rfl registered.table
        (Or.inl stays) ?_ ?_ (fun _ _ _ => rfl)
      · simp [closed, Server.Scheduled]
      · intro other differs
        simp [Server.Scheduled, differs]

/-- An event of a connection that closes nothing. -/
theorem setQuiet (registered : Registered state) {connId : ConnId}
    {connection after : AsioConnection}
    (found : state.objects connId = some connection)
    (socket : after.socketOpen = connection.socketOpen)
    (served : serverObserver ∈ after.observers ∨ WaitsForObserver after)
    (inStrand : Bool) :
    Registered (state.setConnection inStrand connId (after, [])) := by
  have before := registered.disconnected connId connection found
  refine registered.update (registered.mem_accepted found) rfl rfl rfl
    registered.table ?_ ?_ (fun _ _ => Iff.rfl) (fun _ _ _ => rfl)
  · rcases served with observed | waits
    · exact Or.inl observed
    · exact Or.inr (Or.inl waits)
  · rw [socket]
    exact before

theorem ownEvent (registered : Registered state) {connId : ConnId}
    {event : ConnectionEvent} (own : event.isOwn = true)
    (reacted : state.reactConnection connId event = some next) :
    Registered next := by
  obtain ⟨connection, after, calls, found, react, rfl⟩ :=
    Server.reactConnection_eq_some reacted
  rcases registered.attended connId connection found with
    observed | waits | ⟨_, rfl⟩
  · have reacts := AsioConnection.reacts_of_react own react
    exact registered.setConnection found observed reacts false
  · obtain ⟨observed, socket, rfl⟩ := waits.react own react
    exact registered.setQuiet found socket (Or.inl observed) false
  · rw [react_fresh own] at react
    cases react

/-- The loop closes an entry.  No connection is new while it visits the
table. -/
theorem closeNext (registered : Registered state)
    (closes : state.closeNext = some next) : Registered next := by
  unfold Server.closeNext at closes
  split at closes
  · rename_i entries closeCalls connId rest closing shutdown
    split at closes
    · cases closes
    · rename_i connection found
      obtain rfl := Option.some.inj closes
      have visited : Registered { state with
          shutdown := some
            { entries, closeCalls := closeCalls ++ [connId]
              remaining := rest } } :=
        registered.frame rfl rfl rfl registered.table (fun _ => Iff.rfl)
          (fun _ _ => rfl)
      rcases registered.attended connId connection found with
        observed | waits | ⟨emplaced, _⟩
      · exact visited.setConnection found observed
          connection.reacts_dispatchClose true
      · have submits : connection.dispatchClose =
            (connection.submit .closeUnderLock, []) :=
          if_neg waits.not_idle
        have socket : (connection.submit .closeUnderLock).socketOpen =
            connection.socketOpen := rfl
        rw [submits]
        exact visited.setQuiet found socket (Or.inr (waits.submit _)) true
      · rw [closing] at emplaced
        cases emplaced
  · cases closes

theorem loopEnds (registered : Registered state)
    (ends : state.loopEnds = some next) : Registered next := by
  unfold Server.loopEnds at ends
  split at ends
  · rename_i closing shutdown
    obtain rfl := Option.some.inj ends
    refine registered.frame rfl rfl rfl registered.table (fun _ => Iff.rfl) ?_
    intro connId emplaced
    rw [closing] at emplaced
    cases emplaced
  · cases ends

/-- The next stage of a connection that is being accepted. -/
theorem acceptStage (registered : Registered state) {connId : ConnId}
    {stage : AcceptStage}
    (accepting : state.strand.running = some (.accepting connId stage))
    {connection : AsioConnection}
    (found : state.objects connId = some connection) (after : AsioConnection)
    (socket : after.socketOpen = connection.socketOpen)
    (served : serverObserver ∈ after.observers ∨ WaitsForObserver after)
    {running : Option ServerTask} {waitsForAccept : Bool} :
    Registered { state with
      objects := Function.update state.objects connId (some after)
      strand := { state.strand with running }
      waitsForAccept } := by
  have before := registered.disconnected connId connection found
  refine registered.update (registered.mem_accepted found) rfl rfl rfl
    registered.table ?_ ?_ (fun _ _ => Iff.rfl) ?_
  · rcases served with observed | waits
    · exact Or.inl observed
    · exact Or.inr (Or.inl waits)
  · rw [socket]
    exact before
  · intro other differs emplaced
    rw [accepting, Option.some.injEq] at emplaced
    obtain ⟨rfl, _⟩ := ServerTask.accepting.inj emplaced
    exact absurd rfl differs

/-- `AcceptConnections` goes on with the connection that it has made. -/
theorem proceed (registered : Registered state)
    (proceeds : state.proceed = some next) : Registered next := by
  obtain ⟨connId, stage, event, reacted, _, _, accepting, _, call, first,
    reacts, rfl⟩ := Server.proceed_cases proceeds
  obtain ⟨connection, after, calls, found, react, rfl⟩ :=
    Server.reactConnection_eq_some reacts
  obtain ⟨⟨observers, _, _⟩, socket, rfl⟩ :=
    AsioConnection.react_call call react
  refine registered.acceptStage accepting found after socket ?_
  rcases registered.attended connId connection found with
    observed | waits | ⟨emplaced, rfl⟩
  · exact Or.inl (observers observed)
  · exact Or.inr (waits.call call react)
  · rw [accepting, Option.some.injEq] at emplaced
    obtain rfl := first (ServerTask.accepting.inj emplaced).2
    obtain ⟨rfl, _⟩ := Prod.mk.inj (Option.some.inj react)
    exact Or.inr waitsForObserver_fresh

theorem nextConnId_fresh (registered : Registered state)
    (few : state.accepted.length + 1 < UInt64.size) :
    state.nextConnId.toNat = state.accepted.length + 1 ∧
      state.nextConnId ∉ state.accepted := by
  have number : state.nextConnId.toNat = state.accepted.length + 1 := by
    rw [registered.next]
    exact UInt64.toNat_ofNat_of_lt' few
  refine ⟨number, ?_⟩
  intro member
  have bound := registered.bound state.nextConnId member
  omega

/-- A new connection has the next id, and no other one has it. -/
theorem accept (registered : Registered state)
    (few : state.accepted.length + 1 < UInt64.size)
    (free : state.strand.running = none) : Registered state.accept := by
  obtain ⟨number, fresh⟩ := registered.nextConnId_fresh few
  have absent : state.nextConnId ∉ state.connections := by
    intro member
    exact fresh ((registered.table _).mp member).1
  have unscheduled : ¬ state.Scheduled state.nextConnId := by
    intro isScheduled
    exact fresh (registered.scheduled _ isScheduled)
  have accepted : state.accept.accepted =
      state.accepted ++ [state.nextConnId] := rfl
  have objects : state.accept.objects =
      Function.update state.objects state.nextConnId (some {}) := rfl
  refine { next := ?_, bound := ?_, nodup := ?_, table := ?_, objects := ?_
           scheduled := ?_, attended := ?_, disconnected := ?_ }
  · rw [accepted, List.length_append, List.length_singleton,
      UInt64.ofNat_add (state.accepted.length + 1) 1, ← registered.next]
    rfl
  · intro connId member
    rw [accepted, List.length_append, List.length_singleton]
    rcases List.mem_append.mp member with old | new
    · exact Nat.le_succ_of_le (registered.bound connId old)
    · rw [List.mem_singleton.mp new, number]
  · rw [accepted, List.nodup_append_comm, List.singleton_append,
      List.nodup_cons]
    exact ⟨fresh, registered.nodup⟩
  · intro connId
    simp only [Server.accept, Server.setConnections, if_neg absent,
      List.mem_append, List.mem_singleton, registered.table connId]
    constructor
    · rintro (⟨member, kept⟩ | rfl)
      · exact ⟨Or.inl member, kept⟩
      · exact ⟨Or.inr rfl, fun erased => unscheduled (Or.inl erased)⟩
    · rintro ⟨member | rfl, kept⟩
      · exact Or.inl ⟨member, kept⟩
      · exact Or.inr rfl
  · intro connId
    rw [objects, accepted]
    by_cases same : connId = state.nextConnId
    · simp [same]
    · simp [same, registered.objects connId]
  · intro connId isScheduled
    exact List.mem_append_left _ (registered.scheduled connId isScheduled)
  · intro connId connection found
    rw [objects] at found
    by_cases same : connId = state.nextConnId
    · subst same
      rw [Function.update_self, Option.some.injEq] at found
      exact Or.inr (Or.inr ⟨rfl, found.symm⟩)
    · rw [Function.update_of_ne same] at found
      rcases registered.attended connId connection found with
        observed | waits | ⟨emplaced, _⟩
      · exact Or.inl observed
      · exact Or.inr (Or.inl waits)
      · rw [free] at emplaced
        cases emplaced
  · intro connId connection found
    rw [objects] at found
    by_cases same : connId = state.nextConnId
    · subst same
      rw [Function.update_self, Option.some.injEq] at found
      subst found
      constructor
      · exact fun absurd => Bool.noConfusion absurd
      · exact fun isScheduled => absurd isScheduled unscheduled
    · rw [Function.update_of_ne same] at found
      exact registered.disconnected connId connection found

/-- The strand takes a piece of work that erases nothing. -/
theorem popped (registered : Registered state)
    {strand : Strand ServerWork ServerTask} {work : ServerWork}
    (queue : state.strand.queue = work :: strand.queue)
    (free : state.strand.running = none)
    (keeps : ∀ connId, work ≠ .eraseConnection connId) :
    Registered { state with strand } := by
  refine registered.frame rfl rfl rfl registered.table ?_ ?_
  · intro connId
    have other := (keeps connId).symm
    simp [Server.Scheduled, queue, other]
  · intro connId emplaced
    rw [free] at emplaced
    cases emplaced

/-- It takes one that erases a connection. -/
theorem eraseConnection (registered : Registered state)
    {strand : Strand ServerWork ServerTask} {connId : ConnId}
    (queue : state.strand.queue = .eraseConnection connId :: strand.queue)
    (free : state.strand.running = none) :
    Registered (Server.eraseConnection { state with strand } connId) := by
  refine registered.frame rfl rfl rfl
    (registered.table_eraseConnection connId) ?_ ?_
  · intro other
    simp only [Server.Scheduled, Server.eraseConnection, Server.setConnections,
      queue, List.mem_append, List.mem_cons, List.not_mem_nil, or_false,
      ServerWork.eraseConnection.injEq]
    exact or_assoc
  · intro other emplaced
    rw [free] at emplaced
    cases emplaced

theorem shutDown (registered : Registered state) (order : List ConnId)
    (free : state.strand.running = none) :
    Registered (state.shutDown order) := by
  refine registered.frame rfl rfl rfl registered.table (fun _ => Iff.rfl) ?_
  intro connId emplaced
  rw [free] at emplaced
  cases emplaced

/-- By cases on what the handler does that the strand runs. -/
theorem takeWork (registered : Registered state)
    {order : Option (List ConnId)} (taken : state.takeWork order = some next)
    (few : next.accepted.length < UInt64.size) : Registered next := by
  unfold Server.takeWork at taken
  split at taken
  · cases taken
  · rename_i work strand take
    obtain ⟨free, freed, queue⟩ := Strand.take_eq_some take
    rcases Server.handle_cases taken with ⟨connId, rfl, rfl⟩ | ⟨keeps, other⟩
    · exact registered.eraseConnection queue free
    · have popped := registered.popped queue free keeps
      rcases other with ⟨_, _, _, _, rfl⟩ | ⟨_, rfl⟩ | ⟨visited, _, rfl⟩
      · exact popped.frame rfl rfl rfl popped.table (fun _ => Iff.rfl)
          (fun _ _ => rfl)
      · refine popped.accept ?_ freed
        rwa [Server.accept, List.length_append] at few
      · exact popped.shutDown visited freed

/-- Work that arrives at the strand erases nothing. -/
theorem submitted (registered : Registered state) {work : ServerWork}
    (keeps : ∀ connId, work ≠ .eraseConnection connId)
    {waitsForSignal waitsForAccept : Bool} :
    Registered { state with
      waitsForSignal, waitsForAccept
      strand := state.strand.submit work } := by
  refine registered.frame rfl rfl rfl registered.table ?_ (fun _ _ => rfl)
  intro connId
  have other := (keeps connId).symm
  simp [Server.Scheduled, other]

theorem step (registered : Registered state) {event : ServerEvent}
    (stepped : state.step event = some next)
    (few : next.accepted.length < UInt64.size) : Registered next := by
  cases event with
  | signalArrives sig =>
      obtain ⟨_, same⟩ := Option.ite_none_right_eq_some.mp stepped
      obtain rfl := Option.some.inj same
      exact registered.submitted (by simp)
  | acceptCompletes result =>
      obtain ⟨_, same⟩ := Option.ite_none_right_eq_some.mp stepped
      obtain rfl := Option.some.inj same
      exact registered.submitted (by simp)
  | takeWork order => exact registered.takeWork stepped few
  | proceed => exact registered.proceed stepped
  | closeNext => exact registered.closeNext stepped
  | loopEnds => exact registered.loopEnds stepped
  | connection connId event =>
      obtain ⟨own, reacted⟩ := Option.ite_none_right_eq_some.mp stepped
      exact registered.ownEvent own reacted

end Registered

/-! ## Draining -/

/-- A step accepts at most one connection, and none while the server drains. -/
structure Admits (state next : Server) : Prop where
  draining : state.draining = true → next.draining = true
  accepted : next.accepted = state.accepted ∨
    state.draining = false ∧
      ∃ connId, next.accepted = state.accepted ++ [connId]

theorem admits_none {state next : Server}
    (draining : next.draining = state.draining)
    (accepted : next.accepted = state.accepted) : Admits state next :=
  ⟨fun drains => draining.trans drains, Or.inl accepted⟩

namespace Server

variable {state next : Server}

theorem reactConnection_admits {connId : ConnId} {event : ConnectionEvent}
    (reacted : state.reactConnection connId event = some next) :
    Admits state next := by
  obtain ⟨_, after, calls, _, _, rfl⟩ := reactConnection_eq_some reacted
  obtain ⟨_, _, _, _, same⟩ := state.setConnection_frame false connId
    (after, calls)
  rw [same]
  exact admits_none rfl rfl

theorem handle_admits {order : Option (List ConnId)} {work : ServerWork}
    (handled : state.handle order work = some next) : Admits state next := by
  rcases handle_cases handled with ⟨connId, _, rfl⟩ | ⟨_, other⟩
  · exact admits_none rfl rfl
  · rcases other with ⟨_, _, _, drains, rfl⟩ | ⟨notDraining, rfl⟩ | ⟨_, _, rfl⟩
    · exact ⟨drains, Or.inl rfl⟩
    · exact ⟨id, Or.inr ⟨notDraining, state.nextConnId, rfl⟩⟩
    · exact ⟨fun _ => rfl, Or.inl rfl⟩

theorem proceed_admits (proceeds : state.proceed = some next) :
    Admits state next := by
  obtain ⟨_, _, _, _, _, _, _, _, _, _, reacted, rfl⟩ :=
    proceed_cases proceeds
  obtain ⟨draining, accepted⟩ := reactConnection_admits reacted
  exact ⟨draining, accepted⟩

theorem closeNext_admits (closes : state.closeNext = some next) :
    Admits state next := by
  unfold closeNext at closes
  split at closes
  · split at closes
    · cases closes
    · obtain rfl := Option.some.inj closes
      obtain ⟨_, _, _, _, same⟩ := setConnection_frame true _ _
      rw [same]
      exact admits_none rfl rfl
  · cases closes

theorem step_admits {event : ServerEvent}
    (stepped : state.step event = some next) : Admits state next := by
  cases event with
  | signalArrives | acceptCompletes =>
      obtain ⟨_, same⟩ := Option.ite_none_right_eq_some.mp stepped
      obtain rfl := Option.some.inj same
      exact admits_none rfl rfl
  | takeWork order =>
      simp only [step, takeWork] at stepped
      split at stepped
      · cases stepped
      · obtain ⟨draining, accepted⟩ := handle_admits stepped
        exact ⟨draining, accepted⟩
  | proceed => exact proceed_admits stepped
  | closeNext => exact closeNext_admits stepped
  | loopEnds =>
      simp only [step, loopEnds] at stepped
      split at stepped
      · obtain rfl := Option.some.inj stepped
        exact admits_none rfl rfl
      · cases stepped
  | connection connId event =>
      obtain ⟨_, reacted⟩ := Option.ite_none_right_eq_some.mp stepped
      exact reactConnection_admits reacted

end Server

theorem Admits.length_le {state next : Server} (admits : Admits state next) :
    state.accepted.length ≤ next.accepted.length := by
  rcases admits.accepted with same | ⟨_, connId, added⟩
  · rw [same]
  · rw [added, List.length_append]
    exact Nat.le_add_right _ _

/-- What has been accepted stays, however long the server drains. -/
theorem accepted_of_draining {state final : Server} {events : List ServerEvent}
    (draining : state.draining = true)
    (ran : serverRun state events = some final) :
    final.accepted = state.accepted := by
  have preserves : ∀ (before : Server) event next,
      (before.draining = true ∧ before.accepted = state.accepted) →
        before.step event = some next →
          (next.draining = true ∧ next.accepted = state.accepted) := by
    rintro before event next ⟨drains, same⟩ stepped
    have admits := Server.step_admits stepped
    refine ⟨admits.draining drains, ?_⟩
    rcases admits.accepted with unchanged | ⟨notDraining, _⟩
    · exact unchanged.trans same
    · rw [drains] at notDraining
      cases notDraining
  exact (EventRuns.run_invariant preserves ⟨draining, rfl⟩ ran).2

/-! ## Runs -/

/-- The invariant holds as long as the ids have not run out. -/
theorem registered_preserved (before : Server) (event : ServerEvent)
    (next : Server)
    (registered : before.accepted.length < UInt64.size → Registered before)
    (stepped : before.step event = some next)
    (few : next.accepted.length < UInt64.size) : Registered next := by
  have earlier := (Server.step_admits stepped).length_le
  exact (registered (Nat.lt_of_le_of_lt earlier few)).step stepped few

theorem registered_of_run {events : List ServerEvent} {state : Server}
    (ran : serverRun {} events = some state)
    (few : state.accepted.length < UInt64.size) : Registered state :=
  EventRuns.run_invariant registered_preserved (fun _ => registered_initial)
    ran few

/-- The server registers its connections in any run in which it accepts fewer
than `2 ^ 64`. -/
theorem registersConnections (events : List ServerEvent) (state : Server)
    (ran : serverRun {} events = some state)
    (few : state.accepted.length < UInt64.size) : RegistersConnections state := by
  have registered := registered_of_run ran few
  refine ⟨registered.table, registered.nodup, registered.scheduled, ?_, ?_, ?_⟩
  · intro connId connection found stepped
    rcases registered.attended connId connection found with
      observed | waits | ⟨_, rfl⟩
    · exact observed
    · exact absurd stepped waits.readLoop
    · exact absurd rfl stepped.1
  · rintro ⟨_, empty⟩ connId member
    obtain ⟨isAccepted, kept⟩ := (registered.table connId).mp member
    obtain ⟨connection, found⟩ :=
      Option.isSome_iff_exists.mp ((registered.objects connId).mpr isAccepted)
    refine ⟨connection, found, ?_⟩
    by_contra closed
    rw [Bool.not_eq_true] at closed
    rcases (registered.disconnected connId connection found).mp closed with
      erased | queued
    · exact kept erased
    · rw [empty] at queued
      cases queued
  · intro draining events final ran
    exact accepted_of_draining draining ran

/-- The server starts, and accepts one connection, whose first three pieces of
work run. -/
def acceptEvents : List ServerEvent :=
  [.takeWork none, .takeWork none, .acceptCompletes .accepted, .takeWork none,
    .proceed, .connection 1 .takeWork, .proceed, .proceed,
    .connection 1 .finishWork, .connection 1 .takeWork,
    .connection 1 .finishWork, .connection 1 .takeWork,
    .connection 1 .finishWork]

/-- The peer of the connection hangs up. -/
def hangUpEvents : List ServerEvent :=
  acceptEvents ++
    [.connection 1 (.complete .asyncReadSome (some .eof)),
      .connection 1 .takeWork, .connection 1 .finishWork]

theorem registersConnections_hangUp :
    ∃ state, serverRun {} hangUpEvents = some state ∧
      state.accepted = [1] ∧ state.erased = [1] ∧ state.connections = [] ∧
        RegistersConnections state :=
  ⟨_, rfl, rfl, rfl, rfl, registersConnections hangUpEvents _ rfl (by decide)⟩

end Birch

import Birch.ConnectionTeardown

/-!
# The work of a connection

A connection that is called, or whose operations complete, goes through a number
of handlers before it waits again.  This file counts the steps that it has still
to make.  From that, a connection does no more than it is given to do, and one
whose socket operations fail comes to rest, whatever the order in which its
strand and the completions take turns.
-/

namespace Birch

/-! ## Counting steps -/

/-- The steps until the loop waits for a completion that is not an error, if the
operation that it waits for completes. -/
def LoopState.steps : LoopState → Nat
  | .awaiting .asyncReadSome | .awaiting .asyncWrite => 3
  | .awaiting .asyncReceive => 6
  | _ => 0

/-- The steps of a piece of work, with those of the operation that its handler
begins. -/
def ConnectionWork.steps : ConnectionWork → Nat
  | .addObserver _ | .closeUnderLock => 2
  | .runReadLoop => 5
  | .runWriteLoop => 8
  | .completion _ (some _) => 2
  | .completion .asyncReadSome none => 6
  | .completion .asyncReceive none => 5
  | .completion .asyncWrite none => 8

def queueSteps : List ConnectionWork → Nat
  | [] => 0
  | work :: queue => work.steps + queueSteps queue

@[simp]
theorem queueSteps_append (first second : List ConnectionWork) :
    queueSteps (first ++ second) = queueSteps first + queueSteps second := by
  induction first with
  | nil => simp [queueSteps]
  | cons work queue ih =>
      simp only [List.cons_append, queueSteps, ih]
      omega

/-- The steps of the handler that runs, with those of the next read. -/
def runningSteps (readLoop : LoopState) : Option ConnectionWork → Nat
  | none => 0
  | some (.completion .asyncReadSome none) =>
      if readLoop = .resumed then 5 else 1
  | some _ => 1

/-- While the read loop is not in the handler, it does not matter where it is. -/
theorem runningSteps_of_ne {readLoop : LoopState}
    (elsewhere : readLoop ≠ .resumed) (running : Option ConnectionWork) :
    runningSteps readLoop running = runningSteps .ended running := by
  unfold runningSteps
  simp [elsewhere]

namespace AsioConnection

/-- The steps that the connection has still to make if no socket operation
succeeds any more, the destructor included. -/
def stepsLeft (connection : AsioConnection) : Nat :=
  queueSteps connection.strand.queue +
    runningSteps connection.readLoop connection.strand.running +
      connection.readLoop.steps + connection.writeLoop.steps +
        (!connection.destroyed).toNat

end AsioConnection

/-- A step of the strand, a completion, the next read, or the destructor.  What
the handler of a read does in between, message by message, is not counted. -/
def ConnectionEvent.isWork : ConnectionEvent → Bool
  | .takeWork | .finishWork | .complete _ _ | .readAgain | .destroy => true
  | _ => false

/-- A socket operation that succeeds. -/
def ConnectionEvent.succeeds : ConnectionEvent → Bool
  | .complete .asyncReadSome none | .complete .asyncWrite none => true
  | _ => false

/-- What gives the connection something to do. -/
def ConnectionEvent.bringsWork : ConnectionEvent → Bool
  | .addObserver _ | .spawnReadLoop | .spawnWriteLoop | .close => true
  | event => event.succeeds

namespace AsioConnection

variable {connection next : AsioConnection}

theorem closeUnderLock_frame (connection : AsioConnection) :
    ∃ socketOpen writeQueueOpen notices, connection.closeUnderLock.1 =
      { connection with socketOpen, writeQueueOpen, notices } := by
  unfold closeUnderLock
  split <;> exact ⟨_, _, _, rfl⟩

@[simp]
theorem stepsLeft_closeUnderLock :
    connection.closeUnderLock.1.stepsLeft = connection.stepsLeft := by
  obtain ⟨_, _, _, same⟩ := connection.closeUnderLock_frame
  rw [same]
  rfl

/-- A handler that begins costs less than the work that was queued. -/
theorem stepsLeft_handle (work : ConnectionWork)
    (running : connection.strand.running = some work) :
    (connection.handle work).1.stepsLeft + 1 ≤
      queueSteps connection.strand.queue + work.steps +
        connection.readLoop.steps + connection.writeLoop.steps +
          (!connection.destroyed).toNat := by
  cases work with
  | completion operation ec =>
      cases ec with
      | some error =>
          rw [handle, resume, stepsLeft_closeUnderLock]
          cases operation <;>
            simp [stepsLeft, runningSteps, setLoop, running, LoopState.steps,
              ConnectionWork.steps] <;> omega
      | none =>
          cases operation <;>
            simp [handle, resume, stepsLeft, runningSteps, running,
              LoopState.steps, ConnectionWork.steps] <;> omega
  | closeUnderLock =>
      rw [handle, stepsLeft_closeUnderLock]
      simp only [stepsLeft, runningSteps, running, ConnectionWork.steps]
      omega
  | addObserver observer =>
      simp only [handle, stepsLeft, runningSteps, running,
        ConnectionWork.steps]
      omega
  | runReadLoop | runWriteLoop =>
      simp [handle, stepsLeft, runningSteps, running, LoopState.steps,
        ConnectionWork.steps]
      omega

theorem stepsLeft_takeWork {calls : List ObserverId}
    (taken : connection.takeWork = some (next, calls)) :
    next.stepsLeft + 1 ≤ connection.stepsLeft := by
  obtain ⟨⟨work, rest⟩, take, handled⟩ := Option.map_eq_some_iff.mp taken
  obtain ⟨free, _, queue⟩ := Strand.take_eq_some take
  obtain rfl : (handle _ work).1 = next := congrArg Prod.fst handled
  have cheaper := @stepsLeft_handle
    { connection with strand := rest.hold work } work rfl
  have before : connection.stepsLeft = work.steps + queueSteps rest.queue +
      connection.readLoop.steps + connection.writeLoop.steps +
        (!connection.destroyed).toNat := by
    simp [stepsLeft, runningSteps, free, queue, queueSteps]
  have held : queueSteps (rest.hold work).queue = queueSteps rest.queue := rfl
  simp only [held] at cheaper
  omega

theorem stepsLeft_finishWork (finished : connection.finishWork = some next) :
    next.stepsLeft + 1 ≤ connection.stepsLeft := by
  unfold finishWork at finished
  split at finished
  · cases finished
  · rename_i operation error running
    obtain rfl := Option.some.inj finished
    cases operation <;>
      simp [stepsLeft, runningSteps, setLoop, running, Strand.finish,
        LoopState.steps] <;> omega
  · rename_i running
    split at finished
    · cases finished
    · rename_i idle
      obtain rfl := Option.some.inj finished
      simp only [stepsLeft, runningSteps, running, if_neg idle, Strand.finish]
      omega
  · rename_i work harmless success running
    obtain rfl := Option.some.inj finished
    have one :
        runningSteps connection.readLoop connection.strand.running = 1 := by
      rw [running]
      cases work with
      | completion operation ec =>
          cases ec with
          | some error => exact absurd rfl (harmless operation error)
          | none =>
              cases operation with
              | asyncReadSome => exact absurd rfl success
              | asyncReceive | asyncWrite => rfl
      | _ => rfl
    simp only [stepsLeft, one]
    simp only [runningSteps, Strand.finish]
    omega

theorem stepsLeft_submit (work : ConnectionWork) :
    (connection.submit work).stepsLeft =
      connection.stepsLeft + work.steps := by
  simp [submit, stepsLeft, Strand.submit, queueSteps]
  omega

/-- The completion of an operation costs less than the operation, unless it is
a success of the socket. -/
theorem stepsLeft_complete {operation : LoopOperation} {ec : Option IoError}
    (awaits : connection.loop operation = .awaiting operation) :
    ((connection.submit (.completion operation ec)).setLoop operation
        .completed).stepsLeft + 1 ≤
      connection.stepsLeft +
        8 * (ConnectionEvent.complete operation ec).bringsWork.toNat := by
  cases operation with
  | asyncReadSome =>
      have reading : connection.readLoop = .awaiting .asyncReadSome := awaits
      cases ec <;>
        simp [submit, setLoop, stepsLeft, Strand.submit, queueSteps, reading,
          runningSteps_of_ne, LoopState.steps, ConnectionWork.steps,
          ConnectionEvent.bringsWork, ConnectionEvent.succeeds] <;> omega
  | asyncReceive | asyncWrite =>
      have writing : connection.writeLoop = .awaiting _ := awaits
      cases ec <;>
        simp [submit, setLoop, stepsLeft, Strand.submit, queueSteps, writing,
          LoopState.steps, ConnectionWork.steps, ConnectionEvent.bringsWork,
          ConnectionEvent.succeeds] <;> omega

/-- A step of the connection costs one, and what it is given to do brings at
most eight. -/
theorem stepsLeft_step {event : ConnectionEvent}
    (stepped : connection.step event = some next) :
    next.stepsLeft + event.isWork.toNat ≤
      connection.stepsLeft + 8 * event.bringsWork.toNat := by
  obtain ⟨⟨_, calls⟩, reacted, rfl⟩ := Option.map_eq_some_iff.mp stepped
  cases event with
  | takeWork => exact stepsLeft_takeWork reacted
  | finishWork =>
      obtain ⟨finished, finish, same⟩ := Option.map_eq_some_iff.mp reacted
      obtain ⟨rfl, _⟩ := Prod.mk.inj same
      exact stepsLeft_finishWork finish
  | retain | release =>
      obtain ⟨_, same⟩ := Option.ite_none_right_eq_some.mp reacted
      obtain ⟨rfl, _⟩ := Prod.mk.inj (Option.some.inj same)
      exact Nat.le_refl _
  | notifyMessage =>
      obtain ⟨_, same⟩ := Option.ite_none_right_eq_some.mp reacted
      obtain ⟨rfl, _⟩ := Prod.mk.inj (Option.some.inj same)
      exact Nat.le_refl _
  | addObserver _ | close =>
      obtain ⟨_, same⟩ := Option.ite_none_right_eq_some.mp reacted
      obtain ⟨rfl, _⟩ := Prod.mk.inj (Option.some.inj same)
      rw [stepsLeft_submit]
      simp [ConnectionWork.steps, ConnectionEvent.isWork,
        ConnectionEvent.bringsWork]
  | spawnReadLoop =>
      obtain ⟨⟨_, unspawned⟩, same⟩ := Option.ite_none_right_eq_some.mp reacted
      obtain ⟨rfl, _⟩ := Prod.mk.inj (Option.some.inj same)
      simp [submit, stepsLeft, Strand.submit, queueSteps, unspawned,
        runningSteps_of_ne, LoopState.steps, ConnectionWork.steps,
        ConnectionEvent.isWork, ConnectionEvent.bringsWork]
      omega
  | spawnWriteLoop =>
      obtain ⟨_, same⟩ := Option.ite_none_right_eq_some.mp reacted
      obtain ⟨rfl, _⟩ := Prod.mk.inj (Option.some.inj same)
      simp [submit, stepsLeft, Strand.submit, queueSteps, LoopState.steps,
        ConnectionWork.steps, ConnectionEvent.isWork,
        ConnectionEvent.bringsWork]
      omega
  | complete operation ec =>
      obtain ⟨awaits, same⟩ := Option.ite_none_right_eq_some.mp reacted
      obtain ⟨rfl, _⟩ := Prod.mk.inj (Option.some.inj same)
      exact stepsLeft_complete awaits
  | closeInNotification =>
      obtain ⟨_, same⟩ := Option.ite_none_right_eq_some.mp reacted
      obtain rfl : connection.closeUnderLock.1 = _ :=
        congrArg Prod.fst (Option.some.inj same)
      rw [stepsLeft_closeUnderLock]
      simp [ConnectionEvent.isWork, ConnectionEvent.bringsWork,
        ConnectionEvent.succeeds]
  | readAgain =>
      obtain ⟨⟨running, resumed⟩, same⟩ :=
        Option.ite_none_right_eq_some.mp reacted
      obtain ⟨rfl, _⟩ := Prod.mk.inj (Option.some.inj same)
      simp only [stepsLeft, runningSteps, running, resumed, reduceCtorEq,
        if_true, if_false, LoopState.steps, ConnectionEvent.isWork,
        ConnectionEvent.bringsWork, ConnectionEvent.succeeds, Bool.toNat_true,
        Bool.toNat_false]
      omega
  | destroy =>
      obtain ⟨⟨_, alive⟩, same⟩ := Option.ite_none_right_eq_some.mp reacted
      obtain ⟨rfl, _⟩ := Prod.mk.inj (Option.some.inj same)
      obtain ⟨_, _, _, closed⟩ := connection.closeUnderLock_frame
      rw [closed]
      simp [stepsLeft, alive, ConnectionEvent.isWork]

theorem countP_isWork_le {events : List ConnectionEvent}
    (ran : connectionRun connection events = some next) :
    events.countP ConnectionEvent.isWork + next.stepsLeft ≤
      connection.stepsLeft + 8 * events.countP ConnectionEvent.bringsWork := by
  have bounded : ∀ (state : AsioConnection) event next, True →
      state.step event = some next → True ∧
        next.stepsLeft + event.isWork.toNat ≤
          state.stepsLeft + 8 * event.bringsWork.toNat :=
    fun _ _ _ _ stepped => ⟨trivial, stepsLeft_step stepped⟩
  exact EventRuns.countP_le_measure bounded trivial ran

end AsioConnection

/-- A connection does not go on by itself: each call of it, and each operation
of the socket that succeeds, brings it at most eight steps. -/
theorem connection_worksAsBrought (events : List ConnectionEvent)
    (connection : AsioConnection)
    (ran : connectionRun {} events = some connection) :
    events.countP ConnectionEvent.isWork ≤
      1 + 8 * events.countP ConnectionEvent.bringsWork :=
  le_trans (Nat.le_add_right _ _) (AsioConnection.countP_isWork_le ran)

theorem connection_worksAsBrought_hungUp :
    hungUpEvents.countP ConnectionEvent.isWork ≤
      1 + 8 * hungUpEvents.countP ConnectionEvent.bringsWork :=
  connection_worksAsBrought hungUpEvents _ rfl

/-! ## Where the loops are -/

/-- Wherever a loop is that has not ended, an operation is in flight, or
something on the strand will go on with it. -/
structure LoopTended (entry : ConnectionWork) (own : LoopOperation → Prop)
    (loop : LoopState) (strand : Strand ConnectionWork ConnectionWork) :
    Prop where
  spawned : loop = .spawned → entry ∈ strand.queue
  awaiting : ∀ operation, loop = .awaiting operation → own operation
  completed : loop = .completed → ∃ operation ec, own operation ∧
    .completion operation ec ∈ strand.queue
  resumed : loop = .resumed → ∃ operation ec, own operation ∧
    strand.running = some (.completion operation ec) ∧
      (operation ≠ .asyncReadSome → ec ≠ none)

namespace LoopTended

variable {entry : ConnectionWork} {own : LoopOperation → Prop}
  {loop : LoopState} {strand rest : Strand ConnectionWork ConnectionWork}

theorem atRest (rests : loop = .unspawned ∨ loop = .ended) :
    LoopTended entry own loop strand := by
  rcases rests with rfl | rfl <;>
    exact ⟨by simp, by simp, by simp, by simp⟩

theorem waiting {operation : LoopOperation} (isOwn : own operation) :
    LoopTended entry own (.awaiting operation) strand where
  spawned := by simp
  awaiting := by
    rintro _ ⟨⟩
    exact isOwn
  completed := by simp
  resumed := by simp

theorem resuming {operation : LoopOperation} {ec : Option IoError}
    (isOwn : own operation)
    (running : strand.running = some (.completion operation ec))
    (failed : operation ≠ .asyncReadSome → ec ≠ none) :
    LoopTended entry own .resumed strand where
  spawned := by simp
  awaiting := by simp
  completed := by simp
  resumed := fun _ => ⟨operation, ec, isOwn, running, failed⟩

theorem submit (tended : LoopTended entry own loop strand)
    (work : ConnectionWork) :
    LoopTended entry own loop (strand.submit work) where
  spawned := fun spawned => List.mem_append_left _ (tended.spawned spawned)
  awaiting := tended.awaiting
  completed := by
    intro completed
    obtain ⟨operation, ec, isOwn, queued⟩ := tended.completed completed
    exact ⟨operation, ec, isOwn, List.mem_append_left _ queued⟩
  resumed := tended.resumed

theorem submitEntry : LoopTended entry own .spawned (strand.submit entry) where
  spawned := fun _ => List.mem_append_right _ (List.mem_singleton_self _)
  awaiting := by simp
  completed := by simp
  resumed := by simp

theorem submitCompletion {operation : LoopOperation} (isOwn : own operation)
    (ec : Option IoError) :
    LoopTended entry own .completed
      (strand.submit (.completion operation ec)) where
  spawned := by simp
  awaiting := by simp
  completed := fun _ => ⟨operation, ec, isOwn,
    List.mem_append_right _ (List.mem_singleton_self _)⟩
  resumed := by simp

/-- The strand takes a piece of work that is not for this loop. -/
theorem take (tended : LoopTended entry own loop strand)
    {work : ConnectionWork} (taken : strand.take = some (work, rest))
    (other : work ≠ entry)
    (foreign : ∀ operation ec, work = .completion operation ec →
      ¬ own operation) :
    LoopTended entry own loop (rest.hold work) := by
  obtain ⟨free, _, queue⟩ := Strand.take_eq_some taken
  refine ⟨?_, tended.awaiting, ?_, ?_⟩
  · intro spawned
    have queued := tended.spawned spawned
    rw [queue] at queued
    exact (List.mem_cons.mp queued).resolve_left (Ne.symm other)
  · intro completed
    obtain ⟨operation, ec, isOwn, queued⟩ := tended.completed completed
    rw [queue] at queued
    refine ⟨operation, ec, isOwn, ?_⟩
    exact (List.mem_cons.mp queued).resolve_left
      fun same => foreign operation ec same.symm isOwn
  · intro resumed
    obtain ⟨_, _, _, running, _⟩ := tended.resumed resumed
    rw [free] at running
    cases running

theorem finish (tended : LoopTended entry own loop strand)
    (elsewhere : loop ≠ .resumed) :
    LoopTended entry own loop strand.finish where
  spawned := tended.spawned
  awaiting := tended.awaiting
  completed := tended.completed
  resumed := fun resumed => absurd resumed elsewhere

end LoopTended

/-- Both loops are tended. -/
structure Tended (connection : AsioConnection) : Prop where
  reading : LoopTended .runReadLoop (· = .asyncReadSome) connection.readLoop
    connection.strand
  writing : LoopTended .runWriteLoop (· ≠ .asyncReadSome) connection.writeLoop
    connection.strand

theorem tended_initial : Tended {} :=
  ⟨.atRest (Or.inl rfl), .atRest (Or.inl rfl)⟩

namespace Tended

variable {connection next : AsioConnection} {calls : List ObserverId}

theorem closeUnderLock (tended : Tended connection) :
    Tended connection.closeUnderLock.1 := by
  obtain ⟨_, _, _, same⟩ := connection.closeUnderLock_frame
  rw [same]
  exact ⟨tended.reading, tended.writing⟩

/-- By cases on the work: the loop that it belongs to goes on, and the other
one stays where it is. -/
theorem takeWork (tended : Tended connection)
    (taken : connection.takeWork = some (next, calls)) : Tended next := by
  obtain ⟨⟨work, rest⟩, take, handled⟩ := Option.map_eq_some_iff.mp taken
  obtain rfl : (AsioConnection.handle _ work).1 = next :=
    congrArg Prod.fst handled
  cases work with
  | addObserver observer =>
      exact ⟨tended.reading.take take (by simp) (by simp),
        tended.writing.take take (by simp) (by simp)⟩
  | closeUnderLock =>
      have held : Tended { connection with
          strand := rest.hold .closeUnderLock } :=
        ⟨tended.reading.take take (by simp) (by simp),
          tended.writing.take take (by simp) (by simp)⟩
      exact held.closeUnderLock
  | runReadLoop =>
      exact ⟨.waiting rfl, tended.writing.take take (by simp) (by simp)⟩
  | runWriteLoop =>
      exact ⟨tended.reading.take take (by simp) (by simp), .waiting (by simp)⟩
  | completion operation ec =>
      by_cases reads : operation = .asyncReadSome
      · subst reads
        have writing := tended.writing.take take (by simp) (by simp)
        cases ec with
        | some error =>
            have held : Tended { connection with
                strand := rest.hold (.completion .asyncReadSome (some error))
                readLoop := .resumed } :=
              ⟨.resuming rfl rfl (by simp), writing⟩
            exact held.closeUnderLock
        | none => exact ⟨.resuming rfl rfl (by simp), writing⟩
      · have reading := tended.reading.take take (by simp) (by simpa using reads)
        cases ec with
        | some error =>
            have held : Tended { connection with
                strand := rest.hold (.completion operation (some error))
                writeLoop := .resumed } :=
              ⟨reading, .resuming reads rfl (by simp)⟩
            cases operation with
            | asyncReadSome => exact absurd rfl reads
            | asyncReceive | asyncWrite => exact held.closeUnderLock
        | none =>
            cases operation with
            | asyncReadSome => exact absurd rfl reads
            | asyncReceive | asyncWrite =>
                exact ⟨reading, .waiting (by simp)⟩

/-- The handler that returns is one that no loop goes on in, except for the one
that ends. -/
theorem finishWork (tended : Tended connection)
    (finished : connection.finishWork = some next) : Tended next := by
  obtain ⟨reading, writing⟩ := tended
  unfold AsioConnection.finishWork at finished
  split at finished
  · cases finished
  · rename_i operation error running
    obtain rfl := Option.some.inj finished
    by_cases reads : operation = .asyncReadSome
    · subst reads
      refine ⟨.atRest (Or.inr rfl), writing.finish ?_⟩
      intro resumed
      obtain ⟨_, _, isOwn, same, _⟩ := writing.resumed resumed
      rw [running] at same
      obtain ⟨rfl, _⟩ := ConnectionWork.completion.inj (Option.some.inj same)
      exact isOwn rfl
    · have elsewhere : connection.readLoop ≠ .resumed := by
        intro resumed
        obtain ⟨_, _, isOwn, same, _⟩ := reading.resumed resumed
        rw [running] at same
        obtain ⟨rfl, _⟩ := ConnectionWork.completion.inj (Option.some.inj same)
        exact reads isOwn
      cases operation with
      | asyncReadSome => exact absurd rfl reads
      | asyncReceive | asyncWrite =>
          exact ⟨reading.finish elsewhere, .atRest (Or.inr rfl)⟩
  · rename_i running
    split at finished
    · cases finished
    · rename_i elsewhere
      obtain rfl := Option.some.inj finished
      refine ⟨reading.finish elsewhere, writing.finish ?_⟩
      intro resumed
      obtain ⟨_, _, isOwn, same, _⟩ := writing.resumed resumed
      rw [running] at same
      obtain ⟨rfl, _⟩ := ConnectionWork.completion.inj (Option.some.inj same)
      exact isOwn rfl
  · rename_i work harmless success running
    obtain rfl := Option.some.inj finished
    refine ⟨reading.finish ?_, writing.finish ?_⟩
    · intro resumed
      obtain ⟨operation, ec, isOwn, same, _⟩ := reading.resumed resumed
      obtain rfl := Option.some.inj (running.symm.trans same)
      subst isOwn
      cases ec with
      | some error => exact harmless _ _ rfl
      | none => exact success rfl
    · intro resumed
      obtain ⟨operation, ec, isOwn, same, failed⟩ := writing.resumed resumed
      obtain rfl := Option.some.inj (running.symm.trans same)
      cases ec with
      | some error => exact harmless _ _ rfl
      | none => exact failed isOwn rfl

theorem step (tended : Tended connection) {event : ConnectionEvent}
    (stepped : connection.step event = some next) : Tended next := by
  obtain ⟨⟨_, calls⟩, reacted, rfl⟩ := Option.map_eq_some_iff.mp stepped
  obtain ⟨reading, writing⟩ := tended
  cases event with
  | takeWork => exact takeWork ⟨reading, writing⟩ reacted
  | finishWork =>
      obtain ⟨finished, finish, same⟩ := Option.map_eq_some_iff.mp reacted
      obtain ⟨rfl, _⟩ := Prod.mk.inj same
      exact finishWork ⟨reading, writing⟩ finish
  | retain | release | notifyMessage =>
      obtain ⟨_, same⟩ := Option.ite_none_right_eq_some.mp reacted
      obtain ⟨rfl, _⟩ := Prod.mk.inj (Option.some.inj same)
      exact ⟨reading, writing⟩
  | addObserver _ | close =>
      obtain ⟨_, same⟩ := Option.ite_none_right_eq_some.mp reacted
      obtain ⟨rfl, _⟩ := Prod.mk.inj (Option.some.inj same)
      exact ⟨reading.submit _, writing.submit _⟩
  | spawnReadLoop =>
      obtain ⟨_, same⟩ := Option.ite_none_right_eq_some.mp reacted
      obtain ⟨rfl, _⟩ := Prod.mk.inj (Option.some.inj same)
      exact ⟨.submitEntry, writing.submit _⟩
  | spawnWriteLoop =>
      obtain ⟨_, same⟩ := Option.ite_none_right_eq_some.mp reacted
      obtain ⟨rfl, _⟩ := Prod.mk.inj (Option.some.inj same)
      exact ⟨reading.submit _, .submitEntry⟩
  | complete operation ec =>
      obtain ⟨_, same⟩ := Option.ite_none_right_eq_some.mp reacted
      obtain ⟨rfl, _⟩ := Prod.mk.inj (Option.some.inj same)
      cases operation with
      | asyncReadSome =>
          refine ⟨?_, writing.submit _⟩
          apply LoopTended.submitCompletion
          rfl
      | asyncReceive | asyncWrite =>
          exact ⟨reading.submit _, .submitCompletion (by simp) ec⟩
  | closeInNotification =>
      obtain ⟨_, same⟩ := Option.ite_none_right_eq_some.mp reacted
      obtain rfl : connection.closeUnderLock.1 = _ :=
        congrArg Prod.fst (Option.some.inj same)
      exact closeUnderLock ⟨reading, writing⟩
  | readAgain =>
      obtain ⟨_, same⟩ := Option.ite_none_right_eq_some.mp reacted
      obtain ⟨rfl, _⟩ := Prod.mk.inj (Option.some.inj same)
      exact ⟨.waiting rfl, writing⟩
  | destroy =>
      obtain ⟨_, same⟩ := Option.ite_none_right_eq_some.mp reacted
      obtain ⟨rfl, _⟩ := Prod.mk.inj (Option.some.inj same)
      have closed := closeUnderLock ⟨reading, writing⟩
      exact ⟨closed.reading, closed.writing⟩

end Tended

theorem tended_of_run {events : List ConnectionEvent}
    {connection : AsioConnection}
    (ran : connectionRun {} events = some connection) : Tended connection :=
  EventRuns.run_invariant (fun _ _ _ tended stepped => tended.step stepped)
    tended_initial ran

/-! ## Loops that are not spawned -/

/-- Nothing on the strand belongs to the loop. -/
structure LoopUntouched (entry : ConnectionWork) (own : LoopOperation → Prop)
    (strand : Strand ConnectionWork ConnectionWork) : Prop where
  entry : entry ∉ strand.queue
  queued : ∀ operation ec, own operation →
    .completion operation ec ∉ strand.queue
  running : ∀ operation ec, own operation →
    strand.running ≠ some (.completion operation ec)

namespace LoopUntouched

variable {entry : ConnectionWork} {own : LoopOperation → Prop}
  {strand rest : Strand ConnectionWork ConnectionWork} {work : ConnectionWork}

theorem submit (untouched : LoopUntouched entry own strand)
    (other : work ≠ entry)
    (foreign : ∀ operation ec, own operation →
      work ≠ .completion operation ec) :
    LoopUntouched entry own (strand.submit work) where
  entry := by
    intro member
    rcases List.mem_append.mp member with old | new
    · exact untouched.entry old
    · exact other (List.mem_singleton.mp new).symm
  queued := by
    intro operation ec isOwn member
    rcases List.mem_append.mp member with old | new
    · exact untouched.queued operation ec isOwn old
    · exact foreign operation ec isOwn (List.mem_singleton.mp new).symm
  running := untouched.running

/-- The strand takes its next piece of work, which is not for the loop. -/
theorem take (untouched : LoopUntouched entry own strand)
    (taken : strand.take = some (work, rest)) :
    LoopUntouched entry own (rest.hold work) := by
  obtain ⟨_, _, queue⟩ := Strand.take_eq_some taken
  obtain ⟨noEntry, noCompletion, _⟩ := untouched
  rw [queue] at noEntry noCompletion
  refine ⟨fun member => noEntry (List.mem_cons_of_mem _ member),
    fun operation ec isOwn member =>
      noCompletion operation ec isOwn (List.mem_cons_of_mem _ member), ?_⟩
  intro operation ec isOwn running
  obtain rfl := Option.some.inj running
  exact noCompletion operation ec isOwn List.mem_cons_self

theorem finish (untouched : LoopUntouched entry own strand) :
    LoopUntouched entry own strand.finish :=
  ⟨untouched.entry, untouched.queued, by simp⟩

/-- What the strand takes is not what starts the loop, or goes on with it. -/
theorem not_taken (untouched : LoopUntouched entry own strand)
    (taken : strand.take = some (work, rest)) :
    work ≠ entry ∧ ∀ operation ec, own operation →
      work ≠ .completion operation ec := by
  obtain ⟨_, _, queue⟩ := Strand.take_eq_some taken
  obtain ⟨noEntry, noCompletion, _⟩ := untouched
  rw [queue] at noEntry noCompletion
  constructor
  · rintro rfl
    exact noEntry List.mem_cons_self
  · rintro operation ec isOwn rfl
    exact noCompletion operation ec isOwn List.mem_cons_self

end LoopUntouched

/-- A loop that is not spawned is not on the strand either. -/
structure SpawnedFirst (connection : AsioConnection) : Prop where
  reading : connection.readLoop = .unspawned →
    LoopUntouched .runReadLoop (· = .asyncReadSome) connection.strand
  writing : connection.writeLoop = .unspawned →
    LoopUntouched .runWriteLoop (· ≠ .asyncReadSome) connection.strand

/-- The same loops are spawned as before. -/
def SpawnsNothing (connection next : AsioConnection) : Prop :=
  (next.readLoop = .unspawned ↔ connection.readLoop = .unspawned) ∧
    (next.writeLoop = .unspawned ↔ connection.writeLoop = .unspawned)

theorem spawnedFirst_initial : SpawnedFirst {} :=
  ⟨fun _ => ⟨by simp, by simp, by simp⟩, fun _ => ⟨by simp, by simp, by simp⟩⟩

namespace SpawnedFirst

variable {connection next : AsioConnection} {calls : List ObserverId}

theorem closeUnderLock (spawned : SpawnedFirst connection) :
    SpawnedFirst connection.closeUnderLock.1 ∧
      SpawnsNothing connection connection.closeUnderLock.1 := by
  obtain ⟨_, _, _, same⟩ := connection.closeUnderLock_frame
  rw [same]
  exact ⟨⟨spawned.reading, spawned.writing⟩, Iff.rfl, Iff.rfl⟩

/-- By cases on the work: a loop that it goes on with has been spawned. -/
theorem takeWork (spawned : SpawnedFirst connection)
    (taken : connection.takeWork = some (next, calls)) :
    SpawnedFirst next ∧ SpawnsNothing connection next := by
  obtain ⟨⟨work, rest⟩, take, handled⟩ := Option.map_eq_some_iff.mp taken
  obtain rfl : (AsioConnection.handle _ work).1 = next :=
    congrArg Prod.fst handled
  have reading := fun unspawned => (spawned.reading unspawned).take take
  have writing := fun unspawned => (spawned.writing unspawned).take take
  have reads := fun unspawned => (spawned.reading unspawned).not_taken take
  have writes := fun unspawned => (spawned.writing unspawned).not_taken take
  cases work with
  | addObserver observer => exact ⟨⟨reading, writing⟩, Iff.rfl, Iff.rfl⟩
  | closeUnderLock =>
      have held : SpawnedFirst { connection with
          strand := rest.hold .closeUnderLock } := ⟨reading, writing⟩
      exact held.closeUnderLock
  | runReadLoop =>
      have isSpawned : connection.readLoop ≠ .unspawned :=
        fun unspawned => (reads unspawned).1 rfl
      refine ⟨⟨by simp [AsioConnection.handle], writing⟩, ?_, Iff.rfl⟩
      simp [AsioConnection.handle, isSpawned]
  | runWriteLoop =>
      have isSpawned : connection.writeLoop ≠ .unspawned :=
        fun unspawned => (writes unspawned).1 rfl
      refine ⟨⟨reading, by simp [AsioConnection.handle]⟩, Iff.rfl, ?_⟩
      simp [AsioConnection.handle, isSpawned]
  | completion operation ec =>
      cases operation with
      | asyncReadSome =>
          have isSpawned : connection.readLoop ≠ .unspawned :=
            fun unspawned => (reads unspawned).2 _ ec rfl rfl
          have held : SpawnedFirst { connection with
              strand := rest.hold (.completion .asyncReadSome ec)
              readLoop := .resumed } := ⟨by simp, writing⟩
          have same : SpawnsNothing connection { connection with
              strand := rest.hold (.completion .asyncReadSome ec)
              readLoop := .resumed } := ⟨by simp [isSpawned], Iff.rfl⟩
          cases ec with
          | none => exact ⟨held, same⟩
          | some error =>
              obtain ⟨closed, spawns⟩ := held.closeUnderLock
              exact ⟨closed, spawns.1.trans same.1, spawns.2.trans same.2⟩
      | asyncReceive | asyncWrite =>
          have isSpawned : connection.writeLoop ≠ .unspawned :=
            fun unspawned => (writes unspawned).2 _ ec (by simp) rfl
          cases ec with
          | none =>
              refine ⟨⟨reading, ?_⟩, Iff.rfl, ?_⟩ <;>
                simp [AsioConnection.handle, AsioConnection.resume, isSpawned]
          | some error =>
              have held : SpawnedFirst { connection with
                  strand := rest.hold (.completion _ (some error))
                  writeLoop := .resumed } := ⟨reading, by simp⟩
              obtain ⟨closed, spawns⟩ := held.closeUnderLock
              refine ⟨closed, spawns.1, spawns.2.trans ?_⟩
              simp [isSpawned]

theorem finishWork (spawned : SpawnedFirst connection)
    (finished : connection.finishWork = some next) :
    SpawnedFirst next ∧ SpawnsNothing connection next := by
  have reading := fun unspawned => (spawned.reading unspawned).finish
  have writing := fun unspawned => (spawned.writing unspawned).finish
  unfold AsioConnection.finishWork at finished
  split at finished
  · cases finished
  · rename_i operation error running
    obtain rfl := Option.some.inj finished
    cases operation with
    | asyncReadSome =>
        have isSpawned : connection.readLoop ≠ .unspawned := by
          intro unspawned
          exact (spawned.reading unspawned).running _ _ rfl running
        refine ⟨⟨by simp [AsioConnection.setLoop], writing⟩, ?_, Iff.rfl⟩
        simp [AsioConnection.setLoop, isSpawned]
    | asyncReceive | asyncWrite =>
        have isSpawned : connection.writeLoop ≠ .unspawned := by
          intro unspawned
          exact (spawned.writing unspawned).running _ _ (by simp) running
        refine ⟨⟨reading, by simp [AsioConnection.setLoop]⟩, Iff.rfl, ?_⟩
        simp [AsioConnection.setLoop, isSpawned]
  · split at finished
    · cases finished
    · obtain rfl := Option.some.inj finished
      exact ⟨⟨reading, writing⟩, Iff.rfl, Iff.rfl⟩
  · obtain rfl := Option.some.inj finished
    exact ⟨⟨reading, writing⟩, Iff.rfl, Iff.rfl⟩

theorem complete (spawned : SpawnedFirst connection)
    {operation : LoopOperation} (ec : Option IoError)
    (awaits : connection.loop operation = .awaiting operation) :
    SpawnedFirst ((connection.submit (.completion operation ec)).setLoop
        operation .completed) ∧
      SpawnsNothing connection
        ((connection.submit (.completion operation ec)).setLoop operation
          .completed) := by
  cases operation with
  | asyncReadSome =>
      have awaits : connection.readLoop = .awaiting .asyncReadSome := awaits
      have foreign : ∀ other error, other ≠ LoopOperation.asyncReadSome →
          ConnectionWork.completion .asyncReadSome ec ≠
            .completion other error := by
        rintro _ _ differs ⟨⟩
        exact differs rfl
      refine ⟨⟨by simp [AsioConnection.setLoop], fun unspawned =>
        (spawned.writing unspawned).submit (by simp) foreign⟩, ?_, Iff.rfl⟩
      simp [AsioConnection.setLoop, awaits]
  | asyncReceive | asyncWrite =>
      have awaits : connection.writeLoop = .awaiting _ := awaits
      refine ⟨⟨fun unspawned =>
        (spawned.reading unspawned).submit (by simp) (by simp),
          by simp [AsioConnection.setLoop]⟩, Iff.rfl, ?_⟩
      simp [AsioConnection.setLoop, awaits]

/-- Only the calls that spawn a loop change which loops are spawned. -/
theorem react (spawned : SpawnedFirst connection) {event : ConnectionEvent}
    (reacted : connection.react event = some (next, calls)) :
    SpawnedFirst next ∧
      (event ≠ .spawnReadLoop → event ≠ .spawnWriteLoop →
        SpawnsNothing connection next) := by
  obtain ⟨reading, writing⟩ := spawned
  cases event with
  | takeWork =>
      obtain ⟨holds, same⟩ := takeWork ⟨reading, writing⟩ reacted
      exact ⟨holds, fun _ _ => same⟩
  | finishWork =>
      obtain ⟨finished, finish, same⟩ := Option.map_eq_some_iff.mp reacted
      obtain ⟨rfl, _⟩ := Prod.mk.inj same
      obtain ⟨holds, same⟩ := finishWork ⟨reading, writing⟩ finish
      exact ⟨holds, fun _ _ => same⟩
  | retain | release | notifyMessage =>
      obtain ⟨_, same⟩ := Option.ite_none_right_eq_some.mp reacted
      obtain ⟨rfl, _⟩ := Prod.mk.inj (Option.some.inj same)
      exact ⟨⟨reading, writing⟩, fun _ _ => ⟨Iff.rfl, Iff.rfl⟩⟩
  | addObserver _ | close =>
      obtain ⟨_, same⟩ := Option.ite_none_right_eq_some.mp reacted
      obtain ⟨rfl, _⟩ := Prod.mk.inj (Option.some.inj same)
      exact ⟨⟨fun unspawned => (reading unspawned).submit (by simp) (by simp),
        fun unspawned => (writing unspawned).submit (by simp) (by simp)⟩,
          fun _ _ => ⟨Iff.rfl, Iff.rfl⟩⟩
  | spawnReadLoop =>
      obtain ⟨_, same⟩ := Option.ite_none_right_eq_some.mp reacted
      obtain ⟨rfl, _⟩ := Prod.mk.inj (Option.some.inj same)
      exact ⟨⟨by simp,
        fun unspawned => (writing unspawned).submit (by simp) (by simp)⟩,
          fun other => absurd rfl other⟩
  | spawnWriteLoop =>
      obtain ⟨_, same⟩ := Option.ite_none_right_eq_some.mp reacted
      obtain ⟨rfl, _⟩ := Prod.mk.inj (Option.some.inj same)
      exact ⟨⟨fun unspawned => (reading unspawned).submit (by simp) (by simp),
        by simp⟩, fun _ other => absurd rfl other⟩
  | complete operation ec =>
      obtain ⟨awaits, same⟩ := Option.ite_none_right_eq_some.mp reacted
      obtain ⟨rfl, _⟩ := Prod.mk.inj (Option.some.inj same)
      obtain ⟨holds, same⟩ := complete ⟨reading, writing⟩ ec awaits
      exact ⟨holds, fun _ _ => same⟩
  | closeInNotification =>
      obtain ⟨_, same⟩ := Option.ite_none_right_eq_some.mp reacted
      obtain rfl : connection.closeUnderLock.1 = next :=
        congrArg Prod.fst (Option.some.inj same)
      obtain ⟨holds, same⟩ := closeUnderLock ⟨reading, writing⟩
      exact ⟨holds, fun _ _ => same⟩
  | readAgain =>
      obtain ⟨⟨_, resumed⟩, same⟩ := Option.ite_none_right_eq_some.mp reacted
      obtain ⟨rfl, _⟩ := Prod.mk.inj (Option.some.inj same)
      refine ⟨⟨by simp, writing⟩, fun _ _ => ⟨?_, Iff.rfl⟩⟩
      simp [resumed]
  | destroy =>
      obtain ⟨_, same⟩ := Option.ite_none_right_eq_some.mp reacted
      obtain ⟨rfl, _⟩ := Prod.mk.inj (Option.some.inj same)
      obtain ⟨holds, same⟩ := closeUnderLock ⟨reading, writing⟩
      exact ⟨⟨holds.reading, holds.writing⟩, fun _ _ => same⟩

end SpawnedFirst

theorem spawnedFirst_of_run {events : List ConnectionEvent}
    {connection : AsioConnection}
    (ran : connectionRun {} events = some connection) :
    SpawnedFirst connection := by
  have preserves : ∀ (state : AsioConnection) event next,
      SpawnedFirst state → state.step event = some next →
        SpawnedFirst next := by
    intro state event next spawned stepped
    obtain ⟨⟨_, calls⟩, reacted, rfl⟩ := Option.map_eq_some_iff.mp stepped
    exact (spawned.react reacted).1
  exact EventRuns.run_invariant preserves spawnedFirst_initial ran

/-! ## Coming to rest -/

/-- Nothing is left of the connection: each loop has ended or was never spawned,
the strand is idle, one disconnect has been notified if a loop has ended, and the
destructor has run if nothing outside refers to the connection. -/
structure WoundDown (connection : AsioConnection) : Prop where
  idle : connection.strand.Idle
  readLoop : connection.readLoop = .unspawned ∨ connection.readLoop = .ended
  writeLoop : connection.writeLoop = .unspawned ∨ connection.writeLoop = .ended
  disconnected :
    connection.readLoop = .ended ∨ connection.writeLoop = .ended →
      connection.socketOpen = false ∧
        connection.notices.countP (·.kind = .disconnect) = 1
  destroyed : connection.references = 0 → connection.destroyed = true

/-- What happens to a connection that is left alone, and whose socket fails. -/
def ConnectionEvent.settles (event : ConnectionEvent) : Bool :=
  event.isWork && !event.bringsWork

/-- The connection goes on with the handler that runs. -/
theorem exists_settling_of_running {connection : AsioConnection}
    {work : ConnectionWork} (running : connection.strand.running = some work) :
    ∃ event, ConnectionEvent.settles event = true ∧
      (connection.step event).isSome = true := by
  by_cases reads : work = .completion .asyncReadSome none ∧
      connection.readLoop = .resumed
  · have here := running.trans (congrArg some reads.1)
    refine ⟨.readAgain, rfl, ?_⟩
    rw [AsioConnection.step, AsioConnection.react, if_pos ⟨here, reads.2⟩]
    rfl
  · refine ⟨.finishWork, rfl, ?_⟩
    rw [AsioConnection.step, AsioConnection.react, Option.isSome_map,
      Option.isSome_map, AsioConnection.finishWork, running]
    split
    · contradiction
    · rfl
    · split
      · rename_i same resumed
        exact absurd ⟨Option.some.inj same, resumed⟩ reads
      · rfl
    · rfl

/-- A loop that has neither ended nor been queued waits for an operation. -/
theorem LoopTended.rests_or_awaits {entry : ConnectionWork}
    {own : LoopOperation → Prop} {loop : LoopState}
    {strand : Strand ConnectionWork ConnectionWork}
    (tended : LoopTended entry own loop strand) (idle : strand.Idle) :
    (loop = .unspawned ∨ loop = .ended) ∨
      ∃ operation, own operation ∧ loop = .awaiting operation := by
  obtain ⟨free, empty⟩ := idle
  cases loop with
  | unspawned => exact Or.inl (Or.inl rfl)
  | ended => exact Or.inl (Or.inr rfl)
  | awaiting operation =>
      exact Or.inr ⟨operation, tended.awaiting operation rfl, rfl⟩
  | spawned =>
      have queued := tended.spawned rfl
      rw [empty] at queued
      cases queued
  | completed =>
      obtain ⟨_, _, _, queued⟩ := tended.completed rfl
      rw [empty] at queued
      cases queued
  | resumed =>
      obtain ⟨_, _, _, running, _⟩ := tended.resumed rfl
      rw [free] at running
      cases running

theorem exists_settling_of_awaiting {connection : AsioConnection}
    {operation : LoopOperation}
    (awaits : connection.loop operation = .awaiting operation) :
    ∃ event, ConnectionEvent.settles event = true ∧
      (connection.step event).isSome = true := by
  refine ⟨.complete operation (some .operationAborted),
    by cases operation <;> rfl, ?_⟩
  rw [AsioConnection.step, AsioConnection.react, if_pos awaits]
  rfl

theorem Sound.woundDown {connection : AsioConnection} (sound : Sound connection)
    (idle : connection.strand.Idle)
    (readLoop : connection.readLoop = .unspawned ∨ connection.readLoop = .ended)
    (writeLoop :
      connection.writeLoop = .unspawned ∨ connection.writeLoop = .ended)
    (destroyed : connection.references = 0 → connection.destroyed = true) :
    WoundDown connection where
  idle := idle
  readLoop := readLoop
  writeLoop := writeLoop
  disconnected := by
    intro ended
    have closed := sound.ended ended
    have disconnects := sound.disconnects
    rw [closed] at disconnects
    exact ⟨closed, disconnects⟩
  destroyed := destroyed

/-- As long as something is left of a connection, it has a step to make. -/
theorem exists_settling {connection : AsioConnection}
    (sound : Sound connection) (tended : Tended connection)
    (left : ¬ WoundDown connection) :
    ∃ event, ConnectionEvent.settles event = true ∧
      (connection.step event).isSome = true := by
  rcases running : connection.strand.running with _ | work
  · rcases queue : connection.strand.queue with _ | ⟨work, rest⟩
    · have idle : connection.strand.Idle := ⟨running, queue⟩
      rcases tended.reading.rests_or_awaits idle with
        readLoop | ⟨_, rfl, reading⟩
      · rcases tended.writing.rests_or_awaits idle with
          writeLoop | ⟨operation, isOwn, writing⟩
        · have alive : connection.references = 0 ∧
              connection.destroyed = false := by
            by_contra released
            refine left (sound.woundDown idle readLoop writeLoop ?_)
            intro none
            by_contra alive
            exact released ⟨none, Bool.eq_false_iff.mpr alive⟩
          refine ⟨.destroy, rfl, ?_⟩
          rw [AsioConnection.step, AsioConnection.react,
            if_pos ⟨⟨alive.1, idle, readLoop, writeLoop⟩, alive.2⟩]
          rfl
        · have awaits : connection.loop operation = .awaiting operation := by
            cases operation with
            | asyncReadSome => exact absurd rfl isOwn
            | asyncReceive | asyncWrite => exact writing
          exact exists_settling_of_awaiting awaits
      · have awaits : connection.loop .asyncReadSome =
            .awaiting .asyncReadSome := reading
        exact exists_settling_of_awaiting awaits
    · refine ⟨.takeWork, rfl, ?_⟩
      rw [AsioConnection.step, AsioConnection.react, AsioConnection.takeWork,
        Strand.take, running, queue]
      rfl
  · exact exists_settling_of_running running

/-- Any connection that is left alone comes to rest once its socket fails: its
steps are bounded in advance, it can always go on until nothing is left of it,
and it stops at nothing else. -/
theorem connection_windsDown (events more : List ConnectionEvent)
    (connection last : AsioConnection)
    (ran : connectionRun {} events = some connection)
    (alone : ∀ event ∈ more, ConnectionEvent.bringsWork event = false)
    (ranOn : connectionRun connection more = some last) :
    more.countP ConnectionEvent.isWork ≤ connection.stepsLeft ∧
      (∃ rest final,
        (∀ event ∈ rest, ConnectionEvent.settles event = true) ∧
          connectionRun last rest = some final ∧ WoundDown final) ∧
        ((∀ event, ConnectionEvent.settles event = true →
          last.step event = none) → WoundDown last) := by
  have sound : Sound last := EventRuns.run_invariant
    (fun _ _ _ sound stepped => sound.step stepped) (sound_of_run ran) ranOn
  have tended : Tended last := EventRuns.run_invariant
    (fun _ _ _ tended stepped => tended.step stepped) (tended_of_run ran) ranOn
  refine ⟨?_, ?_, ?_⟩
  · have bounded := AsioConnection.countP_isWork_le ranOn
    have none : more.countP ConnectionEvent.bringsWork = 0 := by
      simpa [List.countP_eq_zero] using alone
    omega
  · have advances : ∀ state, Sound state ∧ Tended state → ¬ WoundDown state →
        ∃ event next, ConnectionEvent.settles event = true ∧
          state.step event = some next ∧ (Sound next ∧ Tended next) ∧
            next.stepsLeft < state.stepsLeft := by
      rintro state ⟨sound, tended⟩ left
      obtain ⟨event, settles, steps⟩ := exists_settling sound tended left
      obtain ⟨next, stepped⟩ := Option.isSome_iff_exists.mp steps
      have less := AsioConnection.stepsLeft_step stepped
      simp only [ConnectionEvent.settles, Bool.and_eq_true,
        Bool.not_eq_true'] at settles
      rw [settles.1, settles.2] at less
      exact ⟨event, next, by simp [ConnectionEvent.settles, settles], stepped,
        ⟨sound.step stepped, tended.step stepped⟩, less⟩
    obtain ⟨rest, final, each, reached, _, down⟩ :=
      EventRuns.exists_run_to_goal advances ⟨sound, tended⟩
    exact ⟨rest, final, each, reached, down⟩
  · intro stuck
    by_contra left
    obtain ⟨event, settles, steps⟩ := exists_settling sound tended left
    rw [stuck event settles] at steps
    cases steps

/-- A connected connection to which nothing outside refers any more. -/
def releasedEvents : List ConnectionEvent :=
  [.addObserver 7, .spawnReadLoop, .spawnWriteLoop, .release, .takeWork,
    .finishWork, .takeWork]

theorem connection_windsDown_released :
    ∃ connection, connectionRun {} releasedEvents = some connection ∧
      connection.socketOpen = true ∧
        ∃ rest final,
          (∀ event ∈ rest, ConnectionEvent.settles event = true) ∧
            connectionRun connection rest = some final ∧ WoundDown final :=
  ⟨_, rfl, rfl,
    (connection_windsDown releasedEvents [] _ _ rfl (by simp) rfl).2.1⟩

end Birch

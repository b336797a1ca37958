import Birch.KqueueCoalescing

/-!
# How soon the kqueue watcher calls back

The first change after a firing sets the deadline, and later changes do not move
it.  This file shows that the thread cannot be kept from calling back: once the
deadline has passed, a number of its own steps is enough, whatever the clients,
the kernel and the files go on to do.  The callbacks do not throw.
-/

namespace Birch

open EventRuns LinkedHashMap

namespace KqueueDescriptors

variable {Path Callback : Type*}

namespace RunLoop

/-- A step of the thread, and not of a client. -/
def Event.isOwn : Event Path Callback → Bool
  | .work | .clock _ | .keventFails | .keventReturns _ | .handle _ _
  | .fire _ => true
  | _ => false

def Event.isFailure : Event Path Callback → Bool
  | .keventFails => true
  | _ => false

/-- The clock has reached the deadline, and nobody shuts the watcher down. -/
def Event.IsPast (deadline : Int) : Event Path Callback → Prop
  | .clock now => deadline ≤ now
  | .shutDown => False
  | _ => True

/-- The steps of the thread until it has called back, at most.  An event that is
handled takes a step, and its callback takes another one. -/
def stepsLeft (loop : RunLoop Path Callback) : Nat :=
  match loop.stage with
  | .top => 2 * kBatch + loop.dirty.length + 7
  | .unwatch => 2 * kBatch + loop.dirty.length + 6
  | .wait => 2 * kBatch + loop.dirty.length + 5
  | .polling _ => 2 * kBatch + loop.dirty.length + 4
  | .handling events => 2 * events.length + loop.dirty.length + 3
  | .deadlineCheck => loop.dirty.length + 2
  | .fire => loop.dirty.length + 1
  | .invoking callbacks => callbacks.length
  | .returned => 0

/-- The firing that came next has handled all that had been handled before, and
has called back each watch that had changed and was still registered. -/
def CalledBack (before loop : RunLoop Path Callback) : Prop :=
  ∃ newer firing, loop.firings = newer ++ firing :: before.firings ∧
    before.history <+: firing.handled ∧ firing.RunsChanged []

/-- No firing has begun, and the deadline is where it was. -/
structure StillWaits (before : RunLoop Path Callback) (deadline : Int)
    (loop : RunLoop Path Callback) : Prop where
  notInvoking : loop.stage.isInvoking = false
  due : loop.deadline = some deadline
  firings : loop.firings = before.firings
  history : before.history <+: loop.history

/-- That firing has not come yet, or has callbacks to run. -/
inductive Owes (before : RunLoop Path Callback) (deadline : Int)
    (loop : RunLoop Path Callback) : Prop
  | waits (waits : StillWaits before deadline loop)
  | calls {invocation : Invocation Path Callback}
      {callbacks : List (Invocation Path Callback)}
      {firing : Firing Path Callback}
      (atStage : loop.stage = .invoking (invocation :: callbacks))
      (firings : loop.firings = firing :: before.firings)
      (handled : before.history <+: firing.handled)

variable {before loop next : RunLoop Path Callback} {deadline : Int}

/-! ## Stages -/

/-- The batch that was read fits the array, and the thread returns only when it
is told to. -/
structure KeepsStages (loop : RunLoop Path Callback) : Prop where
  batch : ∀ events, loop.stage = .handling events → events.length ≤ kBatch
  returned : loop.stage = .returned → loop.shutdown = true

theorem stage_handleEvent {event : KEvent} {now : Int} {replies : FileReplies}
    (handles : loop.handleEvent event now replies = some next) :
    next.stage = loop.stage ∧ next.shutdown = loop.shutdown := by
  rcases handleEvent_cases handles with rfl | ⟨id, _, _, result, _, _, rfl⟩
  · exact ⟨rfl, rfl⟩
  · unfold handled
    dsimp only
    split <;> exact ⟨rfl, rfl⟩

theorem length_le_of_keventReturns {events : List KEvent}
    (stepped : RunLoop.step loop (.keventReturns events) = some next) :
    events.length ≤ kBatch := by
  simp only [RunLoop.step] at stepped
  split at stepped
  · split at stepped
    · assumption
    · cases stepped
  · cases stepped

namespace KeepsStages

theorem elsewhere (notHandling : ∀ events, loop.stage ≠ .handling events)
    (notReturned : loop.stage ≠ .returned) : KeepsStages loop :=
  ⟨fun events atStage => absurd atStage (notHandling events),
    fun atStage => absurd atStage notReturned⟩

theorem step (keeps : KeepsStages loop) {event : Event Path Callback}
    (stepped : RunLoop.step loop event = some next) : KeepsStages next := by
  cases moves_of_step stepped with
  | callWatchFile | watchFile | closeWatch => exact ⟨keeps.batch, keeps.returned⟩
  | shutDown => exact ⟨keeps.batch, fun _ => rfl⟩
  | checkShutdown =>
      unfold checkShutdown
      split
      · rename_i shutdown
        refine ⟨?_, fun _ => shutdown⟩
        rintro events ⟨⟩
      · exact elsewhere (by rintro events ⟨⟩) (by rintro ⟨⟩)
  | drain | wait | keventFails | noneLeft | fire =>
      exact elsewhere (by rintro events ⟨⟩) (by rintro ⟨⟩)
  | keventReturns events =>
      refine ⟨?_, by rintro ⟨⟩⟩
      rintro _ ⟨⟩
      exact length_le_of_keventReturns stepped
  | @handle event events now replies _ atStage handles =>
      have fits := keeps.batch (event :: events) atStage
      have sameStage := (stage_handleEvent handles).1
      refine ⟨?_, ?_⟩
      · intro rest atRest
        rw [sameStage] at atRest
        cases atRest
        exact Nat.le_of_succ_le fits
      · intro atReturned
        rw [sameStage] at atReturned
        cases atReturned
  | checkDeadline now =>
      unfold checkDeadline
      split
      · split <;> exact elsewhere (by rintro events ⟨⟩) (by rintro ⟨⟩)
      · exact elsewhere (by rintro events ⟨⟩) (by rintro ⟨⟩)
  | @invoke callbacks =>
      cases callbacks <;> exact elsewhere (by rintro events ⟨⟩) (by rintro ⟨⟩)

end KeepsStages

/-- What holds in every state of the loop. -/
structure Keeps (loop : RunLoop Path Callback) : Prop where
  changes : KeepsChanges loop
  ids : KnowsIds loop
  stages : KeepsStages loop

theorem Keeps.step (keeps : Keeps loop) {event : Event Path Callback}
    (stepped : RunLoop.step loop event = some next) : Keeps next :=
  ⟨keeps.changes.step keeps.ids stepped, keeps.ids.step stepped,
    keeps.stages.step stepped⟩

theorem keeps_of_run {events : List (Event Path Callback)}
    (ran : EventRuns.run step {} events = some loop) : Keeps loop := by
  have initial : Keeps ({} : RunLoop Path Callback) :=
    ⟨keepsChanges_initial, knowsIds_initial,
      KeepsStages.elsewhere (by rintro events ⟨⟩) (by rintro ⟨⟩)⟩
  exact run_invariant (fun _ _ _ keeps stepped => keeps.step stepped) initial ran

/-! ## Steps that change nothing of a firing -/

/-- The dirty watches, the deadline and the firings are as they were. -/
structure Quiet (loop next : RunLoop Path Callback) : Prop where
  dirty : next.dirty = loop.dirty
  due : next.deadline = loop.deadline
  firings : next.firings = loop.firings
  history : loop.history <+: next.history
  invoking : next.stage.isInvoking = loop.stage.isInvoking

/-- The steps that do something else: a change is handled, a firing begins, or a
callback of it runs. -/
inductive Stirs (loop : RunLoop Path Callback) :
    Event Path Callback → RunLoop Path Callback → Prop
  | change {event : KEvent} {events : List KEvent} (id : WatchId) (now : Int)
      (replies : FileReplies) (result : Watch Path Callback × ResourceLedger Int)
      (atStage : loop.stage = .handling (event :: events)) :
      Stirs loop (.handle now replies)
        ((loop.goTo (.handling events)).handled id now (true, result))
  | fire {order : List WatchId} (atStage : loop.stage = .fire)
      (iterates : order.Perm loop.dirty) :
      Stirs loop (.fire order) (loop.fire order)
  | invoke {callbacks : List (Invocation Path Callback)}
      (atStage : loop.stage = .invoking callbacks) :
      Stirs loop .work (loop.invoke callbacks)

theorem quiet_or_stirs {event : Event Path Callback}
    (stepped : RunLoop.step loop event = some next) :
    Quiet loop next ∨ Stirs loop event next := by
  have goes : ∀ stage, stage.isInvoking = loop.stage.isInvoking →
      Quiet loop (loop.goTo stage) := by
    intro stage invoking
    exact ⟨rfl, rfl, rfl, List.prefix_rfl, invoking⟩
  cases moves_of_step stepped with
  | callWatchFile | watchFile | closeWatch | shutDown =>
      exact Or.inl ⟨rfl, rfl, rfl, List.prefix_rfl, rfl⟩
  | checkShutdown atStage =>
      unfold checkShutdown
      split <;> exact Or.inl (goes _ (by rw [atStage]; rfl))
  | drain atStage =>
      exact Or.inl ⟨rfl, rfl, rfl, List.prefix_rfl, by rw [atStage]; rfl⟩
  | wait _ atStage | keventFails atStage | keventReturns _ atStage
  | noneLeft atStage =>
      exact Or.inl (goes _ (by rw [atStage]; rfl))
  | @handle event events now replies _ atStage handles =>
      rcases handleEvent_cases handles with
        rfl | ⟨id, _, _, ⟨changed, result⟩, _, _, rfl⟩
      · exact Or.inl (goes _ (by rw [atStage]; rfl))
      · cases changed with
        | false =>
            exact Or.inl ⟨rfl, rfl, rfl, List.prefix_append _ _,
              by rw [atStage]; rfl⟩
        | true => exact Or.inr (.change id now replies result atStage)
  | checkDeadline now atStage =>
      unfold checkDeadline
      split
      · split <;> exact Or.inl (goes _ (by rw [atStage]; rfl))
      · exact Or.inl (goes _ (by rw [atStage]; rfl))
  | fire atStage iterates => exact Or.inr (.fire atStage iterates)
  | invoke atStage => exact Or.inr (.invoke atStage)

/-! ## The deadline -/

/-- While watches are dirty, the deadline is the end of the window that began when
the first of them was handled. -/
def FromFirst (events : List (Event Path Callback))
    (loop : RunLoop Path Callback) : Prop :=
  ∃ earlier now replies since before after,
    events = earlier ++ .handle now replies :: since ∧
      EventRuns.run step {} earlier = some before ∧
      step before (.handle now replies) = some after ∧ before.dirty = [] ∧
      after.dirty ≠ [] ∧ before.firings = loop.firings ∧
      loop.deadline = some (now + kCoalesceWindow)

theorem FromFirst.quiet {events : List (Event Path Callback)}
    (first : FromFirst events loop) (firings : next.firings = loop.firings)
    (due : next.deadline = loop.deadline) (event : Event Path Callback) :
    FromFirst (events ++ [event]) next := by
  obtain ⟨earlier, now, replies, since, before, after, rfl, ran, handled, clean,
    dirty, same, deadline⟩ := first
  exact ⟨earlier, now, replies, since ++ [event], before, after, by simp, ran,
    handled, clean, dirty, same.trans firings.symm, due.trans deadline⟩

theorem fromFirst_of_run {events : List (Event Path Callback)}
    (ran : EventRuns.run step {} events = some loop)
    (notInvoking : loop.stage.isInvoking = false) (dirty : loop.dirty ≠ []) :
    FromFirst events loop := by
  have preserves : ∀ events (state : RunLoop Path Callback) event next,
      EventRuns.run step {} events = some state →
        (state.stage.isInvoking = false → state.dirty ≠ [] →
          FromFirst events state) →
        RunLoop.step state event = some next →
          next.stage.isInvoking = false → next.dirty ≠ [] →
            FromFirst (events ++ [event]) next := by
    intro events state event next reached first stepped notInvoking dirty
    rcases quiet_or_stirs stepped with quiet | stirs
    · rw [quiet.invoking] at notInvoking
      rw [quiet.dirty] at dirty
      exact (first notInvoking dirty).quiet quiet.firings quiet.due event
    · cases stirs with
      | change id now replies result atStage =>
          have keeps := (keeps_of_run reached).changes
          by_cases clean : state.dirty = []
          · have noDeadline : state.deadline = none := by
              by_contra due
              exact keeps.deadline_iff.mp due clean
            refine ⟨events, now, replies, [], state, _, rfl, reached, stepped, clean,
              dirty, rfl, ?_⟩
            simp [handled, insertDirty, goTo, noDeadline]
          · have before : FromFirst events state :=
              first (by rw [atStage]; rfl) clean
            obtain ⟨deadline, due⟩ :=
              Option.ne_none_iff_exists'.mp (keeps.deadline_iff.mpr clean)
            refine FromFirst.quiet before ?_ ?_ _
            · rfl
            · simp [handled, insertDirty, goTo, due]
      | fire => cases notInvoking
      | @invoke callbacks atStage =>
          cases callbacks with
          | nil => exact absurd rfl dirty
          | cons callback callbacks => cases notInvoking
  exact run_history preserves (fun _ dirty => absurd rfl dirty) ran notInvoking
    dirty

theorem StillWaits.quiet (waits : StillWaits before deadline loop)
    (quiet : Quiet loop next) : StillWaits before deadline next :=
  ⟨quiet.invoking.trans waits.notInvoking, quiet.due.trans waits.due,
    quiet.firings.trans waits.firings, waits.history.trans quiet.history⟩

theorem StillWaits.change (waits : StillWaits before deadline loop)
    (events : List KEvent) (id : WatchId) (now : Int)
    (result : Watch Path Callback × ResourceLedger Int) :
    StillWaits before deadline
      ((loop.goTo (.handling events)).handled id now (true, result)) := by
  refine ⟨rfl, ?_, waits.firings, waits.history.trans (List.prefix_append _ _)⟩
  simp [handled, insertDirty, goTo, waits.due]

theorem length_record (invocation : Invocation Path Callback)
    (firings : List (Firing Path Callback)) :
    (record invocation firings).length = firings.length := by
  cases firings <;> rfl

/-- The deadline does not move before a firing begins. -/
theorem stillWaits_of_run {final : RunLoop Path Callback}
    {events : List (Event Path Callback)}
    (waits : StillWaits before deadline loop)
    (ran : EventRuns.run step loop events = some final)
    (noFiring : final.firings.length = before.firings.length) :
    StillWaits before deadline final := by
  have preserves : ∀ (state : RunLoop Path Callback) event next,
      (StillWaits before deadline state ∨
          before.firings.length < state.firings.length) →
        RunLoop.step state event = some next →
          StillWaits before deadline next ∨
            before.firings.length < next.firings.length := by
    rintro state event next (waits | fired) stepped
    · rcases quiet_or_stirs stepped with quiet | stirs
      · exact Or.inl (waits.quiet quiet)
      · cases stirs with
        | change id now replies result => exact Or.inl (waits.change _ id now result)
        | fire =>
            refine Or.inr ?_
            simp [RunLoop.fire, waits.firings]
        | invoke atStage =>
            have notInvoking := waits.notInvoking
            rw [atStage] at notInvoking
            cases notInvoking
    · rcases quiet_or_stirs stepped with quiet | stirs
      · exact Or.inr (quiet.firings ▸ fired)
      · refine Or.inr ?_
        cases stirs with
        | change => exact fired
        | fire => exact Nat.lt_succ_of_lt fired
        | @invoke callbacks =>
            cases callbacks with
            | nil => exact fired
            | cons callback callbacks =>
                rw [invoke, length_record]
                exact fired
  rcases run_invariant preserves (Or.inl waits) ran with waits | fired
  · exact waits
  · omega

/-! ## The steps of the thread -/

theorem length_dirty_handled (id : WatchId) (now : Int)
    (result : Bool × Watch Path Callback × ResourceLedger Int) :
    (loop.handled id now result).dirty.length ≤ loop.dirty.length + 1 := by
  rcases result with ⟨changed, opened⟩
  cases changed with
  | false => exact Nat.le_succ _
  | true =>
      simp only [handled, insertDirty, if_true, List.length_insert]
      split <;> omega

theorem length_dirty_handleEvent {event : KEvent} {now : Int}
    {replies : FileReplies}
    (handles : loop.handleEvent event now replies = some next) :
    next.dirty.length ≤ loop.dirty.length + 1 := by
  rcases handleEvent_cases handles with rfl | ⟨id, _, _, result, _, _, rfl⟩
  · exact Nat.le_succ _
  · exact length_dirty_handled id now result

theorem length_fireDirty_le
    (watches : LinkedHashMap WatchId (Watch Path Callback))
    {order dirty : List WatchId} (iterates : order.Perm dirty) :
    (fireDirty watches order).length ≤ dirty.length := by
  rw [← iterates.length_eq]
  exact List.length_filterMap_le _ _

/-- While the thread waits, each of its steps brings the callbacks nearer, and a
failure of `kevent` costs at most four more. -/
theorem stepsLeft_step {event : Event Path Callback}
    (running : loop.shutdown = false)
    (notInvoking : loop.stage.isInvoking = false)
    (due : loop.deadline = some deadline) (past : event.IsPast deadline)
    (stepped : RunLoop.step loop event = some next) :
    next.stepsLeft + event.isOwn.toNat ≤
      loop.stepsLeft + 4 * event.isFailure.toNat := by
  cases moves_of_step stepped with
  | callWatchFile | watchFile | closeWatch => exact Nat.le_refl _
  | shutDown => exact past.elim
  | checkShutdown atStage =>
      simp [checkShutdown, running, stepsLeft, atStage, goTo, Event.isOwn,
        Event.isFailure]
  | drain atStage =>
      simp [RunLoop.drain, stepsLeft, atStage, Event.isOwn, Event.isFailure]
  | wait now atStage =>
      simp [RunLoop.wait, stepsLeft, atStage, goTo, Event.isOwn, Event.isFailure]
  | keventFails atStage =>
      simp [stepsLeft, atStage, goTo, Event.isOwn, Event.isFailure]
  | keventReturns events atStage =>
      have fits := length_le_of_keventReturns stepped
      simp only [stepsLeft, atStage, goTo, Event.isOwn, Event.isFailure,
        Bool.toNat_true, Bool.toNat_false]
      omega
  | @handle event events now replies _ atStage handles =>
      have sameStage := (stage_handleEvent handles).1
      have grows := length_dirty_handleEvent handles
      simp only [goTo] at sameStage grows
      simp only [stepsLeft, sameStage, atStage, Event.isOwn, Event.isFailure,
        Bool.toNat_true, Bool.toNat_false, List.length_cons]
      omega
  | noneLeft atStage =>
      simp [stepsLeft, atStage, goTo, Event.isOwn, Event.isFailure]
  | checkDeadline now atStage =>
      have reached : deadline ≤ now := past
      simp [checkDeadline, due, reached, stepsLeft, atStage, goTo, Event.isOwn,
        Event.isFailure]
  | @fire order atStage iterates =>
      have fewer := length_fireDirty_le loop.watcher.watches iterates
      simp only [stepsLeft, RunLoop.fire, atStage, Event.isOwn, Event.isFailure,
        Bool.toNat_true, Bool.toNat_false]
      omega
  | invoke atStage =>
      rw [atStage] at notInvoking
      cases notInvoking

/-- While callbacks run, the clients and the thread leave the others of them
as they are. -/
theorem step_of_invoking {callbacks : List (Invocation Path Callback)}
    {event : Event Path Callback} (atStage : loop.stage = .invoking callbacks)
    (stepped : RunLoop.step loop event = some next) :
    event.isOwn = false ∧ next.stage = loop.stage ∧
        next.firings = loop.firings ∨
      event = .work ∧ next = loop.invoke callbacks := by
  cases moves_of_step stepped with
  | callWatchFile | watchFile | closeWatch | shutDown =>
      exact Or.inl ⟨rfl, rfl, rfl⟩
  | invoke here =>
      rw [atStage] at here
      cases here
      exact Or.inr ⟨rfl, rfl⟩
  | checkShutdown here | drain here | wait _ here | keventFails here
  | keventReturns _ here | noneLeft here | handle here | checkDeadline _ here
  | fire here =>
      rw [atStage] at here
      cases here

/-! ## Firings that are over -/

theorem Firing.RunsChanged.nil_of_nil {firing : Firing Path Callback}
    {callbacks : List (Invocation Path Callback)} (done : firing.RunsChanged [])
    (runs : firing.RunsChanged callbacks) : callbacks = [] := by
  cases callbacks with
  | nil => rfl
  | cons invocation callbacks =>
      have member : invocation ∈ firing.ran := by
        have runsIt : invocation ∈ firing.ran ++ invocation :: callbacks := by simp
        have ran := (done.runs_iff invocation).mpr
          ((runs.runs_iff invocation).mp runsIt)
        rwa [List.append_nil] at ran
      have once := runs.once
      rw [List.map_append, List.nodup_append] at once
      exact absurd rfl (once.2.2 invocation.id (List.mem_map_of_mem member)
        invocation.id (by simp))

theorem CalledBack.step (called : CalledBack before loop)
    (keeps : KeepsChanges loop) {event : Event Path Callback}
    (stepped : RunLoop.step loop event = some next) : CalledBack before next := by
  obtain ⟨newer, firing, firings, handled, done⟩ := called
  rcases quiet_or_stirs stepped with quiet | stirs
  · exact ⟨newer, firing, quiet.firings.trans firings, handled, done⟩
  · cases stirs with
    | change => exact ⟨newer, firing, firings, handled, done⟩
    | @fire order =>
        obtain ⟨current, begins⟩ : ∃ current,
            (loop.fire order).firings = current :: loop.firings := ⟨_, rfl⟩
        rw [firings] at begins
        exact ⟨current :: newer, firing, begins, handled, done⟩
    | @invoke callbacks atStage =>
        cases callbacks with
        | nil => exact ⟨newer, firing, firings, handled, done⟩
        | cons invocation callbacks =>
            cases newer with
            | nil =>
                have runs := keeps.last firing before.firings firings
                rw [atStage] at runs
                cases Firing.RunsChanged.nil_of_nil done runs
            | cons last newer =>
                refine ⟨{ last with ran := last.ran ++ [invocation] } :: newer,
                  firing, ?_, handled, done⟩
                rw [RunLoop.invoke, firings]
                rfl

/-- When no callback is left, the firing is over. -/
theorem calledBack_of_none_left {firing : Firing Path Callback}
    (keeps : KeepsChanges loop) (atStage : loop.stage = .invoking [])
    (firings : loop.firings = firing :: before.firings)
    (handled : before.history <+: firing.handled) : CalledBack before loop := by
  have runs := keeps.last firing before.firings firings
  rw [atStage] at runs
  exact ⟨[], firing, firings, handled, runs⟩

/-! ## The response -/

theorem StillWaits.step (waits : StillWaits before deadline loop)
    {event : Event Path Callback}
    (stepped : RunLoop.step loop event = some next) (keeps : KeepsChanges next) :
    CalledBack before next ∨ Owes before deadline next := by
  rcases quiet_or_stirs stepped with quiet | stirs
  · exact Or.inr (.waits (waits.quiet quiet))
  · cases stirs with
    | change id now replies result =>
        exact Or.inr (.waits (waits.change _ id now result))
    | @fire order atStage iterates =>
        have firings : (loop.fire order).firings =
            { handled := loop.history
              registered := loop.watcher.watches
              drained := loop.drained } :: before.firings := by
          rw [RunLoop.fire, waits.firings]
        cases callbacks : fireDirty loop.watcher.watches order with
        | nil =>
            refine Or.inl (calledBack_of_none_left keeps ?_ firings waits.history)
            rw [RunLoop.fire, callbacks]
        | cons invocation others =>
            have atStage : (loop.fire order).stage =
                .invoking (invocation :: others) := by
              rw [RunLoop.fire, callbacks]
            exact Or.inr (.calls atStage firings waits.history)
    | invoke atStage =>
        have notInvoking := waits.notInvoking
        rw [atStage] at notInvoking
        cases notInvoking

theorem shutdown_step {event : Event Path Callback}
    (running : loop.shutdown = false) (past : event.IsPast deadline)
    (stepped : RunLoop.step loop event = some next) :
    next.shutdown = false := by
  cases moves_of_step stepped with
  | shutDown => exact past.elim
  | checkShutdown =>
      unfold checkShutdown
      split <;> exact running
  | handle _ handles => exact (stage_handleEvent handles).2.trans running
  | checkDeadline =>
      unfold checkDeadline
      split
      · split <;> exact running
      · exact running
  | @invoke callbacks => cases callbacks <;> exact running
  | _ => exact running

/-- The thread has not called back, but can. -/
structure Pending (before : RunLoop Path Callback) (deadline : Int)
    (loop : RunLoop Path Callback) : Prop where
  keeps : Keeps loop
  running : loop.shutdown = false
  owes : Owes before deadline loop

theorem Pending.step (pending : Pending before deadline loop)
    {event : Event Path Callback} (past : event.IsPast deadline)
    (stepped : RunLoop.step loop event = some next) :
    (Keeps next ∧ CalledBack before next) ∨ Pending before deadline next ∧
      next.stepsLeft + event.isOwn.toNat ≤
        loop.stepsLeft + 4 * event.isFailure.toNat := by
  have keeps := pending.keeps.step stepped
  have running := shutdown_step pending.running past stepped
  cases pending.owes with
  | waits waits =>
      have fewer := stepsLeft_step pending.running waits.notInvoking waits.due past
        stepped
      rcases waits.step stepped keeps.changes with called | owes
      · exact Or.inl ⟨keeps, called⟩
      · exact Or.inr ⟨⟨keeps, running, owes⟩, fewer⟩
  | @calls invocation callbacks firing atStage firings handled =>
      rcases step_of_invoking atStage stepped with
        ⟨notOwn, sameStage, sameFirings⟩ | ⟨rfl, rfl⟩
      · have owes : Owes before deadline next :=
          .calls (sameStage.trans atStage) (sameFirings.trans firings) handled
        refine Or.inr ⟨⟨keeps, running, owes⟩, ?_⟩
        simp [stepsLeft, sameStage, atStage, notOwn]
      · have recorded : (loop.invoke (invocation :: callbacks)).firings =
            { firing with ran := firing.ran ++ [invocation] } ::
              before.firings := by
          rw [RunLoop.invoke, firings]
          rfl
        cases callbacks with
        | nil =>
            exact Or.inl ⟨keeps,
              calledBack_of_none_left keeps.changes rfl recorded handled⟩
        | cons other callbacks =>
            refine Or.inr ⟨⟨keeps, running, .calls rfl recorded handled⟩, ?_⟩
            simp [stepsLeft, RunLoop.invoke, atStage, Event.isOwn,
              Event.isFailure]

theorem exists_tryOpenAndArmFile (watch : Watch Path Callback)
    (ledger : ResourceLedger Int) :
    ∃ result, watch.tryOpenAndArmFile ledger { openFile := .error 0 } =
      some result := by
  unfold Watch.tryOpenAndArmFile
  split <;> exact ⟨_, rfl⟩

/-- Each event can be handled: where the file does not open, the watch goes on
without it. -/
theorem exists_handleEvent (event : KEvent) (now : Int) :
    ∃ next, loop.handleEvent event now { openFile := .error 0 } = some next := by
  cases event with
  | wake => exact ⟨loop, rfl⟩
  | vnode id ident fflags =>
      simp only [handleEvent]
      split
      · exact ⟨loop, rfl⟩
      · rename_i watch _
        split
        · unfold Watch.handleFileEvent
          split
          · obtain ⟨result, opened⟩ := exists_tryOpenAndArmFile
              (watch.disarmFile loop.watcher.ledger).1
              (watch.disarmFile loop.watcher.ledger).2
            rw [opened]
            exact ⟨_, rfl⟩
          · exact ⟨_, rfl⟩
        · split
          · unfold Watch.handleDirEvent
            split
            · obtain ⟨result, opened⟩ :=
                exists_tryOpenAndArmFile watch loop.watcher.ledger
              rw [opened]
              exact ⟨_, rfl⟩
            · exact ⟨_, rfl⟩
          · exact ⟨loop, rfl⟩

/-- The thread can take a step, and `kevent` need not fail. -/
theorem Pending.exists_step (pending : Pending before deadline loop) :
    ∃ event next, (event.isOwn = true ∧ event.isFailure = false ∧
      event.IsPast deadline) ∧ RunLoop.step loop event = some next := by
  cases atStage : loop.stage with
  | top | unwatch | invoking =>
      refine ⟨.work, ?_⟩
      simp [RunLoop.step, work, atStage, Event.isOwn, Event.isFailure,
        Event.IsPast]
  | wait | deadlineCheck =>
      refine ⟨.clock deadline, ?_⟩
      simp [RunLoop.step, atStage, Event.isOwn, Event.isFailure, Event.IsPast]
  | polling timeout =>
      refine ⟨.keventReturns [], ?_⟩
      simp [RunLoop.step, atStage, Event.isOwn, Event.isFailure, Event.IsPast]
  | handling events =>
      cases events with
      | nil =>
          refine ⟨.work, ?_⟩
          simp [RunLoop.step, work, atStage, Event.isOwn, Event.isFailure,
            Event.IsPast]
      | cons event events =>
          obtain ⟨next, handles⟩ :=
            @exists_handleEvent _ _ (loop.goTo (.handling events)) event 0
          refine ⟨.handle 0 { openFile := .error 0 }, next, ⟨rfl, rfl, trivial⟩, ?_⟩
          simp only [RunLoop.step, atStage, handles]
  | fire =>
      refine ⟨.fire loop.dirty, ?_⟩
      simp [RunLoop.step, atStage, Event.isOwn, Event.isFailure, Event.IsPast]
  | returned =>
      have shutdown := pending.keeps.stages.returned atStage
      rw [pending.running] at shutdown
      cases shutdown

theorem Pending.stepsLeft_pos (pending : Pending before deadline loop) :
    0 < loop.stepsLeft := by
  cases pending.owes with
  | waits waits =>
      have notInvoking := waits.notInvoking
      unfold stepsLeft
      split
      case h_8 callbacks atStage =>
        rw [atStage] at notInvoking
        cases notInvoking
      case h_9 atStage =>
        have shutdown := pending.keeps.stages.returned atStage
        rw [pending.running] at shutdown
        cases shutdown
      all_goals omega
  | calls atStage => simp [stepsLeft, atStage]

/-- The thread can call back, or come nearer to it. -/
theorem Pending.advances (pending : Pending before deadline loop) :
    ∃ event next, (event.isOwn = true ∧ event.isFailure = false ∧
      event.IsPast deadline) ∧ RunLoop.step loop event = some next ∧
        (CalledBack before next ∨ Pending before deadline next ∧
          next.stepsLeft < loop.stepsLeft) := by
  obtain ⟨event, next, ⟨own, succeeds, past⟩, stepped⟩ := pending.exists_step
  refine ⟨event, next, ⟨own, succeeds, past⟩, stepped, ?_⟩
  rcases pending.step past stepped with ⟨_, called⟩ | ⟨still, fewer⟩
  · exact Or.inl called
  · rw [own, succeeds] at fewer
    exact Or.inr ⟨still, fewer⟩

theorem stepsLeft_le (keeps : KeepsStages loop)
    (notInvoking : loop.stage.isInvoking = false) :
    loop.stepsLeft ≤ 2 * kBatch + loop.dirty.length + 7 := by
  unfold stepsLeft
  split
  case h_5 events atStage =>
    have fits := keeps.batch events atStage
    omega
  case h_8 callbacks atStage =>
    rw [atStage] at notInvoking
    cases notInvoking
  all_goals omega

/-- What the watcher owes for the changes that it has handled. -/
structure Responds (events : List (Event Path Callback))
    (loop : RunLoop Path Callback) (deadline : Int) : Prop where
  fromFirst : FromFirst events loop
  due : loop.deadline = some deadline
  stays : ∀ later final, EventRuns.run step loop later = some final →
    final.firings.length = loop.firings.length → final.deadline = some deadline
  within : ∀ later final, (∀ event ∈ later, event.IsPast deadline) →
    EventRuns.run step loop later = some final →
      2 * kBatch + loop.dirty.length + 7 + 4 * later.countP Event.isFailure ≤
        later.countP Event.isOwn → CalledBack loop final
  goesOn : ∀ later final, (∀ event ∈ later, event.IsPast deadline) →
    EventRuns.run step loop later = some final →
      ∃ more last, (∀ event ∈ more, event.isOwn = true ∧
          event.isFailure = false ∧ event.IsPast deadline) ∧
        EventRuns.run step final more = some last ∧ CalledBack loop last

/-- In every state of a run in which changes wait to be called back, the deadline
is the end of the window that the first of them began, and stays there until a
firing begins.  Once it has passed, the thread calls back within a number of its
own steps that the batch and the dirty watches bound, whatever else happens as
long as no callback throws, and it can always take them. -/
theorem kqueueWatcher_responds {events : List (Event Path Callback)}
    {loop : RunLoop Path Callback}
    (ran : EventRuns.run step {} events = some loop)
    (running : loop.shutdown = false) {id : WatchId}
    (changed : (id, true) ∈ loop.history) :
    ∃ deadline, Responds events loop deadline := by
  have keeps := keeps_of_run ran
  have notInvoking : loop.stage.isInvoking = false := by
    cases invoking : loop.stage.isInvoking with
    | false => rfl
    | true =>
        rw [keeps.changes.noneSince invoking] at changed
        cases changed
  have dirty : loop.dirty ≠ [] :=
    List.ne_nil_of_mem ((keeps.changes.dirty_iff notInvoking id).mpr changed)
  obtain ⟨deadline, due⟩ :=
    Option.ne_none_iff_exists'.mp (keeps.changes.deadline_iff.mpr dirty)
  have waits : StillWaits loop deadline loop :=
    ⟨notInvoking, due, rfl, List.prefix_rfl⟩
  have response : ∀ later final,
      (∀ event ∈ later, event.IsPast deadline) →
        EventRuns.run step loop later = some final →
          (Keeps final ∧ CalledBack loop final) ∨ Pending loop deadline final ∧
            later.countP Event.isOwn + final.stepsLeft ≤
              loop.stepsLeft + 4 * later.countP Event.isFailure := by
    intro later final past went
    have stays : ∀ (state : RunLoop Path Callback) event next,
        Keeps state ∧ CalledBack loop state →
          RunLoop.step state event = some next →
            Keeps next ∧ CalledBack loop next := by
      rintro state event next ⟨keeps, called⟩ stepped
      exact ⟨keeps.step stepped, called.step keeps.changes stepped⟩
    rcases responds_within
        (fun _ _ _ pending here stepped => Pending.step pending here stepped)
        (Pending.mk keeps running (.waits waits)) past went with
      ⟨first, rest, middle, _, _, ended, done⟩ | within
    · exact Or.inl (run_invariant stays done ended)
    · exact Or.inr within
  refine ⟨deadline, fromFirst_of_run ran notInvoking dirty, due, ?_, ?_, ?_⟩
  · intro later final went noFiring
    exact (stillWaits_of_run waits went noFiring).due
  · intro later final past went enough
    rcases response later final past went with ⟨_, called⟩ | ⟨pending, within⟩
    · exact called
    · have atMost := stepsLeft_le keeps.stages notInvoking
      have positive := pending.stepsLeft_pos
      omega
  · intro later final past went
    rcases response later final past went with ⟨_, called⟩ | ⟨pending, _⟩
    · exact ⟨[], final, by simp, rfl, called⟩
    · exact exists_run_to_done (fun _ pending => pending.advances) pending

/-- The first change of the file is handled, and the next one waits in the
batch. -/
theorem kqueueWatcher_responds_inBatch :
    ∃ loop deadline,
      EventRuns.run step {} (changesInWindow.take 7) = some loop ∧
        Responds (changesInWindow.take 7) loop deadline := by
  obtain ⟨loop, ran, running, changed⟩ : ∃ loop,
      EventRuns.run step {} (changesInWindow.take 7) = some loop ∧
        loop.shutdown = false ∧ ((2 : WatchId), true) ∈ loop.history :=
    ⟨_, rfl, rfl, List.mem_cons_self⟩
  obtain ⟨deadline, responds⟩ := kqueueWatcher_responds ran running changed
  exact ⟨loop, deadline, ran, responds⟩

end RunLoop

end KqueueDescriptors

end Birch

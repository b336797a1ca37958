import Birch.KqueueLoop

/-!
# Coalescing

Between two firings the kqueue watcher gathers the watches that have changed.
This file shows that it forgets none of them and calls none of them back twice,
whatever the order of batches, wake-ups, failed reads and times is, and that a
watch is not called back once its unwatch has been drained.
-/

namespace Birch

open EventRuns LinkedHashMap

namespace KqueueDescriptors

variable {Path Callback : Type*}

namespace LoopStage

/-- The callbacks that are still to run. -/
def toRun : LoopStage Path Callback → List (Invocation Path Callback)
  | .invoking callbacks => callbacks
  | _ => []

def isInvoking : LoopStage Path Callback → Bool
  | .invoking _ => true
  | _ => false

theorem toRun_eq_nil {stage : LoopStage Path Callback}
    (elsewhere : stage.isInvoking = false) : stage.toRun = [] := by
  cases stage with
  | invoking callbacks => cases elsewhere
  | _ => rfl

end LoopStage

/-- With these callbacks the firing runs those of the watches of which an event
was handled as a change and which are still registered, each of them once. -/
structure Firing.RunsChanged (firing : Firing Path Callback)
    (toRun : List (Invocation Path Callback)) : Prop where
  once : ((firing.ran ++ toRun).map Invocation.id).Nodup
  runs_iff : ∀ invocation, invocation ∈ firing.ran ++ toRun ↔
    (invocation.id, true) ∈ firing.handled ∧
      ∃ watch, firing.registered.lookup invocation.id = some watch ∧
        watch.invocation invocation.id = invocation
  notDrained : ∀ invocation ∈ firing.ran ++ toRun,
    invocation.id ∉ firing.drained

/-- The next callback has run. -/
theorem Firing.RunsChanged.recorded {firing : Firing Path Callback}
    {invocation : Invocation Path Callback}
    {callbacks : List (Invocation Path Callback)}
    (runs : firing.RunsChanged (invocation :: callbacks)) :
    Firing.RunsChanged { firing with ran := firing.ran ++ [invocation] }
      callbacks := by
  have same : firing.ran ++ [invocation] ++ callbacks =
      firing.ran ++ invocation :: callbacks := by simp
  constructor
  · rw [same]
    exact runs.once
  · rw [same]
    exact runs.runs_iff
  · rw [same]
    exact runs.notDrained

namespace RunLoop

/-- No change is lost and none is repeated.  Each firing but the one that is
going on has run its callbacks, and that one has the others still to run. -/
structure Coalesces (loop : RunLoop Path Callback) : Prop where
  deadline_iff : loop.stage = .top → (loop.deadline ≠ none ↔ loop.dirty ≠ [])
  last : ∀ firing older, loop.firings = firing :: older →
    firing.RunsChanged loop.stage.toRun
  earlier : ∀ firing older, loop.firings = firing :: older →
    ∀ done ∈ older, done.RunsChanged []
  notDrained : ∀ invocation ∈ loop.stage.toRun, invocation.id ∉ loop.drained

variable {loop next : RunLoop Path Callback}

/-! ## Ids -/

/-- A watch that is unwatched was registered by a call that has returned, and is
not registered again. -/
structure KnowsIds (loop : RunLoop Path Callback) : Prop where
  keeps : KeepsDescriptors loop.watcher
  alive : loop.watcher.destroyed = false
  returned : ∀ id, id ∈ loop.handles ∨ id ∈ loop.watcher.pendingUnwatches ∨
    id ∈ loop.drained →
      id ≤ loop.watcher.nextWatchId ∧ id ∉ loop.watcher.calls.keys
  gone : ∀ id ∈ loop.drained, id ∉ loop.watcher.watches.keys

theorem knowsIds_initial : KnowsIds ({} : RunLoop Path Callback) := by
  refine ⟨keepsDescriptors_initial, rfl, ?_, ?_⟩
  · rintro id (⟨⟨⟩⟩ | ⟨⟨⟩⟩ | ⟨⟨⟩⟩)
  · rintro id ⟨⟩

namespace KnowsIds

/-- The watcher and the ids are as they were. -/
theorem frame (knows : KnowsIds loop) (watcher : next.watcher = loop.watcher)
    (handles : next.handles = loop.handles)
    (drained : next.drained = loop.drained) : KnowsIds next := by
  refine ⟨?_, ?_, ?_, ?_⟩
  · exact watcher ▸ knows.keeps
  · exact watcher ▸ knows.alive
  · rw [watcher, handles, drained]
    exact knows.returned
  · rw [watcher, drained]
    exact knows.gone

theorem callWatchFile (knows : KnowsIds loop) {path parentPath : Path}
    {callback : Callback} {reply : Except Nat Nat}
    {result : Except ErrnoStatus WatchId × KqueueDescriptors Path Callback}
    (called : loop.watcher.callWatchFile path parentPath callback reply =
      some result) : KnowsIds { loop with watcher := result.2 } := by
  obtain ⟨watches, unwatches, destroyed, grows, calls⟩ :=
    callWatchFile_frame called
  refine ⟨knows.keeps.callWatchFile knows.alive called,
    destroyed.trans knows.alive, ?_, ?_⟩
  · intro id known
    rw [unwatches] at known
    obtain ⟨atMost, notCalling⟩ := knows.returned id known
    refine ⟨Nat.le_trans atMost grows, ?_⟩
    intro calling
    rcases calls id calling with old | rfl
    · exact notCalling old
    · exact Nat.not_succ_le_self _ atMost
  · intro id drained
    rw [watches]
    exact knows.gone id drained

theorem mem_handles_returnCall {id other : WatchId}
    {result : Except ErrnoStatus WatchId × KqueueDescriptors Path Callback}
    (isCall : ∀ returned, result.1 = .ok returned → returned = id)
    (handle : other ∈ (loop.returnCall result).handles) :
    other ∈ loop.handles ∨ other = id := by
  rcases result with ⟨reply, after⟩
  cases reply with
  | error status => exact Or.inl handle
  | ok returned =>
      rcases List.mem_append.mp handle with old | new
      · exact Or.inl old
      · rw [List.mem_singleton.mp new]
        exact Or.inr (isCall returned rfl)

theorem watchFile (knows : KnowsIds loop) {id : WatchId}
    {watch : Watch Path Callback} {armDir : Option Nat} {replies : FileReplies}
    {result : Except ErrnoStatus WatchId × KqueueDescriptors Path Callback}
    (calling : loop.watcher.calls.lookup id = some watch)
    (called : (loop.watcher.finishCall id).watchFile id watch armDir replies =
      some result) : KnowsIds (loop.returnCall result) := by
  obtain ⟨_, _, atMost, fresh⟩ := knows.keeps.calling id watch calling
  obtain ⟨calls, nextWatchId, unwatches, destroyed, registered, isCall⟩ :=
    watchFile_frame (by exact fresh) called
  have known : ∀ other, other ∈ (loop.returnCall result).handles ∨
      other ∈ result.2.pendingUnwatches ∨ other ∈ loop.drained →
        (other ≤ loop.watcher.nextWatchId ∧ other ∉ loop.watcher.calls.keys) ∨
          other = id := by
    intro other knownOther
    rw [unwatches] at knownOther
    rcases knownOther with handle | others
    · rcases mem_handles_returnCall isCall handle with old | isId
      · exact Or.inl (knows.returned other (Or.inl old))
      · exact Or.inr isId
    · exact Or.inl (knows.returned other (Or.inr others))
  refine ⟨knows.keeps.watchFile knows.alive calling called,
    destroyed.trans knows.alive, ?_, ?_⟩
  · intro other knownOther
    simp only [returnCall, calls, nextWatchId, finishCall, mem_keys_erase]
    rcases known other knownOther with ⟨below, notCalling⟩ | rfl
    · exact ⟨below, fun still => notCalling still.1⟩
    · exact ⟨atMost, fun still => still.2 rfl⟩
  · intro other drained present
    rcases registered other present with old | rfl
    · exact knows.gone other drained old
    · exact (knows.returned other (Or.inr (Or.inr drained))).2
        (mem_keys_of_lookup calling)

theorem closeWatch (knows : KnowsIds loop) {id : WatchId}
    (handle : id ∈ loop.handles) : KnowsIds (loop.closeWatch id) := by
  refine ⟨knows.keeps.sameKeys knows.keeps.owns (List.Subset.refl _) rfl rfl
    knows.alive, knows.alive, ?_, knows.gone⟩
  rintro other (handles | pending | drained)
  · exact knows.returned other (Or.inl (List.mem_of_mem_erase handles))
  · rcases List.mem_append.mp pending with old | new
    · exact knows.returned other (Or.inr (Or.inl old))
    · rw [List.mem_singleton.mp new]
      exact knows.returned id (Or.inl handle)
  · exact knows.returned other (Or.inr (Or.inr drained))

theorem drain (knows : KnowsIds loop) : KnowsIds loop.drain := by
  obtain ⟨_, calls, nextWatchId, destroyed⟩ :=
    foldl_drainOne_frame loop.watcher.pendingUnwatches loop.watcher
  refine ⟨knows.keeps.drain knows.alive, destroyed.trans knows.alive, ?_, ?_⟩
  · intro id known
    have before : id ≤ loop.watcher.nextWatchId ∧
        id ∉ loop.watcher.calls.keys := by
      rcases known with handle | pending | drained
      · exact knows.returned id (Or.inl handle)
      · cases pending
      · exact knows.returned id
          (Or.inr (List.mem_append.mp drained).symm)
    simp only [RunLoop.drain, KqueueDescriptors.drain, calls, nextWatchId]
    exact before
  · intro id drained present
    obtain ⟨registered, notPending⟩ := (mem_keys_drain loop.watcher id).mp present
    rcases List.mem_append.mp drained with old | pending
    · exact knows.gone id old registered
    · exact notPending pending

theorem handled (knows : KnowsIds loop) {id : WatchId} {ident : Int}
    {fflags : VnodeQueue.Flags} {replies : FileReplies}
    {result : Bool × Watch Path Callback × ResourceLedger Int}
    (present : id ∈ loop.watcher.watches.keys)
    (answers : loop.watcher.handleEvent id ident fflags replies =
      some (loop.watcher.setWatch id result)) (now : Int) :
    KnowsIds (loop.handled id now result) := by
  have sameKeys : (loop.watcher.setWatch id result).watches.keys =
      loop.watcher.watches.keys := by
    rw [setWatch, keys_assign, if_pos present]
  have set : KnowsIds { loop with watcher := loop.watcher.setWatch id result } := by
    refine ⟨knows.keeps.handleEvent knows.alive answers, knows.alive,
      knows.returned, ?_⟩
    intro other drained
    rw [sameKeys]
    exact knows.gone other drained
  unfold RunLoop.handled
  dsimp only
  split <;> exact set.frame rfl rfl rfl

end KnowsIds

/-- An event changes nothing, or it is handled as that of its watch. -/
theorem handleEvent_cases {event : KEvent} {now : Int} {replies : FileReplies}
    (handles : loop.handleEvent event now replies = some next) :
    next = loop ∨ ∃ id ident fflags result,
      id ∈ loop.watcher.watches.keys ∧
        loop.watcher.handleEvent id ident fflags replies =
          some (loop.watcher.setWatch id result) ∧
        next = loop.handled id now result := by
  cases event with
  | wake =>
      cases handles
      exact Or.inl rfl
  | vnode id ident fflags =>
      simp only [handleEvent] at handles
      split at handles
      · cases handles
        exact Or.inl rfl
      · rename_i watch found
        have present := mem_keys_of_lookup found
        split at handles
        · rename_i ofFile
          obtain ⟨result, answered, rfl⟩ := Option.map_eq_some_iff.mp handles
          refine Or.inr ⟨id, ident, fflags, result, present, ?_, rfl⟩
          simp only [KqueueDescriptors.handleEvent, found, if_pos ofFile, answered,
            Option.map_some]
        · rename_i notFile
          split at handles
          · rename_i ofDir
            obtain ⟨result, answered, rfl⟩ := Option.map_eq_some_iff.mp handles
            refine Or.inr ⟨id, ident, fflags, result, present, ?_, rfl⟩
            simp only [KqueueDescriptors.handleEvent, found, if_neg notFile,
              if_pos ofDir, answered, Option.map_some]
          · cases handles
            exact Or.inl rfl

theorem KnowsIds.step (knows : KnowsIds loop) {event : Event Path Callback}
    (stepped : RunLoop.step loop event = some next) : KnowsIds next := by
  cases moves_of_step stepped with
  | callWatchFile called => exact knows.callWatchFile called
  | watchFile calling called => exact knows.watchFile calling called
  | closeWatch handle => exact knows.closeWatch handle
  | drain => exact knows.drain
  | @handle event events now replies _ atStage handles =>
      have went : KnowsIds (loop.goTo (.handling events)) := knows.frame rfl rfl rfl
      rcases handleEvent_cases handles with
        rfl | ⟨id, ident, fflags, result, present, answers, rfl⟩
      · exact went
      · exact went.handled present answers now
  | checkShutdown =>
      unfold checkShutdown
      split <;> exact knows.frame rfl rfl rfl
  | checkDeadline =>
      unfold checkDeadline
      split
      · split <;> exact knows.frame rfl rfl rfl
      · exact knows.frame rfl rfl rfl
  | @invoke callbacks => cases callbacks <;> exact knows.frame rfl rfl rfl
  | shutDown | wait | keventFails | keventReturns | noneLeft | fire =>
      exact knows.frame rfl rfl rfl

/-! ## Changes -/

/-- The dirty watches are those that have changed since the last firing, and
there is a deadline for them. -/
structure KeepsChanges (loop : RunLoop Path Callback) : Prop where
  nodup : loop.dirty.Nodup
  dirty_iff : loop.stage.isInvoking = false →
    ∀ id, id ∈ loop.dirty ↔ (id, true) ∈ loop.history
  noneSince : loop.stage.isInvoking = true → loop.history = []
  deadline_iff : loop.deadline ≠ none ↔ loop.dirty ≠ []
  last : ∀ firing older, loop.firings = firing :: older →
    firing.RunsChanged loop.stage.toRun
  earlier : ∀ firing older, loop.firings = firing :: older →
    ∀ done ∈ older, done.RunsChanged []
  notDrained : ∀ invocation ∈ loop.stage.toRun, invocation.id ∉ loop.drained

theorem keepsChanges_initial : KeepsChanges ({} : RunLoop Path Callback) := by
  refine ⟨List.nodup_nil, ?_, ?_, ?_, ?_, ?_, ?_⟩
  · intro _ id
    simp
  · rintro ⟨⟩
  · simp
  · rintro firing older ⟨⟩
  · rintro firing older ⟨⟩
  · rintro invocation ⟨⟩

namespace KeepsChanges

theorem frame (keeps : KeepsChanges loop) (dirty : next.dirty = loop.dirty)
    (deadline : next.deadline = loop.deadline)
    (history : next.history = loop.history)
    (firings : next.firings = loop.firings)
    (invoking : next.stage.isInvoking = loop.stage.isInvoking)
    (toRun : next.stage.toRun = loop.stage.toRun)
    (notDrained : ∀ invocation ∈ next.stage.toRun,
      invocation.id ∉ next.drained) : KeepsChanges next := by
  refine ⟨?_, ?_, ?_, ?_, ?_, ?_, notDrained⟩
  · exact dirty ▸ keeps.nodup
  · rw [dirty, history, invoking]
    exact keeps.dirty_iff
  · rw [history, invoking]
    exact keeps.noneSince
  · rw [dirty, deadline]
    exact keeps.deadline_iff
  · rw [firings, toRun]
    exact keeps.last
  · rw [firings]
    exact keeps.earlier

/-- The thread goes from one section to another, and calls nothing back. -/
theorem goesTo (keeps : KeepsChanges loop)
    (before : loop.stage.isInvoking = false) (dirty : next.dirty = loop.dirty)
    (deadline : next.deadline = loop.deadline)
    (history : next.history = loop.history)
    (firings : next.firings = loop.firings)
    (after : next.stage.isInvoking = false) : KeepsChanges next := by
  have none := LoopStage.toRun_eq_nil after
  refine keeps.frame dirty deadline history firings (after.trans before.symm)
    (none.trans (LoopStage.toRun_eq_nil before).symm) ?_
  rw [none]
  rintro invocation ⟨⟩

theorem handled (keeps : KeepsChanges loop)
    (notInvoking : loop.stage.isInvoking = false) (id : WatchId) (now : Int)
    (result : Bool × Watch Path Callback × ResourceLedger Int) :
    KeepsChanges (loop.handled id now result) := by
  have dirty_iff := keeps.dirty_iff notInvoking
  rcases result with ⟨changed, opened⟩
  cases changed with
  | false =>
      refine ⟨keeps.nodup, ?_, ?_, keeps.deadline_iff, keeps.last, keeps.earlier,
        keeps.notDrained⟩
      · intro _ other
        simp [RunLoop.handled, dirty_iff]
      · intro invoking
        exact absurd (notInvoking.symm.trans invoking) Bool.false_ne_true
  | true =>
      refine ⟨keeps.nodup.insert, ?_, ?_, ?_, keeps.last, keeps.earlier,
        keeps.notDrained⟩
      · intro _ other
        simp only [RunLoop.handled, insertDirty, if_true, List.mem_insert_iff,
          List.mem_append, List.mem_singleton, Prod.mk.injEq, and_true, dirty_iff]
        exact or_comm
      · intro invoking
        exact absurd (notInvoking.symm.trans invoking) Bool.false_ne_true
      · have inserted : id ∈ loop.dirty.insert id := List.mem_insert_self
        simp [RunLoop.handled, insertDirty, List.ne_nil_of_mem inserted]

theorem mem_fireDirty {watches : LinkedHashMap WatchId (Watch Path Callback)}
    {order : List WatchId} (invocation : Invocation Path Callback) :
    invocation ∈ fireDirty watches order ↔ invocation.id ∈ order ∧
      ∃ watch, watches.lookup invocation.id = some watch ∧
        watch.invocation invocation.id = invocation := by
  simp only [fireDirty, List.mem_filterMap, Option.map_eq_some_iff]
  constructor
  · rintro ⟨id, member, watch, found, rfl⟩
    exact ⟨member, watch, found, rfl⟩
  · rintro ⟨member, watch, found, same⟩
    exact ⟨invocation.id, member, watch, found, same⟩

theorem nodup_fireDirty (watches : LinkedHashMap WatchId (Watch Path Callback))
    {order : List WatchId} (nodup : order.Nodup) :
    ((fireDirty watches order).map Invocation.id).Nodup := by
  have ids : (fireDirty watches order).map Invocation.id =
      order.filter fun id => (watches.lookup id).isSome := by
    rw [fireDirty, List.map_filterMap]
    clear nodup
    induction order with
    | nil => rfl
    | cons id order ih =>
        cases found : watches.lookup id with
        | none =>
            simpa only [List.filterMap_cons, List.filter_cons, found,
              Option.map_none, Option.isSome_none, Bool.false_eq_true, if_false]
              using ih
        | some watch =>
            simp only [List.filterMap_cons, List.filter_cons, found,
              Option.map_some, Option.isSome_some, if_true, ih]
            rfl
  rw [ids]
  exact nodup.filter _

/-- `FireDirty` takes the callbacks that are to run. -/
theorem fire (keeps : KeepsChanges loop) (knows : KnowsIds loop)
    (atStage : loop.stage = .fire) {order : List WatchId}
    (iterates : order.Perm loop.dirty) : KeepsChanges (loop.fire order) := by
  have registered : ∀ invocation ∈ fireDirty loop.watcher.watches order,
      invocation.id ∉ loop.drained := by
    intro invocation member drained
    obtain ⟨_, watch, found, _⟩ := (mem_fireDirty invocation).mp member
    exact knows.gone _ drained (mem_keys_of_lookup found)
  have dirty_iff := keeps.dirty_iff (by rw [atStage]; rfl)
  refine ⟨keeps.nodup, ?_, fun _ => rfl, keeps.deadline_iff, ?_, ?_, registered⟩
  · rintro ⟨⟩
  · rintro firing older ⟨⟩
    refine ⟨nodup_fireDirty _ (iterates.nodup_iff.mpr keeps.nodup), ?_, registered⟩
    intro invocation
    have takes : invocation ∈ fireDirty loop.watcher.watches order ↔ _ :=
      mem_fireDirty invocation
    rw [iterates.mem_iff, dirty_iff] at takes
    exact takes
  · rintro firing older ⟨⟩
    cases firingsEq : loop.firings with
    | nil =>
        rintro done ⟨⟩
    | cons previous others =>
        intro done member
        rcases List.mem_cons.mp member with rfl | earlier
        · have finished := keeps.last done others firingsEq
          rw [atStage] at finished
          exact finished
        · exact keeps.earlier previous others firingsEq done earlier

theorem invoke (keeps : KeepsChanges loop)
    {callbacks : List (Invocation Path Callback)}
    (atStage : loop.stage = .invoking callbacks) :
    KeepsChanges (loop.invoke callbacks) := by
  have last := keeps.last
  have notDrained := keeps.notDrained
  have noneSince := keeps.noneSince (by rw [atStage]; rfl)
  rw [atStage] at last notDrained
  cases callbacks with
  | nil =>
      refine ⟨List.nodup_nil, ?_, ?_, ?_, last, keeps.earlier, ?_⟩
      · intro _ id
        simp [RunLoop.invoke, noneSince]
      · rintro ⟨⟩
      · simp [RunLoop.invoke]
      · rintro invocation ⟨⟩
  | cons invocation callbacks =>
      refine ⟨keeps.nodup, ?_, fun _ => noneSince, keeps.deadline_iff, ?_, ?_, ?_⟩
      · rintro ⟨⟩
      · intro firing older recorded
        cases firingsEq : loop.firings with
        | nil =>
            rw [RunLoop.invoke, firingsEq] at recorded
            cases recorded
        | cons current others =>
            rw [RunLoop.invoke, firingsEq] at recorded
            cases recorded
            exact (last current older firingsEq).recorded
      · intro firing older recorded
        cases firingsEq : loop.firings with
        | nil =>
            rw [RunLoop.invoke, firingsEq] at recorded
            cases recorded
        | cons current others =>
            rw [RunLoop.invoke, firingsEq] at recorded
            cases recorded
            exact keeps.earlier current older firingsEq
      · intro other member
        exact notDrained other (List.mem_cons_of_mem invocation member)

theorem step (keeps : KeepsChanges loop) (knows : KnowsIds loop)
    {event : Event Path Callback}
    (stepped : RunLoop.step loop event = some next) : KeepsChanges next := by
  cases moves_of_step stepped with
  | callWatchFile | watchFile | closeWatch | shutDown =>
      exact keeps.frame rfl rfl rfl rfl rfl rfl keeps.notDrained
  | checkShutdown atStage =>
      have before : loop.stage.isInvoking = false := by rw [atStage]; rfl
      unfold checkShutdown
      split <;> exact keeps.goesTo before rfl rfl rfl rfl rfl
  | drain atStage | wait _ atStage | keventFails atStage
  | keventReturns _ atStage | noneLeft atStage =>
      exact keeps.goesTo (by rw [atStage]; rfl) rfl rfl rfl rfl rfl
  | @handle event events now replies _ atStage handles =>
      have went : KeepsChanges (loop.goTo (.handling events)) :=
        keeps.goesTo (by rw [atStage]; rfl) rfl rfl rfl rfl rfl
      rcases handleEvent_cases handles with
        rfl | ⟨id, ident, fflags, result, _, _, rfl⟩
      · exact went
      · exact went.handled rfl id now result
  | checkDeadline now atStage =>
      have before : loop.stage.isInvoking = false := by rw [atStage]; rfl
      unfold checkDeadline
      split
      · split <;> exact keeps.goesTo before rfl rfl rfl rfl rfl
      · exact keeps.goesTo before rfl rfl rfl rfl rfl
  | fire atStage iterates => exact keeps.fire knows atStage iterates
  | invoke atStage => exact keeps.invoke atStage

end KeepsChanges

/-- In each state of a run of the loop the deadline is that of the dirty watches,
and the firings run the callbacks of the watches that have changed, once each,
and of no watch whose unwatch has been drained. -/
theorem coalesces_of_run (events : List (Event Path Callback)) :
    Throughout step Coalesces ({} : RunLoop Path Callback) events := by
  have holds : ∀ loop : RunLoop Path Callback,
      KeepsChanges loop ∧ KnowsIds loop → Coalesces loop := by
    rintro loop ⟨keeps, _⟩
    exact ⟨fun _ => keeps.deadline_iff, keeps.last, keeps.earlier, keeps.notDrained⟩
  refine throughout_invariant holds ?_ ⟨keepsChanges_initial, knowsIds_initial⟩
    events
  rintro loop event next ⟨keeps, knows⟩ stepped
  exact ⟨keeps.step knows stepped, knows.step stepped⟩

/-- The file changes three times, in two batches, before the window is over. -/
def changesInWindow : List (Event Unit Unit) :=
  [.callWatchFile () () () (.ok 3), .watchFile 2 none { openFile := .ok 4 },
    .work, .work, .clock 0,
    .keventReturns [.vnode 2 4 { changed := true }, .vnode 2 4 { changed := true }],
    .handle 0 { openFile := .ok 4 }, .handle 1 { openFile := .ok 4 }, .work,
    .clock 2, .work, .work, .clock 3,
    .keventReturns [.wake, .vnode 2 4 { changed := true }],
    .handle 4 { openFile := .ok 4 }, .handle 4 { openFile := .ok 4 }, .work,
    .clock kCoalesceWindow, .fire [2], .work, .work]

example : (run step {} changesInWindow).map (fun loop =>
    loop.firings.map fun firing => firing.ran.map Invocation.id) =
      some [[2]] := by
  rfl

end RunLoop

end KqueueDescriptors

end Birch

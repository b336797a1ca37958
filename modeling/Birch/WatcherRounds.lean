import Birch.Debouncing
import Birch.KqueueCoalescing
import Birch.WinDirectoryTables
import Birch.WinNotifications

/-!
# The rounds of the watchers

The threads of the Windows watcher and of the kqueue watcher are two versions
of one loop: they gather the watches that have changed, and call them back when
the coalescing window is over.  What can be seen of each step, from what the
code reads and computes in it, makes a list of actions over a run.  The lists of
both watchers obey the law of a debouncer.
-/

namespace Birch

open Debouncing EventRuns LinkedHashMap

variable {Path Callback : Type*}

/-! ## The Windows watcher -/

namespace WinDirWatcher

variable (dir : WinDirWatcher Path Callback)

/-- The function inserts the same ids into every set. -/
structure Gathers (gather : List WinWatchId → List WinWatchId) : Prop where
  nodup : ∀ dirty : List WinWatchId, dirty.Nodup → (gather dirty).Nodup
  mem_iff : ∀ dirty id, id ∈ gather dirty ↔ id ∈ dirty ∨ id ∈ gather []

theorem gathers_self : Gathers fun dirty => dirty :=
  ⟨fun _ nodup => nodup, by simp⟩

theorem Gathers.comp {first second : List WinWatchId → List WinWatchId}
    (before : Gathers first) (after : Gathers second) :
    Gathers fun dirty => second (first dirty) := by
  refine ⟨fun dirty nodup => after.nodup _ (before.nodup dirty nodup), ?_⟩
  intro dirty id
  rw [after.mem_iff (first dirty), before.mem_iff dirty, after.mem_iff (first []),
    or_assoc]

theorem gathers_insertIds (entries : List (Entry Path Callback)) :
    Gathers fun dirty => insertIds dirty entries := by
  constructor
  · intro dirty nodup
    induction entries generalizing dirty with
    | nil => exact nodup
    | cons entry entries ih => exact ih (dirty.insert entry.id) nodup.insert
  · intro dirty id
    simp [mem_insertIds]

theorem gathers_collectRecord (toLowerKey : WString → WString)
    (buffer : List UInt8) (p : Nat) :
    Gathers fun dirty => dir.collectRecord toLowerKey buffer p dirty := by
  unfold collectRecord
  split
  · exact gathers_insertIds _
  · exact gathers_self

/-- By induction on the bytes that are left. -/
theorem gathers_collectRecords (toLowerKey : WString → WString)
    (buffer : List UInt8) (bytes p : Nat) :
    Gathers fun dirty => dir.collectRecords toLowerKey buffer bytes p dirty := by
  induction left : bytes - p using Nat.strong_induction_on generalizing p with
  | _ size ih =>
      by_cases within : p + sizeofFileNotifyInformation ≤ bytes
      · by_cases isLast : nextEntryOffset buffer p = 0
        · have reads : (fun dirty =>
              dir.collectRecords toLowerKey buffer bytes p dirty) =
                fun dirty => dir.collectRecord toLowerKey buffer p dirty := by
            funext dirty
            rw [collectRecords, if_pos within, if_pos isLast]
          rw [reads]
          exact dir.gathers_collectRecord toLowerKey buffer p
        · have reads : (fun dirty =>
              dir.collectRecords toLowerKey buffer bytes p dirty) =
                fun dirty => dir.collectRecords toLowerKey buffer bytes
                  (p + nextEntryOffset buffer p)
                  (dir.collectRecord toLowerKey buffer p dirty) := by
            funext dirty
            rw [collectRecords, if_pos within, if_neg isLast]
          have fewer : bytes - (p + nextEntryOffset buffer p) < size := by
            rw [sizeofFileNotifyInformation] at within
            omega
          rw [reads]
          exact (dir.gathers_collectRecord toLowerKey buffer p).comp
            (ih _ fewer _ rfl)
      · have reads : (fun dirty =>
            dir.collectRecords toLowerKey buffer bytes p dirty) =
              fun dirty => dirty := by
          funext dirty
          rw [collectRecords, if_neg within]
        rw [reads]
        exact gathers_self

theorem gathers_collectDirty (toLowerKey : WString → WString)
    (buffer : List UInt8) (bytes : Nat) :
    Gathers fun dirty => dir.collectDirty toLowerKey buffer dirty bytes := by
  unfold collectDirty
  split
  · exact gathers_insertIds _
  · exact dir.gathers_collectRecords toLowerKey buffer bytes 0

end WinDirWatcher

namespace WinFileWatcher

/-- The callbacks that are registered for an id. -/
def registeredFor (watcher : WinFileWatcher Path Callback) (id : WinWatchId) :
    List (Callback × Path) :=
  watcher.fireDirty [id]

theorem fireDirty_eq_flatMap (watcher : WinFileWatcher Path Callback)
    (order : List WinWatchId) :
    watcher.fireDirty order = order.flatMap watcher.registeredFor := by
  induction order with
  | nil => rfl
  | cons id order ih =>
      have split : watcher.fireDirty (id :: order) =
          watcher.fireDirty [id] ++ watcher.fireDirty order := by
        simp only [fireDirty]
        rw [← List.filterMap_append]
        rfl
      rw [split, ih, List.flatMap_cons]
      rfl

/-- The callbacks of a firing that is going on. -/
def Stage.firing : Stage Path Callback → Option (List (Callback × Path))
  | .invoking callbacks => some callbacks
  | _ => none

/-- Between `CollectDirty` and the end of the turn the deadline may not be set
yet. -/
def Stage.collected : Stage Path Callback → Bool
  | .reissue _ => true
  | .takeOut _ => true
  | _ => false

def Stage.hasReturned : Stage Path Callback → Bool
  | .returned => true
  | _ => false

end WinFileWatcher

open WinFileWatcher

namespace WinWatcherSystem

variable {system next : WinWatcherSystem Path Callback}

/-! ### The steps of the clients -/

/-- A step of a client opens a directory at most, whose first read is issued. -/
structure Visits (system next : WinWatcherSystem Path Callback) : Prop where
  stage : next.stage = system.stage
  dirty : next.dirty = system.dirty
  due : next.deadline = system.deadline
  shuttingDown : next.shuttingDown = system.shuttingDown
  shutdown : next.watcher.shutdown = system.watcher.shutdown
  invoked : next.invoked = system.invoked
  reads : next.reads = system.reads ∧ system.nextObject ≤ next.nextObject ∨
    next.reads = Function.update system.reads system.nextObject
        (system.reads system.nextObject + 1) ∧
      next.nextObject = system.nextObject + 1

theorem visits_callWatchFile (toLowerKey : WString → WString) (canon : Path)
    (parentPath filename currentPath : WString) (callback : Callback) :
    Visits system (system.callWatchFile toLowerKey canon parentPath filename
      currentPath callback).2 := by
  unfold callWatchFile
  split <;> exact ⟨rfl, rfl, rfl, rfl, rfl, rfl, Or.inl ⟨rfl, Nat.le_refl _⟩⟩

theorem visits_watchFile (id : WinWatchId) (call : PendingCall Path Callback)
    (replies : SystemReplies) :
    Visits system (system.watchFile id call replies).2 := by
  unfold watchFile
  split
  · exact ⟨rfl, rfl, rfl, rfl, rfl, rfl, Or.inl ⟨rfl, Nat.le_refl _⟩⟩
  · split
    · exact ⟨rfl, rfl, rfl, rfl, rfl, rfl, Or.inl ⟨rfl, Nat.le_refl _⟩⟩
    · rename_i dir opens
      obtain rfl := object_of_openDir opens
      dsimp only
      split
      · exact ⟨rfl, rfl, rfl, rfl, rfl, rfl, Or.inr ⟨rfl, rfl⟩⟩
      · exact ⟨rfl, rfl, rfl, rfl, rfl, rfl, Or.inl ⟨rfl, Nat.le_succ _⟩⟩

/-! ### The ids of a completion -/

/-- The ids that `CollectDirty` inserts. -/
def reported (toLowerKey : WString → WString)
    (system : WinWatcherSystem Path Callback) (object : Nat)
    (buffer : List UInt8) (bytes : Nat) : List WinWatchId :=
  match system.watcher.findActive object with
  | some (_, dir) => dir.collectDirty toLowerKey buffer [] bytes
  | none => []

theorem mem_collect (toLowerKey : WString → WString) (object : Nat)
    (buffer : List UInt8) (bytes : Nat) (id : WinWatchId) :
    id ∈ (system.collect toLowerKey object buffer bytes).dirty ↔
      id ∈ system.dirty ∨ id ∈ system.reported toLowerKey object buffer bytes := by
  simp only [collect, reported]
  rcases system.watcher.findActive object with _ | ⟨_, dir⟩
  · simp
  · exact (dir.gathers_collectDirty toLowerKey buffer bytes).mem_iff _ id

theorem nodup_collect (toLowerKey : WString → WString) (object : Nat)
    (buffer : List UInt8) (bytes : Nat) (nodup : system.dirty.Nodup) :
    (system.collect toLowerKey object buffer bytes).dirty.Nodup := by
  simp only [collect]
  rcases system.watcher.findActive object with _ | ⟨_, dir⟩
  · exact nodup
  · exact (dir.gathers_collectDirty toLowerKey buffer bytes).nodup _ nodup

/-! ### The deadline -/

/-- The deadline is set for dirty watches only, and at the end of each turn it
is set for them. -/
structure KeepsDeadline (system : WinWatcherSystem Path Callback) : Prop where
  dirty : system.deadline = true → system.dirty ≠ []
  armed : system.stage.hasReturned = false → system.stage.collected = false →
    system.dirty ≠ [] → system.deadline = true
  fires : system.stage = .fire → system.deadline = true

theorem keepsDeadline_initial :
    KeepsDeadline ({} : WinWatcherSystem Path Callback) := by
  refine ⟨?_, ?_, ?_⟩
  · rintro ⟨⟩
  · exact fun _ _ nonempty => absurd rfl nonempty
  · rintro ⟨⟩

namespace KeepsDeadline

theorem visits (keeps : KeepsDeadline system) (visits : Visits system next) :
    KeepsDeadline next := by
  obtain ⟨stage, dirty, due, _⟩ := visits
  constructor <;> rw [due]
  · rw [dirty]
    exact keeps.dirty
  · rw [stage, dirty]
    exact keeps.armed
  · rw [stage]
    exact keeps.fires

/-- The thread goes on to another stage, from one where the deadline is set. -/
theorem goesOn (keeps : KeepsDeadline system) (dirty : next.dirty = system.dirty)
    (due : next.deadline = system.deadline)
    (running : system.stage.hasReturned = false)
    (fromStage : system.stage.collected = false)
    (fires : next.stage = .fire → system.deadline = true) :
    KeepsDeadline next := by
  constructor <;> rw [due]
  · rw [dirty]
    exact keeps.dirty
  · rw [dirty]
    exact fun _ _ => keeps.armed running fromStage
  · exact fires

theorem armDeadline (dirty : system.deadline = true → system.dirty ≠ []) :
    KeepsDeadline system.armDeadline := by
  refine ⟨?_, ?_, ?_⟩
  · intro armed
    simp only [WinWatcherSystem.armDeadline, Bool.or_eq_true,
      Bool.not_eq_true', List.isEmpty_eq_false_iff] at armed
    exact armed.elim dirty fun nonempty => nonempty
  · intro _ _ nonempty
    simp only [WinWatcherSystem.armDeadline] at nonempty ⊢
    simp [nonempty]
  · rintro ⟨⟩

theorem collect (keeps : KeepsDeadline system) (toLowerKey : WString → WString)
    (object : Nat) (buffer : List UInt8) (bytes : Nat) :
    KeepsDeadline (system.collect toLowerKey object buffer bytes) := by
  refine ⟨?_, ?_, ?_⟩
  · intro armed
    obtain ⟨id, member⟩ := List.exists_mem_of_ne_nil _ (keeps.dirty armed)
    exact List.ne_nil_of_mem
      ((mem_collect toLowerKey object buffer bytes id).mpr (Or.inl member))
  · rintro _ ⟨⟩
  · rintro ⟨⟩

theorem step {toLowerKey : WString → WString} (keeps : KeepsDeadline system)
    {event : Event Path Callback}
    (stepped : WinWatcherSystem.step toLowerKey system event = some next) :
    KeepsDeadline next := by
  cases moves_of_step stepped with
  | callWatchFile canon parentPath filename currentPath callback =>
      exact keeps.visits (visits_callWatchFile toLowerKey canon parentPath filename
        currentPath callback)
  | @watchFile id call replies =>
      have finished : KeepsDeadline (system.finishCall id) :=
        ⟨keeps.dirty, keeps.armed, keeps.fires⟩
      exact finished.visits (visits_watchFile id call replies)
  | closeWatch | wake | flag | join =>
      exact ⟨keeps.dirty, keeps.armed, keeps.fires⟩
  | drain atStage | dequeueNothing atStage | dequeueWake atStage
  | dequeueRead _ atStage | fire atStage =>
      exact keeps.goesOn rfl rfl (by rw [atStage]; rfl) (by rw [atStage]; rfl)
        (by rintro ⟨⟩)
  | checkShutdown atStage =>
      unfold WinWatcherSystem.checkShutdown
      split <;>
        exact keeps.goesOn rfl rfl (by rw [atStage]; rfl) (by rw [atStage]; rfl)
          (by rintro ⟨⟩)
  | checkExit atStage =>
      unfold WinWatcherSystem.checkExit
      split <;>
        exact keeps.goesOn rfl rfl (by rw [atStage]; rfl) (by rw [atStage]; rfl)
          (by rintro ⟨⟩)
  | lookUp atStage =>
      unfold WinWatcherSystem.lookUp
      split
      · exact keeps.goesOn rfl rfl (by rw [atStage]; rfl) (by rw [atStage]; rfl)
          (by rintro ⟨⟩)
      · split <;>
          exact keeps.goesOn rfl rfl (by rw [atStage]; rfl) (by rw [atStage]; rfl)
            (by rintro ⟨⟩)
  | retire =>
      refine ⟨?_, ?_, ?_⟩
      · rintro ⟨⟩
      · exact fun _ _ nonempty => absurd rfl nonempty
      · rintro ⟨⟩
  | @collect object bytes buffer =>
      exact keeps.collect toLowerKey object buffer bytes
  | takeOut => exact armDeadline keeps.dirty
  | issueRead issued =>
      cases issued with
      | true => exact armDeadline keeps.dirty
      | false =>
          refine ⟨keeps.dirty, ?_, ?_⟩
          · rintro _ ⟨⟩
          · rintro ⟨⟩
  | clock passed atStage =>
      unfold WinWatcherSystem.clock
      split
      · rename_i both
        rw [Bool.and_eq_true] at both
        exact keeps.goesOn rfl rfl (by rw [atStage]; rfl) (by rw [atStage]; rfl)
          (fun _ => both.1)
      · exact keeps.goesOn rfl rfl (by rw [atStage]; rfl) (by rw [atStage]; rfl)
          (by rintro ⟨⟩)
  | @invoke callbacks atStage =>
      cases callbacks with
      | nil =>
          refine ⟨?_, ?_, ?_⟩
          · rintro ⟨⟩
          · exact fun _ _ nonempty => absurd rfl nonempty
          · rintro ⟨⟩
      | cons callback callbacks =>
          exact keeps.goesOn rfl rfl (by rw [atStage]; rfl) (by rw [atStage]; rfl)
            (by rintro ⟨⟩)
  | callbackThrows =>
      refine ⟨keeps.dirty, ?_, ?_⟩
      · rintro ⟨⟩
      · rintro ⟨⟩

end KeepsDeadline

theorem keepsDeadline_of_run {toLowerKey : WString → WString}
    {events : List (Event Path Callback)}
    (ran : EventRuns.run (step toLowerKey) {} events = some system) :
    KeepsDeadline system :=
  run_invariant (fun _ _ _ keeps stepped => KeepsDeadline.step keeps stepped)
    keepsDeadline_initial ran

/-! ### What can be seen -/

/-- What can be seen of the next step, if it is one of the thread. -/
def observe (toLowerKey : WString → WString)
    (system : WinWatcherSystem Path Callback) :
    Event Path Callback → List (Action WinWatchId (Callback × Path))
  | .work =>
      match system.stage with
      | .collect object buffer bytes =>
          [.mark (system.reported toLowerKey object buffer bytes)]
      | .retire => [.reset]
      | .invoking [] => [.finish]
      | .invoking (callback :: _) => [.call callback]
      | _ => []
  | .fire order => [.begin order system.watcher.registeredFor]
  | .callbackThrows =>
      match system.stage with
      | .invoking (callback :: _) => [.call callback]
      | _ => []
  | _ => []

/-- The state is the one that the actions lead to.  What the thread had left to
do does not matter once it has returned. -/
structure Debounces (system : WinWatcherSystem Path Callback)
    (actions : List (Action WinWatchId (Callback × Path))) : Prop where
  lawful : Debounced actions
  nodup : system.dirty.Nodup
  called : system.invoked = Debouncing.calls actions
  inRound : system.stage.hasReturned = false →
    ∀ left, InRound actions left ↔ system.stage.firing = some left
  marked : system.stage.hasReturned = false → system.stage.firing = none →
    ∀ id, id ∈ system.dirty ↔ id ∈ markedSince actions
  unmarked : system.stage.firing ≠ none → markedSince actions = []

variable {toLowerKey : WString → WString}
  {actions : List (Action WinWatchId (Callback × Path))}

theorem debounces_initial :
    Debounces ({} : WinWatcherSystem Path Callback) [] := by
  refine ⟨debounced_nil, List.nodup_nil, rfl, ?_, ?_, fun _ => rfl⟩
  · simp [Stage.firing]
  · simp [markedSince]

namespace Debounces

/-- Nothing is seen. -/
theorem unseen (debounces : Debounces system actions)
    (dirty : next.dirty = system.dirty) (invoked : next.invoked = system.invoked)
    (firing : next.stage.firing = system.stage.firing)
    (returned : next.stage.hasReturned = false →
      system.stage.hasReturned = false) : Debounces next (actions ++ []) := by
  rw [List.append_nil]
  refine ⟨debounces.lawful, ?_, ?_, ?_, ?_, ?_⟩
  · exact dirty ▸ debounces.nodup
  · exact invoked.trans debounces.called
  · rw [firing]
    exact fun running => debounces.inRound (returned running)
  · rw [firing, dirty]
    exact fun running => debounces.marked (returned running)
  · rw [firing]
    exact debounces.unmarked

theorem visits (debounces : Debounces system actions)
    (visits : Visits system next) : Debounces next (actions ++ []) :=
  debounces.unseen visits.dirty visits.invoked (by rw [visits.stage])
    (by rw [visits.stage]; exact id)

theorem idle (debounces : Debounces system actions)
    (running : system.stage.hasReturned = false)
    (notFiring : system.stage.firing = none) (left : List (Callback × Path)) :
    ¬ InRound actions left := by
  rw [debounces.inRound running, notFiring]
  rintro ⟨⟩

/-- The thread sees the shutdown, and forgets what has changed. -/
theorem retire (debounces : Debounces system actions)
    (atStage : system.stage = .retire) :
    Debounces system.retire (actions ++ [.reset]) := by
  refine ⟨debounces.lawful.concat (debounces.idle (by rw [atStage]; rfl)
    (by rw [atStage]; rfl)), List.nodup_nil, ?_, ?_, ?_, ?_⟩
  · simp [WinWatcherSystem.retire, debounces.called, Action.called]
  · simp [WinWatcherSystem.retire, Stage.firing]
  · simp [WinWatcherSystem.retire, Action.marks]
  · simp [Action.marks]

/-- The ids of the names in the buffer are marked. -/
theorem collect (debounces : Debounces system actions)
    (toLowerKey : WString → WString) {object bytes : Nat} {buffer : List UInt8}
    (atStage : system.stage = .collect object buffer bytes) :
    Debounces (system.collect toLowerKey object buffer bytes)
      (actions ++ [.mark (system.reported toLowerKey object buffer bytes)]) := by
  have running : system.stage.hasReturned = false := by rw [atStage]; rfl
  have notFiring : system.stage.firing = none := by rw [atStage]; rfl
  have same := debounces.marked running notFiring
  refine ⟨debounces.lawful.concat (debounces.idle running notFiring),
    nodup_collect toLowerKey object buffer bytes debounces.nodup, ?_, ?_, ?_, ?_⟩
  · simp [WinWatcherSystem.collect, debounces.called, Action.called]
  · simp [WinWatcherSystem.collect, Stage.firing]
  · intro _ _ id
    rw [markedSince_concat, Action.marks, List.mem_append, ← same]
    exact mem_collect toLowerKey object buffer bytes id
  · intro firing
    exact absurd rfl firing

/-- The round begins with the watches that are registered now. -/
theorem fire (debounces : Debounces system actions) (keeps : KeepsDeadline system)
    (atStage : system.stage = .fire) {order : List WinWatchId}
    (iterates : order.Perm system.dirty) :
    Debounces (system.fire order)
      (actions ++ [.begin order system.watcher.registeredFor]) := by
  have running : system.stage.hasReturned = false := by rw [atStage]; rfl
  have notFiring : system.stage.firing = none := by rw [atStage]; rfl
  have same := debounces.marked running notFiring
  have nonempty : order ≠ [] := by
    rintro rfl
    exact keeps.dirty (keeps.fires atStage) iterates.nil_eq.symm
  have follows : Action.Follows actions
      (.begin order system.watcher.registeredFor) :=
    ⟨debounces.idle running notFiring, nonempty,
      iterates.nodup_iff.mpr debounces.nodup,
      fun id => iterates.mem_iff.trans (same id)⟩
  refine ⟨debounces.lawful.concat follows, debounces.nodup, ?_, ?_, ?_, ?_⟩
  · simp [WinWatcherSystem.fire, goTo, debounces.called, Action.called]
  · simp [WinWatcherSystem.fire, goTo, Stage.firing, fireDirty_eq_flatMap]
  · rintro _ ⟨⟩
  · simp [Action.marks]

/-- The next callback is called, and the thread goes on or returns. -/
theorem call (debounces : Debounces system actions) {callback : Callback × Path}
    {callbacks : List (Callback × Path)}
    (atStage : system.stage = .invoking (callback :: callbacks))
    (dirty : next.dirty = system.dirty)
    (invoked : next.invoked = system.invoked ++ [callback])
    (stage : next.stage.hasReturned = true ∨ next.stage = .invoking callbacks) :
    Debounces next (actions ++ [.call callback]) := by
  have going := debounces.inRound (by rw [atStage]; rfl)
  have unmarked := debounces.unmarked (by rw [atStage]; simp [Stage.firing])
  simp only [atStage, Stage.firing, Option.some.injEq] at going
  refine ⟨debounces.lawful.concat ⟨callbacks, (going _).mpr rfl⟩, ?_, ?_, ?_, ?_,
    ?_⟩
  · exact dirty ▸ debounces.nodup
  · simp [invoked, debounces.called, Action.called]
  · intro running left
    rcases stage with returned | stage
    · rw [running] at returned
      cases returned
    · simp [stage, Stage.firing, going]
  · intro running notFiring
    rcases stage with returned | stage
    · rw [running] at returned
      cases returned
    · rw [stage] at notFiring
      cases notFiring
  · simp [Action.marks, unmarked]

/-- No callback of the round is left. -/
theorem finish (debounces : Debounces system actions)
    (atStage : system.stage = .invoking []) :
    Debounces (system.invoke []) (actions ++ [.finish]) := by
  have going := debounces.inRound (by rw [atStage]; rfl) []
  have unmarked := debounces.unmarked (by rw [atStage]; simp [Stage.firing])
  rw [atStage] at going
  refine ⟨debounces.lawful.concat (going.mpr rfl), List.nodup_nil, ?_, ?_, ?_, ?_⟩
  · simp [WinWatcherSystem.invoke, debounces.called, Action.called]
  · simp [WinWatcherSystem.invoke, Stage.firing]
  · simp [WinWatcherSystem.invoke, Action.marks, unmarked]
  · simp [Action.marks, unmarked]

theorem step (debounces : Debounces system actions) (keeps : KeepsDeadline system)
    {event : Event Path Callback}
    (stepped : WinWatcherSystem.step toLowerKey system event = some next) :
    Debounces next (actions ++ system.observe toLowerKey event) := by
  cases moves_of_step stepped with
  | callWatchFile canon parentPath filename currentPath callback =>
      exact debounces.visits (visits_callWatchFile toLowerKey canon parentPath
        filename currentPath callback)
  | @watchFile id call replies =>
      have finished : Debounces (system.finishCall id) actions :=
        ⟨debounces.lawful, debounces.nodup, debounces.called, debounces.inRound,
          debounces.marked, debounces.unmarked⟩
      exact finished.visits (visits_watchFile id call replies)
  | closeWatch | wake | flag | join =>
      exact debounces.unseen rfl rfl rfl (fun running => running)
  | drain atStage | takeOut atStage =>
      simp only [observe, atStage]
      exact debounces.unseen rfl rfl (by rw [atStage]; rfl)
        (fun _ => by rw [atStage]; rfl)
  | dequeueNothing atStage | dequeueWake atStage | dequeueRead _ atStage =>
      exact debounces.unseen rfl rfl (by rw [atStage]; rfl)
        (fun _ => by rw [atStage]; rfl)
  | checkShutdown atStage =>
      simp only [observe, atStage]
      unfold WinWatcherSystem.checkShutdown
      split <;>
        exact debounces.unseen rfl rfl (by rw [atStage]; rfl)
          (fun _ => by rw [atStage]; rfl)
  | checkExit atStage =>
      simp only [observe, atStage]
      unfold WinWatcherSystem.checkExit
      split <;>
        exact debounces.unseen rfl rfl (by rw [atStage]; rfl)
          (fun _ => by rw [atStage]; rfl)
  | lookUp atStage =>
      simp only [observe, atStage]
      unfold WinWatcherSystem.lookUp
      split
      · exact debounces.unseen rfl rfl (by rw [atStage]; rfl)
          (fun _ => by rw [atStage]; rfl)
      · split <;>
          exact debounces.unseen rfl rfl (by rw [atStage]; rfl)
            (fun _ => by rw [atStage]; rfl)
  | issueRead issued atStage =>
      cases issued <;>
        exact debounces.unseen rfl rfl (by rw [atStage]; rfl)
          (fun _ => by rw [atStage]; rfl)
  | clock passed atStage =>
      unfold WinWatcherSystem.clock
      split <;>
        exact debounces.unseen rfl rfl (by rw [atStage]; rfl)
          (fun _ => by rw [atStage]; rfl)
  | retire atStage =>
      simp only [observe, atStage]
      exact debounces.retire atStage
  | collect atStage =>
      simp only [observe, atStage]
      exact debounces.collect toLowerKey atStage
  | fire atStage iterates => exact debounces.fire keeps atStage iterates
  | @invoke callbacks atStage =>
      simp only [observe, atStage]
      cases callbacks with
      | nil => exact debounces.finish atStage
      | cons callback callbacks =>
          exact debounces.call atStage rfl rfl (Or.inr rfl)
  | callbackThrows atStage =>
      simp only [observe, atStage]
      exact debounces.call atStage rfl rfl (Or.inl rfl)

end Debounces

/-- What can be seen of a run. -/
def seen (toLowerKey : WString → WString) (events : List (Event Path Callback)) :
    List (Action WinWatchId (Callback × Path)) :=
  observed (step toLowerKey) (observe toLowerKey) {} events

/-- The buffer has overflown, so that every watch of the directory has
changed. -/
def overflownDirectory : List (Event Unit Unit) :=
  [.callWatchFile () [100] [102] [] (), .watchFile 1 {}, .work, .work, .work,
    .dequeueRead 0 (.transferred [] 0), .work, .work, .issueRead true,
    .clock false, .work, .work, .work, .dequeueNothing, .clock true, .fire [1],
    .work]

end WinWatcherSystem

/-! ## The kqueue watcher -/

namespace KqueueDescriptors

/-- The callback that is registered for an id. -/
def registeredFor (watches : LinkedHashMap WatchId (Watch Path Callback))
    (id : WatchId) : List (Invocation Path Callback) :=
  ((watches.lookup id).map fun watch => watch.invocation id).toList

/-- The callbacks of a firing that is going on. -/
def LoopStage.firing :
    LoopStage Path Callback → Option (List (Invocation Path Callback))
  | .invoking callbacks => some callbacks
  | _ => none

theorem LoopStage.isInvoking_eq_false {stage : LoopStage Path Callback}
    (notFiring : stage.firing = none) : stage.isInvoking = false := by
  cases stage with
  | invoking callbacks => cases notFiring
  | _ => rfl

/-- The firing is the round: it was about the watches that had changed, with the
callbacks that were registered, and has run what the round has called. -/
structure Firing.IsRound (firing : Firing Path Callback)
    (round : Round WatchId (Invocation Path Callback)) : Prop where
  order : ∀ id, id ∈ round.order ↔ (id, true) ∈ firing.handled
  table : round.table = registeredFor firing.registered
  made : round.made = firing.ran

namespace RunLoop

theorem fireDirty_eq_flatMap
    (watches : LinkedHashMap WatchId (Watch Path Callback))
    (order : List WatchId) :
    fireDirty watches order = order.flatMap (registeredFor watches) := by
  rw [fireDirty, List.filterMap_eq_flatMap_toList]
  rfl

/-- The id, if the watch has changed. -/
def changedIf (id : WatchId)
    (result : Option (Bool × Watch Path Callback × ResourceLedger Int)) :
    List WatchId :=
  if result.any Prod.fst then [id] else []

/-- The id of the watch that the event changes, if it changes one. -/
def changed (loop : RunLoop Path Callback) (event : KEvent)
    (replies : FileReplies) : List WatchId :=
  match event with
  | .wake => []
  | .vnode id ident fflags =>
      match loop.watcher.watches.lookup id with
      | none => []
      | some watch =>
          if ident = watch.fileFd then
            changedIf id
              (watch.handleFileEvent loop.watcher.ledger fflags replies)
          else if ident = watch.dirFd then
            changedIf id (watch.handleDirEvent loop.watcher.ledger replies)
          else
            []

/-- What can be seen of the next step, if it is one of the thread. -/
def observe (loop : RunLoop Path Callback) :
    Event Path Callback → List (Action WatchId (Invocation Path Callback))
  | .handle _ replies =>
      match loop.stage with
      | .handling (event :: _) => [.mark (loop.changed event replies)]
      | _ => []
  | .fire order => [.begin order (registeredFor loop.watcher.watches)]
  | .work =>
      match loop.stage with
      | .invoking [] => [.finish]
      | .invoking (invocation :: _) => [.call invocation]
      | _ => []
  | _ => []

/-- The state is the one that the actions lead to. -/
structure Debounces (loop : RunLoop Path Callback)
    (actions : List (Action WatchId (Invocation Path Callback))) : Prop where
  lawful : Debounced actions
  rounds : List.Forall₂ Firing.IsRound loop.firings (Debouncing.rounds actions)
  inRound : ∀ left, InRound actions left ↔ loop.stage.firing = some left
  marked : ∀ id, id ∈ markedSince actions ↔ (id, true) ∈ loop.history

variable {loop next : RunLoop Path Callback}
  {actions : List (Action WatchId (Invocation Path Callback))}

theorem debounces_initial : Debounces ({} : RunLoop Path Callback) [] := by
  refine ⟨debounced_nil, .nil, ?_, ?_⟩
  · simp [LoopStage.firing]
  · simp [markedSince]

/-- The last firing records a callback as the last round does. -/
theorem forall_isRound_record (invocation : Invocation Path Callback)
    {firings : List (Firing Path Callback)}
    {rounds : List (Round WatchId (Invocation Path Callback))}
    (same : List.Forall₂ Firing.IsRound firings rounds) :
    List.Forall₂ Firing.IsRound (record invocation firings)
      (Debouncing.record invocation rounds) := by
  cases same with
  | nil => exact .nil
  | cons last earlier =>
      refine .cons ⟨last.order, last.table, ?_⟩ earlier
      simp [last.made]

/-- The event has changed nothing, or is handled as that of its watch. -/
theorem handleEvent_changed {event : KEvent} {now : Int} {replies : FileReplies}
    (handles : loop.handleEvent event now replies = some next) :
    next = loop ∧ loop.changed event replies = [] ∨ ∃ id result,
      next = loop.handled id now result ∧
        loop.changed event replies = if result.1 then [id] else [] := by
  cases event with
  | wake =>
      cases handles
      exact Or.inl ⟨rfl, rfl⟩
  | vnode id ident fflags =>
      rcases found : loop.watcher.watches.lookup id with _ | watch
      · simp only [handleEvent, changed, found, Option.some.injEq] at handles ⊢
        exact Or.inl ⟨handles.symm, trivial⟩
      · simp only [handleEvent, changed, found] at handles ⊢
        by_cases ofFile : ident = watch.fileFd
        · rw [if_pos ofFile] at handles ⊢
          obtain ⟨result, answered, rfl⟩ := Option.map_eq_some_iff.mp handles
          refine Or.inr ⟨id, result, rfl, ?_⟩
          rw [changedIf, answered]
          rfl
        · rw [if_neg ofFile] at handles ⊢
          by_cases ofDir : ident = watch.dirFd
          · rw [if_pos ofDir] at handles ⊢
            obtain ⟨result, answered, rfl⟩ := Option.map_eq_some_iff.mp handles
            refine Or.inr ⟨id, result, rfl, ?_⟩
            rw [changedIf, answered]
            rfl
          · rw [if_neg ofDir, Option.some.injEq] at handles
            rw [if_neg ofDir]
            exact Or.inl ⟨handles.symm, rfl⟩

namespace Debounces

/-- Nothing is seen. -/
theorem unseen (debounces : Debounces loop actions)
    (history : next.history = loop.history) (firings : next.firings = loop.firings)
    (firing : next.stage.firing = loop.stage.firing) :
    Debounces next (actions ++ []) := by
  rw [List.append_nil]
  refine ⟨debounces.lawful, ?_, ?_, ?_⟩
  · rw [firings]
    exact debounces.rounds
  · rw [firing]
    exact debounces.inRound
  · rw [history]
    exact debounces.marked

theorem idle (debounces : Debounces loop actions)
    (notFiring : loop.stage.firing = none)
    (left : List (Invocation Path Callback)) : ¬ InRound actions left := by
  rw [debounces.inRound, notFiring]
  rintro ⟨⟩

/-- The ids that the event has changed are marked. -/
theorem handle (debounces : Debounces loop actions) {event : KEvent}
    {events : List KEvent} {now : Int} {replies : FileReplies}
    (atStage : loop.stage = .handling (event :: events))
    (handles : (loop.goTo (.handling events)).handleEvent event now replies =
      some next) :
    Debounces next (actions ++ [.mark (loop.changed event replies)]) := by
  have idle := debounces.idle (by rw [atStage]; rfl)
  have same : (loop.goTo (.handling events)).changed event replies =
      loop.changed event replies := rfl
  have marks : next.firings = loop.firings ∧ next.stage = .handling events ∧
      ∀ id, (id, true) ∈ next.history ↔
        (id, true) ∈ loop.history ∨ id ∈ loop.changed event replies := by
    rcases handleEvent_changed handles with
      ⟨rfl, nothing⟩ | ⟨watchId, ⟨changed, opened⟩, rfl, isChanged⟩
    · rw [← same, nothing]
      exact ⟨rfl, rfl, by simp [goTo]⟩
    · rw [← same, isChanged]
      cases changed <;>
        simp [RunLoop.handled, insertDirty, goTo]
  obtain ⟨firings, stage, history⟩ := marks
  refine ⟨debounces.lawful.concat idle, ?_, ?_, ?_⟩
  · simpa [firings, Action.rounds] using debounces.rounds
  · simp [stage, LoopStage.firing]
  · intro id
    rw [markedSince_concat, Action.marks, List.mem_append, debounces.marked,
      history]

/-- The round begins with the watches that are registered now. -/
theorem fire (debounces : Debounces loop actions) (keeps : KeepsChanges loop)
    (due : loop.deadline ≠ none) (atStage : loop.stage = .fire)
    {order : List WatchId} (iterates : order.Perm loop.dirty) :
    Debounces (loop.fire order)
      (actions ++ [.begin order (registeredFor loop.watcher.watches)]) := by
  have dirty_iff := keeps.dirty_iff (by rw [atStage]; rfl)
  have nonempty : order ≠ [] := by
    rintro rfl
    exact keeps.deadline_iff.mp due iterates.nil_eq.symm
  have follows : Action.Follows actions
      (.begin order (registeredFor loop.watcher.watches)) := by
    refine ⟨debounces.idle (by rw [atStage]; rfl), nonempty,
      iterates.nodup_iff.mpr keeps.nodup, ?_⟩
    intro id
    rw [iterates.mem_iff, dirty_iff, debounces.marked]
  refine ⟨debounces.lawful.concat follows, ?_, ?_, ?_⟩
  · rw [rounds_concat]
    refine .cons ⟨?_, rfl, rfl⟩ debounces.rounds
    intro id
    rw [iterates.mem_iff, dirty_iff]
  · simp [RunLoop.fire, LoopStage.firing, fireDirty_eq_flatMap]
  · simp [RunLoop.fire, Action.marks]

theorem invoke (debounces : Debounces loop actions)
    {callbacks : List (Invocation Path Callback)}
    (atStage : loop.stage = .invoking callbacks) :
    Debounces (loop.invoke callbacks) (actions ++ loop.observe .work) := by
  have going := debounces.inRound
  simp only [observe, atStage, LoopStage.firing, Option.some.injEq] at going ⊢
  cases callbacks with
  | nil =>
      refine ⟨debounces.lawful.concat ((going []).mpr rfl), ?_, ?_, ?_⟩
      · simpa [RunLoop.invoke, Action.rounds] using debounces.rounds
      · simp [RunLoop.invoke, LoopStage.firing]
      · simpa [RunLoop.invoke, Action.marks] using debounces.marked
  | cons invocation callbacks =>
      refine ⟨debounces.lawful.concat ⟨callbacks, (going _).mpr rfl⟩, ?_, ?_, ?_⟩
      · rw [rounds_concat]
        exact forall_isRound_record invocation debounces.rounds
      · simp [RunLoop.invoke, LoopStage.firing, going]
      · simpa [RunLoop.invoke, Action.marks] using debounces.marked

theorem step (debounces : Debounces loop actions) (keeps : KeepsChanges loop)
    (fires : loop.stage = .fire → loop.deadline ≠ none)
    {event : Event Path Callback}
    (stepped : RunLoop.step loop event = some next) :
    Debounces next (actions ++ loop.observe event) := by
  cases moves_of_step stepped with
  | callWatchFile | watchFile | closeWatch | shutDown =>
      exact debounces.unseen rfl rfl rfl
  | checkShutdown atStage =>
      simp only [observe, atStage]
      unfold checkShutdown
      split <;> exact debounces.unseen rfl rfl (by rw [atStage]; rfl)
  | drain atStage | noneLeft atStage =>
      simp only [observe, atStage]
      exact debounces.unseen rfl rfl (by rw [atStage]; rfl)
  | wait _ atStage | keventFails atStage | keventReturns _ atStage =>
      exact debounces.unseen rfl rfl (by rw [atStage]; rfl)
  | handle atStage handles =>
      simp only [observe, atStage]
      exact debounces.handle atStage handles
  | checkDeadline now atStage =>
      unfold checkDeadline
      split
      · split <;> exact debounces.unseen rfl rfl (by rw [atStage]; rfl)
      · exact debounces.unseen rfl rfl (by rw [atStage]; rfl)
  | fire atStage iterates =>
      exact debounces.fire keeps (fires atStage) atStage iterates
  | invoke atStage => exact debounces.invoke atStage

end Debounces

/-- What can be seen of a run. -/
def seen (events : List (Event Path Callback)) :
    List (Action WatchId (Invocation Path Callback)) :=
  observed step observe {} events

/-- The thread fires only where there is a deadline. -/
theorem fires_step {event : Event Path Callback}
    (stepped : RunLoop.step loop event = some next)
    (fires : loop.stage = .fire → loop.deadline ≠ none) :
    next.stage = .fire → next.deadline ≠ none := by
  cases moves_of_step stepped with
  | callWatchFile | watchFile | closeWatch | shutDown => exact fires
  | checkShutdown =>
      unfold checkShutdown
      split <;> rintro ⟨⟩
  | @handle event events now replies _ atStage handles =>
      rcases handleEvent_changed handles with
        ⟨rfl, _⟩ | ⟨_, ⟨changed, _⟩, rfl, _⟩
      · rintro ⟨⟩
      · cases changed <;> rintro ⟨⟩
  | checkDeadline now =>
      unfold checkDeadline
      split
      · rename_i deadline due
        split
        · simp [goTo, due]
        · rintro ⟨⟩
      · rintro ⟨⟩
  | @invoke callbacks => cases callbacks <;> rintro ⟨⟩
  | _ => rintro ⟨⟩

/-- The thread forgets nothing when it sees the shutdown. -/
theorem reset_notMem_seen {events : List (Event Path Callback)}
    (ran : EventRuns.run step {} events = some loop) : .reset ∉ seen events := by
  intro member
  obtain ⟨before, after, split⟩ := List.append_of_mem member
  obtain ⟨_, event, _, middle, _, _, _, _, _, _, sees, _⟩ :=
    exists_of_observed ran split
  have reset : Action.reset ∈ middle.observe event := by
    rw [sees]
    simp
  cases event with
  | handle | work =>
      simp only [observe] at reset
      split at reset <;> simp at reset
  | _ => simp [observe] at reset

/-- What can be seen of a run of the kqueue watcher is what can be seen of a
debouncer: the marks are the watches that the events have changed, the firings
are the rounds, and nothing that is marked is forgotten.  The dirty watches are
those that wait for a round, and there is a deadline just where there are any. -/
theorem runLoop_debounces (events : List (Event Path Callback))
    (loop : RunLoop Path Callback)
    (ran : EventRuns.run step {} events = some loop) :
    Debounces loop (seen events) ∧
      (loop.stage.firing = none →
        ∀ id, id ∈ loop.dirty ↔ id ∈ markedSince (seen events)) ∧
      (∀ before ids after, seen events = before ++ .mark ids :: after →
        ∀ id ∈ ids, id ∈ markedSince (seen events) ∨
          ∃ order table, .begin order table ∈ after ∧ id ∈ order) ∧
      (loop.deadline ≠ none ↔ loop.dirty ≠ []) := by
  have preserves : ∀ actions (state : RunLoop Path Callback) event next,
      Debounces state actions ∧ (state.stage = .fire → state.deadline ≠ none) ∧
          KeepsChanges state ∧ KnowsIds state →
        step state event = some next →
          Debounces next (actions ++ state.observe event) ∧
            (next.stage = .fire → next.deadline ≠ none) ∧
              KeepsChanges next ∧ KnowsIds next := by
    rintro actions state event next ⟨debounces, fires, keeps, knows⟩ stepped
    exact ⟨debounces.step keeps fires stepped, fires_step stepped fires,
      keeps.step knows stepped, knows.step stepped⟩
  obtain ⟨debounces, _, keeps, _⟩ := run_observed preserves
    ⟨debounces_initial, by rintro ⟨⟩, keepsChanges_initial, knowsIds_initial⟩ ran
  refine ⟨debounces, ?_, ?_, keeps.deadline_iff⟩
  · intro notFiring id
    rw [keeps.dirty_iff (LoopStage.isInvoking_eq_false notFiring)]
    exact (debounces.marked id).symm
  · intro before ids after split id marked
    have lawful : Debounced (seen events) := debounces.lawful
    have notReset := reset_notMem_seen ran
    rw [split] at lawful notReset ⊢
    rcases lawful.kept marked with waits | dropped | round
    · exact Or.inl waits
    · exact absurd (List.mem_append_right _ (List.mem_cons_of_mem _ dropped))
        notReset
    · exact Or.inr round

/-- The watch is marked three times, and called back once. -/
theorem debounces_changesInWindow :
    ∃ loop table call, EventRuns.run step {} changesInWindow = some loop ∧
      seen changesInWindow = [.mark [2], .mark [2], .mark [], .mark [2],
        .begin [2] table, .call call, .finish] ∧
      Debounces loop (seen changesInWindow) := by
  obtain ⟨loop, table, call, ran, sees⟩ : ∃ loop table call,
      EventRuns.run step {} changesInWindow = some loop ∧
        seen changesInWindow = [.mark [2], .mark [2], .mark [], .mark [2],
          .begin [2] table, .call call, .finish] := ⟨_, _, _, rfl, rfl⟩
  exact ⟨loop, table, call, ran, sees,
    (runLoop_debounces changesInWindow loop ran).1⟩

end RunLoop

end KqueueDescriptors

end Birch

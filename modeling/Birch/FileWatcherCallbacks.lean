import Birch.EventRuns
import Mathlib.Data.List.Perm.Basic
import Mathlib.Logic.Function.Basic

/-!
# Callbacks into configuration sources

A `FileConfigDataSource` hands its own address to the file watcher, and its
destructor only asks the watcher's thread to drop the watch.  That thread copies
the callbacks of the watches that have changed while it has the lock, and runs
them afterwards.  This file determines in which runs no callback enters a source
whose destruction has begun.
-/

namespace Birch

abbrev SourceId := Nat

abbrev SourceWatchId := Nat

/-- Where the destructor of a source stands: it has not begun, it has not come
to the watch handle, or it has closed the watch. -/
inductive SourceLife
  | alive
  | destroying
  | closed
  deriving DecidableEq

structure FileConfigDataSource where
  watchHandle : SourceWatchId
  life : SourceLife := .alive

/-- Where the watcher's thread is in its loop: about to drain the pending
unwatches, between there and `FireDirty`, or running callbacks. -/
inductive WatcherStage
  | draining
  | polling
  | firing
  deriving DecidableEq

/-- The watcher's thread and the sources, each watch with the source that its
callback has captured.  The last field is the history: the sources whose
`OnFileChanged` was entered, and whether their destruction had begun. -/
structure WatcherCallbacks where
  sources : SourceId → Option FileConfigDataSource := fun _ => none
  watches : SourceWatchId → Option SourceId := fun _ => none
  nextWatchId : SourceWatchId := 1
  pendingUnwatches : List SourceWatchId := []
  stage : WatcherStage := .draining
  dirty : List SourceWatchId := []
  callbacks : List SourceId := []
  entered : List (SourceId × Bool) := []

namespace WatcherCallbacks

variable (state : WatcherCallbacks)

/-- The destruction of the source has begun. -/
def begun (source : SourceId) : Bool :=
  match state.sources source with
  | some found => found.life != .alive
  | none => false

/-- `CreateFromFile`, with the watch of `InitializeFileWatch`. -/
def create (source : SourceId) : WatcherCallbacks :=
  { state with
    nextWatchId := state.nextWatchId + 1
    watches := Function.update state.watches (state.nextWatchId + 1)
      (some source)
    sources := Function.update state.sources source
      (some { watchHandle := state.nextWatchId + 1 }) }

def setLife (source : SourceId) (found : FileConfigDataSource)
    (life : SourceLife) : WatcherCallbacks :=
  { state with
    sources := Function.update state.sources source
      (some { found with life }) }

/-- The removal of the pending unwatches. -/
def drain : WatcherCallbacks :=
  { state with
    watches := fun id =>
      if id ∈ state.pendingUnwatches then none else state.watches id
    pendingUnwatches := []
    stage := .polling }

/-- `dirty.insert`, if the watch of an event is still known. -/
def change (id : SourceWatchId) : WatcherCallbacks :=
  if (state.watches id).isSome ∧ id ∉ state.dirty then
    { state with dirty := state.dirty ++ [id] }
  else
    state

end WatcherCallbacks

inductive CallbackEvent
  /-- An owner makes a source, begins to destroy it, and the destructor comes to
  the watch handle. -/
  | create (source : SourceId)
  | destroy (source : SourceId)
  | closeWatch (source : SourceId)
  /-- The watcher's thread drains, handles an event by which a watch has
  changed, and goes on to the next turn without firing. -/
  | drain
  | change (id : SourceWatchId)
  | nextTurn
  /-- It copies the callbacks of the dirty watches in some order, runs one, and
  is done with them. -/
  | copyCallbacks (order : List SourceWatchId)
  | runCallback
  | finish

/-- One event of the watcher's thread or of an owner, where it can happen. -/
def WatcherCallbacks.step (state : WatcherCallbacks) :
    CallbackEvent → Option WatcherCallbacks
  | .create source =>
      match state.sources source with
      | none => some (state.create source)
      | some _ => none
  | .destroy source =>
      match state.sources source with
      | some found =>
          if found.life = .alive then
            some (state.setLife source found .destroying)
          else
            none
      | none => none
  | .closeWatch source =>
      match state.sources source with
      | some found =>
          if found.life = .destroying then
            some { state.setLife source found .closed with
              pendingUnwatches := state.pendingUnwatches ++ [found.watchHandle] }
          else
            none
      | none => none
  | .drain => if state.stage = .draining then some state.drain else none
  | .change id => if state.stage = .polling then some (state.change id) else none
  | .nextTurn =>
      if state.stage = .polling then
        some { state with stage := .draining }
      else
        none
  | .copyCallbacks order =>
      if state.stage = .polling ∧ state.dirty ≠ [] ∧ order.Perm state.dirty then
        some { state with
          callbacks := order.filterMap state.watches, stage := .firing }
      else
        none
  | .runCallback =>
      match state.stage, state.callbacks with
      | .firing, source :: rest => some { state with
          callbacks := rest
          entered := state.entered ++ [(source, state.begun source)] }
      | _, _ => none
  | .finish =>
      match state.stage, state.callbacks with
      | .firing, [] => some { state with dirty := [], stage := .draining }
      | _, _ => none

def callbackRun : WatcherCallbacks → List CallbackEvent → Option WatcherCallbacks :=
  EventRuns.run WatcherCallbacks.step

/-- No source was entered after its destruction had begun. -/
def NoLateEntry (state : WatcherCallbacks) : Prop :=
  ∀ entry ∈ state.entered, entry.2 = false

/-- A source is destroyed while none of its callbacks has been copied and is
still to be run, and from then on none is copied before its watch is drained. -/
def DestroysInTime (state : WatcherCallbacks) : CallbackEvent → Prop
  | .destroy source => source ∉ state.callbacks
  | .copyCallbacks _ => ∀ id ∈ state.dirty, ∀ source,
      state.watches id = some source → state.begun source = false
  | _ => True

/-! ## Each event -/

/-- No source was entered late, and none of those that are still to be entered
is being destroyed. -/
structure NoneLate (state : WatcherCallbacks) : Prop where
  entered : NoLateEntry state
  callbacks : ∀ source ∈ state.callbacks, state.begun source = false

/-- Callbacks are left over only while they are run. -/
def OnlyWhileFiring (state : WatcherCallbacks) : Prop :=
  state.stage ≠ .firing → state.callbacks = []

theorem begun_create {state : WatcherCallbacks} {source : SourceId}
    (unused : state.sources source = none) (other : SourceId) :
    (state.create source).begun other = state.begun other := by
  by_cases same : other = source
  · subst same
    simp [WatcherCallbacks.begun, WatcherCallbacks.create, unused]
  · simp [WatcherCallbacks.begun, WatcherCallbacks.create, same]

theorem begun_setLife (state : WatcherCallbacks) (source : SourceId)
    (found : FileConfigDataSource) (life : SourceLife) (other : SourceId) :
    (state.setLife source found life).begun other =
      if other = source then life != .alive else state.begun other := by
  by_cases same : other = source
  · subst same
    simp [WatcherCallbacks.begun, WatcherCallbacks.setLife]
  · simp [WatcherCallbacks.begun, WatcherCallbacks.setLife, same]

theorem begun_closed {state : WatcherCallbacks} {source : SourceId}
    {found : FileConfigDataSource} (isSource : state.sources source = some found)
    (destroying : found.life = .destroying) (other : SourceId) :
    (state.setLife source found .closed).begun other = state.begun other := by
  rw [begun_setLife]
  by_cases same : other = source
  · subst same
    rw [if_pos rfl, WatcherCallbacks.begun, isSource]
    simp only [destroying]
    rfl
  · rw [if_neg same]

/-- A step that leaves the callbacks, the history and what has begun. -/
theorem noneLate_congr (state : WatcherCallbacks) {next : WatcherCallbacks}
    {event : CallbackEvent} (inTime : DestroysInTime state event)
    (entered : next.entered = state.entered)
    (callbacks : next.callbacks = state.callbacks)
    (begun : ∀ source, next.begun source = state.begun source) :
    NoneLate next ↔ NoneLate state ∧ DestroysInTime state event := by
  constructor
  · intro late
    refine ⟨⟨?_, ?_⟩, inTime⟩
    · rw [NoLateEntry, ← entered]
      exact late.entered
    · intro source member
      rw [← begun]
      exact late.callbacks source (callbacks ▸ member)
  · rintro ⟨late, _⟩
    refine ⟨?_, ?_⟩
    · rw [NoLateEntry, entered]
      exact late.entered
    · intro source member
      rw [begun]
      exact late.callbacks source (callbacks ▸ member)

/-- The destruction of a source begins in time unless it is to be entered. -/
theorem noneLate_destroy (state : WatcherCallbacks) {source : SourceId}
    {found : FileConfigDataSource} (isSource : state.sources source = some found)
    (alive : found.life = .alive) :
    NoneLate (state.setLife source found .destroying) ↔
      NoneLate state ∧ source ∉ state.callbacks := by
  have notBegun : state.begun source = false := by
    simp [WatcherCallbacks.begun, isSource, alive]
  constructor
  · intro late
    have absent : source ∉ state.callbacks := by
      intro member
      have begun := late.callbacks source member
      rw [begun_setLife, if_pos rfl] at begun
      cases begun
    refine ⟨⟨late.entered, ?_⟩, absent⟩
    intro other member
    have differ : other ≠ source := by
      rintro rfl
      exact absent member
    have begun := late.callbacks other member
    rwa [begun_setLife, if_neg differ] at begun
  · rintro ⟨late, absent⟩
    refine ⟨late.entered, ?_⟩
    intro other member
    have differ : other ≠ source := by
      rintro rfl
      exact absent member
    rw [begun_setLife, if_neg differ]
    exact late.callbacks other member

theorem noneLate_copyCallbacks {state : WatcherCallbacks}
    {order : List SourceWatchId} (empty : state.callbacks = [])
    (perm : order.Perm state.dirty) :
    NoneLate { state with
        callbacks := order.filterMap state.watches, stage := .firing } ↔
      NoneLate state ∧ ∀ id ∈ state.dirty, ∀ source,
        state.watches id = some source → state.begun source = false := by
  constructor
  · rintro ⟨entered, callbacks⟩
    refine ⟨⟨entered, by simp [empty]⟩, ?_⟩
    intro id member source known
    apply callbacks source
    exact List.mem_filterMap.mpr ⟨id, perm.mem_iff.mpr member, known⟩
  · rintro ⟨late, inTime⟩
    refine ⟨late.entered, ?_⟩
    intro source member
    obtain ⟨id, isDirty, known⟩ := List.mem_filterMap.mp member
    exact inTime id (perm.mem_iff.mp isDirty) source known

theorem noneLate_runCallback {state : WatcherCallbacks} {source : SourceId}
    {rest : List SourceId} (callbacks : state.callbacks = source :: rest) :
    NoneLate { state with
        callbacks := rest
        entered := state.entered ++ [(source, state.begun source)] } ↔
      NoneLate state := by
  constructor
  · rintro ⟨entered, later⟩
    simp only [NoLateEntry, List.mem_append, List.mem_singleton] at entered
    refine ⟨fun entry member => entered entry (Or.inl member), ?_⟩
    intro other member
    rw [callbacks, List.mem_cons] at member
    rcases member with rfl | inRest
    · exact entered _ (Or.inr rfl)
    · exact later other inRest
  · rintro ⟨entered, later⟩
    rw [callbacks] at later
    refine ⟨?_, fun other member => later other (List.mem_cons_of_mem _ member)⟩
    simp only [NoLateEntry, List.mem_append, List.mem_singleton]
    rintro entry (old | rfl)
    · exact entered entry old
    · exact later source List.mem_cons_self

/-- By cases on the event: what it does to the callbacks, and whether a source
is or may be entered late through it. -/
theorem WatcherCallbacks.step_iff {state next : WatcherCallbacks}
    {event : CallbackEvent} (only : OnlyWhileFiring state)
    (stepped : state.step event = some next) :
    OnlyWhileFiring next ∧
      (NoneLate next ↔ NoneLate state ∧ DestroysInTime state event) := by
  cases event with
  | create source =>
      simp only [step] at stepped
      split at stepped
      · rename_i unused
        obtain rfl := Option.some.inj stepped
        refine ⟨only, ?_⟩
        exact noneLate_congr state trivial rfl rfl (begun_create unused)
      · cases stepped
  | destroy source =>
      simp only [step] at stepped
      split at stepped
      · rename_i found isSource
        split at stepped
        · rename_i alive
          obtain rfl := Option.some.inj stepped
          exact ⟨only, noneLate_destroy state isSource alive⟩
        · cases stepped
      · cases stepped
  | closeWatch source =>
      simp only [step] at stepped
      split at stepped
      · rename_i found isSource
        split at stepped
        · rename_i destroying
          obtain rfl := Option.some.inj stepped
          refine ⟨only, ?_⟩
          exact noneLate_congr state trivial rfl rfl
            (begun_closed isSource destroying)
        · cases stepped
      · cases stepped
  | drain =>
      simp only [step] at stepped
      split at stepped
      · rename_i draining
        obtain rfl := Option.some.inj stepped
        refine ⟨fun _ => only (by simp [draining]), ?_⟩
        exact noneLate_congr state trivial rfl rfl fun _ => rfl
      · cases stepped
  | change id =>
      simp only [step] at stepped
      split at stepped
      · obtain rfl := Option.some.inj stepped
        unfold WatcherCallbacks.change
        split
        · refine ⟨only, ?_⟩
          exact noneLate_congr state trivial rfl rfl fun _ => rfl
        · exact ⟨only, by simp [DestroysInTime]⟩
      · cases stepped
  | nextTurn =>
      simp only [step] at stepped
      split at stepped
      · rename_i polling
        obtain rfl := Option.some.inj stepped
        refine ⟨fun _ => only (by simp [polling]), ?_⟩
        exact noneLate_congr state trivial rfl rfl fun _ => rfl
      · cases stepped
  | copyCallbacks order =>
      simp only [step] at stepped
      split at stepped
      · rename_i here
        obtain rfl := Option.some.inj stepped
        have empty := only (by simp [here.1])
        refine ⟨fun notFiring => absurd rfl notFiring, ?_⟩
        exact noneLate_copyCallbacks empty here.2.2
      · cases stepped
  | runCallback =>
      simp only [step] at stepped
      split at stepped
      · rename_i source rest firing callbacks
        obtain rfl := Option.some.inj stepped
        refine ⟨fun notFiring => absurd firing notFiring, ?_⟩
        rw [noneLate_runCallback callbacks]
        simp [DestroysInTime]
      · cases stepped
  | finish =>
      simp only [step] at stepped
      split at stepped
      · rename_i firing callbacks
        obtain rfl := Option.some.inj stepped
        refine ⟨fun _ => callbacks, ?_⟩
        exact noneLate_congr state trivial rfl rfl fun _ => rfl
      · cases stepped

/-! ## Runs -/

theorem noneLate_iff {events : List CallbackEvent} {state : WatcherCallbacks}
    (ran : callbackRun {} events = some state) :
    NoneLate state ↔
      EventRuns.EachStep WatcherCallbacks.step DestroysInTime {} events := by
  have initial : NoneLate {} := ⟨by simp [NoLateEntry], by simp⟩
  rw [EventRuns.run_iff_eachStep OnlyWhileFiring NoneLate
    (fun _ _ _ only stepped => (WatcherCallbacks.step_iff only stepped).1)
    (fun _ _ _ only stepped => (WatcherCallbacks.step_iff only stepped).2)
    (fun _ => rfl) ran]
  simp [initial]

/-- In a run in which the sources are destroyed in time, none is entered late,
and a run in which none was entered late, and which has run all the callbacks
that were copied, has destroyed its sources in time. -/
theorem noLateEntry_iff (events : List CallbackEvent) (state : WatcherCallbacks)
    (ran : callbackRun {} events = some state) :
    (EventRuns.EachStep WatcherCallbacks.step DestroysInTime {} events →
        NoLateEntry state) ∧
      (state.callbacks = [] → NoLateEntry state →
        EventRuns.EachStep WatcherCallbacks.step DestroysInTime {} events) := by
  have iff := noneLate_iff ran
  constructor
  · intro inTime
    exact (iff.mpr inTime).entered
  · intro empty entered
    exact iff.mp ⟨entered, by simp [empty]⟩

/-- A file changes, its callback is run, and its source is destroyed after
that. -/
def destroyedAfterCallback : List CallbackEvent :=
  [.create 0, .drain, .change 2, .copyCallbacks [2], .runCallback, .destroy 0,
    .closeWatch 0, .finish, .drain]

/-- The source is destroyed between the copy of its callback and the call. -/
def destroyedBeforeCallback : List CallbackEvent :=
  [.create 0, .drain, .change 2, .copyCallbacks [2], .destroy 0, .closeWatch 0,
    .runCallback]

theorem noLateEntry_destroyedAfterCallback :
    ∃ state, callbackRun {} destroyedAfterCallback = some state ∧
      state.entered = [(0, false)] ∧
      (EventRuns.EachStep WatcherCallbacks.step DestroysInTime {}
          destroyedAfterCallback → NoLateEntry state) ∧
      (state.callbacks = [] → NoLateEntry state →
        EventRuns.EachStep WatcherCallbacks.step DestroysInTime {}
          destroyedAfterCallback) :=
  ⟨_, rfl, rfl, noLateEntry_iff destroyedAfterCallback _ rfl⟩

/-- The callback enters the source although its watch has been closed. -/
theorem not_noLateEntry_destroyedBeforeCallback :
    ∃ state, callbackRun {} destroyedBeforeCallback = some state ∧
      state.pendingUnwatches = [2] ∧ state.entered = [(0, true)] ∧
      ¬ NoLateEntry state := by
  refine ⟨_, rfl, rfl, rfl, ?_⟩
  intro noLate
  have late := noLate (0, true) List.mem_cons_self
  cases late

end Birch

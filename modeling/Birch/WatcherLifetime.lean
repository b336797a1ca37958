import Birch.EventRuns
import Birch.LinkedHashMapIndex
import Birch.SharedOwnership

/-!
# The last reference to a file watcher

A watch handle has a weak reference to its watcher, and `Unwatch` makes a strong
one of it for the time of its call.  If that is the last one when the call ends,
the watcher is destroyed by the thread of the call.  The destructor joins the
watcher's own thread, which calls `Unwatch` from its callbacks.  The watchers for
kqueue and for Windows have the same handles.
-/

namespace Birch

inductive WatcherBackend
  | kqueue
  | windows
  deriving DecidableEq

namespace WatcherLifetime

open LinkedHashMap

inductive Thread
  | worker
  | client (index : Nat)
  deriving DecidableEq

/-- Where `Unwatch` stands: it has made the strong reference `w`, it has closed
the watch, or it has reset the weak reference. -/
inductive UnwatchPoint
  | locked
  | closed
  | reset
  deriving DecidableEq

/-- A call of `Unwatch`, by the destructor of the handle or not. -/
structure Unwatching where
  handle : Nat
  destroys : Bool
  point : UnwatchPoint := .locked
  deriving DecidableEq

/-- Where the watcher's thread is in `Run`.  The one for Windows waits for its
reads when it has seen the flag. -/
inductive WorkerStage
  | looping
  | inCallback
  | draining
  | exited
  deriving DecidableEq

end WatcherLifetime

open WatcherLifetime

/-- A watcher after `Create`: the count of the strong references and the ones
that its owner has, the handles with whether their weak reference is set, the
calls of `Unwatch` that have a strong reference, and the destructor. -/
structure WatcherLifetime where
  useCount : Nat := 1
  owners : Nat := 1
  handles : LinkedHashMap Nat Bool := ∅
  unwatching : LinkedHashMap Thread Unwatching := ∅
  pendingUnwatches : List Nat := []
  shutdown : Bool := false
  worker : WorkerStage := .looping
  joinable : Bool := true
  destructor : Option Thread := none
  terminated : Bool := false
  destroyed : Bool := false

namespace WatcherLifetime

open LinkedHashMap

variable (state : WatcherLifetime)

/-- A thread can call something: it is not in `Unwatch` or in the destructor,
and the watcher's thread is in a callback. -/
def Callable (thread : Thread) : Prop :=
  thread ∉ state.unwatching.keys ∧ state.destructor ≠ some thread ∧
    (thread = .worker → state.worker = .inCallback)

instance (thread : Thread) : Decidable (state.Callable thread) :=
  inferInstanceAs (Decidable (_ ∧ _ ∧ _))

/-- Calls of two threads for one handle would be a data race. -/
def NotInCall (handle : Nat) : Prop :=
  ∀ entry ∈ state.unwatching.entries, entry.2.handle ≠ handle

instance (handle : Nat) : Decidable (state.NotInCall handle) :=
  inferInstanceAs (Decidable (∀ entry ∈ state.unwatching.entries, _))

/-- A strong reference is released, and the last one with the destructor:
`m_shutdown.store(true); Wake();`. -/
def release (thread : Thread) : WatcherLifetime :=
  if (SharedOwnership.release state.useCount).2 then
    { state with
      useCount := (SharedOwnership.release state.useCount).1
      shutdown := true
      destructor := some thread }
  else
    { state with useCount := (SharedOwnership.release state.useCount).1 }

/-- `if (auto w = watcher.lock())`. -/
def lockWatcher (handle : Nat) : Option Nat :=
  if state.handles.lookup handle = some true then
    SharedOwnership.lock state.useCount
  else
    none

def unwatch (thread : Thread) (handle : Nat) (destroys : Bool) :
    WatcherLifetime :=
  match state.lockWatcher handle with
  | some useCount =>
      { state with
        useCount
        unwatching := state.unwatching.assign thread { handle, destroys } }
  | none =>
      if destroys then
        { state with handles := state.handles.erase handle }
      else
        state

/-- `w->CloseWatch(id)`. -/
def closeWatch (thread : Thread) (call : Unwatching) : WatcherLifetime :=
  { state with
    pendingUnwatches := state.pendingUnwatches ++ [call.handle]
    unwatching := state.unwatching.assign thread { call with point := .closed } }

/-- `watcher.reset()`. -/
def resetWatcher (thread : Thread) (call : Unwatching) : WatcherLifetime :=
  { state with
    handles := state.handles.assign call.handle false
    unwatching := state.unwatching.assign thread { call with point := .reset } }

/-- The end of the call, and of the handle if it is destroyed. -/
def leaveUnwatch (thread : Thread) (call : Unwatching) : WatcherLifetime :=
  release { state with
    unwatching := state.unwatching.erase thread
    handles := if call.destroys then state.handles.erase call.handle
      else state.handles } thread

def advance (thread : Thread) (call : Unwatching) : WatcherLifetime :=
  match call.point with
  | .locked => state.closeWatch thread call
  | .closed => state.resetWatcher thread call
  | .reset => state.leaveUnwatch thread call

/-- `std::thread::join`: a thread that is not joinable and the own one are
errors, and an exception that leaves a destructor ends the program. -/
def joinThread (thread : Thread) : Option WatcherLifetime :=
  if state.joinable = false ∨ thread = .worker then
    some { state with terminated := true }
  else if state.worker = .exited then
    some { state with joinable := false, destroyed := true }
  else
    none

/-- The rest of the destructor. -/
def finishDestructor (thread : Thread) : WatcherBackend → Option WatcherLifetime
  | .kqueue => state.joinThread thread
  | .windows =>
      if state.joinable then
        state.joinThread thread
      else
        some { state with destroyed := true }

/-- The next turn of `Run`. -/
def turn : WatcherBackend → Option WatcherLifetime
  | .kqueue =>
      if state.worker = .looping ∧ state.shutdown = true then
        some { state with worker := .exited }
      else
        none
  | .windows =>
      if state.worker = .looping ∧ state.shutdown = true then
        some { state with worker := .draining }
      else if state.worker = .draining then
        some { state with worker := .exited }
      else
        none

/-- What the owner does with its references, the calls of `Unwatch` by all
threads, and what the watcher's thread and the destructor do. -/
inductive Event
  | copyOwner
  | dropOwner (client : Nat)
  | watchFile (handle : Nat)
  | unwatch (thread : Thread) (handle : Nat) (destroys : Bool)
  | advance (thread : Thread)
  | startCallback
  | endCallback
  | turn
  | finishDestructor
  deriving DecidableEq

def step (backend : WatcherBackend) (event : Event) : Option WatcherLifetime :=
  if state.terminated then
    none
  else
    match event with
    | .copyOwner =>
        if 0 < state.owners then
          some { state with
            useCount := state.useCount + 1
            owners := state.owners + 1 }
        else
          none
    | .dropOwner client =>
        if 0 < state.owners ∧ state.Callable (.client client) then
          some (release { state with owners := state.owners - 1 }
            (.client client))
        else
          none
    | .watchFile handle =>
        if 0 < state.owners ∧ handle ∉ state.handles.keys then
          some { state with handles := state.handles.assign handle true }
        else
          none
    | .unwatch thread handle destroys =>
        if state.Callable thread ∧ handle ∈ state.handles.keys ∧
            state.NotInCall handle then
          some (state.unwatch thread handle destroys)
        else
          none
    | .advance thread =>
        (state.unwatching.lookup thread).map fun call =>
          state.advance thread call
    | .startCallback =>
        if state.worker = .looping then
          some { state with worker := .inCallback }
        else
          none
    | .endCallback =>
        if state.Callable .worker then
          some { state with worker := .looping }
        else
          none
    | .turn => state.turn backend
    | .finishDestructor =>
        if state.destroyed then
          none
        else
          state.destructor.bind fun thread =>
            state.finishDestructor thread backend

/-- The destructor is not run by the watcher's thread, and its join waits for
another thread. -/
def JoinsOther : Prop :=
  state.destructor ≠ some .worker ∧ state.terminated = false

/-- When the watcher's thread leaves `Unwatch`, the owner or an `Unwatch` of
another thread has a reference. -/
def OthersHold : Event → Prop
  | .advance .worker =>
      (∃ call, state.unwatching.lookup .worker = some call ∧
        call.point = .reset) →
          0 < state.owners ∨ ∃ client, Thread.client client ∈ state.unwatching.keys
  | _ => True

/-! ## What a step can do -/

variable {state}

inductive Moves (backend : WatcherBackend) (state : WatcherLifetime) :
    Event → WatcherLifetime → Prop
  | copyOwner (owned : 0 < state.owners) :
      Moves backend state .copyOwner
        { state with
          useCount := state.useCount + 1
          owners := state.owners + 1 }
  | dropOwner {client : Nat} (owned : 0 < state.owners) :
      Moves backend state (.dropOwner client)
        (release { state with owners := state.owners - 1 } (.client client))
  | watchFile (handle : Nat) :
      Moves backend state (.watchFile handle)
        { state with handles := state.handles.assign handle true }
  | unwatch {thread : Thread} (callable : state.Callable thread)
      (handle : Nat) (destroys : Bool) :
      Moves backend state (.unwatch thread handle destroys)
        (state.unwatch thread handle destroys)
  | advance {thread : Thread} {call : Unwatching}
      (inCall : state.unwatching.lookup thread = some call) :
      Moves backend state (.advance thread) (state.advance thread call)
  | startCallback :
      Moves backend state .startCallback { state with worker := .inCallback }
  | endCallback :
      Moves backend state .endCallback { state with worker := .looping }
  | turn {next : WatcherLifetime} (turned : state.turn backend = some next) :
      Moves backend state .turn next
  | finishDestructor {thread : Thread} {next : WatcherLifetime}
      (running : state.destroyed = false)
      (destroys : state.destructor = some thread)
      (finished : state.finishDestructor thread backend = some next) :
      Moves backend state .finishDestructor next

theorem moves_of_step {backend : WatcherBackend} {event : Event}
    {next : WatcherLifetime} (stepped : state.step backend event = some next) :
    Moves backend state event next := by
  unfold step at stepped
  split at stepped
  · cases stepped
  · cases event with
    | copyOwner =>
        obtain ⟨owned, result⟩ := Option.ite_none_right_eq_some.mp stepped
        cases result
        exact .copyOwner owned
    | dropOwner client =>
        obtain ⟨guard, result⟩ := Option.ite_none_right_eq_some.mp stepped
        cases result
        exact .dropOwner guard.1
    | watchFile handle =>
        obtain ⟨_, result⟩ := Option.ite_none_right_eq_some.mp stepped
        cases result
        exact .watchFile handle
    | unwatch thread handle destroys =>
        obtain ⟨guard, result⟩ := Option.ite_none_right_eq_some.mp stepped
        cases result
        exact .unwatch guard.1 handle destroys
    | advance thread =>
        obtain ⟨call, inCall, rfl⟩ := Option.map_eq_some_iff.mp stepped
        exact .advance inCall
    | startCallback =>
        obtain ⟨_, result⟩ := Option.ite_none_right_eq_some.mp stepped
        cases result
        exact .startCallback
    | endCallback =>
        obtain ⟨_, result⟩ := Option.ite_none_right_eq_some.mp stepped
        cases result
        exact .endCallback
    | turn => exact .turn stepped
    | finishDestructor =>
        obtain ⟨running, result⟩ := Option.ite_none_left_eq_some.mp stepped
        obtain ⟨thread, destroys, finished⟩ := Option.bind_eq_some_iff.mp result
        exact .finishDestructor (by simpa using running) destroys finished

theorem worker_of_turn {backend : WatcherBackend} {next : WatcherLifetime}
    (turned : state.turn backend = some next) :
    ∃ worker, next = { state with worker } := by
  cases backend with
  | kqueue =>
      simp only [turn, Option.ite_none_right_eq_some] at turned
      exact ⟨.exited, (Option.some.inj turned.2).symm⟩
  | windows =>
      simp only [turn] at turned
      split at turned
      · exact ⟨.draining, (Option.some.inj turned).symm⟩
      · rw [Option.ite_none_right_eq_some] at turned
        exact ⟨.exited, (Option.some.inj turned.2).symm⟩

/-- The join fails, or it has waited for the thread (or skipped it). -/
theorem finishDestructor_cases {backend : WatcherBackend} {thread : Thread}
    {next : WatcherLifetime}
    (finished : state.finishDestructor thread backend = some next) :
    next = { state with terminated := true } ∧
        (state.joinable = false ∨ thread = .worker) ∨
      ∃ joinable, next = { state with joinable, destroyed := true } := by
  have ofJoin (joined : state.joinThread thread = some next) :
      next = { state with terminated := true } ∧
          (state.joinable = false ∨ thread = .worker) ∨
        ∃ joinable, next = { state with joinable, destroyed := true } := by
    unfold joinThread at joined
    split at joined
    · rename_i fails
      exact Or.inl ⟨(Option.some.inj joined).symm, fails⟩
    · rw [Option.ite_none_right_eq_some] at joined
      exact Or.inr ⟨false, (Option.some.inj joined.2).symm⟩
  cases backend with
  | kqueue => exact ofJoin finished
  | windows =>
      simp only [finishDestructor] at finished
      split at finished
      · exact ofJoin finished
      · exact Or.inr ⟨state.joinable, (Option.some.inj finished).symm⟩

/-! ## Who has a reference -/

inductive Holder
  | owner
  | call (thread : Thread)

/-- The references of the owner and the calls that have one. -/
def holders (state : WatcherLifetime) : List Holder :=
  List.replicate state.owners .owner ++ state.unwatching.keys.map .call

/-- The count of the references is right, and the thread has not been joined. -/
structure CountsHolders (state : WatcherLifetime) : Prop where
  counts : SharedOwnership.Counts state.useCount state.holders
  joinable : state.destroyed = false → state.joinable = true

theorem holders_eq_nil_iff (state : WatcherLifetime) :
    state.holders = [] ↔ state.owners = 0 ∧ state.unwatching.keys = [] := by
  simp [holders]

/-- A reference of a holder who is not counted any more is released. -/
theorem CountsHolders.release (holder : Holder)
    (counts : SharedOwnership.Counts state.useCount (holder :: state.holders))
    (joinable : state.destroyed = false → state.joinable = true)
    (thread : Thread) : CountsHolders (state.release thread) := by
  have left := counts.release (List.Perm.refl _)
  unfold WatcherLifetime.release
  split <;> exact ⟨left, joinable⟩

theorem destructor_release {holder : Holder}
    (counts : SharedOwnership.Counts state.useCount (holder :: state.holders))
    (thread : Thread) :
    (state.release thread).destructor =
      if state.holders = [] then some thread else state.destructor := by
  have last := counts.last_iff (List.Perm.refl _)
  unfold WatcherLifetime.release
  by_cases none : state.holders = []
  · simp [none, last.mpr none]
  · simp [none, mt last.mp none]

theorem terminated_release (state : WatcherLifetime) (thread : Thread) :
    (state.release thread).terminated = state.terminated := by
  unfold release
  split <;> rfl

/-- The calls of the others are left. -/
theorem perm_holders_of_lookup {thread : Thread} {call : Unwatching}
    (inCall : state.unwatching.lookup thread = some call)
    (handles : LinkedHashMap Nat Bool) :
    state.holders.Perm (.call thread :: holders { state with
      unwatching := state.unwatching.erase thread
      handles }) := by
  have keysPerm : state.unwatching.keys.Perm
      (thread :: (state.unwatching.erase thread).keys) :=
    (perm_erase inCall).map Prod.fst
  have calls := (keysPerm.map Holder.call).append_left
    (List.replicate state.owners Holder.owner)
  exact calls.trans List.perm_middle

theorem holders_of_owned (owned : 0 < state.owners) :
    state.holders = .owner :: holders { state with owners := state.owners - 1 } := by
  obtain ⟨others, ownersEq⟩ := Nat.exists_eq_add_one.mpr owned
  simp only [holders, ownersEq, Nat.add_sub_cancel, List.replicate_succ,
    List.cons_append]

/-- The calls with a strong reference stay the same. -/
theorem holders_assign_of_lookup {thread : Thread} {call : Unwatching}
    (inCall : state.unwatching.lookup thread = some call)
    (later : Unwatching) :
    List.replicate state.owners Holder.owner ++
        (state.unwatching.assign thread later).keys.map .call =
      state.holders := by
  rw [keys_assign, if_pos (mem_keys_of_lookup inCall)]
  rfl

namespace CountsHolders

variable {backend : WatcherBackend} {event : Event} {next : WatcherLifetime}

theorem unwatch (counts : CountsHolders state) {thread : Thread}
    (callable : state.Callable thread) (handle : Nat) (destroys : Bool) :
    CountsHolders (state.unwatch thread handle destroys) := by
  unfold WatcherLifetime.unwatch
  split
  · rename_i useCount locks
    rw [lockWatcher] at locks
    obtain ⟨_, locked⟩ := Option.ite_none_right_eq_some.mp locks
    have taken := (counts.counts.lock locked (.call thread)).1
    have appended : (List.replicate state.owners Holder.owner ++
        (state.unwatching.assign thread { handle, destroys }).keys.map
          Holder.call) = state.holders ++ [.call thread] := by
      rw [keys_assign, if_neg callable.1, List.map_append, ← List.append_assoc]
      rfl
    refine ⟨?_, counts.joinable⟩
    rw [holders, appended]
    exact taken.perm (List.perm_append_singleton _ _).symm
  · split
    · exact ⟨counts.counts, counts.joinable⟩
    · exact counts

theorem advance (counts : CountsHolders state) {thread : Thread}
    {call : Unwatching} (inCall : state.unwatching.lookup thread = some call) :
    CountsHolders (state.advance thread call) := by
  unfold WatcherLifetime.advance
  split
  · refine ⟨?_, counts.joinable⟩
    rw [closeWatch, holders, holders_assign_of_lookup inCall]
    exact counts.counts
  · refine ⟨?_, counts.joinable⟩
    rw [resetWatcher, holders, holders_assign_of_lookup inCall]
    exact counts.counts
  · have left := counts.counts.perm (perm_holders_of_lookup inCall
      (if call.destroys then state.handles.erase call.handle
        else state.handles))
    refine CountsHolders.release (.call thread) ?_ ?_ thread
    · exact left
    · exact counts.joinable

theorem moves (counts : CountsHolders state)
    (moved : Moves backend state event next) : CountsHolders next := by
  cases moved with
  | copyOwner owned =>
      refine ⟨?_, counts.joinable⟩
      rw [holders, List.replicate_succ]
      exact counts.counts.copy .owner
  | dropOwner owned =>
      have left := counts.counts
      rw [holders_of_owned owned] at left
      refine CountsHolders.release .owner ?_ ?_ _
      · exact left
      · exact counts.joinable
  | watchFile handle => exact ⟨counts.counts, counts.joinable⟩
  | unwatch callable handle destroys =>
      exact counts.unwatch callable handle destroys
  | advance inCall => exact counts.advance inCall
  | startCallback => exact ⟨counts.counts, counts.joinable⟩
  | endCallback => exact ⟨counts.counts, counts.joinable⟩
  | turn turned =>
      obtain ⟨worker, rfl⟩ := worker_of_turn turned
      exact ⟨counts.counts, counts.joinable⟩
  | finishDestructor running destroys finished =>
      rcases finishDestructor_cases finished with ⟨rfl, _⟩ | ⟨joinable, rfl⟩
      · exact ⟨counts.counts, counts.joinable⟩
      · exact ⟨counts.counts, fun never => nomatch never⟩

end CountsHolders

/-! ## Who runs the destructor -/

variable {backend : WatcherBackend} {event : Event} {next : WatcherLifetime}

/-- When a call of `Unwatch` ends, its thread runs the destructor if no one else
has a reference. -/
theorem destructor_leaveUnwatch (counts : CountsHolders state) {thread : Thread}
    {call : Unwatching} (inCall : state.unwatching.lookup thread = some call) :
    (state.leaveUnwatch thread call).destructor =
      if state.owners = 0 ∧ (state.unwatching.erase thread).keys = [] then
        some thread
      else
        state.destructor := by
  have left := counts.counts.perm (perm_holders_of_lookup inCall
    (if call.destroys then state.handles.erase call.handle
      else state.handles))
  rw [leaveUnwatch, destructor_release left]
  simp only [holders_eq_nil_iff]

/-- The threads in calls of `Unwatch` but for one. -/
theorem keys_erase_eq_nil_iff (state : WatcherLifetime) (thread : Thread) :
    (state.unwatching.erase thread).keys = [] ↔
      ∀ other ∈ state.unwatching.keys, other = thread := by
  rw [List.eq_nil_iff_forall_not_mem]
  simp only [mem_keys_erase, not_and, not_not]

theorem othersHold_iff {call : Unwatching}
    (inCall : state.unwatching.lookup .worker = some call)
    (leaves : call.point = .reset) :
    state.OthersHold (.advance .worker) ↔
      ¬ (state.owners = 0 ∧ (state.unwatching.erase .worker).keys = []) := by
  rw [keys_erase_eq_nil_iff, not_and_or, OthersHold]
  constructor
  · intro others
    rcases others ⟨call, inCall, leaves⟩ with owned | ⟨client, member⟩
    · exact Or.inl (Nat.ne_of_gt owned)
    · right
      intro onlyWorker
      cases onlyWorker _ member
  · rintro (owned | someone) _
    · exact Or.inl (Nat.pos_of_ne_zero owned)
    · right
      simp only [not_forall] at someone
      obtain ⟨other, member, different⟩ := someone
      cases other with
      | worker => exact absurd rfl different
      | client client => exact ⟨client, member⟩

theorem JoinsOther.moves (counts : CountsHolders state)
    (joins : JoinsOther state) (others : state.OthersHold event)
    (moved : Moves backend state event next) : JoinsOther next := by
  cases moved with
  | copyOwner owned => exact joins
  | @dropOwner client owned =>
      have left := counts.counts
      rw [holders_of_owned owned] at left
      constructor
      · rw [destructor_release left]
        split
        · exact fun same => nomatch same
        · exact joins.1
      · rw [terminated_release]
        exact joins.2
  | watchFile handle => exact joins
  | unwatch callable handle destroys =>
      unfold WatcherLifetime.unwatch
      split
      · exact joins
      · split <;> exact joins
  | @advance thread call inCall =>
      unfold WatcherLifetime.advance
      split
      · exact joins
      · exact joins
      · rename_i leaves
        constructor
        · rw [destructor_leaveUnwatch counts inCall]
          split
          · rename_i alone
            rintro ⟨rfl⟩
            exact (othersHold_iff inCall leaves).mp others alone
          · exact joins.1
        · rw [leaveUnwatch, terminated_release]
          exact joins.2
  | startCallback => exact joins
  | endCallback => exact joins
  | turn turned =>
      obtain ⟨worker, rfl⟩ := worker_of_turn turned
      exact joins
  | finishDestructor running destroys finished =>
      rcases finishDestructor_cases finished with ⟨_, fails⟩ | ⟨joinable, rfl⟩
      · rcases fails with joined | rfl
        · rw [counts.joinable running] at joined
          cases joined
        · exact absurd destroys joins.1
      · exact joins

/-- Where the watcher's thread gives up the last reference, it destroys the
watcher. -/
theorem destroyed_byWorker (counts : CountsHolders state)
    (joins : JoinsOther state) (alone : ¬ state.OthersHold event) :
    ∃ next, state.step backend event = some next ∧ ¬ JoinsOther next := by
  have isAdvance : event = .advance .worker := by
    by_contra other
    apply alone
    unfold OthersHold
    split
    · exact absurd rfl other
    · trivial
  subst isAdvance
  obtain ⟨call, inCall, leaves⟩ : ∃ call,
      state.unwatching.lookup .worker = some call ∧ call.point = .reset := by
    by_contra notLeaving
    exact alone fun leaving => absurd leaving notLeaving
  refine ⟨state.leaveUnwatch .worker call, ?_, ?_⟩
  · rw [step, if_neg (by simp [joins.2]), inCall, Option.map_some, advance,
      leaves]
  · intro stillJoins
    apply stillJoins.1
    rw [destructor_leaveUnwatch counts inCall, if_pos]
    exact not_not.mp (mt (othersHold_iff inCall leaves).mpr alone)

theorem countsHolders_created : CountsHolders {} :=
  ⟨rfl, fun _ => rfl⟩

/-- The watcher's thread runs the destructor in no state of a run exactly if the
owner or another thread has a reference whenever it leaves `Unwatch`. -/
theorem joinsOther_iff_othersHold (backend : WatcherBackend)
    (events : List Event) :
    EventRuns.Throughout (fun state => step state backend) JoinsOther {}
        events ↔
      EventRuns.EachStep (fun state => step state backend) OthersHold {}
        events := by
  apply EventRuns.throughout_iff_eachStep
    fun state => CountsHolders state ∧ JoinsOther state
  · rintro state ⟨_, joins⟩
    exact joins
  · rintro state event next ⟨counts, joins⟩ others stepped
    have moved := moves_of_step stepped
    exact ⟨counts.moves moved, joins.moves counts others moved⟩
  · rintro state event ⟨counts, joins⟩ alone
    exact destroyed_byWorker counts joins alone
  · refine ⟨countsHolders_created, ?_, rfl⟩
    intro same
    cases same

/-- The owner drops its reference while a callback is in `Unwatch`. -/
def ownerDropsDuringUnwatch : List Event :=
  [.watchFile 1, .startCallback, .unwatch .worker 1 false, .dropOwner 0,
    .advance .worker, .advance .worker, .advance .worker, .finishDestructor]

/-- The watcher's thread joins itself. -/
theorem worker_joinsItself :
    (∃ final, EventRuns.run (fun state => step state .kqueue) {}
        ownerDropsDuringUnwatch = some final ∧
      final.destructor = some .worker ∧ final.terminated = true ∧
        ¬ JoinsOther final) ∧
      ∃ final, EventRuns.run (fun state => step state .windows) {}
          ownerDropsDuringUnwatch = some final ∧
        final.destructor = some .worker ∧ final.terminated = true ∧
          ¬ JoinsOther final :=
  ⟨⟨_, rfl, rfl, rfl, fun joins => joins.1 rfl⟩,
    ⟨_, rfl, rfl, rfl, fun joins => joins.1 rfl⟩⟩

end WatcherLifetime

end Birch

import Birch.EventRuns
import Birch.ResourceLedger
import Birch.VnodeQueue

/-!
# Who closes the descriptors of the kqueue watcher

Each watch of `KqueueFileWatcher` has a descriptor of its file, which comes and
goes, and one of the directory.  Here every `open` and every `kevent` is free to
fail, and the system may hand out the number of a descriptor that was closed
again.  This file shows that the descriptors that are open are those of the
watches, and that no one closes a descriptor that is not open.
-/

namespace Birch

open EventRuns LinkedHashMap ResourceLedger

namespace KqueueDescriptors

abbrev WatchId := Nat

/-- A descriptor that is not open is -1. -/
structure Watch (Path Callback : Type*) where
  id : WatchId
  path : Path
  parentPath : Path
  fileFd : Int
  dirFd : Int
  callback : Callback

/-- What the system says to `TryOpenAndArmFile`. -/
structure FileReplies where
  openFile : Except Nat Nat
  armFile : Bool := true

structure ErrnoStatus where
  errno : Nat
  message : String
  deriving DecidableEq

variable {Path Callback : Type*}

namespace Watch

variable (watch : Watch Path Callback) (ledger : ResourceLedger Int)

/-- The descriptors that the watch has. -/
def fds : List Int :=
  [watch.fileFd, watch.dirFd].filter fun fd => fd ≠ -1

/-- The reply is that of `kevent`. -/
def armFile (reply : Bool) : Bool :=
  watch.fileFd ≠ -1 && reply

def armDir (reply : Bool) : Bool :=
  watch.dirFd ≠ -1 && reply

/-- If `kevent` cannot delete the registration, this is only logged. -/
def disarmFile : Watch Path Callback × ResourceLedger Int :=
  if watch.fileFd = -1 then (watch, ledger)
  else ({ watch with fileFd := -1 }, ledger.release watch.fileFd)

def disarmDir : Watch Path Callback × ResourceLedger Int :=
  if watch.dirFd = -1 then (watch, ledger)
  else ({ watch with dirFd := -1 }, ledger.release watch.dirFd)

/-- `DisarmWatch`. -/
def disarm : Watch Path Callback × ResourceLedger Int :=
  (watch.disarmFile ledger).1.disarmDir (watch.disarmFile ledger).2

/-- A descriptor that is open is not handed out. -/
def tryOpenAndArmFile (replies : FileReplies) :
    Option (Bool × Watch Path Callback × ResourceLedger Int) :=
  if watch.fileFd ≠ -1 then
    some (true, watch, ledger)
  else
    match replies.openFile with
    | .error _ => some (false, watch, ledger)
    | .ok fd =>
        (ledger.acquire fd).map fun opened =>
          if armFile { watch with fileFd := fd } replies.armFile then
            (true, { watch with fileFd := fd }, opened)
          else
            (false, { watch with fileFd := -1 }, opened.release fd)

def handleFileEvent (fflags : VnodeQueue.Flags) (replies : FileReplies) :
    Option (Bool × Watch Path Callback × ResourceLedger Int) :=
  if fflags.gone then
    (watch.disarmFile ledger).1.tryOpenAndArmFile (watch.disarmFile ledger).2
      replies
  else
    some (fflags.changed, watch, ledger)

def handleDirEvent (replies : FileReplies) :
    Option (Bool × Watch Path Callback × ResourceLedger Int) :=
  if watch.fileFd = -1 then watch.tryOpenAndArmFile ledger replies
  else some (false, watch, ledger)

end Watch

end KqueueDescriptors

/-- The watcher, the watches that calls of `WatchFile` have made before they ask
for the lock, and the descriptors that were opened for watches. -/
structure KqueueDescriptors (Path Callback : Type*) where
  watches : LinkedHashMap KqueueDescriptors.WatchId
    (KqueueDescriptors.Watch Path Callback) := ∅
  nextWatchId : KqueueDescriptors.WatchId := 1
  pendingUnwatches : List KqueueDescriptors.WatchId := []
  calls : LinkedHashMap KqueueDescriptors.WatchId
    (KqueueDescriptors.Watch Path Callback) := ∅
  ledger : ResourceLedger Int := {}
  destroyed : Bool := false

namespace KqueueDescriptors

variable {Path Callback : Type*} (watcher : KqueueDescriptors Path Callback)

/-- `WatchFile` up to the lock. -/
def callWatchFile (path parentPath : Path) (callback : Callback)
    (reply : Except Nat Nat) :
    Option (Except ErrnoStatus WatchId × KqueueDescriptors Path Callback) :=
  match reply with
  | .error errno => some (.error ⟨errno, "open() failed"⟩, watcher)
  | .ok dirFd =>
      (watcher.ledger.acquire dirFd).map fun ledger =>
        (.ok (watcher.nextWatchId + 1),
          { watcher with
            ledger
            nextWatchId := watcher.nextWatchId + 1
            calls := watcher.calls.emplace (watcher.nextWatchId + 1)
              { id := watcher.nextWatchId + 1
                path, parentPath, fileFd := -1, dirFd, callback } })

def finishCall (id : WatchId) : KqueueDescriptors Path Callback :=
  { watcher with calls := watcher.calls.erase id }

/-- `WatchFile` from the lock on.  The first reply is that of `kevent` for the
directory: the error, if there is one. -/
def watchFile (id : WatchId) (watch : Watch Path Callback)
    (armDir : Option Nat) (replies : FileReplies) :
    Option (Except ErrnoStatus WatchId × KqueueDescriptors Path Callback) :=
  let inserted := watcher.watches.emplace id watch
  if watch.armDir armDir.isNone then
    (watch.tryOpenAndArmFile watcher.ledger replies).map fun opened =>
      (.ok id,
        { watcher with
          watches := inserted.assign id opened.2.1
          ledger := opened.2.2 })
  else
    some (.error ⟨armDir.getD 0, "ArmDir() failed"⟩,
      { watcher with
        watches := (inserted.assign id { watch with dirFd := -1 }).erase id
        ledger := watcher.ledger.release watch.dirFd })

def closeWatch (id : WatchId) : KqueueDescriptors Path Callback :=
  { watcher with pendingUnwatches := watcher.pendingUnwatches ++ [id] }

/-- One turn of the loop of `Run` over the pending unwatches. -/
def drainOne (id : WatchId) : KqueueDescriptors Path Callback :=
  match watcher.watches.lookup id with
  | none => watcher
  | some watch =>
      { watcher with
        watches := watcher.watches.erase id
        ledger := (watch.disarm watcher.ledger).2 }

def drain : KqueueDescriptors Path Callback :=
  { watcher.pendingUnwatches.foldl drainOne watcher with pendingUnwatches := [] }

/-- The watch and the descriptors after an event of the watch. -/
def setWatch (id : WatchId)
    (handled : Bool × Watch Path Callback × ResourceLedger Int) :
    KqueueDescriptors Path Callback :=
  { watcher with
    watches := watcher.watches.assign id handled.2.1
    ledger := handled.2.2 }

/-- One turn of the loop of `Run` over the events. -/
def handleEvent (id : WatchId) (ident : Int) (fflags : VnodeQueue.Flags)
    (replies : FileReplies) : Option (KqueueDescriptors Path Callback) :=
  match watcher.watches.lookup id with
  | none => some watcher
  | some watch =>
      if ident = watch.fileFd then
        (watch.handleFileEvent watcher.ledger fflags replies).map
          (watcher.setWatch id)
      else if ident = watch.dirFd then
        (watch.handleDirEvent watcher.ledger replies).map (watcher.setWatch id)
      else
        some watcher

/-- The destructor, after the thread has ended. -/
def destroy : KqueueDescriptors Path Callback :=
  { watcher with
    ledger := (watcher.watches.entries.map Prod.snd).foldl
      (fun ledger watch => (watch.disarm ledger).2) watcher.ledger
    watches := ∅
    destroyed := true }

inductive Event (Path Callback : Type*)
  | callWatchFile (path parentPath : Path) (callback : Callback)
      (reply : Except Nat Nat)
  | watchFile (id : WatchId) (armDir : Option Nat) (replies : FileReplies)
  | closeWatch (id : WatchId)
  | drain
  | kevent (id : WatchId) (ident : Int) (fflags : VnodeQueue.Flags)
      (replies : FileReplies)
  | destroy

/-- No one calls a watcher that is destroyed, and none is destroyed in a call. -/
def step (watcher : KqueueDescriptors Path Callback)
    (event : Event Path Callback) : Option (KqueueDescriptors Path Callback) :=
  if watcher.destroyed then
    none
  else
    match event with
    | .callWatchFile path parentPath callback reply =>
        (watcher.callWatchFile path parentPath callback reply).map Prod.snd
    | .watchFile id armDir replies =>
        (watcher.calls.lookup id).bind fun watch =>
          ((watcher.finishCall id).watchFile id watch armDir replies).map Prod.snd
    | .closeWatch id => some (watcher.closeWatch id)
    | .drain => some watcher.drain
    | .kevent id ident fflags replies =>
        watcher.handleEvent id ident fflags replies
    | .destroy =>
        if watcher.calls.entries = [] then some watcher.destroy else none

/-! ## The descriptors of one watch -/

namespace Watch

variable {watch : Watch Path Callback} {ledger : ResourceLedger Int}
  {rest : List Int}

theorem fds_of_file (opened : watch.fileFd ≠ -1) :
    watch.fds = watch.fileFd :: fds { watch with fileFd := -1 } := by
  simp [fds, List.filter_cons, opened]

theorem fds_of_dir (opened : watch.dirFd ≠ -1) :
    watch.fds.Perm (watch.dirFd :: fds { watch with dirFd := -1 }) := by
  by_cases file : watch.fileFd = -1
  · simp [fds, opened, file]
  · simp only [fds, List.filter_cons, opened, file, ne_eq, not_false_eq_true,
      decide_true, if_true, not_true_eq_false, decide_false, Bool.false_eq_true,
      if_false, List.filter_nil]
    exact List.Perm.swap _ _ _

theorem disarmFile_owned (owns : Owned ledger (watch.fds ++ rest)) :
    Owned (watch.disarmFile ledger).2 ((watch.disarmFile ledger).1.fds ++ rest) := by
  unfold disarmFile
  split
  · exact owns
  · rename_i opened
    rw [fds_of_file opened] at owns
    exact owns.release

theorem disarmDir_owned (owns : Owned ledger (watch.fds ++ rest)) :
    Owned (watch.disarmDir ledger).2 ((watch.disarmDir ledger).1.fds ++ rest) := by
  unfold disarmDir
  split
  · exact owns
  · rename_i opened
    have apart := owns.reorder ((fds_of_dir opened).append_right rest)
    exact apart.release

/-- A watch that is disarmed has no descriptors. -/
theorem fds_disarm (watch : Watch Path Callback) (ledger : ResourceLedger Int) :
    (watch.disarm ledger).1.fds = [] := by
  have noFile : (watch.disarmFile ledger).1.fileFd = -1 := by
    unfold disarmFile
    split
    · assumption
    · rfl
  unfold disarm disarmDir
  split
  · rename_i noDir
    simp [fds, noFile, noDir]
  · simp [fds, noFile]

theorem disarm_owned (owns : Owned ledger (watch.fds ++ rest)) :
    Owned (watch.disarm ledger).2 rest := by
  have disarmed := disarmDir_owned (disarmFile_owned owns)
  have none := watch.fds_disarm ledger
  rw [disarm] at none
  rw [none, List.nil_append] at disarmed
  exact disarmed

theorem tryOpenAndArmFile_owned (owns : Owned ledger (watch.fds ++ rest))
    {replies : FileReplies}
    {result : Bool × Watch Path Callback × ResourceLedger Int}
    (opened : watch.tryOpenAndArmFile ledger replies = some result) :
    Owned result.2.2 (result.2.1.fds ++ rest) := by
  unfold tryOpenAndArmFile at opened
  split at opened
  · cases opened
    exact owns
  · rename_i noFile
    have atFile : watch.fileFd = -1 := not_not.mp noFile
    split at opened
    · cases opened
      exact owns
    · rename_i fd _
      obtain ⟨handedOut, acquired, rfl⟩ := Option.map_eq_some_iff.mp opened
      have acquiredOwns := owns.acquire acquired
      have nonneg : (fd : Int) ≠ -1 := by omega
      have without : { watch with fileFd := -1 } = watch := by
        cases watch
        simp_all
      split
      · have fdsEq : fds { watch with fileFd := (fd : Int) } =
            (fd : Int) :: watch.fds := by
          rw [fds_of_file nonneg, without]
        rw [fdsEq]
        exact acquiredOwns
      · rw [without]
        exact acquiredOwns.release

theorem handleFileEvent_owned (owns : Owned ledger (watch.fds ++ rest))
    {fflags : VnodeQueue.Flags} {replies : FileReplies}
    {result : Bool × Watch Path Callback × ResourceLedger Int}
    (handled : watch.handleFileEvent ledger fflags replies = some result) :
    Owned result.2.2 (result.2.1.fds ++ rest) := by
  unfold handleFileEvent at handled
  split at handled
  · exact tryOpenAndArmFile_owned (disarmFile_owned owns) handled
  · cases handled
    exact owns

theorem handleDirEvent_owned (owns : Owned ledger (watch.fds ++ rest))
    {replies : FileReplies}
    {result : Bool × Watch Path Callback × ResourceLedger Int}
    (handled : watch.handleDirEvent ledger replies = some result) :
    Owned result.2.2 (result.2.1.fds ++ rest) := by
  unfold handleDirEvent at handled
  split at handled
  · exact tryOpenAndArmFile_owned owns handled
  · cases handled
    exact owns

end Watch

/-! ## Other fields -/

section Fields

variable {watcher} {next : KqueueDescriptors Path Callback} {id : WatchId}
  {watch : Watch Path Callback} {armDir : Option Nat} {replies : FileReplies}
  {result : Except ErrnoStatus WatchId × KqueueDescriptors Path Callback}

theorem callWatchFile_frame {path parentPath : Path} {callback : Callback}
    {reply : Except Nat Nat}
    (called : watcher.callWatchFile path parentPath callback reply = some result) :
    result.2.watches = watcher.watches ∧
      result.2.pendingUnwatches = watcher.pendingUnwatches ∧
      result.2.destroyed = watcher.destroyed ∧
      watcher.nextWatchId ≤ result.2.nextWatchId ∧
      ∀ other ∈ result.2.calls.keys,
        other ∈ watcher.calls.keys ∨ other = watcher.nextWatchId + 1 := by
  unfold callWatchFile at called
  split at called
  · cases called
    exact ⟨rfl, rfl, rfl, Nat.le_refl _, fun _ => Or.inl⟩
  · obtain ⟨ledger, _, rfl⟩ := Option.map_eq_some_iff.mp called
    refine ⟨rfl, rfl, rfl, Nat.le_succ _, ?_⟩
    intro other present
    exact (mem_keys_emplace _ _ _ _).mp present

/-- From the lock on the call closes the descriptor that it has. -/
theorem watchFile_failed (fresh : id ∉ watcher.watches.keys) {status : ErrnoStatus}
    (failed : watcher.watchFile id watch armDir replies =
      some (.error status, next)) :
    next = { watcher with ledger := watcher.ledger.release watch.dirFd } := by
  have unchanged : ((watcher.watches.emplace id watch).assign id
      { watch with dirFd := -1 }).erase id = watcher.watches := by
    rw [erase_assign, erase_emplace_of_absent fresh]
  unfold watchFile at failed
  dsimp only at failed
  split at failed
  · obtain ⟨_, _, impossible⟩ := Option.map_eq_some_iff.mp failed
    cases impossible
  · cases failed
    rw [unchanged]

theorem watchFile_frame (fresh : id ∉ watcher.watches.keys)
    (called : watcher.watchFile id watch armDir replies = some result) :
    result.2.calls = watcher.calls ∧
      result.2.nextWatchId = watcher.nextWatchId ∧
      result.2.pendingUnwatches = watcher.pendingUnwatches ∧
      result.2.destroyed = watcher.destroyed ∧
      (∀ other ∈ result.2.watches.keys,
        other ∈ watcher.watches.keys ∨ other = id) ∧
      ∀ other, result.1 = .ok other → other = id := by
  rcases result with ⟨reply, next⟩
  cases reply with
  | error status =>
      rw [watchFile_failed fresh called]
      refine ⟨rfl, rfl, rfl, rfl, fun _ => Or.inl, ?_⟩
      rintro other ⟨⟩
  | ok returned =>
      unfold watchFile at called
      dsimp only at called
      split at called
      · obtain ⟨opened, _, same⟩ := Option.map_eq_some_iff.mp called
        cases same
        refine ⟨rfl, rfl, rfl, rfl, ?_, ?_⟩
        · intro other present
          rcases (mem_keys_assign _ _ _ _).mp present with inserted | same
          · exact (mem_keys_emplace _ _ _ _).mp inserted
          · exact Or.inr same
        · rintro other ⟨⟩
          rfl
      · cases called

theorem watches_drainOne (watcher : KqueueDescriptors Path Callback)
    (id : WatchId) : (watcher.drainOne id).watches = watcher.watches.erase id := by
  unfold drainOne
  split
  · rename_i missing
    exact (erase_of_absent ((lookup_eq_none_iff _ _).mp missing)).symm
  · rfl

theorem drainOne_frame (watcher : KqueueDescriptors Path Callback)
    (id : WatchId) :
    (watcher.drainOne id).calls = watcher.calls ∧
      (watcher.drainOne id).nextWatchId = watcher.nextWatchId ∧
      (watcher.drainOne id).destroyed = watcher.destroyed := by
  unfold drainOne
  split <;> exact ⟨rfl, rfl, rfl⟩

theorem foldl_drainOne_frame (ids : List WatchId)
    (watcher : KqueueDescriptors Path Callback) :
    (ids.foldl drainOne watcher).watches.entries =
        watcher.watches.entries.filter (fun entry => entry.1 ∉ ids) ∧
      (ids.foldl drainOne watcher).calls = watcher.calls ∧
      (ids.foldl drainOne watcher).nextWatchId = watcher.nextWatchId ∧
      (ids.foldl drainOne watcher).destroyed = watcher.destroyed := by
  induction ids generalizing watcher with
  | nil => simp
  | cons id ids ih =>
      obtain ⟨calls, nextWatchId, destroyed⟩ := drainOne_frame watcher id
      obtain ⟨watchesLater, callsLater, nextLater, destroyedLater⟩ :=
        ih (watcher.drainOne id)
      refine ⟨?_, callsLater.trans calls, nextLater.trans nextWatchId,
        destroyedLater.trans destroyed⟩
      rw [List.foldl_cons, watchesLater, watches_drainOne, entries_erase,
        List.filter_filter]
      apply List.filter_congr
      intro entry _
      simp [Bool.and_comm]

/-- The drain takes the pending watches out. -/
theorem mem_keys_drain (watcher : KqueueDescriptors Path Callback)
    (id : WatchId) :
    id ∈ watcher.drain.watches.keys ↔
      id ∈ watcher.watches.keys ∧ id ∉ watcher.pendingUnwatches := by
  have kept := (foldl_drainOne_frame watcher.pendingUnwatches watcher).1
  rw [drain, keys, kept]
  simp only [keys, List.mem_map, List.mem_filter, decide_eq_true_eq]
  constructor
  · rintro ⟨entry, ⟨member, left⟩, rfl⟩
    exact ⟨⟨entry, member, rfl⟩, left⟩
  · rintro ⟨⟨entry, member, rfl⟩, left⟩
    exact ⟨entry, ⟨member, left⟩, rfl⟩

end Fields

/-! ## The descriptors of the watcher -/

/-- The descriptors of the registered watches. -/
def watchFds : List Int :=
  heldBy Watch.fds watcher.watches

/-- The descriptors of the directories that calls of `WatchFile` have opened. -/
def callFds : List Int :=
  heldBy Watch.fds watcher.calls

/-- The descriptors that are open are those of the watches and of the calls. -/
structure KeepsDescriptors (watcher : KqueueDescriptors Path Callback) : Prop where
  owns : Owned watcher.ledger (watcher.watchFds ++ watcher.callFds)
  calling : ∀ id watch, watcher.calls.lookup id = some watch →
    watch.fileFd = -1 ∧ watch.dirFd ≠ -1 ∧ id ≤ watcher.nextWatchId ∧
      id ∉ watcher.watches.keys
  below : ∀ id ∈ watcher.watches.keys, id ≤ watcher.nextWatchId
  ended : watcher.destroyed = true →
    watcher.watches = ∅ ∧ watcher.calls.entries = []

theorem keepsDescriptors_initial :
    KeepsDescriptors ({} : KqueueDescriptors Path Callback) := by
  refine ⟨owned_initial, ?_, ?_, ?_⟩
  · rintro id watch ⟨⟩
  · rintro id ⟨⟩
  · rintro ⟨⟩

namespace KeepsDescriptors

variable {watcher} {next : KqueueDescriptors Path Callback}
  (keeps : KeepsDescriptors watcher)

include keeps

/-- The next id is new. -/
theorem fresh_nextWatchId : watcher.nextWatchId + 1 ∉ watcher.calls.keys ∧
    watcher.nextWatchId + 1 ∉ watcher.watches.keys := by
  constructor
  · intro present
    obtain ⟨watch, calling⟩ := exists_lookup_of_mem_keys present
    exact Nat.not_succ_le_self _ (keeps.calling _ _ calling).2.2.1
  · intro present
    exact Nat.not_succ_le_self _ (keeps.below _ present)

theorem callWatchFile (alive : watcher.destroyed = false) {path parentPath : Path}
    {callback : Callback} {reply : Except Nat Nat}
    {result : Except ErrnoStatus WatchId × KqueueDescriptors Path Callback}
    (called : watcher.callWatchFile path parentPath callback reply = some result) :
    KeepsDescriptors result.2 := by
  unfold KqueueDescriptors.callWatchFile at called
  split at called
  · cases called
    exact keeps
  · rename_i dirFd
    obtain ⟨ledger, acquired, rfl⟩ := Option.map_eq_some_iff.mp called
    have nonneg : (dirFd : Int) ≠ -1 := by omega
    obtain ⟨absent, notWatched⟩ := keeps.fresh_nextWatchId
    refine ⟨?_, ?_, ?_, ?_⟩
    · have grown : ((dirFd : Int) :: watcher.callFds).Perm
          (heldBy Watch.fds (watcher.calls.emplace (watcher.nextWatchId + 1)
            ⟨watcher.nextWatchId + 1, path, parentPath, -1, dirFd, callback⟩)) := by
        have emplaced := (heldBy_emplace Watch.fds absent
          (⟨watcher.nextWatchId + 1, path, parentPath, -1, dirFd, callback⟩ :
            Watch Path Callback)).symm
        simpa [Watch.fds, nonneg, callFds] using emplaced
      exact (keeps.owns.acquire acquired).reorder
        (List.perm_middle.symm.trans (grown.append_left _))
    · intro id watch calling
      rw [lookup_emplace] at calling
      split at calling
      · rename_i new
        cases calling
        exact ⟨rfl, nonneg, Nat.le_of_eq new.1, new.1 ▸ notWatched⟩
      · obtain ⟨noFile, dir, atMost, fresh⟩ := keeps.calling id watch calling
        exact ⟨noFile, dir, Nat.le_succ_of_le atMost, fresh⟩
    · intro id present
      exact Nat.le_succ_of_le (keeps.below id present)
    · intro ends
      exact absurd (alive.symm.trans ends) Bool.false_ne_true

/-- The watch of a call apart from the others. -/
theorem owns_calling {id : WatchId} {watch : Watch Path Callback}
    (calling : watcher.calls.lookup id = some watch) :
    Owned watcher.ledger
      (watch.fds ++ (watcher.watchFds ++ (watcher.finishCall id).callFds)) := by
  have apart : watcher.callFds.Perm
      (watch.fds ++ (watcher.finishCall id).callFds) :=
    heldBy_perm Watch.fds calling
  refine keeps.owns.reorder ((apart.append_left _).trans ?_)
  rw [← List.append_assoc, ← List.append_assoc]
  exact List.perm_append_comm.append_right _

/-- A registered watch apart from the others. -/
theorem owns_watched {id : WatchId} {watch : Watch Path Callback}
    (found : watcher.watches.lookup id = some watch) :
    Owned watcher.ledger (watch.fds ++
      (heldBy Watch.fds (watcher.watches.erase id) ++ watcher.callFds)) := by
  have apart : watcher.watchFds.Perm
      (watch.fds ++ heldBy Watch.fds (watcher.watches.erase id)) :=
    heldBy_perm Watch.fds found
  rw [← List.append_assoc]
  exact keeps.owns.reorder (apart.append_right _)

/-- The call has returned, and its watch is registered or not. -/
theorem returned (alive : watcher.destroyed = false) {id : WatchId}
    {watch : Watch Path Callback}
    (calling : watcher.calls.lookup id = some watch)
    (owns : Owned next.ledger (next.watchFds ++ next.callFds))
    (keys : ∀ other ∈ next.watches.keys,
      other ∈ watcher.watches.keys ∨ other = id)
    (calls : next.calls = watcher.calls.erase id)
    (nextWatchId : next.nextWatchId = watcher.nextWatchId)
    (destroyed : next.destroyed = watcher.destroyed) : KeepsDescriptors next := by
  refine ⟨owns, ?_, ?_, ?_⟩
  · intro other otherWatch stillCalling
    rw [calls, lookup_erase] at stillCalling
    split at stillCalling
    · cases stillCalling
    · rename_i different
      obtain ⟨noFile, dir, atMost, fresh⟩ := keeps.calling other _ stillCalling
      refine ⟨noFile, dir, nextWatchId ▸ atMost, ?_⟩
      intro present
      exact (keys other present).elim fresh different
  · intro other present
    rw [nextWatchId]
    rcases keys other present with old | rfl
    · exact keeps.below other old
    · exact (keeps.calling other watch calling).2.2.1
  · intro ends
    exact absurd (alive.symm.trans (destroyed.symm.trans ends)) Bool.false_ne_true

theorem watchFile (alive : watcher.destroyed = false) {id : WatchId}
    {watch : Watch Path Callback}
    (calling : watcher.calls.lookup id = some watch) {armDir : Option Nat}
    {replies : FileReplies}
    {result : Except ErrnoStatus WatchId × KqueueDescriptors Path Callback}
    (called : (watcher.finishCall id).watchFile id watch armDir replies =
      some result) : KeepsDescriptors result.2 := by
  obtain ⟨noFile, hasDir, _, fresh⟩ := keeps.calling id watch calling
  have owns := keeps.owns_calling calling
  obtain ⟨calls, nextWatchId, _, destroyed, keys, _⟩ :=
    watchFile_frame (by exact fresh) called
  refine keeps.returned alive calling ?_ keys calls nextWatchId destroyed
  rcases result with ⟨reply, next⟩
  cases reply with
  | error status =>
      have onlyDir : watch.fds = [watch.dirFd] := by
        simp [Watch.fds, noFile, hasDir]
      rw [onlyDir] at owns
      have released := owns.release
      rw [watchFile_failed (by exact fresh) called]
      exact released
  | ok returned =>
      unfold KqueueDescriptors.watchFile at called
      dsimp only at called
      split at called
      · obtain ⟨opened, tried, same⟩ := Option.map_eq_some_iff.mp called
        cases same
        have assigned := heldBy_assign Watch.fds
          (watcher.watches.emplace id watch) id opened.2.1
        rw [erase_emplace_of_absent fresh] at assigned
        have triedOwns := Watch.tryOpenAndArmFile_owned owns tried
        rw [← List.append_assoc] at triedOwns
        exact triedOwns.reorder (assigned.symm.append_right _)
      · cases called

/-- The watches are as they were, but for their descriptors. -/
theorem sameKeys
    (owns : Owned next.ledger (next.watchFds ++ next.callFds))
    (keys : next.watches.keys ⊆ watcher.watches.keys)
    (calls : next.calls = watcher.calls)
    (nextWatchId : next.nextWatchId = watcher.nextWatchId)
    (alive : next.destroyed = false) : KeepsDescriptors next := by
  refine ⟨owns, ?_, ?_, ?_⟩
  · rw [calls, nextWatchId]
    intro id watch calling
    obtain ⟨noFile, dir, atMost, fresh⟩ := keeps.calling id watch calling
    exact ⟨noFile, dir, atMost, fun present => fresh (keys present)⟩
  · rw [nextWatchId]
    intro id present
    exact keeps.below id (keys present)
  · intro ends
    exact absurd (alive.symm.trans ends) Bool.false_ne_true

theorem drainOne (alive : watcher.destroyed = false) (id : WatchId) :
    KeepsDescriptors (watcher.drainOne id) := by
  unfold KqueueDescriptors.drainOne
  split
  · exact keeps
  · rename_i watch found
    refine keeps.sameKeys ?_ ?_ rfl rfl alive
    · exact Watch.disarm_owned (keeps.owns_watched found)
    · intro other present
      exact ((mem_keys_erase _ _ _).mp present).1

theorem handleEvent (alive : watcher.destroyed = false) {id : WatchId}
    {ident : Int} {fflags : VnodeQueue.Flags} {replies : FileReplies}
    (handled : watcher.handleEvent id ident fflags replies = some next) :
    KeepsDescriptors next := by
  unfold KqueueDescriptors.handleEvent at handled
  split at handled
  · cases handled
    exact keeps
  · rename_i watch found
    have owns := keeps.owns_watched found
    have answer : ∀ result : Bool × Watch Path Callback × ResourceLedger Int,
        Owned result.2.2 (result.2.1.fds ++
          (heldBy Watch.fds (watcher.watches.erase id) ++ watcher.callFds)) →
            KeepsDescriptors (watcher.setWatch id result) := by
      intro result resultOwns
      refine keeps.sameKeys ?_ ?_ rfl rfl alive
      · have assigned := heldBy_assign Watch.fds watcher.watches id result.2.1
        rw [← List.append_assoc] at resultOwns
        exact resultOwns.reorder (assigned.symm.append_right _)
      · rw [setWatch, keys_assign, if_pos (mem_keys_of_lookup found)]
        exact List.Subset.refl _
    split at handled
    · obtain ⟨result, answered, rfl⟩ := Option.map_eq_some_iff.mp handled
      exact answer result (Watch.handleFileEvent_owned owns answered)
    · split at handled
      · obtain ⟨result, answered, rfl⟩ := Option.map_eq_some_iff.mp handled
        exact answer result (Watch.handleDirEvent_owned owns answered)
      · cases handled
        exact keeps

theorem foldl_drainOne (alive : watcher.destroyed = false) (ids : List WatchId) :
    KeepsDescriptors (ids.foldl KqueueDescriptors.drainOne watcher) ∧
      (ids.foldl KqueueDescriptors.drainOne watcher).destroyed = false := by
  induction ids generalizing watcher with
  | nil => exact ⟨keeps, alive⟩
  | cons id ids ih =>
      have stillAlive : (watcher.drainOne id).destroyed = false :=
        (drainOne_frame watcher id).2.2.trans alive
      exact ih (keeps.drainOne alive id) stillAlive

theorem drain (alive : watcher.destroyed = false) :
    KeepsDescriptors watcher.drain := by
  obtain ⟨drained, stillAlive⟩ :=
    keeps.foldl_drainOne alive watcher.pendingUnwatches
  exact drained.sameKeys drained.owns (List.Subset.refl _) rfl rfl stillAlive

omit keeps in
theorem disarmAll_owned {ledger : ResourceLedger Int}
    (watches : List (Watch Path Callback)) {rest : List Int}
    (owns : Owned ledger (watches.flatMap Watch.fds ++ rest)) :
    Owned (watches.foldl (fun ledger watch => (watch.disarm ledger).2) ledger)
      rest := by
  induction watches generalizing ledger with
  | nil => exact owns
  | cons watch watches ih =>
      rw [List.flatMap_cons, List.append_assoc] at owns
      exact ih (Watch.disarm_owned owns)

theorem destroy (noCalls : watcher.calls.entries = []) :
    KeepsDescriptors watcher.destroy := by
  have none : watcher.callFds = [] := by
    rw [callFds, heldBy, noCalls]
    rfl
  have ofWatches : watcher.watchFds =
      (watcher.watches.entries.map Prod.snd).flatMap Watch.fds := by
    rw [List.flatMap_map]
    rfl
  have owns := keeps.owns
  rw [ofWatches] at owns
  refine ⟨disarmAll_owned _ owns, ?_, ?_, fun _ => ⟨rfl, noCalls⟩⟩
  · intro id watch calling
    have missing := (entries_eq_nil_iff watcher.calls).mp noCalls id
    exact absurd (missing.symm.trans calling) (by simp)
  · rintro id ⟨⟩

theorem step {event : Event Path Callback}
    (stepped : KqueueDescriptors.step watcher event = some next) :
    KeepsDescriptors next := by
  unfold KqueueDescriptors.step at stepped
  split at stepped
  · cases stepped
  · rename_i notDestroyed
    have alive : watcher.destroyed = false := Bool.eq_false_iff.mpr notDestroyed
    cases event with
    | callWatchFile path parentPath callback reply =>
        obtain ⟨result, called, rfl⟩ := Option.map_eq_some_iff.mp stepped
        exact keeps.callWatchFile alive called
    | watchFile id armDir replies =>
        obtain ⟨watch, calling, finished⟩ := Option.bind_eq_some_iff.mp stepped
        obtain ⟨result, called, rfl⟩ := Option.map_eq_some_iff.mp finished
        exact keeps.watchFile alive calling called
    | closeWatch id =>
        cases stepped
        exact keeps.sameKeys keeps.owns (List.Subset.refl _) rfl rfl alive
    | drain =>
        cases stepped
        exact keeps.drain alive
    | kevent id ident fflags replies => exact keeps.handleEvent alive stepped
    | destroy =>
        dsimp only at stepped
        split at stepped
        · rename_i noCalls
          cases stepped
          exact keeps.destroy noCalls
        · cases stepped

end KeepsDescriptors

/-- The descriptors that were opened for watches and not closed are those in the
watches, and those of directories in calls that have not come to register their
watch; each of them is there once.  No one has closed what was not open, and
after the destructor nothing is open. -/
structure OwnsDescriptors (watcher : KqueueDescriptors Path Callback) : Prop where
  opened_iff : ∀ fd, fd ∈ watcher.ledger.opened ↔
    fd ∈ watcher.watchFds ∨ fd ∈ watcher.callFds
  opened_iff_of_noCall : watcher.calls.entries = [] →
    ∀ fd, fd ∈ watcher.ledger.opened ↔ fd ∈ watcher.watchFds
  distinct : (watcher.watchFds ++ watcher.callFds).Nodup
  noFault : watcher.ledger.faults = []
  noneLeft : watcher.destroyed = true → watcher.ledger.opened = []

theorem KeepsDescriptors.ownsDescriptors {watcher : KqueueDescriptors Path Callback}
    (keeps : KeepsDescriptors watcher) : OwnsDescriptors watcher := by
  refine ⟨?_, ?_, keeps.owns.nodup, keeps.owns.noFault, ?_⟩
  · intro fd
    rw [keeps.owns.mem_iff, List.mem_append]
  · intro noCall fd
    rw [keeps.owns.mem_iff, List.mem_append, callFds, heldBy, noCall]
    exact or_iff_left List.not_mem_nil
  · intro ends
    obtain ⟨noWatches, noCalls⟩ := keeps.ended ends
    have owns := keeps.owns
    rw [watchFds, callFds, heldBy, heldBy, noWatches, noCalls] at owns
    exact owns.opened_eq_nil

/-- Whatever the calls of the system say, the watcher owns its descriptors after
each step. -/
theorem ownsDescriptors_throughout (events : List (Event Path Callback)) :
    Throughout step OwnsDescriptors {} events :=
  throughout_invariant (fun _ => KeepsDescriptors.ownsDescriptors)
    (fun _ _ _ keeps stepped => KeepsDescriptors.step keeps stepped)
    keepsDescriptors_initial events

/-- The file is replaced, and its new descriptor has the old number. -/
def reusedNumber : List (Event Unit Unit) :=
  [.callWatchFile () () () (.ok 3), .watchFile 2 none { openFile := .ok 4 },
    .kevent 2 4 { gone := true } { openFile := .ok 4 }, .closeWatch 2, .drain,
    .destroy]

example : (run step {} (reusedNumber.take 3)).map (·.ledger.opened) =
    some [4, 3] := by
  rfl

example : (run step {} reusedNumber).map (·.ledger.opened) = some [] := by
  rfl

end KqueueDescriptors

end Birch

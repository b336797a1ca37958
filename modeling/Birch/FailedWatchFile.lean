import Birch.KqueueDescriptors
import Birch.WinUnwatching

/-!
# Calls of `WatchFile` that fail

`WatchFile` enters the watch in the tables before it knows that the system
watches the directory, and takes it out again by hand where the system refuses.
This file follows the handles and descriptors through these calls, and shows
that of a call that fails nothing is left, wherever it fails.
-/

namespace Birch

open EventRuns LinkedHashMap ResourceLedger

variable {Path Callback : Type*}

/-! ## The Windows watcher -/

namespace WinFileWatcher

/-- `WinDirWatcher::Open`, with the handle that `CreateFileW` returns and the
handles that are open. -/
def openHandle (object handle : Nat) (replies : SystemReplies)
    (handles : ResourceLedger Nat) :
    Option (Except WatchError (WinDirWatcher Path Callback) ×
      ResourceLedger Nat) :=
  match replies.createFile with
  | some error =>
      some (.error (winErrorToStatus error "CreateFileW(dir)"), handles)
  | none =>
      (handles.acquire handle).map fun opened =>
        match replies.createIoCompletionPort with
        | some error =>
            (.error (winErrorToStatus error "CreateIoCompletionPort(dir)"),
              opened.release handle)
        | none => (.ok { object }, opened)

end WinFileWatcher

open WinFileWatcher

namespace WinWatcherSystem

variable (toLowerKey : WString → WString)
variable (system : WinWatcherSystem Path Callback)

/-- `WatchFile` from the lock on, with the handles.  The directory whose read
cannot be issued has no other owner than the call, and closes its handle at the
end of it. -/
def watchFileHandles (id : WinWatchId) (call : PendingCall Path Callback)
    (handle : Nat) (replies : SystemReplies) (handles : ResourceLedger Nat) :
    Option ((Except WatchError WinWatchId × WinWatcherSystem Path Callback) ×
      ResourceLedger Nat) :=
  match system.watcher.dirWatchers.lookup call.dirKey with
  | some dir =>
      some ((.ok id,
        { system with watcher := system.watcher.register id call dir }), handles)
  | none =>
      (openHandle system.nextObject handle replies handles).map fun result =>
        match result.1 with
        | .error status => ((.error status, system), result.2)
        | .ok dir =>
            let opened := system.registerOpened id call dir
            if replies.readDirectoryChanges then
              ((.ok id, opened.readIssued dir.object), result.2)
            else
              ((.error (.internal "ReadDirectoryChangesW initial issue failed"),
                { opened with
                  watcher := opened.watcher.unregister id call
                    (dir.add call.fileNameKey (call.entry id)) }),
                result.2.release handle)

/-- `WatchFile` with nothing between its sections. -/
def watchFileAtOnce (canon : Path) (parentPath filename currentPath : WString)
    (callback : Callback) (handle : Nat) (replies : SystemReplies)
    (handles : ResourceLedger Nat) :
    Option ((Except WatchError WinWatchId × WinWatcherSystem Path Callback) ×
      ResourceLedger Nat) :=
  match system.callWatchFile toLowerKey canon parentPath filename currentPath
      callback with
  | (.error status, next) => some ((.error status, next), handles)
  | (.ok id, next) =>
      (next.calls.lookup id).bind fun call =>
        (next.finishCall id).watchFileHandles id call handle replies handles

variable {toLowerKey} {system} {id : WinWatchId}
  {call : PendingCall Path Callback} {handle : Nat} {replies : SystemReplies}
  {handles : ResourceLedger Nat}

/-- The handles do not change what the call does to the watcher. -/
theorem watchFileHandles_fst {result}
    (called : system.watchFileHandles id call handle replies handles =
      some result) : result.1 = system.watchFile id call replies := by
  unfold watchFileHandles at called
  unfold watchFile
  cases found : system.watcher.dirWatchers.lookup call.dirKey with
  | some dir =>
      simp only [found] at called
      cases called
      rfl
  | none =>
      simp only [found] at called
      obtain ⟨opened, opens, rfl⟩ := Option.map_eq_some_iff.mp called
      unfold openHandle at opens
      unfold openDir
      cases created : replies.createFile with
      | some error =>
          simp only [created] at opens
          cases opens
          rfl
      | none =>
          simp only [created] at opens
          obtain ⟨ledger, _, rfl⟩ := Option.map_eq_some_iff.mp opens
          cases replies.createIoCompletionPort with
          | some error => rfl
          | none =>
              dsimp only
              split <;> rfl

/-- A call that fails closes the handle that it has opened. -/
theorem handles_of_failed {status : WatchError}
    {next : WinWatcherSystem Path Callback} {after : ResourceLedger Nat}
    (failed : system.watchFileHandles id call handle replies handles =
      some ((.error status, next), after)) : after = handles := by
  unfold watchFileHandles at failed
  split at failed
  · cases failed
  · obtain ⟨opened, opens, failed⟩ := Option.map_eq_some_iff.mp failed
    unfold openHandle at opens
    split at opens
    · cases opens
      cases failed
      rfl
    · obtain ⟨ledger, acquired, rfl⟩ := Option.map_eq_some_iff.mp opens
      have closed := release_of_acquire acquired
      cases associated : replies.createIoCompletionPort with
      | some error =>
          simp only [associated] at failed
          cases failed
          exact closed
      | none =>
          simp only [associated] at failed
          split at failed
          · cases failed
          · cases failed
            exact closed

/-- The state has the watches and directories of the other one. -/
structure SameWatches (system next : WinWatcherSystem Path Callback) : Prop where
  directories : next.watcher.dirWatchers = system.watcher.dirWatchers
  locations : next.watcher.watchLocations = system.watcher.watchLocations
  draining : next.watcher.draining = system.watcher.draining
  unwatches : next.watcher.pendingUnwatches = system.watcher.pendingUnwatches
  reads : next.reads = system.reads
  calls : next.calls = system.calls

/-- From the lock on a call that fails leaves the watcher as it was. -/
theorem sameWatches_of_failed (fresh : id ∉ system.watcher.watchLocations.keys)
    {status : WatchError}
    (failed : (system.watchFile id call replies).1 = .error status) :
    SameWatches system (system.watchFile id call replies).2 := by
  unfold watchFile at failed ⊢
  split at failed
  · cases failed
  · rename_i missing
    cases opens : (openDir system.nextObject replies :
        Except WatchError (WinDirWatcher Path Callback)) with
    | error status => exact ⟨rfl, rfl, rfl, rfl, rfl, rfl⟩
    | ok dir =>
        have unchanged := unregister_registerOpened fresh missing dir
          (dir.add call.fileNameKey (call.entry id))
        simp only [opens] at failed ⊢
        split at failed
        · cases failed
        · rename_i notIssued
          simp only [notIssued, registerOpened, unchanged]
          exact ⟨rfl, rfl, rfl, rfl, rfl, rfl⟩

/-- Where the call fails. -/
theorem watchFile_fails_iff :
    (∃ status, (system.watchFile id call replies).1 = .error status) ↔
      system.watcher.dirWatchers.lookup call.dirKey = none ∧
        (replies.createFile ≠ none ∨ replies.createIoCompletionPort ≠ none ∨
          replies.readDirectoryChanges = false) := by
  unfold watchFile openDir
  cases system.watcher.dirWatchers.lookup call.dirKey with
  | some dir => simp
  | none =>
      cases replies.createFile with
      | some error => simp
      | none =>
          cases replies.createIoCompletionPort with
          | some error => simp
          | none => cases replies.readDirectoryChanges <;> simp

/-- Whatever the system refuses to a call, the watcher and the handles are as
they were before it, also where other calls come between its sections. -/
structure FailsWithoutTrace (toLowerKey : WString → WString)
    (system : WinWatcherSystem Path Callback) : Prop where
  atOnce : ∀ canon parentPath filename currentPath callback handle replies
    handles status next after,
    system.watchFileAtOnce toLowerKey canon parentPath filename currentPath
      callback handle replies handles = some ((.error status, next), after) →
        SameWatches system next ∧ after = handles
  fromLock : ∀ id call handle replies handles status next after,
    system.calls.lookup id = some call →
      (system.finishCall id).watchFileHandles id call handle replies handles =
        some ((.error status, next), after) →
          SameWatches (system.finishCall id) next ∧ after = handles

theorem Placed.sameWatches (placed : Placed system)
    (calling : system.calls.lookup id = some call) {status : WatchError}
    {next : WinWatcherSystem Path Callback} {after : ResourceLedger Nat}
    (failed : (system.finishCall id).watchFileHandles id call handle replies
      handles = some ((.error status, next), after)) :
    SameWatches (system.finishCall id) next := by
  have result := watchFileHandles_fst failed
  obtain ⟨_, fresh⟩ := placed.calling id (mem_keys_of_lookup calling)
  have same : SameWatches (system.finishCall id)
      ((system.finishCall id).watchFile id call replies).2 :=
    sameWatches_of_failed fresh (congrArg Prod.fst result).symm
  have after : ((system.finishCall id).watchFile id call replies).2 = next :=
    (congrArg Prod.snd result).symm
  exact after ▸ same

theorem Placed.failsWithoutTrace (placed : Placed system) :
    FailsWithoutTrace toLowerKey system := by
  constructor
  · intro canon parentPath filename currentPath callback handle replies handles
      status next after failed
    have called := placed.callWatchFile toLowerKey canon parentPath filename
      currentPath callback
    unfold watchFileAtOnce WinWatcherSystem.callWatchFile at failed
    unfold WinWatcherSystem.callWatchFile at called
    split at failed
    · rename_i early
      split at early
      · cases early
        cases failed
        exact ⟨⟨rfl, rfl, rfl, rfl, rfl, rfl⟩, rfl⟩
      · cases early
    · rename_i late
      split at late
      · cases late
      · rename_i named
        rw [if_neg named] at called
        cases late
        obtain ⟨call, calling, failed⟩ := Option.bind_eq_some_iff.mp failed
        have same := called.sameWatches calling failed
        have absent : system.watcher.nextWatchId ∉ system.calls.keys := by
          intro present
          exact Nat.lt_irrefl _ (placed.calling _ present).1
        refine ⟨⟨same.directories, same.locations, same.draining,
          same.unwatches, same.reads, same.calls.trans ?_⟩,
          handles_of_failed failed⟩
        exact erase_emplace_of_absent absent _
  · intro id call handle replies handles status next after calling failed
    exact ⟨placed.sameWatches calling failed, handles_of_failed failed⟩

end WinWatcherSystem

/-! ## The kqueue watcher -/

namespace KqueueDescriptors

variable (watcher : KqueueDescriptors Path Callback)

/-- `WatchFile` with nothing between its sections. -/
def watchFileAtOnce (path parentPath : Path) (callback : Callback)
    (openDir : Except Nat Nat) (armDir : Option Nat) (replies : FileReplies) :
    Option (Except ErrnoStatus WatchId × KqueueDescriptors Path Callback) :=
  (watcher.callWatchFile path parentPath callback openDir).bind fun called =>
    match called with
    | (.error status, next) => some (.error status, next)
    | (.ok id, next) =>
        (next.calls.lookup id).bind fun watch =>
          (next.finishCall id).watchFile id watch armDir replies

/-- Whatever the system refuses to a call, the watches and the descriptors are
as they were before it, up to the descriptor of the directory where other calls
come between its sections.  It may refuse to open the file. -/
structure FailsWithoutTrace (watcher : KqueueDescriptors Path Callback) :
    Prop where
  atOnce : ∀ path parentPath callback openDir armDir replies status next,
    watcher.watchFileAtOnce path parentPath callback openDir armDir replies =
      some (.error status, next) →
        next = { watcher with nextWatchId := next.nextWatchId }
  fromLock : ∀ id watch armDir replies status next,
    watcher.calls.lookup id = some watch →
      (watcher.finishCall id).watchFile id watch armDir replies =
        some (.error status, next) →
          next = { watcher.finishCall id with
            ledger := watcher.ledger.release watch.dirFd } ∧
          watch.fds = [watch.dirFd] ∧ watch.dirFd ∈ watcher.ledger.opened
  fails_iff : ∀ path parentPath callback openDir armDir replies result next,
    watcher.watchFileAtOnce path parentPath callback openDir armDir replies =
      some (result, next) →
        ((∃ status, result = .error status) ↔
          (∃ errno, openDir = .error errno) ∨ armDir ≠ none)
  missingFile : ∀ path parentPath callback (dirFd : Nat) errno armFile,
    (dirFd : Int) ∉ watcher.ledger.opened →
      ∃ next, watcher.watchFileAtOnce path parentPath callback (.ok dirFd) none
          ⟨.error errno, armFile⟩ = some (.ok (watcher.nextWatchId + 1), next) ∧
        next.watches.lookup (watcher.nextWatchId + 1) =
          some ⟨watcher.nextWatchId + 1, path, parentPath, -1, dirFd, callback⟩

section Call

variable {watcher} {next : KqueueDescriptors Path Callback} {id : WatchId}
  {watch : Watch Path Callback} {armDir : Option Nat} {replies : FileReplies}

theorem watchFile_fails_iff (hasDir : watch.dirFd ≠ -1)
    {result : Except ErrnoStatus WatchId}
    (called : watcher.watchFile id watch armDir replies = some (result, next)) :
    (∃ status, result = .error status) ↔ armDir ≠ none := by
  unfold watchFile at called
  cases armDir with
  | none =>
      have armed : watch.armDir true = true := by simp [Watch.armDir, hasDir]
      simp only [Option.isNone_none, armed, if_true] at called
      obtain ⟨_, _, returned⟩ := Option.map_eq_some_iff.mp called
      cases returned
      simp
  | some errno =>
      have notArmed : watch.armDir false = false := Bool.and_false _
      simp only [Option.isNone_some, notArmed, Bool.false_eq_true, if_false]
        at called
      cases called
      simp

/-- The call that has opened the directory asks for the lock at once. -/
theorem watchFileAtOnce_opened (keeps : KeepsDescriptors watcher)
    (path parentPath : Path) (callback : Callback) (dirFd : Nat) :
    watcher.watchFileAtOnce path parentPath callback (.ok dirFd) armDir replies =
      (watcher.ledger.acquire dirFd).bind fun ledger =>
        KqueueDescriptors.watchFile
          { watcher with ledger, nextWatchId := watcher.nextWatchId + 1 }
          (watcher.nextWatchId + 1)
          ⟨watcher.nextWatchId + 1, path, parentPath, -1, dirFd, callback⟩ armDir
          replies := by
  obtain ⟨absent, _⟩ := keeps.fresh_nextWatchId
  unfold watchFileAtOnce callWatchFile
  dsimp only
  cases watcher.ledger.acquire dirFd with
  | none => rfl
  | some ledger =>
      have calling := lookup_emplace watcher.calls (watcher.nextWatchId + 1)
        (watcher.nextWatchId + 1)
        (⟨watcher.nextWatchId + 1, path, parentPath, -1, dirFd, callback⟩ :
          Watch Path Callback)
      rw [if_pos ⟨rfl, absent⟩] at calling
      simp only [Option.map_some, Option.bind_some, calling, finishCall,
        erase_emplace_of_absent absent]

/-- The file that is not there does not make the call fail. -/
theorem watchFile_missing (noFile : watch.fileFd = -1)
    (hasDir : watch.dirFd ≠ -1) (errno : Nat) (armFile : Bool) :
    watcher.watchFile id watch none ⟨.error errno, armFile⟩ =
      some (.ok id, { watcher with
        watches := (watcher.watches.emplace id watch).assign id watch }) := by
  have armed : watch.armDir true = true := by simp [Watch.armDir, hasDir]
  have tried : watch.tryOpenAndArmFile watcher.ledger ⟨.error errno, armFile⟩ =
      some (false, watch, watcher.ledger) := by
    rw [Watch.tryOpenAndArmFile, if_neg (not_not_intro noFile)]
  rw [watchFile, Option.isNone_none, armed, if_pos rfl, tried]
  rfl

end Call

theorem KeepsDescriptors.failsWithoutTrace {watcher}
    (keeps : KeepsDescriptors watcher) :
    FailsWithoutTrace (watcher : KqueueDescriptors Path Callback) := by
  obtain ⟨_, fresh⟩ := keeps.fresh_nextWatchId
  refine ⟨?_, ?_, ?_, ?_⟩
  · intro path parentPath callback openDir armDir replies status next failed
    cases openDir with
    | error errno =>
        cases failed
        rfl
    | ok dirFd =>
        rw [watchFileAtOnce_opened keeps] at failed
        obtain ⟨ledger, acquired, failed⟩ := Option.bind_eq_some_iff.mp failed
        have closed := watchFile_failed (by exact fresh) failed
        dsimp only at closed
        rw [release_of_acquire acquired] at closed
        rw [closed]
  · intro id watch armDir replies status next calling failed
    obtain ⟨noFile, hasDir, _, absent⟩ := keeps.calling id watch calling
    have onlyDir : watch.fds = [watch.dirFd] := by
      simp [Watch.fds, noFile, hasDir]
    have owns := keeps.owns_calling calling
    rw [onlyDir] at owns
    exact ⟨watchFile_failed absent failed, onlyDir,
      (owns.mem_iff _).mpr List.mem_cons_self⟩
  · intro path parentPath callback openDir armDir replies result next called
    cases openDir with
    | error errno =>
        cases called
        simp
    | ok dirFd =>
        rw [watchFileAtOnce_opened keeps] at called
        obtain ⟨ledger, _, called⟩ := Option.bind_eq_some_iff.mp called
        have hasDir : (dirFd : Int) ≠ -1 := by omega
        rw [watchFile_fails_iff hasDir called]
        simp
  · intro path parentPath callback dirFd errno armFile free
    have hasDir : (dirFd : Int) ≠ -1 := by omega
    rw [watchFileAtOnce_opened keeps, acquire, if_neg free, Option.bind_some]
    refine ⟨_, watchFile_missing rfl ?_ errno armFile, ?_⟩
    · exact hasDir
    · exact (lookup_assign _ _ _ _).trans (if_pos rfl)

end KqueueDescriptors

/-- In each state of a run of either watcher, a call of `WatchFile` that fails
leaves the watches, the directories and the open handles as they were. -/
theorem failedWatchFile_leavesNoTrace (toLowerKey : WString → WString)
    (winEvents : List (WinFileWatcher.Event Path Callback))
    (kqueueEvents : List (KqueueDescriptors.Event Path Callback)) :
    Throughout (WinWatcherSystem.step toLowerKey)
        (WinWatcherSystem.FailsWithoutTrace toLowerKey) {} winEvents ∧
      Throughout KqueueDescriptors.step KqueueDescriptors.FailsWithoutTrace {}
        kqueueEvents := by
  constructor
  · exact throughout_invariant
      (fun _ placed => WinWatcherSystem.Placed.failsWithoutTrace placed)
      (fun _ _ _ placed stepped => placed.step stepped)
      WinWatcherSystem.Placed.initial winEvents
  · exact throughout_invariant
      (fun _ keeps => KqueueDescriptors.KeepsDescriptors.failsWithoutTrace keeps)
      (fun _ _ _ keeps stepped => keeps.step stepped)
      KqueueDescriptors.keepsDescriptors_initial kqueueEvents

end Birch

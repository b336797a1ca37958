import Birch.KqueueWatch

/-!
# Runs of the file watcher

Between any two events, a watch that no thread is working on is armed at the
file at its path, or something that leads it there is yet to be delivered.
-/

namespace Birch

open VnodeQueue

/-- A watch that no thread is working on. -/
structure Settled (watcher : KqueueFileWatcher) (id : WatchId) (watch : Watch) :
    Prop where
  dirArmed :
    watcher.kernel.Armed watch.dirFd (.directory watch.path.parent) id
  absent : watch.fileFd = none → watcher.files watch.path = none ∨
    watcher.kernel.Undelivered watcher.batch watch.dirFd id Flags.any
  present : ∀ fd, watch.fileFd = some fd → ∃ inode,
    watcher.kernel.Armed fd (.file inode) id ∧
      (watcher.files watch.path = some inode ∨
        watcher.kernel.Undelivered watcher.batch fd id Flags.gone)

/-- A watch that the thread with the lock is working on. -/
def Operating (watcher : KqueueFileWatcher) (operation : WatchOperation)
    (watch : Watch) : Prop :=
  match operation.call with
  | .armDir => watch.fileFd = none ∧
      watcher.kernel.Unarmed watch.dirFd (.directory watch.path.parent) ∧
        watch.dirFd ∉ watcher.opened.map Prod.snd
  | .openFile => watch.fileFd = none ∧
      watcher.kernel.Armed watch.dirFd (.directory watch.path.parent)
        operation.watch
  | .closeFile | .armFile =>
      watcher.kernel.Armed watch.dirFd (.directory watch.path.parent)
          operation.watch ∧
        ∃ fd inode, watch.fileFd = some fd ∧
          watcher.kernel.Unarmed fd (.file inode)

/-- What holds between any two events. -/
structure Follows (watcher : KqueueFileWatcher) : Prop where
  registered : ∀ id watch, watcher.watches id = some watch →
    id ≤ watcher.nextWatchId
  opened : ∀ path fd, (path, fd) ∈ watcher.opened →
    watcher.kernel.Unarmed fd (.directory path.parent)
  openedOnce : (watcher.opened.map Prod.snd).Nodup
  settled : ∀ id watch, watcher.watches id = some watch →
    (∀ operation, watcher.operation = some operation → operation.watch ≠ id) →
      Settled watcher id watch
  operating : ∀ operation, watcher.operation = some operation →
    ∃ watch, watcher.watches operation.watch = some watch ∧
      Operating watcher operation watch

theorem follows_initial : Follows {} where
  registered := by simp
  opened := by simp
  openedOnce := by simp
  settled := by simp
  operating := by simp

/-! ## Reports and reads -/

/-- If the name stands for another file than before, then this is yet to be
delivered to the directory and to the old file. -/
def Announced (watcher next : KqueueFileWatcher) (path : FilePath) : Prop :=
  next.files path = watcher.files path ∨
    (∀ fd id, watcher.kernel.Armed fd (.directory path.parent) id →
        next.kernel.Undelivered next.batch fd id Flags.any) ∧
      ∀ inode, watcher.files path = some inode →
        ∀ fd id, watcher.kernel.Armed fd (.file inode) id →
          next.kernel.Undelivered next.batch fd id Flags.gone

/-- The watcher itself stays as it is. -/
theorem Follows.of_grows {watcher next : KqueueFileWatcher}
    (follows : Follows watcher) (watches : next.watches = watcher.watches)
    (nextWatchId : next.nextWatchId = watcher.nextWatchId)
    (opened : next.opened = watcher.opened)
    (operation : next.operation = watcher.operation)
    (grows : Table.Grows watcher.kernel watcher.batch next.kernel next.batch)
    (announced : ∀ path, Announced watcher next path) : Follows next where
  registered := by
    rw [watches, nextWatchId]
    exact follows.registered
  opened := by
    rw [opened]
    intro path fd member
    exact grows.unarmed _ _ (follows.opened path fd member)
  openedOnce := by
    rw [opened]
    exact follows.openedOnce
  settled := by
    rw [watches, operation]
    intro id watch known idle
    obtain ⟨dirArmed, absent, present⟩ := follows.settled id watch known idle
    refine ⟨grows.armed _ _ _ dirArmed, ?_, ?_⟩
    · intro noFile
      rcases announced watch.path with same | ⟨toDirectory, _⟩
      · rw [same]
        rcases absent noFile with nothing | undelivered
        · exact Or.inl nothing
        · exact Or.inr (grows.undelivered _ _ _ _ Flags.persists_any dirArmed
            undelivered)
      · exact Or.inr (toDirectory watch.dirFd id dirArmed)
    · intro fd holds
      obtain ⟨inode, armed, current⟩ := present fd holds
      refine ⟨inode, grows.armed _ _ _ armed, ?_⟩
      rcases current with atPath | undelivered
      · rcases announced watch.path with same | ⟨_, toFile⟩
        · exact Or.inl (same.trans atPath)
        · exact Or.inr (toFile inode atPath fd id armed)
      · exact Or.inr (grows.undelivered _ _ _ _ Flags.persists_gone armed
          undelivered)
  operating := by
    rw [watches, operation]
    intro working isWorking
    obtain ⟨watch, known, operating⟩ := follows.operating working isWorking
    refine ⟨watch, known, ?_⟩
    unfold Operating at operating ⊢
    split at operating
    · rw [opened]
      exact ⟨operating.1, grows.unarmed _ _ operating.2.1, operating.2.2⟩
    · exact ⟨operating.1, grows.armed _ _ _ operating.2⟩
    · obtain ⟨armed, fd, inode, holds, unarmed⟩ := operating
      exact ⟨grows.armed _ _ _ armed, fd, inode, holds,
        grows.unarmed _ _ unarmed⟩
    · obtain ⟨armed, fd, inode, holds, unarmed⟩ := operating
      exact ⟨grows.armed _ _ _ armed, fd, inode, holds,
        grows.unarmed _ _ unarmed⟩

/-- The queue once the inode at the path has lost its name. -/
def KqueueFileWatcher.reportLoss (watcher : KqueueFileWatcher)
    (path : FilePath) : Table Vnode WatchId :=
  match watcher.files path with
  | some old => watcher.kernel.report (.file old) { gone := true }
  | none => watcher.kernel

theorem Follows.setEntry {watcher : KqueueFileWatcher}
    (follows : Follows watcher) (path : FilePath) (inode : Option Nat) :
    Follows (watcher.setEntry path inode) := by
  have growsFile : Table.Grows watcher.kernel watcher.batch
      (watcher.reportLoss path) watcher.batch := by
    unfold KqueueFileWatcher.reportLoss
    split
    · exact Table.grows_report _ _ _ _
    · exact Table.grows_refl _ _
  have growsDirectory : Table.Grows (watcher.reportLoss path) watcher.batch
      (watcher.setEntry path inode).kernel watcher.batch :=
    Table.grows_report _ _ _ _
  refine follows.of_grows rfl rfl rfl rfl (growsFile.trans growsDirectory) ?_
  intro other
  by_cases samePath : other = path
  · subst samePath
    right
    constructor
    · intro fd id armed
      exact Table.undelivered_report Flags.persists_any
        (growsFile.armed _ _ _ armed) rfl _
    · intro old atPath fd id armed
      have reported : (watcher.reportLoss other).Undelivered watcher.batch fd
          id Flags.gone := by
        rw [KqueueFileWatcher.reportLoss, atPath]
        exact Table.undelivered_report Flags.persists_gone armed rfl _
      exact growsDirectory.undelivered _ _ _ _ Flags.persists_gone
        (growsFile.armed _ _ _ armed) reported
  · left
    simp [KqueueFileWatcher.setEntry, samePath]

theorem Follows.touch {watcher : KqueueFileWatcher} (follows : Follows watcher)
    (inode : Nat) (flags : Flags) :
    Follows { watcher with
      kernel := watcher.kernel.report (.file inode) flags } :=
  follows.of_grows rfl rfl rfl rfl (Table.grows_report _ _ _ _)
    fun _ => Or.inl rfl

theorem Follows.readEvents {watcher : KqueueFileWatcher}
    (follows : Follows watcher) (batch : watcher.batch = []) (fds : List Fd) :
    Follows { watcher with
      kernel := watcher.kernel.clear fds
      batch := watcher.kernel.events fds } := by
  refine follows.of_grows rfl rfl rfl rfl ?_ fun _ => Or.inl rfl
  rw [batch]
  exact Table.grows_clear _ _

/-! ## Work on one watch -/

theorem Settled.frame {watcher next : KqueueFileWatcher} {id : WatchId}
    {watch : Watch} (settled : Settled watcher id watch)
    (files : next.files = watcher.files)
    (kernel : ∀ fd vnode, watcher.kernel.Armed fd vnode id →
      next.kernel fd = watcher.kernel fd)
    (batch : ∀ event ∈ watcher.batch, event.udata = id →
      (watch.fileFd = none ∧ event.ident = watch.dirFd ∨
        watch.fileFd = some event.ident ∧ event.fflags.gone = true) →
      event ∈ next.batch) :
    Settled next id watch := by
  obtain ⟨dirArmed, absent, present⟩ := settled
  have dirKept := kernel _ _ dirArmed
  refine ⟨?_, ?_, ?_⟩
  · rw [Table.Armed, dirKept]
    exact dirArmed
  · intro noFile
    rw [files]
    rcases absent noFile with nothing | undelivered
    · exact Or.inl nothing
    · right
      apply undelivered.frame dirKept
      intro event member ident udata _
      exact batch event member udata (Or.inl ⟨noFile, ident⟩)
  · intro fd holds
    obtain ⟨inode, armed, current⟩ := present fd holds
    have fileKept := kernel _ _ armed
    refine ⟨inode, ?_, ?_⟩
    · rw [Table.Armed, fileKept]
      exact armed
    · rw [files]
      rcases current with atPath | undelivered
      · exact Or.inl atPath
      · right
        apply undelivered.frame fileKept
        intro event member ident udata gone
        exact batch event member udata (Or.inr ⟨ident ▸ holds, gone⟩)

/-- A step of a thread that works on one watch with the lock, or that takes or
drops the lock with it. -/
structure WorksOn (watcher next : KqueueFileWatcher) (id : WatchId) : Prop where
  files : next.files = watcher.files
  nextWatchId : next.nextWatchId = watcher.nextWatchId
  opened : next.opened = watcher.opened
  watches : ∀ other, other ≠ id → next.watches other = watcher.watches other
  known : ∀ watch, next.watches id = some watch →
    ∃ old, watcher.watches id = some old
  kernel : ∀ fd vnode other, other ≠ id → watcher.kernel.Armed fd vnode other →
    next.kernel fd = watcher.kernel fd
  openedKernel : ∀ path fd, (path, fd) ∈ watcher.opened →
    next.kernel fd = watcher.kernel fd
  batch : ∀ event ∈ watcher.batch, event.udata ≠ id → event ∈ next.batch
  before : ∀ operation, watcher.operation = some operation →
    operation.watch = id
  after : ∀ operation, next.operation = some operation → operation.watch = id

/-- Only the watch that is worked on has to be looked at. -/
theorem Follows.of_worksOn {watcher next : KqueueFileWatcher} {id : WatchId}
    (follows : Follows watcher) (works : WorksOn watcher next id)
    (settled : next.operation = none → ∀ watch, next.watches id = some watch →
      Settled next id watch)
    (operating : ∀ operation, next.operation = some operation →
      ∃ watch, next.watches id = some watch ∧
        Operating next operation watch) :
    Follows next where
  registered := by
    intro other watch known
    rw [works.nextWatchId]
    by_cases same : other = id
    · subst same
      obtain ⟨old, wasKnown⟩ := works.known watch known
      exact follows.registered other old wasKnown
    · rw [works.watches other same] at known
      exact follows.registered other watch known
  opened := by
    rw [works.opened]
    intro path fd member
    rw [Table.Unarmed, works.openedKernel path fd member]
    exact follows.opened path fd member
  openedOnce := by
    rw [works.opened]
    exact follows.openedOnce
  settled := by
    intro other watch known idle
    by_cases same : other = id
    · subst same
      apply settled _ watch known
      rcases isWorking : next.operation with _ | operation
      · rfl
      · exact absurd (works.after operation isWorking) (idle operation isWorking)
    · rw [works.watches other same] at known
      have wasSettled : Settled watcher other watch := by
        apply follows.settled other watch known
        intro operation isWorking
        rw [works.before operation isWorking]
        exact fun equal => same equal.symm
      refine wasSettled.frame works.files ?_ ?_
      · intro fd vnode armed
        exact works.kernel fd vnode other same armed
      · intro event member udata _
        exact works.batch event member (by rw [udata]; exact same)
  operating := by
    intro operation isWorking
    rw [works.after operation isWorking]
    exact operating operation isWorking

/-- The descriptor is one of this watch, or is not open. -/
def BelongsTo (kernel : Table Vnode WatchId) (fd : Fd) (id : WatchId) : Prop :=
  (∃ vnode, kernel.Armed fd vnode id) ∨ (∃ vnode, kernel.Unarmed fd vnode) ∨
    kernel fd = none

theorem BelongsTo.ne {kernel : Table Vnode WatchId} {fd : Fd} {id : WatchId}
    (belongs : BelongsTo kernel fd id) {other : WatchId} (differ : other ≠ id)
    {otherFd : Fd} {vnode : Vnode} (armed : kernel.Armed otherFd vnode other) :
    otherFd ≠ fd := by
  rcases belongs with ⟨_, isArmed⟩ | ⟨_, unarmed⟩ | closed
  · exact armed.ne_of_udata isArmed differ
  · exact armed.ne_of_unarmed unarmed
  · rintro rfl
    obtain ⟨pending, found⟩ := armed
    rw [closed] at found
    cases found

theorem Follows.atCall {watcher : KqueueFileWatcher} (follows : Follows watcher)
    {call : WatchCall} {operation : WatchOperation} {watch : Watch}
    (here : watcher.atCall call = some (operation, watch)) :
    watcher.operation = some operation ∧ operation.call = call ∧
      watcher.watches operation.watch = some watch ∧
        Operating watcher operation watch := by
  unfold KqueueFileWatcher.atCall at here
  split at here
  · rename_i working isWorking
    split at here
    · rename_i isCall
      obtain ⟨found, known, equal⟩ := Option.map_eq_some_iff.mp here
      obtain ⟨rfl, rfl⟩ := Prod.mk.inj equal
      obtain ⟨other, otherKnown, operating⟩ := follows.operating _ isWorking
      rw [known] at otherKnown
      obtain rfl := Option.some.inj otherKnown
      exact ⟨isWorking, isCall, known, operating⟩
    · cases here
  · cases here

/-- The kernel changes at one descriptor of the watch, which is none of those
that `WatchFile` has opened, and the watch may get another descriptor. -/
theorem worksOn_of_operation {watcher next : KqueueFileWatcher}
    {operation : WatchOperation} {watch : Watch} {fd : Fd}
    (isWorking : watcher.operation = some operation)
    (known : watcher.watches operation.watch = some watch)
    (belongs : BelongsTo watcher.kernel fd operation.watch)
    (notOpened : fd ∉ watcher.opened.map Prod.snd)
    (files : next.files = watcher.files)
    (nextWatchId : next.nextWatchId = watcher.nextWatchId)
    (opened : next.opened = watcher.opened)
    (batch : next.batch = watcher.batch)
    (watches : ∀ other, other ≠ operation.watch →
      next.watches other = watcher.watches other)
    (kernel : ∀ other, other ≠ fd → next.kernel other = watcher.kernel other)
    (after : ∀ later, next.operation = some later →
      later.watch = operation.watch) :
    WorksOn watcher next operation.watch where
  files := files
  nextWatchId := nextWatchId
  opened := opened
  watches := watches
  known := fun _ _ => ⟨watch, known⟩
  kernel := fun _ _ _ differ armed => kernel _ (belongs.ne differ armed)
  openedKernel := by
    intro path other member
    apply kernel
    rintro rfl
    exact notOpened (List.mem_map.mpr ⟨_, member, rfl⟩)
  batch := fun _ member _ => batch ▸ member
  before := by
    intro other isOther
    rw [isWorking] at isOther
    exact Option.some.inj isOther ▸ rfl
  after := after

/-- A descriptor of a file is not one that `WatchFile` has opened. -/
theorem Follows.file_notOpened {watcher : KqueueFileWatcher}
    (follows : Follows watcher) {fd : Fd} {inode : Nat}
    (unarmed : watcher.kernel.Unarmed fd (.file inode)) :
    fd ∉ watcher.opened.map Prod.snd := by
  intro member
  obtain ⟨⟨path, _⟩, isOpened, rfl⟩ := List.mem_map.mp member
  have directory := follows.opened path _ isOpened
  rw [Table.Unarmed, unarmed] at directory
  cases directory

theorem Follows.armed_notOpened {watcher : KqueueFileWatcher}
    (follows : Follows watcher) {fd : Fd} {vnode : Vnode} {id : WatchId}
    (armed : watcher.kernel.Armed fd vnode id) :
    fd ∉ watcher.opened.map Prod.snd := by
  intro member
  obtain ⟨⟨path, _⟩, isOpened, rfl⟩ := List.mem_map.mp member
  exact armed.ne_of_unarmed (follows.opened path _ isOpened) rfl

theorem Follows.armDir {watcher : KqueueFileWatcher} (follows : Follows watcher)
    {operation : WatchOperation} {watch : Watch}
    (here : watcher.atCall .armDir = some (operation, watch))
    (succeeds : Bool) : Follows (watcher.armDir operation watch succeeds) := by
  obtain ⟨isWorking, isCall, known, operating⟩ := follows.atCall here
  simp only [Operating, isCall] at operating
  obtain ⟨noFile, unarmed, notOpened⟩ := operating
  have belongs : BelongsTo watcher.kernel watch.dirFd operation.watch :=
    Or.inr (Or.inl ⟨_, unarmed⟩)
  cases succeeds with
  | true =>
      refine follows.of_worksOn (worksOn_of_operation isWorking known belongs
        notOpened rfl rfl rfl rfl (fun _ _ => rfl) ?_ ?_) ?_ ?_
      · exact fun other differ => Function.update_of_ne differ _ _
      · rintro later ⟨⟩
        rfl
      · rintro ⟨⟩
      · rintro later ⟨⟩
        exact ⟨watch, known, noFile, Table.armed_arm unarmed _⟩
  | false =>
      refine follows.of_worksOn (worksOn_of_operation isWorking known belongs
        notOpened rfl rfl rfl rfl ?_ ?_ ?_) ?_ ?_
      · exact fun other differ => Function.update_of_ne differ _ _
      · exact fun other differ => Function.update_of_ne differ _ _
      · rintro later ⟨⟩
      · intro _ gone isKnown
        simp [KqueueFileWatcher.armDir] at isKnown
      · rintro later ⟨⟩

theorem Follows.closeFile {watcher : KqueueFileWatcher}
    (follows : Follows watcher) {operation : WatchOperation} {watch : Watch}
    (here : watcher.atCall .closeFile = some (operation, watch)) :
    Follows (watcher.closeFile operation watch) := by
  obtain ⟨isWorking, isCall, known, operating⟩ := follows.atCall here
  simp only [Operating, isCall] at operating
  obtain ⟨dirArmed, fd, inode, holds, unarmed⟩ := operating
  have belongs : BelongsTo watcher.kernel fd operation.watch :=
    Or.inr (Or.inl ⟨_, unarmed⟩)
  have nextEq : watcher.closeFile operation watch =
      { watcher with
        kernel := watcher.kernel.close fd
        watches := Function.update watcher.watches operation.watch
          (some { watch with fileFd := none })
        operation := some { operation with call := .openFile } } := by
    simp [KqueueFileWatcher.closeFile, holds, KqueueFileWatcher.setFileFd,
      KqueueFileWatcher.proceed]
  rw [nextEq]
  refine follows.of_worksOn (worksOn_of_operation isWorking known belongs
    (follows.file_notOpened unarmed) rfl rfl rfl rfl ?_ ?_ ?_) ?_ ?_
  · exact fun other differ => Function.update_of_ne differ _ _
  · exact fun other differ => Function.update_of_ne differ _ _
  · rintro later ⟨⟩
    rfl
  · rintro ⟨⟩
  · rintro later ⟨⟩
    refine ⟨_, Function.update_self _ _ _, rfl, ?_⟩
    have dirKept : (watcher.kernel.close fd) watch.dirFd =
        watcher.kernel watch.dirFd :=
      Function.update_of_ne (dirArmed.ne_of_unarmed unarmed) _ _
    simp only [Table.Armed, dirKept]
    exact dirArmed

/-- `TryOpenAndArmFile` opens the file that is at the path now, or finds none,
and then there is none. -/
theorem Follows.openFile {watcher next : KqueueFileWatcher}
    (follows : Follows watcher) {operation : WatchOperation} {watch : Watch}
    (here : watcher.atCall .openFile = some (operation, watch)) {fd : Fd}
    (opened : watcher.openFile operation watch fd = some next) :
    Follows next := by
  obtain ⟨isWorking, isCall, known, operating⟩ := follows.atCall here
  simp only [Operating, isCall] at operating
  obtain ⟨noFile, dirArmed⟩ := operating
  unfold KqueueFileWatcher.openFile at opened
  split at opened
  · rename_i nothing
    obtain rfl := Option.some.inj opened
    refine follows.of_worksOn (worksOn_of_operation isWorking known
      (Or.inl ⟨_, dirArmed⟩) (follows.armed_notOpened dirArmed) rfl rfl rfl rfl
      (fun _ _ => rfl) (fun _ _ => rfl) ?_) ?_ ?_
    · rintro later ⟨⟩
    · intro _ other otherKnown
      simp only [KqueueFileWatcher.proceed, known] at otherKnown
      obtain rfl := Option.some.inj otherKnown
      refine ⟨dirArmed, fun _ => Or.inl nothing, ?_⟩
      intro held holds
      rw [noFile] at holds
      cases holds
    · rintro later ⟨⟩
  · rename_i inode _
    split at opened
    · rename_i free
      rw [Option.isNone_iff_eq_none] at free
      obtain rfl := Option.some.inj opened
      have notOpened : fd ∉ watcher.opened.map Prod.snd := by
        intro member
        obtain ⟨⟨path, _⟩, isOpened, rfl⟩ := List.mem_map.mp member
        have directory := follows.opened path _ isOpened
        rw [Table.Unarmed, free] at directory
        cases directory
      have belongs : BelongsTo watcher.kernel fd operation.watch :=
        Or.inr (Or.inr free)
      refine follows.of_worksOn (worksOn_of_operation isWorking known belongs
        notOpened rfl rfl rfl rfl ?_ ?_ ?_) ?_ ?_
      · exact fun other differ => Function.update_of_ne differ _ _
      · exact fun other differ => Function.update_of_ne differ _ _
      · rintro later ⟨⟩
        rfl
      · rintro ⟨⟩
      · rintro later ⟨⟩
        refine ⟨_, Function.update_self _ _ _, ?_, fd, inode, rfl, ?_⟩
        · have differ : watch.dirFd ≠ fd := by
            rintro rfl
            obtain ⟨pending, found⟩ := dirArmed
            rw [free] at found
            cases found
          have dirKept : (watcher.kernel.openFile fd (.file inode)) watch.dirFd =
              watcher.kernel watch.dirFd := Function.update_of_ne differ _ _
          simp only [KqueueFileWatcher.proceed, KqueueFileWatcher.setFileFd,
            Table.Armed, dirKept]
          exact dirArmed
        · exact Function.update_self _ _ _
    · cases opened

/-- A file that is armed while it is at its path is followed from then on. -/
theorem Follows.armFile {watcher : KqueueFileWatcher}
    (follows : Follows watcher) {operation : WatchOperation} {watch : Watch}
    (here : watcher.atCall .armFile = some (operation, watch))
    (current : ArmsCurrent watcher (.armFile true)) :
    Follows (watcher.armFile operation watch true) := by
  obtain ⟨isWorking, isCall, known, operating⟩ := follows.atCall here
  simp only [Operating, isCall] at operating
  obtain ⟨dirArmed, fd, inode, holds, unarmed⟩ := operating
  have atPath := current.2 operation watch fd _ here holds unarmed
  have belongs : BelongsTo watcher.kernel fd operation.watch :=
    Or.inr (Or.inl ⟨_, unarmed⟩)
  have nextEq : watcher.armFile operation watch true =
      { watcher with
        kernel := watcher.kernel.arm fd operation.watch, operation := none } := by
    simp [KqueueFileWatcher.armFile, holds, KqueueFileWatcher.proceed]
  rw [nextEq]
  refine follows.of_worksOn (worksOn_of_operation isWorking known belongs
    (follows.file_notOpened unarmed) rfl rfl rfl rfl (fun _ _ => rfl) ?_ ?_)
    ?_ ?_
  · exact fun other differ => Function.update_of_ne differ _ _
  · rintro later ⟨⟩
  · intro _ other otherKnown
    simp only [known] at otherKnown
    obtain rfl := Option.some.inj otherKnown
    have dirKept : (watcher.kernel.arm fd operation.watch) watch.dirFd =
        watcher.kernel watch.dirFd :=
      Function.update_of_ne (dirArmed.ne_of_unarmed unarmed) _ _
    refine ⟨?_, ?_, ?_⟩
    · simp only [Table.Armed, dirKept]
      exact dirArmed
    · intro noFile
      rw [holds] at noFile
      cases noFile
    · intro held isHeld
      rw [holds] at isHeld
      obtain rfl := Option.some.inj isHeld
      obtain ⟨atInode, found, same⟩ := Option.map_eq_some_iff.mp atPath
      obtain rfl := Vnode.file.inj same
      exact ⟨atInode, Table.armed_arm unarmed _, Or.inl found⟩
  · rintro later ⟨⟩

/-- The next event is taken from the batch, and the watch that it is for may be
worked on from then on. -/
theorem worksOn_of_event {watcher : KqueueFileWatcher}
    {event : VnodeQueue.Event WatchId} {rest : List (VnodeQueue.Event WatchId)}
    (batch : watcher.batch = event :: rest)
    (free : watcher.operation = none) (operation : Option WatchOperation)
    (after : ∀ later, operation = some later → later.watch = event.udata) :
    WorksOn watcher { watcher with batch := rest, operation } event.udata where
  files := rfl
  nextWatchId := rfl
  opened := rfl
  watches := fun _ _ => rfl
  known := fun watch known => ⟨watch, known⟩
  kernel := fun _ _ _ _ _ => rfl
  openedKernel := fun _ _ _ => rfl
  batch := by
    intro other member differ
    rw [batch, List.mem_cons] at member
    rcases member with rfl | later
    · exact absurd rfl differ
    · exact later
  before := by
    intro working isWorking
    rw [free] at isWorking
    cases isWorking
  after := after

/-- An event that says nothing to its watch may be dropped. -/
theorem Follows.dropEvent {watcher : KqueueFileWatcher}
    (follows : Follows watcher) {event : VnodeQueue.Event WatchId}
    {rest : List (VnodeQueue.Event WatchId)}
    (batch : watcher.batch = event :: rest) (free : watcher.operation = none)
    (silent : ∀ watch, watcher.watches event.udata = some watch →
      ¬ (watch.fileFd = none ∧ event.ident = watch.dirFd) ∧
        ¬ (watch.fileFd = some event.ident ∧ event.fflags.gone = true)) :
    Follows { watcher with batch := rest } := by
  have works := worksOn_of_event batch free none (by simp)
  rw [← free] at works
  refine follows.of_worksOn works ?_ ?_
  · intro _ watch known
    have settled := follows.settled event.udata watch known (by simp [free])
    refine settled.frame rfl (fun _ _ _ => rfl) ?_
    intro other member _ leads
    rw [batch, List.mem_cons] at member
    rcases member with rfl | later
    · rcases leads with toDirectory | toFile
      · exact absurd toDirectory (silent watch known).1
      · exact absurd toFile (silent watch known).2
    · exact later
  · intro operation isWorking
    simp only [free] at isWorking
    cases isWorking

theorem Follows.dropEvent_of_known {watcher : KqueueFileWatcher}
    (follows : Follows watcher) {event : VnodeQueue.Event WatchId}
    {rest : List (VnodeQueue.Event WatchId)} {watch : Watch}
    (batch : watcher.batch = event :: rest) (free : watcher.operation = none)
    (known : watcher.watches event.udata = some watch)
    (notDirectory : ¬ (watch.fileFd = none ∧ event.ident = watch.dirFd))
    (notGone : ¬ (watch.fileFd = some event.ident ∧ event.fflags.gone = true)) :
    Follows { watcher with batch := rest } := by
  apply follows.dropEvent batch free
  intro other otherKnown
  rw [known] at otherKnown
  obtain rfl := Option.some.inj otherKnown
  exact ⟨notDirectory, notGone⟩

/-- The file has lost its name: its descriptor is given up. -/
theorem Follows.fileGone {watcher : KqueueFileWatcher}
    (follows : Follows watcher) {event : VnodeQueue.Event WatchId}
    {rest : List (VnodeQueue.Event WatchId)} {watch : Watch}
    (batch : watcher.batch = event :: rest) (free : watcher.operation = none)
    (known : watcher.watches event.udata = some watch)
    (isFile : watch.fileFd = some event.ident) :
    Follows { watcher with
      batch := rest
      kernel := watcher.kernel.disarm event.ident
      operation := some ⟨.watcher, event.udata, .closeFile⟩ } := by
  have settled := follows.settled event.udata watch known (by simp [free])
  obtain ⟨inode, armed, _⟩ := settled.present event.ident isFile
  have works := worksOn_of_event batch free
    (some ⟨.watcher, event.udata, .closeFile⟩) (by rintro _ ⟨⟩; rfl)
  refine follows.of_worksOn { works with
    kernel := ?_, openedKernel := ?_ } ?_ ?_
  · intro fd vnode other differ otherArmed
    have distinct := otherArmed.ne_of_udata armed differ
    exact Function.update_of_ne distinct _ _
  · intro path fd member
    have unarmed := follows.opened path fd member
    exact Function.update_of_ne (armed.ne_of_unarmed unarmed).symm _ _
  · rintro ⟨⟩
  · rintro later ⟨⟩
    refine ⟨watch, known, ?_, event.ident, inode, isFile,
      Table.unarmed_disarm armed⟩
    have differ : watch.dirFd ≠ event.ident :=
      settled.dirArmed.ne_of_vnode armed (by simp)
    have dirKept : (watcher.kernel.disarm event.ident) watch.dirFd =
        watcher.kernel watch.dirFd := Function.update_of_ne differ _ _
    simp only [Table.Armed, dirKept]
    exact settled.dirArmed

theorem Follows.handleEvent {watcher : KqueueFileWatcher}
    (follows : Follows watcher) {event : VnodeQueue.Event WatchId}
    {rest : List (VnodeQueue.Event WatchId)}
    (batch : watcher.batch = event :: rest) (free : watcher.operation = none) :
    Follows (KqueueFileWatcher.handleEvent { watcher with batch := rest }
      event) := by
  unfold KqueueFileWatcher.handleEvent
  rcases known : watcher.watches event.udata with _ | watch
  · exact follows.dropEvent batch free (by simp [known])
  · dsimp only
    by_cases isFile : watch.fileFd = some event.ident
    · rw [if_pos isFile, KqueueFileWatcher.handleFileEvent]
      by_cases gone : event.fflags.gone = true
      · rw [if_pos gone]
        exact follows.fileGone batch free known isFile
      · rw [if_neg gone]
        exact follows.dropEvent_of_known batch free known (by simp [isFile])
          (by simp [gone])
    · rw [if_neg isFile]
      by_cases isDir : event.ident = watch.dirFd
      · rw [if_pos isDir, KqueueFileWatcher.handleDirEvent]
        by_cases noFile : watch.fileFd = none
        · rw [if_pos noFile]
          have settled := follows.settled event.udata watch known (by simp [free])
          have works := worksOn_of_event batch free
            (some ⟨.watcher, event.udata, .openFile⟩) (by rintro _ ⟨⟩; rfl)
          refine follows.of_worksOn works ?_ ?_
          · rintro ⟨⟩
          · rintro later ⟨⟩
            exact ⟨watch, known, noFile, settled.dirArmed⟩
        · rw [if_neg noFile]
          exact follows.dropEvent_of_known batch free known
            (fun both => noFile both.1) (fun both => isFile both.1)
      · rw [if_neg isDir]
        exact follows.dropEvent_of_known batch free known
          (fun both => isDir both.2) (fun both => isFile both.1)

/-! ## Watches come and go -/

theorem Follows.openDir {watcher : KqueueFileWatcher}
    (follows : Follows watcher) (path : FilePath) {fd : Fd}
    (free : watcher.kernel fd = none) :
    Follows { watcher with
      kernel := watcher.kernel.openFile fd (.directory path.parent)
      opened := watcher.opened ++ [(path, fd)] } := by
  have fresh : fd ∉ watcher.opened.map Prod.snd := by
    intro member
    obtain ⟨⟨other, _⟩, isOpened, rfl⟩ := List.mem_map.mp member
    have directory := follows.opened other _ isOpened
    rw [Table.Unarmed, free] at directory
    cases directory
  have opening : Follows { watcher with
      kernel := watcher.kernel.openFile fd (.directory path.parent) } :=
    follows.of_grows rfl rfl rfl rfl (Table.grows_openFile _ free _)
      fun _ => Or.inl rfl
  refine ⟨opening.registered, ?_, ?_, ?_, ?_⟩
  · intro other otherFd member
    rw [List.mem_append, List.mem_singleton] at member
    rcases member with old | new
    · exact opening.opened other otherFd old
    · obtain ⟨rfl, rfl⟩ := Prod.mk.inj new
      exact Function.update_self _ _ _
  · rw [List.map_append, List.nodup_append]
    refine ⟨follows.openedOnce, by simp, ?_⟩
    intro old oldMember new newMember
    simp only [List.map_cons, List.map_nil, List.mem_singleton] at newMember
    rintro rfl
    exact fresh (newMember ▸ oldMember)
  · intro id watch known idle
    obtain ⟨dirArmed, absent, present⟩ := opening.settled id watch known idle
    exact ⟨dirArmed, absent, present⟩
  · intro operation isWorking
    obtain ⟨watch, known, operating⟩ := opening.operating operation isWorking
    refine ⟨watch, known, ?_⟩
    unfold Operating at operating ⊢
    split at operating
    · rename_i isCall
      obtain ⟨other, otherKnown, before⟩ := follows.operating operation isWorking
      rw [known] at otherKnown
      obtain rfl := Option.some.inj otherKnown
      simp only [Operating, isCall] at before
      refine ⟨operating.1, operating.2.1, ?_⟩
      simp only [List.map_append, List.map_cons, List.map_nil, List.mem_append,
        List.mem_singleton, not_or]
      refine ⟨operating.2.2, ?_⟩
      rintro rfl
      have unarmed := before.2.1
      rw [Table.Unarmed, free] at unarmed
      cases unarmed
    · exact operating
    · exact operating
    · exact operating

theorem Follows.register {watcher : KqueueFileWatcher}
    (follows : Follows watcher) {path : FilePath} {fd : Fd}
    (free : watcher.operation = none) (member : (path, fd) ∈ watcher.opened) :
    Follows { watcher with
      nextWatchId := watcher.nextWatchId + 1
      opened := watcher.opened.erase (path, fd)
      watches := Function.update watcher.watches (watcher.nextWatchId + 1)
        (some { path, dirFd := fd })
      operation := some ⟨.client, watcher.nextWatchId + 1, .armDir⟩ } := by
  have erased : (watcher.opened.erase (path, fd)).Sublist watcher.opened :=
    List.erase_sublist
  refine ⟨?_, ?_, ?_, ?_, ?_⟩
  · intro id watch known
    by_cases same : id = watcher.nextWatchId + 1
    · exact Nat.le_of_eq same
    · simp only [Function.update_of_ne same] at known
      exact Nat.le_succ_of_le (follows.registered id watch known)
  · intro other otherFd isOpened
    exact follows.opened other otherFd (erased.subset isOpened)
  · exact follows.openedOnce.sublist (erased.map Prod.snd)
  · intro id watch known idle
    have differ : id ≠ watcher.nextWatchId + 1 :=
      fun same => idle _ rfl same.symm
    simp only [Function.update_of_ne differ] at known
    have settled := follows.settled id watch known (by simp [free])
    exact settled.frame rfl (fun _ _ _ => rfl) fun _ inBatch _ _ => inBatch
  · rintro operation ⟨⟩
    refine ⟨_, Function.update_self _ _ _, rfl,
      follows.opened path fd member, ?_⟩
    -- The descriptor was opened once, so it is not opened any more.
    have moved := (List.perm_cons_erase member).map Prod.snd
    have once := moved.nodup_iff.mp follows.openedOnce
    exact (List.nodup_cons.mp once).1

theorem Follows.closeWatch {watcher : KqueueFileWatcher}
    (follows : Follows watcher) (pendingUnwatches : List WatchId) :
    Follows { watcher with pendingUnwatches } :=
  ⟨follows.registered, follows.opened, follows.openedOnce,
    fun id watch known idle =>
      (follows.settled id watch known idle).frame rfl (fun _ _ _ => rfl)
        fun _ member _ _ => member,
    follows.operating⟩

/-- The queue once both descriptors of the watch are closed. -/
def KqueueFileWatcher.closeFds (watcher : KqueueFileWatcher) (watch : Watch) :
    Table Vnode WatchId :=
  let kernel := match watch.fileFd with
    | some fileFd => watcher.kernel.close fileFd
    | none => watcher.kernel
  kernel.close watch.dirFd

/-- The descriptors of a watch that is removed are closed. -/
theorem Follows.removeWatch {watcher : KqueueFileWatcher}
    (follows : Follows watcher) (free : watcher.operation = none)
    (id : WatchId) (rest : List WatchId) :
    Follows (KqueueFileWatcher.removeWatch
      { watcher with pendingUnwatches := rest } id) := by
  unfold KqueueFileWatcher.removeWatch
  rcases known : watcher.watches id with _ | watch
  · exact follows.closeWatch rest
  · have settled := follows.settled id watch known (by simp [free])
    have keeps : ∀ fd, (∀ owned vnode, watcher.kernel.Armed owned vnode id →
        fd ≠ owned) →
          watcher.closeFds watch fd = watcher.kernel fd := by
      intro fd differs
      have notDir := differs watch.dirFd _ settled.dirArmed
      rw [KqueueFileWatcher.closeFds, Table.close, Function.update_of_ne notDir]
      rcases holds : watch.fileFd with _ | fileFd
      · rfl
      · obtain ⟨inode, armed, _⟩ := settled.present fileFd holds
        exact Function.update_of_ne (differs fileFd _ armed) _ _
    have works : WorksOn watcher { watcher with
        pendingUnwatches := rest
        kernel := watcher.closeFds watch
        watches := Function.update watcher.watches id none } id := by
      refine ⟨rfl, rfl, rfl, ?_, ?_, ?_, ?_, ?_, ?_, ?_⟩
      · exact fun other differ => Function.update_of_ne differ _ _
      · exact fun _ _ => ⟨watch, known⟩
      · intro fd vnode other differ armed
        exact keeps fd fun owned _ ownedArmed =>
          armed.ne_of_udata ownedArmed differ
      · intro path fd isOpened
        exact keeps fd fun owned _ ownedArmed =>
          (ownedArmed.ne_of_unarmed (follows.opened path fd isOpened)).symm
      · exact fun _ member _ => member
      · simp [free]
      · simp [free]
    refine follows.of_worksOn works ?_ ?_
    · intro _ gone isKnown
      simp at isKnown
    · simp [free]

/-! ## Runs -/

theorem Follows.step {watcher next : KqueueFileWatcher} {event : KqueueEvent}
    (follows : Follows watcher) (current : ArmsCurrent watcher event)
    (stepped : watcher.step event = some next) : Follows next := by
  cases event with
  | setEntry path inode =>
      obtain rfl := Option.some.inj stepped
      exact follows.setEntry path inode
  | touch inode flags =>
      obtain rfl := Option.some.inj stepped
      exact follows.touch inode flags
  | openDir path fd =>
      simp only [KqueueFileWatcher.step] at stepped
      split at stepped
      · rename_i free
        obtain rfl := Option.some.inj stepped
        exact follows.openDir path (Option.isNone_iff_eq_none.mp free)
      · cases stepped
  | register path fd =>
      simp only [KqueueFileWatcher.step] at stepped
      split at stepped
      · rename_i here
        obtain rfl := Option.some.inj stepped
        exact follows.register here.1 here.2
      · cases stepped
  | armDir succeeds =>
      obtain ⟨⟨operation, watch⟩, here, rfl⟩ := Option.map_eq_some_iff.mp stepped
      exact follows.armDir here succeeds
  | closeFile =>
      obtain ⟨⟨operation, watch⟩, here, rfl⟩ := Option.map_eq_some_iff.mp stepped
      exact follows.closeFile here
  | openFile fd =>
      obtain ⟨⟨operation, watch⟩, here, opened⟩ :=
        Option.bind_eq_some_iff.mp stepped
      exact follows.openFile here opened
  | armFile succeeds =>
      obtain ⟨⟨operation, watch⟩, here, rfl⟩ := Option.map_eq_some_iff.mp stepped
      obtain rfl := current.1
      exact follows.armFile here current
  | readEvents fds =>
      simp only [KqueueFileWatcher.step] at stepped
      split at stepped
      · rename_i here
        obtain rfl := Option.some.inj stepped
        exact follows.readEvents here.1 fds
      · cases stepped
  | handleEvent =>
      simp only [KqueueFileWatcher.step] at stepped
      split at stepped
      · rename_i event rest batch free
        obtain rfl := Option.some.inj stepped
        exact follows.handleEvent batch free
      · cases stepped
  | closeWatch id =>
      obtain rfl := Option.some.inj stepped
      exact follows.closeWatch _
  | drain =>
      simp only [KqueueFileWatcher.step] at stepped
      split at stepped
      · rename_i id rest _ _ free
        obtain rfl := Option.some.inj stepped
        exact follows.removeWatch free id rest
      · cases stepped

/-- Once everything is delivered, each watch is where its path is. -/
theorem Follows.followsPath {watcher : KqueueFileWatcher}
    (follows : Follows watcher) (quiescent : Quiescent watcher) {id : WatchId}
    {watch : Watch} (known : watcher.watches id = some watch) :
    FollowsPath watcher id watch := by
  obtain ⟨dirArmed, absent, present⟩ :=
    follows.settled id watch known (by simp [quiescent.operation])
  rw [quiescent.batch] at absent present
  have silent : ∀ fd kind, (kind = Flags.gone ∨ kind = Flags.any) →
      ¬ watcher.kernel.Undelivered [] fd id kind :=
    fun fd kind either => Table.not_undelivered quiescent.nothingReady either
  have current : ∀ fd, watch.fileFd = some fd → ∃ inode,
      watcher.files watch.path = some inode ∧
        watcher.kernel.Armed fd (.file inode) id := by
    intro fd holds
    obtain ⟨inode, armed, either⟩ := present fd holds
    have atPath := either.resolve_right (silent fd Flags.gone (Or.inl rfl))
    exact ⟨inode, atPath, armed⟩
  refine ⟨⟨?_, ?_⟩, current⟩
  · intro noFile
    have either := absent noFile
    exact either.resolve_right (silent watch.dirFd Flags.any (Or.inr rfl))
  · intro nothing
    rcases holds : watch.fileFd with _ | fd
    · rfl
    · obtain ⟨inode, atPath, _⟩ := current fd holds
      rw [nothing] at atPath
      cases atPath

/-- In each run in which every file is armed with success and while it is still
the one at its path, each quiescent state has each watch at the file at its
path, or at none if there is none. -/
theorem followsPath_of_armsCurrent (events : List KqueueEvent)
    (watcher : KqueueFileWatcher) (ran : kqueueRun {} events = some watcher)
    (current : EventRuns.EachStep KqueueFileWatcher.step ArmsCurrent {} events)
    (quiescent : Quiescent watcher) (id : WatchId) (watch : Watch)
    (known : watcher.watches id = some watch) :
    FollowsPath watcher id watch := by
  have follows := EventRuns.run_invariant_of_eachStep
    (fun _ _ _ follows here stepped => Follows.step follows here stepped)
    follows_initial current ran
  exact follows.followsPath quiescent known

/-- The file of the configuration. -/
def configFile : FilePath := ⟨0, ascii "config.toml"⟩

/-- `WatchFile` on a file that exists, up to where the file is armed. -/
def watchConfigFile : List KqueueEvent :=
  [.setEntry configFile (some 1), .openDir configFile 3, .register configFile 3,
    .armDir true, .openFile 4]

/-- The file is armed at once. -/
def armedRun : List KqueueEvent :=
  watchConfigFile ++ [.armFile true]

/-- The file is replaced between the two calls, and the event of the directory
is read and handled. -/
def replacedRun : List KqueueEvent :=
  watchConfigFile ++ [.setEntry configFile (some 2), .armFile true,
    .readEvents [3], .handleEvent]

theorem armsCurrent_armedRun :
    EventRuns.EachStep KqueueFileWatcher.step ArmsCurrent {} armedRun := by
  refine ⟨trivial, ?_⟩
  rintro _ ⟨⟩
  refine ⟨trivial, ?_⟩
  rintro _ ⟨⟩
  refine ⟨trivial, ?_⟩
  rintro _ ⟨⟩
  refine ⟨trivial, ?_⟩
  rintro _ ⟨⟩
  refine ⟨trivial, ?_⟩
  rintro _ ⟨⟩
  refine ⟨⟨rfl, ?_⟩, fun _ _ => trivial⟩
  rintro operation watch fd descriptor ⟨⟩ ⟨⟩ ⟨⟩
  rfl

theorem followsPath_armedRun :
    ∃ watcher watch, kqueueRun {} armedRun = some watcher ∧
      Quiescent watcher ∧ watcher.watches 2 = some watch ∧
      FollowsPath watcher 2 watch := by
  refine ⟨_, _, rfl, ?quiescent, rfl, followsPath_of_armsCurrent armedRun _ rfl
    armsCurrent_armedRun ?quiescent 2 _ rfl⟩
  refine ⟨?_, rfl, rfl, rfl⟩
  rintro (_ | _ | _ | _ | _ | fd) <;> rfl

/-- The watch stays on the file that has been replaced. -/
theorem not_followsPath_replacedRun :
    ∃ watcher watch, kqueueRun {} replacedRun = some watcher ∧
      Quiescent watcher ∧ watcher.watches 2 = some watch ∧
      watcher.files configFile = some 2 ∧
      watch.fileFd = some 4 ∧ watcher.kernel.Armed 4 (.file 1) 2 ∧
      ¬ FollowsPath watcher 2 watch := by
  refine ⟨_, _, rfl, ?_, rfl, rfl, rfl, ⟨_, rfl⟩, ?_⟩
  · refine ⟨?_, rfl, rfl, rfl⟩
    rintro (_ | _ | _ | _ | _ | fd) <;> rfl
  · intro follows
    obtain ⟨inode, atPath, pending, armed⟩ := follows.current 4 rfl
    obtain rfl := Option.some.inj atPath
    injection armed with armed
    injection armed with vnode
    injection vnode with inode
    exact absurd inode (by decide)

end Birch

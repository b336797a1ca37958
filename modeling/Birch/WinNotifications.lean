import Birch.WinDirWatcher

/-!
# Change records

The kernel fills the buffer of a directory with a chain of records, each with
the name of a file that has changed, and says how many bytes the chain has.
The loop over the records stops where less is left than the size of the struct
with its padding, which is more than the size of a record with a short name.
This file determines when no record is missed.
-/

namespace Birch

variable {Path Callback : Type*}

namespace WinDirWatcher

/-- The next multiple of four. -/
def roundUp (size : Nat) : Nat :=
  (size + 3) / 4 * 4

/-- The records from an offset on, with their names: a header of 12 bytes and
one or more units of the name, and the bytes end with the last name. -/
inductive NotifyRecords (buffer : List UInt8) (bytesTransferred : Nat) :
    Nat → List WString → Prop
  | last {p units : Nat} (named : 0 < units)
      (length : fileNameLength buffer p = 2 * units)
      (next : nextEntryOffset buffer p = 0)
      (ends : bytesTransferred = p + (12 + 2 * units)) :
      NotifyRecords buffer bytesTransferred p [fileName buffer p]
  | more {p units : Nat} {names : List WString} (named : 0 < units)
      (length : fileNameLength buffer p = 2 * units)
      (next : nextEntryOffset buffer p = roundUp (12 + 2 * units))
      (rest : NotifyRecords buffer bytesTransferred
        (p + roundUp (12 + 2 * units)) names) :
      NotifyRecords buffer bytesTransferred p (fileName buffer p :: names)

/-- The watch has an entry under the key. -/
def WatchedAs (dir : WinDirWatcher Path Callback) (fileNameKey : WString)
    (id : WinWatchId) : Prop :=
  ∃ entry, (fileNameKey, entry) ∈ dir.keyedEntries ∧ entry.id = id

/-- The watches of all files that the records name become dirty, and no
others. -/
def CollectsChanges (dir : WinDirWatcher Path Callback)
    (toLowerKey : WString → WString) (buffer : List UInt8)
    (dirty : List WinWatchId) (bytesTransferred : Nat) (names : List WString) :
    Prop :=
  ∀ id, id ∈ dir.collectDirty toLowerKey buffer dirty bytesTransferred ↔
    id ∈ dirty ∨ ∃ name ∈ names, dir.WatchedAs (toLowerKey name) id

/-- The last name has two units or more, or the watches of its file are dirty
or belong to an earlier record anyway. -/
def LastIsRead (dir : WinDirWatcher Path Callback)
    (toLowerKey : WString → WString) (dirty : List WinWatchId)
    (names : List WString) : Prop :=
  ∀ last ∈ names.getLast?, 2 ≤ last.length ∨
    ∀ id, dir.WatchedAs (toLowerKey last) id →
      id ∈ dirty ∨ ∃ name ∈ names.dropLast, dir.WatchedAs (toLowerKey name) id

/-! ## Sets of watches -/

theorem exists_mem_concat (names : List WString) (last : WString)
    (property : WString → Prop) :
    (∃ name ∈ names ++ [last], property name) ↔
      (∃ name ∈ names, property name) ∨ property last := by
  simp [or_and_right, exists_or]

variable {dir : WinDirWatcher Path Callback}

theorem mem_insertIds (dirty : List WinWatchId)
    (entries : List (Entry Path Callback)) (id : WinWatchId) :
    id ∈ insertIds dirty entries ↔
      id ∈ dirty ∨ ∃ entry ∈ entries, entry.id = id := by
  induction entries generalizing dirty with
  | nil => simp [insertIds]
  | cons entry entries ih =>
      have inserted := ih (dirty.insert entry.id)
      rw [List.mem_insert_iff] at inserted
      rw [insertIds, List.foldl_cons]
      refine inserted.trans ?_
      rw [List.exists_mem_cons_iff, eq_comm, or_assoc, or_left_comm]

theorem mem_collectAllDirty (dirty : List WinWatchId) (id : WinWatchId) :
    id ∈ dir.collectAllDirty dirty ↔
      id ∈ dirty ∨ ∃ fileNameKey, dir.WatchedAs fileNameKey id := by
  rw [collectAllDirty, mem_insertIds]
  apply or_congr_right
  constructor
  · rintro ⟨entry, member, sameId⟩
    obtain ⟨⟨fileNameKey, _⟩, keyed, rfl⟩ := List.mem_map.mp member
    exact ⟨fileNameKey, _, keyed, sameId⟩
  · rintro ⟨fileNameKey, entry, keyed, sameId⟩
    exact ⟨entry, List.mem_map.mpr ⟨_, keyed, rfl⟩, sameId⟩

theorem mem_collectRecord (toLowerKey : WString → WString) (buffer : List UInt8)
    (p : Nat) (dirty : List WinWatchId) (id : WinWatchId) :
    id ∈ dir.collectRecord toLowerKey buffer p dirty ↔
      id ∈ dirty ∨ dir.WatchedAs (toLowerKey (fileName buffer p)) id := by
  rw [collectRecord, WatchedAs]
  simp only [mem_keyedEntries]
  rcases found : dir.watches.lookup (toLowerKey (fileName buffer p)) with _ | entries
  · simp
  · simp only [mem_insertIds, Option.some.injEq, exists_eq_left']

/-! ## The loop over the records -/

variable {buffer : List UInt8} {bytesTransferred p : Nat} {names : List WString}

theorem NotifyRecords.bound
    (records : NotifyRecords buffer bytesTransferred p names) :
    p + 14 ≤ bytesTransferred := by
  induction records with
  | last named length next ends => omega
  | more named length next rest ih =>
      simp only [roundUp] at ih
      omega

theorem NotifyRecords.ne_nil
    (records : NotifyRecords buffer bytesTransferred p names) : names ≠ [] := by
  cases records <;> exact List.cons_ne_nil _ _

theorem length_fileName {units : Nat}
    (length : fileNameLength buffer p = 2 * units) :
    (fileName buffer p).length = units := by
  rw [fileName, List.length_map, List.length_range, length]
  omega

/-- The names of the records that the loop reads: the last one counts only if
its name has two units. -/
def readNames (names : List WString) : List WString :=
  names.dropLast ++ (names.getLast?.filter fun last => 2 ≤ last.length).toList

theorem readNames_cons (name : WString) {names : List WString}
    (nonempty : names ≠ []) : readNames (name :: names) = name :: readNames names := by
  rw [readNames, readNames, List.dropLast_cons_of_ne_nil nonempty,
    List.getLast?_cons_of_ne_nil nonempty, List.cons_append]

/-- By induction on the chain: behind each record but the last one there is
more than the size of the struct. -/
theorem mem_collectRecords (toLowerKey : WString → WString)
    (records : NotifyRecords buffer bytesTransferred p names)
    (dirty : List WinWatchId) (id : WinWatchId) :
    id ∈ dir.collectRecords toLowerKey buffer bytesTransferred p dirty ↔
      id ∈ dirty ∨
        ∃ name ∈ readNames names, dir.WatchedAs (toLowerKey name) id := by
  induction records generalizing dirty with
  | @last p units named length next ends =>
      have size := length_fileName length
      rw [collectRecords]
      by_cases within : p + sizeofFileNotifyInformation ≤ bytesTransferred
      · have long : 2 ≤ (fileName buffer p).length := by
          rw [sizeofFileNotifyInformation] at within
          omega
        rw [if_pos within, if_pos next, mem_collectRecord]
        simp [readNames, Option.filter, long]
      · have short : ¬ 2 ≤ (fileName buffer p).length := by
          rw [sizeofFileNotifyInformation] at within
          omega
        rw [if_neg within]
        simp [readNames, Option.filter, short]
  | @more p units names named length next rest ih =>
      have bound := rest.bound
      have size : 14 ≤ roundUp (12 + 2 * units) := by
        rw [roundUp]
        omega
      have within : p + sizeofFileNotifyInformation ≤ bytesTransferred := by
        rw [sizeofFileNotifyInformation]
        omega
      have notLast : nextEntryOffset buffer p ≠ 0 := by
        rw [next]
        omega
      rw [collectRecords, if_pos within, if_neg notLast, next, ih,
        mem_collectRecord, readNames_cons _ rest.ne_nil,
        List.exists_mem_cons_iff, or_assoc]

/-- No record is missed exactly if the last one is read, or brings nothing; and
if no bytes are transferred, all watches become dirty. -/
theorem collectsChanges_iff (dir : WinDirWatcher Path Callback)
    (toLowerKey : WString → WString) (buffer : List UInt8)
    (dirty : List WinWatchId) (bytesTransferred : Nat) (names : List WString)
    (records : NotifyRecords buffer bytesTransferred 0 names) :
    (CollectsChanges dir toLowerKey buffer dirty bytesTransferred names ↔
      LastIsRead dir toLowerKey dirty names) ∧
      ∀ id, id ∈ dir.collectDirty toLowerKey buffer dirty 0 ↔
        id ∈ dirty ∨ ∃ fileNameKey, dir.WatchedAs fileNameKey id := by
  refine ⟨?_, mem_collectAllDirty dirty⟩
  have some : bytesTransferred ≠ 0 := by
    have bound := records.bound
    omega
  obtain ⟨before, last, rfl⟩ : ∃ before last, names = before ++ [last] :=
    ⟨_, _, (List.dropLast_append_getLast records.ne_nil).symm⟩
  simp only [CollectsChanges, collectDirty, if_neg some,
    mem_collectRecords toLowerKey records, LastIsRead, readNames,
    List.getLast?_concat, List.dropLast_concat, Option.mem_some_iff, forall_eq']
  by_cases long : 2 ≤ last.length
  · simp [Option.filter, long]
  · simp only [Option.filter, long, decide_false, Bool.false_eq_true, if_false,
      Option.toList_none, List.append_nil, false_or, exists_mem_concat]
    constructor
    · intro collects id watched
      exact (collects id).mpr (.inr (.inr watched))
    · intro brings id
      constructor
      · rintro (old | earlier)
        · exact .inl old
        · exact .inr (.inl earlier)
      · rintro (old | earlier | watched)
        · exact .inl old
        · exact .inr earlier
        · exact brings id watched

/-- A directory with the watches of two files, whose names are one unit each. -/
def shortNames : WinDirWatcher Unit Unit :=
  (({ object := 0 } : WinDirWatcher Unit Unit).add [97] ⟨1, (), ()⟩).add [98]
    ⟨2, (), ()⟩

/-- A record with this offset of the next one and the units of this name. -/
def record (next : UInt8) (name : List UInt8) : List UInt8 :=
  [next, 0, 0, 0, 3, 0, 0, 0, 2 * UInt8.ofNat name.length, 0, 0, 0] ++
    name.flatMap fun unit => [unit, 0]

theorem collectsChanges_bothFiles :
    NotifyRecords (record 16 [97] ++ [0, 0] ++ record 0 [98, 98]) 32 0
        [[97], [98, 98]] ∧
      (CollectsChanges shortNames id
          (record 16 [97] ++ [0, 0] ++ record 0 [98, 98]) [] 32
          [[97], [98, 98]] ↔
        LastIsRead shortNames id [] [[97], [98, 98]]) := by
  have records : NotifyRecords (record 16 [97] ++ [0, 0] ++ record 0 [98, 98])
      32 0 [[97], [98, 98]] :=
    .more Nat.one_pos rfl rfl (.last Nat.two_pos rfl rfl rfl)
  exact ⟨records, (collectsChanges_iff shortNames id _ [] 32 _ records).1⟩

/-- The only record has a name of one unit, and nothing becomes dirty. -/
theorem not_collectsChanges_shortName :
    NotifyRecords (record 0 [97]) 14 0 [[97]] ∧
      shortNames.collectDirty id (record 0 [97]) [] 14 = [] ∧
      ¬ CollectsChanges shortNames id (record 0 [97]) [] 14 [[97]] := by
  have missed : shortNames.collectDirty id (record 0 [97]) [] 14 = [] := by
    rw [collectDirty, collectRecords]
    rfl
  refine ⟨.last Nat.one_pos rfl rfl rfl, missed, ?_⟩
  intro collects
  have dirty := (collects 1).mpr
    (.inr ⟨[97], List.mem_singleton_self _, ⟨1, (), ()⟩, .head _, rfl⟩)
  rw [missed] at dirty
  cases dirty

end WinDirWatcher

end Birch

import Birch.LinkedHashMapIndex

/-!
# The watches in one directory

`WinDirWatcher` has the watches in a directory by the lowercased names of their
files.  The kernel fills its buffer with records of what has changed, each with
the name of a file, and the watches of that file become dirty.
-/

namespace Birch

/-- A `std::wstring` of UTF-16 units. -/
abbrev WString := List UInt16

abbrev WinWatchId := Nat

variable {Path Callback : Type*}

namespace WinDirWatcher

structure Entry (Path Callback : Type*) where
  id : WinWatchId
  reportPath : Path
  callback : Callback

end WinDirWatcher

/-- The address of the object tells it from others. -/
structure WinDirWatcher (Path Callback : Type*) where
  object : Nat
  watches : LinkedHashMap WString (List (WinDirWatcher.Entry Path Callback)) := ∅

namespace WinDirWatcher

variable (dir : WinDirWatcher Path Callback)

def add (fileNameKey : WString) (entry : Entry Path Callback) :
    WinDirWatcher Path Callback :=
  { dir with watches := dir.watches.push fileNameKey entry }

/-- The directory without the watch, and whether it had it. -/
def remove (id : WinWatchId) (fileNameKey : WString) :
    WinDirWatcher Path Callback × Bool :=
  ({ dir with
      watches := dir.watches.removeIf fileNameKey fun entry => entry.id = id },
    ((dir.watches.lookup fileNameKey).getD []).any fun entry => entry.id = id)

def empty : Bool :=
  dir.watches.entries.isEmpty

/-- The entries with their keys. -/
def keyedEntries : List (WString × Entry Path Callback) :=
  dir.watches.entries.flatMap fun (fileNameKey, entries) =>
    entries.map fun entry => (fileNameKey, entry)

/-- The entry that `ForEachEntry` hands to its argument: the first one with the
id. -/
def forEachEntry (id : WinWatchId) : Option (Entry Path Callback) :=
  (dir.keyedEntries.map Prod.snd).find? fun entry => entry.id = id

/-- The entries under one key. -/
def withKey (fileNameKey : WString) (entries : List (Entry Path Callback)) :
    List (WString × Entry Path Callback) :=
  entries.map fun entry => (fileNameKey, entry)

theorem keyedEntries_eq (dir : WinDirWatcher Path Callback) :
    dir.keyedEntries =
      dir.watches.entries.flatMap fun entry => withKey entry.1 entry.2 :=
  rfl

theorem mem_keyedEntries {dir : WinDirWatcher Path Callback}
    (fileNameKey : WString) (entry : Entry Path Callback) :
    (fileNameKey, entry) ∈ dir.keyedEntries ↔
      ∃ entries, dir.watches.lookup fileNameKey = some entries ∧
        entry ∈ entries := by
  rw [keyedEntries_eq, LinkedHashMap.mem_flatMap_entries withKey]
  constructor
  · rintro ⟨key, entries, found, member⟩
    obtain ⟨_, inEntries, ⟨⟩⟩ := List.mem_map.mp member
    exact ⟨entries, found, inEntries⟩
  · rintro ⟨entries, found, inEntries⟩
    exact ⟨fileNameKey, entries, found, List.mem_map_of_mem inEntries⟩

/-! ## Notifications -/

/-- Insert the ids of the entries into the set. -/
def insertIds (dirty : List WinWatchId)
    (entries : List (Entry Path Callback)) : List WinWatchId :=
  entries.foldl (fun dirty entry => dirty.insert entry.id) dirty

def collectAllDirty (dirty : List WinWatchId) : List WinWatchId :=
  insertIds dirty (dir.keyedEntries.map Prod.snd)

/-- `sizeof(FILE_NOTIFY_INFORMATION)`: three words and one unit of the name,
with its padding. -/
def sizeofFileNotifyInformation : Nat := 16

def byteAt (buffer : List UInt8) (offset : Nat) : Nat :=
  (buffer.getD offset 0).toNat

def dwordAt (buffer : List UInt8) (offset : Nat) : Nat :=
  byteAt buffer offset + 256 * byteAt buffer (offset + 1) +
    65536 * byteAt buffer (offset + 2) + 16777216 * byteAt buffer (offset + 3)

def unitAt (buffer : List UInt8) (offset : Nat) : UInt16 :=
  UInt16.ofNat (byteAt buffer offset + 256 * byteAt buffer (offset + 1))

/-- The fields of the record at an offset in the buffer. -/
def nextEntryOffset (buffer : List UInt8) (p : Nat) : Nat :=
  dwordAt buffer p

def fileNameLength (buffer : List UInt8) (p : Nat) : Nat :=
  dwordAt buffer (p + 8)

def fileName (buffer : List UInt8) (p : Nat) : WString :=
  (List.range (fileNameLength buffer p / 2)).map fun index =>
    unitAt buffer (p + 12 + 2 * index)

variable (toLowerKey : WString → WString) (buffer : List UInt8)

/-- The watches of the file that the record names become dirty. -/
def collectRecord (p : Nat) (dirty : List WinWatchId) : List WinWatchId :=
  match dir.watches.lookup (toLowerKey (fileName buffer p)) with
  | some entries => insertIds dirty entries
  | none => dirty

/-- The loop of `CollectDirty`, from the record at an offset. -/
def collectRecords (bytesTransferred p : Nat) (dirty : List WinWatchId) :
    List WinWatchId :=
  if p + sizeofFileNotifyInformation ≤ bytesTransferred then
    if nextEntryOffset buffer p = 0 then
      dir.collectRecord toLowerKey buffer p dirty
    else
      collectRecords bytesTransferred (p + nextEntryOffset buffer p)
        (dir.collectRecord toLowerKey buffer p dirty)
  else
    dirty
termination_by bytesTransferred - p
decreasing_by
  simp only [sizeofFileNotifyInformation] at *
  omega

def collectDirty (dirty : List WinWatchId) (bytesTransferred : Nat) :
    List WinWatchId :=
  if bytesTransferred = 0 then dir.collectAllDirty dirty
  else dir.collectRecords toLowerKey buffer bytesTransferred 0 dirty

/-! ## The entries of a directory -/

/-- The lists of entries are those that `add` and `remove` leave. -/
def NoEmptyList : Prop :=
  ∀ fileNameKey entries, dir.watches.lookup fileNameKey = some entries →
    entries ≠ []

variable {dir}

theorem mem_keyedEntries_add (fileNameKey : WString)
    (entry : Entry Path Callback) (keyed : WString × Entry Path Callback) :
    keyed ∈ (dir.add fileNameKey entry).keyedEntries ↔
      keyed ∈ dir.keyedEntries ∨ keyed = (fileNameKey, entry) := by
  rcases keyed with ⟨otherKey, other⟩
  rw [mem_keyedEntries, mem_keyedEntries, add, LinkedHashMap.lookup_push]
  by_cases atKey : otherKey = fileNameKey
  · subst atKey
    rcases dir.watches.lookup otherKey with _ | entries <;> simp
  · simp [atKey]

/-- `Remove` drops the entries with the id under the key, and leaves the
others. -/
theorem keyedEntries_remove (id : WinWatchId) (fileNameKey : WString) :
    (dir.remove id fileNameKey).1.keyedEntries =
      dir.keyedEntries.filter fun keyed =>
        !(decide (keyed.1 = fileNameKey) && decide (keyed.2.id = id)) := by
  have elsewhere : ∀ (other : WString) (entries : List (Entry Path Callback)),
      other ≠ fileNameKey →
        (withKey other entries).filter (fun keyed =>
          !(decide (keyed.1 = fileNameKey) && decide (keyed.2.id = id))) =
            withKey other entries := by
    intro other entries differ
    apply List.filter_eq_self.mpr
    intro keyed member
    obtain ⟨entry, _, rfl⟩ := List.mem_map.mp member
    simp [differ]
  have here : ∀ entries : List (Entry Path Callback),
      (withKey fileNameKey entries).filter (fun keyed =>
        !(decide (keyed.1 = fileNameKey) && decide (keyed.2.id = id))) =
          withKey fileNameKey
            (entries.filter fun entry => !decide (entry.id = id)) := by
    intro entries
    rw [withKey, withKey, List.filter_map]
    simp [Function.comp_def]
  rw [keyedEntries_eq, keyedEntries_eq]
  simp only [remove, LinkedHashMap.removeIf]
  cases found : dir.watches.lookup fileNameKey with
  | none =>
      symm
      apply List.filter_eq_self.mpr
      intro keyed member
      obtain ⟨other, entries, otherFound, inEntries⟩ :=
        (LinkedHashMap.mem_flatMap_entries withKey keyed).mp member
      obtain ⟨entry, _, rfl⟩ := List.mem_map.mp inEntries
      have differ : other ≠ fileNameKey := by
        rintro rfl
        cases found.symm.trans otherFound
      simp [differ]
  | some entries =>
      dsimp only
      split
      · rename_i noneLeft
        refine LinkedHashMap.flatMap_erase_filter withKey found ?_
          fun other otherEntries _ => elsewhere other otherEntries
        rw [here, noneLeft]
        rfl
      · exact LinkedHashMap.flatMap_assign_filter withKey found
          (here entries).symm
          fun other otherEntries _ => elsewhere other otherEntries

theorem NoEmptyList.add (full : NoEmptyList dir) (fileNameKey : WString)
    (entry : Entry Path Callback) : NoEmptyList (dir.add fileNameKey entry) := by
  intro other entries found
  rw [WinDirWatcher.add, LinkedHashMap.lookup_push] at found
  split at found
  · obtain rfl := Option.some.inj found
    exact List.append_ne_nil_of_right_ne_nil _ (List.cons_ne_nil _ _)
  · exact full other entries found

theorem NoEmptyList.remove (full : NoEmptyList dir) (id : WinWatchId)
    (fileNameKey : WString) : NoEmptyList (dir.remove id fileNameKey).1 := by
  intro other entries found
  rw [WinDirWatcher.remove, LinkedHashMap.lookup_removeIf] at found
  split at found
  · obtain ⟨old, _, kept⟩ := Option.bind_eq_some_iff.mp found
    exact ((LinkedHashMap.nonempty_eq_some_iff _ _).mp kept).2
  · exact full other entries found

theorem NoEmptyList.empty_iff (full : NoEmptyList dir) :
    dir.empty = true ↔ dir.keyedEntries = [] := by
  rw [WinDirWatcher.empty, List.isEmpty_iff]
  constructor
  · intro none
    rw [keyedEntries, none]
    rfl
  · intro none
    rw [LinkedHashMap.entries_eq_nil_iff]
    intro fileNameKey
    cases found : dir.watches.lookup fileNameKey with
    | none => rfl
    | some entries =>
        obtain ⟨entry, member⟩ :=
          List.exists_mem_of_ne_nil _ (full fileNameKey entries found)
        have keyed : (fileNameKey, entry) ∈ dir.keyedEntries :=
          (mem_keyedEntries fileNameKey entry).mpr ⟨entries, found, member⟩
        rw [none] at keyed
        cases keyed

end WinDirWatcher

end Birch

import Birch.WinDirectoryTables

/-!
# The registry of watches

To its callers the Windows watcher is a list of watches: `WatchFile` appends
one, and an unwatch takes one off when the thread drains it.  The watcher has
that list in two tables, one of the locations by ids and one of the directories
with their entries.  This file relates the tables to the list, and determines
in which runs they agree.
-/

namespace Birch

open EventRuns LinkedHashMap

variable {Path Callback : Type*}

/-- The keys of the entries with an id. -/
def WinDirWatcher.keysOf (dir : WinDirWatcher Path Callback)
    (id : WinWatchId) : List WString :=
  (dir.keyedEntries.filter fun keyed => keyed.2.id = id).map Prod.fst

namespace WinFileWatcher

/-! ## The list of watches -/

/-- A watch that a call of `WatchFile` has made. -/
structure Registration (Path Callback : Type*) where
  id : WinWatchId
  call : PendingCall Path Callback

namespace Registration

variable (registration : Registration Path Callback)

def entry : WinDirWatcher.Entry Path Callback :=
  registration.call.entry registration.id

def location : WatchLocation :=
  ⟨registration.call.dirKey, registration.call.fileNameKey⟩

/-- The callback with its argument. -/
def report : Callback × Path :=
  (registration.call.callback, registration.call.canon)

end Registration

/-- The watches in a directory. -/
def within (registered : List (Registration Path Callback)) (dirKey : WString) :
    List (Registration Path Callback) :=
  registered.filter fun registration => registration.call.dirKey = dirKey

/-- The directory has these watches.  There is no directory for none. -/
def HasWatches :
    Option (WinDirWatcher Path Callback) →
      List (Registration Path Callback) → Prop
  | none, inside => inside = []
  | some dir, inside => inside ≠ [] ∧
      dir.watches.Indexes (fun registration => registration.call.fileNameKey)
        Registration.entry inside

/-- The tables are those of the watches. -/
structure Represents (watcher : WinFileWatcher Path Callback)
    (registered : List (Registration Path Callback)) : Prop where
  located : watcher.watchLocations.entries =
    registered.map fun registration => (registration.id, registration.location)
  placed : ∀ dirKey, HasWatches (watcher.dirWatchers.lookup dirKey)
    (within registered dirKey)

/-- The only item that passes the test is the first one. -/
theorem find?_of_unique {Item : Type*} {test : Item → Bool} {item : Item}
    {items : List Item} (member : item ∈ items) (passes : test item = true)
    (unique : ∀ other ∈ items, test other = true → other = item) :
    items.find? test = some item := by
  cases first : items.find? test with
  | none => exact absurd passes (List.find?_eq_none.mp first item member)
  | some other =>
      rw [unique other (List.mem_of_find?_eq_some first) (List.find?_some first)]

variable {watcher : WinFileWatcher Path Callback}
  {registered : List (Registration Path Callback)}

theorem represents_initial :
    Represents ({} : WinFileWatcher Path Callback) [] := by
  constructor
  · rfl
  · intro dirKey
    rfl

namespace Represents

theorem keys_eq (represents : Represents watcher registered) :
    watcher.watchLocations.keys = registered.map Registration.id := by
  rw [keys, represents.located, List.map_map]
  rfl

theorem nodup_ids (represents : Represents watcher registered) :
    (registered.map Registration.id).Nodup :=
  represents.keys_eq ▸ watcher.watchLocations.nodupKeys

theorem congr (represents : Represents watcher registered)
    {other : WinFileWatcher Path Callback}
    (locations : other.watchLocations = watcher.watchLocations)
    (directories : other.dirWatchers = watcher.dirWatchers) :
    Represents other registered := by
  constructor
  · rw [locations]
    exact represents.located
  · rw [directories]
    exact represents.placed

theorem location_of_mem (represents : Represents watcher registered)
    {registration : Registration Path Callback}
    (member : registration ∈ registered) :
    watcher.watchLocations.lookup registration.id =
      some registration.location := by
  rw [lookup_eq_some_iff, represents.located]
  exact List.mem_map_of_mem member

theorem mem_of_location (represents : Represents watcher registered)
    {id : WinWatchId} {location : WatchLocation}
    (found : watcher.watchLocations.lookup id = some location) :
    ∃ registration ∈ registered, registration.id = id ∧
      registration.location = location := by
  rw [lookup_eq_some_iff, represents.located] at found
  obtain ⟨registration, member, equal⟩ := List.mem_map.mp found
  exact ⟨registration, member, congrArg Prod.fst equal, congrArg Prod.snd equal⟩

theorem not_mem_of_location (represents : Represents watcher registered)
    {id : WinWatchId} (missing : watcher.watchLocations.lookup id = none) :
    id ∉ registered.map Registration.id := by
  rw [← represents.keys_eq]
  exact (lookup_eq_none_iff watcher.watchLocations id).mp missing

theorem eq_of_id (represents : Represents watcher registered)
    {first second : Registration Path Callback} (firstMem : first ∈ registered)
    (secondMem : second ∈ registered) (sameId : first.id = second.id) :
    first = second :=
  List.inj_on_of_nodup_map represents.nodup_ids firstMem secondMem sameId

/-- The directory of a watch is there. -/
theorem directory_of_mem (represents : Represents watcher registered)
    {registration : Registration Path Callback}
    (member : registration ∈ registered) :
    ∃ dir, watcher.dirWatchers.lookup registration.call.dirKey = some dir ∧
      dir.watches.Indexes (fun registration => registration.call.fileNameKey)
        Registration.entry (within registered registration.call.dirKey) := by
  have placed := represents.placed registration.call.dirKey
  cases found : watcher.dirWatchers.lookup registration.call.dirKey with
  | none =>
      rw [found] at placed
      have inside : registration ∈ within registered registration.call.dirKey :=
        List.mem_filter.mpr ⟨member, by simp⟩
      rw [show within registered registration.call.dirKey = [] from placed]
        at inside
      cases inside
  | some dir =>
      rw [found] at placed
      exact ⟨dir, rfl, placed.2⟩

/-! ### Registration -/

theorem within_concat (registered : List (Registration Path Callback))
    (registration : Registration Path Callback) (dirKey : WString) :
    within (registered ++ [registration]) dirKey =
      within registered dirKey ++
        if registration.call.dirKey = dirKey then [registration] else [] := by
  by_cases atKey : registration.call.dirKey = dirKey <;>
    simp [within, List.filter_append, atKey]

theorem register_of_elsewhere {id : WinWatchId} {call : PendingCall Path Callback}
    {dir : WinDirWatcher Path Callback}
    (located : watcher.watchLocations.entries =
      registered.map fun registration => (registration.id, registration.location))
    (fresh : id ∉ watcher.watchLocations.keys)
    (elsewhere : ∀ dirKey, dirKey ≠ call.dirKey →
      HasWatches (watcher.dirWatchers.lookup dirKey) (within registered dirKey))
    (indexes : dir.watches.Indexes
      (fun registration => registration.call.fileNameKey) Registration.entry
        (within registered call.dirKey)) :
    Represents (watcher.register id call dir) (registered ++ [⟨id, call⟩]) := by
  constructor
  · rw [WinFileWatcher.register, entries_emplace_of_absent fresh, located,
      List.map_append]
    rfl
  · intro dirKey
    rw [WinFileWatcher.register, lookup_assign, within_concat]
    by_cases atKey : dirKey = call.dirKey
    · subst atKey
      rw [if_pos rfl, if_pos rfl]
      exact ⟨List.append_ne_nil_of_right_ne_nil _ (List.cons_ne_nil _ _),
        indexes.push ⟨id, call⟩⟩
    · rw [if_neg atKey, if_neg (Ne.symm atKey), List.append_nil]
      exact elsewhere dirKey atKey

variable {id : WinWatchId} {call : PendingCall Path Callback}

theorem register (represents : Represents watcher registered)
    (fresh : id ∉ registered.map Registration.id)
    {dir : WinDirWatcher Path Callback}
    (found : watcher.dirWatchers.lookup call.dirKey = some dir) :
    Represents (watcher.register id call dir) (registered ++ [⟨id, call⟩]) := by
  have placed := represents.placed call.dirKey
  rw [found] at placed
  exact register_of_elsewhere represents.located (represents.keys_eq ▸ fresh)
    (fun dirKey _ => represents.placed dirKey) placed.2

theorem registerOpened (represents : Represents watcher registered)
    (fresh : id ∉ registered.map Registration.id)
    (missing : watcher.dirWatchers.lookup call.dirKey = none) (object : Nat) :
    Represents ((watcher.insertDir call.dirKey { object }).register id call
      { object }) (registered ++ [⟨id, call⟩]) := by
  have noneInside : within registered call.dirKey = [] := by
    have placed := represents.placed call.dirKey
    rw [missing] at placed
    exact placed
  refine register_of_elsewhere represents.located (represents.keys_eq ▸ fresh)
    ?_ ?_
  · intro dirKey other
    rw [lookup_insertDir missing, if_neg other]
    exact represents.placed dirKey
  · rw [noneInside]
    exact indexes_empty

/-- The failed call leaves the tables of the watches that were there. -/
theorem unregister (represents : Represents watcher registered)
    (fresh : id ∉ registered.map Registration.id)
    (missing : watcher.dirWatchers.lookup call.dirKey = none)
    (dir added : WinDirWatcher Path Callback) :
    Represents (((watcher.insertDir call.dirKey dir).register id call dir).unregister
      id call added) registered := by
  refine represents.congr ?_ (dirWatchers_unregister id missing dir added)
  exact erase_emplace_of_absent (represents.keys_eq ▸ fresh) _

/-! ### Unwatching -/

theorem filter_eq_self_of_fresh (fresh : id ∉ registered.map Registration.id) :
    (registered.filter fun registration => registration.id ≠ id) = registered := by
  apply List.filter_eq_self.mpr
  intro registration member
  have different : registration.id ≠ id := by
    rintro rfl
    exact fresh (List.mem_map_of_mem member)
  simpa using different

theorem within_filter (keep : Registration Path Callback → Bool)
    (dirKey : WString) :
    within (registered.filter keep) dirKey =
      (within registered dirKey).filter keep := by
  simp only [within, List.filter_filter, Bool.and_comm]

/-- Without its location the watch is out of the table of locations. -/
theorem located_erase (represents : Represents watcher registered)
    (id : WinWatchId) :
    (watcher.watchLocations.erase id).entries =
      (registered.filter fun registration => registration.id ≠ id).map
        fun registration => (registration.id, registration.location) := by
  rw [entries_erase, represents.located, List.filter_map]
  rfl

/-- A directory without the watch has the others. -/
theorem indexes_remove (represents : Represents watcher registered)
    {registration : Registration Path Callback} (member : registration ∈ registered)
    {dir : WinDirWatcher Path Callback}
    (indexes : dir.watches.Indexes
      (fun registration => registration.call.fileNameKey) Registration.entry
        (within registered registration.call.dirKey)) :
    (dir.remove registration.id
      registration.call.fileNameKey).1.watches.Indexes
        (fun registration => registration.call.fileNameKey) Registration.entry
          (within (registered.filter fun other => other.id ≠ registration.id)
            registration.call.dirKey) := by
  rw [within_filter]
  have removed := indexes.removeIf registration.call.fileNameKey
    (fun entry => entry.id = registration.id) ?_
  · simp only [decide_not]
    exact removed
  · intro other otherMem drops
    have sameId : other.id = registration.id := of_decide_eq_true drops
    rw [represents.eq_of_id (List.mem_filter.mp otherMem).1 member sameId]

/-- A directory without the watch has the watches that it had. -/
theorem placed_elsewhere (represents : Represents watcher registered)
    {registration : Registration Path Callback} (member : registration ∈ registered)
    {dirKey : WString} (elsewhere : dirKey ≠ registration.call.dirKey) :
    HasWatches (watcher.dirWatchers.lookup dirKey)
      (within (registered.filter fun other => other.id ≠ registration.id)
        dirKey) := by
  have unchanged : within (registered.filter fun other =>
      other.id ≠ registration.id) dirKey = within registered dirKey := by
    rw [within_filter]
    apply List.filter_eq_self.mpr
    intro other otherMem
    obtain ⟨otherMem, atKey⟩ := List.mem_filter.mp otherMem
    have different : other.id ≠ registration.id := by
      intro sameId
      rw [represents.eq_of_id otherMem member sameId] at atKey
      exact elsewhere (of_decide_eq_true atKey).symm
    simpa using different
  rw [unchanged]
  exact represents.placed dirKey

theorem drainOne
    {drained : WinFileWatcher Path Callback × List (WinDirWatcher Path Callback)}
    (represents : Represents drained.1 registered) (id : WinWatchId) :
    Represents (WinFileWatcher.drainOne drained id).1
      (registered.filter fun registration => registration.id ≠ id) := by
  unfold WinFileWatcher.drainOne
  split
  · rename_i missing
    rw [filter_eq_self_of_fresh (represents.not_mem_of_location missing)]
    exact represents
  · rename_i location found
    obtain ⟨registration, member, rfl, rfl⟩ := represents.mem_of_location found
    obtain ⟨dir, atKey, indexes⟩ := represents.directory_of_mem member
    have removed := represents.indexes_remove member indexes
    have nilIff := removed.entries_eq_nil_iff
    rw [show drained.1.dirWatchers.lookup registration.location.dirKey = some dir
      from atKey]
    dsimp only [Registration.location]
    split
    · rename_i emptied
      refine ⟨represents.located_erase registration.id, ?_⟩
      intro dirKey
      rw [lookup_erase]
      by_cases here : dirKey = registration.call.dirKey
      · subst here
        rw [if_pos rfl]
        exact nilIff.mp (List.isEmpty_iff.mp emptied)
      · rw [if_neg here]
        exact represents.placed_elsewhere member here
    · rename_i left
      refine ⟨represents.located_erase registration.id, ?_⟩
      intro dirKey
      rw [lookup_assign]
      by_cases here : dirKey = registration.call.dirKey
      · subst here
        rw [if_pos rfl]
        exact ⟨fun none => left (List.isEmpty_iff.mpr (nilIff.mpr none)), removed⟩
      · rw [if_neg here]
        exact represents.placed_elsewhere member here

theorem foldl_drainOne (ids : List WinWatchId)
    (drained : WinFileWatcher Path Callback × List (WinDirWatcher Path Callback))
    (represents : Represents drained.1 registered) :
    Represents (ids.foldl WinFileWatcher.drainOne drained).1
      (registered.filter fun registration => registration.id ∉ ids) := by
  induction ids generalizing registered drained with
  | nil => simpa using represents
  | cons id ids ih =>
      have later := ih _ (represents.drainOne id)
      rw [List.filter_filter] at later
      simpa [Bool.and_comm] using later

/-- The pending unwatches are off the list, and nothing else. -/
theorem drainPendingUnwatches (represents : Represents watcher registered) :
    Represents watcher.drainPendingUnwatches.1
      (registered.filter fun registration =>
        registration.id ∉ watcher.pendingUnwatches) := by
  have folded := foldl_drainOne watcher.pendingUnwatches (watcher, []) represents
  exact folded.congr rfl rfl

theorem retireAll (watcher : WinFileWatcher Path Callback) :
    Represents watcher.retireAll ([] : List (Registration Path Callback)) := by
  constructor
  · rfl
  · intro dirKey
    rfl

/-! ### What the tables say -/

section Directory

variable (represents : Represents watcher registered)
  {registration : Registration Path Callback} {dirKey : WString}
  {dir : WinDirWatcher Path Callback}

include represents

theorem indexes_of_lookup
    (found : watcher.dirWatchers.lookup dirKey = some dir) :
    within registered dirKey ≠ [] ∧
      dir.watches.Indexes (fun registration => registration.call.fileNameKey)
        Registration.entry (within registered dirKey) := by
  have placed := represents.placed dirKey
  rw [found] at placed
  exact placed

theorem keyedEntries_perm
    (found : watcher.dirWatchers.lookup dirKey = some dir) :
    dir.keyedEntries.Perm ((within registered dirKey).map fun registration =>
      (registration.call.fileNameKey, registration.entry)) :=
  (represents.indexes_of_lookup found).2.perm

theorem keysOf_perm (found : watcher.dirWatchers.lookup dirKey = some dir)
    (id : WinWatchId) :
    (dir.keysOf id).Perm (((within registered dirKey).filter
      fun registration => registration.id = id).map
        fun registration => registration.call.fileNameKey) := by
  have kept := ((represents.keyedEntries_perm found).filter
    fun keyed => keyed.2.id = id).map Prod.fst
  rw [List.filter_map, List.map_map] at kept
  exact kept

/-- A watch that is on the list has one entry, in its place. -/
theorem keysOf_of_mem (member : registration ∈ registered)
    (found : watcher.dirWatchers.lookup registration.call.dirKey = some dir) :
    dir.keysOf registration.id = [registration.call.fileNameKey] := by
  have only : ((within registered registration.call.dirKey).filter
      fun other => other.id = registration.id).Perm [registration] := by
    have nodup : registered.Nodup := List.Nodup.of_map _ represents.nodup_ids
    have insideNodup : (within registered registration.call.dirKey).Nodup :=
      nodup.filter _
    rw [List.perm_ext_iff_of_nodup (insideNodup.filter _)
      (List.nodup_singleton registration)]
    intro other
    rw [List.mem_singleton]
    constructor
    · intro kept
      obtain ⟨inside, sameId⟩ := List.mem_filter.mp kept
      exact represents.eq_of_id (List.mem_filter.mp inside).1 member
        (of_decide_eq_true sameId)
    · rintro rfl
      simp [within, member]
  exact List.perm_singleton.mp
    ((represents.keysOf_perm found registration.id).trans (only.map _))

/-- An entry is one of a watch on the list. -/
theorem mem_of_keysOf (found : watcher.dirWatchers.lookup dirKey = some dir)
    {id : WinWatchId} {fileNameKey : WString} (entered : fileNameKey ∈ dir.keysOf id) :
    ∃ registration ∈ registered, registration.id = id ∧
      registration.location = ⟨dirKey, fileNameKey⟩ := by
  have member := (represents.keysOf_perm found id).mem_iff.mp entered
  obtain ⟨registration, kept, rfl⟩ := List.mem_map.mp member
  obtain ⟨inside, sameId⟩ := List.mem_filter.mp kept
  obtain ⟨member, atKey⟩ := List.mem_filter.mp inside
  refine ⟨registration, member, of_decide_eq_true sameId, ?_⟩
  rw [Registration.location, of_decide_eq_true atKey]

theorem forEachEntry_of_mem (member : registration ∈ registered)
    (found : watcher.dirWatchers.lookup registration.call.dirKey = some dir) :
    dir.forEachEntry registration.id = some registration.entry := by
  have perm := (represents.keyedEntries_perm found).map Prod.snd
  rw [List.map_map] at perm
  have inside : registration ∈ within registered registration.call.dirKey :=
    List.mem_filter.mpr ⟨member, by simp⟩
  apply find?_of_unique
  · exact perm.mem_iff.mpr (List.mem_map_of_mem inside)
  · exact decide_eq_true rfl
  · intro entry entered sameId
    obtain ⟨other, otherInside, rfl⟩ := List.mem_map.mp (perm.mem_iff.mp entered)
    rw [represents.eq_of_id (List.mem_filter.mp otherInside).1 member
      (of_decide_eq_true sameId)]
    rfl

end Directory

/-- `FireDirty` invokes the callbacks of the dirty watches on the list. -/
theorem fireDirty_eq (represents : Represents watcher registered)
    (dirty : List WinWatchId) :
    watcher.fireDirty dirty = dirty.filterMap fun id =>
      (registered.find? fun registration => registration.id = id).map
        Registration.report := by
  unfold fireDirty
  congr 1
  funext id
  cases located : watcher.watchLocations.lookup id with
  | none =>
      have absent := represents.not_mem_of_location located
      have noneFound : (registered.find? fun registration =>
          registration.id = id) = none := by
        simpa [List.find?_eq_none] using absent
      rw [noneFound]
      rfl
  | some location =>
      obtain ⟨registration, member, rfl, rfl⟩ := represents.mem_of_location located
      obtain ⟨dir, found, _⟩ := represents.directory_of_mem member
      have first : (registered.find? fun other =>
          other.id = registration.id) = some registration := by
        apply find?_of_unique member (decide_eq_true rfl)
        intro other otherMem sameId
        exact represents.eq_of_id otherMem member (of_decide_eq_true sameId)
      rw [first, Option.bind_some, Registration.location]
      simp only [found, Option.bind_some,
        represents.forEachEntry_of_mem member found]
      rfl

end Represents

/-- The tables agree: a watch with a location has one entry, in that place, and
there are no other entries, no empty lists of entries and no directories without
entries. -/
structure RegistryConsistent (watcher : WinFileWatcher Path Callback) : Prop where
  located_iff : ∀ id dirKey fileNameKey,
    watcher.watchLocations.lookup id = some ⟨dirKey, fileNameKey⟩ ↔
      ∃ dir, watcher.dirWatchers.lookup dirKey = some dir ∧
        dir.keysOf id = [fileNameKey]
  oneEntry : ∀ id dirKey dir, watcher.dirWatchers.lookup dirKey = some dir →
    (dir.keysOf id).length ≤ 1
  onePlace : ∀ id first second firstDir secondDir,
    watcher.dirWatchers.lookup first = some firstDir →
      watcher.dirWatchers.lookup second = some secondDir →
        firstDir.keysOf id ≠ [] → secondDir.keysOf id ≠ [] → first = second
  noEmptyList : ∀ dirKey dir fileNameKey entries,
    watcher.dirWatchers.lookup dirKey = some dir →
      dir.watches.lookup fileNameKey = some entries → entries ≠ []
  noEmptyDir : ∀ dirKey dir, watcher.dirWatchers.lookup dirKey = some dir →
    dir.empty = false

/-- `FireDirty` invokes the callback of each of the watches that is dirty. -/
def FiresWatches (watcher : WinFileWatcher Path Callback)
    (registered : List (Registration Path Callback)) : Prop :=
  ∀ registration ∈ registered, ∀ dirty : List WinWatchId,
    registration.id ∈ dirty → registration.report ∈ watcher.fireDirty dirty

namespace Represents

variable (represents : Represents watcher registered)

include represents

theorem located_iff_keysOf (id : WinWatchId) (dirKey fileNameKey : WString) :
    watcher.watchLocations.lookup id = some ⟨dirKey, fileNameKey⟩ ↔
      ∃ dir, watcher.dirWatchers.lookup dirKey = some dir ∧
        dir.keysOf id = [fileNameKey] := by
  constructor
  · intro located
    obtain ⟨registration, member, rfl, atPlace⟩ :=
      represents.mem_of_location located
    obtain ⟨dir, found, _⟩ := represents.directory_of_mem member
    obtain ⟨rfl, rfl⟩ := WatchLocation.mk.inj atPlace
    exact ⟨dir, found, represents.keysOf_of_mem member found⟩
  · rintro ⟨dir, found, keysEq⟩
    have entered : fileNameKey ∈ dir.keysOf id := by
      rw [keysEq]
      exact List.mem_singleton_self fileNameKey
    obtain ⟨registration, member, rfl, atPlace⟩ :=
      represents.mem_of_keysOf found entered
    exact atPlace ▸ represents.location_of_mem member

theorem length_keysOf_le_one (id : WinWatchId)
    (found : watcher.dirWatchers.lookup dirKey = some dir) :
    (dir.keysOf id).length ≤ 1 := by
  cases keysEq : dir.keysOf id with
  | nil => exact Nat.zero_le 1
  | cons fileNameKey others =>
      have entered : fileNameKey ∈ dir.keysOf id := by
        rw [keysEq]
        exact List.mem_cons_self
      obtain ⟨registration, member, rfl, atPlace⟩ :=
        represents.mem_of_keysOf found entered
      obtain ⟨rfl, rfl⟩ := WatchLocation.mk.inj atPlace
      rw [← keysEq, represents.keysOf_of_mem member found]
      exact Nat.le_refl 1

theorem eq_of_keysOf_ne_nil {id : WinWatchId} {first second : WString}
    {firstDir secondDir : WinDirWatcher Path Callback}
    (atFirst : watcher.dirWatchers.lookup first = some firstDir)
    (atSecond : watcher.dirWatchers.lookup second = some secondDir)
    (inFirst : firstDir.keysOf id ≠ []) (inSecond : secondDir.keysOf id ≠ []) :
    first = second := by
  obtain ⟨firstKey, firstEntered⟩ := List.exists_mem_of_ne_nil _ inFirst
  obtain ⟨secondKey, secondEntered⟩ := List.exists_mem_of_ne_nil _ inSecond
  obtain ⟨registration, member, sameId, firstPlace⟩ :=
    represents.mem_of_keysOf atFirst firstEntered
  obtain ⟨other, otherMem, otherId, secondPlace⟩ :=
    represents.mem_of_keysOf atSecond secondEntered
  have same := represents.eq_of_id member otherMem (sameId.trans otherId.symm)
  rw [same, secondPlace] at firstPlace
  exact (congrArg WatchLocation.dirKey firstPlace).symm

theorem entries_ne_nil {fileNameKey : WString}
    {entries : List (WinDirWatcher.Entry Path Callback)}
    (found : watcher.dirWatchers.lookup dirKey = some dir)
    (listed : dir.watches.lookup fileNameKey = some entries) : entries ≠ [] := by
  have indexes := (represents.indexes_of_lookup found).2 fileNameKey
  rw [listed] at indexes
  exact ((nonempty_eq_some_iff _ _).mp indexes.symm).2

theorem empty_eq_false (found : watcher.dirWatchers.lookup dirKey = some dir) :
    dir.empty = false := by
  obtain ⟨someInside, indexes⟩ := represents.indexes_of_lookup found
  rw [WinDirWatcher.empty, Bool.eq_false_iff]
  intro none
  exact someInside (indexes.entries_eq_nil_iff.mp (List.isEmpty_iff.mp none))

theorem registryConsistent : RegistryConsistent watcher where
  located_iff := represents.located_iff_keysOf
  oneEntry id _ _ := represents.length_keysOf_le_one id
  onePlace _ _ _ _ _ := represents.eq_of_keysOf_ne_nil
  noEmptyList _ _ _ _ := represents.entries_ne_nil
  noEmptyDir _ _ := represents.empty_eq_false

theorem firesWatches : FiresWatches watcher registered := by
  intro registration member dirty isDirty
  rw [represents.fireDirty_eq, List.mem_filterMap]
  refine ⟨registration.id, isDirty, ?_⟩
  rw [find?_of_unique member (decide_eq_true rfl)]
  · rfl
  · intro other otherMem sameId
    exact represents.eq_of_id otherMem member (of_decide_eq_true sameId)

end Represents

end WinFileWatcher

open WinFileWatcher

namespace WinWatcherSystem

variable (toLowerKey : WString → WString)

/-! ## Runs -/

/-- The watches that callers have and the thread has not drained, after an
event.  The shutdown drains all of them. -/
def registeredAfter (system : WinWatcherSystem Path Callback)
    (registered : List (Registration Path Callback)) :
    Event Path Callback → List (Registration Path Callback)
  | .watchFile id replies =>
      match system.calls.lookup id with
      | some call =>
          match ((system.finishCall id).watchFile id call replies).1 with
          | .ok _ => registered ++ [⟨id, call⟩]
          | .error _ => registered
      | none => registered
  | .work =>
      match system.stage with
      | .top => registered.filter fun registration =>
          registration.id ∉ system.watcher.pendingUnwatches
      | .retire => []
      | _ => registered
  | _ => registered

/-- The watcher, and the watches that its callers have. -/
structure WatchedSystem (Path Callback : Type*) where
  system : WinWatcherSystem Path Callback := {}
  registered : List (Registration Path Callback) := []

namespace WatchedSystem

def step (watched : WatchedSystem Path Callback) (event : Event Path Callback) :
    Option (WatchedSystem Path Callback) :=
  (watched.system.step toLowerKey event).map fun next =>
    ⟨next, watched.system.registeredAfter watched.registered event⟩

/-- The tables agree, and the watches of the callers fire. -/
structure KeepsRegistry (watched : WatchedSystem Path Callback) : Prop where
  consistent : RegistryConsistent watched.system.watcher
  fires : FiresWatches watched.system.watcher watched.registered

/-- The thread does not take a directory out because its read could not be
issued anew. -/
def NothingTakenOut (watched : WatchedSystem Path Callback) :
    Event Path Callback → Prop
  | .work => ∀ object, watched.system.stage ≠ .takeOut object
  | _ => True

end WatchedSystem

/-- The tables are those of the watches of the callers, and the ids of calls are
new. -/
structure Tracks (system : WinWatcherSystem Path Callback)
    (registered : List (Registration Path Callback)) : Prop where
  represents : Represents system.watcher registered
  below : ∀ registration ∈ registered,
    registration.id < system.watcher.nextWatchId
  calling : ∀ id ∈ system.calls.keys, id < system.watcher.nextWatchId ∧
    id ∉ registered.map Registration.id

namespace Tracks

variable {toLowerKey : WString → WString}
  {system next : WinWatcherSystem Path Callback}
  {registered : List (Registration Path Callback)}

theorem frame (tracks : Tracks system registered)
    (locations : next.watcher.watchLocations = system.watcher.watchLocations)
    (directories : next.watcher.dirWatchers = system.watcher.dirWatchers)
    (nextWatchId : next.watcher.nextWatchId = system.watcher.nextWatchId)
    (calls : next.calls = system.calls) : Tracks next registered := by
  constructor
  · exact tracks.represents.congr locations directories
  · rw [nextWatchId]
    exact tracks.below
  · rw [nextWatchId, calls]
    exact tracks.calling

theorem callWatchFile (tracks : Tracks system registered) (canon : Path)
    (parentPath filename currentPath : WString) (callback : Callback) :
    Tracks (system.callWatchFile toLowerKey canon parentPath filename currentPath
      callback).2 registered := by
  unfold WinWatcherSystem.callWatchFile
  split
  · exact tracks
  · constructor
    · exact tracks.represents.congr rfl rfl
    · intro registration member
      exact Nat.lt_succ_of_lt (tracks.below registration member)
    · intro id calling
      rcases (mem_keys_emplace _ _ _ _).mp calling with old | rfl
      · obtain ⟨below, fresh⟩ := tracks.calling id old
        exact ⟨Nat.lt_succ_of_lt below, fresh⟩
      · refine ⟨Nat.lt_succ_self _, ?_⟩
        intro member
        obtain ⟨registration, registrationMem, sameId⟩ := List.mem_map.mp member
        exact Nat.lt_irrefl _ (sameId ▸ tracks.below registration registrationMem)

/-- The call has returned, and its watch is on the list or not. -/
theorem returned (tracks : Tracks system registered) {id : WinWatchId}
    {call : PendingCall Path Callback}
    (calling : system.calls.lookup id = some call)
    {extended : List (Registration Path Callback)}
    (grows : extended = registered ∨ extended = registered ++ [⟨id, call⟩])
    (represents : Represents next.watcher extended)
    (nextWatchId : next.watcher.nextWatchId = system.watcher.nextWatchId)
    (calls : next.calls = system.calls.erase id) : Tracks next extended := by
  obtain ⟨idBelow, _⟩ := tracks.calling id (mem_keys_of_lookup calling)
  have ofMem : ∀ registration ∈ extended,
      registration ∈ registered ∨ registration.id = id := by
    intro registration member
    rcases grows with rfl | rfl
    · exact Or.inl member
    · rcases List.mem_append.mp member with old | new
      · exact Or.inl old
      · rw [List.mem_singleton.mp new]
        exact Or.inr rfl
  constructor
  · exact represents
  · intro registration member
    rw [nextWatchId]
    rcases ofMem registration member with old | rfl
    · exact tracks.below registration old
    · exact idBelow
  · intro other otherCalling
    rw [calls, mem_keys_erase] at otherCalling
    obtain ⟨stillCalling, different⟩ := otherCalling
    obtain ⟨below, fresh⟩ := tracks.calling other stillCalling
    refine ⟨nextWatchId ▸ below, ?_⟩
    intro member
    obtain ⟨registration, registrationMem, sameId⟩ := List.mem_map.mp member
    rcases ofMem registration registrationMem with old | isCall
    · exact fresh (sameId ▸ List.mem_map_of_mem old)
    · exact different (sameId.symm.trans isCall)

theorem watchFile (tracks : Tracks system registered) {id : WinWatchId}
    {call : PendingCall Path Callback} (calling : system.calls.lookup id = some call)
    (replies : SystemReplies) :
    Tracks ((system.finishCall id).watchFile id call replies).2
      (system.registeredAfter registered (.watchFile id replies)) := by
  have fresh := (tracks.calling id (mem_keys_of_lookup calling)).2
  simp only [registeredAfter, calling]
  unfold WinWatcherSystem.watchFile
  split
  · rename_i dir found
    exact tracks.returned calling (Or.inr rfl)
      (tracks.represents.register fresh found) rfl rfl
  · rename_i missing
    split
    · exact tracks.returned calling (Or.inl rfl) (tracks.represents.congr rfl rfl)
        rfl rfl
    · rename_i dir opens
      obtain rfl := object_of_openDir opens
      dsimp only
      split
      · exact tracks.returned calling (Or.inr rfl)
          (tracks.represents.registerOpened fresh missing _) rfl rfl
      · exact tracks.returned calling (Or.inl rfl)
          (tracks.represents.unregister fresh missing _ _) rfl rfl

theorem drain (tracks : Tracks system registered) :
    Tracks system.drain (registered.filter fun registration =>
      registration.id ∉ system.watcher.pendingUnwatches) := by
  have frame := (drainPendingUnwatches_frame system.watcher).2
  constructor
  · exact tracks.represents.drainPendingUnwatches
  · intro registration member
    rw [WinWatcherSystem.drain, frame]
    exact tracks.below registration (List.mem_filter.mp member).1
  · intro id calling
    obtain ⟨below, fresh⟩ := tracks.calling id calling
    refine ⟨?_, ?_⟩
    · rw [WinWatcherSystem.drain, frame]
      exact below
    · intro member
      exact fresh ((List.filter_sublist.map Registration.id).subset member)

theorem retire (tracks : Tracks system registered) : Tracks system.retire [] := by
  constructor
  · exact Represents.retireAll system.watcher
  · rintro registration ⟨⟩
  · intro id calling
    exact ⟨(tracks.calling id calling).1, List.not_mem_nil⟩

theorem lookUp (tracks : Tracks system registered) (object : Nat)
    (completion : ReadCompletion) :
    Tracks (system.lookUp object completion) registered := by
  unfold WinWatcherSystem.lookUp
  split
  · exact tracks.frame rfl rfl rfl rfl
  · split <;> exact tracks.frame rfl rfl rfl rfl

theorem step (tracks : Tracks system registered) {event : Event Path Callback}
    (condition : WatchedSystem.NothingTakenOut ⟨system, registered⟩ event)
    (stepped : WinWatcherSystem.step toLowerKey system event = some next) :
    Tracks next (system.registeredAfter registered event) := by
  cases moves_of_step stepped with
  | callWatchFile canon parentPath filename currentPath callback =>
      exact tracks.callWatchFile canon parentPath filename currentPath callback
  | watchFile replies calling => exact tracks.watchFile calling replies
  | drain atStage =>
      simp only [registeredAfter, atStage]
      exact tracks.drain
  | retire atStage =>
      simp only [registeredAfter, atStage]
      exact tracks.retire
  | checkShutdown atStage =>
      simp only [registeredAfter, atStage]
      unfold checkShutdown
      split <;> exact tracks.frame rfl rfl rfl rfl
  | checkExit atStage =>
      simp only [registeredAfter, atStage]
      unfold checkExit
      split <;> exact tracks.frame rfl rfl rfl rfl
  | lookUp atStage =>
      simp only [registeredAfter, atStage]
      exact tracks.lookUp _ _
  | @takeOut object atStage => exact absurd atStage (condition object)
  | @invoke callbacks atStage =>
      simp only [registeredAfter, atStage]
      cases callbacks <;> exact tracks.frame rfl rfl rfl rfl
  | collect atStage | fire atStage =>
      simp only [registeredAfter, atStage]
      exact tracks.frame rfl rfl rfl rfl
  | issueRead issued =>
      cases issued <;> exact tracks.frame rfl rfl rfl rfl
  | clock =>
      unfold clock
      split <;> exact tracks.frame rfl rfl rfl rfl
  | closeWatch | wake | flag | join | dequeueNothing | dequeueWake
  | dequeueRead | callbackThrows => exact tracks.frame rfl rfl rfl rfl

end Tracks

namespace WatchedSystem

variable {toLowerKey : WString → WString} {watched : WatchedSystem Path Callback}

/-- A directory that is taken out leaves the locations of its watches. -/
theorem not_keepsRegistry_of_takenOut
    (tracks : Tracks watched.system watched.registered)
    (live : LiveActive watched.system) {event : Event Path Callback}
    (takenOut : ¬ NothingTakenOut watched event) :
    ∃ next, step toLowerKey watched event = some next ∧ ¬ KeepsRegistry next := by
  cases event <;> try exact absurd trivial takenOut
  simp only [NothingTakenOut, not_forall, not_not] at takenOut
  obtain ⟨object, atTakeOut⟩ := takenOut
  obtain ⟨dirKey, dir, found, atKey, rfl⟩ :=
    exists_findActive (live object (by rw [atTakeOut]; rfl))
  obtain ⟨someInside, _⟩ := tracks.represents.indexes_of_lookup atKey
  obtain ⟨registration, inside⟩ := List.exists_mem_of_ne_nil _ someInside
  obtain ⟨member, sameKey⟩ := List.mem_filter.mp inside
  have atDirKey : registration.call.dirKey = dirKey := of_decide_eq_true sameKey
  refine ⟨⟨watched.system.takeOut dir.object,
    watched.system.registeredAfter watched.registered .work⟩, ?_, ?_⟩
  · simp only [step, WinWatcherSystem.step, WinWatcherSystem.work, atTakeOut,
      Option.map_some]
  · intro keeps
    have erased : (watched.system.takeOut dir.object).watcher =
        { watched.system.watcher with
          dirWatchers := watched.system.watcher.dirWatchers.erase dirKey } := by
      simp only [takeOut, armDeadline, WinFileWatcher.takeOut, found]
    have located := tracks.represents.location_of_mem member
    have consistent := keeps.consistent
    rw [erased] at consistent
    obtain ⟨other, stillThere, _⟩ :=
      (consistent.located_iff _ _ _).mp located
    simp [atDirKey] at stillThere

/-- In each state of a run the registry is consistent and the watches fire,
exactly if no directory is taken out because its read could not be issued anew. -/
theorem keepsRegistry_iff_nothingTakenOut (toLowerKey : WString → WString)
    (events : List (Event Path Callback)) :
    Throughout (step toLowerKey) KeepsRegistry {} events ↔
      EachStep (step toLowerKey) NothingTakenOut {} events := by
  refine throughout_iff_eachStep (fun watched =>
    Tracks watched.system watched.registered ∧ LiveActive watched.system)
      ?_ ?_ ?_ ?_ events
  · rintro watched ⟨tracks, _⟩
    exact ⟨tracks.represents.registryConsistent, tracks.represents.firesWatches⟩
  · rintro watched event next ⟨tracks, live⟩ condition stepped
    obtain ⟨system, advanced, rfl⟩ := Option.map_eq_some_iff.mp stepped
    exact ⟨tracks.step condition advanced, live.step advanced⟩
  · rintro watched event ⟨tracks, live⟩ takenOut
    exact not_keepsRegistry_of_takenOut tracks live takenOut
  · refine ⟨⟨represents_initial, ?_, ?_⟩, LiveActive.of_none rfl⟩
    · rintro registration ⟨⟩
    · rintro id ⟨⟩

/-- The read of the only directory cannot be issued anew after a notification. -/
def failedReissue : List (Event WString Nat) :=
  [.callWatchFile [99, 92, 97] [99] [97] [] 0, .watchFile 1 {}] ++
    List.replicate 3 .work ++ [.dequeueRead 0 (.transferred [] 0)] ++
    List.replicate 2 .work ++ [.issueRead false, .work]

/-- The directory is gone, and its watch is still located there. -/
theorem not_keepsRegistry_failedReissue :
    ¬ Throughout (step id) KeepsRegistry {} failedReissue := by
  intro throughout
  have keeps := throughout.last rfl
  obtain ⟨dir, found, _⟩ := (keeps.consistent.located_iff 1 [99] [97]).mp rfl
  cases found

end WatchedSystem

end WinWatcherSystem

end Birch

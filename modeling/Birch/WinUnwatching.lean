import Birch.WinFileWatcherReads

/-!
# Unwatching

`DrainPendingUnwatches` goes once over the ids that were asked to be unwatched,
in whatever order and however often they come.  For each it updates the table
of locations, the entries of a directory and, with the last entry, the two
tables of directories.  This file shows what the whole pass does: it takes off
exactly the watches with these ids, and retires exactly the directories that
have lost all their watches.
-/

namespace Birch

open EventRuns LinkedHashMap

variable {Path Callback : Type*}

namespace WinFileWatcher

/-! ## The watches in the tables -/

/-- An entry of an active directory, with its place. -/
structure Watching (Path Callback : Type*) where
  location : WatchLocation
  object : Nat
  entry : WinDirWatcher.Entry Path Callback

/-- The watches in a directory. -/
def watchingsIn (dirKey : WString) (dir : WinDirWatcher Path Callback) :
    List (Watching Path Callback) :=
  dir.keyedEntries.map fun keyed => ⟨⟨dirKey, keyed.1⟩, dir.object, keyed.2⟩

def watchings (watcher : WinFileWatcher Path Callback) :
    List (Watching Path Callback) :=
  watcher.dirWatchers.entries.flatMap fun entry => watchingsIn entry.1 entry.2

/-- All watches of the directory have these ids. -/
def LosesLastWatch (dir : WinDirWatcher Path Callback) (ids : List WinWatchId) :
    Prop :=
  dir.keyedEntries ≠ [] ∧ ∀ keyed ∈ dir.keyedEntries, keyed.2.id ∈ ids

/-- Each watch in a directory is located where it is, and no directory is
without watches.  A location may be left over from a directory that was taken
out. -/
structure PlacedTables (watcher : WinFileWatcher Path Callback) : Prop where
  located : ∀ watching ∈ watcher.watchings,
    watcher.watchLocations.lookup watching.entry.id = some watching.location
  occupied : ∀ dirKey dir, watcher.dirWatchers.lookup dirKey = some dir →
    dir.keyedEntries ≠ []
  full : ∀ dirKey dir, watcher.dirWatchers.lookup dirKey = some dir →
    dir.NoEmptyList

variable {watcher : WinFileWatcher Path Callback}

theorem mem_watchings (watching : Watching Path Callback) :
    watching ∈ watcher.watchings ↔
      ∃ dirKey dir, watcher.dirWatchers.lookup dirKey = some dir ∧
        watching ∈ watchingsIn dirKey dir :=
  mem_flatMap_entries watchingsIn watching

theorem mem_watchings_of_keyed {dirKey : WString}
    {dir : WinDirWatcher Path Callback}
    (found : watcher.dirWatchers.lookup dirKey = some dir)
    {keyed : WString × WinDirWatcher.Entry Path Callback}
    (member : keyed ∈ dir.keyedEntries) :
    ⟨⟨dirKey, keyed.1⟩, dir.object, keyed.2⟩ ∈ watcher.watchings :=
  (mem_watchings _).mpr ⟨dirKey, dir, found, List.mem_map_of_mem member⟩

/-- The directory of a watch is active. -/
theorem active_of_mem_watchings {watching : Watching Path Callback}
    (member : watching ∈ watcher.watchings) :
    watching.object ∈ watcher.activeObjects := by
  obtain ⟨dirKey, dir, found, inside⟩ := (mem_watchings watching).mp member
  obtain ⟨keyed, _, rfl⟩ := List.mem_map.mp inside
  exact mem_activeObjects_of_lookup found

/-- Active directories are told apart by their addresses. -/
theorem eq_of_object (nodup : watcher.objects.Nodup) {first second : WString}
    {firstDir secondDir : WinDirWatcher Path Callback}
    (atFirst : watcher.dirWatchers.lookup first = some firstDir)
    (atSecond : watcher.dirWatchers.lookup second = some secondDir)
    (sameObject : firstDir.object = secondDir.object) :
    first = second ∧ firstDir = secondDir := by
  have active := (List.nodup_append.mp nodup).1
  have same := List.inj_on_of_nodup_map active
    ((lookup_eq_some_iff _ _ _).mp atFirst)
    ((lookup_eq_some_iff _ _ _).mp atSecond) sameObject
  exact Prod.mk.inj same

theorem exists_dir_of_active {object : Nat}
    (active : object ∈ watcher.activeObjects) :
    ∃ dirKey dir, watcher.dirWatchers.lookup dirKey = some dir ∧
      dir.object = object := by
  obtain ⟨dirKey, dir, _, found, sameObject⟩ := exists_findActive active
  exact ⟨dirKey, dir, found, sameObject⟩

namespace PlacedTables

theorem initial : PlacedTables ({} : WinFileWatcher Path Callback) := by
  constructor
  · rintro watching ⟨⟩
  · rintro dirKey dir ⟨⟩
  · rintro dirKey dir ⟨⟩

theorem congr (placed : PlacedTables watcher)
    {other : WinFileWatcher Path Callback}
    (locations : other.watchLocations = watcher.watchLocations)
    (directories : other.dirWatchers = watcher.dirWatchers) :
    PlacedTables other := by
  constructor
  · rw [watchings, locations, directories]
    exact placed.located
  · rw [directories]
    exact placed.occupied
  · rw [directories]
    exact placed.full

/-- The place of a watch in a directory. -/
theorem location_of_keyed (placed : PlacedTables watcher) {dirKey : WString}
    {dir : WinDirWatcher Path Callback}
    (found : watcher.dirWatchers.lookup dirKey = some dir)
    {keyed : WString × WinDirWatcher.Entry Path Callback}
    (member : keyed ∈ dir.keyedEntries) :
    watcher.watchLocations.lookup keyed.2.id = some ⟨dirKey, keyed.1⟩ :=
  placed.located _ (mem_watchings_of_keyed found member)

/-- Directories may leave the table. -/
theorem of_subset (placed : PlacedTables watcher)
    {other : WinFileWatcher Path Callback}
    (locations : other.watchLocations = watcher.watchLocations)
    (directories : ∀ dirKey dir, other.dirWatchers.lookup dirKey = some dir →
      watcher.dirWatchers.lookup dirKey = some dir) : PlacedTables other := by
  constructor
  · intro watching member
    obtain ⟨dirKey, dir, found, inside⟩ := (mem_watchings watching).mp member
    rw [locations]
    apply placed.located
    rw [mem_watchings]
    exact ⟨dirKey, dir, directories dirKey dir found, inside⟩
  · intro dirKey dir found
    exact placed.occupied dirKey dir (directories dirKey dir found)
  · intro dirKey dir found
    exact placed.full dirKey dir (directories dirKey dir found)

theorem retireAll (watcher : WinFileWatcher Path Callback) :
    PlacedTables watcher.retireAll :=
  of_subset initial rfl fun _ _ found => found

theorem takeOut (placed : PlacedTables watcher) (object : Nat) :
    PlacedTables (watcher.takeOut object) := by
  unfold WinFileWatcher.takeOut
  split
  · exact placed
  · refine placed.of_subset rfl ?_
    intro dirKey dir found
    rw [lookup_erase] at found
    split at found
    · cases found
    · exact found

/-! ### Registration -/

variable {id : WinWatchId} {call : PendingCall Path Callback}

/-- The directory has the watches that it had, and the new one. -/
theorem register (placed : PlacedTables watcher)
    (fresh : id ∉ watcher.watchLocations.keys)
    {dir : WinDirWatcher Path Callback} (full : dir.NoEmptyList)
    (located : ∀ keyed ∈ dir.keyedEntries,
      watcher.watchLocations.lookup keyed.2.id = some ⟨call.dirKey, keyed.1⟩) :
    PlacedTables (watcher.register id call dir) := by
  have locations : ∀ other, other ∈ watcher.watchLocations.keys →
      (watcher.register id call dir).watchLocations.lookup other =
        watcher.watchLocations.lookup other := by
    intro other present
    have differ : ¬ (other = id ∧ id ∉ watcher.watchLocations.keys) := by
      rintro ⟨rfl, _⟩
      exact fresh present
    rw [WinFileWatcher.register, lookup_emplace, if_neg differ]
  have kept : ∀ {other place},
      watcher.watchLocations.lookup other = some place →
        (watcher.register id call dir).watchLocations.lookup other =
          some place := by
    intro other place found
    rw [locations other (mem_keys_of_lookup found), found]
  constructor
  · intro watching member
    obtain ⟨dirKey, other, found, inside⟩ := (mem_watchings watching).mp member
    rw [WinFileWatcher.register, lookup_assign] at found
    split at found
    · rename_i here
      cases found
      subst here
      obtain ⟨keyed, keyedMem, rfl⟩ := List.mem_map.mp inside
      rcases (WinDirWatcher.mem_keyedEntries_add _ _ _).mp keyedMem with
        old | rfl
      · exact kept (located keyed old)
      · rw [WinFileWatcher.register, lookup_emplace]
        exact if_pos ⟨rfl, fresh⟩
    · exact kept (placed.located watching
        ((mem_watchings watching).mpr ⟨dirKey, other, found, inside⟩))
  · intro dirKey other found
    rw [WinFileWatcher.register, lookup_assign] at found
    split at found
    · cases found
      exact List.ne_nil_of_mem
        ((WinDirWatcher.mem_keyedEntries_add _ _ _).mpr (.inr rfl))
    · exact placed.occupied dirKey other found
  · intro dirKey other found
    rw [WinFileWatcher.register, lookup_assign] at found
    split at found
    · cases found
      exact full.add _ _
    · exact placed.full dirKey other found

theorem registerOpened (placed : PlacedTables watcher)
    (fresh : id ∉ watcher.watchLocations.keys)
    (missing : watcher.dirWatchers.lookup call.dirKey = none) (object : Nat) :
    PlacedTables ((watcher.insertDir call.dirKey { object }).register id call
      { object }) := by
  have noEntry : ({ object } : WinDirWatcher Path Callback).keyedEntries = [] :=
    rfl
  have registered : PlacedTables (watcher.register id call { object }) := by
    apply placed.register fresh
    · rintro fileNameKey entries ⟨⟩
    · rw [noEntry]
      rintro keyed ⟨⟩
  refine registered.of_subset rfl ?_
  intro dirKey dir found
  rw [WinFileWatcher.register, lookup_assign] at found ⊢
  rw [lookup_insertDir missing] at found
  by_cases here : dirKey = call.dirKey
  · rw [if_pos here] at found ⊢
    exact found
  · rw [if_neg here, if_neg here] at found
    rw [if_neg here]
    exact found

end PlacedTables

/-! ## One id -/

section OneId

variable {id : WinWatchId} {location : WatchLocation}

theorem watchingsIn_remove (placed : PlacedTables watcher)
    (located : watcher.watchLocations.lookup id = some location)
    {dir : WinDirWatcher Path Callback}
    (found : watcher.dirWatchers.lookup location.dirKey = some dir) :
    watchingsIn location.dirKey (dir.remove id location.fileNameKey).1 =
      (watchingsIn location.dirKey dir).filter
        fun watching => watching.entry.id ≠ id := by
  rw [watchingsIn, WinDirWatcher.keyedEntries_remove, watchingsIn,
    List.filter_map]
  refine congrArg _ (List.filter_congr ?_)
  intro keyed member
  by_cases sameId : keyed.2.id = id
  · have place := placed.location_of_keyed found member
    rw [sameId, located, Option.some.injEq] at place
    have sameKey := congrArg WatchLocation.fileNameKey place
    simp [sameId, sameKey]
  · simp [sameId]

/-- Another directory does not have the watch. -/
theorem filter_watchingsIn (placed : PlacedTables watcher)
    (located : watcher.watchLocations.lookup id = some location)
    {dirKey : WString} {dir : WinDirWatcher Path Callback}
    (found : watcher.dirWatchers.lookup dirKey = some dir)
    (elsewhere : dirKey ≠ location.dirKey) :
    ((watchingsIn dirKey dir).filter
      fun watching => watching.entry.id ≠ id) = watchingsIn dirKey dir := by
  apply List.filter_eq_self.mpr
  intro watching member
  obtain ⟨keyed, keyedMem, rfl⟩ := List.mem_map.mp member
  have differentId : keyed.2.id ≠ id := by
    intro sameId
    have place := placed.location_of_keyed found keyedMem
    rw [sameId, located, Option.some.injEq] at place
    exact elsewhere (congrArg WatchLocation.dirKey place).symm
  simpa using differentId

/-- What is not located in a directory that is there is not watched. -/
theorem filter_watchings_of_missing (placed : PlacedTables watcher)
    (missing : ∀ location, watcher.watchLocations.lookup id = some location →
      watcher.dirWatchers.lookup location.dirKey = none) :
    (watcher.watchings.filter fun watching => watching.entry.id ≠ id) =
      watcher.watchings := by
  apply List.filter_eq_self.mpr
  intro watching member
  have differentId : watching.entry.id ≠ id := by
    rintro rfl
    obtain ⟨dirKey, dir, found, inside⟩ := (mem_watchings watching).mp member
    obtain ⟨keyed, _, rfl⟩ := List.mem_map.mp inside
    have absent := missing _ (placed.located _ member)
    rw [found] at absent
    cases absent
  simpa using differentId

theorem watchLocations_drainOne
    (drained : WinFileWatcher Path Callback × List (WinDirWatcher Path Callback))
    (id : WinWatchId) :
    (drainOne drained id).1.watchLocations =
      drained.1.watchLocations.erase id := by
  unfold drainOne
  split
  · rename_i missing
    exact (erase_of_absent ((lookup_eq_none_iff _ _).mp missing)).symm
  · dsimp only
    split
    · rfl
    · split <;> rfl

/-- One turn of the loop takes off the watch with the id. -/
theorem watchings_drainOne
    {drained : WinFileWatcher Path Callback × List (WinDirWatcher Path Callback)}
    (placed : PlacedTables drained.1) (id : WinWatchId) :
    (drainOne drained id).1.watchings =
      drained.1.watchings.filter fun watching => watching.entry.id ≠ id := by
  unfold drainOne
  split
  · rename_i missing
    rw [filter_watchings_of_missing placed]
    intro location located
    rw [missing] at located
    cases located
  · rename_i location located
    dsimp only
    split
    · rename_i missing
      rw [filter_watchings_of_missing placed]
      · rfl
      · intro other otherLocated
        rw [located, Option.some.injEq] at otherLocated
        rw [← otherLocated]
        exact missing
    · rename_i dir found
      have here := watchingsIn_remove placed located found
      split
      · rename_i emptied
        refine flatMap_erase_filter watchingsIn found ?_
          fun dirKey other => filter_watchingsIn placed located
        have full := (placed.full _ _ found).remove id location.fileNameKey
        rw [← here, watchingsIn, full.empty_iff.mp emptied]
        rfl
      · exact flatMap_assign_filter watchingsIn found here
          fun dirKey other => filter_watchingsIn placed located

theorem placed_drainOne
    {drained : WinFileWatcher Path Callback × List (WinDirWatcher Path Callback)}
    (placed : PlacedTables drained.1) (id : WinWatchId) :
    PlacedTables (drainOne drained id).1 := by
  have directories : ∀ dirKey dir,
      (drainOne drained id).1.dirWatchers.lookup dirKey = some dir →
        dir.keyedEntries ≠ [] ∧ dir.NoEmptyList := by
    have before : ∀ {dirKey dir},
        drained.1.dirWatchers.lookup dirKey = some dir →
          dir.keyedEntries ≠ [] ∧ dir.NoEmptyList := fun found =>
      ⟨placed.occupied _ _ found, placed.full _ _ found⟩
    intro dirKey dir
    unfold drainOne
    split
    · exact before
    · rename_i location _
      dsimp only
      split
      · exact before
      · rename_i old found
        have full := (placed.full _ _ found).remove id location.fileNameKey
        split
        · rw [lookup_erase]
          split
          · rintro ⟨⟩
          · exact before
        · rename_i left
          rw [lookup_assign]
          split
          · rintro ⟨⟩
            exact ⟨fun none => left (full.empty_iff.mpr none), full⟩
          · exact before
  constructor
  · intro watching member
    rw [watchings_drainOne placed] at member
    obtain ⟨old, differentId⟩ := List.mem_filter.mp member
    rw [watchLocations_drainOne, lookup_erase,
      if_neg (of_decide_eq_true differentId)]
    exact placed.located watching old
  · exact fun dirKey dir found => (directories dirKey dir found).1
  · exact fun dirKey dir found => (directories dirKey dir found).2

end OneId

/-! ## All ids -/

/-- What is left and what has been retired after some of the ids. -/
structure DrainedSoFar (start : WinFileWatcher Path Callback)
    (done : List WinWatchId)
    (drained : WinFileWatcher Path Callback ×
      List (WinDirWatcher Path Callback)) : Prop where
  placed : PlacedTables drained.1
  distinct : drained.1.objects.Nodup
  registered : drained.1.watchings =
    start.watchings.filter fun watching => watching.entry.id ∉ done
  locations : drained.1.watchLocations.entries =
    start.watchLocations.entries.filter fun entry => entry.1 ∉ done
  active : start.activeObjects.Perm
    (drained.2.map WinDirWatcher.object ++ drained.1.activeObjects)
  draining : drained.1.draining.entries =
    start.draining.entries ++ drained.2.map fun dir => (dir.object, dir)

namespace DrainedSoFar

variable {start : WinFileWatcher Path Callback} {done : List WinWatchId}
  {drained : WinFileWatcher Path Callback × List (WinDirWatcher Path Callback)}

theorem nothing (placed : PlacedTables start) (distinct : start.objects.Nodup) :
    DrainedSoFar start [] (start, []) := by
  refine ⟨placed, distinct, ?_, ?_, List.Perm.refl _, ?_⟩ <;> simp

theorem filter_concat {Item : Type*} (keyOf : Item → WinWatchId)
    (items : List Item) (done : List WinWatchId) (id : WinWatchId) :
    (items.filter fun item => keyOf item ∉ done ++ [id]) =
      (items.filter fun item => keyOf item ∉ done).filter
        fun item => keyOf item ≠ id := by
  rw [List.filter_filter]
  apply List.filter_congr
  intro item _
  simp [and_comm]

theorem drainOne (soFar : DrainedSoFar start done drained) (id : WinWatchId) :
    DrainedSoFar start (done ++ [id]) (WinFileWatcher.drainOne drained id) := by
  have moved : start.activeObjects.Perm
      ((WinFileWatcher.drainOne drained id).2.map WinDirWatcher.object ++
        (WinFileWatcher.drainOne drained id).1.activeObjects) ∧
      (WinFileWatcher.drainOne drained id).1.draining.entries =
        start.draining.entries ++ (WinFileWatcher.drainOne drained id).2.map
          fun dir => (dir.object, dir) := by
    unfold WinFileWatcher.drainOne
    split
    · exact ⟨soFar.active, soFar.draining⟩
    · rename_i location _
      dsimp only
      split
      · exact ⟨soFar.active, soFar.draining⟩
      · rename_i dir found
        split
        · have notDraining : dir.object ∉ drained.1.draining.keys :=
            not_draining_of_active soFar.distinct
              (mem_activeObjects_of_lookup found)
          constructor
          · have erased := (perm_erase found).map fun entry => entry.2.object
            refine soFar.active.trans ((erased.append_left _).trans ?_)
            rw [List.map_append, List.append_assoc]
            exact List.Perm.refl _
          · dsimp only [WinDirWatcher.remove]
            rw [entries_emplace_of_absent notDraining, soFar.draining,
              List.map_append, List.append_assoc]
            rfl
        · refine ⟨?_, soFar.draining⟩
          have unchanged : (drained.1.dirWatchers.assign location.dirKey
              (dir.remove id location.fileNameKey).1).entries.map
                (fun entry => entry.2.object) = drained.1.activeObjects :=
            map_assign_of_lookup WinDirWatcher.object found rfl
          dsimp only [activeObjects]
          rw [unchanged]
          exact soFar.active
  refine ⟨placed_drainOne soFar.placed id, ?_, ?_, ?_, moved.1, moved.2⟩
  · exact (objects_drainOne drained id soFar.distinct).nodup_iff.mpr
      soFar.distinct
  · rw [watchings_drainOne soFar.placed, soFar.registered, filter_concat]
  · rw [watchLocations_drainOne, entries_erase, soFar.locations, filter_concat]

theorem foldl (soFar : DrainedSoFar start done drained)
    (ids : List WinWatchId) :
    DrainedSoFar start (done ++ ids)
      (ids.foldl WinFileWatcher.drainOne drained) := by
  induction ids generalizing done drained with
  | nil => simpa using soFar
  | cons id ids ih =>
      have later := ih (soFar.drainOne id)
      rw [List.append_assoc] at later
      exact later

theorem locations_subset (soFar : DrainedSoFar start done drained) :
    drained.1.watchLocations.keys ⊆ start.watchLocations.keys := by
  intro id member
  rw [keys, soFar.locations] at member
  exact (List.filter_sublist.map Prod.fst).subset member

section Outcome

variable {ids : List WinWatchId} (soFar : DrainedSoFar start ids drained)
  (distinct : start.objects.Nodup) {dirKey : WString}
  {dir : WinDirWatcher Path Callback}
  (found : start.dirWatchers.lookup dirKey = some dir)

include soFar distinct found

/-- A directory that is left has a watch that is left, and is where it was. -/
theorem left_of_lookup {leftKey : WString} {left : WinDirWatcher Path Callback}
    (atLeft : drained.1.dirWatchers.lookup leftKey = some left)
    (sameObject : left.object = dir.object) :
    leftKey = dirKey ∧ ∃ keyed ∈ dir.keyedEntries, keyed.2.id ∉ ids := by
  obtain ⟨keyed, member⟩ :=
    List.exists_mem_of_ne_nil _ (soFar.placed.occupied leftKey left atLeft)
  have watched := mem_watchings_of_keyed atLeft member
  rw [soFar.registered] at watched
  obtain ⟨old, notDone⟩ := List.mem_filter.mp watched
  obtain ⟨oldKey, oldDir, atOld, inside⟩ := (mem_watchings _).mp old
  obtain ⟨oldKeyed, oldMember, same⟩ := List.mem_map.mp inside
  simp only [Watching.mk.injEq, WatchLocation.mk.injEq] at same
  obtain ⟨⟨sameKey, _⟩, sameAddress, sameEntry⟩ := same
  obtain ⟨rfl, rfl⟩ :=
    eq_of_object distinct atOld found (sameAddress.trans sameObject)
  refine ⟨sameKey.symm, oldKeyed, oldMember, ?_⟩
  rw [sameEntry]
  exact of_decide_eq_true notDone

theorem active_iff (occupied : dir.keyedEntries ≠ []) :
    dir.object ∈ drained.1.activeObjects ↔ ¬ LosesLastWatch dir ids := by
  constructor
  · rintro active ⟨_, all⟩
    obtain ⟨leftKey, left, atLeft, sameObject⟩ := exists_dir_of_active active
    obtain ⟨_, keyed, member, notDone⟩ :=
      soFar.left_of_lookup distinct found atLeft sameObject
    exact notDone (all keyed member)
  · intro keeps
    obtain ⟨keyed, member, notDone⟩ :
        ∃ keyed ∈ dir.keyedEntries, keyed.2.id ∉ ids := by
      by_contra none
      push Not at none
      exact keeps ⟨occupied, none⟩
    have watched := mem_watchings_of_keyed found member
    have left : ⟨⟨dirKey, keyed.1⟩, dir.object, keyed.2⟩ ∈
        drained.1.watchings := by
      rw [soFar.registered]
      exact List.mem_filter.mpr ⟨watched, decide_eq_true notDone⟩
    exact active_of_mem_watchings left

omit found

theorem mem_retired_iff {object : Nat} (active : object ∈ start.activeObjects) :
    object ∈ drained.2.map WinDirWatcher.object ↔
      object ∉ drained.1.activeObjects := by
  have both := soFar.active.nodup_iff.mp (List.nodup_append.mp distinct).1
  constructor
  · intro retired left
    exact (List.nodup_append.mp both).2.2 object retired object left rfl
  · intro gone
    exact (List.mem_append.mp (soFar.active.mem_iff.mp active)).resolve_right gone

end Outcome

end DrainedSoFar

end WinFileWatcher

open WinFileWatcher

namespace WinWatcherSystem

/-! ## The drain -/

/-- The directory leaves the active ones for the draining ones, and its read is
cancelled once. -/
structure Retires (system next : WinWatcherSystem Path Callback)
    (dir : WinDirWatcher Path Callback) : Prop where
  notYetDraining : dir.object ∉ system.watcher.draining.keys
  inactive : dir.object ∉ next.watcher.activeObjects
  draining : ∃ retired,
    next.watcher.draining.lookup dir.object = some retired ∧
      retired.object = dir.object
  cancelled : next.cancelled.count dir.object =
    system.cancelled.count dir.object + 1

structure Stays (system next : WinWatcherSystem Path Callback)
    (dirKey : WString) (dir : WinDirWatcher Path Callback) : Prop where
  active : ∃ left, next.watcher.dirWatchers.lookup dirKey = some left ∧
    left.object = dir.object
  notDraining : dir.object ∉ next.watcher.draining.keys
  notCancelled : next.cancelled.count dir.object =
    system.cancelled.count dir.object

/-- Between the states the watches with these ids are taken off, and nothing
else. -/
structure Unwatches (ids : List WinWatchId)
    (system next : WinWatcherSystem Path Callback) : Prop where
  registered : next.watcher.watchings =
    system.watcher.watchings.filter fun watching => watching.entry.id ∉ ids
  located : ∀ watching ∈ next.watcher.watchings,
    next.watcher.watchLocations.lookup watching.entry.id =
      some watching.location
  locations : next.watcher.watchLocations.entries =
    system.watcher.watchLocations.entries.filter fun entry => entry.1 ∉ ids
  retires : ∀ dirKey dir, system.watcher.dirWatchers.lookup dirKey = some dir →
    LosesLastWatch dir ids → Retires system next dir
  stays : ∀ dirKey dir, system.watcher.dirWatchers.lookup dirKey = some dir →
    ¬ LosesLastWatch dir ids → Stays system next dirKey dir
  others : ∀ object, object ∉ system.watcher.activeObjects →
    object ∉ next.watcher.activeObjects ∧
      next.watcher.draining.lookup object =
        system.watcher.draining.lookup object ∧
      next.cancelled.count object = system.cancelled.count object
  nothingPending : next.watcher.pendingUnwatches = []

def withPending (system : WinWatcherSystem Path Callback)
    (ids : List WinWatchId) : WinWatcherSystem Path Callback :=
  { system with watcher := { system.watcher with pendingUnwatches := ids } }

/-- Whatever ids are pending, the drain unwatches exactly these. -/
def DrainsExactly (system : WinWatcherSystem Path Callback) : Prop :=
  ∀ ids, Unwatches ids system (system.withPending ids).drain

variable {system next : WinWatcherSystem Path Callback}

section Drained

variable {ids : List WinWatchId}
  {drained : WinFileWatcher Path Callback × List (WinDirWatcher Path Callback)}

/-- The state after the loop over the ids. -/
def drainedTo (system : WinWatcherSystem Path Callback)
    (drained : WinFileWatcher Path Callback ×
      List (WinDirWatcher Path Callback)) : WinWatcherSystem Path Callback :=
  { system with
    watcher := { drained.1 with pendingUnwatches := [] }
    cancelled := system.cancelled ++ drained.2.map WinDirWatcher.object
    stage := .shutdownCheck }

theorem drain_withPending (system : WinWatcherSystem Path Callback)
    (ids : List WinWatchId) :
    (system.withPending ids).drain =
      system.drainedTo (ids.foldl drainOne ((system.withPending ids).watcher, [])) :=
  rfl

variable (soFar : DrainedSoFar system.watcher ids drained)
  (distinct : system.watcher.objects.Nodup)

include soFar distinct

theorem retires_drainedTo {dir : WinDirWatcher Path Callback}
    (active : dir.object ∈ system.watcher.activeObjects)
    (inactive : dir.object ∉ drained.1.activeObjects) :
    Retires system (system.drainedTo drained) dir := by
  have retired := (soFar.mem_retired_iff distinct active).mpr inactive
  have both := soFar.active.nodup_iff.mp (List.nodup_append.mp distinct).1
  have retiredNodup : (drained.2.map WinDirWatcher.object).Nodup :=
    (List.nodup_append.mp both).1
  refine ⟨not_draining_of_active distinct active, inactive, ?_, ?_⟩
  · obtain ⟨other, member, sameObject⟩ := List.mem_map.mp retired
    refine ⟨other, ?_, sameObject⟩
    rw [drainedTo, lookup_eq_some_iff, soFar.draining, ← sameObject]
    exact List.mem_append_right _ (List.mem_map_of_mem member)
  · rw [drainedTo, List.count_append,
      List.count_eq_one_of_mem retiredNodup retired]

theorem stays_drainedTo {dirKey : WString} {dir : WinDirWatcher Path Callback}
    (found : system.watcher.dirWatchers.lookup dirKey = some dir)
    (active : dir.object ∈ drained.1.activeObjects) :
    Stays system (system.drainedTo drained) dirKey dir := by
  have notRetired : dir.object ∉ drained.2.map WinDirWatcher.object :=
    fun retired => (soFar.mem_retired_iff distinct
      (mem_activeObjects_of_lookup found)).mp retired active
  refine ⟨?_, not_draining_of_active soFar.distinct active, ?_⟩
  · obtain ⟨leftKey, left, atLeft, sameObject⟩ := exists_dir_of_active active
    obtain ⟨rfl, _⟩ := soFar.left_of_lookup distinct found atLeft sameObject
    exact ⟨left, atLeft, sameObject⟩
  · rw [drainedTo, List.count_append, List.count_eq_zero_of_not_mem notRetired,
      Nat.add_zero]

omit distinct

/-- What was not active has nothing to do with the drain. -/
theorem others_drainedTo {object : Nat}
    (inactive : object ∉ system.watcher.activeObjects) :
    object ∉ drained.1.activeObjects ∧
      drained.1.draining.lookup object =
        system.watcher.draining.lookup object ∧
      (system.drainedTo drained).cancelled.count object =
        system.cancelled.count object := by
  have neither : object ∉ drained.2.map WinDirWatcher.object ++
      drained.1.activeObjects := mt soFar.active.mem_iff.mpr inactive
  rw [List.mem_append, not_or] at neither
  refine ⟨neither.2, ?_, ?_⟩
  · apply Option.ext
    intro dir
    rw [lookup_eq_some_iff, lookup_eq_some_iff, soFar.draining, List.mem_append]
    refine or_iff_left_of_imp ?_
    intro retired
    obtain ⟨other, member, same⟩ := List.mem_map.mp retired
    have sameObject : other.object = object := congrArg Prod.fst same
    exact absurd (sameObject ▸ List.mem_map_of_mem member) neither.1
  · rw [drainedTo, List.count_append, List.count_eq_zero_of_not_mem neither.1,
      Nat.add_zero]

end Drained

theorem drainsExactly_of_placed (placed : PlacedTables system.watcher)
    (distinct : system.watcher.objects.Nodup) : DrainsExactly system := by
  intro ids
  have start : PlacedTables (system.withPending ids).watcher :=
    placed.congr rfl rfl
  have folded := (DrainedSoFar.nothing start distinct).foldl ids
  rw [List.nil_append] at folded
  rw [drain_withPending]
  generalize ids.foldl drainOne ((system.withPending ids).watcher, []) = drained
    at folded
  have soFar : DrainedSoFar system.watcher ids drained :=
    ⟨folded.placed, folded.distinct, folded.registered, folded.locations,
      folded.active, folded.draining⟩
  have active_iff := fun {dirKey dir} found =>
    soFar.active_iff distinct found (placed.occupied dirKey dir found)
  refine ⟨soFar.registered, soFar.placed.located, soFar.locations, ?_, ?_, ?_, rfl⟩
  · intro dirKey dir found loses
    exact retires_drainedTo soFar distinct (mem_activeObjects_of_lookup found)
      fun active => (active_iff found).mp active loses
  · intro dirKey dir found keeps
    exact stays_drainedTo soFar distinct found ((active_iff found).mpr keeps)
  · intro object inactive
    exact others_drainedTo soFar inactive

/-! ## Reachable states -/

/-- The tables agree, directories have addresses of their own, and the calls of
`WatchFile` have ids of their own. -/
structure Placed (system : WinWatcherSystem Path Callback) : Prop where
  tables : PlacedTables system.watcher
  distinct : system.watcher.objects.Nodup
  below : ∀ object ∈ system.watcher.objects, object < system.nextObject
  located : ∀ id ∈ system.watcher.watchLocations.keys,
    id < system.watcher.nextWatchId
  calling : ∀ id ∈ system.calls.keys, id < system.watcher.nextWatchId ∧
    id ∉ system.watcher.watchLocations.keys

namespace Placed

theorem initial : Placed ({} : WinWatcherSystem Path Callback) := by
  refine ⟨PlacedTables.initial, List.nodup_nil, ?_, ?_, ?_⟩
  · rintro object ⟨⟩
  · rintro id ⟨⟩
  · rintro id ⟨⟩

/-- Directories and locations may go. -/
theorem of_perm (placed : Placed system) (tables : PlacedTables next.watcher)
    {gone : List Nat}
    (objects : system.watcher.objects.Perm (gone ++ next.watcher.objects))
    (nextObject : next.nextObject = system.nextObject)
    (locations : next.watcher.watchLocations.keys ⊆
      system.watcher.watchLocations.keys)
    (nextWatchId : next.watcher.nextWatchId = system.watcher.nextWatchId)
    (calls : next.calls = system.calls) : Placed next := by
  refine ⟨tables, ?_, ?_, ?_, ?_⟩
  · exact (List.nodup_append.mp (objects.nodup_iff.mp placed.distinct)).2.1
  · intro object member
    rw [nextObject]
    exact placed.below object
      (objects.mem_iff.mpr (List.mem_append_right gone member))
  · intro id member
    rw [nextWatchId]
    exact placed.located id (locations member)
  · intro id calling
    rw [calls] at calling
    rw [nextWatchId]
    obtain ⟨belowNext, fresh⟩ := placed.calling id calling
    exact ⟨belowNext, fun member => fresh (locations member)⟩

theorem frame (placed : Placed system)
    (directories : next.watcher.dirWatchers = system.watcher.dirWatchers)
    (draining : next.watcher.draining = system.watcher.draining)
    (nextObject : next.nextObject = system.nextObject)
    (locations : next.watcher.watchLocations = system.watcher.watchLocations)
    (nextWatchId : next.watcher.nextWatchId = system.watcher.nextWatchId)
    (calls : next.calls = system.calls) : Placed next := by
  have objects : next.watcher.objects = system.watcher.objects := by
    rw [WinFileWatcher.objects, activeObjects, directories, draining]
    rfl
  have keysSame : next.watcher.watchLocations.keys =
      system.watcher.watchLocations.keys := congrArg keys locations
  have none : system.watcher.objects.Perm ([] ++ next.watcher.objects) :=
    List.Perm.of_eq objects.symm
  exact placed.of_perm (placed.tables.congr locations directories) none
    nextObject (fun _ member => keysSame ▸ member) nextWatchId calls

theorem callWatchFile (placed : Placed system)
    (toLowerKey : WString → WString) (canon : Path)
    (parentPath filename currentPath : WString) (callback : Callback) :
    Placed (system.callWatchFile toLowerKey canon parentPath filename
      currentPath callback).2 := by
  unfold WinWatcherSystem.callWatchFile
  split
  · exact placed
  · refine ⟨placed.tables.congr rfl rfl, placed.distinct, placed.below, ?_, ?_⟩
    · intro id member
      exact Nat.lt_succ_of_lt (placed.located id member)
    · intro id calling
      rcases (mem_keys_emplace _ _ _ _).mp calling with old | rfl
      · obtain ⟨below, fresh⟩ := placed.calling id old
        exact ⟨Nat.lt_succ_of_lt below, fresh⟩
      · refine ⟨Nat.lt_succ_self _, ?_⟩
        intro member
        exact Nat.lt_irrefl _ (placed.located _ member)

section Call

variable {id : WinWatchId} {call : PendingCall Path Callback}

/-- The call returns with its watch, or without. -/
theorem returned (placed : Placed system)
    (calling : system.calls.lookup id = some call)
    (tables : PlacedTables next.watcher) (distinct : next.watcher.objects.Nodup)
    (below : ∀ object ∈ next.watcher.objects, object < next.nextObject)
    (locations : ∀ other ∈ next.watcher.watchLocations.keys,
      other ∈ system.watcher.watchLocations.keys ∨ other = id)
    (nextWatchId : next.watcher.nextWatchId = system.watcher.nextWatchId)
    (calls : next.calls = system.calls.erase id) : Placed next := by
  obtain ⟨idBelow, _⟩ := placed.calling id (mem_keys_of_lookup calling)
  refine ⟨tables, distinct, below, ?_, ?_⟩
  · intro other member
    rw [nextWatchId]
    rcases locations other member with old | rfl
    · exact placed.located other old
    · exact idBelow
  · intro other otherCalling
    rw [calls, mem_keys_erase] at otherCalling
    obtain ⟨stillCalling, different⟩ := otherCalling
    obtain ⟨otherBelow, fresh⟩ := placed.calling other stillCalling
    refine ⟨nextWatchId ▸ otherBelow, ?_⟩
    intro member
    rcases locations other member with old | isCall
    · exact fresh old
    · exact different isCall

theorem watchFile (placed : Placed system)
    (calling : system.calls.lookup id = some call) (replies : SystemReplies) :
    Placed ((system.finishCall id).watchFile id call replies).2 := by
  obtain ⟨_, fresh⟩ := placed.calling id (mem_keys_of_lookup calling)
  unfold WinWatcherSystem.watchFile
  split
  · rename_i dir found
    have objects : (system.watcher.register id call dir).objects =
        system.watcher.objects :=
      congrArg (· ++ system.watcher.draining.keys)
        (activeObjects_register id found)
    refine placed.returned calling ?_ ?_ ?_ mem_locations_register rfl rfl
    · exact placed.tables.register fresh (placed.tables.full _ dir found)
        fun keyed => placed.tables.location_of_keyed found
    · exact objects ▸ placed.distinct
    · exact objects ▸ placed.below
  · rename_i missing
    split
    · exact placed.returned calling (placed.tables.congr rfl rfl)
        placed.distinct placed.below (fun _ => Or.inl) rfl rfl
    · rename_i dir opens
      obtain rfl := object_of_openDir opens
      dsimp only
      split
      · have objects := objects_registerOpened id missing
          { object := system.nextObject }
        refine placed.returned calling
          (placed.tables.registerOpened fresh missing _) ?_ ?_
            mem_locations_register rfl rfl
        · refine objects.nodup_iff.mpr (List.nodup_cons.mpr ⟨?_, placed.distinct⟩)
          intro member
          exact Nat.lt_irrefl _ (placed.below _ member)
        · intro object member
          rcases List.mem_cons.mp (objects.mem_iff.mp member) with rfl | old
          · exact Nat.lt_succ_self _
          · exact Nat.lt_succ_of_lt (placed.below object old)
      · have unchanged := unregister_registerOpened fresh missing
          { object := system.nextObject }
          (WinDirWatcher.add { object := system.nextObject } call.fileNameKey
            (call.entry id))
        refine placed.returned calling ?_ ?_ ?_ ?_ ?_ rfl
        all_goals
          dsimp only [registerOpened, finishCall]
          rw [unchanged]
        · exact placed.tables
        · exact placed.distinct
        · exact fun object member => Nat.lt_succ_of_lt (placed.below object member)
        · exact fun _ => Or.inl

end Call

theorem drain (placed : Placed system) : Placed system.drain := by
  have soFar := (DrainedSoFar.nothing placed.tables placed.distinct).foldl
    system.watcher.pendingUnwatches
  have objects : system.watcher.objects.Perm
      ([] ++ system.drain.watcher.objects) :=
    (objects_drainPendingUnwatches placed.distinct).symm
  refine placed.of_perm (soFar.placed.congr rfl rfl) objects rfl ?_
    (drainPendingUnwatches_frame system.watcher).2 rfl
  exact soFar.locations_subset

theorem retire (placed : Placed system) : Placed system.retire := by
  have objects : system.watcher.objects.Perm
      ([] ++ system.retire.watcher.objects) :=
    (objects_retireAll placed.distinct).symm
  refine placed.of_perm (PlacedTables.retireAll system.watcher) objects rfl ?_
    rfl rfl
  rintro id ⟨⟩

theorem takeOut (placed : Placed system) (object : Nat) :
    Placed (system.takeOut object) := by
  obtain ⟨locations, nextWatchId⟩ := takeOut_frame system.watcher object
  have tables : PlacedTables (system.takeOut object).watcher :=
    placed.tables.takeOut object
  have keysSame : (system.takeOut object).watcher.watchLocations.keys =
      system.watcher.watchLocations.keys := congrArg keys locations
  obtain ⟨gone, objects⟩ : ∃ gone, system.watcher.objects.Perm
      (gone ++ (system.takeOut object).watcher.objects) := by
    by_cases active : object ∈ system.watcher.activeObjects
    · exact ⟨[object], objects_takeOut active⟩
    · refine ⟨[], ?_⟩
      have missing := (findActive_eq_none_iff object).mpr active
      simp only [WinWatcherSystem.takeOut, armDeadline, WinFileWatcher.takeOut,
        missing]
      exact List.Perm.refl _
  exact placed.of_perm tables objects rfl (fun _ member => keysSame ▸ member)
    nextWatchId rfl

theorem lookUp (placed : Placed system) (object : Nat)
    (completion : ReadCompletion) : Placed (system.lookUp object completion) := by
  unfold WinWatcherSystem.lookUp
  split
  · rename_i dir found
    have erased := (perm_erase found).map Prod.fst
    have objects : system.watcher.objects.Perm ([object] ++
        WinFileWatcher.objects { system.watcher with
          draining := system.watcher.draining.erase object }) :=
      (erased.append_left system.watcher.activeObjects).trans List.perm_middle
    exact placed.of_perm (placed.tables.congr rfl rfl) objects rfl
      (fun _ member => member) rfl rfl
  · split <;> exact placed.frame rfl rfl rfl rfl rfl rfl

theorem step {toLowerKey : WString → WString} (placed : Placed system)
    {event : Event Path Callback}
    (stepped : WinWatcherSystem.step toLowerKey system event = some next) :
    Placed next := by
  cases moves_of_step stepped with
  | callWatchFile canon parentPath filename currentPath callback =>
      exact placed.callWatchFile toLowerKey canon parentPath filename currentPath
        callback
  | watchFile replies calling => exact placed.watchFile calling replies
  | drain => exact placed.drain
  | retire => exact placed.retire
  | @takeOut object => exact placed.takeOut object
  | @lookUp object completion => exact placed.lookUp object completion
  | checkShutdown =>
      unfold checkShutdown
      split <;> exact placed.frame rfl rfl rfl rfl rfl rfl
  | checkExit =>
      unfold checkExit
      split <;> exact placed.frame rfl rfl rfl rfl rfl rfl
  | @invoke callbacks =>
      cases callbacks <;> exact placed.frame rfl rfl rfl rfl rfl rfl
  | issueRead issued =>
      cases issued <;> exact placed.frame rfl rfl rfl rfl rfl rfl
  | clock =>
      unfold clock
      split <;> exact placed.frame rfl rfl rfl rfl rfl rfl
  | closeWatch | wake | flag | join | collect | fire | dequeueNothing
  | dequeueWake | dequeueRead | callbackThrows =>
      exact placed.frame rfl rfl rfl rfl rfl rfl

end Placed

/-- In each state of a run the drain unwatches exactly the pending watches. -/
theorem drainsExactly_of_run (toLowerKey : WString → WString)
    (events : List (Event Path Callback)) :
    Throughout (step toLowerKey) DrainsExactly {} events :=
  throughout_invariant
    (fun _ placed => drainsExactly_of_placed placed.tables placed.distinct)
    (fun _ _ _ placed stepped => placed.step stepped) Placed.initial events

end WinWatcherSystem

end Birch

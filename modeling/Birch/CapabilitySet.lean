import Birch.ChangeHistory
import Birch.EventRuns
import Birch.OctetClasses

/-!
# Capabilities

A set of capabilities by name, each with values by name.  The callers have
pointers to the capabilities.  A value that is there is not replaced by
`SetValue` or `EmplaceValue`.
-/

namespace Birch

open ChangeHistory LinkedHashMap

structure Capability where
  name : Text
  values : LinkedHashMap Text Text

namespace Capability

def create (name : Text) : Capability :=
  ⟨name, ∅⟩

def getName (capability : Capability) : Text :=
  capability.name

def setValue (capability : Capability) (name value : Text) : Capability :=
  { capability with values := capability.values.emplace name value }

/-- The strings are moved into the map. -/
def emplaceValue (capability : Capability) (name value : Text) : Capability :=
  { capability with values := capability.values.emplace name value }

def getValue (capability : Capability) (name : Text) : Option Text :=
  capability.values.lookup name

end Capability

/-- A capability and the address that `make_unique` has allocated it at. -/
structure UniqueCapability where
  object : Nat
  capability : Capability

structure CapabilitySet where
  caps : LinkedHashMap Text UniqueCapability := ∅

namespace CapabilitySet

def getSize (set : CapabilitySet) : Nat :=
  set.caps.entries.length

def hasCapability (set : CapabilitySet) (name : Text) : Bool :=
  decide (name ∈ set.caps.keys)

/-- The null pointer is `none`. -/
def find (set : CapabilitySet) (name : Text) : Option Nat :=
  (set.caps.lookup name).map UniqueCapability.object

/-- A new capability is at the address `object`.  The check that it has been
inserted ends the program if it fails. -/
def add (set : CapabilitySet) (name : Text) (object : Nat) :
    Option (CapabilitySet × Nat) :=
  match set.find name with
  | none =>
      if name ∈ set.caps.keys then
        none
      else
        some (⟨set.caps.emplace name ⟨object, .create name⟩⟩, object)
  | some result => some (set, result)

def revoke (set : CapabilitySet) (name : Text) : CapabilitySet :=
  ⟨set.caps.erase name⟩

/-- The entry of the capability that the pointer points to, if there is one. -/
def pointee (set : CapabilitySet) (object : Nat) :
    Option (Text × UniqueCapability) :=
  set.caps.entries.find? fun entry => entry.2.object = object

/-- A call on the capability at the address, if there is one. -/
def modify (set : CapabilitySet) (object : Nat)
    (call : Capability → Capability) : Option CapabilitySet :=
  (set.pointee object).map fun entry =>
    ⟨set.caps.assign entry.1 ⟨object, call entry.2.capability⟩⟩

def getValue (set : CapabilitySet) (object : Nat) (name : Text) :
    Option (Option Text) :=
  (set.pointee object).map fun entry => entry.2.capability.getValue name

end CapabilitySet

inductive CapabilityCall
  | add (name : Text)
  | revoke (name : Text)
  | setValue (object : Nat) (name value : Text)
  | emplaceValue (object : Nat) (name value : Text)
  deriving DecidableEq

namespace CapabilityCall

/-- What the call is to do to the set of names. -/
def change : CapabilityCall → Option (Change Text)
  | add name => some (.add name)
  | revoke name => some (.remove (· = name))
  | setValue _ _ _ => none
  | emplaceValue _ _ _ => none

/-- The capability that the call gives a value to, and the value. -/
def write : CapabilityCall → Option (Nat × Write Text Text)
  | add _ => none
  | revoke _ => none
  | setValue object name value => some (object, ⟨name, value, false⟩)
  | emplaceValue object name value => some (object, ⟨name, value, false⟩)

end CapabilityCall

/-- A set and the calls that were made to it and to its capabilities.  No two
capabilities are ever allocated at one address. -/
structure CapabilityStore where
  set : CapabilitySet := {}
  nextObject : Nat := 0
  calls : List CapabilityCall := []

namespace CapabilityStore

/-- A call through a pointer to a capability that is gone is undefined. -/
def step (store : CapabilityStore) (call : CapabilityCall) :
    Option CapabilityStore :=
  match call with
  | .add name =>
      (store.set.add name store.nextObject).map fun added =>
        ⟨added.1, store.nextObject + 1, store.calls ++ [call]⟩
  | .revoke name =>
      some { store with
        set := store.set.revoke name
        calls := store.calls ++ [call] }
  | .setValue object name value =>
      (store.set.modify object fun capability =>
        capability.setValue name value).map fun set =>
          { store with set, calls := store.calls ++ [call] }
  | .emplaceValue object name value =>
      (store.set.modify object fun capability =>
        capability.emplaceValue name value).map fun set =>
          { store with set, calls := store.calls ++ [call] }

/-- The names that were added and not revoked since. -/
def names (store : CapabilityStore) : List Text :=
  remaining (store.calls.filterMap CapabilityCall.change)

/-- The values that were given to a capability, in the order of the calls. -/
def writesTo (store : CapabilityStore) (object : Nat) :
    List (Write Text Text) :=
  ((store.calls.filterMap CapabilityCall.write).filter
    fun written => written.1 = object).map Prod.snd

/-- The set is a map from the names that were added and not revoked since to
maps in which the last value of a name stays. -/
structure RefinesMaps (store : CapabilityStore) : Prop where
  hasCapability : ∀ name,
    store.set.hasCapability name = true ↔ name ∈ store.names
  find : ∀ name, (store.set.find name).isSome = true ↔ name ∈ store.names
  getSize : store.set.getSize = store.names.dedup.length
  keepsPresent : ∀ name object, store.set.find name = some object →
    ∀ fresh, store.set.add name fresh = some (store.set, object)
  startsEmpty : ∀ name, name ∉ store.names →
    ∃ set, store.set.add name store.nextObject = some (set, store.nextObject) ∧
      ∀ key, set.getValue store.nextObject key = some none
  getValue : ∀ name object, store.set.find name = some object → ∀ key,
    store.set.getValue object key =
      some (lastWritten (store.writesTo object) key)

/-- A name of the capability that has a value is only given that value. -/
def GivesSameValue (store : CapabilityStore) (call : CapabilityCall) : Prop :=
  ∀ object entry, call.write = some (object, entry) →
    ∀ old, store.set.getValue object entry.key = some (some old) →
      old = entry.value

/-! ## One call -/

/-- What a call can do. -/
inductive Moves (store : CapabilityStore) :
    CapabilityCall → CapabilityStore → Prop
  | addPresent {name : Text} {object : Nat}
      (found : store.set.find name = some object) :
      Moves store (.add name)
        ⟨store.set, store.nextObject + 1, store.calls ++ [.add name]⟩
  | addAbsent {name : Text} (absent : name ∉ store.set.caps.keys) :
      Moves store (.add name)
        ⟨⟨store.set.caps.emplace name ⟨store.nextObject, .create name⟩⟩,
          store.nextObject + 1, store.calls ++ [.add name]⟩
  | revoke (name : Text) :
      Moves store (.revoke name)
        ⟨store.set.revoke name, store.nextObject,
          store.calls ++ [.revoke name]⟩
  | write {call : CapabilityCall} {object : Nat} {entry : Write Text Text}
      {name : Text} {owned : UniqueCapability}
      (written : call.write = some (object, entry))
      (found : store.set.pointee object = some (name, owned)) :
      Moves store call
        ⟨⟨store.set.caps.assign name
            ⟨object, owned.capability.setValue entry.key entry.value⟩⟩,
          store.nextObject, store.calls ++ [call]⟩

theorem find_eq_none_iff (set : CapabilitySet) (name : Text) :
    set.find name = none ↔ name ∉ set.caps.keys := by
  rw [CapabilitySet.find, Option.map_eq_none_iff, lookup_eq_none_iff]

/-- The check of `Add` never fails. -/
theorem add_of_absent {set : CapabilitySet} {name : Text}
    (absent : name ∉ set.caps.keys) (object : Nat) :
    set.add name object =
      some (⟨set.caps.emplace name ⟨object, .create name⟩⟩, object) := by
  rw [CapabilitySet.add, (find_eq_none_iff set name).mpr absent]
  exact if_neg absent

theorem add_of_found {set : CapabilitySet} {name : Text} {object : Nat}
    (found : set.find name = some object) (fresh : Nat) :
    set.add name fresh = some (set, object) := by
  rw [CapabilitySet.add, found]

theorem modify_cases {set next : CapabilitySet} {object : Nat}
    {call : Capability → Capability}
    (modified : set.modify object call = some next) :
    ∃ name owned, set.pointee object = some (name, owned) ∧
      next = ⟨set.caps.assign name ⟨object, call owned.capability⟩⟩ := by
  obtain ⟨entry, found, rfl⟩ := Option.map_eq_some_iff.mp modified
  exact ⟨entry.1, entry.2, found, rfl⟩

theorem moves_of_step {store next : CapabilityStore} {call : CapabilityCall}
    (stepped : store.step call = some next) : Moves store call next := by
  cases call with
  | add name =>
      obtain ⟨added, addEq, rfl⟩ := Option.map_eq_some_iff.mp stepped
      cases found : store.set.find name with
      | none =>
          have absent := (find_eq_none_iff store.set name).mp found
          rw [add_of_absent absent, Option.some.injEq] at addEq
          exact addEq ▸ .addAbsent absent
      | some object =>
          rw [add_of_found found, Option.some.injEq] at addEq
          exact addEq ▸ .addPresent found
  | revoke name =>
      cases stepped
      exact .revoke name
  | setValue object name value =>
      obtain ⟨set, modified, rfl⟩ := Option.map_eq_some_iff.mp stepped
      obtain ⟨owner, owned, found, rfl⟩ := modify_cases modified
      have written : (CapabilityCall.setValue object name value).write =
        some (object, ⟨name, value, false⟩) := rfl
      exact .write written found
  | emplaceValue object name value =>
      obtain ⟨set, modified, rfl⟩ := Option.map_eq_some_iff.mp stepped
      obtain ⟨owner, owned, found, rfl⟩ := modify_cases modified
      have written : (CapabilityCall.emplaceValue object name value).write =
        some (object, ⟨name, value, false⟩) := rfl
      exact .write written found

/-- A call through a pointer to a capability that is there can be made. -/
theorem step_of_write {store : CapabilityStore} {call : CapabilityCall}
    {object : Nat} {entry : Write Text Text}
    (written : call.write = some (object, entry)) {name : Text}
    {owned : UniqueCapability}
    (found : store.set.pointee object = some (name, owned)) :
    ∃ next, store.step call = some next := by
  cases call with
  | add other => cases written
  | revoke other => cases written
  | setValue callee key value =>
      cases written
      exact ⟨_, by rw [step, CapabilitySet.modify, found]; rfl⟩
  | emplaceValue callee key value =>
      cases written
      exact ⟨_, by rw [step, CapabilitySet.modify, found]; rfl⟩

theorem change_of_write {call : CapabilityCall} {object : Nat}
    {entry : Write Text Text} (written : call.write = some (object, entry)) :
    call.change = none ∧ entry.assigns = false := by
  cases call <;> cases written <;> exact ⟨rfl, rfl⟩

/-! ## What the calls keep -/

/-- The values that a call gives to a capability. -/
def gives (call : CapabilityCall) (object : Nat) : List (Write Text Text) :=
  match call.write with
  | none => []
  | some written => if written.1 = object then [written.2] else []

theorem gives_of_write {call : CapabilityCall} {object : Nat}
    {entry : Write Text Text} (written : call.write = some (object, entry)) :
    gives call object = [entry] := by
  simp [gives, written]

theorem gives_of_ne {call : CapabilityCall} {object other : Nat}
    {entry : Write Text Text} (written : call.write = some (object, entry))
    (different : object ≠ other) : gives call other = [] := by
  simp [gives, written, different]

theorem gives_cases (call : CapabilityCall) (object : Nat) :
    gives call object = [] ∨
      ∃ entry, call.write = some (object, entry) ∧
        gives call object = [entry] := by
  cases written : call.write with
  | none => exact Or.inl (by rw [gives, written])
  | some callee =>
      by_cases toObject : callee.1 = object
      · subst toObject
        exact Or.inr ⟨callee.2, rfl, gives_of_write written⟩
      · exact Or.inl (gives_of_ne written toObject)

theorem Moves.writesTo {store next : CapabilityStore} {call : CapabilityCall}
    (moved : Moves store call next) (object : Nat) :
    next.writesTo object = store.writesTo object ++ gives call object := by
  have callsEq : next.calls = store.calls ++ [call] := by
    cases moved <;> rfl
  unfold CapabilityStore.writesTo gives
  rw [callsEq, List.filterMap_append, List.filter_append, List.map_append]
  cases written : call.write with
  | none => rw [List.filterMap_cons_none written]; rfl
  | some entry =>
      rw [List.filterMap_cons_some written]
      by_cases toObject : entry.1 = object <;> simp [toObject]

/-- Each capability is under its name and at an address of its own, and has the
values that were emplaced in it. -/
structure Describes (store : CapabilityStore) : Prop where
  tracks : Tracks store.set.caps (store.calls.filterMap CapabilityCall.change)
  named : ∀ name owned, store.set.caps.lookup name = some owned →
    owned.capability.getName = name
  apart : ∀ first second firstCap secondCap,
    store.set.caps.lookup first = some firstCap →
      store.set.caps.lookup second = some secondCap →
        firstCap.object = secondCap.object → first = second
  allocated : ∀ name owned, store.set.caps.lookup name = some owned →
    owned.object < store.nextObject
  unwritten : ∀ object, store.nextObject ≤ object → store.writesTo object = []
  values : ∀ name owned, store.set.caps.lookup name = some owned →
    owned.capability.values = writeAll ∅ (store.writesTo owned.object)

theorem lookup_of_pointee {set : CapabilitySet} {object : Nat} {name : Text}
    {owned : UniqueCapability}
    (found : set.pointee object = some (name, owned)) :
    set.caps.lookup name = some owned ∧ owned.object = object := by
  constructor
  · exact (lookup_eq_some_iff set.caps name owned).mpr
      (List.mem_of_find?_eq_some found)
  · simpa using List.find?_some found

namespace Describes

variable {store next : CapabilityStore} (describes : Describes store)

include describes

theorem pointee_of_lookup {name : Text} {owned : UniqueCapability}
    (found : store.set.caps.lookup name = some owned) :
    store.set.pointee owned.object = some (name, owned) := by
  cases pointed : store.set.pointee owned.object with
  | none =>
      have member := (lookup_eq_some_iff store.set.caps name owned).mp found
      have other := List.find?_eq_none.mp pointed _ member
      simp at other
  | some entry =>
      obtain ⟨otherName, other⟩ := entry
      obtain ⟨otherFound, sameObject⟩ := lookup_of_pointee pointed
      have sameName := describes.apart _ _ _ _ otherFound found sameObject
      rw [sameName, found, Option.some.injEq] at otherFound
      rw [sameName, otherFound]

theorem getValue_of_lookup {name : Text} {owned : UniqueCapability}
    (found : store.set.caps.lookup name = some owned) (key : Text) :
    store.set.getValue owned.object key =
      some (lastStanding (store.writesTo owned.object) key) := by
  rw [CapabilitySet.getValue, describes.pointee_of_lookup found,
    Option.map_some, Capability.getValue, describes.values name owned found,
    lookup_writeAll]

/-- Where a capability comes from that is there after a call. -/
inductive CameFrom (store next : CapabilityStore) (call : CapabilityCall)
    (name : Text) (owned : UniqueCapability) : Prop
  | added (isAdd : call = .add name)
      (isNew : owned = ⟨store.nextObject, .create name⟩)
      (allocated : store.nextObject < next.nextObject)
  | kept (old : UniqueCapability)
      (there : store.set.caps.lookup name = some old)
      (object : old.object = owned.object)
      (named : owned.capability.getName = old.capability.getName)
      (values : owned.capability.values =
        old.capability.values.writeAll (gives call owned.object))

theorem cameFrom {call : CapabilityCall} (moved : Moves store call next)
    {name : Text} {owned : UniqueCapability}
    (found : next.set.caps.lookup name = some owned) :
    CameFrom store next call name owned := by
  cases moved with
  | addPresent present => exact .kept owned found rfl rfl rfl
  | addAbsent absent =>
      rw [lookup_emplace] at found
      split at found
      · rename_i atName
        obtain ⟨rfl, _⟩ := atName
        exact .added rfl (Option.some.inj found).symm (Nat.lt_succ_self _)
      · exact .kept owned found rfl rfl rfl
  | revoke revoked =>
      rw [CapabilitySet.revoke, lookup_erase] at found
      split at found
      · cases found
      · exact .kept owned found rfl rfl rfl
  | @write call object entry callee old written pointed =>
      obtain ⟨there, rfl⟩ := lookup_of_pointee pointed
      rw [lookup_assign] at found
      split at found
      · rename_i same
        subst same
        cases found
        refine .kept old there rfl rfl ?_
        rw [gives_of_write written, writeAll, List.foldl_cons, List.foldl_nil,
          LinkedHashMap.write, (change_of_write written).2]
        rfl
      · rename_i different
        refine .kept owned found rfl rfl ?_
        have apart : old.object ≠ owned.object := by
          intro same
          exact different (describes.apart _ _ _ _ found there same.symm)
        rw [gives_of_ne written apart]
        rfl

/-- Nothing is written to what is not allocated. -/
theorem gives_unallocated {call : CapabilityCall}
    (moved : Moves store call next) {object : Nat}
    (above : store.nextObject ≤ object) : gives call object = [] := by
  cases moved with
  | addPresent present => rfl
  | addAbsent absent => rfl
  | revoke name => rfl
  | write written pointed =>
      obtain ⟨there, rfl⟩ := lookup_of_pointee pointed
      apply gives_of_ne written
      exact ne_of_lt (lt_of_lt_of_le (describes.allocated _ _ there) above)

theorem tracksNames {call : CapabilityCall} (moved : Moves store call next) :
    Tracks next.set.caps (next.calls.filterMap CapabilityCall.change) := by
  cases moved with
  | @addPresent name object found =>
      rw [List.filterMap_append]
      apply describes.tracks.add_of_mem
      by_contra absent
      rw [(find_eq_none_iff store.set name).mpr absent] at found
      cases found
  | addAbsent absent =>
      rw [List.filterMap_append]
      exact describes.tracks.emplace _ _
  | revoke name =>
      rw [List.filterMap_append]
      exact describes.tracks.erase name
  | write written pointed =>
      have there := (lookup_of_pointee pointed).1
      rw [List.filterMap_append,
        List.filterMap_cons_none (change_of_write written).1,
        List.filterMap_nil, List.append_nil]
      exact describes.tracks.assign_of_mem (mem_keys_of_lookup there) _

theorem moves {call : CapabilityCall} (moved : Moves store call next) :
    Describes next := by
  have nextObject : store.nextObject ≤ next.nextObject := by
    cases moved with
    | addPresent found => exact Nat.le_succ _
    | addAbsent absent => exact Nat.le_succ _
    | revoke name => exact le_rfl
    | write written pointed => exact le_rfl
  refine ⟨describes.tracksNames moved, ?_, ?_, ?_, ?_, ?_⟩
  · intro name owned found
    rcases describes.cameFrom moved found with
      ⟨_, rfl, _⟩ | ⟨old, there, _, named, _⟩
    · rfl
    · rw [named]
      exact describes.named name old there
  · intro first second firstCap secondCap foundFirst foundSecond same
    rcases describes.cameFrom moved foundFirst with
      ⟨addsFirst, rfl, _⟩ | ⟨oldFirst, thereFirst, objectFirst, _, _⟩
    · rcases describes.cameFrom moved foundSecond with
        ⟨addsSecond, _, _⟩ | ⟨oldSecond, thereSecond, objectSecond, _, _⟩
      · exact CapabilityCall.add.inj (addsFirst.symm.trans addsSecond)
      · have below := describes.allocated _ _ thereSecond
        rw [objectSecond, ← same] at below
        exact absurd below (lt_irrefl _)
    · rcases describes.cameFrom moved foundSecond with
        ⟨_, rfl, _⟩ | ⟨oldSecond, thereSecond, objectSecond, _, _⟩
      · have below := describes.allocated _ _ thereFirst
        rw [objectFirst, same] at below
        exact absurd below (lt_irrefl _)
      · apply describes.apart first second _ _ thereFirst thereSecond
        rw [objectFirst, objectSecond, same]
  · intro name owned found
    rcases describes.cameFrom moved found with
      ⟨_, rfl, allocated⟩ | ⟨old, there, object, _, _⟩
    · exact allocated
    · rw [← object]
      exact lt_of_lt_of_le (describes.allocated name old there) nextObject
  · intro object above
    have aboveHere := le_trans nextObject above
    rw [moved.writesTo, describes.unwritten object aboveHere,
      describes.gives_unallocated moved aboveHere]
    rfl
  · intro name owned found
    rw [moved.writesTo]
    rcases describes.cameFrom moved found with
      ⟨_, rfl, _⟩ | ⟨old, there, object, _, values⟩
    · rw [describes.unwritten _ le_rfl,
        describes.gives_unallocated moved le_rfl]
      rfl
    · rw [values, describes.values name old there, object, writeAll_append]

end Describes

/-! ## The last value of a name -/

/-- Each name has the last value that it was given. -/
def LastValueStands (store : CapabilityStore) : Prop :=
  ∀ name owned, store.set.caps.lookup name = some owned → ∀ key,
    lastStanding (store.writesTo owned.object) key =
      lastWritten (store.writesTo owned.object) key

theorem find_eq_some {set : CapabilitySet} {name : Text} {object : Nat}
    (found : set.find name = some object) :
    ∃ owned, set.caps.lookup name = some owned ∧ owned.object = object :=
  Option.map_eq_some_iff.mp found

theorem find_of_lookup {set : CapabilitySet} {name : Text}
    {owned : UniqueCapability} (found : set.caps.lookup name = some owned) :
    set.find name = some owned.object := by
  rw [CapabilitySet.find, found]
  rfl

/-- All but the values of the names is always as it is to be. -/
theorem refinesMaps_iff_lastValueStands {store : CapabilityStore}
    (describes : Describes store) :
    RefinesMaps store ↔ LastValueStands store := by
  constructor
  · intro refines name owned found key
    have value := refines.getValue name owned.object (find_of_lookup found) key
    rw [describes.getValue_of_lookup found, Option.some.injEq] at value
    exact value
  · intro lastStands
    refine ⟨?_, ?_, describes.tracks.length_entries, ?_, ?_, ?_⟩
    · intro name
      rw [CapabilitySet.hasCapability, decide_eq_true_iff]
      exact describes.tracks name
    · intro name
      have known : name ∈ store.set.caps.keys ↔ name ∈ store.names :=
        describes.tracks name
      rw [← known, ← not_iff_not, ← find_eq_none_iff]
      simp
    · intro name object found fresh
      exact add_of_found found fresh
    · intro name absent
      have notThere := mt (describes.tracks name).mp absent
      refine ⟨_, add_of_absent notThere store.nextObject, ?_⟩
      intro key
      have added := describes.moves (.addAbsent notThere)
      have there : (store.set.caps.emplace name
          ⟨store.nextObject, .create name⟩).lookup name =
            some ⟨store.nextObject, .create name⟩ := by
        simp [lookup_emplace, notThere]
      rw [CapabilitySet.getValue, added.pointee_of_lookup there]
      rfl
    · intro name object found key
      obtain ⟨owned, there, rfl⟩ := find_eq_some found
      rw [describes.getValue_of_lookup there, lastStands name owned there]

theorem exists_lastStanding {writes : List (Write Text Text)} {key : Text}
    (written : key ∈ writes.map Write.key) :
    ∃ value, lastStanding writes key = some value := by
  rw [← lookup_writeAll]
  exact exists_lookup_of_mem_keys ((mem_keys_writeAll writes key).mpr written)

theorem lastValueStands_of_moves {store next : CapabilityStore}
    {call : CapabilityCall} (describes : Describes store)
    (lastStands : LastValueStands store) (same : GivesSameValue store call)
    (moved : Moves store call next) : LastValueStands next := by
  intro name owned found key
  rw [moved.writesTo]
  rcases describes.cameFrom moved found with
    ⟨_, rfl, _⟩ | ⟨old, there, sameObject, _, _⟩
  · rw [describes.unwritten _ le_rfl, describes.gives_unallocated moved le_rfl]
    rfl
  · rw [← sameObject]
    have before := lastStands name old there key
    rcases gives_cases call old.object with none | ⟨entry, written, one⟩
    · rw [none, List.append_nil]
      exact before
    · have emplaces := (change_of_write written).2
      rw [one, lastStanding_concat, lastWritten_concat, emplaces, before]
      by_cases atKey : key = entry.key
      · rw [if_pos atKey]
        split
        · rfl
        · rename_i seen
          have earlier : key ∈ (store.writesTo old.object).map Write.key := by
            simpa [atKey] using seen
          obtain ⟨value, valueEq⟩ := exists_lastStanding earlier
          have atOld := describes.getValue_of_lookup there key
          rw [valueEq, atKey] at atOld
          rw [← before, valueEq, same old.object entry written value atOld]
      · rw [if_neg atKey, if_neg fun both => atKey both.1]

/-- Where a name that has a value is given another one, the capability is left
with the old value. -/
theorem lost_of_otherValue {store : CapabilityStore} {call : CapabilityCall}
    (describes : Describes store) (other : ¬ GivesSameValue store call) :
    ∃ next, store.step call = some next ∧ ¬ RefinesMaps next := by
  simp only [GivesSameValue, not_forall] at other
  obtain ⟨object, entry, written, old, atOld, different⟩ := other
  obtain ⟨⟨name, owned⟩, pointed, oldEq⟩ := Option.map_eq_some_iff.mp atOld
  obtain ⟨next, stepped⟩ := step_of_write written pointed
  refine ⟨next, stepped, ?_⟩
  intro refines
  have moved := moves_of_step stepped
  have lastStands :=
    (refinesMaps_iff_lastValueStands (describes.moves moved)).mp refines
  obtain ⟨there, rfl⟩ := lookup_of_pointee pointed
  have seen : entry.key ∈ (store.writesTo owned.object).map Write.key := by
    rw [← mem_keys_writeAll, ← describes.values name owned there]
    exact mem_keys_of_lookup oldEq
  have kept : lastStanding (store.writesTo owned.object) entry.key =
      some old := by
    rw [← lookup_writeAll, ← describes.values name owned there]
    exact oldEq
  have found : next.set.caps.lookup name = some
      ⟨owned.object, owned.capability.setValue entry.key entry.value⟩ := by
    cases moved with
    | addPresent found => cases written
    | addAbsent absent => cases written
    | revoke revoked => cases written
    | write writes found =>
        rw [written, Option.some.injEq, Prod.mk.injEq] at writes
        obtain ⟨rfl, rfl⟩ := writes
        rw [pointed, Option.some.injEq, Prod.mk.injEq] at found
        obtain ⟨rfl, rfl⟩ := found
        rw [lookup_assign, if_pos rfl]
  have last := lastStands name _ found entry.key
  have emplaces := (change_of_write written).2
  rw [moved.writesTo, gives_of_write written, lastStanding_concat,
    lastWritten_concat, if_pos rfl, emplaces, if_neg (by simpa using seen), kept,
    Option.some.injEq] at last
  exact different last

/-- The set is a map of maps in which the last value stays, in each state of a
run, exactly if no name that has a value is given another one. -/
theorem refinesMaps_iff_givesSameValue (calls : List CapabilityCall) :
    EventRuns.Throughout step RefinesMaps {} calls ↔
      EventRuns.EachStep step GivesSameValue {} calls := by
  have start : Describes {} := by
    refine ⟨Tracks.empty, ?_, ?_, ?_, fun _ _ => rfl, ?_⟩
    · intro name owned found
      cases found
    · intro first second firstCap secondCap found
      cases found
    · intro name owned found
      cases found
    · intro name owned found
      cases found
  apply EventRuns.throughout_iff_eachStep
    fun store => Describes store ∧ LastValueStands store
  · rintro store ⟨describes, lastStands⟩
    exact (refinesMaps_iff_lastValueStands describes).mpr lastStands
  · rintro store call next ⟨describes, lastStands⟩ same stepped
    have moved := moves_of_step stepped
    exact ⟨describes.moves moved,
      lastValueStands_of_moves describes lastStands same moved⟩
  · rintro store call ⟨describes, _⟩ other
    exact lost_of_otherValue describes other
  · refine ⟨start, ?_⟩
    intro name owned found
    cases found

/-- A capability with a value that is set twice. -/
def valueSetTwice : List CapabilityCall :=
  [.add [0x63], .setValue 0 [0x6B] [0x31], .setValue 0 [0x6B] [0x32]]

/-- The second value of a name is not taken. -/
theorem secondValue_notTaken :
    ∃ store, EventRuns.run step {} valueSetTwice = some store ∧
      store.set.getValue 0 [0x6B] = some (some [0x31]) ∧
        ¬ RefinesMaps store := by
  refine ⟨_, rfl, rfl, ?_⟩
  intro refines
  have value := refines.getValue [0x63] 0 rfl [0x6B]
  revert value
  decide

end CapabilityStore

end Birch

import Birch.OctetClasses
import Mathlib.Data.List.Nodup

/-!
# Configuration values

A parsed TOML document is converted into values, which drops what has no
counterpart among them, and values are then looked up by their path.  This
file proves that a lookup in the converted document finds exactly what is at
the path in the document itself.
-/

namespace Birch

/-- The segments of a `ConfigPath`. -/
abbrev ConfigPath := List Text

namespace Toml

/-- A `toml::node`.  Floating-point numbers are carried as their bits, and of
dates and times nothing is read. -/
inductive Node
  | array (elements : List Node)
  | table (entries : List (Text × Node))
  | string (value : Text)
  | integer (value : Int64)
  | floatingPoint (bits : UInt64)
  | boolean (value : Bool)
  | date
  | time
  | dateTime

/-- The node at a path through nested tables. -/
def Node.at? : Node → ConfigPath → Option Node
  | node, [] => some node
  | .table entries, segment :: path =>
      match entries.lookup segment with
      | some node => node.at? path
      | none => none
  | _, _ :: _ => none

mutual

/-- Each table in the node has distinct keys, as a `toml::table` has. -/
def Node.distinctKeys : Node → Bool
  | .array elements => distinctKeysElements elements
  | .table entries =>
      decide (entries.map Prod.fst).Nodup && distinctKeysEntries entries
  | _ => true

def distinctKeysElements : List Node → Bool
  | [] => true
  | element :: rest => element.distinctKeys && distinctKeysElements rest

def distinctKeysEntries : List (Text × Node) → Bool
  | [] => true
  | (_, node) :: rest => node.distinctKeys && distinctKeysEntries rest

end

/-- What `toml::parse` yields, a table. -/
structure Document where
  entries : List (Text × Node)
  distinct : (Node.table entries).distinctKeys = true

def Document.root (document : Document) : Node :=
  .table document.entries

end Toml

/-- A `TomlValue`. -/
inductive TomlValue
  | bool (value : Bool)
  | int64 (value : Int64)
  | double (bits : UInt64)
  | string (value : Text)
  | list (values : List TomlValue)
  | map (values : List (Text × TomlValue))

mutual

/-- `TomlValue::Create`, with `NodeToVariant`. -/
def TomlValue.create : Toml.Node → Option TomlValue
  | .array elements => some (.list (tomlListCreate elements))
  | .table entries => some (.map (tomlMapCreate entries))
  | .string value => some (.string value)
  | .integer value => some (.int64 value)
  | .floatingPoint bits => some (.double bits)
  | .boolean value => some (.bool value)
  | .date | .time | .dateTime => none

/-- `TomlList::Create`. -/
def tomlListCreate : List Toml.Node → List TomlValue
  | [] => []
  | element :: rest =>
      match TomlValue.create element with
      | some value => value :: tomlListCreate rest
      | none => tomlListCreate rest

/-- `TomlMap::Create`. -/
def tomlMapCreate : List (Text × Toml.Node) → List (Text × TomlValue)
  | [] => []
  | (key, node) :: rest =>
      match TomlValue.create node with
      | some value => (key, value) :: tomlMapCreate rest
      | none => tomlMapCreate rest

end

namespace TomlValue

def asInt64 : TomlValue → Option Int64
  | .int64 value => some value
  | _ => none

def asArray : TomlValue → Option (List TomlValue)
  | .list values => some values
  | _ => none

def asMap : TomlValue → Option (List (Text × TomlValue))
  | .map values => some values
  | _ => none

end TomlValue

/-- `TomlMap::Get`. -/
def tomlMapGet (values : List (Text × TomlValue)) (key : Text) :
    Option TomlValue :=
  values.lookup key

/-- `Dig`, from a value on. -/
def digFrom : TomlValue → ConfigPath → Option TomlValue
  | value, [] => some value
  | value, segment :: path =>
      match value.asMap with
      | none => none
      | some map =>
          match tomlMapGet map segment with
          | none => none
          | some next => digFrom next path

def dig (value : Option TomlValue) (path : ConfigPath) : Option TomlValue :=
  match value with
  | none => none
  | some value => digFrom value path

/-- The value of a document at a path, where there is one of a supported
type. -/
def Toml.Document.valueAt (document : Toml.Document) (path : ConfigPath) :
    Option TomlValue :=
  (document.root.at? path).bind TomlValue.create

/-! ## Looking up what was converted -/

/-- A key with an unsupported value is not in the map. -/
theorem lookup_tomlMapCreate {entries : List (Text × Toml.Node)}
    (nodup : (entries.map Prod.fst).Nodup) (key : Text) :
    (tomlMapCreate entries).lookup key =
      (entries.lookup key).bind TomlValue.create := by
  induction entries with
  | nil => rfl
  | cons entry rest ih =>
      obtain ⟨first, node⟩ := entry
      rw [List.map_cons, List.nodup_cons] at nodup
      have later := ih nodup.2
      rw [tomlMapCreate, List.lookup_cons]
      by_cases same : key = first
      · subst same
        have notLater : rest.lookup key = none := by
          rw [List.lookup_eq_none_iff]
          intro entry member
          have differ : key ≠ entry.1 := fun equal =>
            nodup.1 (List.mem_map.mpr ⟨entry, member, equal.symm⟩)
          simpa using differ
        rw [notLater] at later
        rcases converted : TomlValue.create node with _ | value
        · simpa [converted] using later
        · simp [converted]
      · have differ : (key == first) = false := by simpa using same
        rcases TomlValue.create node with _ | value
        · simpa [differ] using later
        · simpa [List.lookup_cons, differ] using later

theorem distinctKeys_of_lookup {entries : List (Text × Toml.Node)}
    (distinct : Toml.distinctKeysEntries entries = true) {key : Text}
    {node : Toml.Node} (found : entries.lookup key = some node) :
    node.distinctKeys = true := by
  induction entries with
  | nil => cases found
  | cons entry rest ih =>
      obtain ⟨first, firstNode⟩ := entry
      rw [Toml.distinctKeysEntries, Bool.and_eq_true] at distinct
      rw [List.lookup_cons] at found
      split at found
      · obtain rfl := Option.some.inj found
        exact distinct.1
      · exact ih distinct.2 found

/-- By induction on the path: `Dig` goes through the converted tables as the
path goes through the tables. -/
theorem dig_create {node : Toml.Node} (distinct : node.distinctKeys = true)
    (path : ConfigPath) :
    dig (TomlValue.create node) path =
      (node.at? path).bind TomlValue.create := by
  induction path generalizing node with
  | nil =>
      rw [Toml.Node.at?, Option.bind_some]
      rcases TomlValue.create node <;> rfl
  | cons segment path ih =>
      cases node with
      | table entries =>
          rw [Toml.Node.distinctKeys, Bool.and_eq_true,
            decide_eq_true_eq] at distinct
          have found := lookup_tomlMapCreate distinct.1 segment
          rw [Toml.Node.at?]
          simp only [TomlValue.create, dig, digFrom, TomlValue.asMap,
            tomlMapGet, found]
          rcases reached : entries.lookup segment with _ | next
          · rfl
          · have later := ih (distinctKeys_of_lookup distinct.2 reached)
            simp only [Option.bind_some, ← later]
            rcases TomlValue.create next <;> rfl
      | _ => rfl

/-- A document is looked up by digging into its converted root. -/
theorem dig_root (document : Toml.Document) (path : ConfigPath) :
    dig (TomlValue.create document.root) path = document.valueAt path :=
  dig_create document.distinct path

end Birch

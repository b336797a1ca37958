import Birch.TomlValue

/-!
# Dotted paths

A `ConfigPath` is read from a string by splitting it at its dots, and written
by joining its segments with dots.  This file relates the two, and shows that
paths compose: as strings, as lists of segments, and as lookups.
-/

namespace Birch

open Octet

namespace ConfigPath

/-- The constructor for a `std::string_view`, with `absl::StrSplit`.  The empty
string has one segment, which is empty. -/
def ofString (dottedPath : Text) : ConfigPath :=
  dottedPath.splitOn dot

def toString (path : ConfigPath) : Text :=
  [dot].intercalate path

/-- The default constructor. -/
def empty : ConfigPath := []

def append (path other : ConfigPath) : ConfigPath :=
  path ++ other

/-! ## Composition -/

theorem ofString_concat (first second : Text) :
    ofString (first ++ [dot] ++ second) =
      append (ofString first) (ofString second) := by
  rw [List.append_assoc, List.singleton_append]
  exact List.splitOn_append_cons_self first second

theorem append_assoc (first second third : ConfigPath) :
    append (append first second) third = append first (append second third) :=
  List.append_assoc first second third

theorem append_empty (path : ConfigPath) : append path empty = path :=
  List.append_nil path

theorem empty_append (path : ConfigPath) : append empty path = path :=
  rfl

/-- By induction on the first path, from any value on. -/
theorem digFrom_append (value : TomlValue) (first second : ConfigPath) :
    digFrom value (append first second) = dig (digFrom value first) second := by
  induction first generalizing value with
  | nil => rfl
  | cons segment first ih =>
      rw [append, List.cons_append, digFrom, digFrom]
      rcases value.asMap with _ | map
      · rfl
      · dsimp only
        rcases tomlMapGet map segment with _ | next
        · rfl
        · exact ih next

theorem dig_append (value : Option TomlValue) (first second : ConfigPath) :
    dig value (append first second) = dig (dig value first) second := by
  cases value with
  | none => rfl
  | some value => exact digFrom_append value first second

/-- Paths compose, and looking up a composed path looks up one path after the
other. -/
theorem navigation_compositional (a b : Text) (p q r : ConfigPath)
    (value : Option TomlValue) :
    ofString (a ++ [dot] ++ b) = append (ofString a) (ofString b) ∧
      append (append p q) r = append p (append q r) ∧
      append p empty = p ∧ append empty p = p ∧
      dig value (append p q) = dig (dig value p) q ∧ dig none p = none :=
  ⟨ofString_concat a b, append_assoc p q r, append_empty p, empty_append p,
    dig_append value p q, rfl⟩

/-! ## Reading and writing -/

theorem toString_ofString (dottedPath : Text) :
    toString (ofString dottedPath) = dottedPath :=
  List.intercalate_splitOn dot

/-- No string stands for the root. -/
theorem ofString_ne_empty (dottedPath : Text) : ofString dottedPath ≠ empty :=
  List.splitOn_ne_nil dot dottedPath

theorem ofString_toString {path : ConfigPath}
    (plain : ∀ segment ∈ path, dot ∉ segment) (notRoot : path ≠ empty) :
    ofString (toString path) = path :=
  List.splitOn_intercalate dot plain notRoot

/-- A string is written as it was read, and a path without dots in its segments
is read as it was written exactly if it is not the root. -/
theorem readsBack_iff (dottedPath : Text) (path : ConfigPath)
    (plain : ∀ segment ∈ path, dot ∉ segment) :
    toString (ofString dottedPath) = dottedPath ∧
      (ofString (toString path) = path ↔ path ≠ empty) := by
  refine ⟨toString_ofString dottedPath, ?_, ofString_toString plain⟩
  intro readsBack
  rw [← readsBack]
  exact ofString_ne_empty (toString path)

theorem readsBack_serverPort :
    toString (ofString (ascii "server.port")) = ascii "server.port" ∧
      (ofString (toString [ascii "server", ascii "port"]) =
          [ascii "server", ascii "port"] ↔
        [ascii "server", ascii "port"] ≠ empty) :=
  readsBack_iff (ascii "server.port") [ascii "server", ascii "port"] (by decide)

/-- The root is written as the empty string, which is read as the path to an
empty key. -/
theorem not_readsBack_root :
    toString empty = [] ∧ ofString (toString empty) = [[]] ∧
      ¬ ofString (toString empty) = empty := by
  refine ⟨rfl, rfl, ?_⟩
  exact ofString_ne_empty []

end ConfigPath

end Birch

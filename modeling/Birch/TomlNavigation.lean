import Birch.TomlValue

/-!
# Steps through tables and arrays

A client goes through the converted document by the keys of its tables and the
indices of its arrays.  The conversion leaves out what has no counterpart, and
in an array the elements behind it move up.  So an index counts the elements of
supported types, and it is the index in the document exactly as long as nothing
unsupported is before it.
-/

namespace Birch

inductive Step
  | key (key : Text)
  | index (index : Nat)
  deriving DecidableEq

/-- `TomlList::Get`; no value stands for the exception of `at`. -/
def tomlListGet (values : List TomlValue) (index : Nat) : Option TomlValue :=
  values[index]?

namespace TomlValue

/-- `AsMap()->Get(key)` or `AsArray()->Get(index)`. -/
def get (value : TomlValue) : Step → Option TomlValue
  | .key key => value.asMap.bind fun map => tomlMapGet map key
  | .index index => value.asArray.bind fun list => tomlListGet list index

def follow (value : TomlValue) (steps : List Step) : Option TomlValue :=
  match steps with
  | [] => some value
  | step :: steps => (value.get step).bind fun next => next.follow steps

end TomlValue

namespace Toml.Node

/-- The types that `NodeToVariant` handles. -/
def isSupported : Node → Bool
  | .date | .time | .dateTime => false
  | _ => true

def get : Node → Step → Option Node
  | .table entries, .key key => entries.lookup key
  | .array elements, .index index => elements[index]?
  | _, _ => none

def follow (node : Node) (steps : List Step) : Option Node :=
  match steps with
  | [] => some node
  | step :: steps => (node.get step).bind fun next => next.follow steps

/-- The step, where an index counts the elements of supported types. -/
def getSupported : Node → Step → Option Node
  | .table entries, .key key => entries.lookup key
  | .array elements, .index index => (elements.filter isSupported)[index]?
  | _, _ => none

def followSupported (node : Node) (steps : List Step) : Option Node :=
  match steps with
  | [] => some node
  | step :: steps =>
      (node.getSupported step).bind fun next => next.followSupported steps

/-- No element of an unsupported type is before one of a supported type. -/
def UnsupportedLast (elements : List Node) : Prop :=
  elements.Pairwise fun first second =>
    second.isSupported = true → first.isSupported = true

end Toml.Node

open Toml

/-- Going through the converted document reaches the conversion of what the
same steps reach in the document. -/
def Commutes (document : Document) : Prop :=
  ∀ steps, (TomlValue.create document.root).bind (·.follow steps) =
    (document.root.follow steps).bind TomlValue.create

/-! ## One step -/

theorem isSome_create (node : Node) :
    (TomlValue.create node).isSome = node.isSupported := by
  cases node <;> rfl

theorem tomlListCreate_eq (elements : List Node) :
    tomlListCreate elements = elements.filterMap TomlValue.create := by
  induction elements with
  | nil => rfl
  | cons element rest ih =>
      rw [tomlListCreate, List.filterMap_cons, ih]
      rcases TomlValue.create element <;> rfl

/-- An element of an unsupported type is not in the list. -/
theorem getElem?_tomlListCreate (elements : List Node) (index : Nat) :
    (tomlListCreate elements)[index]? =
      (elements.filter Node.isSupported)[index]?.bind TomlValue.create := by
  rw [tomlListCreate_eq]
  induction elements generalizing index with
  | nil => rfl
  | cons element rest ih =>
      have supported := isSome_create element
      rcases converted : TomlValue.create element with _ | value
      · rw [converted] at supported
        rw [List.filterMap_cons_none converted,
          List.filter_cons_of_neg (by simp [← supported]), ih]
      · rw [converted] at supported
        rw [List.filterMap_cons_some converted,
          List.filter_cons_of_pos supported.symm]
        cases index with
        | zero => simp [converted]
        | succ index => simpa using ih index

theorem distinctKeys_of_mem {elements : List Node}
    (distinct : distinctKeysElements elements = true) {node : Node}
    (member : node ∈ elements) : node.distinctKeys = true := by
  induction elements with
  | nil => cases member
  | cons element rest ih =>
      rw [distinctKeysElements, Bool.and_eq_true] at distinct
      rcases List.mem_cons.mp member with rfl | later
      · exact distinct.1
      · exact ih distinct.2 later

theorem distinctKeys_of_getSupported {node next : Node} {step : Step}
    (distinct : node.distinctKeys = true)
    (reached : node.getSupported step = some next) :
    next.distinctKeys = true := by
  cases node with
  | table entries =>
      cases step with
      | key key =>
          rw [Node.distinctKeys, Bool.and_eq_true] at distinct
          exact distinctKeys_of_lookup distinct.2 reached
      | index index => cases reached
  | array elements =>
      cases step with
      | key key => cases reached
      | index index =>
          have member := List.mem_of_getElem? reached
          exact distinctKeys_of_mem distinct (List.mem_of_mem_filter member)
  | _ => cases reached

theorem get_create {node : Node} (distinct : node.distinctKeys = true)
    (step : Step) :
    (TomlValue.create node).bind (·.get step) =
      (node.getSupported step).bind TomlValue.create := by
  cases node with
  | table entries =>
      cases step with
      | key key =>
          rw [Node.distinctKeys, Bool.and_eq_true,
            decide_eq_true_eq] at distinct
          exact lookup_tomlMapCreate distinct.1 key
      | index index => rfl
  | array elements =>
      cases step with
      | key key => rfl
      | index index => exact getElem?_tomlListCreate elements index
  | _ => cases step <;> rfl

/-! ## Many steps -/

/-- By induction on the steps. -/
theorem follow_create {node : Node} (distinct : node.distinctKeys = true)
    (steps : List Step) :
    (TomlValue.create node).bind (·.follow steps) =
      (node.followSupported steps).bind TomlValue.create := by
  induction steps generalizing node with
  | nil => simp [TomlValue.follow, Node.followSupported]
  | cons step steps ih =>
      have stepped := get_create distinct step
      have split : (TomlValue.create node).bind (·.follow (step :: steps)) =
          ((TomlValue.create node).bind (·.get step)).bind
            (·.follow steps) := by
        rw [Option.bind_assoc]
        rfl
      rw [split, stepped, Node.followSupported]
      rcases reached : node.getSupported step with _ | next
      · rfl
      · exact ih (distinctKeys_of_getSupported distinct reached)

theorem TomlValue.follow_concat (value : TomlValue) (steps : List Step)
    (step : Step) :
    value.follow (steps ++ [step]) =
      (value.follow steps).bind (·.get step) := by
  induction steps generalizing value with
  | nil => simp [follow]
  | cons first steps ih =>
      rw [List.cons_append, follow, follow, Option.bind_assoc]
      congr 1
      funext next
      exact ih next

theorem Toml.Node.follow_concat (node : Node) (steps : List Step) (step : Step) :
    node.follow (steps ++ [step]) = (node.follow steps).bind (·.get step) := by
  induction steps generalizing node with
  | nil => simp [follow]
  | cons first steps ih =>
      rw [List.cons_append, follow, follow, Option.bind_assoc]
      congr 1
      funext next
      exact ih next

/-! ## Where the indices are those of the document -/

theorem getElem?_filter_of_unsupportedLast {elements : List Node}
    (last : Node.UnsupportedLast elements) (index : Nat) :
    (elements.filter Node.isSupported)[index]? =
      elements[index]?.filter Node.isSupported := by
  induction elements generalizing index with
  | nil => rfl
  | cons element rest ih =>
      obtain ⟨before, lastRest⟩ := List.pairwise_cons.mp last
      cases supported : element.isSupported with
      | true =>
          rw [List.filter_cons_of_pos supported]
          cases index with
          | zero => simp [Option.filter, supported]
          | succ index => simpa using ih lastRest index
      | false =>
          have none : ∀ node ∈ element :: rest, ¬ node.isSupported = true := by
            rintro node member isSupported
            rcases List.mem_cons.mp member with rfl | later
            · exact Bool.false_ne_true (supported.symm.trans isSupported)
            · have first := before node later isSupported
              exact Bool.false_ne_true (supported.symm.trans first)
          rw [List.filter_eq_nil_iff.mpr none]
          rcases found : (element :: rest)[index]? with _ | node
          · rfl
          · have unsupported := none node (List.mem_of_getElem? found)
            simp [Option.filter, unsupported]

/-- Nothing is reached from a node of an unsupported type. -/
theorem follow_unsupported {node : Node} (unsupported : node.isSupported = false)
    (steps : List Step) : (node.follow steps).bind TomlValue.create = none := by
  cases steps with
  | nil => cases node <;> first | rfl | cases unsupported
  | cons step steps => cases node <;> first | rfl | cases unsupported

/-- By induction on the steps: an index that counts the elements of supported
types is the index in the array. -/
theorem followSupported_of_unsupportedLast {node : Node}
    (last : ∀ steps elements, node.follow steps = some (.array elements) →
      Node.UnsupportedLast elements) (steps : List Step) :
    (node.followSupported steps).bind TomlValue.create =
      (node.follow steps).bind TomlValue.create := by
  induction steps generalizing node with
  | nil => rfl
  | cons step steps ih =>
      have further : ∀ next, node.get step = some next →
          (next.followSupported steps).bind TomlValue.create =
            (next.follow steps).bind TomlValue.create := by
        intro next reached
        apply ih
        intro later elements atArray
        apply last (step :: later) elements
        rw [Node.follow, reached]
        exact atArray
      have sameStep (same : node.getSupported step = node.get step) :
          (node.followSupported (step :: steps)).bind TomlValue.create =
            (node.follow (step :: steps)).bind TomlValue.create := by
        rw [Node.followSupported, Node.follow, same]
        rcases reached : node.get step with _ | next
        · rfl
        · exact further next reached
      cases node with
      | array elements =>
          cases step with
          | key key => exact sameStep rfl
          | index index =>
              have counted := getElem?_filter_of_unsupportedLast
                (last [] elements rfl) index
              rcases found : elements[index]? with _ | next
              · simp [Node.followSupported, Node.follow, Node.getSupported,
                  Node.get, counted, found]
              · cases supported : next.isSupported with
                | true =>
                    apply sameStep
                    rw [Node.getSupported, Node.get, counted, found]
                    simp [Option.filter, supported]
                | false =>
                    have nothing := follow_unsupported supported steps
                    simp [Node.followSupported, Node.follow, Node.getSupported,
                      Node.get, counted, found, Option.filter, supported,
                      nothing]
      | _ => exact sameStep (by cases step <;> rfl)

/-- The elements of supported types are those with the first indices. -/
theorem unsupportedLast_of_indices {elements : List Node}
    (indices : ∀ index : Nat, (tomlListCreate elements)[index]? =
      elements[index]?.bind TomlValue.create) :
    Node.UnsupportedLast elements := by
  have first : ∀ (index : Nat) (within : index < elements.length),
      elements[index].isSupported = true ↔
        index < (tomlListCreate elements).length := by
    intro index within
    have converted := indices index
    rw [List.getElem?_eq_getElem within, Option.bind_some] at converted
    rw [← isSome_create, ← converted]
    simp
  rw [Node.UnsupportedLast, List.pairwise_iff_getElem]
  intro i j iWithin jWithin before supported
  rw [first i iWithin]
  exact Nat.lt_trans before ((first j jWithin).mp supported)

theorem commutes_iff (document : Document) :
    Commutes document ↔ ∀ steps elements,
      document.root.follow steps = some (.array elements) →
        Node.UnsupportedLast elements := by
  constructor
  · intro commutes steps elements atArray
    apply unsupportedLast_of_indices
    intro index
    have atList := commutes steps
    rw [atArray, Option.bind_some] at atList
    have atIndex := commutes (steps ++ [.index index])
    rw [Node.follow_concat, atArray] at atIndex
    simp only [TomlValue.follow_concat, ← Option.bind_assoc, atList] at atIndex
    exact atIndex
  · intro last steps
    exact (follow_create document.distinct steps).trans
      (followSupported_of_unsupportedLast last steps)

/-- The steps through the converted document are those through the document,
where an index counts the elements of supported types; and an index means the
same in both exactly if no array of the document has an element of an
unsupported type before one of a supported type. -/
theorem follow_document (document : Document) :
    (∀ steps, (TomlValue.create document.root).bind (·.follow steps) =
        (document.root.followSupported steps).bind TomlValue.create) ∧
      (Commutes document ↔ ∀ steps elements,
        document.root.follow steps = some (.array elements) →
          Node.UnsupportedLast elements) :=
  ⟨follow_create document.distinct, commutes_iff document⟩

/-- An array of a date and a number. -/
def datedDocument : Document where
  entries := [(ascii "values", .array [.date, .integer 1])]
  distinct := rfl

/-- The number is found under the index of the date. -/
theorem not_commutes_datedDocument :
    (TomlValue.create datedDocument.root).bind
        (·.follow [.key (ascii "values"), .index 0]) = some (.int64 1) ∧
      datedDocument.root.follow [.key (ascii "values"), .index 0] =
        some .date ∧
      ¬ Commutes datedDocument := by
  refine ⟨rfl, rfl, ?_⟩
  intro commutes
  cases commutes [.key (ascii "values"), .index 0]

end Birch

import Birch.EventRuns
import Birch.TomlValue
import Mathlib.Logic.Function.Basic

/-!
# Reloads, nodes and subscriptions

`TomlConfig` keeps the converted document and a table of the nodes that it has
handed out.  The table does not own the nodes: a node lives as long as a client
refers to it, and as long as it lives, `GetNode` hands out the same one.  This
file determines when a lookup reflects the document that was loaded last, and
when the subscribers of a node hear of a reload.
-/

namespace Birch

abbrev NodeId := Nat

abbrev CallbackId := Nat

/-- A `TomlNode`. -/
structure TomlNode where
  path : ConfigPath
  value : TomlValue
  callbacks : List CallbackId := []

/-- The call of a subscribed callback; no value stands for a null pointer. -/
structure Invocation where
  callback : CallbackId
  path : ConfigPath
  value : Option TomlValue

namespace TomlNode

def subscribe (node : TomlNode) (callback : CallbackId) : TomlNode :=
  if node.value.asArray.isSome then
    node
  else
    { node with callbacks := node.callbacks ++ [callback] }

def notify (node : TomlNode) : List Invocation :=
  if node.value.asArray.isSome then
    []
  else
    node.callbacks.map fun callback => ⟨callback, node.path, some node.value⟩

end TomlNode

/-- What `Reload` gets from its source and from the parser. -/
inductive LoadResult
  | readFailed
  | parseFailed
  | parsed (document : Toml.Document)

/-- A `TomlConfig` with its `m_root` and `m_nodes`, and the nodes that are
alive with the number of references to each.  The last two fields are its
history: the document that was loaded last, and the calls of callbacks. -/
structure ConfigState where
  root : Option TomlValue := none
  nodes : ConfigPath → Option NodeId := fun _ => none
  heap : NodeId → Option TomlNode := fun _ => none
  references : NodeId → Nat := fun _ => 0
  nextNode : NodeId := 0
  loaded : Option Toml.Document := none
  invoked : List Invocation := []

namespace ConfigState

def reload (state : ConfigState) : LoadResult → ConfigState
  | .readFailed => state
  | .parseFailed => state
  | .parsed document =>
      { state with
        root := TomlValue.create document.root
        loaded := some document }

/-- The part of `GetNode` behind the cached node. -/
def makeNode (state : ConfigState) (path : ConfigPath) :
    Option NodeId × ConfigState :=
  match dig state.root path with
  | none => (none, state)
  | some value =>
      (some state.nextNode, { state with
        nodes := Function.update state.nodes path (some state.nextNode)
        heap := Function.update state.heap state.nextNode
          (some { path, value })
        references := Function.update state.references state.nextNode 1
        nextNode := state.nextNode + 1 })

def getNode (state : ConfigState) (path : ConfigPath) :
    Option NodeId × ConfigState :=
  match state.nodes path with
  | some id =>
      match state.heap id with
      | some _ => (some id, { state with
          references := Function.update state.references id
            (state.references id + 1) })
      | none =>
          ConfigState.makeNode { state with
            nodes := Function.update state.nodes path none } path
  | none => state.makeNode path

/-- A client drops a reference, and the last one takes the node with it. -/
def release (state : ConfigState) (id : NodeId) : Option ConfigState :=
  match state.references id with
  | 0 => none
  | 1 => some { state with
      references := Function.update state.references id 0
      heap := Function.update state.heap id none }
  | count + 2 => some { state with
      references := Function.update state.references id (count + 1) }

end ConfigState

inductive ConfigEvent
  | reload (result : LoadResult)
  | getNode (path : ConfigPath)
  | release (id : NodeId)
  | subscribe (id : NodeId) (callback : CallbackId)
  | notify (id : NodeId)

/-- One event of the configuration, where it can happen. -/
def ConfigState.step (state : ConfigState) : ConfigEvent → Option ConfigState
  | .reload result => some (state.reload result)
  | .getNode path => some (state.getNode path).2
  | .release id => state.release id
  | .subscribe id callback =>
      match state.heap id with
      | some node => some { state with
          heap := Function.update state.heap id
            (some (node.subscribe callback)) }
      | none => none
  | .notify id =>
      match state.heap id with
      | some node => some { state with
          invoked := state.invoked ++ node.notify }
      | none => none

def configRun : ConfigState → List ConfigEvent → Option ConfigState :=
  EventRuns.run ConfigState.step

/-- The value at a path in the document that was loaded last. -/
def ConfigState.valueAt (state : ConfigState) (path : ConfigPath) :
    Option TomlValue :=
  state.loaded.bind fun document => document.valueAt path

/-- `GetNode` finds a node exactly where the document has a value, and its node
has this path and this value. -/
structure ReflectsDocument (state : ConfigState) (path : ConfigPath) : Prop
    where
  absent : (state.getNode path).1 = none ↔ state.valueAt path = none
  present : ∀ id, (state.getNode path).1 = some id →
    ∃ node, (state.getNode path).2.heap id = some node ∧
      node.path = path ∧ state.valueAt path = some node.value

/-- A node for the path that is still alive has the value of the document. -/
def HeldIsCurrent (state : ConfigState) (path : ConfigPath) : Prop :=
  ∀ id node, state.nodes path = some id → state.heap id = some node →
    state.valueAt path = some node.value

/-! ## The table of nodes -/

/-- What holds between any two events: the root is that of the document, and
the table knows the nodes under their own paths. -/
structure Cached (state : ConfigState) : Prop where
  root : state.root =
    state.loaded.bind fun document => TomlValue.create document.root
  paths : ∀ path id node, state.nodes path = some id →
    state.heap id = some node → node.path = path
  earlier : ∀ path id, state.nodes path = some id → id < state.nextNode

theorem cached_initial : Cached {} where
  root := rfl
  paths := by simp
  earlier := by simp

theorem Cached.dig_root {state : ConfigState} (cached : Cached state)
    (path : ConfigPath) : dig state.root path = state.valueAt path := by
  rw [cached.root, ConfigState.valueAt]
  rcases state.loaded with _ | document
  · rfl
  · exact Birch.dig_root document path

theorem Cached.reload {state : ConfigState} (cached : Cached state)
    (result : LoadResult) : Cached (state.reload result) := by
  cases result with
  | readFailed => exact cached
  | parseFailed => exact cached
  | parsed document => exact ⟨rfl, cached.paths, cached.earlier⟩

theorem Cached.makeNode {state : ConfigState} (cached : Cached state)
    (path : ConfigPath) : Cached (state.makeNode path).2 := by
  unfold ConfigState.makeNode
  split
  · exact cached
  · refine ⟨cached.root, ?_, ?_⟩
    · intro other id node known alive
      by_cases samePath : other = path
      · subst samePath
        simp only [Function.update_self, Option.some.injEq] at known
        subst known
        simp only [Function.update_self, Option.some.injEq] at alive
        exact alive ▸ rfl
      · simp only [Function.update_of_ne samePath] at known
        have otherNode := Nat.ne_of_lt (cached.earlier other id known)
        simp only [Function.update_of_ne otherNode] at alive
        exact cached.paths other id node known alive
    · intro other id known
      by_cases samePath : other = path
      · subst samePath
        simp only [Function.update_self, Option.some.injEq] at known
        exact known ▸ Nat.lt_succ_self state.nextNode
      · simp only [Function.update_of_ne samePath] at known
        exact Nat.lt_succ_of_lt (cached.earlier other id known)

/-- An entry of the table may be dropped. -/
theorem Cached.forget {state : ConfigState} (cached : Cached state)
    (path : ConfigPath) :
    Cached { state with nodes := Function.update state.nodes path none } := by
  have kept : ∀ other id,
      Function.update state.nodes path none other = some id →
        state.nodes other = some id := by
    intro other id known
    by_cases samePath : other = path
    · simp [samePath] at known
    · simpa [samePath] using known
  exact ⟨cached.root,
    fun other id node known => cached.paths other id node (kept other id known),
    fun other id known => cached.earlier other id (kept other id known)⟩

theorem Cached.getNode {state : ConfigState} (cached : Cached state)
    (path : ConfigPath) : Cached (state.getNode path).2 := by
  unfold ConfigState.getNode
  split
  · split
    · exact ⟨cached.root, cached.paths, cached.earlier⟩
    · exact (cached.forget path).makeNode path
  · exact cached.makeNode path

/-- The nodes may change, as long as they keep their paths. -/
theorem Cached.of_heap {state next : ConfigState} (cached : Cached state)
    (root : next.root = state.root) (loaded : next.loaded = state.loaded)
    (nodes : next.nodes = state.nodes)
    (nextNode : next.nextNode = state.nextNode)
    (heap : ∀ id node, next.heap id = some node →
      ∃ old, state.heap id = some old ∧ node.path = old.path) :
    Cached next := by
  refine ⟨?_, ?_, ?_⟩
  · rw [root, loaded]
    exact cached.root
  · intro path id node known alive
    obtain ⟨old, wasAlive, samePath⟩ := heap id node alive
    rw [nodes] at known
    exact samePath.trans (cached.paths path id old known wasAlive)
  · rw [nodes, nextNode]
    exact cached.earlier

theorem Cached.release {state next : ConfigState} (cached : Cached state)
    {id : NodeId} (released : state.release id = some next) : Cached next := by
  unfold ConfigState.release at released
  split at released
  · cases released
  · obtain rfl := Option.some.inj released
    refine cached.of_heap rfl rfl rfl rfl ?_
    intro other node alive
    by_cases same : other = id
    · simp [same] at alive
    · simp only [Function.update_of_ne same] at alive
      exact ⟨node, alive, rfl⟩
  · obtain rfl := Option.some.inj released
    exact ⟨cached.root, cached.paths, cached.earlier⟩

theorem TomlNode.path_subscribe (node : TomlNode) (callback : CallbackId) :
    (node.subscribe callback).path = node.path := by
  unfold TomlNode.subscribe
  split <;> rfl

theorem Cached.step {state next : ConfigState} {event : ConfigEvent}
    (cached : Cached state) (stepped : state.step event = some next) :
    Cached next := by
  cases event with
  | reload result =>
      obtain rfl := Option.some.inj stepped
      exact cached.reload result
  | getNode path =>
      obtain rfl := Option.some.inj stepped
      exact cached.getNode path
  | release id => exact cached.release stepped
  | subscribe id callback =>
      simp only [ConfigState.step] at stepped
      split at stepped
      · rename_i node alive
        obtain rfl := Option.some.inj stepped
        refine cached.of_heap rfl rfl rfl rfl ?_
        intro other updated found
        by_cases same : other = id
        · subst same
          simp only [Function.update_self, Option.some.injEq] at found
          subst found
          exact ⟨node, alive, node.path_subscribe callback⟩
        · simp only [Function.update_of_ne same] at found
          exact ⟨updated, found, rfl⟩
      · cases stepped
  | notify id =>
      simp only [ConfigState.step] at stepped
      split at stepped
      · obtain rfl := Option.some.inj stepped
        exact ⟨cached.root, cached.paths, cached.earlier⟩
      · cases stepped

theorem cached_of_run {events : List ConfigEvent} {state : ConfigState}
    (ran : configRun {} events = some state) : Cached state :=
  EventRuns.run_invariant
    (fun _ _ _ cached stepped => Cached.step cached stepped)
    cached_initial ran

/-! ## Lookups -/

/-- A node that is made anew reflects the document. -/
theorem makeNode_reflects {state : ConfigState} (cached : Cached state)
    (path : ConfigPath) :
    ((state.makeNode path).1 = none ↔ state.valueAt path = none) ∧
      ∀ id, (state.makeNode path).1 = some id →
        ∃ node, (state.makeNode path).2.heap id = some node ∧
          node.path = path ∧ state.valueAt path = some node.value := by
  rw [← cached.dig_root path]
  unfold ConfigState.makeNode
  split
  · rename_i nothing
    exact ⟨by simp [nothing], by simp⟩
  · rename_i value found
    refine ⟨by simp [found], ?_⟩
    intro id made
    obtain rfl := Option.some.inj made
    exact ⟨_, Function.update_self _ _ _, rfl, found⟩

/-- In every state that a configuration can be in, `GetNode` reflects the
document that was loaded last exactly if a node for the path that a client
still holds has the value that the document has at the path. -/
theorem reflectsDocument_iff (events : List ConfigEvent) (state : ConfigState)
    (ran : configRun {} events = some state) (path : ConfigPath) :
    ReflectsDocument state path ↔ HeldIsCurrent state path := by
  have cached := cached_of_run ran
  rcases known : state.nodes path with _ | id
  · have unknown : state.getNode path = state.makeNode path := by
      simp [ConfigState.getNode, known]
    obtain ⟨absent, present⟩ := makeNode_reflects cached path
    constructor
    · intro _ id node isKnown
      rw [known] at isKnown
      cases isKnown
    · intro _
      constructor
      · rw [unknown]
        exact absent
      · rw [unknown]
        exact present
  · rcases alive : state.heap id with _ | node
    · have expired : state.getNode path = ConfigState.makeNode { state with
          nodes := Function.update state.nodes path none } path := by
        simp [ConfigState.getNode, known, alive]
      obtain ⟨absent, present⟩ := makeNode_reflects (cached.forget path) path
      constructor
      · intro _ other node isKnown isAlive
        rw [known] at isKnown
        obtain rfl := Option.some.inj isKnown
        rw [alive] at isAlive
        cases isAlive
      · intro _
        constructor
        · rw [expired]
          exact absent
        · rw [expired]
          exact present
    · have result : (state.getNode path).1 = some id := by
        simp [ConfigState.getNode, known, alive]
      have heapEq : (state.getNode path).2.heap id = some node := by
        simp [ConfigState.getNode, known, alive]
      constructor
      · intro reflects other held isKnown isAlive
        rw [known] at isKnown
        obtain rfl := Option.some.inj isKnown
        rw [alive] at isAlive
        obtain rfl := Option.some.inj isAlive
        obtain ⟨found, foundEq, _, value⟩ := reflects.present id result
        rw [heapEq] at foundEq
        obtain rfl := Option.some.inj foundEq
        exact value
      · intro current
        have value := current id node known alive
        constructor
        · simp [result, value]
        · intro other found
          rw [result] at found
          obtain rfl := Option.some.inj found
          exact ⟨node, heapEq, cached.paths path id node known alive, value⟩

/-- A document with one integer. -/
def portDocument (port : Int64) : Toml.Document where
  entries := [(ascii "port", .integer port)]
  distinct := rfl

def portPath : ConfigPath := [ascii "port"]

/-- A node is taken, and the port changes while it is held. -/
def portChange : List ConfigEvent :=
  [.reload (.parsed (portDocument 1)), .getNode portPath,
    .reload (.parsed (portDocument 2))]

theorem reflectsDocument_iff_released :
    ∃ state, configRun {} (portChange ++ [.release 0]) = some state ∧
      (ReflectsDocument state portPath ↔ HeldIsCurrent state portPath) :=
  ⟨_, rfl, reflectsDocument_iff (portChange ++ [.release 0]) _ rfl portPath⟩

/-- The node that is still held has the port from before the reload. -/
theorem not_reflectsDocument_portChange :
    ∃ state, configRun {} portChange = some state ∧
      state.valueAt portPath = some (.int64 2) ∧
      (state.getNode portPath).1 = some 0 ∧
      ((state.getNode portPath).2.heap 0).map TomlNode.value =
        some (.int64 1) ∧
      ¬ ReflectsDocument state portPath := by
  refine ⟨_, rfl, rfl, rfl, rfl, ?_⟩
  intro reflects
  obtain ⟨node, found, _, value⟩ := reflects.present 0 rfl
  obtain rfl := Option.some.inj found
  injection value with value
  injection value with value
  exact absurd value (by decide)

/-! ## Subscribers -/

/-- What a reload calls. -/
def ConfigState.reloadInvocations (state : ConfigState) (result : LoadResult) :
    List Invocation :=
  (state.reload result).invoked.drop state.invoked.length

/-- The value is that of a list. -/
def IsList (value : Option TomlValue) : Prop :=
  ∃ values, value = some (.list values)

/-- A reload of the document calls each callback that is subscribed on a node
whose value it changes, lists apart. -/
def HearsReload (state : ConfigState) (document : Toml.Document) : Prop :=
  ∀ id node callback, state.heap id = some node → callback ∈ node.callbacks →
    ¬ IsList (state.valueAt node.path) → ¬ IsList (document.valueAt node.path) →
      state.valueAt node.path ≠ document.valueAt node.path →
        ⟨callback, node.path, document.valueAt node.path⟩ ∈
          state.reloadInvocations (.parsed document)

/-- The document has the old value at the path of each node with a subscriber,
lists apart. -/
def KeepsSubscribed (state : ConfigState) (document : Toml.Document) : Prop :=
  ∀ id node, state.heap id = some node → node.callbacks ≠ [] →
    IsList (state.valueAt node.path) ∨ IsList (document.valueAt node.path) ∨
      state.valueAt node.path = document.valueAt node.path

/-- `Reload` calls nothing. -/
theorem reloadInvocations_eq_nil (state : ConfigState) (result : LoadResult) :
    state.reloadInvocations result = [] := by
  have kept : (state.reload result).invoked = state.invoked := by
    cases result <;> rfl
  rw [ConfigState.reloadInvocations, kept, List.drop_length]

/-- In every state, one that a configuration can be in or not, the subscribers
hear of a reload exactly if it changes the value of no node that has one. -/
theorem hearsReload_iff (state : ConfigState) (document : Toml.Document) :
    HearsReload state document ↔ KeepsSubscribed state document := by
  rw [HearsReload, reloadInvocations_eq_nil]
  constructor
  · intro hears id node alive subscribed
    obtain ⟨callback, member⟩ := List.exists_mem_of_ne_nil _ subscribed
    by_contra changed
    simp only [not_or] at changed
    obtain ⟨notBefore, notAfter, differ⟩ := changed
    have called :=
      hears id node callback alive member notBefore notAfter differ
    cases called
  · intro keeps id node callback alive member notBefore notAfter differ
    have subscribed := List.ne_nil_of_mem member
    rcases keeps id node alive subscribed with before | after | same
    · exact absurd before notBefore
    · exact absurd after notAfter
    · exact absurd same differ

/-- A client subscribes to the port. -/
def portSubscription : List ConfigEvent :=
  [.reload (.parsed (portDocument 1)), .getNode portPath, .subscribe 0 7]

/-- The subscriber does not hear that the port changes. -/
theorem not_hearsReload_portDocument :
    ∃ state, configRun {} portSubscription = some state ∧
      (state.heap 0).map TomlNode.callbacks = some [7] ∧
      state.reloadInvocations (.parsed (portDocument 2)) = [] ∧
      ¬ HearsReload state (portDocument 2) := by
  refine ⟨_, rfl, rfl, rfl, ?_⟩
  intro hears
  have notList : ∀ port, ¬ IsList (some (.int64 port)) := by
    rintro port ⟨values, equal⟩
    cases equal
  have called := hears 0 _ 7 rfl (List.mem_singleton.mpr rfl : 7 ∈ [7])
    (notList 1) (notList 2) (by
    intro same
    injection same with same
    injection same with same
    exact absurd same (by decide))
  cases called

end Birch

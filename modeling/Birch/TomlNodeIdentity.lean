import Birch.ConfigPaths
import Birch.TomlConfig

/-!
# One node for each path

The table of `TomlConfig` has weak pointers to the nodes that it has handed
out, and they expire as the clients drop their references.  This file shows
that the table knows every node that is alive under its path, and that it knows
no other: so a path has at most one, and `GetNode` hands it out.
-/

namespace Birch

namespace ConfigState

def getRootNode (state : ConfigState) : Option NodeId × ConfigState :=
  state.getNode ConfigPath.empty

/-- The node for the path that is alive. -/
def live (state : ConfigState) (path : ConfigPath) : Option NodeId :=
  (state.nodes path).filter fun id => (state.heap id).isSome

/-- The weak pointer for the path is dropped. -/
def forget (state : ConfigState) (path : ConfigPath) : ConfigState :=
  { state with nodes := Function.update state.nodes path none }

def retain (state : ConfigState) (id : NodeId) : ConfigState :=
  { state with
    references := Function.update state.references id
      (state.references id + 1) }

/-- What `GetNode` hands out: a node that was alive, or one that it makes. -/
inductive NodeAnswer
  | missing
  | held (id : NodeId)
  | made (node : TomlNode)

def answer (state : ConfigState) (path : ConfigPath) : NodeAnswer :=
  match state.getNode path with
  | (none, _) => .missing
  | (some id, next) =>
      if (state.heap id).isSome then .held id
      else
        match next.heap id with
        | some node => .made node
        | none => .missing

/-! ## The two ways of `GetNode` -/

variable {state next : ConfigState}

theorem live_eq_some_iff (path : ConfigPath) (id : NodeId) :
    state.live path = some id ↔
      state.nodes path = some id ∧ (state.heap id).isSome = true := by
  rw [live, Option.filter_eq_some_iff]

theorem forget_eq_self {path : ConfigPath} (unknown : state.nodes path = none) :
    state.forget path = state := by
  rw [forget, ← unknown, Function.update_eq_self]

theorem getNode_of_live {path : ConfigPath} {id : NodeId}
    (alive : state.live path = some id) :
    state.getNode path = (some id, state.retain id) := by
  obtain ⟨known, isAlive⟩ := (live_eq_some_iff path id).mp alive
  obtain ⟨node, found⟩ := Option.isSome_iff_exists.mp isAlive
  simp only [getNode, known, found, retain]

/-- Otherwise `GetNode` makes a node, after it has dropped the weak pointer. -/
theorem getNode_of_not_live {path : ConfigPath}
    (notAlive : state.live path = none) :
    state.getNode path = (state.forget path).makeNode path := by
  rcases known : state.nodes path with _ | id
  · rw [forget_eq_self known]
    simp only [getNode, known]
  · have expired : state.heap id = none := by
      rw [live, known] at notAlive
      simpa using notAlive
    simp only [getNode, known, expired, forget]

/-! ## The nodes that are alive -/

/-- What holds between any two events: each node that is alive is known under
its path, and is referred to. -/
structure Identified (state : ConfigState) : Prop extends Cached state where
  known : ∀ id node, state.heap id = some node →
    state.nodes node.path = some id
  referred : ∀ id, (state.heap id).isSome = true ↔ 0 < state.references id

theorem identified_initial : Identified {} where
  toCached := cached_initial
  known := by simp
  referred := by simp

namespace Identified

theorem live_iff (identified : Identified state) (path : ConfigPath)
    (id : NodeId) :
    state.live path = some id ↔
      ∃ node, state.heap id = some node ∧ node.path = path := by
  rw [live_eq_some_iff, Option.isSome_iff_exists]
  constructor
  · rintro ⟨known, node, alive⟩
    exact ⟨node, alive, identified.paths path id node known alive⟩
  · rintro ⟨node, alive, rfl⟩
    exact ⟨identified.known id node alive, node, alive⟩

theorem not_live_iff (identified : Identified state) (path : ConfigPath) :
    state.live path = none ↔
      ∀ id node, state.heap id = some node → node.path ≠ path := by
  rw [Option.eq_none_iff_forall_ne_some]
  constructor
  · intro none id node alive samePath
    exact none id ((identified.live_iff path id).mpr ⟨node, alive, samePath⟩)
  · intro none id alive
    obtain ⟨node, found, samePath⟩ := (identified.live_iff path id).mp alive
    exact none id node found samePath

theorem lt_nextNode (identified : Identified state) {id : NodeId}
    {node : TomlNode} (alive : state.heap id = some node) :
    id < state.nextNode :=
  identified.earlier node.path id (identified.known id node alive)

theorem reload (identified : Identified state) (result : LoadResult) :
    Identified (state.reload result) := by
  refine ⟨identified.toCached.reload result, ?_, ?_⟩
  · cases result <;> exact identified.known
  · cases result <;> exact identified.referred

/-- A path without a node that is alive may be forgotten. -/
theorem forget (identified : Identified state) {path : ConfigPath}
    (notAlive : state.live path = none) : Identified (state.forget path) := by
  refine ⟨identified.toCached.forget path, ?_, identified.referred⟩
  intro id node alive
  have otherPath := (identified.not_live_iff path).mp notAlive id node alive
  simp only [ConfigState.forget, Function.update_of_ne otherPath]
  exact identified.known id node alive

theorem live_forget (identified : Identified state) {path : ConfigPath}
    (notAlive : state.live path = none) (other : ConfigPath) :
    (state.forget path).live other = state.live other := by
  apply Option.ext
  intro id
  rw [(identified.forget notAlive).live_iff, identified.live_iff]
  rfl

theorem retain (identified : Identified state) {id : NodeId}
    (alive : (state.heap id).isSome = true) : Identified (state.retain id) := by
  refine ⟨⟨identified.root, identified.paths, identified.earlier⟩,
    identified.known, ?_⟩
  intro other
  by_cases same : other = id
  · subst same
    simp [ConfigState.retain, alive]
  · simpa [ConfigState.retain, same] using identified.referred other

theorem makeNode (identified : Identified state) {path : ConfigPath}
    (notAlive : state.live path = none) :
    Identified (state.makeNode path).2 := by
  have cached := identified.toCached.makeNode path
  unfold ConfigState.makeNode at cached ⊢
  split
  · exact identified
  · rename_i value found
    rw [found] at cached
    refine ⟨cached, ?_, ?_⟩
    · intro id node alive
      by_cases new : id = state.nextNode
      · subst new
        simp only [Function.update_self, Option.some.injEq] at alive
        subst alive
        exact Function.update_self _ _ _
      · simp only [Function.update_of_ne new] at alive
        have otherPath := (identified.not_live_iff path).mp notAlive id node alive
        simp only [Function.update_of_ne otherPath]
        exact identified.known id node alive
    · intro id
      by_cases new : id = state.nextNode
      · simp [new]
      · simpa [new] using identified.referred id

theorem getNode (identified : Identified state) (path : ConfigPath) :
    Identified (state.getNode path).2 := by
  rcases alive : state.live path with _ | id
  · rw [getNode_of_not_live alive]
    apply (identified.forget alive).makeNode
    rw [identified.live_forget alive, alive]
  · rw [getNode_of_live alive]
    exact identified.retain ((live_eq_some_iff path id).mp alive).2

theorem release (identified : Identified state) {id : NodeId}
    (released : state.release id = some next) : Identified next := by
  have cached := identified.toCached.release released
  unfold ConfigState.release at released
  split at released
  · cases released
  · obtain rfl := Option.some.inj released
    refine ⟨cached, ?_, ?_⟩
    · intro other node alive
      by_cases same : other = id
      · simp [same] at alive
      · simp only [Function.update_of_ne same] at alive
        exact identified.known other node alive
    · intro other
      by_cases same : other = id
      · simp [same]
      · simpa [same] using identified.referred other
  · rename_i count references
    obtain rfl := Option.some.inj released
    refine ⟨cached, identified.known, ?_⟩
    intro other
    by_cases same : other = id
    · subst same
      have alive := (identified.referred other).mpr (by rw [references]; omega)
      simp [alive]
    · simpa [same] using identified.referred other

theorem subscribe (identified : Identified state) {id : NodeId}
    {node : TomlNode} (alive : state.heap id = some node) (callback : CallbackId)
    (cached : Cached { state with
      heap := Function.update state.heap id (some (node.subscribe callback)) }) :
    Identified { state with
      heap := Function.update state.heap id (some (node.subscribe callback)) } := by
  refine ⟨cached, ?_, ?_⟩
  · intro other updated found
    by_cases same : other = id
    · subst same
      simp only [Function.update_self, Option.some.injEq] at found
      subst found
      rw [node.path_subscribe callback]
      exact identified.known other node alive
    · simp only [Function.update_of_ne same] at found
      exact identified.known other updated found
  · intro other
    by_cases same : other = id
    · subst same
      simpa [alive] using identified.referred other
    · simpa [same] using identified.referred other

theorem step {event : ConfigEvent} (identified : Identified state)
    (stepped : state.step event = some next) : Identified next := by
  have cached := identified.toCached.step stepped
  cases event with
  | reload result =>
      obtain rfl := Option.some.inj stepped
      exact identified.reload result
  | getNode path =>
      obtain rfl := Option.some.inj stepped
      exact identified.getNode path
  | release id => exact identified.release stepped
  | subscribe id callback =>
      simp only [ConfigState.step] at stepped
      split at stepped
      · rename_i node alive
        obtain rfl := Option.some.inj stepped
        exact identified.subscribe alive callback cached
      · cases stepped
  | notify id =>
      simp only [ConfigState.step] at stepped
      split at stepped
      · obtain rfl := Option.some.inj stepped
        exact ⟨cached, identified.known, identified.referred⟩
      · cases stepped

/-! ## Calls for other paths -/

theorem answer_eq (identified : Identified state) (path : ConfigPath) :
    state.answer path =
      match state.live path with
      | some id => .held id
      | none =>
          match dig state.root path with
          | some value => .made { path, value }
          | none => .missing := by
  rcases alive : state.live path with _ | id
  · have fresh : state.heap state.nextNode = none := by
      rcases found : state.heap state.nextNode with _ | node
      · rfl
      · exact absurd (identified.lt_nextNode found) (Nat.lt_irrefl _)
    rcases value : dig state.root path with _ | value
    · simp [answer, getNode_of_not_live alive, ConfigState.makeNode,
        ConfigState.forget, value]
    · simp [answer, getNode_of_not_live alive, ConfigState.makeNode,
        ConfigState.forget, value, fresh]
  · have isAlive := ((live_eq_some_iff path id).mp alive).2
    simp [answer, getNode_of_live alive, isAlive]

theorem live_getNode_of_ne (identified : Identified state)
    {path other : ConfigPath} (different : path ≠ other) :
    (state.getNode other).2.live path = state.live path := by
  rcases alive : state.live other with _ | id
  · rw [getNode_of_not_live alive, ConfigState.makeNode]
    split
    · exact identified.live_forget alive path
    · rcases known : state.nodes path with _ | id
      · simp [live, known, different, ConfigState.forget]
      · have old := Nat.ne_of_lt (identified.earlier path id known)
        simp [live, known, different, ConfigState.forget, Option.filter, old]
  · rw [getNode_of_live alive]
    rfl

theorem root_getNode (path : ConfigPath) :
    (state.getNode path).2.root = state.root := by
  rcases alive : state.live path with _ | id
  · rw [getNode_of_not_live alive, ConfigState.makeNode]
    split <;> rfl
  · rw [getNode_of_live alive]
    rfl

/-- By induction on the calls. -/
theorem answer_foldl (identified : Identified state) {path : ConfigPath}
    (others : List ConfigPath) (different : path ∉ others) :
    (others.foldl (fun state other => (state.getNode other).2) state).answer
      path = state.answer path := by
  induction others generalizing state with
  | nil => rfl
  | cons other others ih =>
      rw [List.mem_cons, not_or] at different
      have called := identified.getNode other
      rw [List.foldl_cons, ih called different.2, called.answer_eq,
        identified.answer_eq, identified.live_getNode_of_ne different.1,
        root_getNode]

end Identified

/-! ## Nodes over a run -/

/-- A node that was there before keeps its path and its subscriptions for as
long as it is alive. -/
structure NodesPersist (state next : ConfigState) : Prop where
  bound : state.nextNode ≤ next.nextNode
  heap : ∀ id later, next.heap id = some later → id < state.nextNode →
    ∃ node, state.heap id = some node ∧ later.path = node.path ∧
      node.callbacks <+: later.callbacks

namespace NodesPersist

theorem refl (state : ConfigState) : NodesPersist state state where
  bound := Nat.le_refl _
  heap _ later alive _ := ⟨later, alive, rfl, List.prefix_rfl⟩

theorem trans {first second third : ConfigState}
    (before : NodesPersist first second) (after : NodesPersist second third) :
    NodesPersist first third := by
  refine ⟨Nat.le_trans before.bound after.bound, ?_⟩
  intro id later alive old
  obtain ⟨middle, found, samePath, more⟩ :=
    after.heap id later alive (Nat.lt_of_lt_of_le old before.bound)
  obtain ⟨node, isNode, nodePath, fewer⟩ := before.heap id middle found old
  exact ⟨node, isNode, samePath.trans nodePath, fewer.trans more⟩

/-- No node changes. -/
theorem of_heap (nextNode : next.nextNode = state.nextNode)
    (heap : ∀ id, next.heap id = state.heap id ∨ next.heap id = none) :
    NodesPersist state next := by
  refine ⟨Nat.le_of_eq nextNode.symm, ?_⟩
  intro id later alive _
  rcases heap id with same | gone
  · exact ⟨later, same ▸ alive, rfl, List.prefix_rfl⟩
  · cases gone.symm.trans alive

theorem getNode (path : ConfigPath) :
    NodesPersist state (state.getNode path).2 := by
  rcases alive : state.live path with _ | id
  · rw [getNode_of_not_live alive, ConfigState.makeNode]
    split
    · exact of_heap rfl fun _ => .inl rfl
    · refine ⟨Nat.le_succ _, ?_⟩
      intro id later found old
      have differ : id ≠ (state.forget path).nextNode := Nat.ne_of_lt old
      simp only [Function.update_of_ne differ] at found
      exact ⟨later, found, rfl, List.prefix_rfl⟩
  · rw [getNode_of_live alive]
    exact of_heap rfl fun _ => .inl rfl

theorem release {id : NodeId} (released : state.release id = some next) :
    NodesPersist state next := by
  unfold ConfigState.release at released
  split at released
  · cases released
  · obtain rfl := Option.some.inj released
    refine of_heap rfl ?_
    intro other
    by_cases same : other = id
    · exact .inr (by simp [same])
    · exact .inl (by simp [same])
  · obtain rfl := Option.some.inj released
    exact of_heap rfl fun _ => .inl rfl

theorem subscribe {id : NodeId} {node : TomlNode}
    (alive : state.heap id = some node) (callback : CallbackId) :
    NodesPersist state { state with
      heap := Function.update state.heap id (some (node.subscribe callback)) } := by
  refine ⟨Nat.le_refl _, ?_⟩
  intro other later found _
  by_cases same : other = id
  · subst same
    simp only [Function.update_self, Option.some.injEq] at found
    subst found
    refine ⟨node, alive, node.path_subscribe callback, ?_⟩
    unfold TomlNode.subscribe
    split
    · exact List.prefix_rfl
    · exact List.prefix_append _ _
  · simp only [Function.update_of_ne same] at found
    exact ⟨later, found, rfl, List.prefix_rfl⟩

theorem step {event : ConfigEvent} (stepped : state.step event = some next) :
    NodesPersist state next := by
  cases event with
  | reload result =>
      obtain rfl := Option.some.inj stepped
      cases result <;> exact of_heap rfl fun _ => .inl rfl
  | getNode path =>
      obtain rfl := Option.some.inj stepped
      exact getNode path
  | release id => exact release stepped
  | subscribe id callback =>
      simp only [ConfigState.step] at stepped
      split at stepped
      · rename_i node alive
        obtain rfl := Option.some.inj stepped
        exact subscribe alive callback
      · cases stepped
  | notify id =>
      simp only [ConfigState.step] at stepped
      split at stepped
      · obtain rfl := Option.some.inj stepped
        exact of_heap rfl fun _ => .inl rfl
      · cases stepped

end NodesPersist

theorem identified_of_run {events : List ConfigEvent}
    (identified : Identified state)
    (ran : configRun state events = some next) : Identified next :=
  EventRuns.run_invariant
    (fun _ _ _ identified stepped => Identified.step identified stepped)
    identified ran

theorem nodesPersist_of_run {events : List ConfigEvent}
    (ran : configRun state events = some next) : NodesPersist state next :=
  EventRuns.run_invariant
    (fun _ _ _ before stepped => before.trans (NodesPersist.step stepped))
    (NodesPersist.refl state) ran

/-! ## Identity -/

/-- A node is alive just while a client refers to it; no two nodes that are
alive have the same path, and `GetNode` hands out the one that there is; the
table refers to nodes that are gone, or that have the path of the entry; and
calls for other paths do not change what `GetNode` hands out. -/
structure NodeIdentity (state : ConfigState) : Prop where
  alive_iff : ∀ id, (state.heap id).isSome = true ↔ 0 < state.references id
  unique : ∀ first second firstNode secondNode,
    state.heap first = some firstNode → state.heap second = some secondNode →
      firstNode.path = secondNode.path → first = second
  held : ∀ id node, state.heap id = some node →
    (state.getNode node.path).1 = some id ∧
      (state.getNode node.path).2.heap = state.heap
  entries : ∀ path id, state.nodes path = some id →
    state.heap id = none ∨
      ∃ node, state.heap id = some node ∧ node.path = path
  others : ∀ path (others : List ConfigPath), path ∉ others →
    (others.foldl (fun state other => (state.getNode other).2) state).answer
      path = state.answer path
  root : ∀ id node, state.heap id = some node →
    node.path = ConfigPath.empty → state.getRootNode.1 = some id

theorem Identified.getNode_held (identified : Identified state) {id : NodeId}
    {node : TomlNode} (alive : state.heap id = some node) :
    state.getNode node.path = (some id, state.retain id) := by
  apply getNode_of_live
  rw [identified.live_iff]
  exact ⟨node, alive, rfl⟩

theorem Identified.nodeIdentity (identified : Identified state) :
    NodeIdentity state where
  alive_iff := identified.referred
  unique first second firstNode secondNode firstAlive secondAlive samePath := by
    have firstKnown := identified.known first firstNode firstAlive
    have secondKnown := identified.known second secondNode secondAlive
    rw [samePath, secondKnown] at firstKnown
    exact (Option.some.inj firstKnown).symm
  held id node alive := by
    rw [identified.getNode_held alive]
    exact ⟨rfl, rfl⟩
  entries path id known := by
    rcases alive : state.heap id with _ | node
    · exact .inl rfl
    · exact .inr ⟨node, rfl, identified.paths path id node known alive⟩
  others path others different := identified.answer_foldl others different
  root id node alive atRoot := by
    rw [getRootNode, ← atRoot, identified.getNode_held alive]

/-- In every state that a configuration can be in, nodes are known by their
paths; and a node keeps its path and its subscriptions, and is the one that
`GetNode` hands out, over every run at whose end a client refers to it. -/
theorem nodeIdentity_of_run (events : List ConfigEvent) (state : ConfigState)
    (ran : configRun {} events = some state) :
    NodeIdentity state ∧
      ∀ more final, configRun state more = some final →
        ∀ id node, state.heap id = some node → 0 < final.references id →
          (final.getNode node.path).1 = some id ∧
            ∃ later, final.heap id = some later ∧ later.path = node.path ∧
              node.callbacks <+: later.callbacks := by
  have identified := identified_of_run identified_initial ran
  refine ⟨identified.nodeIdentity, ?_⟩
  intro more final ranOn id node alive referred
  have persist := nodesPersist_of_run ranOn
  have atEnd := identified_of_run identified ranOn
  obtain ⟨later, found⟩ :=
    Option.isSome_iff_exists.mp ((atEnd.referred id).mpr referred)
  obtain ⟨old, wasAlive, samePath, more⟩ :=
    persist.heap id later found (identified.lt_nextNode alive)
  obtain rfl := Option.some.inj (alive.symm.trans wasAlive)
  have handedOut := atEnd.getNode_held found
  rw [samePath] at handedOut
  exact ⟨by rw [handedOut], later, found, samePath, more⟩

/-- A node is released and made anew, and released and taken while it is held. -/
def releasedNodes : List ConfigEvent :=
  [.reload (.parsed (portDocument 1)), .getNode portPath, .release 0,
    .getNode [], .getNode portPath, .getNode portPath, .release 2]

theorem nodeIdentity_releasedNodes :
    ∃ state, configRun {} releasedNodes = some state ∧ NodeIdentity state ∧
      (state.getNode portPath).1 = some 2 :=
  ⟨_, rfl, (nodeIdentity_of_run releasedNodes _ rfl).1, rfl⟩

end ConfigState

end Birch

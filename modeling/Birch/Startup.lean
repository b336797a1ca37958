import Birch.ServerNumbers
import Birch.TomlConfig

/-!
# From `main` to the listening server

`main` installs the global file watcher, watches and loads the configuration
file, reads the section `server`, and lets the server listen and run its
workers.  It gives up with exit code 1 at the first stage that fails.  This file
determines when the program comes to serve, and with which numbers.
-/

namespace Birch

/-! ## The global file watcher -/

/-- The watchers that `IFileWatcher::Create` is built with. -/
inductive PlatformWatcher
  | kqueue
  | windows
  | inotify
  deriving DecidableEq

inductive FileWatcher
  | platform (watcher : PlatformWatcher)
  | noop
  deriving DecidableEq

/-- `g_onceFlag`, `g_fileWatcher` and `g_status`. -/
structure GlobalFileWatcher where
  onceFlag : Bool := false
  fileWatcher : Option FileWatcher := none
  status : Except String Unit := .ok ()

namespace GlobalFileWatcher

/-- `std::call_once`. -/
def callOnce (globals first : GlobalFileWatcher) : GlobalFileWatcher :=
  if globals.onceFlag then globals else { first with onceFlag := true }

/-- `InitializeGlobalFileWatcher`, with what `IFileWatcher::Create` yields. -/
def initializeGlobalFileWatcher (globals : GlobalFileWatcher)
    (maybeFileWatcher : Except String FileWatcher) :
    Except String Unit × GlobalFileWatcher :=
  let globals := globals.callOnce
    (match maybeFileWatcher with
      | .ok watcher => { globals with fileWatcher := some watcher }
      | .error error =>
          { globals with fileWatcher := some .noop, status := .error error })
  (globals.status, globals)

def initializeGlobalFileWatcherForTesting (globals : GlobalFileWatcher) :
    Except String Unit × GlobalFileWatcher :=
  let globals := globals.callOnce
    { globals with fileWatcher := some .noop, status := .ok () }
  (globals.status, globals)

end GlobalFileWatcher

/-! ## The stages of `main` -/

/-- What is found outside of the program: whether the calls of the system
succeed, with the messages of their errors, and what the file contains. -/
structure Environment where
  platform : PlatformWatcher
  created : Except String Unit
  path : String
  regularFile : Bool
  /-- The error code that `is_regular_file` leaves. -/
  fileError : Option String
  watched : Except String Unit
  loaded : LoadResult
  signalsAdded : Except String Unit
  listens : Except String Unit
  /-- Whether the thread of a worker can be created. -/
  createsThread : Nat → Bool

namespace Environment

variable (env : Environment)

/-- `IFileWatcher::Create`. -/
def createFileWatcher : Except String FileWatcher :=
  match env.created with
  | .ok () => .ok (.platform env.platform)
  | .error error => .error error

/-- `IFileWatcher::WatchFile`. -/
def watchFile : FileWatcher → Except String Unit
  | .platform .kqueue => env.watched
  | .platform .windows => env.watched
  | .platform .inotify =>
      .error "WatchFile not implemented for InotifyFileWatcher"
  | .noop => .ok ()

/-- `FileConfigDataSource::CreateFromFile`, with the watcher that
`InitializeFileWatch` asks for. -/
def createFromFile (watcher : FileWatcher) : Except String Unit :=
  if env.regularFile then
    env.watchFile watcher
  else
    match env.fileError with
    | some error => .error error
    | none => .error ("File " ++ env.path ++ " is not a regular file")

end Environment

/-- The nodes of a `TomlConfig`, with what `GetValue` of them is. -/
def ConfigState.asConfig (state : ConfigState) : IConfig := fun path =>
  match state.getNode path with
  | (none, _) => none
  | (some id, next) => some ((next.heap id).map TomlNode.value)

/-- `TomlConfig::Create`. -/
def tomlConfigCreate (loaded : LoadResult) : ConfigState :=
  ({} : ConfigState).reload loaded

/-- What becomes of the process: `crashed` is the use of a null pointer, and
`overflown` that of an `int` beyond its range, which is undefined. -/
inductive Outcome
  | exited (code : Nat)
  | serving (port : UInt16) (workers : UInt32)
  | crashed
  | overflown
  deriving DecidableEq

/-- The greatest `int`. -/
def intMax : Nat := 2147483647

inductive Spawning
  | spawned
  | failed
  | overflown
  deriving DecidableEq

/-- The loop of `ServeForever` over the workers, from an index on.  The index is
an `int`, and the number of the workers is not. -/
def spawnWorkers (createsThread : Nat → Bool) (numWorkers i : Nat) : Spawning :=
  if i < numWorkers then
    if createsThread i then
      if i = intMax then .overflown
      else spawnWorkers createsThread numWorkers (i + 1)
    else
      .failed
  else
    .spawned
termination_by numWorkers - i

/-- `ServeForever`.  Its exceptions are caught in `main`, which returns 0.
Without workers, nothing is waited for. -/
def serveForever (env : Environment) (config : ServerConfig) : Outcome :=
  match env.signalsAdded, env.listens with
  | .error _, _ => .exited 0
  | .ok (), .error _ => .exited 0
  | .ok (), .ok () =>
      match spawnWorkers env.createsThread config.getNumWorkers.toNat 0 with
      | .failed => .exited 0
      | .overflown => .overflown
      | .spawned =>
          if config.getNumWorkers = 0 then .exited 0
          else .serving config.getPort config.getNumWorkers

def main (env : Environment) : Outcome :=
  match ({} : GlobalFileWatcher).initializeGlobalFileWatcher
      env.createFileWatcher with
  | (.error _, _) => .exited 1
  | (.ok (), globals) =>
      match globals.fileWatcher with
      | none => .crashed
      | some watcher =>
          match env.createFromFile watcher with
          | .error _ => .exited 1
          | .ok () =>
              match createServerConfig 0
                  (some (tomlConfigCreate env.loaded).asConfig) with
              | .error _ => .exited 1
              | .ok config => serveForever env config

/-! ## The global watcher stays what it is -/

inductive WatcherCall
  | forProgram (maybeFileWatcher : Except String FileWatcher)
  | forTesting

def GlobalFileWatcher.react (globals : GlobalFileWatcher) :
    WatcherCall → Except String Unit × GlobalFileWatcher
  | .forProgram maybeFileWatcher =>
      globals.initializeGlobalFileWatcher maybeFileWatcher
  | .forTesting => globals.initializeGlobalFileWatcherForTesting

/-- The first call decides: each later one returns its status, and leaves the
watcher that it has installed. -/
theorem GlobalFileWatcher.react_installed (first : WatcherCall)
    (later : List WatcherCall) (call : WatcherCall) :
    let installed := (({} : GlobalFileWatcher).react first).2
    installed.fileWatcher ≠ none ∧
      (later.foldl (fun globals call => (globals.react call).2)
        installed).react call = (installed.status, installed) := by
  intro installed
  have once : installed.onceFlag = true ∧ installed.fileWatcher ≠ none := by
    cases first with
    | forProgram maybeFileWatcher =>
        cases maybeFileWatcher <;>
          simp [installed, react, initializeGlobalFileWatcher, callOnce]
    | forTesting =>
        simp [installed, react, initializeGlobalFileWatcherForTesting, callOnce]
  have again : ∀ call, installed.react call =
      (installed.status, installed) := by
    intro call
    cases call with
    | forProgram maybeFileWatcher =>
        simp [react, initializeGlobalFileWatcher, callOnce, once.1]
    | forTesting =>
        simp [react, initializeGlobalFileWatcherForTesting, callOnce, once.1]
  have stays : later.foldl (fun globals call => (globals.react call).2)
      installed = installed := by
    induction later with
    | nil => rfl
    | cons call later ih => rw [List.foldl_cons, again call, ih]
  rw [stays]
  exact ⟨once.2, again call⟩

/-! ## The section of the document -/

/-- The integer of an entry, or 0. -/
def integerOrZero (entries : List (Text × Toml.Node)) (key : Text) : Int64 :=
  match entries.lookup key with
  | some (.integer value) => value
  | _ => 0

/-- The file holds a document with these entries in the section `server`. -/
def HasSection (loaded : LoadResult) (entries : List (Text × Toml.Node)) :
    Prop :=
  ∃ document, loaded = .parsed document ∧
    document.entries.lookup (ascii "server") = some (.table entries)

/-- The lookups of a configuration that has just been loaded. -/
theorem asConfig_tomlConfigCreate (loaded : LoadResult) (path : ConfigPath) :
    (tomlConfigCreate loaded).asConfig path =
      ((tomlConfigCreate loaded).valueAt path).map some := by
  have cached : Cached (tomlConfigCreate loaded) := cached_initial.reload loaded
  have noNode : (tomlConfigCreate loaded).nodes path = none := by
    cases loaded <;> rfl
  have unknown : (tomlConfigCreate loaded).getNode path =
      (tomlConfigCreate loaded).makeNode path := by
    simp [ConfigState.getNode, noNode]
  rw [← cached.dig_root path, ConfigState.asConfig, unknown,
    ConfigState.makeNode]
  cases dig (tomlConfigCreate loaded).root path with
  | none => rfl
  | some value => simp

/-- The section is a table of the configuration exactly if it is one of the
document. -/
theorem serverSection_eq_map_iff (loaded : LoadResult)
    (values : List (Text × TomlValue)) :
    serverSection (some (tomlConfigCreate loaded).asConfig) =
        some (.map values) ↔
      ∃ entries, HasSection loaded entries ∧
        values = tomlMapCreate entries := by
  have joined : ∀ value : Option TomlValue, (value.map some).join = value := by
    intro value
    cases value <;> rfl
  rw [serverSection, asConfig_tomlConfigCreate, joined]
  cases loaded with
  | readFailed => simp [HasSection, tomlConfigCreate, ConfigState.reload,
      ConfigState.valueAt]
  | parseFailed => simp [HasSection, tomlConfigCreate, ConfigState.reload,
      ConfigState.valueAt]
  | parsed document =>
      have valueEq : (tomlConfigCreate (.parsed document)).valueAt
          [ascii "server"] = (document.entries.lookup (ascii "server")).bind
            TomlValue.create := by
        rw [tomlConfigCreate, ConfigState.reload, ConfigState.valueAt,
          Option.bind_some, Toml.Document.valueAt, Toml.Document.root,
          Toml.Node.at?]
        cases document.entries.lookup (ascii "server") <;> rfl
      rw [valueEq]
      constructor
      · intro found
        obtain ⟨node, looked, created⟩ := Option.bind_eq_some_iff.mp found
        cases node with
        | table entries =>
            rw [TomlValue.create, Option.some.injEq, TomlValue.map.injEq]
              at created
            exact ⟨entries, ⟨document, rfl, looked⟩, created.symm⟩
        | _ => simp [TomlValue.create] at created
      · rintro ⟨entries, ⟨other, same, looked⟩, rfl⟩
        cases same
        rw [looked]
        rfl

/-- What is read off the converted table is what the document has. -/
theorem int64OrZero_tomlMapCreate {loaded : LoadResult}
    {entries : List (Text × Toml.Node)} (hasSection : HasSection loaded entries)
    (key : Text) :
    int64OrZero (tomlMapCreate entries) key = integerOrZero entries key := by
  obtain ⟨document, _, looked⟩ := hasSection
  have distinct := document.distinct
  rw [Toml.Node.distinctKeys, Bool.and_eq_true] at distinct
  have inner := distinctKeys_of_lookup distinct.2 looked
  rw [Toml.Node.distinctKeys, Bool.and_eq_true, decide_eq_true_eq] at inner
  rw [int64OrZero, tomlMapGet, lookup_tomlMapCreate inner.1, integerOrZero]
  cases entries.lookup key with
  | none => rfl
  | some node => cases node <;> rfl

/-- The data of the server, read off the entries of its section. -/
def documentData (entries : List (Text × Toml.Node)) : ServerConfigData where
  numWorkers :=
    (integerOrZero entries (ascii "num_workers")).toUInt64.toUInt32
  port := (integerOrZero entries (ascii "port")).toUInt64.toUInt16
  tlsPort := (integerOrZero entries (ascii "tls_port")).toUInt64.toUInt16

theorem createServerConfig_iff (loaded : LoadResult) (config : ServerConfig) :
    createServerConfig 0 (some (tomlConfigCreate loaded).asConfig) =
        .ok config ↔
      ∃ entries, HasSection loaded entries ∧
        config = ServerConfig.makeShared 0 (documentData entries) := by
  rw [createServerConfig_eq_ok_iff]
  constructor
  · rintro ⟨values, isSection, rfl⟩
    obtain ⟨entries, hasSection, rfl⟩ :=
      (serverSection_eq_map_iff loaded values).mp isSection
    refine ⟨entries, hasSection, ?_⟩
    simp only [tableData, documentData, int64OrZero_tomlMapCreate hasSection]
  · rintro ⟨entries, hasSection, rfl⟩
    refine ⟨tomlMapCreate entries,
      (serverSection_eq_map_iff loaded _).mpr ⟨entries, hasSection, rfl⟩, ?_⟩
    simp only [tableData, documentData, int64OrZero_tomlMapCreate hasSection]

/-! ## When the program serves -/

/-- Each stage before `ServeForever` succeeds, with these entries in the
section `server`. -/
structure Configured (env : Environment) (entries : List (Text × Toml.Node)) :
    Prop where
  created : env.created = .ok ()
  platform : env.platform ≠ .inotify
  regularFile : env.regularFile = true
  watched : env.watched = .ok ()
  hasSection : HasSection env.loaded entries

theorem createFromFile_eq_ok_iff (env : Environment) :
    env.createFromFile (.platform env.platform) = .ok () ↔
      env.regularFile = true ∧ env.platform ≠ .inotify ∧
        env.watched = .ok () := by
  rw [Environment.createFromFile]
  cases env.regularFile with
  | false => cases env.fileError <;> simp
  | true =>
      cases env.platform <;> simp [Environment.watchFile]

theorem main_of_configured {env : Environment}
    {entries : List (Text × Toml.Node)} (configured : Configured env entries) :
    main env =
      serveForever env (ServerConfig.makeShared 0 (documentData entries)) := by
  have source := (createFromFile_eq_ok_iff env).mpr ⟨configured.regularFile,
    configured.platform, configured.watched⟩
  have config := (createServerConfig_iff env.loaded _).mpr
    ⟨entries, configured.hasSection, rfl⟩
  simp [main, GlobalFileWatcher.initializeGlobalFileWatcher,
    GlobalFileWatcher.callOnce, Environment.createFileWatcher,
    configured.created, source, config]

theorem main_of_notConfigured {env : Environment}
    (notConfigured : ∀ entries, ¬ Configured env entries) :
    main env = .exited 1 := by
  cases created : env.created with
  | error error =>
      simp [main, GlobalFileWatcher.initializeGlobalFileWatcher,
        GlobalFileWatcher.callOnce, Environment.createFileWatcher, created]
  | ok _ =>
      simp only [main, GlobalFileWatcher.initializeGlobalFileWatcher,
        GlobalFileWatcher.callOnce, Environment.createFileWatcher, created]
      cases source : env.createFromFile (.platform env.platform) with
      | error error => simp [source]
      | ok _ =>
          cases config : createServerConfig 0
              (some (tomlConfigCreate env.loaded).asConfig) with
          | error error => simp [source]
          | ok server =>
              obtain ⟨regularFile, platform, watched⟩ :=
                (createFromFile_eq_ok_iff env).mp source
              obtain ⟨entries, hasSection, _⟩ :=
                (createServerConfig_iff env.loaded server).mp config
              exact absurd ⟨created, platform, regularFile, watched, hasSection⟩
                (notConfigured entries)

/-- By induction along the loop, which leaves off at the first thread that is
not created. -/
theorem spawnWorkers_cases (createsThread : Nat → Bool) (numWorkers : Nat)
    {i : Nat} (within : i ≤ intMax) :
    (spawnWorkers createsThread numWorkers i = .spawned ↔
      numWorkers ≤ intMax ∧
        ∀ worker, i ≤ worker → worker < numWorkers →
          createsThread worker = true) ∧
      (spawnWorkers createsThread numWorkers i = .overflown ↔
        intMax < numWorkers ∧
          ∀ worker, i ≤ worker → worker ≤ intMax →
            createsThread worker = true) := by
  fun_induction spawnWorkers createsThread numWorkers i with
  | case1 more creates =>
      constructor
      · simp only [reduceCtorEq, false_iff]
        omega
      · simp only [true_iff]
        refine ⟨more, fun worker above atMost => ?_⟩
        rwa [Nat.le_antisymm atMost above]
  | case2 i more creates notMax ih =>
      have step : ∀ bound : Nat → Prop,
          (∀ worker, i + 1 ≤ worker → bound worker →
              createsThread worker = true) ↔
            ∀ worker, i ≤ worker → bound worker →
              createsThread worker = true := by
        intro bound
        constructor
        · intro later worker above inside
          rcases Nat.eq_or_lt_of_le above with rfl | beyond
          · exact creates
          · exact later worker beyond inside
        · exact fun all worker above inside =>
            all worker (Nat.le_of_succ_le above) inside
      have nextWithin : i + 1 ≤ intMax :=
        Nat.lt_of_le_of_ne within notMax
      obtain ⟨spawned, overflown⟩ := ih nextWithin
      rw [spawned, overflown, step (· < numWorkers), step (· ≤ intMax)]
      exact ⟨Iff.rfl, Iff.rfl⟩
  | case3 i more refuses =>
      constructor
      · simp only [reduceCtorEq, false_iff]
        exact fun all => refuses (all.2 i (Nat.le_refl i) more)
      · simp only [reduceCtorEq, false_iff]
        exact fun all => refuses (all.2 i (Nat.le_refl i) within)
  | case4 i done =>
      constructor
      · simp only [true_iff]
        exact ⟨by omega, fun worker above below => absurd below (by omega)⟩
      · simp only [reduceCtorEq, false_iff]
        omega

/-- The threads of all workers are created. -/
def CreatesWorkers (env : Environment) (workers : Nat) : Prop :=
  ∀ worker < workers, env.createsThread worker = true

theorem serveForever_iff (env : Environment) (config : ServerConfig) :
    (∀ port workers, serveForever env config = .serving port workers ↔
      env.signalsAdded = .ok () ∧ env.listens = .ok () ∧
        port = config.getPort ∧ workers = config.getNumWorkers ∧
          workers ≠ 0 ∧ workers.toNat ≤ intMax ∧
            CreatesWorkers env workers.toNat) ∧
      (serveForever env config = .overflown ↔
        env.signalsAdded = .ok () ∧ env.listens = .ok () ∧
          intMax < config.getNumWorkers.toNat ∧
            CreatesWorkers env (intMax + 1)) := by
  obtain ⟨spawned, overflown⟩ := spawnWorkers_cases env.createsThread
    config.getNumWorkers.toNat (Nat.zero_le intMax)
  simp only [Nat.zero_le, forall_const] at spawned overflown
  unfold serveForever CreatesWorkers
  rcases env.signalsAdded with _ | _
  · simp
  · rcases env.listens with _ | _
    · simp
    · simp only [true_and]
      cases spawning :
          spawnWorkers env.createsThread config.getNumWorkers.toNat 0 with
      | failed =>
          rw [spawning] at spawned overflown
          simp only [reduceCtorEq, false_iff] at spawned overflown ⊢
          refine ⟨?_, fun all => overflown ⟨all.1, fun worker below =>
            all.2 worker (Nat.lt_succ_of_le below)⟩⟩
          rintro port workers ⟨_, rfl, _, within⟩
          exact spawned within
      | overflown =>
          rw [spawning] at spawned overflown
          simp only [reduceCtorEq, false_iff, true_iff] at spawned overflown ⊢
          refine ⟨?_, overflown.1, fun worker below =>
            overflown.2 worker (Nat.le_of_lt_succ below)⟩
          rintro port workers ⟨_, rfl, _, within⟩
          exact spawned within
      | spawned =>
          rw [spawning] at spawned overflown
          simp only [reduceCtorEq, false_iff, true_iff] at spawned overflown
          dsimp only
          constructor
          · intro port workers
            split
            · rename_i none
              simp only [reduceCtorEq, false_iff]
              rintro ⟨_, rfl, nonzero, _⟩
              exact nonzero none
            · rename_i nonzero
              rw [Outcome.serving.injEq]
              constructor
              · rintro ⟨rfl, rfl⟩
                exact ⟨rfl, rfl, nonzero, spawned⟩
              · rintro ⟨rfl, rfl, _⟩
                exact ⟨rfl, rfl⟩
          · have tooMany : ¬ intMax < config.getNumWorkers.toNat :=
              Nat.not_lt.mpr spawned.1
            split <;> simp [tooMany]

theorem serveForever_finishes (env : Environment) (config : ServerConfig) :
    serveForever env config ≠ .exited 1 ∧
      serveForever env config ≠ .crashed := by
  unfold serveForever
  split
  · simp
  · simp
  · split
    · simp
    · simp
    · split <;> simp

/-- The program serves exactly if it is not built with the inotify watcher, its
watcher, its file, its signals and its listening socket are fine, the document
has a table `server`, the number of workers in it, cut down to 32 bits, is
neither 0 nor beyond an `int`, and their threads can be created; it then listens
on the port of the table, cut down to 16 bits.  With more workers the index
overflows once there are threads for all of its values.  The program exits with
code 1 exactly if a stage before the server fails, and never uses a null
pointer. -/
theorem main_serving_iff (env : Environment) :
    (∀ port workers, main env = .serving port workers ↔
      env.signalsAdded = .ok () ∧ env.listens = .ok () ∧
        ∃ entries, Configured env entries ∧
          port = (documentData entries).port ∧
            workers = (documentData entries).numWorkers ∧ workers ≠ 0 ∧
              workers.toNat ≤ intMax ∧ CreatesWorkers env workers.toNat) ∧
      (main env = .overflown ↔
        env.signalsAdded = .ok () ∧ env.listens = .ok () ∧
          ∃ entries, Configured env entries ∧
            intMax < (documentData entries).numWorkers.toNat ∧
              CreatesWorkers env (intMax + 1)) ∧
      (main env = .exited 1 ↔ ∀ entries, ¬ Configured env entries) ∧
        main env ≠ .crashed := by
  by_cases some : ∃ entries, Configured env entries
  · obtain ⟨entries, configured⟩ := some
    have same : ∀ other, Configured env other → other = entries := by
      intro other others
      obtain ⟨document, loaded, found⟩ := configured.hasSection
      obtain ⟨again, reloaded, foundAgain⟩ := others.hasSection
      cases loaded.symm.trans reloaded
      rw [found] at foundAgain
      injection Option.some.inj foundAgain with equal
      exact equal.symm
    obtain ⟨serves, overflows⟩ := serveForever_iff env
      (ServerConfig.makeShared 0 (documentData entries))
    obtain ⟨notExited, notCrashed⟩ := serveForever_finishes env
      (ServerConfig.makeShared 0 (documentData entries))
    rw [main_of_configured configured]
    refine ⟨?_, ?_, ?_, notCrashed⟩
    · intro port workers
      rw [serves]
      constructor
      · rintro ⟨added, listens, numbers⟩
        exact ⟨added, listens, entries, configured, numbers⟩
      · rintro ⟨added, listens, other, others, numbers⟩
        rw [same other others] at numbers
        exact ⟨added, listens, numbers⟩
    · rw [overflows]
      constructor
      · rintro ⟨added, listens, numbers⟩
        exact ⟨added, listens, entries, configured, numbers⟩
      · rintro ⟨added, listens, other, others, numbers⟩
        rw [same other others] at numbers
        exact ⟨added, listens, numbers⟩
    · constructor
      · exact fun exited => absurd exited notExited
      · exact fun nothing => absurd configured (nothing entries)
  · rw [not_exists] at some
    rw [main_of_notConfigured some]
    simp [some]

end Birch

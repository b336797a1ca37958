import Birch.TomlValue
import Mathlib.Data.List.Induction

/-!
# The configuration of the server

A `ServerConfig` reads its data from the node of the section `server`, and
subscribes to the node in its constructor.  The callback holds the object by a
weak pointer.  This file determines for which notifications of the node the
object ends up with the data that they give.
-/

namespace Birch

@[ext]
structure ServerConfigData where
  numWorkers : UInt32 := 0
  port : UInt16 := 0
  tlsPort : UInt16 := 0
  deriving DecidableEq, Repr

/-- The integer under a key, or 0. -/
def int64OrZero (values : List (Text × TomlValue)) (key : Text) : Int64 :=
  match tomlMapGet values key with
  | none => 0
  | some value => value.asInt64.getD 0

/-- No value stands for a null pointer. -/
def parseServerConfigFromValue (value : Option TomlValue) :
    Option ServerConfigData :=
  match value with
  | none => none
  | some value =>
      match value.asMap with
      | none => none
      | some map => some {
          -- The conversions to the narrower types wrap around.
          numWorkers := (int64OrZero map (ascii "num_workers")).toUInt64.toUInt32
          port := (int64OrZero map (ascii "port")).toUInt64.toUInt16
          tlsPort := (int64OrZero map (ascii "tls_port")).toUInt64.toUInt16 }

/-- `OnConfigChanged`, on the data of the object. -/
def onConfigChanged (data : ServerConfigData) (value : Option TomlValue) :
    ServerConfigData :=
  match value with
  | none => data
  | some value =>
      match parseServerConfigFromValue (some value) with
      | none => data
      | some update => {
          numWorkers :=
            if update.numWorkers > 0 then update.numWorkers else data.numWorkers
          port := update.port
          tlsPort := update.tlsPort }

/-- What a `std::weak_ptr` refers to, if it is not empty. -/
abbrev ObjectId := Nat

/-- A `ServerConfig`, with the weak pointer of `enable_shared_from_this` and
the one that its callback has captured. -/
structure ServerConfig where
  data : ServerConfigData
  weakThis : Option ObjectId := none
  weakSelf : Option ObjectId := none

namespace ServerConfig

/-- The constructor.  Nothing owns the object yet. -/
def construct (data : ServerConfigData) : ServerConfig :=
  let object : ServerConfig := { data }
  { object with weakSelf := object.weakThis }

/-- `std::make_shared`: the object is owned from when it has been constructed
on. -/
def makeShared (id : ObjectId) (data : ServerConfigData) : ServerConfig :=
  { construct data with weakThis := some id }

/-- The node calls the callback.  The object is alive, so `lock` fails only for
an empty pointer. -/
def callback (config : ServerConfig) (value : Option TomlValue) : ServerConfig :=
  match config.weakSelf with
  | none => config
  | some _ => { config with data := onConfigChanged config.data value }

def getNumWorkers (config : ServerConfig) : UInt32 := config.data.numWorkers

def getPort (config : ServerConfig) : UInt16 := config.data.port

def getTlsPort (config : ServerConfig) : UInt16 := config.data.tlsPort

end ServerConfig

/-- `GetNode` of a configuration, with what `GetValue` of the node is. -/
abbrev IConfig := ConfigPath → Option (Option TomlValue)

/-- `IServerConfig::Create`. -/
def createServerConfig (id : ObjectId) (config : Option IConfig) :
    Except String ServerConfig :=
  match config with
  | none => .error "config node missing"
  | some getNode =>
      match getNode [ascii "server"] with
      | none => .error "config missing server section"
      | some none => .error "config server section has no value"
      | some (some value) =>
          match parseServerConfigFromValue (some value) with
          | none => .error "config server section missing required data"
          | some data => .ok (ServerConfig.makeShared id data)

/-- After the notifications, the getters return what folding them gives. -/
def FollowsNode (config : ServerConfig) (values : List (Option TomlValue)) :
    Prop :=
  let notified := values.foldl ServerConfig.callback config
  let folded := values.foldl onConfigChanged config.data
  notified.getNumWorkers = folded.numWorkers ∧
    notified.getPort = folded.port ∧ notified.getTlsPort = folded.tlsPort

/-- The well-formed ones of the notified values. -/
def serverUpdates (values : List (Option TomlValue)) : List ServerConfigData :=
  values.filterMap parseServerConfigFromValue

/-- The last well-formed value has the ports of the data, and the last one with
workers has its number of workers. -/
def KeepsData (data : ServerConfigData) (values : List (Option TomlValue)) :
    Prop :=
  (∀ last ∈ (serverUpdates values).getLast?,
      last.port = data.port ∧ last.tlsPort = data.tlsPort) ∧
    ∀ last ∈ ((serverUpdates values).filter (0 < ·.numWorkers)).getLast?,
      last.numWorkers = data.numWorkers

/-! ## What the notifications give -/

/-- The data after these updates. -/
def updatedBy (data : ServerConfigData) (updates : List ServerConfigData) :
    ServerConfigData where
  numWorkers :=
    ((updates.filter (0 < ·.numWorkers)).getLast?.map
      ServerConfigData.numWorkers).getD data.numWorkers
  port := (updates.getLast?.map ServerConfigData.port).getD data.port
  tlsPort := (updates.getLast?.map ServerConfigData.tlsPort).getD data.tlsPort

theorem onConfigChanged_eq (data : ServerConfigData)
    (value : Option TomlValue) :
    onConfigChanged data value =
      match parseServerConfigFromValue value with
      | none => data
      | some update => {
          numWorkers :=
            if update.numWorkers > 0 then update.numWorkers else data.numWorkers
          port := update.port
          tlsPort := update.tlsPort } := by
  cases value with
  | none => rfl
  | some value => rfl

/-- By induction on the notifications from the last one: it decides about the
ports, and about the workers if it has some. -/
theorem foldl_onConfigChanged (data : ServerConfigData)
    (values : List (Option TomlValue)) :
    values.foldl onConfigChanged data =
      updatedBy data (serverUpdates values) := by
  induction values using List.reverseRecOn with
  | nil => rfl
  | append_singleton values value ih =>
      have appended : serverUpdates (values ++ [value]) =
          serverUpdates values ++ serverUpdates [value] :=
        List.filterMap_append
      rw [List.foldl_append, List.foldl_cons, List.foldl_nil, ih,
        onConfigChanged_eq, appended]
      rcases parsed : parseServerConfigFromValue value with _ | update
      · simp [parsed, serverUpdates]
      · by_cases workers : 0 < update.numWorkers
        · simp [parsed, updatedBy, workers, serverUpdates]
        · simp [parsed, updatedBy, workers, serverUpdates]

theorem map_getD_eq_iff {Data Value : Type*} (found : Option Data)
    (value : Data → Value) (default : Value) :
    (found.map value).getD default = default ↔
      ∀ data ∈ found, value data = default := by
  cases found <;> simp

theorem updatedBy_serverUpdates_iff (data : ServerConfigData)
    (values : List (Option TomlValue)) :
    updatedBy data (serverUpdates values) = data ↔ KeepsData data values := by
  rw [ServerConfigData.ext_iff, KeepsData]
  simp only [updatedBy, map_getD_eq_iff]
  constructor
  · rintro ⟨workers, port, tlsPort⟩
    exact ⟨fun last member => ⟨port last member, tlsPort last member⟩, workers⟩
  · rintro ⟨ports, workers⟩
    exact ⟨workers, fun last member => (ports last member).1,
      fun last member => (ports last member).2⟩

/-- The weak pointer of the callback was captured before anything owned the
object, so the callback does nothing. -/
theorem foldl_callback {config : ServerConfig} (empty : config.weakSelf = none)
    (values : List (Option TomlValue)) :
    values.foldl ServerConfig.callback config = config := by
  induction values with
  | nil => rfl
  | cons value values ih =>
      have unchanged : config.callback value = config := by
        simp [ServerConfig.callback, empty]
      rw [List.foldl_cons, unchanged, ih]

theorem weakSelf_of_create {id : ObjectId} {config : Option IConfig}
    {server : ServerConfig} (created : createServerConfig id config = .ok server) :
    server.weakSelf = none := by
  unfold createServerConfig at created
  split at created
  · cases created
  · split at created
    · cases created
    · cases created
    · split at created
      · cases created
      · obtain rfl := Except.ok.inj created
        rfl

/-- A configuration that was created follows its node exactly if the last
well-formed value that is notified has the ports that it was created with, and
the last one with workers has their number. -/
theorem followsNode_iff (id : ObjectId) (config : Option IConfig)
    (server : ServerConfig) (created : createServerConfig id config = .ok server)
    (values : List (Option TomlValue)) :
    FollowsNode server values ↔ KeepsData server.data values := by
  have unchanged := foldl_callback (weakSelf_of_create created) values
  rw [FollowsNode, unchanged, foldl_onConfigChanged,
    ← updatedBy_serverUpdates_iff, @eq_comm _ _ server.data,
    ServerConfigData.ext_iff]
  rfl

/-- A configuration whose section has a port. -/
def portConfig (port : Int64) : IConfig :=
  fun _ => some (some (.map [(ascii "port", .int64 port)]))

theorem followsNode_iff_samePort :
    ∃ server, createServerConfig 0 (some (portConfig 6667)) = .ok server ∧
      (FollowsNode server [none, some (.map [(ascii "port", .int64 6667)])] ↔
        KeepsData server.data
          [none, some (.map [(ascii "port", .int64 6667)])]) :=
  ⟨_, rfl, followsNode_iff 0 (some (portConfig 6667)) _ rfl _⟩

/-- The port changes, and the configuration keeps the old one. -/
theorem not_followsNode_otherPort :
    ∃ server, createServerConfig 0 (some (portConfig 6667)) = .ok server ∧
      (server.callback
        (some (.map [(ascii "port", .int64 6697)]))).getPort = 6667 ∧
      ¬ FollowsNode server [some (.map [(ascii "port", .int64 6697)])] := by
  refine ⟨_, rfl, rfl, ?_⟩
  rintro ⟨_, port, _⟩
  exact absurd port (by decide)

end Birch

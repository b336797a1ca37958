import Birch.EventRuns
import Birch.ServerConfig
import Mathlib.Algebra.Group.Int.Defs

/-!
# The numbers of the server's configuration

The section `server` has 64-bit integers, and the server keeps them in narrower
unsigned ones.  A number that is missing becomes 0, and one that is too large
or negative wraps around.  This file determines when the server has the numbers
that were configured, as it is created and over the updates of its section.
-/

namespace Birch

open EventRuns

/-! ## Narrow numbers -/

theorem toNat_toUInt64 (value : Int64) :
    (value.toUInt64.toNat : Int) = value.toInt % 2 ^ 64 := by
  have below := value.toBitVec.isLt
  have sameBits : value.toUInt64.toNat = value.toBitVec.toNat := rfl
  rw [Int64.toInt, BitVec.toInt_eq_toNat_cond, sameBits]
  split <;> omega

theorem toNat_toUInt32 (value : Int64) :
    (value.toUInt64.toUInt32.toNat : Int) = value.toInt % 2 ^ 32 := by
  have wide := toNat_toUInt64 value
  rw [UInt64.toNat_toUInt32]
  omega

theorem toNat_toUInt16 (value : Int64) :
    (value.toUInt64.toUInt16.toNat : Int) = value.toInt % 2 ^ 16 := by
  have wide := toNat_toUInt64 value
  rw [UInt64.toNat_toUInt16]
  omega

/-! ## Numbers in a table -/

/-- The key has an integer between these. -/
def ConfiguredIn (values : List (Text × TomlValue)) (key : Text)
    (low high : Int) : Prop :=
  ∃ number, tomlMapGet values key = some (.int64 number) ∧
    low ≤ number.toInt ∧ number.toInt ≤ high

/-- The key has the integer that is stored. -/
def ConfiguredAs (values : List (Text × TomlValue)) (key : Text)
    (stored : Nat) : Prop :=
  ∃ number, tomlMapGet values key = some (.int64 number) ∧
    number.toInt = stored

theorem int64OrZero_of_configured {values : List (Text × TomlValue)} {key : Text}
    {number : Int64} (configured : tomlMapGet values key = some (.int64 number)) :
    int64OrZero values key = number := by
  rw [int64OrZero, configured]
  rfl

/-- The data that are read off a table. -/
def tableData (values : List (Text × TomlValue)) : ServerConfigData where
  numWorkers := (int64OrZero values (ascii "num_workers")).toUInt64.toUInt32
  port := (int64OrZero values (ascii "port")).toUInt64.toUInt16
  tlsPort := (int64OrZero values (ascii "tls_port")).toUInt64.toUInt16

theorem parseServerConfigFromValue_eq (value : Option TomlValue) :
    parseServerConfigFromValue value =
      (value.bind TomlValue.asMap).map tableData := by
  cases value with
  | none => rfl
  | some value => cases value <;> rfl

/-! ## The numbers that the server is created with -/

/-- The value of the section `server`. -/
def serverSection : Option IConfig → Option TomlValue
  | none => none
  | some getNode => (getNode [ascii "server"]).join

/-- The numbers of the table are in the ranges of their fields. -/
structure NumbersInRange (values : List (Text × TomlValue)) : Prop where
  numWorkers : ConfiguredIn values (ascii "num_workers") 1 (2 ^ 32 - 1)
  port : ConfiguredIn values (ascii "port") 0 65535
  tlsPort : tomlMapGet values (ascii "tls_port") ≠ none →
    ConfiguredIn values (ascii "tls_port") 0 65535

/-- If the configuration is created, then the numbers of its table are in their
ranges, and the getters return them. -/
def ExactOrRefused (id : ObjectId) (config : Option IConfig) : Prop :=
  ∀ server, createServerConfig id config = .ok server →
    ∃ values, serverSection config = some (.map values) ∧
      NumbersInRange values ∧
      ConfiguredAs values (ascii "num_workers") server.getNumWorkers.toNat ∧
      ConfiguredAs values (ascii "port") server.getPort.toNat ∧
      (tomlMapGet values (ascii "tls_port") ≠ none →
        ConfiguredAs values (ascii "tls_port") server.getTlsPort.toNat)

/-- A configuration is created from every table, and from nothing else. -/
theorem createServerConfig_eq_ok_iff (id : ObjectId) (config : Option IConfig)
    (server : ServerConfig) :
    createServerConfig id config = .ok server ↔
      ∃ values, serverSection config = some (.map values) ∧
        server = ServerConfig.makeShared id (tableData values) := by
  rcases config with _ | getNode
  · simp [createServerConfig, serverSection]
  · rcases node : getNode [ascii "server"] with _ | _ | value
    · simp [createServerConfig, serverSection, node]
    · simp [createServerConfig, serverSection, node]
    · simp only [createServerConfig, serverSection, node,
        parseServerConfigFromValue_eq, Option.bind_some, Option.join_some,
        Option.some.injEq]
      cases value <;> simp [TomlValue.asMap, eq_comm]

theorem ConfiguredIn.as_numWorkers {values : List (Text × TomlValue)}
    (inRange : ConfiguredIn values (ascii "num_workers") 1 (2 ^ 32 - 1)) :
    ConfiguredAs values (ascii "num_workers")
      (tableData values).numWorkers.toNat := by
  obtain ⟨number, configured, low, high⟩ := inRange
  refine ⟨number, configured, ?_⟩
  rw [tableData, toNat_toUInt32, int64OrZero_of_configured configured]
  omega

theorem ConfiguredIn.as_port {values : List (Text × TomlValue)}
    (inRange : ConfiguredIn values (ascii "port") 0 65535) :
    ConfiguredAs values (ascii "port") (tableData values).port.toNat := by
  obtain ⟨number, configured, low, high⟩ := inRange
  refine ⟨number, configured, ?_⟩
  rw [tableData, toNat_toUInt16, int64OrZero_of_configured configured]
  omega

theorem ConfiguredIn.as_tlsPort {values : List (Text × TomlValue)}
    (inRange : ConfiguredIn values (ascii "tls_port") 0 65535) :
    ConfiguredAs values (ascii "tls_port") (tableData values).tlsPort.toNat := by
  obtain ⟨number, configured, low, high⟩ := inRange
  refine ⟨number, configured, ?_⟩
  rw [tableData, toNat_toUInt16, int64OrZero_of_configured configured]
  omega

/-- Numbers are exact or refused exactly if the section is no table, or one
whose numbers are in their ranges. -/
theorem exactOrRefused_iff (id : ObjectId) (config : Option IConfig) :
    ExactOrRefused id config ↔
      ∀ values, serverSection config = some (.map values) →
        NumbersInRange values := by
  constructor
  · intro exact_ values isTable
    obtain ⟨found, sameTable, inRange, _⟩ := exact_ _
      ((createServerConfig_eq_ok_iff id config _).mpr ⟨values, isTable, rfl⟩)
    rw [isTable, Option.some.injEq, TomlValue.map.injEq] at sameTable
    exact sameTable ▸ inRange
  · intro inRange server created
    obtain ⟨values, isTable, rfl⟩ :=
      (createServerConfig_eq_ok_iff id config server).mp created
    have numbers := inRange values isTable
    exact ⟨values, isTable, numbers, numbers.numWorkers.as_numWorkers,
      numbers.port.as_port, fun present => (numbers.tlsPort present).as_tlsPort⟩

/-- A configuration with this table as its section `server`. -/
def tableConfig (values : List (Text × TomlValue)) : IConfig :=
  fun _ => some (some (.map values))

/-- The port is 65536 too large, and the server listens on port 80. -/
def wrappedPort : List (Text × TomlValue) :=
  [(ascii "num_workers", .int64 4), (ascii "port", .int64 65616)]

theorem not_exactOrRefused_wrappedPort :
    (∃ server, createServerConfig 0 (some (tableConfig wrappedPort)) =
        .ok server ∧ server.getPort = 80) ∧
      ¬ ExactOrRefused 0 (some (tableConfig wrappedPort)) := by
  refine ⟨⟨_, rfl, rfl⟩, ?_⟩
  intro exact_
  obtain ⟨values, isTable, inRange, _⟩ := exact_ _ rfl
  obtain rfl : wrappedPort = values := by
    injection isTable with isTable
    injection isTable
  obtain ⟨number, configured, _, high⟩ := inRange.port
  obtain rfl : 65616 = number := by
    injection configured with configured
    injection configured
  exact absurd high (by decide)

/-! ## Updates -/

/-- A value that is no table leaves the data, and so does a number that is
missing, that is no integer or that is not in the range of its field. -/
structure IgnoresMalformed (data : ServerConfigData) (value : Option TomlValue) :
    Prop where
  notTable : value.bind TomlValue.asMap = none →
    onConfigChanged data value = data
  numWorkers : ∀ values, value.bind TomlValue.asMap = some values →
    ¬ ConfiguredIn values (ascii "num_workers") 1 (2 ^ 32 - 1) →
      (onConfigChanged data value).numWorkers = data.numWorkers
  port : ∀ values, value.bind TomlValue.asMap = some values →
    ¬ ConfiguredIn values (ascii "port") 0 65535 →
      (onConfigChanged data value).port = data.port

/-- Of each number that is not in its range, what remains of it (0, if there is
none) is what is stored already, or is 0 workers. -/
structure AppliesCleanly (data : ServerConfigData) (value : Option TomlValue) :
    Prop where
  numWorkers : ∀ values, value.bind TomlValue.asMap = some values →
    ConfiguredIn values (ascii "num_workers") 1 (2 ^ 32 - 1) ∨
      (int64OrZero values (ascii "num_workers")).toInt % 2 ^ 32 = 0 ∨
      (int64OrZero values (ascii "num_workers")).toInt % 2 ^ 32 =
        data.numWorkers.toNat
  port : ∀ values, value.bind TomlValue.asMap = some values →
    ConfiguredIn values (ascii "port") 0 65535 ∨
      (int64OrZero values (ascii "port")).toInt % 2 ^ 16 = data.port.toNat

theorem onConfigChanged_notTable (data : ServerConfigData)
    {value : Option TomlValue} (notTable : value.bind TomlValue.asMap = none) :
    onConfigChanged data value = data := by
  rw [onConfigChanged_eq, parseServerConfigFromValue_eq, notTable]
  rfl

theorem onConfigChanged_table (data : ServerConfigData)
    {value : Option TomlValue} {values : List (Text × TomlValue)}
    (table : value.bind TomlValue.asMap = some values) :
    onConfigChanged data value = {
      numWorkers :=
        if (tableData values).numWorkers > 0 then (tableData values).numWorkers
        else data.numWorkers
      port := (tableData values).port
      tlsPort := (tableData values).tlsPort } := by
  rw [onConfigChanged_eq, parseServerConfigFromValue_eq, table]
  rfl

theorem numWorkers_onConfigChanged_iff (data : ServerConfigData)
    {value : Option TomlValue} {values : List (Text × TomlValue)}
    (table : value.bind TomlValue.asMap = some values) :
    (onConfigChanged data value).numWorkers = data.numWorkers ↔
      (int64OrZero values (ascii "num_workers")).toInt % 2 ^ 32 = 0 ∨
        (int64OrZero values (ascii "num_workers")).toInt % 2 ^ 32 =
          data.numWorkers.toNat := by
  rw [onConfigChanged_table data table, ← toNat_toUInt32, tableData]
  dsimp only
  generalize (int64OrZero values (ascii "num_workers")).toUInt64.toUInt32 = read
  split
  · rename_i some
    have positive : 0 < read.toNat := UInt32.lt_iff_toNat_lt.mp some
    rw [← UInt32.toNat_inj]
    omega
  · rename_i none
    have zero : ¬ 0 < read.toNat := fun some => none (UInt32.lt_iff_toNat_lt.mpr some)
    simp only [true_iff]
    omega

theorem port_onConfigChanged_iff (data : ServerConfigData)
    {value : Option TomlValue} {values : List (Text × TomlValue)}
    (table : value.bind TomlValue.asMap = some values) :
    (onConfigChanged data value).port = data.port ↔
      (int64OrZero values (ascii "port")).toInt % 2 ^ 16 = data.port.toNat := by
  rw [onConfigChanged_table data table, ← toNat_toUInt16, ← UInt16.toNat_inj]
  exact Int.natCast_inj.symm

/-- For one update. -/
theorem ignoresMalformed_iff (data : ServerConfigData)
    (value : Option TomlValue) :
    IgnoresMalformed data value ↔ AppliesCleanly data value := by
  constructor
  · intro ignores
    constructor
    · intro values table
      rw [← numWorkers_onConfigChanged_iff data table]
      exact Classical.or_iff_not_imp_left.mpr (ignores.numWorkers values table)
    · intro values table
      rw [← port_onConfigChanged_iff data table]
      exact Classical.or_iff_not_imp_left.mpr (ignores.port values table)
  · intro clean
    constructor
    · exact onConfigChanged_notTable data
    · intro values table outOfRange
      rw [numWorkers_onConfigChanged_iff data table]
      exact (clean.numWorkers values table).resolve_left outOfRange
    · intro values table outOfRange
      rw [port_onConfigChanged_iff data table]
      exact (clean.port values table).resolve_left outOfRange

/-- The data, with the values that they come from: that of the initial document
and those of the updates. -/
structure UpdatedData where
  data : ServerConfigData
  documents : List (Option TomlValue)

namespace UpdatedData

def step (state : UpdatedData) (value : Option TomlValue) : Option UpdatedData :=
  some {
    data := onConfigChanged state.data value
    documents := state.documents ++ [value] }

/-- A document has this integer under the key. -/
def Configures (state : UpdatedData) (key : Text) (stored : Nat) : Prop :=
  ∃ document ∈ state.documents, ∃ values,
    document.bind TomlValue.asMap = some values ∧ ConfiguredAs values key stored

/-- The numbers are ones that some document has. -/
structure NumbersConfigured (state : UpdatedData) : Prop where
  numWorkers :
    state.Configures (ascii "num_workers") state.data.numWorkers.toNat
  port : state.Configures (ascii "port") state.data.port.toNat

/-- Over the updates, nothing malformed changes its number, and the numbers are
ones that some document has. -/
def UpdatesSafely (state : UpdatedData) (updates : List (Option TomlValue)) :
    Prop :=
  EachStep step (fun state value => IgnoresMalformed state.data value) state
      updates ∧
    Throughout step NumbersConfigured state updates

variable {state : UpdatedData}

theorem Configures.later {key : Text} {stored : Nat}
    (configures : state.Configures key stored) (value : Option TomlValue)
    (data : ServerConfigData) :
    Configures ⟨data, state.documents ++ [value]⟩ key stored := by
  obtain ⟨document, member, configured⟩ := configures
  exact ⟨document, List.mem_append_left _ member, configured⟩

theorem configures_now {key : Text} {stored : Nat} {value : Option TomlValue}
    {values : List (Text × TomlValue)} (data : ServerConfigData)
    (table : value.bind TomlValue.asMap = some values)
    (configured : ConfiguredAs values key stored) :
    Configures ⟨data, state.documents ++ [value]⟩ key stored :=
  ⟨value, List.mem_append_right _ (List.mem_singleton_self value), values, table,
    configured⟩

theorem NumbersConfigured.step (configured : NumbersConfigured state)
    {value : Option TomlValue} (clean : AppliesCleanly state.data value) :
    NumbersConfigured
      ⟨onConfigChanged state.data value, state.documents ++ [value]⟩ := by
  have ignores := (ignoresMalformed_iff state.data value).mpr clean
  rcases table : value.bind TomlValue.asMap with _ | values
  · rw [onConfigChanged_notTable state.data table]
    exact ⟨configured.numWorkers.later value _, configured.port.later value _⟩
  · constructor
    · by_cases inRange : ConfiguredIn values (ascii "num_workers") 1 (2 ^ 32 - 1)
      · apply configures_now _ table
        have asRead := inRange.as_numWorkers
        obtain ⟨number, isNumber, low, _⟩ := inRange
        obtain ⟨read, isRead, readEq⟩ := asRead
        obtain rfl : number = read := by
          rw [isNumber] at isRead
          injection isRead with isRead
          injection isRead
        have some : (tableData values).numWorkers > 0 := by
          rw [gt_iff_lt, UInt32.lt_iff_toNat_lt]
          change 0 < (tableData values).numWorkers.toNat
          omega
        rw [onConfigChanged_table state.data table]
        dsimp only
        rw [if_pos some]
        exact ⟨number, isNumber, readEq⟩
      · dsimp only
        rw [ignores.numWorkers values table inRange]
        exact configured.numWorkers.later value _
    · by_cases inRange : ConfiguredIn values (ascii "port") 0 65535
      · apply configures_now _ table
        rw [onConfigChanged_table state.data table]
        exact inRange.as_port
      · dsimp only
        rw [ignores.port values table inRange]
        exact configured.port.later value _

/-- The updates do no damage exactly if the numbers were configured before them,
and no update has a number out of its range that changes what is stored. -/
theorem updatesSafely_iff (state : UpdatedData)
    (updates : List (Option TomlValue)) :
    UpdatesSafely state updates ↔
      NumbersConfigured state ∧
        EachStep step (fun state value => AppliesCleanly state.data value) state
          updates := by
  simp only [UpdatesSafely, ignoresMalformed_iff]
  constructor
  · rintro ⟨each, throughout⟩
    exact ⟨throughout.first, each⟩
  · rintro ⟨configured, each⟩
    refine ⟨each, ?_⟩
    apply throughout_of_eachStep (fun _ => id) ?_ configured each
    rintro state value next configured clean ⟨⟩
    exact configured.step clean

/-- What `Create` makes of a table. -/
def created (values : List (Text × TomlValue)) : UpdatedData where
  data := tableData values
  documents := [some (.map values)]

/-- The initial document has four workers and a port, and the update has only
the workers. -/
theorem not_updatesSafely_missingPort :
    ¬ UpdatesSafely
      (created [(ascii "num_workers", .int64 4), (ascii "port", .int64 6667)])
      [some (.map [(ascii "num_workers", .int64 8)])] := by
  rintro ⟨⟨ignores, _⟩, _⟩
  have kept := ignores.port _ rfl (by
    rintro ⟨number, configured, _⟩
    cases configured)
  exact absurd kept (by decide)

end UpdatedData

end Birch

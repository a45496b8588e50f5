/-
The values of a configuration and their validation (`config/config_store`).

The members of the configuration's JSON object are listed once (`members`), each with the
range that `parse_field` checks; `parse_field` looks a key up in the list and `serialize` goes
through it in order.

* `Values.InRange` — what `parse_field` keeps;
* `validate_defaults`, `defaults_inRange` — the built-in values pass both checks.
-/
import UhfGateway.Network.Config

namespace Uhf.Config

/-- The UTF-8 bytes of a string literal of the source. -/
def utf8 (s : String) : Bytes := s.toList.flatMap String.utf8EncodeChar

structure Values where
  acquisitionDevice : Bytes := ascii "/dev/ttyS1"
  acquisitionSlaveId : UInt8 := 1
  acquisitionPeriodMs : UInt32 := 6000
  acquisitionResponseTimeoutMs : UInt32 := 150
  acquisitionMaxRetries : UInt8 := 3
  rtuDevice : Bytes := ascii "/dev/ttyS4"
  rtuUnitId : UInt8 := 1
  modbusTcpBind : Bytes := ascii "192.168.3.230"
  modbusTcpUnitId : UInt8 := 1
  modbusTcpPort : UInt16 := 502
  webPort : UInt16 := 8080
  tlsEnabled : Bool := true
  iecEnabled : Bool := true
  iecPort : UInt16 := 102
  iecIedName : Bytes := ascii "UHFPD1"
  ftpEnabled : Bool := false
  ftpPort : UInt16 := 21
  overviewTitle : Bytes := utf8 "局部放电在线监测系统"
  overviewDevice : Bytes := utf8 "1号主变"
  phaseStartDegree : UInt16 := 0
  timeSyncEnabled : Bool := true
  sntpServer : Bytes := ascii "pool.ntp.org"
  storagePeriodSeconds : UInt32 := 300
  storageRetentionDays : UInt32 := 1
  storageMinFreeBytes : UInt64 := 536870912
  storageEventThresholdDbm : Int32 := -45
  storageEventRearmDbm : Int32 := -50
  storageEventDeltaDb : UInt32 := 10
  storageEventMergeSeconds : UInt32 := 60
  deriving DecidableEq

structure Snapshot where
  version : UInt64 := 1
  values : Values := {}
  deriving DecidableEq

/-! ### Members -/

/-- A member of the JSON object: what kind of value it has, with the range of a number, and
where the value is kept. -/
inductive Member
  | text (key : Bytes) (get : Values → Bytes) (set : Bytes → Values → Values)
  | boolean (key : Bytes) (get : Values → Bool) (set : Bool → Values → Values)
  | unsigned (key : Bytes) (minimum maximum : ℕ) (get : Values → ℕ) (set : ℕ → Values → Values)
  | signed (key : Bytes) (minimum maximum : Int) (get : Values → Int) (set : Int → Values → Values)

def Member.key : Member → Bytes
  | text key .. | boolean key .. | unsigned key .. | signed key .. => key

/-- The members in the order of `serialize`, with the ranges of `parse_field`. -/
def members : List Member :=
  [ .text (ascii "acquisition_device") (·.acquisitionDevice)
      fun s v => { v with acquisitionDevice := s },
    .unsigned (ascii "acquisition_slave_id") 1 247 (·.acquisitionSlaveId.toNat)
      fun n v => { v with acquisitionSlaveId := UInt8.ofNat n },
    .unsigned (ascii "acquisition_period_ms") 6000 60000 (·.acquisitionPeriodMs.toNat)
      fun n v => { v with acquisitionPeriodMs := UInt32.ofNat n },
    .unsigned (ascii "acquisition_response_timeout_ms") 50 180
      (·.acquisitionResponseTimeoutMs.toNat)
      fun n v => { v with acquisitionResponseTimeoutMs := UInt32.ofNat n },
    .unsigned (ascii "acquisition_max_retries") 0 3 (·.acquisitionMaxRetries.toNat)
      fun n v => { v with acquisitionMaxRetries := UInt8.ofNat n },
    .text (ascii "rtu_device") (·.rtuDevice) fun s v => { v with rtuDevice := s },
    .unsigned (ascii "rtu_unit_id") 1 247 (·.rtuUnitId.toNat)
      fun n v => { v with rtuUnitId := UInt8.ofNat n },
    .text (ascii "modbus_tcp_bind") (·.modbusTcpBind) fun s v => { v with modbusTcpBind := s },
    .unsigned (ascii "modbus_tcp_unit_id") 1 247 (·.modbusTcpUnitId.toNat)
      fun n v => { v with modbusTcpUnitId := UInt8.ofNat n },
    .unsigned (ascii "modbus_tcp_port") 1 65535 (·.modbusTcpPort.toNat)
      fun n v => { v with modbusTcpPort := UInt16.ofNat n },
    .unsigned (ascii "web_port") 1024 65535 (·.webPort.toNat)
      fun n v => { v with webPort := UInt16.ofNat n },
    .boolean (ascii "tls_enabled") (·.tlsEnabled) fun b v => { v with tlsEnabled := b },
    .boolean (ascii "iec_enabled") (·.iecEnabled) fun b v => { v with iecEnabled := b },
    .unsigned (ascii "iec_port") 1 65535 (·.iecPort.toNat)
      fun n v => { v with iecPort := UInt16.ofNat n },
    .text (ascii "iec_ied_name") (·.iecIedName) fun s v => { v with iecIedName := s },
    .boolean (ascii "ftp_enabled") (·.ftpEnabled) fun b v => { v with ftpEnabled := b },
    .unsigned (ascii "ftp_port") 1 65535 (·.ftpPort.toNat)
      fun n v => { v with ftpPort := UInt16.ofNat n },
    .text (ascii "overview_title") (·.overviewTitle) fun s v => { v with overviewTitle := s },
    .text (ascii "overview_device") (·.overviewDevice) fun s v => { v with overviewDevice := s },
    .unsigned (ascii "phase_start_degree") 0 360 (·.phaseStartDegree.toNat)
      fun n v => { v with phaseStartDegree := UInt16.ofNat n },
    .boolean (ascii "time_sync_enabled") (·.timeSyncEnabled)
      fun b v => { v with timeSyncEnabled := b },
    .text (ascii "sntp_server") (·.sntpServer) fun s v => { v with sntpServer := s },
    .unsigned (ascii "storage_period_seconds") 60 86400 (·.storagePeriodSeconds.toNat)
      fun n v => { v with storagePeriodSeconds := UInt32.ofNat n },
    .unsigned (ascii "storage_retention_days") 1 30 (·.storageRetentionDays.toNat)
      fun n v => { v with storageRetentionDays := UInt32.ofNat n },
    .unsigned (ascii "storage_min_free_bytes") 268435456 18446744073709551615
      (·.storageMinFreeBytes.toNat)
      fun n v => { v with storageMinFreeBytes := UInt64.ofNat n },
    .signed (ascii "storage_event_threshold_dbm") (-70) 15 (·.storageEventThresholdDbm.toInt)
      fun n v => { v with storageEventThresholdDbm := Int32.ofInt n },
    .signed (ascii "storage_event_rearm_dbm") (-70) 15 (·.storageEventRearmDbm.toInt)
      fun n v => { v with storageEventRearmDbm := Int32.ofInt n },
    .unsigned (ascii "storage_event_delta_db") 1 85 (·.storageEventDeltaDb.toNat)
      fun n v => { v with storageEventDeltaDb := UInt32.ofNat n },
    .unsigned (ascii "storage_event_merge_seconds") 0 3600 (·.storageEventMergeSeconds.toNat)
      fun n v => { v with storageEventMergeSeconds := UInt32.ofNat n } ]

/-! ### Validation -/

def isAlpha (c : UInt8) : Bool := (65 ≤ c && c ≤ 90) || (97 ≤ c && c ≤ 122)

def validIedName (value : Bytes) : Bool :=
  !value.isEmpty && value.length ≤ 32 && value.head?.any isAlpha &&
    value.all fun c => Network.isAlnum c || c = '_'.toUInt8

def validConfigText (value : Bytes) (maximum : ℕ) : Bool :=
  !value.isEmpty && value.length ≤ maximum && value.all fun c => !(c < 0x20 || c = 0x7F)

/-- The loop of `valid_sntp_server`; `previous` is the character before. -/
def sntpServerChars : (previous : UInt8) → Bytes → Bool
  | _, [] => true
  | previous, c :: rest =>
    if !(Network.isAlnum c || c = '.'.toUInt8 || c = '-'.toUInt8) then false
    else if c = '.'.toUInt8 ∧ previous = '.'.toUInt8 then false
    else sntpServerChars c rest

def validSntpServer (value : Bytes) : Bool :=
  validConfigText value 253 && value.head? ≠ some '.'.toUInt8 &&
    value.getLast? ≠ some '.'.toUInt8 && sntpServerChars 0 value

def validate (values : Values) : Bool :=
  let webPortConflictsWithModbus := decide (values.webPort = values.modbusTcpPort)
  let webPortConflictsWithIec := values.iecEnabled && decide (values.webPort = values.iecPort)
  let modbusPortConflictsWithIec :=
    values.iecEnabled && decide (values.modbusTcpPort = values.iecPort)
  let ftpPortConflicts := values.ftpEnabled &&
    (decide (values.ftpPort = values.webPort) || decide (values.ftpPort = values.modbusTcpPort) ||
      (values.iecEnabled && decide (values.ftpPort = values.iecPort)))
  values.tlsEnabled && !webPortConflictsWithModbus && !webPortConflictsWithIec &&
    !modbusPortConflictsWithIec && !ftpPortConflicts &&
    decide (values.acquisitionDevice = ascii "/dev/ttyS1") &&
    decide (values.rtuDevice = ascii "/dev/ttyS4") &&
    (Network.inetPton values.modbusTcpBind).isSome &&
    validIedName values.iecIedName &&
    validConfigText values.overviewTitle 64 && validConfigText values.overviewDevice 64 &&
    decide (values.phaseStartDegree ≤ 360) && validSntpServer values.sntpServer &&
    decide (1 ≤ values.acquisitionSlaveId) && decide (values.acquisitionSlaveId ≤ 247) &&
    decide (1 ≤ values.rtuUnitId) && decide (values.rtuUnitId ≤ 247) &&
    decide (1 ≤ values.modbusTcpUnitId) && decide (values.modbusTcpUnitId ≤ 247) &&
    decide (values.modbusTcpPort ≠ 0) && decide (1024 ≤ values.webPort) &&
    decide (values.iecPort ≠ 0) && decide (60 ≤ values.storagePeriodSeconds) &&
    decide (1 ≤ values.storageRetentionDays) && decide (values.storageRetentionDays ≤ 30) &&
    decide (268435456 ≤ values.storageMinFreeBytes) &&
    decide (-70 ≤ values.storageEventThresholdDbm) &&
    decide (values.storageEventThresholdDbm ≤ 15) &&
    decide (-70 ≤ values.storageEventRearmDbm) && decide (values.storageEventRearmDbm ≤ 15) &&
    decide (values.storageEventRearmDbm < values.storageEventThresholdDbm) &&
    decide (1 ≤ values.storageEventDeltaDb) && decide (values.storageEventDeltaDb ≤ 85) &&
    decide (values.storageEventMergeSeconds ≤ 3600)

/-- What `parse_string` returns: no more than 256 bytes, and no null character. -/
structure Legible (text : Bytes) : Prop where
  short : text.length ≤ 256
  noNull : 0 ∉ text

/-- The value of a member is one that `parse_field` may have stored. -/
def Member.Admits (values : Values) : Member → Prop
  | text _ get _ => Legible (get values)
  | boolean .. => True
  | unsigned _ minimum maximum get _ => minimum ≤ get values ∧ get values ≤ maximum
  | signed _ minimum maximum get _ => minimum ≤ get values ∧ get values ≤ maximum

/-- The ranges of `parse_field`. -/
def Values.InRange (values : Values) : Prop := ∀ m ∈ members, m.Admits values

instance (text : Bytes) : Decidable (Legible text) :=
  decidable_of_iff (text.length ≤ 256 ∧ 0 ∉ text) ⟨fun h => ⟨h.1, h.2⟩, fun h => ⟨h.1, h.2⟩⟩

instance (values : Values) : (m : Member) → Decidable (m.Admits values)
  | .text _ get _ => inferInstanceAs (Decidable (Legible (get values)))
  | .boolean .. => inferInstanceAs (Decidable True)
  | .unsigned _ minimum maximum get _ =>
    inferInstanceAs (Decidable (minimum ≤ get values ∧ get values ≤ maximum))
  | .signed _ minimum maximum get _ =>
    inferInstanceAs (Decidable (minimum ≤ get values ∧ get values ≤ maximum))

theorem defaults_inRange : Values.InRange {} := by
  unfold Values.InRange
  decide +kernel

theorem validate_defaults : validate {} = true := by decide +kernel

end Uhf.Config

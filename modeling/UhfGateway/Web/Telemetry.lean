/-
The texts of the telemetry messages (`health`, `web/snapshot_json`).
-/
import UhfGateway.Acquisition.SnapshotStore

namespace Uhf

/-- A JSON string; the source composes the ones here from fixed names. -/
def jsonString (value : Bytes) : Bytes := [0x22] ++ value ++ [0x22]

def jsonObject (members : List Bytes) : Bytes :=
  [0x7B] ++ (members.intersperse (ascii ",")).flatten ++ [0x7D]

def jsonArray (elements : List Bytes) : Bytes :=
  ascii "[" ++ (elements.intersperse (ascii ",")).flatten ++ ascii "]"

def jsonBool (value : Bool) : Bytes := ascii (if value then "true" else "false")

end Uhf

/-! ### Health -/

namespace Uhf.Health

open Acquisition

inductive State
  | up
  | degraded
  | down
  | disabled
  deriving DecidableEq

def stateRank : State → ℕ
  | .up => 0
  | .disabled => 1
  | .degraded => 2
  | .down => 3

def worstState (first second : State) : State :=
  if stateRank second ≤ stateRank first then first else second

def stateName : State → Bytes
  | .up => ascii "up"
  | .degraded => ascii "degraded"
  | .down => ascii "down"
  | .disabled => ascii "disabled"

structure Input where
  lastAcquisitionSuccess : Option Nanoseconds := none
  acquisitionLastCycleOk : Bool := false
  consecutiveNoResponse : UInt32 := 0
  communicationAlarm : Bool := false
  storageWritable : Bool := false
  storageLowWatermark : Bool := false
  modbusTcpListening : Bool := false
  modbusRtuReady : Bool := false
  iec61850Enabled : Bool := false

structure Report where
  overall : State := .down
  acquisition : State := .down
  storage : State := .down
  modbusTcp : State := .down
  modbusRtu : State := .down
  iec61850 : State := .disabled
  acquisitionAgeKnown : Bool := false
  acquisitionAgeMs : UInt64 := 0
  consecutiveNoResponse : UInt32 := 0
  communicationAlarm : Bool := false

def Report.toJson (report : Report) : Bytes :=
  let status (state : State) : Bytes := jsonKey "status" ++ jsonString (stateName state)
  jsonObject [
    status report.overall,
    jsonKey "acquisition" ++ jsonObject [
      status report.acquisition,
      jsonKey "age_ms" ++
        (if report.acquisitionAgeKnown then decimal report.acquisitionAgeMs.toNat
          else ascii "null"),
      jsonKey "consecutive_no_response" ++ decimal report.consecutiveNoResponse.toNat,
      jsonKey "communication_alarm" ++ jsonBool report.communicationAlarm],
    jsonKey "storage" ++ jsonObject [status report.storage],
    jsonKey "modbus_tcp" ++ jsonObject [status report.modbusTcp],
    jsonKey "modbus_rtu" ++ jsonObject [status report.modbusRtu],
    jsonKey "iec61850" ++ jsonObject [status report.iec61850]] ++ ascii "\n"

structure Aggregator where
  staleAfter : Nanoseconds := 6000000000
  downAfter : Nanoseconds := 30000000000

/-- The state of the acquisition, but for the alarm. -/
def Aggregator.acquisitionState (aggregator : Aggregator) (input : Input) (now : Nanoseconds) :
    State :=
  match input.lastAcquisitionSuccess with
  | none => .down
  | some success =>
    let elapsed := max (now - success) 0
    if aggregator.downAfter < elapsed then .down
    else if aggregator.staleAfter < elapsed ∨ !input.acquisitionLastCycleOk then .degraded
    else .up

def Aggregator.evaluate (aggregator : Aggregator) (input : Input) (now : Nanoseconds) : Report :=
  let acquisition :=
    if input.communicationAlarm then .down else aggregator.acquisitionState input now
  let storage :=
    if !input.storageWritable then .down
    else if input.storageLowWatermark then .degraded
    else .up
  let modbusTcp := if input.modbusTcpListening then .up else .down
  let modbusRtu := if input.modbusRtuReady then .up else .down
  let iec61850 := if input.iec61850Enabled then .up else .disabled
  let worst := [acquisition, storage, modbusTcp, modbusRtu, iec61850].foldl worstState .up
  { overall := if worst = .disabled then .degraded else worst
    acquisition := acquisition
    storage := storage
    modbusTcp := modbusTcp
    modbusRtu := modbusRtu
    iec61850 := iec61850
    acquisitionAgeKnown := input.lastAcquisitionSuccess.isSome
    acquisitionAgeMs := input.lastAcquisitionSuccess.elim 0 fun success =>
      UInt64.ofNat ((max (now - success) 0).tdiv 1000000).toNat
    consecutiveNoResponse := input.consecutiveNoResponse
    communicationAlarm := input.communicationAlarm }

end Uhf.Health

/-! ### Snapshots -/

namespace Uhf.Web

open Domain Acquisition

def payloadStatusName : PayloadStatus → Bytes
  | .good => ascii "good"
  | .degraded => ascii "degraded"
  | .notRefreshed => ascii "not_refreshed"

def availabilityName : Availability → Bytes
  | .fresh => ascii "fresh"
  | .stale => ascii "stale"
  | .invalid => ascii "invalid"

def measurementNames : List Bytes :=
  [ascii "average", ascii "frequency", ascii "peak", ascii "phase", ascii "noise"]

def renderSnapshotJson (view : ServingView) : Option Bytes :=
  view.snapshot.map fun latest =>
    let usable : Bool := view.status.availability ≠ .invalid
    let payload := latest.payload
    jsonObject [
      jsonKey "schema_version" ++ ascii "1",
      jsonKey "generation" ++ decimal latest.generation.toNat,
      jsonKey "availability" ++ jsonString (availabilityName view.status.availability),
      jsonKey "payload_status" ++ jsonString (payloadStatusName payload.payloadStatus),
      jsonKey "poll_duration_ms" ++ decimal latest.pollDuration,
      jsonKey "measurements" ++ jsonArray
        ((measurementNames.zip payload.measurements.toList).map fun (name, measurement) =>
          jsonObject [
            jsonKey "name" ++ jsonString name,
            jsonKey "raw" ++ decimal measurement.raw.toNat,
            jsonKey "value" ++
              (if usable && measurement.valid then decimal measurement.value else ascii "null"),
            jsonKey "valid" ++ jsonBool measurement.valid]),
      jsonKey "spectrum" ++ jsonArray
        ((payload.spectrum.toList.zip payload.spectrumValid.toList).map fun (point, valid) =>
          if usable && valid then decimal point else ascii "null"),
      jsonKey "spectrum_valid" ++ jsonArray
        (payload.spectrumValid.toList.map fun valid => jsonBool (usable && valid))] ++ ascii "\n"

end Uhf.Web

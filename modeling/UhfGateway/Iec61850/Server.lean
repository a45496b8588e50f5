/-
The MMS server of the gateway (`iec61850/server`).

The server keeps the attributes of its data model and writes all of them in one go, under the
lock of the data model.  Before it listens they are all invalid; while it runs a thread looks at
the snapshot store every 50 ms and writes them when what it sees has changed.

* `publishSnapshot`, `publishInvalidValues` — what is written;
* `Server.startLocked`, `Server.stopLocked`, `Server.updateEndpoint` — the server's life; whether
  the address can be bound is for the network to say;
* `publishView_good` — what a client reads with good quality is a valid measurement of a fresh
  snapshot.
-/
import UhfGateway.Iec61850.Alarm
import UhfGateway.Iec61850.SclModel

namespace Uhf.Iec61850

open Domain Acquisition Storage Storage.EventDetector

/-! ### Attributes -/

inductive Quality
  | good
  | invalid
  /-- Questionable, with the detail "old data". -/
  | questionable
  deriving DecidableEq, Repr

def qualityFor (availability : Availability) (valid : Bool) : Quality :=
  if availability = .invalid || !valid then .invalid
  else if availability = .stale then .questionable
  else .good

/-- A value of the data model; the floats that are written hold whole numbers. -/
inductive AttributeValue
  | int32 (value : Int)
  | float (value : Int)
  | boolean (value : Bool)
  deriving DecidableEq, Repr

/-- The value, the quality and the time of a data object. -/
structure DataObject where
  value : AttributeValue
  quality : Quality
  timestampMs : UInt64
  deriving DecidableEq, Repr

/-- The attributes that the server writes. -/
structure Attributes where
  measurements : Vector DataObject 5
  peak : DataObject
  alarm : DataObject
  communicationAlarm : DataObject
  deriving DecidableEq

/-- `measurement_integer`: the pulse count is the one whole number. -/
def measurementInteger (index : ℕ) : Bool := index = 1

def measurementValue (index : ℕ) (value : Int) : AttributeValue :=
  if measurementInteger index then .int32 value else .float value

def measurementObject (availability : Availability) (timestampMs : UInt64) (index : ℕ)
    (measurement : Measurement) : DataObject :=
  let usable := decide (availability ≠ .invalid) && measurement.valid
  ⟨measurementValue index (if usable then measurement.value else 0),
    qualityFor availability measurement.valid, timestampMs⟩

/-- `update_communication_alarm`. -/
def communicationAlarmObject (active : Bool) (timestampMs : UInt64) : DataObject :=
  ⟨.boolean active, .good, timestampMs⟩

def publishInvalidValues (communicationAlarm : Bool) (timestampMs : UInt64) : Attributes where
  measurements := .ofFn fun index =>
    ⟨measurementValue index.val 0, qualityFor .invalid false, timestampMs⟩
  peak := ⟨.float 0, qualityFor .invalid false, timestampMs⟩
  alarm := ⟨.boolean false, qualityFor .invalid false, timestampMs⟩
  communicationAlarm := communicationAlarmObject communicationAlarm timestampMs

/-- The attributes for a snapshot; `alarmActive` is what the alarm provider answers or, without
one, that the peak is at least -45. -/
def publishSnapshot (snapshot : PublishedSnapshot) (status : AcquisitionStatus)
    (alarmActive : Bool) (timestampMs : UInt64) : Attributes where
  measurements := snapshot.payload.measurements.mapFinIdx fun index measurement _ =>
    measurementObject status.availability timestampMs index measurement
  peak :=
    let peak := peakMeasurement snapshot
    ⟨.float (if peak.valid && decide (status.availability ≠ .invalid) then peak.value else 0),
      qualityFor status.availability peak.valid, timestampMs⟩
  alarm :=
    ⟨.boolean (consulted status.availability snapshot && alarmActive),
      qualityFor status.availability (alarmValid status.availability snapshot), timestampMs⟩
  communicationAlarm := communicationAlarmObject status.communicationAlarm timestampMs

/-- What one iteration of the update loop writes for a view. -/
def publishView (view : ServingView) (alarmActive : Bool) (timestampMs : UInt64) : Attributes :=
  match view.snapshot with
  | some snapshot => publishSnapshot snapshot view.status alarmActive timestampMs
  | none => publishInvalidValues view.status.communicationAlarm timestampMs

/-- Whether the peak alone raises the alarm, for a server without an alarm provider. -/
def peakAlarm (view : ServingView) : Bool :=
  view.snapshot.any fun snapshot => decide (-45 ≤ (peakMeasurement snapshot).value)

theorem qualityFor_good {availability : Availability} {valid : Bool} :
    qualityFor availability valid = .good ↔ availability = .fresh ∧ valid = true := by
  cases availability <;> cases valid <;> decide

theorem measurementObject_good {availability : Availability} {timestampMs : UInt64} {index : ℕ}
    {measurement : Measurement}
    (h : (measurementObject availability timestampMs index measurement).quality = .good) :
    availability = .fresh ∧ measurement.valid = true ∧
      (measurementObject availability timestampMs index measurement).value =
        measurementValue index measurement.value := by
  obtain ⟨rfl, hvalid⟩ := qualityFor_good.mp h
  refine ⟨rfl, hvalid, ?_⟩
  rw [measurementObject, hvalid]
  rfl

theorem publishSnapshot_measurement (snapshot : PublishedSnapshot) (status : AcquisitionStatus)
    (alarmActive : Bool) (timestampMs : UInt64) (index : Fin 5) :
    (publishSnapshot snapshot status alarmActive timestampMs).measurements.get index =
      measurementObject status.availability timestampMs index.val
        (snapshot.payload.measurements.get index) := by
  exact Vector.getElem_mapFinIdx index.isLt

theorem publishInvalidValues_measurement (communicationAlarm : Bool) (timestampMs : UInt64)
    (index : Fin 5) :
    ((publishInvalidValues communicationAlarm timestampMs).measurements.get index).quality =
      .invalid := by
  exact congrArg DataObject.quality (Vector.getElem_ofFn index.isLt)

/-- A good measurement is the measurement of a fresh view. -/
theorem publishView_good {view : ServingView} {alarmActive : Bool} {timestampMs : UInt64}
    {index : Fin 5}
    (h : ((publishView view alarmActive timestampMs).measurements.get index).quality = .good) :
    ∃ snapshot, view.snapshot = some snapshot ∧ view.status.availability = .fresh ∧
      (snapshot.payload.measurements.get index).valid = true ∧
      ((publishView view alarmActive timestampMs).measurements.get index).value =
        measurementValue index.val (snapshot.payload.measurements.get index).value := by
  unfold publishView at h ⊢
  cases hsnapshot : view.snapshot with
  | none =>
    rw [hsnapshot] at h
    exact absurd ((publishInvalidValues_measurement _ _ index).symm.trans h) (by decide)
  | some snapshot =>
    rw [hsnapshot] at h
    replace h : ((publishSnapshot snapshot view.status alarmActive timestampMs).measurements.get
      index).quality = .good := h
    rw [publishSnapshot_measurement] at h
    obtain ⟨hfresh, hvalid, hvalue⟩ := measurementObject_good h
    refine ⟨snapshot, rfl, hfresh, hvalid, ?_⟩
    show ((publishSnapshot snapshot view.status alarmActive timestampMs).measurements.get
      index).value = _
    rw [publishSnapshot_measurement]
    exact hvalue

/-! ### The life of the server -/

/-- A try to listen: whether the address could be bound, and when the invalid values were
written that stand there first. -/
structure Launch where
  bound : Bool
  timestampMs : UInt64

structure Server where
  bindAddress : Bytes
  port : UInt16
  modelDefinition : SclModelDefinition
  hasAlarmProvider : Bool
  /-- Nothing has been written before the first start. -/
  attributes : Option Attributes := none
  /-- `IedServer_isRunning`. -/
  listening : Bool := false
  running : Bool := false
  stopRequested : Bool := false
  /-- The update thread, while there is one. -/
  updateLoop : Option UpdateLoop := none

namespace Server

/-- `start_locked`, and whether it came to its end without an exception. -/
def startLocked (server : Server) (launch : Launch) : Server × Bool :=
  if server.running then (server, true)
  else
    let opened := { server with
      stopRequested := false
      attributes := some (publishInvalidValues false launch.timestampMs)
      listening := launch.bound }
    if !launch.bound then (opened, false)
    else ({ opened with running := true, updateLoop := some {} }, true)

/-- `stop_locked`, once the update thread has come to its end. -/
def stopLocked (server : Server) : Server :=
  { server with stopRequested := true, updateLoop := none, listening := false, running := false }

/-- `update_endpoint`: the first try is at the new address, the second one at the old. -/
def updateEndpoint (server : Server) (bindAddress : Bytes) (port : UInt16)
    (launch relaunch : Launch) : Server × Bool :=
  if server.bindAddress = bindAddress ∧ server.port = port then (server, true)
  else
    let stopped := if server.running then server.stopLocked else server
    let moved := { stopped with bindAddress := bindAddress, port := port }
    if !server.running then (moved, true)
    else
      let started := moved.startLocked launch
      if started.2 then started
      else
        let restored := { started.1 with bindAddress := server.bindAddress, port := server.port }
        ((restored.startLocked relaunch).1, false)

/-- A server runs, listens and has an update thread, or it does none of it. -/
structure Whole (server : Server) : Prop where
  listening : server.listening = server.running
  updateLoop : server.updateLoop.isSome = server.running

variable {server : Server}

theorem startLocked_running (h : server.running = true) (launch : Launch) :
    server.startLocked launch = (server, true) := if_pos h

theorem startLocked_bound (h : server.running = false) {launch : Launch}
    (hbound : launch.bound = true) : server.startLocked launch = ({ server with
      stopRequested := false
      attributes := some (publishInvalidValues false launch.timestampMs)
      listening := true
      running := true
      updateLoop := some {} }, true) := by
  rw [startLocked, h, hbound]
  rfl

theorem startLocked_unbound (h : server.running = false) {launch : Launch}
    (hbound : launch.bound = false) : server.startLocked launch = ({ server with
      stopRequested := false
      attributes := some (publishInvalidValues false launch.timestampMs)
      listening := false }, false) := by
  rw [startLocked, h, hbound]
  rfl

theorem Whole.startLocked (h : server.Whole) (launch : Launch) :
    (server.startLocked launch).1.Whole := by
  cases hrunning : server.running with
  | true =>
    rw [startLocked_running hrunning]
    exact h
  | false =>
    cases hbound : launch.bound with
    | true =>
      rw [startLocked_bound hrunning hbound]
      exact ⟨rfl, rfl⟩
    | false =>
      rw [startLocked_unbound hrunning hbound]
      exact ⟨hrunning.symm, h.updateLoop⟩

theorem whole_stopLocked (server : Server) : server.stopLocked.Whole := ⟨rfl, rfl⟩

/-- Where the address does not change nothing happens. -/
theorem updateEndpoint_same {bindAddress : Bytes} {port : UInt16} {launch relaunch : Launch}
    (h : server.bindAddress = bindAddress ∧ server.port = port) :
    server.updateEndpoint bindAddress port launch relaunch = (server, true) := if_pos h

theorem updateEndpoint_idle {bindAddress : Bytes} {port : UInt16} {launch relaunch : Launch}
    (h : ¬ (server.bindAddress = bindAddress ∧ server.port = port))
    (hrunning : server.running = false) :
    server.updateEndpoint bindAddress port launch relaunch =
      ({ server with bindAddress := bindAddress, port := port }, true) := by
  rw [updateEndpoint, if_neg h]
  simp only [hrunning, Bool.not_false, Bool.false_eq_true, if_true, if_false]

/-- A running server listens at the new address, or it has been started again at the old. -/
theorem updateEndpoint_running {bindAddress : Bytes} {port : UInt16} {launch relaunch : Launch}
    (h : ¬ (server.bindAddress = bindAddress ∧ server.port = port))
    (hrunning : server.running = true) :
    server.updateEndpoint bindAddress port launch relaunch =
      if launch.bound then
        (({ server.stopLocked with bindAddress := bindAddress, port := port }.startLocked launch).1,
          true)
      else ((server.stopLocked.startLocked relaunch).1, false) := by
  have hstopped : server.stopLocked.running = false := rfl
  rw [updateEndpoint, if_neg h]
  simp only [hrunning, if_true, Bool.not_true, Bool.false_eq_true, if_false]
  cases hbound : launch.bound with
  | true =>
    rw [startLocked_bound rfl hbound]
    rfl
  | false =>
    rw [startLocked_unbound rfl hbound, if_neg Bool.false_ne_true, if_neg Bool.false_ne_true]
    -- the invalid values of the first try are written over by the second one
    cases hrestored : relaunch.bound with
    | true =>
      rw [startLocked_bound rfl hrestored, startLocked_bound hstopped hrestored]
      rfl
    | false =>
      rw [startLocked_unbound rfl hrestored, startLocked_unbound hstopped hrestored]
      rfl

theorem Whole.updateEndpoint (h : server.Whole) (bindAddress : Bytes) (port : UInt16)
    (launch relaunch : Launch) :
    (server.updateEndpoint bindAddress port launch relaunch).1.Whole := by
  by_cases hsame : server.bindAddress = bindAddress ∧ server.port = port
  · rw [updateEndpoint_same hsame]
    exact h
  cases hrunning : server.running with
  | false =>
    rw [updateEndpoint_idle hsame hrunning]
    exact ⟨h.listening, h.updateLoop⟩
  | true =>
    have hmoved : Whole { server.stopLocked with bindAddress := bindAddress, port := port } :=
      ⟨rfl, rfl⟩
    rw [updateEndpoint_running hsame hrunning]
    split_ifs with hbound
    · exact hmoved.startLocked launch
    · exact (whole_stopLocked server).startLocked relaunch

end Server

end Uhf.Iec61850

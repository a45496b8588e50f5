/-
The telemetry connection (`HttpServer::run_websocket`).

The connection is a loop over the operations of its socket.  One round of it is the
program `webSocketRound`; what it keeps from round to round is a `Connection`.

* `parseFrame_frame` — a frame of the peer is cut off the input;
* `RunsWebSocket` — the runs of the loop.
-/
import UhfGateway.Effects.Trace
import UhfGateway.Web.Telemetry

namespace Uhf.Web

open Domain Acquisition Health Effects

def kMaxWebSocketPayloadBytes : ℕ := 128 * 1024
def kMaxWebSocketInputBytes : ℕ := 8 * 1024

/-! ### Frames -/

/-- The bytes before the payload of a frame of the server. -/
def frameHeader (opcode : UInt8) (size : ℕ) : Bytes :=
  (0x80 ||| (opcode &&& 0x0F)) ::
    if size ≤ 125 then [UInt8.ofNat size]
    else if size ≤ 0xFFFF then [126, UInt8.ofNat (size >>> 8), UInt8.ofNat (size &&& 0xFF)]
    else 127 :: [56, 48, 40, 32, 24, 16, 8, 0].map fun shift => UInt8.ofNat (size >>> shift)

def websocketFrame (opcode : UInt8) (payload : Bytes) : Bytes :=
  if kMaxWebSocketPayloadBytes < payload.length then []
  else frameHeader opcode payload.length ++ payload

def websocketText (text : Bytes) : Bytes := websocketFrame 0x1 text

/-- The first frame of the input, as far as it has come. -/
inductive Parsed
  | incomplete
  | rejected
  | frame (opcode : UInt8) (payload rest : Bytes)
  deriving DecidableEq

/-- The payload with the mask taken off. -/
def unmask (mask payload : Bytes) : Bytes :=
  payload.mapIdx fun index byte => byte ^^^ mask.getD (index % 4) 0

/-- The frame after its header of `headerSize` bytes, in one round of the loop of
`consume_websocket_input`. -/
def parsePayload (input : Bytes) (opcode : UInt8) (headerSize payloadSize : ℕ) : Parsed :=
  if opcode &&& 0x08 ≠ 0 ∧ 125 < payloadSize then .rejected
  else if kMaxWebSocketPayloadBytes < payloadSize ∨
      0xFFFFFFFFFFFFFFFF - headerSize - 6 < payloadSize then .rejected
  else
    let frameSize := headerSize + 4 + payloadSize
    if input.length < frameSize then .incomplete
    else
      let mask := (input.drop headerSize).take 4
      let payload := (input.drop (headerSize + 4)).take payloadSize
      .frame opcode (unmask mask payload) (input.drop frameSize)

def parseFrame (input : Bytes) : Parsed :=
  let first := input.getD 0 0
  let second := input.getD 1 0
  let opcode := first &&& 0x0F
  let payloadSize := second &&& 0x7F
  if input.length < 2 then .incomplete
  else if first &&& 0x80 = 0 ∨ first &&& 0x70 ≠ 0 ∨ second &&& 0x80 = 0 then .rejected
  else if payloadSize = 126 then
    if input.length < 4 then .incomplete
    else
      parsePayload input opcode 4 ((input.getD 2 0).toNat <<< 8 ||| (input.getD 3 0).toNat)
  else if payloadSize = 127 then .rejected
  else parsePayload input opcode 2 payloadSize.toNat

/-- What `consume_websocket_input` leaves behind: the rest of the input, the frame it has
assigned to the output, if any, and whether the peer has asked to close. -/
structure Consumed where
  input : Bytes
  reply : Option Bytes := none
  closeRequested : Bool := false

theorem parsePayload_frame {input payload rest : Bytes} {opcode opcode' : UInt8}
    {headerSize payloadSize : ℕ}
    (h : parsePayload input opcode headerSize payloadSize = .frame opcode' payload rest) :
    rest.length < input.length ∧ payload.length ≤ kMaxWebSocketPayloadBytes := by
  rw [parsePayload] at h
  split at h
  · cases h
  split at h
  · cases h
  · next hsize =>
    simp only at h
    split at h
    · cases h
    · next hinput =>
      obtain ⟨rfl, rfl, rfl⟩ := Parsed.frame.inj h
      constructor
      · rw [List.length_drop]
        omega
      · rw [unmask, List.length_mapIdx, List.length_take]
        omega

/-- A frame is cut off the input, and its payload is one the server may send back. -/
theorem parseFrame_frame {input payload rest : Bytes} {opcode : UInt8}
    (h : parseFrame input = .frame opcode payload rest) :
    rest.length < input.length ∧ payload.length ≤ kMaxWebSocketPayloadBytes := by
  simp only [parseFrame] at h
  split at h
  · cases h
  split at h
  · cases h
  split at h
  · split at h
    · cases h
    · exact parsePayload_frame h
  split at h
  · cases h
  · exact parsePayload_frame h

/-- The loop of `consume_websocket_input`, with the reply so far; `none` if the input is
rejected. -/
def consumeLoop (input : Bytes) (reply : Option Bytes) : Option Consumed :=
  match _h : parseFrame input with
  | .incomplete => some { input := input, reply := reply }
  | .rejected => none
  | .frame opcode payload rest =>
    if opcode = 0x8 then
      some { input := rest, reply := some (websocketFrame 0x8 payload), closeRequested := true }
    else if opcode = 0x9 then consumeLoop rest (some (websocketFrame 0xA payload))
    else if opcode ≠ 0xA ∧ opcode ≠ 0x1 then none
    else consumeLoop rest reply
termination_by input.length
decreasing_by
  · exact (parseFrame_frame _h).1
  · exact (parseFrame_frame _h).1

theorem consumeLoop_incomplete {input : Bytes} (h : parseFrame input = .incomplete)
    (reply : Option Bytes) : consumeLoop input reply = some { input := input, reply := reply } := by
  rw [consumeLoop]
  split <;> simp_all

theorem consumeLoop_rejected {input : Bytes} (h : parseFrame input = .rejected)
    (reply : Option Bytes) : consumeLoop input reply = none := by
  rw [consumeLoop]
  split <;> simp_all

theorem consumeLoop_frame {input payload rest : Bytes} {opcode : UInt8}
    (h : parseFrame input = .frame opcode payload rest) (reply : Option Bytes) :
    consumeLoop input reply =
      if opcode = 0x8 then
        some { input := rest, reply := some (websocketFrame 0x8 payload), closeRequested := true }
      else if opcode = 0x9 then consumeLoop rest (some (websocketFrame 0xA payload))
      else if opcode ≠ 0xA ∧ opcode ≠ 0x1 then none
      else consumeLoop rest reply := by
  rw [consumeLoop]
  split <;> simp_all

def consumeWebsocketInput (input : Bytes) : Option Consumed := consumeLoop input none

/-! ### The operations of the loop -/

/-- `POLLERR`, `POLLHUP` or `POLLNVAL`, and `POLLIN`; no event at all after the timeout. -/
inductive Polled
  | interrupted
  | failed
  | ready (error input : Bool)

/-- `receive_bytes`; without bytes, `retry` is whether `errno` is `EAGAIN`, `EWOULDBLOCK`
or `EINTR`. -/
structure Received where
  bytes : Bytes := []
  retry : Bool := false

/-- `send_bytes`; `again` is one of the errors above. -/
inductive Sent
  | bytes (count : ℕ)
  | again
  | failed

inductive SocketCall
  | setNonblocking
  /-- Whether `POLLOUT` is asked for, too. -/
  | poll (output : Bool)
  | receive
  | send (bytes : Bytes)
  | now
  | servingView
  /-- The health input provider; `none` if it throws. -/
  | healthInput

@[reducible] def socketCalls : Interface where
  Op := SocketCall
  Answer
    | .setNonblocking => Bool
    | .poll _ => Polled
    | .receive => Received
    | .send _ => Sent
    | .now => Nanoseconds
    | .servingView => ServingView
    | .healthInput => Option Input

/-! ### The loop -/

/-- What the server has been constructed with. -/
structure Server where
  hasStore : Bool
  hasHealthInput : Bool
  aggregator : Aggregator := {}

/-- The view of a server without a store. -/
def emptyView : ServingView := ⟨none, {}⟩

def servingView (server : Server) : Prog socketCalls ServingView :=
  if server.hasStore then
    .call (I := socketCalls) .servingView fun (view : ServingView) => .done view
  else .done emptyView

/-- `HttpServer::health_report`. -/
def healthReport (server : Server) (now : Nanoseconds) : Prog socketCalls Report :=
  if server.hasHealthInput then
    .call (I := socketCalls) .healthInput fun (input : Option Input) =>
      .done (server.aggregator.evaluate (input.getD {}) now)
  else
    servingView server >>= fun view =>
      .done (server.aggregator.evaluate
        { storageWritable := true
          lastAcquisitionSuccess := view.snapshot.map PublishedSnapshot.completedAt
          acquisitionLastCycleOk := view.status.availability = .fresh } now)

/-- The variables of `run_websocket`. -/
structure Connection where
  input : Bytes := []
  output : Bytes := []
  lastGeneration : UInt64 := 0
  lastAvailability : Option Availability := none
  sentHealth : Bool := false
  closeRequested : Bool := false
  /-- Whether a part of what was last assigned to `output` has been sent.  The source has
  no such variable, and nothing here looks at it. -/
  begun : Bool := false

namespace Connection

/-- `output = frame`. -/
def assign (c : Connection) (frame : Bytes) : Connection :=
  { c with output := frame, begun := false }

/-- The effect of `consume_websocket_input`. -/
def absorb (c : Connection) (consumed : Consumed) : Connection :=
  { consumed.reply.elim c c.assign with
    input := consumed.input
    closeRequested := c.closeRequested || consumed.closeRequested }

/-- The first `count` bytes of the output have been sent. -/
def advance (c : Connection) (count : ℕ) : Connection :=
  { c with output := c.output.drop count, begun := c.begun || decide (0 < count) }

def availabilityChanged (c : Connection) (view : ServingView) : Bool :=
  c.lastAvailability ≠ some view.status.availability

/-- There is a snapshot that the peer has not been told of, or not with this availability. -/
def telemetryDue (c : Connection) (view : ServingView) : Bool :=
  view.snapshot.any fun snapshot => snapshot.generation ≠ 0 &&
    (snapshot.generation ≠ c.lastGeneration || c.availabilityChanged view)

def healthDue (c : Connection) (view : ServingView) : Bool :=
  !c.sentHealth || c.availabilityChanged view

end Connection

def telemetryMessage (snapshot : Bytes) (report : Report) : Bytes :=
  [0x7B] ++ jsonKey "type" ++ jsonString (ascii "telemetry") ++ ascii "," ++ jsonKey "health" ++
    report.toJson ++ ascii "," ++ jsonKey "snapshot" ++ snapshot ++ [0x7D, 0x0A]

def healthMessage (report : Report) : Bytes :=
  [0x7B] ++ jsonKey "type" ++ jsonString (ascii "health") ++ ascii "," ++ jsonKey "data" ++
    report.toJson ++ [0x7D, 0x0A]

/-- The end of a round: the output, and the end of a closed connection. -/
def flush (c : Connection) : Prog socketCalls (Option Connection) :=
  let finish (c : Connection) : Prog socketCalls (Option Connection) :=
    .done (if c.closeRequested && c.output.isEmpty then none else some c)
  if c.output = [] then finish c
  else
    .call (I := socketCalls) (.send c.output) fun (sent : Sent) =>
      match sent with
      | .bytes count => finish (c.advance count)
      | .again => finish c
      | .failed => .done none

/-- A message on the health of the server takes the place of the output. -/
def say (server : Server) (now : Nanoseconds) (text : Report → Bytes) (c : Connection) :
    Prog socketCalls (Option Connection) :=
  healthReport server now >>= fun report =>
    if websocketText (text report) = [] then .done none
    else flush (c.assign (websocketText (text report)))

/-- The middle of a round: the messages of the server. -/
def announce (server : Server) (c : Connection) : Prog socketCalls (Option Connection) :=
  if c.closeRequested then flush c
  else
    .call (I := socketCalls) .now fun (now : Nanoseconds) =>
      servingView server >>= fun view =>
        let seen : Connection := { c with lastAvailability := some view.status.availability }
        if c.telemetryDue view then
          match renderSnapshotJson view with
          | none => flush seen
          | some snapshot =>
            say server now (telemetryMessage snapshot)
              { seen with
                lastGeneration := (view.snapshot.map PublishedSnapshot.generation).getD 0
                sentHealth := true }
        else if c.healthDue view then
          say server now healthMessage { seen with sentHealth := true }
        else flush seen

/-- One round of the loop; `none` if it leaves the loop. -/
def webSocketRound (server : Server) (c : Connection) : Prog socketCalls (Option Connection) :=
  .call (I := socketCalls) (.poll (!c.output.isEmpty)) fun (polled : Polled) =>
    match polled with
    | .interrupted => .done (some c)
    | .failed => .done none
    | .ready error input =>
      if error then .done none
      else if !input then announce server c
      else
        .call (I := socketCalls) .receive fun (received : Received) =>
          if received.bytes = [] then .done (if received.retry then some c else none)
          else if kMaxWebSocketInputBytes - c.input.length < received.bytes.length then .done none
          else
            match consumeWebsocketInput (c.input ++ received.bytes) with
            | none => .done none
            | some consumed => announce server (c.absorb consumed)

/-- What `run_websocket` has done so far, and the variables it goes on with. -/
def RunsWebSocket (server : Server) (Allowed : Connection → Trace socketCalls → Prop)
    (trace : Trace socketCalls) (r : Option Connection) : Prop :=
  (trace = [⟨.setNonblocking, false⟩] ∧ r = none) ∨
    ∃ rest, trace = ⟨.setNonblocking, true⟩ :: rest ∧
      Prog.Loops (webSocketRound server) Allowed {} rest r

end Uhf.Web

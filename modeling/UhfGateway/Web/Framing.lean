/-
The frames on the telemetry connection.

The output of a connection is an outbox of one message: `run_websocket` assigns a frame
to it, and every round sends a part of it.

* `stream_framed` — if no frame is replaced once a part of it has been sent, the bytes on
  the socket are whole frames and the beginning of one more;
* `stream_not_framed` — the source does replace such frames.
-/
import UhfGateway.Effects.Outbox
import UhfGateway.Web.WebSocket

namespace Uhf.Web

open Acquisition Health Effects

/-! ### Frames -/

/-- A frame that `websocket_frame` makes. -/
def IsFrame (bytes : Bytes) : Prop :=
  ∃ opcode payload, payload.length ≤ kMaxWebSocketPayloadBytes ∧
    bytes = websocketFrame opcode payload

theorem isFrame_websocketFrame {opcode : UInt8} {payload : Bytes}
    (h : payload.length ≤ kMaxWebSocketPayloadBytes) : IsFrame (websocketFrame opcode payload) :=
  ⟨opcode, payload, h, rfl⟩

/-- A text that gives any frame at all gives a frame. -/
theorem isFrame_websocketText {text : Bytes} (h : websocketText text ≠ []) :
    IsFrame (websocketText text) := by
  rw [websocketText] at *
  refine isFrame_websocketFrame ?_
  by_contra hlong
  refine h ?_
  rw [websocketFrame, if_pos (by omega)]

theorem consumeLoop_reply {input : Bytes} {reply : Option Bytes} {consumed : Consumed}
    (hreply : ∀ frame, reply = some frame → IsFrame frame)
    (h : consumeLoop input reply = some consumed) :
    ∀ frame, consumed.reply = some frame → IsFrame frame := by
  -- on the length of the input: the loop goes on behind the frame it has read
  induction hlen : input.length using Nat.strongRecOn generalizing input reply with
  | ind length ih =>
    cases hparsed : parseFrame input with
    | incomplete =>
      rw [consumeLoop_incomplete hparsed] at h
      cases h
      exact hreply
    | rejected =>
      rw [consumeLoop_rejected hparsed] at h
      cases h
    | frame opcode payload rest =>
      rw [consumeLoop_frame hparsed] at h
      obtain ⟨hrest, hpayload⟩ := parseFrame_frame hparsed
      split at h
      · cases h
        intro frame hframe
        cases hframe
        exact isFrame_websocketFrame hpayload
      split at h
      · -- a second ping replaces the reply to the first
        refine ih rest.length (by omega) (fun frame hframe => ?_) h rfl
        cases hframe
        exact isFrame_websocketFrame hpayload
      split at h
      · cases h
      · exact ih rest.length (by omega) hreply h rfl

/-- What the input is answered with is a frame. -/
theorem consumeWebsocketInput_reply {input : Bytes} {consumed : Consumed}
    (h : consumeWebsocketInput input = some consumed) :
    ∀ frame, consumed.reply = some frame → IsFrame frame :=
  consumeLoop_reply (fun _ hframe => by cases hframe) h

/-! ### The stream -/

/-- What an operation hands to the socket. -/
def sentBytes : Act socketCalls → Bytes
  | ⟨.send bytes, .bytes count⟩ => bytes.take count
  | _ => []

/-- The byte stream a run has handed to the socket. -/
def handedOver (trace : Trace socketCalls) : Bytes := trace.flatMap sentBytes

@[simp] theorem handedOver_nil : handedOver [] = [] := rfl

@[simp] theorem handedOver_cons (act : Act socketCalls) (trace : Trace socketCalls) :
    handedOver (act :: trace) = sentBytes act ++ handedOver trace := List.flatMap_cons

@[simp] theorem handedOver_append (first rest : Trace socketCalls) :
    handedOver (first ++ rest) = handedOver first ++ handedOver rest := List.flatMap_append

def Silent : SocketCall → Prop
  | .send _ => False
  | _ => True

theorem handedOver_silent {trace : Trace socketCalls} (h : ∀ act ∈ trace, Silent act.op) :
    handedOver trace = [] := by
  refine List.flatMap_eq_nil_iff.mpr fun act hact => ?_
  obtain ⟨op, answer⟩ := act
  have hsilent := h _ hact
  cases op with
  | send bytes => exact hsilent.elim
  | setNonblocking => rfl
  | poll output => rfl
  | receive => rfl
  | now => rfl
  | servingView => rfl
  | healthInput => rfl

theorem servingView_silent (server : Server) : (servingView server).Only Silent := by
  rw [servingView]
  split
  · exact ⟨trivial, fun _ => trivial⟩
  · trivial

theorem healthReport_silent (server : Server) (now : Nanoseconds) :
    (healthReport server now).Only Silent := by
  rw [healthReport]
  split
  · exact ⟨trivial, fun _ => trivial⟩
  · exact Prog.only_bind (servingView_silent server) fun _ => trivial

/-- The view that a round has got from the store, or the one a server without a store
always has. -/
def Saw (server : Server) (trace : Trace socketCalls) (view : ServingView) : Prop :=
  if server.hasStore then ⟨.servingView, view⟩ ∈ trace else view = emptyView

theorem saw_servingView {server : Server} {trace : Trace socketCalls} {view : ServingView}
    (h : (servingView server).Exec trace view) : Saw server trace view := by
  rw [servingView] at h
  rw [Saw]
  split at h
  · next hstore =>
    obtain ⟨answer, rest, rfl, hrest⟩ := Prog.exec_call.mp h
    obtain ⟨-, rfl⟩ := Prog.exec_done.mp hrest
    rw [if_pos hstore]
    exact List.mem_cons_self
  · next hstore =>
    rw [if_neg hstore]
    exact (Prog.exec_done.mp h).2

theorem Saw.mono {server : Server} {trace trace' : Trace socketCalls} {view : ServingView}
    (h : Saw server trace view) (hsub : ∀ act ∈ trace, act ∈ trace') : Saw server trace' view := by
  rw [Saw] at *
  split
  · next hstore =>
    rw [if_pos hstore] at h
    exact hsub _ h
  · next hstore =>
    rw [if_neg hstore] at h
    exact h

/-! ### One round -/

/-- A message of the server is due. -/
def Connection.messageDue (c : Connection) (view : ServingView) : Bool :=
  c.telemetryDue view || c.healthDue view

/-- A part of a frame is on its way: it has been sent, and there is more to it. -/
def Connection.midFrame (c : Connection) : Prop := c.begun = true ∧ c.output ≠ []

/-- In this round the peer's input asks for no reply, and no message is due. -/
structure Undisturbed (server : Server) (c : Connection) (trace : Trace socketCalls) : Prop where
  noReply : ∀ received consumed, ⟨.receive, received⟩ ∈ trace →
    consumeWebsocketInput (c.input ++ received.bytes) = some consumed → consumed.reply = none
  noMessage : c.closeRequested = false → ∀ view, Saw server trace view → c.messageDue view = false

/-- While a part of a frame is on its way, nothing comes up that would be put in the output. -/
def Patient (server : Server) (c : Connection) (trace : Trace socketCalls) : Prop :=
  c.midFrame → Undisturbed server c trace

/-- The stream and the output of a connection, or the stream of one that has ended. -/
def Leaves (stream : Bytes) : Option Connection → Prop
  | none => Framed IsFrame stream
  | some c => Drains IsFrame stream c.output c.begun

theorem framed_of_drains {c : Connection} {stream : Bytes}
    (h : Drains IsFrame stream c.output c.begun) : Framed IsFrame stream := by
  have hempty : IsFrame (websocketFrame 0 []) := ⟨0, [], Nat.zero_le _, rfl⟩
  exact h.framed hempty

theorem flush_leaves {c : Connection} {stream : Bytes} {trace : Trace socketCalls}
    {r : Option Connection} (h : Drains IsFrame stream c.output c.begun)
    (hexec : (flush c).Exec trace r) : Leaves (stream ++ handedOver trace) r := by
  -- the connection may end, with a stream that is framed as well
  have hfinish : ∀ (c : Connection) stream (r : Option Connection),
      Drains IsFrame stream c.output c.begun →
        r = (if c.closeRequested && c.output.isEmpty then none else some c) → Leaves stream r := by
    rintro c stream r hdrains rfl
    split
    · exact framed_of_drains hdrains
    · exact hdrains
  rw [flush] at hexec
  split at hexec
  · obtain ⟨rfl, rfl⟩ := Prog.exec_done.mp hexec
    rw [handedOver_nil, List.append_nil]
    exact hfinish c stream _ h rfl
  · next houtput =>
    obtain ⟨sent, rest, rfl, hrest⟩ := Prog.exec_call.mp hexec
    rw [handedOver_cons]
    cases sent with
    | bytes count =>
      obtain ⟨rfl, rfl⟩ := Prog.exec_done.mp hrest
      rw [handedOver_nil, List.append_nil]
      exact hfinish (c.advance count) _ _ (h.send houtput count) rfl
    | again =>
      obtain ⟨rfl, rfl⟩ := Prog.exec_done.mp hrest
      rw [handedOver_nil, List.append_nil, show sentBytes _ = [] from rfl, List.append_nil]
      exact hfinish c stream _ h rfl
    | failed =>
      obtain ⟨rfl, rfl⟩ := Prog.exec_done.mp hrest
      rw [handedOver_nil, List.append_nil, show sentBytes _ = [] from rfl, List.append_nil]
      exact framed_of_drains h

/-- A frame may be assigned unless a part of another one is on its way. -/
theorem assign_drains {c : Connection} {stream frame : Bytes}
    (h : Drains IsFrame stream c.output c.begun) (hfree : ¬c.midFrame) (hframe : IsFrame frame) :
    Drains IsFrame stream (c.assign frame).output (c.assign frame).begun := by
  refine h.assign (fun hbegun => ?_) hframe
  by_contra houtput
  exact hfree ⟨hbegun, houtput⟩

theorem say_leaves {server : Server} {now : Nanoseconds} {text : Report → Bytes} {c : Connection}
    {stream : Bytes} {trace : Trace socketCalls} {r : Option Connection}
    (h : Drains IsFrame stream c.output c.begun) (hfree : ¬c.midFrame)
    (hexec : (say server now text c).Exec trace r) : Leaves (stream ++ handedOver trace) r := by
  obtain ⟨first, rest, report, rfl, hreport, hrest⟩ := Prog.exec_bind.mp hexec
  have hsilent : handedOver first = [] :=
    handedOver_silent ((healthReport_silent server now).trace hreport)
  rw [handedOver_append, hsilent, List.nil_append]
  split at hrest
  · obtain ⟨rfl, rfl⟩ := Prog.exec_done.mp hrest
    rw [handedOver_nil, List.append_nil]
    exact framed_of_drains h
  · next htext =>
    exact flush_leaves (assign_drains h hfree (isFrame_websocketText htext)) hrest

theorem announce_leaves {server : Server} {c : Connection} {stream : Bytes}
    {trace : Trace socketCalls} {r : Option Connection}
    (h : Drains IsFrame stream c.output c.begun)
    (hquiet : c.midFrame → c.closeRequested = false →
      ∀ view, Saw server trace view → c.messageDue view = false)
    (hexec : (announce server c).Exec trace r) : Leaves (stream ++ handedOver trace) r := by
  rw [announce] at hexec
  split at hexec
  · exact flush_leaves h hexec
  · next hopen =>
    obtain ⟨now, tail, rfl, htail⟩ := Prog.exec_call.mp hexec
    obtain ⟨first, rest, view, rfl, hview, hrest⟩ := Prog.exec_bind.mp htail
    -- a message that is due finds no half sent frame in its place
    have hfree : c.messageDue view = true → ¬c.midFrame := by
      intro hdue hmid
      have hsaw : Saw server (⟨.now, now⟩ :: (first ++ rest)) view :=
        (saw_servingView hview).mono fun act hact =>
          List.mem_cons_of_mem _ (List.mem_append_left _ hact)
      rw [hquiet hmid (Bool.eq_false_iff.mpr hopen) view hsaw] at hdue
      cases hdue
    have hsilent : handedOver first = [] :=
      handedOver_silent ((servingView_silent server).trace hview)
    rw [handedOver_cons, show sentBytes _ = [] from rfl, List.nil_append, handedOver_append,
      hsilent, List.nil_append]
    simp only at hrest
    split at hrest
    · next hdue =>
      split at hrest
      · refine flush_leaves ?_ hrest
        exact h
      · have hmid := hfree (by rw [Connection.messageDue, hdue, Bool.true_or])
        refine say_leaves ?_ ?_ hrest
        · exact h
        · exact hmid
    split at hrest
    · next hdue =>
      have hmid := hfree (by rw [Connection.messageDue, hdue, Bool.or_true])
      refine say_leaves ?_ ?_ hrest
      · exact h
      · exact hmid
    · refine flush_leaves ?_ hrest
      exact h

/-- The reply to the input takes the place of the output. -/
theorem absorb_drains {c : Connection} {stream input : Bytes} {consumed : Consumed}
    (h : Drains IsFrame stream c.output c.begun)
    (hconsumed : consumeWebsocketInput input = some consumed)
    (hquiet : c.midFrame → consumed.reply = none) :
    Drains IsFrame stream (c.absorb consumed).output (c.absorb consumed).begun := by
  have hframe := consumeWebsocketInput_reply hconsumed
  rw [Connection.absorb]
  cases hreply : consumed.reply with
  | none => exact h
  | some frame =>
    refine assign_drains h (fun hmid => ?_) (hframe frame hreply)
    rw [hquiet hmid] at hreply
    cases hreply

/-- A connection with a part of a frame on its way has had no reply. -/
theorem absorb_midFrame {c : Connection} {consumed : Consumed} (h : (c.absorb consumed).midFrame) :
    c.midFrame ∧ ∀ view, (c.absorb consumed).messageDue view = c.messageDue view := by
  obtain ⟨hbegun, houtput⟩ := h
  rw [Connection.absorb] at *
  cases hreply : consumed.reply with
  | none =>
    rw [hreply] at hbegun houtput
    exact ⟨⟨hbegun, houtput⟩, fun view => rfl⟩
  | some frame =>
    rw [hreply] at hbegun
    cases hbegun

/-- A round keeps the connection between the stream and the output. -/
theorem webSocketRound_leaves {server : Server} {c : Connection} {stream : Bytes}
    {trace : Trace socketCalls} {r : Option Connection}
    (h : Drains IsFrame stream c.output c.begun) (hpatient : Patient server c trace)
    (hexec : (webSocketRound server c).Exec trace r) : Leaves (stream ++ handedOver trace) r := by
  -- the ways out of a round before anything is sent
  have hsame : ∀ {trace r'}, (Prog.done r' : Prog socketCalls (Option Connection)).Exec trace r →
      (r' = none ∨ r' = some c) → Leaves (stream ++ handedOver trace) r := by
    intro trace r' hdone hr'
    obtain ⟨rfl, rfl⟩ := Prog.exec_done.mp hdone
    rw [handedOver_nil, List.append_nil]
    rcases hr' with rfl | rfl
    · exact framed_of_drains h
    · exact h
  obtain ⟨polled, rest, rfl, hrest⟩ := Prog.exec_call.mp hexec
  rw [handedOver_cons, show sentBytes _ = [] from rfl, List.nil_append]
  cases polled with
  | interrupted => exact hsame hrest (.inr rfl)
  | failed => exact hsame hrest (.inl rfl)
  | ready error input =>
    simp only at hrest
    split at hrest
    · exact hsame hrest (.inl rfl)
    split at hrest
    · refine announce_leaves h (fun hmid hopen view hsaw => ?_) hrest
      exact (hpatient hmid).noMessage hopen view
        (hsaw.mono fun act hact => List.mem_cons_of_mem _ hact)
    obtain ⟨received, tail, rfl, htail⟩ := Prog.exec_call.mp hrest
    rw [handedOver_cons, show sentBytes _ = [] from rfl, List.nil_append]
    split at htail
    · refine hsame htail ?_
      cases received.retry with
      | false => exact .inl rfl
      | true => exact .inr rfl
    split at htail
    · exact hsame htail (.inl rfl)
    split at htail
    · exact hsame htail (.inl rfl)
    · next consumed hconsumed =>
      have hnoReply : c.midFrame → consumed.reply = none := fun hmid =>
        (hpatient hmid).noReply received consumed (by simp) hconsumed
      refine announce_leaves (absorb_drains h hconsumed hnoReply)
        (fun hmid hopen view hsaw => ?_) htail
      obtain ⟨hmid, hdue⟩ := absorb_midFrame hmid
      rw [hdue]
      have hclose : (c.closeRequested || consumed.closeRequested) = false := hopen
      refine (hpatient hmid).noMessage (Bool.or_eq_false_iff.mp hclose).1 view
        (hsaw.mono fun act hact => ?_)
      exact List.mem_cons_of_mem _ (List.mem_cons_of_mem _ hact)

/-! ### Whole runs -/

/-- The server does not mask its frames, so the second byte of one is below 128. -/
theorem websocketFrame_bytes (opcode : UInt8) {payload : Bytes}
    (h : payload.length ≤ kMaxWebSocketPayloadBytes) :
    ∃ second rest, websocketFrame opcode payload = (0x80 ||| (opcode &&& 0x0F)) :: second :: rest ∧
      second < 128 := by
  rw [websocketFrame, if_neg (by omega), frameHeader]
  split
  · next hsmall =>
    refine ⟨UInt8.ofNat payload.length, payload, rfl, ?_⟩
    rw [UInt8.lt_iff_toNat_lt, UInt8.toNat_ofNat']
    show payload.length % 256 < 128
    omega
  split
  · exact ⟨126, _, rfl, by decide⟩
  · exact ⟨127, _, rfl, by decide⟩

theorem framed_second {first second : UInt8} {rest : Bytes}
    (h : Framed IsFrame (first :: second :: rest)) : second < 128 := by
  obtain ⟨messages, part, message, hwhole, hmessage, ⟨missing, hpart⟩, hstream⟩ := h
  -- the stream begins as its first frame does, whole or not
  have hbegins : ∀ frame head tail, IsFrame frame → first :: second :: head = frame ++ tail →
      second < 128 := by
    rintro frame head tail ⟨opcode, payload, hlength, rfl⟩ heq
    obtain ⟨second', rest', hframe, hlt⟩ := websocketFrame_bytes opcode hlength
    rw [hframe, List.cons_append, List.cons_append] at heq
    rw [(List.cons.inj (List.cons.inj heq).2).1]
    exact hlt
  cases messages with
  | nil =>
    rw [List.flatten_nil, List.nil_append] at hstream
    refine hbegins message (rest ++ missing) [] hmessage ?_
    rw [← hpart, ← hstream, List.append_nil, List.cons_append, List.cons_append]
  | cons frame frames =>
    refine hbegins frame rest (frames.flatten ++ part) (hwhole frame List.mem_cons_self) ?_
    rw [hstream, List.flatten_cons, List.append_assoc]

/-- A server as it runs, with a store and a source of health reports. -/
def sampleServer : Server where
  hasStore := true
  hasHealthInput := true

/-- The text a connection begins with when nothing has been acquired yet. -/
def greeting : Bytes := healthMessage (sampleServer.aggregator.evaluate {} 0)

theorem length_greeting : greeting.length ≤ kMaxWebSocketPayloadBytes := by decide +kernel

/-- The connection after a first round in which one byte of this frame is sent. -/
def greeted (frame : Bytes) : Connection where
  output := frame.drop 1
  lastAvailability := some .invalid
  sentHealth := true
  begun := true

theorem flush_bytes {c : Connection} (houtput : c.output ≠ []) (hopen : c.closeRequested = false)
    (count : ℕ) : (flush c).Exec [⟨.send c.output, .bytes count⟩] (some (c.advance count)) := by
  rw [flush, if_neg houtput]
  have hfinish : (c.advance count).closeRequested = false := hopen
  refine .call _ ?_
  show (Prog.done (if (c.advance count).closeRequested && _ then none else _)).Exec [] _
  rw [hfinish, Bool.false_and, if_neg Bool.false_ne_true]
  exact .done _

theorem say_exec {server : Server} {now : Nanoseconds} {text : Report → Bytes} {c : Connection}
    {report : Report} {first rest : Trace socketCalls} {r : Option Connection}
    (hreport : (healthReport server now).Exec first report) (hne : websocketText (text report) ≠ [])
    (hflush : (flush (c.assign (websocketText (text report)))).Exec rest r) :
    (say server now text c).Exec (first ++ rest) r := by
  refine hreport.bind ?_
  rw [if_neg hne]
  exact hflush

theorem greeting_flushed {frame : Bytes} (h : frame ≠ []) :
    (flush (Connection.assign { lastAvailability := some .invalid, sentHealth := true } frame)).Exec
      [⟨.send frame, .bytes 1⟩] (some (greeted frame)) :=
  flush_bytes (c := Connection.assign _ frame) h rfl 1

/-- A round in which nothing comes in and one byte of the first message is sent. -/
def greetingTrace (frame : Bytes) : Trace socketCalls :=
  [⟨.poll false, .ready false false⟩, ⟨.now, (0 : Int)⟩, ⟨.servingView, emptyView⟩,
    ⟨.healthInput, some {}⟩, ⟨.send frame, .bytes 1⟩]

theorem greeting_round : (webSocketRound sampleServer {}).Exec
    (greetingTrace (websocketText greeting)) (some (greeted (websocketText greeting))) := by
  obtain ⟨second, rest, hframe, -⟩ := websocketFrame_bytes 0x1 length_greeting
  have hne : websocketText greeting ≠ [] := by
    rw [websocketText, hframe]
    exact List.cons_ne_nil _ _
  have hreport : (healthReport sampleServer 0).Exec [⟨.healthInput, some {}⟩]
      (sampleServer.aggregator.evaluate {} 0) := .call _ (.done _)
  refine .call _ (.call _ (.call _ ?_))
  show (say sampleServer 0 healthMessage
    { lastAvailability := some .invalid, sentHealth := true }).Exec _ _
  exact say_exec hreport hne (greeting_flushed hne)

/-- A ping without payload. -/
def ping : Bytes := [0x89, 0x80, 0, 0, 0, 0]

theorem consume_ping :
    consumeWebsocketInput ping = some { input := [], reply := some [0x8A, 0] } := by
  have hping : parseFrame ping = .frame 0x9 [] [] := by decide
  have hnil : parseFrame [] = .incomplete := rfl
  have hpong : websocketFrame 0xA [] = [0x8A, 0] := by decide
  rw [consumeWebsocketInput, consumeLoop_frame hping, if_neg (by decide), if_pos rfl,
    consumeLoop_incomplete hnil, hpong]

/-- A round in which a ping arrives and the pong is sent. -/
def pingTrace : Trace socketCalls :=
  [⟨.poll true, .ready false true⟩, ⟨.receive, ⟨ping, false⟩⟩, ⟨.now, (0 : Int)⟩,
    ⟨.servingView, emptyView⟩, ⟨.send [0x8A, 0], .bytes 2⟩]

theorem ping_round {frame : Bytes} (h : frame.drop 1 ≠ []) :
    (webSocketRound sampleServer (greeted frame)).Exec pingTrace (some (greeted [])) := by
  have hpoll : (!(greeted frame).output.isEmpty) = true := by
    rw [Bool.not_eq_true', Bool.eq_false_iff, ne_eq, List.isEmpty_iff]
    exact h
  rw [webSocketRound, hpoll]
  have hsome : (Received.mk ping false).bytes ≠ [] := List.cons_ne_nil _ _
  have hfits : ¬kMaxWebSocketInputBytes - (greeted frame).input.length <
      (Received.mk ping false).bytes.length := by
    show ¬8 * 1024 - 0 < 6
    omega
  have hconsumed : consumeWebsocketInput ((greeted frame).input ++ (Received.mk ping false).bytes) =
      some { input := [], reply := some [0x8A, 0] } := consume_ping
  refine .call _ (.call _ ?_)
  rw [if_neg hsome, if_neg hfits, hconsumed]
  refine .call _ (.call _ ?_)
  exact flush_bytes (c := { greeted frame with output := [0x8A, 0], begun := false })
    (List.cons_ne_nil _ _) rfl 2

end Uhf.Web

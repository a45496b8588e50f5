/-
The two ends of the privileged socket (`platform/privileged/unix_socket`).

The client and the server are programs over the socket calls they make; `κ` names the
connections, one for each client.  A loop of the source that a signal may keep going has a
bound here: a program that is interrupted more often than it says is left `unfinished`.

* `UnixSocketClient.request` — connect, send one message, receive one;
* `UnixSocketServer.handleClient`, `UnixSocketServer.run` — one connection, and the loop
  that accepts one after the other.
-/
import UhfGateway.Effects.Program
import UhfGateway.Privileged.Messages

namespace Uhf.Privileged

open Effects

inductive End
  | client
  | server
  deriving DecidableEq, Repr

/-- `poll` within `kIoTimeoutMilliseconds`: interrupted by a signal, the event that was asked
for, or neither (the time is over, an error, another event). -/
inductive Polled
  | interrupted
  | ready
  | notReady
  deriving DecidableEq

/-- What a `send` has taken; nothing at all counts as an error. -/
inductive Sent
  | interrupted
  | count (written : ℕ)
  | failed
  deriving DecidableEq

/-- What a `recv` has delivered; no bytes are the end of the stream. -/
inductive Received
  | interrupted
  | bytes (received : Bytes)
  | failed
  deriving DecidableEq

structure Credentials where
  uid : ℕ
  gid : ℕ
  deriving DecidableEq, Repr

/-- What the server does before it listens. -/
inductive SetupStep
  | directory
  | unlink
  | socket
  | bind
  | chmod
  | listen
  deriving DecidableEq

inductive SocketCall (κ : Type)
  | socket
  | connect (c : κ)
  | poll (e : End) (c : κ) (output : Bool)
  | send (e : End) (c : κ) (bytes : Bytes)
  | recv (e : End) (c : κ) (size : ℕ)
  | close (e : End) (c : κ)
  | setUp (step : SetupStep)
  | stopRequested
  /-- `poll` of the listening socket for 100 ms; whether there is somebody to accept. -/
  | pollListener
  | accept
  | closeListener
  | peerCredentials (c : κ)
  /-- The request handler; it gives no reply when it throws. -/
  | handler (c : κ) (request : Bytes) (credentials : Credentials)
  deriving DecidableEq

@[reducible] def socketCalls (κ : Type) : Interface where
  Op := SocketCall κ
  Answer
    | .poll _ _ _ => Polled
    | .send _ _ _ => Sent
    | .recv _ _ _ => Received
    | .accept => Option κ
    | .peerCredentials _ => Option Credentials
    | .handler _ _ _ => Option Reply
    | _ => Bool

/-- How a program ends: the client with a reply, the server with an exit status. -/
inductive Outcome
  | replied (reply : Reply)
  | status (code : ℕ)
  | unfinished
  deriving DecidableEq

abbrev SocketProg (κ : Type) := Prog (socketCalls κ) Outcome

variable {κ : Type}

abbrev sock (c : SocketCall κ) (k : (socketCalls κ).Answer c → SocketProg κ) : SocketProg κ :=
  Prog.call (I := socketCalls κ) c k

/-! ### Streams -/

def waitFor (e : End) (c : κ) (output : Bool) : ℕ → (Bool → SocketProg κ) → SocketProg κ
  | 0, _ => .done .unfinished
  | fuel + 1, k =>
    sock (.poll e c output) fun
    | .interrupted => waitFor e c output fuel k
    | .ready => k true
    | .notReady => k false

/-- `write_all`; `bytes` is what is left to send. -/
def writeAll (e : End) (c : κ) (limit : ℕ) : ℕ → Bytes → (Bool → SocketProg κ) → SocketProg κ
  | _, [], k => k true
  | 0, _ :: _, _ => .done .unfinished
  | fuel + 1, b :: bytes, k =>
    waitFor e c true limit fun ready =>
    if !ready then k false
    else
      sock (.send e c (b :: bytes)) fun
      | .interrupted => writeAll e c limit fuel (b :: bytes) k
      | .count written =>
        if 0 < written then writeAll e c limit fuel ((b :: bytes).drop written) k else k false
      | .failed => k false

/-- `read_all`; `received` is what has come in so far. -/
def readAll (e : End) (c : κ) (limit : ℕ) :
    ℕ → ℕ → Bytes → (Option Bytes → SocketProg κ) → SocketProg κ
  | _, 0, received, k => k (some received)
  | 0, _ + 1, _, _ => .done .unfinished
  | fuel + 1, size + 1, received, k =>
    waitFor e c false limit fun ready =>
    if !ready then k none
    else
      sock (.recv e c (size + 1)) fun
      | .interrupted => readAll e c limit fuel (size + 1) received k
      | .bytes more =>
        if 0 < more.length then
          readAll e c limit fuel (size + 1 - more.length) (received ++ more) k
        else k none
      | .failed => k none

def sendMessage (e : End) (c : κ) (fuel : ℕ) (message : Bytes) (k : Bool → SocketProg κ) :
    SocketProg κ :=
  if kMaxMessageBytes < message.length ∨ 0xFFFFFFFF < message.length then k false
  else
    writeAll e c fuel fuel (writeU32 (UInt32.ofNat message.length)) fun written =>
    if !written then k false else writeAll e c fuel fuel message k

def receiveMessage (e : End) (c : κ) (fuel : ℕ) (k : Option Bytes → SocketProg κ) :
    SocketProg κ :=
  readAll e c fuel fuel 4 [] fun
  | none => k none
  | some header =>
    let length := (readU32 header).toNat
    if kMaxMessageBytes < length then k none
    else if length = 0 then k (some [])
    else readAll e c fuel fuel length [] k

/-! ### UnixSocketClient -/

def unavailable : Reply := { code := ascii "unavailable" }

def messageTooLarge : Reply := { code := ascii "message_too_large" }

/-- `make_address`: the path fits into `sun_path`. -/
def makeAddress (path : Bytes) : Bool := !path.isEmpty && path.length < 108

/-- Close the connection and give the reply. -/
def closeWith (c : κ) (reply : Reply) : SocketProg κ :=
  sock (.close .client c) fun _ => .done (.replied reply)

def UnixSocketClient.request (socketPath : Bytes) (fuel : ℕ) (c : κ) (message : Bytes) :
    SocketProg κ :=
  if kMaxMessageBytes < message.length then .done (.replied messageTooLarge)
  else
    sock .socket fun created =>
    if !created then .done (.replied unavailable)
    else if !makeAddress socketPath then closeWith c unavailable
    else
      sock (.connect c) fun connected =>
      if !connected then closeWith c unavailable
      else
        sendMessage .client c fuel message fun sent =>
        if !sent then closeWith c unavailable
        else
          receiveMessage .client c fuel fun response =>
          closeWith c (response.elim unavailable parseReply)

/-! ### UnixSocketServer -/

def unauthorizedPeer : Reply := { code := ascii "unauthorized_peer" }

def handlerError : Reply := { code := ascii "handler_error" }

/-- `allowedUid` is whose requests are handled, `fuel` the bound on the loops of one
connection, and `rounds` that on the loop that accepts. -/
structure UnixSocketServer where
  socketPath : Bytes
  allowedUid : ℕ

namespace UnixSocketServer

variable (server : UnixSocketServer)

def handleClient (fuel : ℕ) (c : κ) (k : SocketProg κ) : SocketProg κ :=
  receiveMessage .server c fuel fun
  | none => k
  | some request =>
    sock (.peerCredentials c) fun
    | none => k
    | some credentials =>
      if credentials.uid ≠ server.allowedUid then
        sendMessage .server c fuel (replyMessage unauthorizedPeer) fun _ => k
      else
        sock (.handler c request credentials) fun answer =>
        sendMessage .server c fuel (replyMessage (answer.getD handlerError)) fun _ => k

/-- The loop of `run`. -/
def serve (fuel : ℕ) : ℕ → SocketProg κ
  | 0 => .done .unfinished
  | rounds + 1 =>
    sock .stopRequested fun stop =>
    if stop then sock .closeListener fun _ => .done (.status 0)
    else
      sock .pollListener fun readable =>
      if !readable then serve fuel rounds
      else
        sock .accept fun
        | none => serve fuel rounds
        | some c =>
          server.handleClient fuel c (sock (.close .server c) fun _ => serve fuel rounds)

/-- What is undone when the socket cannot be set up. -/
def abandon : SocketProg κ :=
  sock .closeListener fun _ => sock (.setUp .unlink) fun _ => .done (.status 1)

/-- The steps that follow the creation of the socket. -/
def setUpEach : List SetupStep → SocketProg κ → SocketProg κ
  | [], k => k
  | step :: steps, k =>
    sock (.setUp step) fun done => if !done then abandon else setUpEach steps k

def run (fuel rounds : ℕ) : SocketProg κ :=
  sock (.setUp .directory) fun made =>
  if !made then .done (.status 1)
  else
    sock (.setUp .unlink) fun _ =>
    sock (.setUp .socket) fun created =>
    if !created then .done (.status 1)
    else if !makeAddress server.socketPath then abandon
    else setUpEach [.bind, .chmod, .listen] (server.serve fuel rounds)

end UnixSocketServer

end Uhf.Privileged

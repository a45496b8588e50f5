/-
One control connection of the FTP server (`Server::serve_client`).

The loop of a connection reads one command after another; the loops of a transfer, which go on
until the peer ends them, are rounds of the same loop.  `Phase` is where the connection stands
between two rounds and `serve` what it does in one.

Not modelled: the set of sockets that `stop` shuts down, and the thread that closes the socket of
a connection when its loop has left.
-/
import UhfGateway.Effects.Trace
import UhfGateway.Web.Routes

namespace Uhf.Ftp

open Effects
open Web (appendPath)

/-! ### Options and names -/

/-- `ServerOptions`, as far as a connection depends on them, with what the constructor checks. -/
structure ServerOptions where
  root : Bytes
  maxFiles : ℕ
  maxFileBytes : UInt64
  maxTotalBytes : UInt64
  root_ne : root ≠ []
  maxFiles_pos : 0 < maxFiles
  maxFileBytes_pos : 0 < maxFileBytes
  maxFileBytes_le : maxFileBytes ≤ maxTotalBytes

/-- `valid_filename`. -/
def validFilename (filename : Bytes) : Bool :=
  if filename = [] ∨ 128 < filename.length ∨ filename = ascii "." ∨ filename = ascii ".." ∨
      filename.head? = some '.'.toUInt8 ∨ '/'.toUInt8 ∈ filename ∨ '\\'.toUInt8 ∈ filename then
    false
  else filename.all fun character => !(character < 0x20 || character = 0x7F)

/-- `uppercase`, of the letters of ASCII. -/
def uppercase (value : Bytes) : Bytes :=
  value.map fun character =>
    if 'a'.toUInt8 ≤ character ∧ character ≤ 'z'.toUInt8 then character - 0x20 else character

def commandOf (line : Bytes) : Bytes := uppercase (line.takeWhile (· ≠ ' '.toUInt8))

def argumentOf (line : Bytes) : Bytes := (line.dropWhile (· ≠ ' '.toUInt8)).drop 1

/-- `options_.root / name`. -/
def entryPath (options : ServerOptions) (name : Bytes) : Bytes := appendPath options.root name

/-- The name that a file has while it is being received. -/
def uploadName (pid : ℕ) (sequence : UInt64) : Bytes :=
  ascii ".upload-" ++ decimal pid ++ ascii "-" ++ decimal sequence.toNat

/-! ### Operations -/

/-- What `fstat` says of a file. -/
structure FileStatus where
  regular : Bool
  size : Int

/-- The answer of `read` and `recv`. -/
inductive Received
  | bytes (bytes : Bytes)
  | interrupted
  | failed

/-- The answer of `write`. -/
inductive Written
  | bytes (count : ℕ)
  | interrupted
  | failed

inductive FtpCall
  /-- `read_line`: the next control line, unless the peer, the time limit or the stop ends them. -/
  | readLine
  /-- `send_all` on the control connection. -/
  | reply (text : Bytes)
  /-- `getpeername`: whether the peer has an IPv4 address. -/
  | peerAddress
  /-- `password_verifier_`. -/
  | verifyPassword (username password : Bytes)
  /-- `open_listener`: the port. -/
  | openListener
  /-- `getsockname`: the address of this end. -/
  | localAddress
  | closePassive
  /-- `accept_data`, which uses the passive socket up. -/
  | acceptData
  /-- `send_all` on the data connection, of the text of `list_files` and of a piece of a file. -/
  | sendListing (text : Bytes)
  | sendData (bytes : Bytes)
  /-- `wait_readable` on the data connection. -/
  | waitData
  | recvData
  | closeData
  /-- The directory iterator over the root: the names, and whether an error has ended it. -/
  | listRoot
  /-- `symlink_status`: whether it is that of a regular file; `none` is an error. -/
  | isRegularFile (path : Bytes)
  /-- `file_size`; `none` is an error. -/
  | fileSize (path : Bytes)
  /-- `open` for reading, of what is no symbolic link. -/
  | openFile (path : Bytes)
  | fstat (descriptor : ℕ)
  | readFile (descriptor : ℕ)
  | close (descriptor : ℕ)
  /-- The constructor and the destructor of `storage_lock`. -/
  | lock
  | unlock
  | stopRequested
  /-- `upload_sequence_.fetch_add`. -/
  | nextUpload
  /-- `open` for writing, of a file that is created. -/
  | createUpload (path : Bytes)
  | writeFile (descriptor : ℕ) (bytes : Bytes)
  | fsync (descriptor : ℕ)
  | rename (source target : Bytes)
  | unlink (path : Bytes)
  /-- `open` of the root itself. -/
  | openRoot
  deriving DecidableEq

@[reducible] def ftpCalls : Interface where
  Op := FtpCall
  Answer
    | .readLine => Option Bytes
    | .openListener => Option UInt16
    | .localAddress => Option UInt32
    | .listRoot => List Bytes × Bool
    | .isRegularFile _ => Option Bool
    | .fileSize _ => Option UInt64
    | .openFile _ | .createUpload _ | .openRoot => Option ℕ
    | .fstat _ => Option FileStatus
    | .recvData | .readFile _ => Received
    | .writeFile _ _ => Written
    | .nextUpload => UInt64
    | .reply _ | .peerAddress | .verifyPassword _ _ | .acceptData | .sendListing _ | .sendData _ |
      .waitData | .close _ | .stopRequested | .fsync _ | .rename _ _ | .unlink _ => Bool
    | .closePassive | .closeData | .lock | .unlock => Unit

def ask {α : Type} (call : FtpCall) (k : ftpCalls.Answer call → Prog ftpCalls α) :
    Prog ftpCalls α :=
  .call (I := ftpCalls) call k

/-! ### The state of a connection -/

structure Session where
  username : Bytes := []
  authenticated : Bool := false
  failedPasswords : ℕ := 0
  /-- `passive_fd >= 0`. -/
  passive : Bool := false

/-- A file on its way in. -/
structure Upload where
  argument : Bytes
  temporary : Bytes
  descriptor : ℕ
  limit : UInt64
  total : UInt64

inductive Phase
  | connected
  | command (session : Session)
  /-- In the loop of `RETR`. -/
  | sending (session : Session) (descriptor : ℕ)
  /-- In the outer loop of `STOR`. -/
  | receiving (session : Session) (upload : Upload)
  /-- In the inner loop of `STOR`, with the bytes it has not written yet. -/
  | writing (session : Session) (upload : Upload) (rest : Bytes)

/-- A reply, whether or not it can be sent. -/
def answer {α : Type} (text : String) (k : Prog ftpCalls α) : Prog ftpCalls α :=
  ask (.reply (ascii text)) fun _ => k

/-- On to the next command. -/
def next (session : Session) : Prog ftpCalls (Option Phase) := .done (some (.command session))

/-- `close_passive`. -/
def closePassive {α : Type} (session : Session) (k : Prog ftpCalls α) : Prog ftpCalls α :=
  if session.passive then ask .closePassive fun _ => k else k

/-- Out of the loop. -/
def leave (session : Session) : Prog ftpCalls (Option Phase) := closePassive session (.done none)

/-! ### Logging in -/

def user (session : Session) (argument : Bytes) : Prog ftpCalls (Option Phase) :=
  let named := { session with username := argument, authenticated := false }
  if argument ≠ ascii "admin" then answer "530 Login incorrect\r\n" (next named)
  else answer "331 Password required\r\n" (next named)

def refusePassword (session : Session) : Prog ftpCalls (Option Phase) :=
  let refused := { session with
    authenticated := false
    failedPasswords := session.failedPasswords + 1 }
  answer "530 Login incorrect\r\n" <|
    if 3 ≤ refused.failedPasswords then leave refused else next refused

def pass (session : Session) (argument : Bytes) : Prog ftpCalls (Option Phase) :=
  if session.username = ascii "admin" then
    ask (.verifyPassword session.username argument) fun (verified : Bool) =>
      if verified then
        answer "230 Login successful\r\n"
          (next { session with authenticated := true, failedPasswords := 0 })
      else refusePassword session
  else refusePassword session

/-! ### Passive connections -/

def passiveReply (ip : UInt32) (port : UInt16) : Bytes :=
  ascii "227 Entering Passive Mode (" ++ decimal ((ip >>> 24) &&& 0xFF).toNat ++ ascii "," ++
    decimal ((ip >>> 16) &&& 0xFF).toNat ++ ascii "," ++ decimal ((ip >>> 8) &&& 0xFF).toNat ++
    ascii "," ++ decimal (ip &&& 0xFF).toNat ++ ascii "," ++ decimal (port / 256).toNat ++
    ascii "," ++ decimal (port % 256).toNat ++ ascii ")\r\n"

def extendedPassiveReply (port : UInt16) : Bytes :=
  ascii "229 Entering Extended Passive Mode (|||" ++ decimal port.toNat ++ ascii "|)\r\n"

/-- `PASV` and `EPSV`. -/
def openPassive (session : Session) (extended : Bool) : Prog ftpCalls (Option Phase) :=
  closePassive session <|
    ask .openListener fun (listener : Option UInt16) =>
      match listener with
      | none =>
        answer "425 Cannot open passive connection\r\n" (next { session with passive := false })
      | some port =>
        if extended then
          ask (.reply (extendedPassiveReply port)) fun _ => next { session with passive := true }
        else ask .localAddress fun (address : Option UInt32) =>
          match address with
          | none =>
            ask .closePassive fun _ =>
              answer "425 Cannot determine passive address\r\n"
                (next { session with passive := false })
          | some ip =>
            ask (.reply (passiveReply ip port)) fun _ => next { session with passive := true }

/-! ### Reading files -/

/-- A regular file within the limit, opened: its descriptor and its size; any other is closed. -/
def openRegular {α : Type} (options : ServerOptions) (argument : Bytes)
    (k : Option (ℕ × Int) → Prog ftpCalls α) : Prog ftpCalls α :=
  ask (.openFile (entryPath options argument)) fun (opened : Option ℕ) =>
    match opened with
    | none => k none
    | some descriptor =>
      ask (.fstat descriptor) fun (status : Option FileStatus) =>
        match status with
        | none => ask (.close descriptor) fun _ => k none
        | some status =>
          if !status.regular || status.size < 0 ||
              (options.maxFileBytes.toNat : Int) < status.size then
            ask (.close descriptor) fun _ => k none
          else k (some (descriptor, status.size))

def size (options : ServerOptions) (session : Session) (argument : Bytes) :
    Prog ftpCalls (Option Phase) :=
  if !validFilename argument then answer "550 Invalid filename\r\n" (next session)
  else openRegular options argument fun opened =>
    match opened with
    | none => answer "550 File unavailable\r\n" (next session)
    | some (descriptor, size) =>
      ask (.close descriptor) fun _ =>
        ask (.reply (ascii "213 " ++ decimal size ++ ascii "\r\n")) fun _ => next session

structure ListedFile where
  name : Bytes
  size : UInt64

/-- The loop of `list_files`. -/
def listedFiles (options : ServerOptions) :
    List Bytes → List ListedFile → Prog ftpCalls (List ListedFile)
  | [], entries => .done entries
  | name :: rest, entries =>
    if !validFilename name then listedFiles options rest entries
    else ask (.isRegularFile (entryPath options name)) fun (regular : Option Bool) =>
      if regular ≠ some true then listedFiles options rest entries
      else ask (.fileSize (entryPath options name)) fun (size : Option UInt64) =>
        match size with
        | none => listedFiles options rest entries
        | some size =>
          if options.maxFiles ≤ entries.length + 1 then .done (entries ++ [⟨name, size⟩])
          else listedFiles options rest (entries ++ [⟨name, size⟩])

/-- `std::setw`. -/
def setw (width : ℕ) (text : Bytes) : Bytes :=
  List.replicate (width - text.length) ' '.toUInt8 ++ text

def listingLine (namesOnly : Bool) (entry : ListedFile) : Bytes :=
  if namesOnly then entry.name ++ ascii "\r\n"
  else ascii "-rw------- 1 ftp ftp " ++ setw 12 (decimal entry.size.toNat) ++
    ascii " Jan 01 00:00 " ++ entry.name ++ ascii "\r\n"

/-- The text of `list_files`. -/
def listing (namesOnly : Bool) (entries : List ListedFile) : Bytes :=
  (entries.mergeSort fun left right => decide (left.name ≤ right.name)).flatMap
    (listingLine namesOnly)

/-- `LIST` and `NLST`. -/
def list (options : ServerOptions) (session : Session) (namesOnly : Bool) :
    Prog ftpCalls (Option Phase) :=
  if !session.passive then answer "425 Use PASV or EPSV first\r\n" (next session)
  else answer "150 Opening data connection\r\n" <|
    ask .acceptData fun (accepted : Bool) =>
      if !accepted then
        answer "426 Data connection failed\r\n" (next { session with passive := false })
      else ask .listRoot fun (names : List Bytes × Bool) =>
        listedFiles options names.1 [] >>= fun entries =>
          ask (.sendListing (listing namesOnly entries)) fun (sent : Bool) =>
            ask .closeData fun _ =>
              answer (if sent then "226 Transfer complete\r\n" else "426 Transfer failed\r\n")
                (next { session with passive := false })

/-- What comes behind the loop of `RETR`. -/
def finishSending (session : Session) (descriptor : ℕ) (accepted sent : Bool) :
    Prog ftpCalls (Option Phase) :=
  let reply := answer (if sent then "226 Transfer complete\r\n" else "426 Transfer failed\r\n")
    (next session)
  ask (.close descriptor) fun _ => if accepted then ask .closeData fun _ => reply else reply

def retr (options : ServerOptions) (session : Session) (argument : Bytes) :
    Prog ftpCalls (Option Phase) :=
  if !validFilename argument || !session.passive then
    answer (if !session.passive then "425 Use PASV or EPSV first\r\n"
      else "550 Invalid filename\r\n") (next session)
  else openRegular options argument fun opened =>
    match opened with
    | none => answer "550 File unavailable\r\n" (next session)
    | some (descriptor, _) =>
      answer "150 Opening data connection\r\n" <|
        ask .acceptData fun (accepted : Bool) =>
          if accepted then .done (some (.sending { session with passive := false } descriptor))
          else finishSending { session with passive := false } descriptor false false

/-- A round of the loop of `RETR`. -/
def sendRound (session : Session) (descriptor : ℕ) : Prog ftpCalls (Option Phase) :=
  ask (.readFile descriptor) fun (received : Received) =>
    match received with
    | .interrupted => .done (some (.sending session descriptor))
    | .failed => finishSending session descriptor true false
    | .bytes bytes =>
      if bytes = [] then finishSending session descriptor true true
      else ask (.sendData bytes) fun (sent : Bool) =>
        if sent then .done (some (.sending session descriptor))
        else finishSending session descriptor true false

/-! ### Storing files -/

/-- What the other files take up: their bytes and their number; `none` if they cannot be counted
or are too large already. -/
def usage (options : ServerOptions) (argument : Bytes) :
    List Bytes → UInt64 → ℕ → Prog ftpCalls (Option (UInt64 × ℕ))
  | [], bytesInOtherFiles, otherFileCount => .done (some (bytesInOtherFiles, otherFileCount))
  | name :: rest, bytesInOtherFiles, otherFileCount =>
    if name = argument || !validFilename name then
      usage options argument rest bytesInOtherFiles otherFileCount
    else ask (.isRegularFile (entryPath options name)) fun (regular : Option Bool) =>
      -- an entry whose status cannot be read is skipped
      if regular ≠ some true then usage options argument rest bytesInOtherFiles otherFileCount
      else ask (.fileSize (entryPath options name)) fun (size : Option UInt64) =>
        match size with
        | none => .done none
        | some size =>
          if options.maxTotalBytes < bytesInOtherFiles ||
              options.maxTotalBytes - bytesInOtherFiles < size then .done none
          else usage options argument rest (bytesInOtherFiles + size) (otherFileCount + 1)

/-- The end of the command, where the lock is given back. -/
def unlocked (session : Session) (text : String) : Prog ftpCalls (Option Phase) :=
  answer text (ask .unlock fun _ => next session)

/-- `persisted`. -/
def persist (options : ServerOptions) (upload : Upload) (received : Bool) : Prog ftpCalls Bool :=
  if !received then .done false
  else ask (.fsync upload.descriptor) fun (synced : Bool) =>
    if !synced then .done false
    else ask (.close upload.descriptor) fun (closed : Bool) =>
      if !closed then .done false
      else ask (.rename upload.temporary (entryPath options upload.argument)) .done

/-- The root synced, as far as possible. -/
def syncRoot : Prog ftpCalls Unit :=
  ask .openRoot fun (directory : Option ℕ) =>
    match directory with
    | none => .done ()
    | some directory => ask (.fsync directory) fun _ => ask (.close directory) fun _ => .done ()

/-- What comes behind the loops of `STOR`. -/
def finishUpload (options : ServerOptions) (session : Session) (upload : Upload)
    (received : Bool) : Prog ftpCalls (Option Phase) :=
  persist options upload received >>= fun persisted =>
    if persisted then
      syncRoot >>= fun _ => unlocked session "226 Transfer complete\r\n"
    else
      ask (.close upload.descriptor) fun _ =>
        ask (.unlink upload.temporary) fun _ =>
          unlocked session "552 Upload failed or too large\r\n"

def closeUpload (options : ServerOptions) (session : Session) (upload : Upload)
    (received : Bool) : Prog ftpCalls (Option Phase) :=
  ask .closeData fun _ => finishUpload options session upload received

/-- `STOR` with the lock held and the other files counted. -/
def beginUpload (options : ServerOptions) (pid : ℕ) (session : Session) (argument : Bytes)
    (limit : UInt64) : Prog ftpCalls (Option Phase) :=
  ask .nextUpload fun (sequence : UInt64) =>
    ask (.createUpload (entryPath options (uploadName pid sequence))) fun (created : Option ℕ) =>
      match created with
      | none => unlocked session "550 Cannot create upload\r\n"
      | some descriptor =>
        let upload : Upload := {
          argument := argument
          temporary := entryPath options (uploadName pid sequence)
          descriptor := descriptor
          limit := limit
          total := 0 }
        answer "150 Opening data connection\r\n" <|
          ask .acceptData fun (accepted : Bool) =>
            if accepted then .done (some (.receiving { session with passive := false } upload))
            else finishUpload options { session with passive := false } upload false

def stor (options : ServerOptions) (pid : ℕ) (session : Session) (argument : Bytes) :
    Prog ftpCalls (Option Phase) :=
  if !validFilename argument || !session.passive then
    answer (if !session.passive then "425 Use PASV or EPSV first\r\n"
      else "550 Invalid filename\r\n") (next session)
  else
    ask .lock fun _ =>
      ask .listRoot fun (names : List Bytes × Bool) =>
        usage options argument names.1 0 0 >>= fun used =>
          match if names.2 then none else used with
          | none => unlocked session "552 FTP storage quota exceeded\r\n"
          | some (bytesInOtherFiles, otherFileCount) =>
            if options.maxFiles ≤ otherFileCount || options.maxTotalBytes ≤ bytesInOtherFiles then
              unlocked session "552 FTP storage quota exceeded\r\n"
            else
              beginUpload options pid session argument
                (min options.maxFileBytes (options.maxTotalBytes - bytesInOtherFiles))

/-- A round of the outer loop of `STOR`. -/
def receiveRound (options : ServerOptions) (session : Session) (upload : Upload) :
    Prog ftpCalls (Option Phase) :=
  ask .stopRequested fun (stopped : Bool) =>
    if stopped then closeUpload options session upload true
    else ask .waitData fun (readable : Bool) =>
      if !readable then closeUpload options session upload false
      else ask .recvData fun (received : Received) =>
        match received with
        | .interrupted => .done (some (.receiving session upload))
        | .failed => closeUpload options session upload false
        | .bytes bytes =>
          if bytes = [] then closeUpload options session upload true
          else
            let upload := { upload with total := upload.total + UInt64.ofNat bytes.length }
            if upload.limit < upload.total then closeUpload options session upload false
            else .done (some (.writing session upload bytes))

/-- A round of the inner loop of `STOR`. -/
def writeRound (options : ServerOptions) (session : Session) (upload : Upload) (rest : Bytes) :
    Prog ftpCalls (Option Phase) :=
  if rest = [] then .done (some (.receiving session upload))
  else ask (.writeFile upload.descriptor rest) fun (written : Written) =>
    match written with
    | .interrupted => .done (some (.writing session upload rest))
    | .failed => closeUpload options session upload false
    | .bytes count =>
      if count = 0 then closeUpload options session upload false
      else .done (some (.writing session upload (rest.drop count)))

/-! ### The loop -/

def changeDirectory (session : Session) (command argument : Bytes) : Prog ftpCalls (Option Phase) :=
  if command = ascii "CDUP" ∨ argument = ascii "/" ∨ argument = ascii "." ∨ argument = [] then
    answer "250 Directory changed\r\n" (next session)
  else answer "550 Only the FTP root is available\r\n" (next session)

/-- The commands of a user who is logged in. -/
def authenticatedCommand (options : ServerOptions) (pid : ℕ) (session : Session)
    (command argument : Bytes) : Prog ftpCalls (Option Phase) :=
  if command = ascii "TYPE" then
    answer (if argument = ascii "I" ∨ argument = ascii "A" then "200 Type set\r\n"
      else "504 Type not supported\r\n") (next session)
  else if command = ascii "PWD" then
    answer "257 \"/\" is the current directory\r\n" (next session)
  else if command = ascii "CWD" ∨ command = ascii "CDUP" then
    changeDirectory session command argument
  else if command = ascii "PASV" ∨ command = ascii "EPSV" then
    openPassive session (command = ascii "EPSV")
  else if command = ascii "SIZE" then size options session argument
  else if command = ascii "LIST" ∨ command = ascii "NLST" then
    list options session (command = ascii "NLST")
  else if command = ascii "RETR" then retr options session argument
  else if command = ascii "STOR" then stor options pid session argument
  else answer "502 Command not implemented\r\n" (next session)

/-- One command. -/
def dispatch (options : ServerOptions) (pid : ℕ) (session : Session) (command argument : Bytes) :
    Prog ftpCalls (Option Phase) :=
  if command = ascii "QUIT" then answer "221 Goodbye\r\n" (leave session)
  else if command = ascii "NOOP" then answer "200 OK\r\n" (next session)
  else if command = ascii "SYST" then answer "215 UNIX Type: L8\r\n" (next session)
  else if command = ascii "FEAT" then
    answer "211-Features\r\n EPSV\r\n PASV\r\n SIZE\r\n UTF8\r\n211 End\r\n" (next session)
  else if command = ascii "OPTS" ∧ uppercase argument = ascii "UTF8 ON" then
    answer "200 UTF8 enabled\r\n" (next session)
  else if command = ascii "USER" then user session argument
  else if command = ascii "PASS" then pass session argument
  else if !session.authenticated then
    answer "530 Please login with USER and PASS\r\n" (next session)
  else authenticatedCommand options pid session command argument

/-- One round of `serve_client`. -/
def serve (options : ServerOptions) (pid : ℕ) : Phase → Prog ftpCalls (Option Phase)
  | .connected =>
    ask (.reply (ascii "220 UHF gateway FTP ready\r\n")) fun (sent : Bool) =>
      if !sent then .done none
      else ask .peerAddress fun (known : Bool) =>
        if !known then .done none else next {}
  | .command session =>
    ask .readLine fun (line : Option Bytes) =>
      match line with
      | none => leave session
      | some line => dispatch options pid session (commandOf line) (argumentOf line)
  | .sending session descriptor => sendRound session descriptor
  | .receiving session upload => receiveRound options session upload
  | .writing session upload rest => writeRound options session upload rest

end Uhf.Ftp

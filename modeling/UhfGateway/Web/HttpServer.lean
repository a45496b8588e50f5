/-
The web server (`web/http_server`).

`handleClient` answers one request.  What the server remembers between requests, the
sessions and the failed logins, is passed through it; everything else is behind the calls
of `webCalls`: the stores, the privileged service, the files, the random numbers, and what
the pages show.  The server's mutex is held from the look at the clock to the answer, so
requests are answered one after the other.

`sessions_` and `login_failures_` are hash tables; which of their entries comes first is
an answer like any other.  Where a callee throws, the connection is dropped.
-/
import UhfGateway.Containers.Table
import UhfGateway.Effects.Trace
import UhfGateway.Network.FlatJson
import UhfGateway.Web.HttpRequest
import UhfGateway.Web.Telemetry

namespace Uhf.Web

open Acquisition Health Network Effects Containers

def kMaxResponseBytes : ℕ := 512 * 1024
def kMaxSessions : ℕ := 64
def kMaxLoginFailureRecords : ℕ := 64
def kMaxPasswordJsonBytes : ℕ := 256
def kMaxPasswordBytes : ℕ := 256
def kSaltBytes : ℕ := 16
def kMaxIcdBytes : ℕ := 48 * 1024
def kSessionLifetime : Nanoseconds := 30 * 60 * 1000000000
def kLoginFailureWindow : Nanoseconds := 60 * 1000000000
def kLoginBlockTime : Nanoseconds := 30 * 1000000000

/-! ### Sessions -/

structure Session where
  csrfToken : Bytes
  remoteAddress : Bytes
  expiresAt : Nanoseconds

/-- The sessions by their tokens; no token is empty. -/
structure Sessions where
  table : Table Bytes Session := ∅
  issued : ∀ token session, table.lookup token = some session →
    token ≠ [] ∧ session.csrfToken ≠ [] := by intro _ _ h; cases h

namespace Sessions

def cleanup (s : Sessions) (now : Nanoseconds) : Sessions where
  table := s.table.filter fun _ session => now < session.expiresAt
  issued token session h := by
    rw [Table.lookup_filter, Option.filter_eq_some_iff] at h
    exact s.issued token session h.1

/-- The lifetime of the session starts again. -/
def refresh (s : Sessions) (token : Bytes) (now : Nanoseconds) : Sessions where
  table := s.table.modify token fun session =>
    { session with expiresAt := now + kSessionLifetime }
  issued token' session h := by
    rw [Table.lookup_modify] at h
    split_ifs at h
    · obtain ⟨before, hbefore, rfl⟩ := Option.map_eq_some_iff.mp h
      exact s.issued token' before hbefore
    · exact s.issued token' session h

def erase (s : Sessions) (token : Bytes) : Sessions where
  table := s.table.erase token
  issued token' session h := by
    by_cases htoken : token' = token
    · rw [htoken, AList.lookup_erase] at h
      cases h
    · rw [AList.lookup_erase_ne htoken] at h
      exact s.issued token' session h

def clear : Sessions := {}

/-- All other sessions are revoked. -/
def retainOnly (s : Sessions) (token : Bytes) : Sessions where
  table := s.table.filter fun token' _ => token' = token
  issued token' session h := by
    rw [Table.lookup_filter, Option.filter_eq_some_iff] at h
    exact s.issued token' session h.1

/-- A session whose token is taken is not stored. -/
def emplace (s : Sessions) (token : Bytes) (session : Session)
    (h : token ≠ [] ∧ session.csrfToken ≠ []) : Sessions where
  table := if token ∈ s.table then s.table else s.table.insert token session
  issued token' session' h' := by
    split_ifs at h'
    · exact s.issued token' session' h'
    · by_cases htoken : token' = token
      · rw [htoken, AList.lookup_insert] at h'
        cases h'
        rw [htoken]
        exact h
      · rw [AList.lookup_insert_ne htoken] at h'
        exact s.issued token' session' h'

variable {s : Sessions} {token token' : Bytes} {session : Session} {now : Nanoseconds}

theorem lookup_cleanup :
    (s.cleanup now).table.lookup token = some session ↔
      s.table.lookup token = some session ∧ now < session.expiresAt := by
  rw [cleanup, Table.lookup_filter, Option.filter_eq_some_iff, decide_eq_true_eq]

theorem lookup_erase :
    (s.erase token).table.lookup token' = some session ↔
      token' ≠ token ∧ s.table.lookup token' = some session := by
  by_cases htoken : token' = token
  · subst htoken
    rw [erase, AList.lookup_erase]
    exact ⟨fun h => absurd h.symm (Option.some_ne_none _), fun h => absurd rfl h.1⟩
  · rw [erase, AList.lookup_erase_ne htoken]
    exact ⟨fun h => ⟨htoken, h⟩, fun h => h.2⟩

theorem lookup_retainOnly :
    (s.retainOnly token).table.lookup token' = some session ↔
      token' = token ∧ s.table.lookup token' = some session := by
  rw [retainOnly, Table.lookup_filter, Option.filter_eq_some_iff, decide_eq_true_eq, and_comm]

theorem lookup_refresh :
    (s.refresh token now).table.lookup token' = some session ↔
      token' ≠ token ∧ s.table.lookup token' = some session ∨
        token' = token ∧ ∃ before, s.table.lookup token' = some before ∧
          { before with expiresAt := now + kSessionLifetime } = session := by
  rw [refresh, Table.lookup_modify]
  by_cases htoken : token' = token
  · subst htoken
    rw [if_pos rfl, Option.map_eq_some_iff]
    exact ⟨fun h => .inr ⟨rfl, h⟩, fun h => h.elim (fun h => absurd rfl h.1) fun h => h.2⟩
  · rw [if_neg htoken]
    exact ⟨fun h => .inl ⟨htoken, h⟩, fun h => h.elim (fun h => h.2) fun h => absurd h.1 htoken⟩

theorem lookup_emplace (h : token ≠ [] ∧ session.csrfToken ≠ []) :
    (s.emplace token session h).table.lookup token' =
      if token' = token then some ((s.table.lookup token).getD session)
      else s.table.lookup token' := by
  show (if token ∈ s.table then s.table else s.table.insert token session).lookup token' = _
  by_cases htoken : token' = token
  · rw [if_pos htoken, htoken]
    split_ifs with hmem
    · obtain ⟨before, hbefore⟩ := Table.mem_iff_lookup.mp hmem
      rw [hbefore, Option.getD_some]
    · rw [AList.lookup_insert, AList.lookup_eq_none.mpr hmem, Option.getD_none]
  · rw [if_neg htoken]
    split_ifs
    · rfl
    · exact AList.lookup_insert_ne htoken

theorem size_emplace_le (h : token ≠ [] ∧ session.csrfToken ≠ []) :
    (s.emplace token session h).table.size ≤ s.table.size + 1 := by
  show Table.size (if token ∈ s.table then s.table else s.table.insert token session) ≤ _
  split_ifs
  · exact Nat.le_succ _
  · exact Table.size_insert_le

end Sessions

structure LoginFailures where
  count : ℕ := 0
  windowStarted : Nanoseconds := 0
  blockedUntil : Nanoseconds := 0
  deriving DecidableEq

/-- One more failure. -/
def LoginFailures.fail (failures : LoginFailures) (now : Nanoseconds) : LoginFailures :=
  let failures : LoginFailures :=
    if failures.windowStarted = 0 ∨ kLoginFailureWindow ≤ now - failures.windowStarted then
      { count := 0, windowStarted := now, blockedUntil := 0 }
    else failures
  let count := failures.count + 1
  if 5 ≤ count then { failures with blockedUntil := now + kLoginBlockTime, count := 0 }
  else { failures with count := count }

/-- What the server is made with, and what it remembers. -/
structure HttpServer where
  documentRoot : Bytes
  version : Bytes := []
  /-- With TLS there is a TLS context, and every connection uses it. -/
  tlsEnabled : Bool := true
  hasConfigStore : Bool := true
  hasNetworkClient : Bool := true
  hasReloadHandler : Bool := true
  sessions : Sessions := .clear
  loginFailures : Table Bytes LoginFailures := ∅

/-! ### Calls -/

/-- The values of the configuration that the routes read. -/
structure ConfigValues where
  acquisitionDevice : Bytes
  rtuDevice : Bytes
  rtuUnitId : UInt8
  iecEnabled : Bool
  ftpEnabled : Bool
  ftpPort : UInt16
  iecIedName : Bytes
  timeSyncEnabled : Bool
  sntpServer : Bytes
  deriving DecidableEq

structure ConfigSnapshot where
  version : ℕ
  values : ConfigValues

inductive UpdateResult
  | updated
  | invalid
  | conflict
  | storageError
  deriving DecidableEq

structure IcdStatus where
  overrideActive : Bool
  iedName : Bytes

inductive IcdReplaceResult
  | replaced
  | invalid
  | storageError
  deriving DecidableEq

inductive IcdRestoreResult
  | restored
  | noOverride
  | storageError
  deriving DecidableEq

inductive TlsReplaceResult
  | replaced
  | invalid
  | storageError
  deriving DecidableEq

inductive PasswordChangeResult
  | changed
  | invalidCurrentPassword
  | invalidNewPassword
  | storageError
  deriving DecidableEq

/-- A reply of the privileged service. -/
structure Reply where
  ok : Bool
  code : Bytes
  body : Bytes

inductive WebCall
  /-- `begin()` of a hash table with these keys. -/
  | first (keys : List Bytes)
  /-- `RAND_bytes`, `none` if it fails. -/
  | randomBytes (count : ℕ)
  | verifyPassword (username password : Bytes)
  /-- The record of a new password is written. -/
  | storePassword (salt password : Bytes)
  | configSnapshot
  | configJson
  | configSchemaJson
  | configUpdate (expectedVersion : ℕ) (body : Bytes)
  | setIecIedName (iedName : Bytes)
  | icdStatus
  | icdReadCurrent
  | icdReadPrevious
  | icdReplace (contents : Bytes)
  | icdRestore
  | icdDiscardOverride
  | reloadIec61850
  | tlsReplace (certificatePem privateKeyPem : Bytes)
  | parseFlatJson (json : Bytes)
  | networkStatus
  | networkStage (candidate : NetworkConfig)
  | networkConfirm
  | networkRollback
  | maintenanceReboot
  | maintenanceRestartService
  | timeSync (server : Bytes)
  | timeDisable
  | timeSet (localTime : Bytes)
  /-- The time of the system clock in milliseconds. -/
  | systemTime
  | healthReport (now : Nanoseconds)
  | overviewJson
  | snapshotJson
  | iec61850Json (now : Nanoseconds)
  | iec61850IcdJson
  | logsJson (limit : ℕ)
  | framesJson
  | eventsJson
  | latestFrameCsv
  | latestEventCsv
  /-- One of the WebSocket connections is taken, if there is one left. -/
  | acquireWebsocket
  | releaseWebsocket
  | sendHandshake (key : Bytes)
  | startWebsocket
  | weaklyCanonical (path : Bytes)
  | isRegularFile (path : Bytes)
  | fileSize (path : Bytes)
  /-- The contents of a file, `none` if they cannot be read. -/
  | openFile (path : Bytes)
  | readFile (path : Bytes)

def webCalls : Interface where
  Op := WebCall
  Answer
    | .first keys => {key // key ∈ keys}
    | .randomBytes count => Option (Vector UInt8 count)
    | .verifyPassword .. | .storePassword .. | .setIecIedName _ | .icdDiscardOverride
    | .reloadIec61850 | .acquireWebsocket | .sendHandshake _ | .startWebsocket
    | .isRegularFile _ | .openFile _ => Bool
    | .configSnapshot => ConfigSnapshot
    | .configUpdate .. => UpdateResult
    | .icdStatus => IcdStatus
    | .icdReplace _ => IcdReplaceResult
    | .icdRestore => IcdRestoreResult
    | .tlsReplace .. => TlsReplaceResult
    | .parseFlatJson _ => Option NetworkConfig
    | .networkStatus | .networkStage _ | .networkConfirm | .networkRollback
    | .maintenanceReboot | .maintenanceRestartService | .timeSync _ | .timeDisable
    | .timeSet _ => Reply
    | .systemTime => Int
    | .healthReport _ => Report
    | .configJson | .configSchemaJson | .overviewJson | .iec61850Json _ | .iec61850IcdJson
    | .logsJson _ => Bytes
    | .icdReadCurrent | .icdReadPrevious | .snapshotJson | .framesJson | .eventsJson
    | .latestFrameCsv | .latestEventCsv | .weaklyCanonical _ | .readFile _ => Option Bytes
    | .fileSize _ => Option ℕ
    | .releaseWebsocket => Unit

/-! ### Responses -/

structure Response where
  status : ℕ
  type : Bytes
  body : Bytes
  extraHeaders : Bytes := []

inductive Outcome
  | response (response : Response)
  /-- The connection belongs to a thread of its own now. -/
  | handedOff
  /-- The connection is closed without an answer. -/
  | dropped

def sendJson (status : ℕ) (body : Bytes) (extraHeaders : Bytes := []) : Response :=
  ⟨status, ascii "application/json; charset=utf-8", body, extraHeaders⟩

def sendError (status : ℕ) (message : Bytes) (extraHeaders : Bytes := []) : Response :=
  sendJson status (jsonObject [jsonKey "error" ++ jsonString message] ++ ascii "\n") extraHeaders

def sendMethodNotAllowed (allowedMethods : String) : Response :=
  sendError 405 (ascii "method not allowed") (ascii "Allow: " ++ ascii allowedMethods ++ crlf)

def sendRedirect (location : String) : Response :=
  ⟨302, ascii "text/plain; charset=utf-8", ascii "redirecting\n",
    ascii "Location: " ++ ascii location ++ crlf⟩

def noStore : Bytes := ascii "Cache-Control: no-store" ++ crlf

def authenticationRequired : Response := sendError 401 (ascii "authentication required")

def csrfRequired : Response := sendError 403 (ascii "CSRF token required")

def passwordIncorrect : Response := sendError 401 (ascii "current password is incorrect")

/-- `AuthStore::must_change` is always false. -/
def sessionJson (csrfToken : Bytes) : Bytes :=
  jsonObject [
    jsonKey "authenticated" ++ jsonBool true,
    jsonKey "username" ++ jsonString (ascii "admin"),
    jsonKey "must_change" ++ jsonBool false,
    jsonKey "csrf_token" ++ jsonString csrfToken] ++ ascii "\n"

def sessionCookieHeader (token : Bytes) (secure : Bool) : Bytes :=
  ascii "Set-Cookie: uhf_session=" ++ token ++
    ascii "; Max-Age=1800; Path=/; HttpOnly; SameSite=Strict" ++
    ascii (if secure then "; Secure" else "") ++ crlf

def expiredSessionCookieHeader (secure : Bool) : Bytes :=
  ascii "Set-Cookie: uhf_session=; Max-Age=0; Path=/; HttpOnly; SameSite=Strict" ++
    ascii (if secure then "; Secure" else "") ++ crlf

/-- `json_escape` of the web server. -/
def escapeJson (value : Bytes) : Bytes :=
  value.flatMap fun c =>
    if c = 0x22 ∨ c = 0x5C then [0x5C, c]
    else if c = 0x0A then [0x5C, 'n'.toUInt8]
    else if c = 0x0D then [0x5C, 'r'.toUInt8]
    else if c = 0x09 then [0x5C, 't'.toUInt8]
    else if c < 0x20 then ['?'.toUInt8]
    else [c]

/-! ### Checks -/

/-- The rest of a request, once its answer is all that is left to find. -/
abbrev Answering := Prog webCalls Response

/-- The server after a request, and what became of the connection. -/
abbrev Handler := Prog webCalls (HttpServer × Outcome)

def reply (s : HttpServer) (response : Response) : Handler := .done (s, .response response)

def keeping (s : HttpServer) (answering : Answering) : Handler := answering >>= reply s

def isGet (request : ParsedRequest) : Bool := request.method = ascii "GET"

def sameOrigin (s : HttpServer) (request : ParsedRequest) : Bool :=
  let origin := request.headerValue "origin"
  let host := request.headerValue "host"
  origin ≠ [] && host ≠ [] &&
    origin = ascii (if s.tlsEnabled then "https://" else "http://") ++ host

/-- `constant_time_equal`. -/
def constantTimeEqual (left right : Bytes) : Bool := left = right

def csrfMatches (request : ParsedRequest) (session : Session) : Bool :=
  constantTimeEqual (request.headerValue "x-csrf-token") session.csrfToken

/-- The check that precedes whatever needs a session. -/
def withSession (s : HttpServer) (now : Nanoseconds) (request : ParsedRequest) (denied : Response)
    (granted : Bytes → Session → Handler) : Handler :=
  let token := sessionCookie request
  match s.sessions.table.lookup token with
  | none => reply s denied
  | some session =>
    if token = [] ∨ session.expiresAt ≤ now then
      reply { s with sessions := s.sessions.erase token } denied
    else granted token session

/-- The check, and the new lifetime of the session. -/
def withLogin (s : HttpServer) (now : Nanoseconds) (request : ParsedRequest)
    (answering : Session → Answering) : Handler :=
  withSession s now request authenticationRequired fun token session =>
    keeping { s with sessions := s.sessions.refresh token now } (answering session)

/-- The current password is asked for together with the other members that the route needs
of its body. -/
def withPassword {α β : Type} (request : ParsedRequest) (members : Option α)
    (denied : Prog webCalls β) (granted : α → Prog webCalls β) : Prog webCalls β :=
  match members, jsonStringField request.body "current_password" kMaxPasswordJsonBytes with
  | some members, some currentPassword =>
    .call (.verifyPassword (ascii "admin") currentPassword) fun (verified : Bool) =>
      if verified then granted members else denied
  | _, _ => denied

end Uhf.Web

/-
The routes of the web server (`HttpServer::handle_client`).

One definition a route, in the order of the source.

* `handleClient` — the answer to the pieces received on a connection.
-/
import UhfGateway.Web.HttpServer

namespace Uhf.Web

open Acquisition Health Network Effects Containers

/-! ### What anyone may see -/

/-- The connection is handed to a thread of its own, if there are not too many. -/
def openWebsocket (s : HttpServer) (key : Bytes) : Handler :=
  .call .acquireWebsocket fun (acquired : Bool) =>
    if !acquired then
      reply s (sendError 503 (ascii "websocket connection limit reached")
        (ascii "Retry-After: 1" ++ crlf))
    else
      .call (.sendHandshake key) fun (sent : Bool) =>
        if !sent then .call .releaseWebsocket fun _ => .done (s, .dropped)
        else
          .call .startWebsocket fun (started : Bool) =>
            if started then .done (s, .handedOff)
            else .call .releaseWebsocket fun _ => .done (s, .handedOff)

def telemetryRoute (s : HttpServer) (request : ParsedRequest) : Handler :=
  let key := request.headerValue "sec-websocket-key"
  if !isGet request || !headerHasToken (request.headerValue "connection") (ascii "upgrade") ||
      lowerAscii (request.headerValue "upgrade") ≠ ascii "websocket" then
    reply s (sendError 400 (ascii "websocket upgrade required"))
  else if !sameOrigin s request then
    reply s (sendError 403 (ascii "same-origin request required"))
  else if request.headerValue "sec-websocket-version" ≠ ascii "13" then
    reply s (sendError 400 (ascii "unsupported websocket version"))
  else if !validWebsocketKey key then reply s (sendError 400 (ascii "invalid websocket key"))
  else openWebsocket s key

def healthz (s : HttpServer) (now : Nanoseconds) (request : ParsedRequest) : Answering :=
  if !isGet request then .done (sendMethodNotAllowed "GET")
  else
    .call (.healthReport now) fun (report : Report) =>
      .done (sendJson 200 (jsonObject [
        jsonKey "status" ++ jsonString (stateName report.overall),
        jsonKey "version" ++ jsonString s.version,
        jsonKey "web_auth" ++ jsonString (ascii "ready"),
        jsonKey "components" ++ jsonObject [
          jsonKey "acquisition" ++ jsonString (stateName report.acquisition),
          jsonKey "storage" ++ jsonString (stateName report.storage),
          jsonKey "modbus_tcp" ++ jsonString (stateName report.modbusTcp),
          jsonKey "modbus_rtu" ++ jsonString (stateName report.modbusRtu),
          jsonKey "iec61850" ++ jsonString (stateName report.iec61850)]] ++ ascii "\n"))

def overview (request : ParsedRequest) : Answering :=
  if !isGet request then .done (sendMethodNotAllowed "GET")
  else .call .overviewJson fun (body : Bytes) => .done (sendJson 200 body noStore)

def health (now : Nanoseconds) (request : ParsedRequest) : Answering :=
  if !isGet request then .done (sendMethodNotAllowed "GET")
  else .call (.healthReport now) fun (report : Report) => .done (sendJson 200 report.toJson)

def latestSnapshot (request : ParsedRequest) : Answering :=
  if !isGet request then .done (sendMethodNotAllowed "GET")
  else
    .call .snapshotJson fun (body : Option Bytes) =>
      .done (match body with
        | none => sendError 503 (ascii "no snapshot available")
        | some body =>
          if kMaxBodyBytes < body.length then sendError 500 (ascii "snapshot response too large")
          else sendJson 200 body)

/-! ### The IEC 61850 model -/

def iec61850Status (now : Nanoseconds) : Answering :=
  .call (.iec61850Json now) fun (body : Bytes) =>
    .done (if kMaxBodyBytes < body.length then
        sendError 500 (ascii "IEC 61850 status response too large")
      else sendJson 200 body noStore)

def icdFile (contents : Option Bytes) : Response :=
  match contents with
  | none => sendError 404 (ascii "ICD file is not available")
  | some contents =>
    ⟨200, ascii "application/xml; charset=utf-8", contents,
      ascii "Content-Disposition: attachment; filename=\"UHFPD1.icd\"" ++ crlf ++ noStore⟩

/-- The ICD file as it was before an upload or a restore. -/
def undoIcd (beforeStatus : IcdStatus) (beforeCurrent : Option Bytes) (answering : Answering) :
    Answering :=
  match beforeStatus.overrideActive, beforeCurrent with
  | true, some contents => .call (.icdReplace contents) fun _ => answering
  | _, _ => .call .icdDiscardOverride fun _ => answering

/-- The rest of an upload or a restore: the name of the IED is saved and the model is
loaded, and what fails is undone. -/
def applyIcd (s : HttpServer) (beforeStatus : IcdStatus) (beforeCurrent : Option Bytes)
    (beforeConfigured : Option ConfigSnapshot) (unsaved : Bytes) (done : String) : Answering :=
  let reload : Answering :=
    if s.hasReloadHandler then
      .call .reloadIec61850 fun (reloaded : Bool) =>
        if reloaded then
          .done (sendJson 200 (jsonObject [jsonKey done ++ jsonBool true,
            jsonKey "runtime_reloaded" ++ jsonBool true] ++ ascii "\n") noStore)
        else
          let rejected : Answering :=
            .done (sendError 409 (ascii "ICD model rejected; previous model retained"))
          undoIcd beforeStatus beforeCurrent <|
            match beforeConfigured with
            | none => rejected
            | some before => .call (.setIecIedName before.values.iecIedName) fun _ => rejected
    else
      .done (sendJson 200 (jsonObject [jsonKey done ++ jsonBool true,
        jsonKey "runtime_reloaded" ++ jsonBool false] ++ ascii "\n") noStore)
  .call .icdStatus fun (status : IcdStatus) =>
    if s.hasConfigStore then
      .call (.setIecIedName status.iedName) fun (saved : Bool) =>
        if saved then reload
        else undoIcd beforeStatus beforeCurrent (.done (sendError 500 unsaved))
    else reload

/-- What an upload or a restore remembers first. -/
def rememberIcd (s : HttpServer)
    (answering : IcdStatus → Option Bytes → Option ConfigSnapshot → Answering) : Answering :=
  .call .icdStatus fun (status : IcdStatus) =>
    .call .icdReadCurrent fun (current : Option Bytes) =>
      if s.hasConfigStore then
        .call .configSnapshot fun (configured : ConfigSnapshot) =>
          answering status current (some configured)
      else answering status current none

def restoreIcd (s : HttpServer) : Answering :=
  rememberIcd s fun beforeStatus beforeCurrent beforeConfigured =>
    .call .icdRestore fun (result : IcdRestoreResult) =>
      match result with
      | .noOverride => .done (sendError 409 (ascii "no uploaded ICD override"))
      | .storageError => .done (sendError 500 (ascii "unable to restore ICD file"))
      | .restored =>
        applyIcd s beforeStatus beforeCurrent beforeConfigured
          (ascii "unable to save restored IED name") "restored"

def uploadIcd (s : HttpServer) (request : ParsedRequest) : Answering :=
  match jsonStringField request.body "content" kMaxIcdBytes with
  | none => .done (sendError 400 (ascii "invalid ICD upload request"))
  | some contents =>
    rememberIcd s fun beforeStatus beforeCurrent beforeConfigured =>
      .call (.icdReplace contents) fun (result : IcdReplaceResult) =>
        match result with
        | .invalid => .done (sendError 400 (ascii "invalid ICD XML or model"))
        | .storageError => .done (sendError 500 (ascii "unable to save ICD file"))
        | .replaced =>
          applyIcd s beforeStatus beforeCurrent beforeConfigured
            (ascii "unable to save uploaded IED name") "updated"

def icdRoute (s : HttpServer) (request : ParsedRequest) (path : Bytes) (session : Session) :
    Answering :=
  let restoreRequest : Bool := path = ascii "/api/v1/iec61850/icd/restore"
  if path = ascii "/api/v1/iec61850/icd" ∧ isGet request then
    .call .iec61850IcdJson fun (body : Bytes) => .done (sendJson 200 body noStore)
  else if path = ascii "/api/v1/iec61850/icd/download" then
    if !isGet request then .done (sendMethodNotAllowed "GET")
    else .call .icdReadCurrent fun (contents : Option Bytes) => .done (icdFile contents)
  else if path = ascii "/api/v1/iec61850/icd/previous/download" then
    if !isGet request then .done (sendMethodNotAllowed "GET")
    else .call .icdReadPrevious fun (contents : Option Bytes) => .done (icdFile contents)
  else if request.method ≠ ascii "PUT" ∧ request.method ≠ ascii "POST" then
    .done (sendMethodNotAllowed (if restoreRequest then "POST" else "PUT"))
  else if !csrfMatches request session then .done csrfRequired
  else if restoreRequest ∧ request.method ≠ ascii "POST" then .done (sendMethodNotAllowed "POST")
  else if !restoreRequest ∧ request.method ≠ ascii "PUT" then .done (sendMethodNotAllowed "PUT")
  else
    withPassword request (some ()) (.done passwordIncorrect) fun _ =>
      if restoreRequest then restoreIcd s else uploadIcd s request

/-! ### TLS -/

/-- Everybody has to log in again when the certificate changes. -/
def replaceTls (s : HttpServer) (request : ParsedRequest) : Handler :=
  let pair := do
    let certificatePem ← jsonStringField request.body "certificate_pem" 32768
    let privateKeyPem ← jsonStringField request.body "private_key_pem" 32768
    some (certificatePem, privateKeyPem)
  withPassword request pair (reply s passwordIncorrect) fun (certificatePem, privateKeyPem) =>
    .call (.tlsReplace certificatePem privateKeyPem) fun (result : TlsReplaceResult) =>
      match result with
      | .invalid => reply s (sendError 400 (ascii "invalid TLS certificate or private key"))
      | .storageError => reply s (sendError 500 (ascii "unable to save TLS credentials"))
      | .replaced =>
        reply { s with sessions := .clear }
          (sendJson 200 (jsonObject [jsonKey "updated" ++ jsonBool true,
            jsonKey "reauthenticate" ++ jsonBool true] ++ ascii "\n")
            (expiredSessionCookieHeader s.tlsEnabled ++ noStore))

def tlsRequest (s : HttpServer) (request : ParsedRequest) (session : Session) : Handler :=
  if isGet request then
    reply s (sendJson 200 (jsonObject [jsonKey "enabled" ++ jsonBool s.tlsEnabled,
      jsonKey "certificate_ready" ++ jsonBool s.tlsEnabled] ++ ascii "\n"))
  else if !csrfMatches request session then reply s csrfRequired
  else if !s.tlsEnabled then reply s (sendError 400 (ascii "TLS is disabled in recovery mode"))
  else replaceTls s request

def tlsRoute (s : HttpServer) (now : Nanoseconds) (request : ParsedRequest) : Handler :=
  if request.method ≠ ascii "GET" ∧ request.method ≠ ascii "PUT" then
    reply s (sendMethodNotAllowed "GET, PUT")
  else
    withSession s now request authenticationRequired fun token session =>
      tlsRequest { s with sessions := s.sessions.refresh token now } request session

/-! ### The privileged service -/

/-- The text of a reply, or the one used for a reply without. -/
def replyText (text : Bytes) (default : String) : Bytes := if text = [] then ascii default else text

def networkReply (result : Reply) : Response :=
  if result.ok then sendJson 200 (replyText result.body "\x7b\"result\":\"ok\"\x7d\n")
  else
    let status :=
      if result.code ∈ [ascii "busy", ascii "expired", ascii "boot_changed", ascii "no_transaction"]
      then 409
      else if result.code = ascii "unavailable" then 503
      else if result.code = ascii "invalid_candidate" then 400
      else 502
    sendError status (replyText result.code "network operation failed")

def stageNetwork (request : ParsedRequest) : Answering :=
  let invalid : Answering := .done (sendError 400 (ascii "invalid network candidate"))
  match jsonObjectField request.body "candidate" with
  | none => invalid
  | some candidateJson =>
    .call (.parseFlatJson candidateJson) fun (candidate : Option NetworkConfig) =>
      match candidate with
      | none => invalid
      | some candidate =>
        .call (.networkStage candidate) fun (result : Reply) => .done (networkReply result)

def networkRoute (s : HttpServer) (request : ParsedRequest) (path : Bytes) (session : Session) :
    Answering :=
  if !s.hasNetworkClient then
    .done (sendError 503 (ascii "privileged network service unavailable"))
  else if path = ascii "/api/v1/network" then
    if !isGet request then .done (sendMethodNotAllowed "GET")
    else
      .call .networkStatus fun (result : Reply) =>
        .done (if !result.ok ∨ kMaxBodyBytes < result.body.length then
            sendError 503 (ascii "network status unavailable")
          else sendJson 200 result.body noStore)
  else if request.method ≠ ascii "POST" then .done (sendMethodNotAllowed "POST")
  else if !csrfMatches request session then .done csrfRequired
  else
    withPassword request (some ()) (.done passwordIncorrect) fun _ =>
      if path = ascii "/api/v1/network/stage" then stageNetwork request
      else if path = ascii "/api/v1/network/confirm" then
        .call .networkConfirm fun (result : Reply) => .done (networkReply result)
      else .call .networkRollback fun (result : Reply) => .done (networkReply result)

/-- The answer to an operation that is only accepted. -/
def acceptedReply (result : Reply) (status : ℕ) (failed : String) : Response :=
  if !result.ok then sendError status (replyText result.code failed)
  else sendJson 202 (replyText result.body "\x7b\"accepted\":true\x7d\n") noStore

def maintenanceReply (result : Reply) : Response :=
  acceptedReply result (if result.code = ascii "unavailable" then 503 else 502)
    "maintenance operation failed"

def maintenanceRoute (s : HttpServer) (request : ParsedRequest) (path : Bytes) (session : Session) :
    Answering :=
  if request.method ≠ ascii "POST" then .done (sendMethodNotAllowed "POST")
  else if !csrfMatches request session then .done csrfRequired
  else
    withPassword request (some ()) (.done passwordIncorrect) fun _ =>
      if !s.hasNetworkClient then
        .done (sendError 503 (ascii "privileged maintenance service unavailable"))
      else if path = ascii "/api/v1/maintenance/reboot" then
        .call .maintenanceReboot fun (result : Reply) => .done (maintenanceReply result)
      else
        .call .maintenanceRestartService fun (result : Reply) => .done (maintenanceReply result)

/-! ### Records -/

def logs : Answering := .call (.logsJson 100) fun (body : Bytes) => .done (sendJson 200 body noStore)

def listed (body : Option Bytes) (unavailable : String) : Response :=
  match body with
  | none => sendError 503 (ascii unavailable)
  | some body => sendJson 200 body noStore

/-- The quotation mark behind the file name is missing in the source. -/
def exported (body : Option Bytes) (fileName : String) : Response :=
  match body with
  | none => sendError 404 (ascii "no export available")
  | some body =>
    if kMaxResponseBytes < body.length then sendError 500 (ascii "export response too large")
    else
      ⟨200, ascii "text/csv; charset=utf-8", body,
        ascii "Content-Disposition: attachment; filename=\"" ++ ascii fileName ++ crlf ++ noStore⟩

def recordsRoute (path : Bytes) : Answering :=
  if path = ascii "/api/v1/frames" then
    .call .framesJson fun (body : Option Bytes) => .done (listed body "frame storage unavailable")
  else if path = ascii "/api/v1/events" then
    .call .eventsJson fun (body : Option Bytes) => .done (listed body "event storage unavailable")
  else if path = ascii "/api/v1/events/export.csv" then
    .call .latestEventCsv fun (body : Option Bytes) => .done (exported body "latest-event.csv")
  else .call .latestFrameCsv fun (body : Option Bytes) => .done (exported body "latest-frame.csv")

/-! ### Time -/

def timeReply (result : Reply) : Response :=
  let status :=
    if result.code = ascii "invalid_time_request" then 400
    else if result.code = ascii "unavailable" then 503
    else 502
  acceptedReply result status "time operation failed"

def changeTime (s : HttpServer) (request : ParsedRequest) (configured : ConfigSnapshot)
    (action : Bytes) : Answering :=
  if !s.hasNetworkClient then .done (sendError 503 (ascii "privileged time service unavailable"))
  else if action = ascii "sync" then
    .call (.timeSync configured.values.sntpServer) fun (result : Reply) => .done (timeReply result)
  else if action = ascii "disable" then
    .call .timeDisable fun (result : Reply) => .done (timeReply result)
  else if action = ascii "set" then
    match jsonStringField request.body "local_time" 19 with
    | none => .done (sendError 400 (ascii "invalid time request"))
    | some localTime =>
      .call (.timeSet localTime) fun (result : Reply) => .done (timeReply result)
  else .done (sendError 400 (ascii "invalid time action"))

def timeRoute (s : HttpServer) (request : ParsedRequest) (session : Session) : Answering :=
  if !s.hasConfigStore then .done (sendError 404 (ascii "not found"))
  else
    .call .configSnapshot fun (configured : ConfigSnapshot) =>
      if isGet request then
        .call .systemTime fun (timestamp : Int) =>
          .done (sendJson 200 (jsonObject [
            jsonKey "time_sync_enabled" ++ jsonBool configured.values.timeSyncEnabled,
            jsonKey "sntp_server" ++ jsonString (escapeJson configured.values.sntpServer),
            jsonKey "timestamp_ms" ++ decimal timestamp] ++ ascii "\n") noStore)
      else if !csrfMatches request session then .done csrfRequired
      else
        withPassword request (jsonStringField request.body "action" 16) (.done passwordIncorrect)
          (changeTime s request configured)

/-! ### Configuration -/

def configSchema : Answering :=
  .call .configSchemaJson fun (body : Bytes) => .done (sendJson 200 body noStore)

def configurationRequiresRestart (previous current : ConfigValues) : Bool :=
  previous.acquisitionDevice ≠ current.acquisitionDevice ||
    previous.rtuDevice ≠ current.rtuDevice || previous.rtuUnitId ≠ current.rtuUnitId ||
    previous.iecEnabled ≠ current.iecEnabled || previous.ftpEnabled ≠ current.ftpEnabled ||
    previous.ftpPort ≠ current.ftpPort

def configRoute (s : HttpServer) (request : ParsedRequest) (session : Session) : Answering :=
  if !s.hasConfigStore then .done (sendError 404 (ascii "not found"))
  else if isGet request then .call .configJson fun (body : Bytes) => .done (sendJson 200 body)
  else if !csrfMatches request session then .done csrfRequired
  else
    match parseIfMatch (request.headerValue "if-match") with
    | none => .done (sendError 409 (ascii "configuration version required"))
    | some expectedVersion =>
      .call .configSnapshot fun (previous : ConfigSnapshot) =>
        .call (.configUpdate expectedVersion request.body) fun (result : UpdateResult) =>
          match result with
          | .conflict => .done (sendError 409 (ascii "configuration version conflict"))
          | .invalid => .done (sendError 400 (ascii "invalid configuration"))
          | .storageError => .done (sendError 500 (ascii "unable to save configuration"))
          | .updated =>
            .call .configSnapshot fun (current : ConfigSnapshot) =>
              .done (sendJson 200 (jsonObject [
                jsonKey "updated" ++ jsonBool true,
                jsonKey "version" ++ decimal current.version,
                jsonKey "restart_required" ++
                  jsonBool (configurationRequiresRestart previous.values current.values)] ++
                ascii "\n"))

/-! ### Login and logout -/

def randomHex {count : ℕ} (bytes : Vector UInt8 count) : Bytes :=
  bytes.toList.flatMap fun byte => [hexDigit (byte.toNat / 16), hexDigit (byte.toNat % 16)]

theorem randomHex_ne_nil {count : ℕ} (bytes : Vector UInt8 count) (h : 0 < count) :
    randomHex bytes ≠ [] := by
  rw [randomHex, Ne, List.flatMap_eq_nil_iff]
  intro hall
  have hlength := bytes.length_toList
  cases hbytes : bytes.toList with
  | nil =>
    rw [hbytes] at hlength
    exact absurd hlength (Nat.ne_of_lt h)
  | cons byte rest => exact absurd (hall byte (by simp [hbytes])) (List.cons_ne_nil _ _)

/-- The password is right: there is room for one more session. -/
def openSession (s : HttpServer) (now : Nanoseconds) (remoteAddress : Bytes) : Handler :=
  .call (.randomBytes 32) fun (tokenBytes : Option (Vector UInt8 32)) =>
    match tokenBytes with
    | none => .done (s, .dropped)
    | some tokenBytes =>
      .call (.randomBytes 32) fun (csrfBytes : Option (Vector UInt8 32)) =>
        match csrfBytes with
        | none => .done (s, .dropped)
        | some csrfBytes =>
          let sessionToken := randomHex tokenBytes
          let csrfToken := randomHex csrfBytes
          let session : Session := ⟨csrfToken, remoteAddress, now + kSessionLifetime⟩
          let sessions := s.sessions.emplace sessionToken session
            ⟨randomHex_ne_nil tokenBytes (by decide), randomHex_ne_nil csrfBytes (by decide)⟩
          reply { s with sessions := sessions }
            (sendJson 200 (sessionJson csrfToken)
              (sessionCookieHeader sessionToken s.tlsEnabled ++ noStore))

def acceptLogin (s : HttpServer) (now : Nanoseconds) (remoteAddress : Bytes) : Handler :=
  let s : HttpServer := { s with loginFailures := s.loginFailures.erase remoteAddress }
  if kMaxSessions ≤ s.sessions.table.size then
    .call (WebCall.first s.sessions.table.keys)
      fun (evicted : {key // key ∈ s.sessions.table.keys}) =>
        openSession { s with sessions := s.sessions.erase evicted } now remoteAddress
  else openSession s now remoteAddress

/-- The table with one more failure of an address. -/
def recordFailure (loginFailures : Table Bytes LoginFailures) (now : Nanoseconds)
    (remoteAddress : Bytes) : Table Bytes LoginFailures :=
  loginFailures.insert remoteAddress (((loginFailures.lookup remoteAddress).getD {}).fail now)

def loginRejected : Response := sendError 401 (ascii "invalid username or password")

def rejectLogin (s : HttpServer) (now : Nanoseconds) (remoteAddress : Bytes) : Handler :=
  if remoteAddress ∉ s.loginFailures ∧ kMaxLoginFailureRecords ≤ s.loginFailures.size then
    .call (WebCall.first s.loginFailures.keys) fun (evicted : {key // key ∈ s.loginFailures.keys}) =>
      let loginFailures := recordFailure (s.loginFailures.erase evicted) now remoteAddress
      reply { s with loginFailures := loginFailures } loginRejected
  else
    let loginFailures := recordFailure s.loginFailures now remoteAddress
    reply { s with loginFailures := loginFailures } loginRejected

def blocked (s : HttpServer) (now : Nanoseconds) (remoteAddress : Bytes) : Bool :=
  (s.loginFailures.lookup remoteAddress).any fun failures => now < failures.blockedUntil

def login (s : HttpServer) (now : Nanoseconds) (remoteAddress : Bytes) (request : ParsedRequest) :
    Handler :=
  if !sameOrigin s request then
    reply s (sendError 403 (ascii "same-origin request required"))
  else if blocked s now remoteAddress then
    reply s (sendError 429 (ascii "too many login attempts")
      (ascii "Retry-After: 30" ++ crlf ++ noStore))
  else
    match jsonStringField request.body "username" kMaxPasswordJsonBytes,
      jsonStringField request.body "password" kMaxPasswordJsonBytes with
    | some username, some password =>
      .call (.verifyPassword username password) fun (verified : Bool) =>
        if verified then acceptLogin s now remoteAddress else rejectLogin s now remoteAddress
    | _, _ => reply s (sendError 400 (ascii "invalid login request"))

def currentSession (session : Session) : Answering := .done (sendJson 200 (sessionJson session.csrfToken))

def logout (s : HttpServer) (now : Nanoseconds) (request : ParsedRequest) : Handler :=
  withSession s now request authenticationRequired fun token session =>
    if !csrfMatches request session then reply s csrfRequired
    else
      reply { s with sessions := s.sessions.erase token }
        ⟨204, ascii "application/json; charset=utf-8", [], expiredSessionCookieHeader s.tlsEnabled⟩

/-- `AuthStore::change_password`, `none` if it throws. -/
def changePassword (current new : Bytes) : Prog webCalls (Option PasswordChangeResult) :=
  if new.length < 12 ∨ kMaxPasswordBytes < new.length ∨ kMaxPasswordBytes < current.length ∨
      new = current then .done (some .invalidNewPassword)
  else
    .call (.verifyPassword (ascii "admin") current) fun (verified : Bool) =>
      if !verified then .done (some .invalidCurrentPassword)
      else
        .call (.randomBytes kSaltBytes) fun (salt : Option (Vector UInt8 kSaltBytes)) =>
          match salt with
          | none => .done none
          | some salt =>
            .call (.storePassword salt.toList new) fun (stored : Bool) =>
              .done (some (if stored then .changed else .storageError))

/-- What follows from a change of the password. -/
def passwordReply (s : HttpServer) : Option PasswordChangeResult → Handler
  | none => .done (s, .dropped)
  | some .invalidCurrentPassword => reply s passwordIncorrect
  | some .invalidNewPassword => reply s (sendError 400 (ascii "new password does not meet policy"))
  | some .storageError => reply s (sendError 500 (ascii "unable to save password"))
  | some .changed =>
    reply { s with sessions := .clear }
      (sendJson 200 (jsonObject [jsonKey "changed" ++ jsonBool true,
        jsonKey "reauthenticate" ++ jsonBool true] ++ ascii "\n")
        (expiredSessionCookieHeader s.tlsEnabled ++ noStore))

def password (s : HttpServer) (now : Nanoseconds) (request : ParsedRequest) : Handler :=
  withSession s now request authenticationRequired fun _ session =>
    if !csrfMatches request session then reply s csrfRequired
    else
      match jsonStringField request.body "current_password" kMaxPasswordJsonBytes,
        jsonStringField request.body "new_password" kMaxPasswordJsonBytes with
      | some currentPassword, some newPassword =>
        changePassword currentPassword newPassword >>= passwordReply s
      | _, _ => reply s (sendError 400 (ascii "invalid password request"))

def revokeOthers (s : HttpServer) (now : Nanoseconds) (request : ParsedRequest) : Handler :=
  withSession s now request authenticationRequired fun token session =>
    if !csrfMatches request session then reply s csrfRequired
    else
      reply { s with sessions := s.sessions.retainOnly token }
        (sendJson 200 (jsonObject [jsonKey "revoked" ++ jsonBool true] ++ ascii "\n"))

def sessionRoute (s : HttpServer) (now : Nanoseconds) (remoteAddress : Bytes)
    (request : ParsedRequest) : Handler :=
  if request.method = ascii "POST" then login s now remoteAddress request
  else if isGet request then withLogin s now request currentSession
  else if request.method = ascii "DELETE" then logout s now request
  else reply s (sendMethodNotAllowed "GET, POST, DELETE")

/-! ### Pages -/

/-- `operator/` of paths. -/
def appendPath (directory path : Bytes) : Bytes :=
  if path.head? = some '/'.toUInt8 then path
  else if directory = [] ∨ directory.getLast? = some '/'.toUInt8 then directory ++ path
  else directory ++ ascii "/" ++ path

/-- The file below the document root that a path names. -/
def resolveFile (documentRoot requestPath : Bytes) : Prog webCalls (Option Bytes) :=
  .call (.weaklyCanonical documentRoot) fun (root : Option Bytes) =>
    match root with
    | none => .done none
    | some root =>
      .call (.weaklyCanonical (appendPath root (requestPath.drop 1))) fun (file : Option Bytes) =>
        match file with
        | none => .done none
        | some file =>
          if file ≠ root ∧ ¬ (root ++ ascii "/").isPrefixOf file then .done none
          else
            .call (.isRegularFile file) fun (regular : Bool) =>
              if !regular then .done none
              else
                .call (.fileSize file) fun (size : Option ℕ) =>
                  .done (if size.any (· ≤ kMaxResponseBytes) then some file else none)

/-- The name of a file from its last dot on, unless that begins the name. -/
def extension (file : Bytes) : Bytes :=
  let name := (file.splitOn '/'.toUInt8).getLastD []
  let rest := (name.reverse.dropWhile (· ≠ '.'.toUInt8)).reverse
  if rest.length ≤ 1 then [] else name.drop (rest.length - 1)

def contentType (file : Bytes) : Bytes :=
  let extension := extension file
  if extension = ascii ".html" then ascii "text/html; charset=utf-8"
  else if extension = ascii ".css" then ascii "text/css; charset=utf-8"
  else if extension = ascii ".js" then ascii "text/javascript; charset=utf-8"
  else if extension = ascii ".json" then ascii "application/json; charset=utf-8"
  else ascii "application/octet-stream"

def staticFile (s : HttpServer) (request : ParsedRequest) (path : Bytes) : Answering :=
  if !isGet request then .done (sendMethodNotAllowed "GET")
  else
    resolveFile s.documentRoot path >>= fun file =>
      match file with
      | none => .done ⟨404, ascii "text/plain; charset=utf-8", ascii "not found\n", []⟩
      | some file =>
        .call (.openFile file) fun (opened : Bool) =>
          if !opened then .done (sendError 500 (ascii "internal server error"))
          else
            .call (.readFile file) fun (contents : Option Bytes) =>
              .done (match contents with
                | none => sendError 500 (ascii "internal server error")
                | some contents => ⟨200, contentType file, contents, []⟩)

/-- The pages that need a session. -/
def protectedPages : List Bytes :=
  [ascii "/index.html", ascii "/settings.html", ascii "/logs.html", ascii "/storage.html",
    ascii "/network.html", ascii "/iec61850.html", ascii "/maintenance.html"]

def pageRoute (s : HttpServer) (now : Nanoseconds) (request : ParsedRequest) (path : Bytes) :
    Handler :=
  if path = ascii "/login" ∨ path = ascii "/login.html" then
    keeping s (staticFile s request (ascii "/login.html"))
  else if path = ascii "/overview" ∨ path = ascii "/overview.html" then
    keeping s (staticFile s request (ascii "/overview.html"))
  else if path ∈ protectedPages then
    if !isGet request then reply s (sendMethodNotAllowed "GET")
    else
      withSession s now request (sendRedirect "/login") fun token _ =>
        keeping { s with sessions := s.sessions.refresh token now } (staticFile s request path)
  else keeping s (staticFile s request path)

/-! ### Requests -/

def getOnly (s : HttpServer) (request : ParsedRequest) (handler : Handler) : Handler :=
  if !isGet request then reply s (sendMethodNotAllowed "GET") else handler

def icdPaths : List Bytes :=
  [ascii "/api/v1/iec61850/icd", ascii "/api/v1/iec61850/icd/download",
    ascii "/api/v1/iec61850/icd/previous/download", ascii "/api/v1/iec61850/icd/restore"]

def networkPaths : List Bytes :=
  [ascii "/api/v1/network", ascii "/api/v1/network/stage", ascii "/api/v1/network/confirm",
    ascii "/api/v1/network/rollback"]

def maintenancePaths : List Bytes :=
  [ascii "/api/v1/maintenance/restart-service", ascii "/api/v1/maintenance/reboot"]

def recordPaths : List Bytes :=
  [ascii "/api/v1/frames", ascii "/api/v1/events", ascii "/api/v1/frames/export.csv",
    ascii "/api/v1/events/export.csv"]

/-- The routes below `/api/` and the two beside it. -/
def route (s : HttpServer) (now : Nanoseconds) (remoteAddress : Bytes) (request : ParsedRequest)
    (path : Bytes) : Handler :=
  if path = ascii "/ws/v1/telemetry" then telemetryRoute s request
  else if path = ascii "/healthz" then keeping s (healthz s now request)
  else if path = ascii "/api/v1/overview" then keeping s (overview request)
  else if path = ascii "/api/v1/health" then keeping s (health now request)
  else if path = ascii "/api/v1/snapshot/latest" then keeping s (latestSnapshot request)
  else if path = ascii "/api/v1/iec61850" then
    getOnly s request (withLogin s now request fun _ => iec61850Status now)
  else if path ∈ icdPaths then withLogin s now request (icdRoute s request path)
  else if path = ascii "/api/v1/tls" then tlsRoute s now request
  else if path ∈ networkPaths then withLogin s now request (networkRoute s request path)
  else if path ∈ maintenancePaths then withLogin s now request (maintenanceRoute s request path)
  else if path = ascii "/api/v1/logs" then getOnly s request (withLogin s now request fun _ => logs)
  else if path ∈ recordPaths then
    getOnly s request (withLogin s now request fun _ => recordsRoute path)
  else if path = ascii "/api/v1/time" then
    if request.method ≠ ascii "GET" ∧ request.method ≠ ascii "POST" then
      reply s (sendMethodNotAllowed "GET, POST")
    else withLogin s now request (timeRoute s request)
  else if path = ascii "/api/v1/config/schema" then
    getOnly s request (withLogin s now request fun _ => configSchema)
  else if path = ascii "/api/v1/config" then
    if request.method ≠ ascii "GET" ∧ request.method ≠ ascii "PUT" then
      reply s (sendMethodNotAllowed "GET, PUT")
    else withLogin s now request (configRoute s request)
  else if path = ascii "/api/v1/session" then sessionRoute s now remoteAddress request
  else if path = ascii "/api/v1/password" then
    if request.method = ascii "PUT" then password s now request
    else reply s (sendMethodNotAllowed "PUT")
  else if path = ascii "/api/v1/session/revoke-others" then
    if request.method = ascii "POST" then revokeOthers s now request
    else reply s (sendMethodNotAllowed "POST")
  else if (ascii "/api/").isPrefixOf path then reply s (sendError 404 (ascii "not found"))
  else pageRoute s now request path

/-- A request as far as it is read before the server is locked. -/
def readClient (received : List Bytes) : Except Response (ParsedRequest × Bytes) :=
  match readRequest received >>= parseRequest with
  | none => .error (sendError 400 (ascii "bad request"))
  | some request =>
    if request.version ≠ ascii "HTTP/1.0" ∧ request.version ≠ ascii "HTTP/1.1" then
      .error (sendError 400 (ascii "bad request"))
    else
      match decodePath request.target with
      | none => .error (sendError 400 (ascii "bad path"))
      | some path => .ok (request, path)

def handleClient (s : HttpServer) (now : Nanoseconds) (remoteAddress : Bytes)
    (received : List Bytes) : Handler :=
  match readClient received with
  | .error response => reply s response
  | .ok (request, path) =>
    route { s with sessions := s.sessions.cleanup now } now remoteAddress request path

end Uhf.Web

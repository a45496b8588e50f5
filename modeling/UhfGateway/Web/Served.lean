/-
What a request can do (`HttpServer::handle_client`).

`Served` lists the ways in which a request that has been read can be answered: what was
called, what the server remembers afterwards, and which checks have come before.  All
statements about sessions and logins are derived from it.

* `route_served` — every answer is one of them;
* `login_served` — and so for logins.
-/
import UhfGateway.Web.Routes

namespace Uhf.Web

open Acquisition Health Network Effects Containers

/-! ### What changes the gateway -/

/-- The calls that change the gateway or its configuration. -/
def Mutates : WebCall → Prop
  | .storePassword .. | .configUpdate .. | .setIecIedName _ | .icdReplace _ | .icdRestore
  | .icdDiscardOverride | .reloadIec61850 | .tlsReplace .. | .networkStage _ | .networkConfirm
  | .networkRollback | .maintenanceReboot | .maintenanceRestartService | .timeSync _
  | .timeDisable | .timeSet _ => True
  | _ => False

/-- All of them but the update of the configuration ask for the password again. -/
def NeedsPassword : WebCall → Prop
  | .configUpdate .. => False
  | call => Mutates call

theorem NeedsPassword.mutates {call : WebCall} (h : NeedsPassword call) : Mutates call := by
  cases call <;> first | exact h | exact h.elim

/-- The password in the body has been verified. -/
def Reauthenticates (request : ParsedRequest) (act : Act webCalls) : Prop :=
  ∃ currentPassword,
    jsonStringField request.body "current_password" kMaxPasswordJsonBytes = some currentPassword ∧
      act = ⟨.verifyPassword (ascii "admin") currentPassword, (true : Bool)⟩

/-- The request names a session that has not expired. -/
structure Granted (s : HttpServer) (now : Nanoseconds) (request : ParsedRequest) (token : Bytes)
    (session : Session) : Prop where
  cookie : sessionCookie request = token
  found : s.sessions.table.lookup token = some session
  live : now < session.expiresAt

def Harmless {α : Type} (p : Prog webCalls α) : Prop := p.Only fun call => ¬ Mutates call

/-- A program that changes nothing without the CSRF token of the session, and nothing that
needs the password before that has been verified. -/
structure Gated {α : Type} (request : ParsedRequest) (session : Session) (p : Prog webCalls α) :
    Prop where
  csrf : p.Only fun call => Mutates call → csrfMatches request session = true
  password : p.Guarded (Reauthenticates request) NeedsPassword

/-- The same of what has been done. -/
structure GatedTrace (request : ParsedRequest) (session : Session) (trace : Trace webCalls) :
    Prop where
  csrf : ∀ act ∈ trace, Mutates act.op → csrfMatches request session = true
  password : ∀ before act after, trace = before ++ act :: after → NeedsPassword act.op →
    ∃ granted ∈ before, Reauthenticates request granted

section Gates

variable {α β : Type} {request : ParsedRequest} {session : Session} {p : Prog webCalls α}

theorem Gated.trace (h : Gated request session p) {trace : Trace webCalls} {r : α}
    (exec : p.Exec trace r) : GatedTrace request session trace where
  csrf := h.csrf.trace exec
  password _ _ _ htrace hneeds := h.password.trace exec htrace hneeds

theorem Harmless.gated (h : Harmless p) : Gated request session p where
  csrf := h.mono fun _ hharmless hmutates => absurd hmutates hharmless
  password := (h.mono fun _ hharmless hneeds => hharmless (NeedsPassword.mutates hneeds)).guarded

theorem gated_done (a : α) : Gated request session (.done a : Prog webCalls α) :=
  ⟨trivial, trivial⟩

theorem gated_bind {f : α → Prog webCalls β} (hp : Gated request session p)
    (hf : ∀ a, Gated request session (f a)) : Gated request session (p >>= f) where
  csrf := Prog.only_bind hp.csrf fun a => (hf a).csrf
  password := Prog.guarded_bind hp.password fun a => (hf a).password

theorem gated_call {call : WebCall} {k : webCalls.Answer call → Prog webCalls α}
    (hcall : ¬ Mutates call) (hk : ∀ answer, Gated request session (k answer)) :
    Gated request session (.call call k) where
  csrf := ⟨fun hmutates => absurd hmutates hcall, fun answer => (hk answer).csrf⟩
  password := ⟨fun hneeds => hcall (NeedsPassword.mutates hneeds),
    fun answer => .inr (hk answer).password⟩

theorem gated_ite {c : Prop} [Decidable c] {q : Prog webCalls α}
    (hp : c → Gated request session p) (hq : ¬ c → Gated request session q) :
    Gated request session (if c then p else q) := by
  split_ifs with hc
  · exact hp hc
  · exact hq hc

/-- Nothing goes on without the CSRF token. -/
theorem gated_csrf {denied : α}
    (hp : csrfMatches request session = true → Gated request session p) :
    Gated request session (if !csrfMatches request session then .done denied else p) :=
  gated_ite (fun _ => gated_done denied) fun hcsrf => hp (by simpa using hcsrf)

theorem only_of_csrf (hcsrf : csrfMatches request session = true) (p : Prog webCalls α) :
    p.Only fun call => Mutates call → csrfMatches request session = true := by
  induction p with
  | done a => trivial
  | call o k ih => exact ⟨fun _ => hcsrf, ih⟩

/-- Behind the CSRF token and the password everything is allowed. -/
theorem gated_withPassword (hcsrf : csrfMatches request session = true) {members : Option α}
    {denied : β} (granted : α → Prog webCalls β) :
    Gated request session (withPassword request members (.done denied) granted) := by
  refine ⟨only_of_csrf hcsrf _, ?_⟩
  unfold withPassword
  split
  · next _ currentPassword hpassword =>
    refine ⟨id, fun verified => ?_⟩
    cases verified with
    | false => exact .inr trivial
    | true => exact .inl ⟨currentPassword, hpassword, rfl⟩
  · trivial

end Gates

/-! ### The routes -/

section Routes

variable {s : HttpServer} {now : Nanoseconds} {request : ParsedRequest} {path : Bytes}
  {session : Session}

theorem healthz_only {P : WebCall → Prop} (hcall : P (.healthReport now)) :
    (healthz s now request).Only P :=
  Prog.only_ite (fun _ => trivial) fun _ => ⟨hcall, fun _ => trivial⟩

theorem overview_only {P : WebCall → Prop} (hcall : P .overviewJson) : (overview request).Only P :=
  Prog.only_ite (fun _ => trivial) fun _ => ⟨hcall, fun _ => trivial⟩

theorem health_only {P : WebCall → Prop} (hcall : P (.healthReport now)) :
    (health now request).Only P :=
  Prog.only_ite (fun _ => trivial) fun _ => ⟨hcall, fun _ => trivial⟩

theorem latestSnapshot_only {P : WebCall → Prop} (hcall : P .snapshotJson) :
    (latestSnapshot request).Only P :=
  Prog.only_ite (fun _ => trivial) fun _ => ⟨hcall, fun _ => trivial⟩

theorem iec61850Status_harmless : Harmless (iec61850Status now) := ⟨id, fun _ => trivial⟩

theorem logs_harmless : Harmless logs := ⟨id, fun _ => trivial⟩

theorem configSchema_harmless : Harmless configSchema := ⟨id, fun _ => trivial⟩

theorem recordsRoute_harmless : Harmless (recordsRoute path) := by
  rw [recordsRoute]
  split_ifs <;> exact ⟨id, fun _ => trivial⟩

theorem resolveFile_harmless (documentRoot : Bytes) : Harmless (resolveFile documentRoot path) := by
  refine ⟨id, fun root => ?_⟩
  cases root with
  | none => trivial
  | some root =>
    refine ⟨id, fun file => ?_⟩
    cases file with
    | none => trivial
    | some file =>
      simp only
      split_ifs
      · trivial
      · refine ⟨id, fun regular => ?_⟩
        cases regular with
        | false => trivial
        | true => exact ⟨id, fun _ => trivial⟩

theorem staticFile_harmless : Harmless (staticFile s request path) := by
  rw [staticFile]
  split_ifs
  · trivial
  · refine Prog.only_bind (resolveFile_harmless s.documentRoot) fun file => ?_
    cases file with
    | none => trivial
    | some file =>
      refine ⟨id, fun opened => ?_⟩
      cases opened with
      | false => trivial
      | true => exact ⟨id, fun _ => trivial⟩

theorem icdRoute_gated : Gated request session (icdRoute s request path session) := by
  refine gated_ite (fun _ => gated_call id fun _ => gated_done _) fun _ => ?_
  refine gated_ite (fun _ => ?_) fun _ => ?_
  · exact gated_ite (fun _ => gated_done _) fun _ => gated_call id fun _ => gated_done _
  refine gated_ite (fun _ => ?_) fun _ => ?_
  · exact gated_ite (fun _ => gated_done _) fun _ => gated_call id fun _ => gated_done _
  refine gated_ite (fun _ => gated_done _) fun _ => gated_csrf fun hcsrf => ?_
  refine gated_ite (fun _ => gated_done _) fun _ => gated_ite (fun _ => gated_done _) fun _ => ?_
  exact gated_withPassword hcsrf _

theorem networkRoute_gated : Gated request session (networkRoute s request path session) := by
  refine gated_ite (fun _ => gated_done _) fun _ => ?_
  refine gated_ite (fun _ => ?_) fun _ => ?_
  · exact gated_ite (fun _ => gated_done _) fun _ => gated_call id fun _ => gated_done _
  refine gated_ite (fun _ => gated_done _) fun _ => gated_csrf fun hcsrf => ?_
  exact gated_withPassword hcsrf _

theorem maintenanceRoute_gated :
    Gated request session (maintenanceRoute s request path session) :=
  gated_ite (fun _ => gated_done _) fun _ => gated_csrf fun hcsrf => gated_withPassword hcsrf _

theorem timeRoute_gated : Gated request session (timeRoute s request session) := by
  refine gated_ite (fun _ => gated_done _) fun _ => gated_call id fun configured => ?_
  refine gated_ite (fun _ => gated_call id fun _ => gated_done _) fun _ => ?_
  exact gated_csrf fun hcsrf => gated_withPassword hcsrf _

theorem configRoute_gated : Gated request session (configRoute s request session) := by
  refine gated_ite (fun _ => gated_done _) fun _ => ?_
  refine gated_ite (fun _ => gated_call id fun _ => gated_done _) fun _ => gated_csrf fun hcsrf => ?_
  refine ⟨only_of_csrf hcsrf _, ?_⟩
  -- the update does not ask for the password
  cases parseIfMatch (request.headerValue "if-match") with
  | none => trivial
  | some expectedVersion =>
    refine ⟨id, fun previous => .inr ⟨id, fun result => .inr ?_⟩⟩
    cases result with
    | updated => exact ⟨id, fun _ => .inr trivial⟩
    | invalid => trivial
    | conflict => trivial
    | storageError => trivial

end Routes

/-! ### Every answer -/

/-- The requests that give their session a new lifetime. -/
inductive Refreshes (request : ParsedRequest) (path : Bytes) : Prop
  | icd (isPath : path ∈ icdPaths)
  | network (isPath : path ∈ networkPaths)
  | maintenance (isPath : path ∈ maintenancePaths)
  | records (isPath : path ∈ recordPaths) (isMethod : request.method = ascii "GET")
  | pages (isPath : path ∈ protectedPages) (isMethod : request.method = ascii "GET")
  | status (isPath : path ∈ [ascii "/api/v1/iec61850", ascii "/api/v1/logs",
      ascii "/api/v1/config/schema", ascii "/api/v1/session"])
      (isMethod : request.method = ascii "GET")
  | tls (isPath : path = ascii "/api/v1/tls")
      (isMethod : request.method = ascii "GET" ∨ request.method = ascii "PUT")
  | time (isPath : path = ascii "/api/v1/time")
      (isMethod : request.method = ascii "GET" ∨ request.method = ascii "POST")
  | config (isPath : path = ascii "/api/v1/config")
      (isMethod : request.method = ascii "GET" ∨ request.method = ascii "PUT")

/-- The ways to answer a request that has been read; `s` is the server after the clean-up.
`used` stands for all routes that only ask for a session. -/
inductive Served (s : HttpServer) (now : Nanoseconds) (remoteAddress : Bytes)
    (request : ParsedRequest) (path : Bytes) : Trace webCalls → HttpServer → Outcome → Prop
  | shown {trace : Trace webCalls} {outcome : Outcome}
      (harmless : ∀ act ∈ trace, ¬ Mutates act.op) :
      Served s now remoteAddress request path trace s outcome
  | used {trace : Trace webCalls} {token : Bytes} {session : Session} {outcome : Outcome}
      (granted : Granted s now request token session) (refreshing : Refreshes request path)
      (gated : GatedTrace request session trace) :
      Served s now remoteAddress request path trace
        { s with sessions := s.sessions.refresh token now } outcome
  | tlsReplaced {trace : Trace webCalls} {token : Bytes} {session : Session} {response : Response}
      (granted : Granted s now request token session) (csrf : csrfMatches request session = true)
      (gated : GatedTrace request session trace) (isPath : path = ascii "/api/v1/tls")
      (isMethod : request.method = ascii "PUT") (ok : response.status = 200) :
      Served s now remoteAddress request path trace { s with sessions := .clear }
        (.response response)
  | passwordTried {trace : Trace webCalls} {token : Bytes} {session : Session} {outcome : Outcome}
      (granted : Granted s now request token session)
      (gated : GatedTrace request session trace) :
      Served s now remoteAddress request path trace s outcome
  | passwordChanged {trace : Trace webCalls} {token : Bytes} {session : Session}
      {response : Response} (granted : Granted s now request token session)
      (csrf : csrfMatches request session = true) (gated : GatedTrace request session trace)
      (isPath : path = ascii "/api/v1/password") (isMethod : request.method = ascii "PUT")
      (ok : response.status = 200) :
      Served s now remoteAddress request path trace { s with sessions := .clear }
        (.response response)
  | loggedOut {token : Bytes} {session : Session} {response : Response}
      (granted : Granted s now request token session) (csrf : csrfMatches request session = true)
      (isPath : path = ascii "/api/v1/session") (isMethod : request.method = ascii "DELETE")
      (ok : response.status = 204) :
      Served s now remoteAddress request path [] { s with sessions := s.sessions.erase token }
        (.response response)
  | othersRevoked {token : Bytes} {session : Session} {response : Response}
      (granted : Granted s now request token session) (csrf : csrfMatches request session = true)
      (isPath : path = ascii "/api/v1/session/revoke-others")
      (isMethod : request.method = ascii "POST") (ok : response.status = 200) :
      Served s now remoteAddress request path []
        { s with sessions := s.sessions.retainOnly token } (.response response)
  | login {trace : Trace webCalls} {s' : HttpServer} {outcome : Outcome}
      (isPath : path = ascii "/api/v1/session") (isMethod : request.method = ascii "POST")
      (exec : (login s now remoteAddress request).Exec trace (s', outcome)) :
      Served s now remoteAddress request path trace s' outcome

section Served

variable {s s' : HttpServer} {now : Nanoseconds} {remoteAddress : Bytes} {request : ParsedRequest}
  {path : Bytes} {trace : Trace webCalls} {outcome : Outcome}

/-- No session has expired. -/
def Clean (s : HttpServer) (now : Nanoseconds) : Prop :=
  ∀ token session, s.sessions.table.lookup token = some session → now < session.expiresAt

theorem exec_reply {response : Response} (h : (reply s response).Exec trace (s', outcome)) :
    trace = [] ∧ s' = s ∧ outcome = .response response := by
  obtain ⟨htrace, heq⟩ := Prog.exec_done.mp h
  cases heq
  exact ⟨htrace, rfl, rfl⟩

theorem exec_keeping {answering : Answering} (h : (keeping s answering).Exec trace (s', outcome)) :
    ∃ response, answering.Exec trace response ∧ s' = s ∧ outcome = .response response := by
  obtain ⟨first, rest, response, rfl, hanswering, hreply⟩ := Prog.exec_bind.mp h
  obtain ⟨rfl, hs, houtcome⟩ := exec_reply hreply
  rw [List.append_nil]
  exact ⟨response, hanswering, hs, houtcome⟩

/-- After the clean-up, the check of the session changes nothing. -/
theorem exec_withSession (hclean : Clean s now) {denied : Response}
    {granted : Bytes → Session → Handler}
    (h : (withSession s now request denied granted).Exec trace (s', outcome)) :
    (trace = [] ∧ s' = s ∧ outcome = .response denied) ∨
      ∃ token session, Granted s now request token session ∧
        (granted token session).Exec trace (s', outcome) := by
  rw [withSession] at h
  cases hfound : s.sessions.table.lookup (sessionCookie request) with
  | none =>
    rw [hfound] at h
    exact .inl (exec_reply h)
  | some session =>
    rw [hfound] at h
    have hlive := hclean _ _ hfound
    have hnamed := (s.sessions.issued _ _ hfound).1
    simp only [if_neg (not_or.mpr ⟨hnamed, Int.not_le.mpr hlive⟩)] at h
    exact .inr ⟨_, session, ⟨rfl, hfound, hlive⟩, h⟩

theorem Served.of_reply {response : Response} (h : (reply s response).Exec trace (s', outcome)) :
    Served s now remoteAddress request path trace s' outcome := by
  obtain ⟨rfl, rfl, rfl⟩ := exec_reply h
  exact .shown (List.forall_mem_nil _)

theorem Served.of_harmless {answering : Answering} (hharmless : Harmless answering)
    (h : (keeping s answering).Exec trace (s', outcome)) :
    Served s now remoteAddress request path trace s' outcome := by
  obtain ⟨response, hanswering, rfl, rfl⟩ := exec_keeping h
  exact .shown (hharmless.trace hanswering)

theorem Served.of_withSession (hclean : Clean s now) {denied : Response}
    {granted : Bytes → Session → Handler}
    (h : (withSession s now request denied granted).Exec trace (s', outcome))
    (hgranted : ∀ token session, Granted s now request token session →
      (granted token session).Exec trace (s', outcome) →
        Served s now remoteAddress request path trace s' outcome) :
    Served s now remoteAddress request path trace s' outcome := by
  obtain ⟨rfl, rfl, rfl⟩ | ⟨token, session, hsession, hexec⟩ := exec_withSession hclean h
  · exact .shown (List.forall_mem_nil _)
  · exact hgranted token session hsession hexec

/-- A route that refreshes the session of the request and is gated. -/
theorem Served.of_gated {token : Bytes} {session : Session} {answering : Answering}
    (hsession : Granted s now request token session)
    (hrefreshes : Refreshes request path) (hgated : Gated request session answering)
    (h : (keeping { s with sessions := s.sessions.refresh token now } answering).Exec trace
      (s', outcome)) :
    Served s now remoteAddress request path trace s' outcome := by
  obtain ⟨response, hanswering, rfl, rfl⟩ := exec_keeping h
  exact .used hsession hrefreshes (hgated.trace hanswering)

theorem Served.of_withLogin (hclean : Clean s now) {answering : Session → Answering}
    (hrefreshes : Refreshes request path)
    (hgated : ∀ session, Gated request session (answering session))
    (h : (withLogin s now request answering).Exec trace (s', outcome)) :
    Served s now remoteAddress request path trace s' outcome :=
  .of_withSession hclean h fun _ session hsession hexec =>
    .of_gated hsession hrefreshes (hgated session) hexec

theorem openWebsocket_only {P : WebCall → Prop} {key : Bytes} (hacquire : P .acquireWebsocket)
    (hrelease : P .releaseWebsocket) (hsend : P (.sendHandshake key)) (hstart : P .startWebsocket) :
    (openWebsocket s key).Only P := by
  refine ⟨hacquire, fun acquired => ?_⟩
  cases acquired with
  | false => trivial
  | true =>
    refine ⟨hsend, fun sent => ?_⟩
    cases sent with
    | false => exact ⟨hrelease, fun _ => trivial⟩
    | true =>
      refine ⟨hstart, fun started => ?_⟩
      cases started with
      | false => exact ⟨hrelease, fun _ => trivial⟩
      | true => trivial

theorem openWebsocket_served {key : Bytes} (h : (openWebsocket s key).Exec trace (s', outcome)) :
    Served s now remoteAddress request path trace s' outcome := by
  have hharmless : Harmless (openWebsocket s key) := openWebsocket_only id id id id
  have hreturns : (openWebsocket s key).Returns fun r => r.1 = s := by
    intro acquired
    cases acquired with
    | false => rfl
    | true =>
      intro sent
      cases sent with
      | false => exact fun _ => rfl
      | true =>
        intro started
        cases started with
        | false => exact fun _ => rfl
        | true => rfl
  obtain rfl : s' = s := hreturns.exec h
  exact .shown (hharmless.trace h)

theorem telemetryRoute_served (h : (telemetryRoute s request).Exec trace (s', outcome)) :
    Served s now remoteAddress request path trace s' outcome := by
  rw [telemetryRoute] at h
  split_ifs at h
  · exact .of_reply h
  · exact .of_reply h
  · exact .of_reply h
  · exact .of_reply h
  · exact openWebsocket_served h

/-- The server as it was, or, with the given answer, without sessions. -/
def KeptOrCleared (s : HttpServer) (r : HttpServer × Outcome) : Prop :=
  r.1 = s ∨ ∃ response : Response, response.status = 200 ∧
    r = ({ s with sessions := .clear }, .response response)

theorem replaceTls_returns : (replaceTls s request).Returns (KeptOrCleared s) := by
  rw [replaceTls]
  unfold withPassword
  split
  · intro verified
    cases verified with
    | false => exact .inl rfl
    | true =>
      intro result
      cases result with
      | invalid => exact .inl rfl
      | storageError => exact .inl rfl
      | replaced => exact .inr ⟨_, rfl, rfl⟩
  · exact .inl rfl

theorem tlsRequest_gated {session : Session} : Gated request session (tlsRequest s request session) :=
  gated_ite (fun _ => gated_done _) fun _ => gated_csrf fun hcsrf =>
    gated_ite (fun _ => gated_done _) fun _ => gated_withPassword hcsrf _

theorem tlsRoute_served (hclean : Clean s now) (hpath : path = ascii "/api/v1/tls")
    (h : (tlsRoute s now request).Exec trace (s', outcome)) :
    Served s now remoteAddress request path trace s' outcome := by
  rw [tlsRoute] at h
  split_ifs at h with hmethod
  · exact .of_reply h
  refine .of_withSession hclean h fun token session hsession hexec => ?_
  have hgated := tlsRequest_gated.trace hexec
  rw [not_and_or, not_not, not_not] at hmethod
  have hrefreshes : Refreshes request path := .tls hpath hmethod
  rw [tlsRequest] at hexec
  split_ifs at hexec with hget hcsrf htls
  · obtain ⟨-, rfl, rfl⟩ := exec_reply hexec
    exact .used hsession hrefreshes hgated
  · obtain ⟨-, rfl, rfl⟩ := exec_reply hexec
    exact .used hsession hrefreshes hgated
  · obtain ⟨-, rfl, rfl⟩ := exec_reply hexec
    exact .used hsession hrefreshes hgated
  obtain heq | ⟨response, hok, heq⟩ := replaceTls_returns.exec hexec
  · obtain rfl := heq
    exact .used hsession hrefreshes hgated
  · cases heq
    have hput : request.method = ascii "PUT" :=
      hmethod.resolve_left (by simpa [isGet] using hget)
    exact .tlsReplaced hsession (by simpa using hcsrf) hgated hpath hput hok

theorem passwordReply_returns (result : Option PasswordChangeResult) :
    (passwordReply s result).Returns (KeptOrCleared s) := by
  rcases result with - | - | - | - | -
  · exact .inl rfl
  · exact .inr ⟨_, rfl, rfl⟩
  · exact .inl rfl
  · exact .inl rfl
  · exact .inl rfl

theorem changePassword_gated {session : Session} {currentPassword : Bytes}
    (hcsrf : csrfMatches request session = true)
    (hcurrent : jsonStringField request.body "current_password" kMaxPasswordJsonBytes =
      some currentPassword) (newPassword : Bytes) :
    Gated request session (changePassword currentPassword newPassword) := by
  refine ⟨only_of_csrf hcsrf _, ?_⟩
  rw [changePassword]
  split_ifs
  · trivial
  · refine ⟨id, fun verified => ?_⟩
    cases verified with
    | false => exact .inr trivial
    | true => exact .inl ⟨currentPassword, hcurrent, rfl⟩

theorem passwordReply_harmless (result : Option PasswordChangeResult) :
    Harmless (passwordReply s result) := by
  rcases result with - | - | - | - | -
  all_goals trivial

theorem password_served (hclean : Clean s now) (hpath : path = ascii "/api/v1/password")
    (hmethod : request.method = ascii "PUT")
    (h : (password s now request).Exec trace (s', outcome)) :
    Served s now remoteAddress request path trace s' outcome := by
  refine .of_withSession hclean h fun token session hsession hexec => ?_
  split_ifs at hexec with hcsrf
  · exact .of_reply hexec
  replace hcsrf : csrfMatches request session = true := by simpa using hcsrf
  split at hexec
  · next currentPassword newPassword hcurrent hnew =>
    have hgated : Gated request session
        (changePassword currentPassword newPassword >>= passwordReply s) :=
      gated_bind (changePassword_gated hcsrf hcurrent newPassword)
        fun result => (passwordReply_harmless result).gated
    obtain heq | ⟨response, hok, heq⟩ :=
      (Prog.returns_bind passwordReply_returns).exec hexec
    · obtain rfl : s' = s := heq
      exact .passwordTried hsession (hgated.trace hexec)
    · cases heq
      exact .passwordChanged hsession hcsrf (hgated.trace hexec) hpath hmethod hok
  · exact .of_reply hexec

theorem logout_served (hclean : Clean s now) (hpath : path = ascii "/api/v1/session")
    (hmethod : request.method = ascii "DELETE")
    (h : (logout s now request).Exec trace (s', outcome)) :
    Served s now remoteAddress request path trace s' outcome := by
  refine .of_withSession hclean h fun token session hsession hexec => ?_
  split_ifs at hexec with hcsrf
  · exact .of_reply hexec
  · obtain ⟨rfl, rfl, rfl⟩ := exec_reply hexec
    exact .loggedOut hsession (by simpa using hcsrf) hpath hmethod rfl

theorem revokeOthers_served (hclean : Clean s now)
    (hpath : path = ascii "/api/v1/session/revoke-others")
    (hmethod : request.method = ascii "POST")
    (h : (revokeOthers s now request).Exec trace (s', outcome)) :
    Served s now remoteAddress request path trace s' outcome := by
  refine .of_withSession hclean h fun token session hsession hexec => ?_
  split_ifs at hexec with hcsrf
  · exact .of_reply hexec
  · obtain ⟨rfl, rfl, rfl⟩ := exec_reply hexec
    exact .othersRevoked hsession (by simpa using hcsrf) hpath hmethod rfl

theorem sessionRoute_served (hclean : Clean s now) (hpath : path = ascii "/api/v1/session")
    (h : (sessionRoute s now remoteAddress request).Exec trace (s', outcome)) :
    Served s now remoteAddress request path trace s' outcome := by
  rw [sessionRoute] at h
  split_ifs at h with hpost hget hdelete
  · exact .login hpath hpost h
  · refine .of_withLogin hclean ?_ (fun session => gated_done _) h
    exact .status (by simp [hpath]) (of_decide_eq_true hget)
  · exact logout_served hclean hpath hdelete h
  · exact .of_reply h

theorem pageRoute_served (hclean : Clean s now)
    (h : (pageRoute s now request path).Exec trace (s', outcome)) :
    Served s now remoteAddress request path trace s' outcome := by
  rw [pageRoute] at h
  split_ifs at h with hlogin hoverview hprotected hget
  · exact .of_harmless staticFile_harmless h
  · exact .of_harmless staticFile_harmless h
  · exact .of_reply h
  · refine .of_withSession hclean h fun token session hsession hexec => ?_
    have hmethod : request.method = ascii "GET" := by simpa [isGet] using hget
    exact .of_gated hsession (.pages hprotected hmethod) staticFile_harmless.gated hexec
  · exact .of_harmless staticFile_harmless h

theorem Served.of_getOnly {handler : Handler}
    (h : (getOnly s request handler).Exec trace (s', outcome))
    (hget : request.method = ascii "GET" → handler.Exec trace (s', outcome) →
      Served s now remoteAddress request path trace s' outcome) :
    Served s now remoteAddress request path trace s' outcome := by
  rw [getOnly] at h
  split_ifs at h with hmethod
  · exact .of_reply h
  · exact hget (by simpa [isGet] using hmethod) h

/-- Every answer to a request is one of those listed. -/
theorem route_served (hclean : Clean s now)
    (h : (route s now remoteAddress request path).Exec trace (s', outcome)) :
    Served s now remoteAddress request path trace s' outcome := by
  rw [route] at h
  refine h.of_ite (fun _ h => telemetryRoute_served h) fun _ h => ?_
  refine h.of_ite (fun _ h => .of_harmless (healthz_only id) h) fun _ h => ?_
  refine h.of_ite (fun _ h => .of_harmless (overview_only id) h) fun _ h => ?_
  refine h.of_ite (fun _ h => .of_harmless (health_only id) h) fun _ h => ?_
  refine h.of_ite (fun _ h => .of_harmless (latestSnapshot_only id) h) fun _ h => ?_
  refine h.of_ite (fun hpath h => .of_getOnly h fun hget h => ?_) fun _ h => ?_
  · exact .of_withLogin hclean (.status (by simp [hpath]) hget)
      (fun _ => iec61850Status_harmless.gated) h
  refine h.of_ite (fun hpath h => ?_) fun _ h => ?_
  · exact .of_withLogin hclean (.icd hpath) (fun _ => icdRoute_gated) h
  refine h.of_ite (fun hpath h => tlsRoute_served hclean hpath h) fun _ h => ?_
  refine h.of_ite (fun hpath h => ?_) fun _ h => ?_
  · exact .of_withLogin hclean (.network hpath) (fun _ => networkRoute_gated) h
  refine h.of_ite (fun hpath h => ?_) fun _ h => ?_
  · exact .of_withLogin hclean (.maintenance hpath) (fun _ => maintenanceRoute_gated) h
  refine h.of_ite (fun hpath h => .of_getOnly h fun hget h => ?_) fun _ h => ?_
  · exact .of_withLogin hclean (.status (by simp [hpath]) hget) (fun _ => logs_harmless.gated) h
  refine h.of_ite (fun hpath h => .of_getOnly h fun hget h => ?_) fun _ h => ?_
  · exact .of_withLogin hclean (.records hpath hget) (fun _ => recordsRoute_harmless.gated) h
  refine h.of_ite (fun hpath h => h.of_ite (fun _ h => .of_reply h) fun hmethod h => ?_) fun _ h => ?_
  · rw [not_and_or, not_not, not_not] at hmethod
    exact .of_withLogin hclean (.time hpath hmethod) (fun _ => timeRoute_gated) h
  refine h.of_ite (fun hpath h => .of_getOnly h fun hget h => ?_) fun _ h => ?_
  · exact .of_withLogin hclean (.status (by simp [hpath]) hget)
      (fun _ => configSchema_harmless.gated) h
  refine h.of_ite (fun hpath h => h.of_ite (fun _ h => .of_reply h) fun hmethod h => ?_) fun _ h => ?_
  · rw [not_and_or, not_not, not_not] at hmethod
    exact .of_withLogin hclean (.config hpath hmethod) (fun _ => configRoute_gated) h
  refine h.of_ite (fun hpath h => sessionRoute_served hclean hpath h) fun _ h => ?_
  refine h.of_ite (fun hpath h => h.of_ite (fun hmethod h => ?_) fun _ h => .of_reply h) fun _ h => ?_
  · exact password_served hclean hpath hmethod h
  refine h.of_ite (fun hpath h => h.of_ite (fun hmethod h => ?_) fun _ h => .of_reply h) fun _ h => ?_
  · exact revokeOthers_served hclean hpath hmethod h
  refine h.of_ite (fun _ h => .of_reply h) fun _ h => ?_
  exact pageRoute_served hclean h

/-! ### Logins -/

/-- The address has a record, or there is room for one. -/
def HasRoom (s : HttpServer) (remoteAddress : Bytes) : Prop :=
  remoteAddress ∈ s.loginFailures ∨ s.loginFailures.size < kMaxLoginFailureRecords

theorem exec_rejectLogin (h : (rejectLogin s now remoteAddress).Exec trace (s', outcome)) :
    outcome = .response loginRejected ∧
      (HasRoom s remoteAddress ∧ trace = [] ∧
          s' = { s with loginFailures := recordFailure s.loginFailures now remoteAddress } ∨
        ¬ HasRoom s remoteAddress ∧ ∃ evicted : {key // key ∈ s.loginFailures.keys},
          trace = [⟨WebCall.first s.loginFailures.keys, evicted⟩] ∧
          s' = { s with
            loginFailures := recordFailure (s.loginFailures.erase evicted) now remoteAddress }) := by
  rw [rejectLogin] at h
  by_cases hfull : remoteAddress ∉ s.loginFailures ∧ kMaxLoginFailureRecords ≤ s.loginFailures.size
  · rw [if_pos hfull] at h
    obtain ⟨evicted, rest, rfl, hrest⟩ := Prog.exec_call.mp h
    obtain ⟨rfl, rfl, rfl⟩ := exec_reply hrest
    refine ⟨rfl, .inr ⟨fun hroom => ?_, evicted, rfl, rfl⟩⟩
    exact hroom.elim hfull.1 (Nat.not_lt.mpr hfull.2)
  · rw [if_neg hfull] at h
    obtain ⟨rfl, rfl, rfl⟩ := exec_reply h
    rw [not_and_or, not_not, Nat.not_le] at hfull
    exact ⟨rfl, .inl ⟨hfull, rfl, rfl⟩⟩

/-- The answer to a login whose random numbers have been drawn. -/
def Opens (s : HttpServer) (now : Nanoseconds) (remoteAddress : Bytes)
    (r : HttpServer × Outcome) : Prop :=
  ∃ (token : Bytes) (session : Session) (issued : token ≠ [] ∧ session.csrfToken ≠ []),
    session.remoteAddress = remoteAddress ∧ session.expiresAt = now + kSessionLifetime ∧
      r = ({ s with sessions := s.sessions.emplace token session issued },
        .response (sendJson 200 (sessionJson session.csrfToken)
          (sessionCookieHeader token s.tlsEnabled ++ noStore)))

theorem openSession_returns :
    (openSession s now remoteAddress).Returns fun r => r = (s, .dropped) ∨ Opens s now remoteAddress r := by
  intro tokenBytes
  cases tokenBytes with
  | none => exact .inl rfl
  | some tokenBytes =>
    intro csrfBytes
    cases csrfBytes with
    | none => exact .inl rfl
    | some csrfBytes => exact .inr ⟨_, _, _, rfl, rfl, rfl⟩

theorem openSession_only :
    (openSession s now remoteAddress).Only fun call => call = WebCall.randomBytes 32 := by
  refine ⟨rfl, fun tokenBytes => ?_⟩
  cases tokenBytes with
  | none => trivial
  | some tokenBytes =>
    refine ⟨rfl, fun csrfBytes => ?_⟩
    cases csrfBytes with
    | none => trivial
    | some csrfBytes => trivial

/-- The server that opens the session: the failures of the address are forgotten, and a
session is evicted if there are too many. -/
inductive Admits (s : HttpServer) (remoteAddress : Bytes) : Trace webCalls → HttpServer → Prop
  | room (room : s.sessions.table.size < kMaxSessions) :
      Admits s remoteAddress [] { s with loginFailures := s.loginFailures.erase remoteAddress }
  | evicted (full : kMaxSessions ≤ s.sessions.table.size)
      (evicted : {key // key ∈ s.sessions.table.keys}) :
      Admits s remoteAddress [⟨WebCall.first s.sessions.table.keys, evicted⟩]
        { s with
          loginFailures := s.loginFailures.erase remoteAddress
          sessions := s.sessions.erase evicted }

theorem exec_acceptLogin (h : (acceptLogin s now remoteAddress).Exec trace (s', outcome)) :
    ∃ first rest s₁, trace = first ++ rest ∧ Admits s remoteAddress first s₁ ∧
      (openSession s₁ now remoteAddress).Exec rest (s', outcome) := by
  rw [acceptLogin] at h
  by_cases hfull : kMaxSessions ≤ s.sessions.table.size
  · rw [if_pos hfull] at h
    obtain ⟨evicted, rest, rfl, hrest⟩ := Prog.exec_call.mp h
    exact ⟨_, rest, _, rfl, .evicted hfull evicted, hrest⟩
  · rw [if_neg hfull] at h
    exact ⟨[], trace, _, rfl, .room (Nat.lt_of_not_le hfull), h⟩

/-- The ways a login can be answered. -/
inductive LoginServed (s : HttpServer) (now : Nanoseconds) (remoteAddress : Bytes)
    (request : ParsedRequest) : Trace webCalls → HttpServer → Outcome → Prop
  | foreign {response : Response} (origin : sameOrigin s request = false)
      (refused : response.status = 403) :
      LoginServed s now remoteAddress request [] s (.response response)
  | blocked {response : Response} (isBlocked : blocked s now remoteAddress = true)
      (refused : response.status = 429) :
      LoginServed s now remoteAddress request [] s (.response response)
  | malformed {response : Response} (open' : blocked s now remoteAddress = false)
      (refused : response.status = 400) :
      LoginServed s now remoteAddress request [] s (.response response)
  | rejected {username password : Bytes} {rest : Trace webCalls} {s' : HttpServer}
      {outcome : Outcome} (open' : blocked s now remoteAddress = false)
      (exec : (rejectLogin s now remoteAddress).Exec rest (s', outcome)) :
      LoginServed s now remoteAddress request
        (⟨.verifyPassword username password, (false : Bool)⟩ :: rest) s' outcome
  | accepted {username password : Bytes} {rest : Trace webCalls} {s' : HttpServer}
      {outcome : Outcome} (open' : blocked s now remoteAddress = false)
      (exec : (acceptLogin s now remoteAddress).Exec rest (s', outcome)) :
      LoginServed s now remoteAddress request
        (⟨.verifyPassword username password, (true : Bool)⟩ :: rest) s' outcome

theorem login_served (h : (login s now remoteAddress request).Exec trace (s', outcome)) :
    LoginServed s now remoteAddress request trace s' outcome := by
  rw [login] at h
  split_ifs at h with horigin hblocked
  · obtain ⟨rfl, rfl, rfl⟩ := exec_reply h
    exact .foreign (by simpa using horigin) rfl
  · obtain ⟨rfl, rfl, rfl⟩ := exec_reply h
    exact .blocked hblocked rfl
  replace hblocked : blocked s now remoteAddress = false := by simpa using hblocked
  split at h
  · next username password husername hpassword =>
    obtain ⟨verified, rest, rfl, hrest⟩ := Prog.exec_call.mp h
    cases verified with
    | false => exact .rejected hblocked hrest
    | true => exact .accepted hblocked hrest
  · obtain ⟨rfl, rfl, rfl⟩ := exec_reply h
    exact .malformed hblocked rfl

end Served

end Uhf.Web

/-
Who may change the gateway over the web (`HttpServer::handle_client`).

* `mutations_gated` — nothing is changed, and nobody is logged out, without a session, its
  CSRF token and, but for the configuration, the password.
-/
import UhfGateway.Web.Served

namespace Uhf.Web

open Acquisition Network Effects Containers

/-- The request carries the cookie of a live session, and its CSRF token. -/
def Authorised (s : HttpServer) (now : Nanoseconds) (request : ParsedRequest) : Prop :=
  ∃ token session, sessionCookie request = token ∧
    s.sessions.table.lookup token = some session ∧ now < session.expiresAt ∧
      request.headers.lookup (ascii "x-csrf-token") = some session.csrfToken

/-- A login has found no room for its session but that of `token`. -/
def EvictedByLogin (s : HttpServer) (request : ParsedRequest) (path : Bytes)
    (trace : Trace webCalls) (token : Bytes) : Prop :=
  path = ascii "/api/v1/session" ∧ request.method = ascii "POST" ∧
    kMaxSessions ≤ s.sessions.table.size ∧
    (∃ username password, ⟨.verifyPassword username password, (true : Bool)⟩ ∈ trace) ∧
      ∃ keys, ∃ evicted : {key // key ∈ keys}, evicted.1 = token ∧
        (⟨WebCall.first keys, evicted⟩ : Act webCalls) ∈ trace

/-- The server that a request finds. -/
def HttpServer.cleaned (s : HttpServer) (now : Nanoseconds) : HttpServer :=
  { s with sessions := s.sessions.cleanup now }

section Cleanup

variable {s : HttpServer} {now : Nanoseconds} {token : Bytes} {session : Session}

theorem lookup_cleaned :
    (s.cleaned now).sessions.table.lookup token = some session ↔
      s.sessions.table.lookup token = some session ∧ now < session.expiresAt :=
  Sessions.lookup_cleanup

theorem clean_cleaned (s : HttpServer) (now : Nanoseconds) : Clean (s.cleaned now) now :=
  fun _ _ hfound => (lookup_cleaned.mp hfound).2

theorem Granted.authorised {request : ParsedRequest}
    (h : Granted (s.cleaned now) now request token session)
    (hcsrf : csrfMatches request session = true) : Authorised s now request := by
  obtain ⟨hfound, hlive⟩ := lookup_cleaned.mp h.found
  refine ⟨token, session, h.cookie, hfound, hlive, ?_⟩
  have hvalue := of_decide_eq_true hcsrf
  have hname : lowerAscii (ascii "x-csrf-token") = ascii "x-csrf-token" := by decide
  rw [ParsedRequest.headerValue, hname] at hvalue
  cases hheader : request.headers.lookup (ascii "x-csrf-token") with
  | none =>
    -- an absent field is not an empty token
    rw [hheader] at hvalue
    exact absurd hvalue.symm (s.sessions.issued _ _ hfound).2
  | some value =>
    rw [hheader] at hvalue
    exact congrArg some hvalue

end Cleanup

section Gating

variable {s s' : HttpServer} {now : Nanoseconds} {remoteAddress : Bytes} {request : ParsedRequest}
  {path : Bytes} {trace : Trace webCalls} {outcome : Outcome}

/-- All that a login calls for. -/
theorem login_calls {P : WebCall → Prop}
    (hverify : ∀ username password, P (.verifyPassword username password))
    (hfirst : ∀ keys, P (.first keys)) (hrandom : P (.randomBytes 32))
    (h : LoginServed s now remoteAddress request trace s' outcome) : ∀ act ∈ trace, P act.op := by
  cases h with
  | foreign => exact List.forall_mem_nil _
  | blocked => exact List.forall_mem_nil _
  | malformed => exact List.forall_mem_nil _
  | rejected _ exec =>
    rw [List.forall_mem_cons]
    refine ⟨hverify _ _, ?_⟩
    obtain ⟨-, ⟨-, rfl, -⟩ | ⟨-, evicted, rfl, -⟩⟩ := exec_rejectLogin exec
    · exact List.forall_mem_nil _
    · exact List.forall_mem_singleton.mpr (hfirst _)
  | accepted _ exec =>
    rw [List.forall_mem_cons]
    refine ⟨hverify _ _, ?_⟩
    obtain ⟨first, rest, s₁, rfl, hadmits, hopened⟩ := exec_acceptLogin exec
    rw [List.forall_mem_append]
    constructor
    · cases hadmits with
      | room => exact List.forall_mem_nil _
      | evicted => exact List.forall_mem_singleton.mpr (hfirst _)
    · intro act hact
      rw [openSession_only.trace hopened act hact]
      exact hrandom

/-- What has been done to answer a request, by who has asked for it. -/
theorem Served.gated
    (h : Served (s.cleaned now) now remoteAddress request path trace s' outcome)
    {before after : Trace webCalls} {act : Act webCalls} (htrace : trace = before ++ act :: after)
    (hmutates : Mutates act.op) :
    Authorised s now request ∧
      (NeedsPassword act.op → ∃ verified ∈ before, Reauthenticates request verified) := by
  have hact : act ∈ trace := by
    rw [htrace]
    exact List.mem_append_cons_self
  have hgated : ∀ {token session}, Granted (s.cleaned now) now request token session →
      GatedTrace request session trace → Authorised s now request ∧
        (NeedsPassword act.op → ∃ verified ∈ before, Reauthenticates request verified) :=
    fun hgranted hgated => ⟨hgranted.authorised (hgated.csrf act hact hmutates),
      hgated.password before act after htrace⟩
  cases h with
  | shown harmless => exact absurd hmutates (harmless act hact)
  | used granted _ gated => exact hgated granted gated
  | tlsReplaced granted _ gated => exact hgated granted gated
  | passwordTried granted gated => exact hgated granted gated
  | passwordChanged granted _ gated => exact hgated granted gated
  | loggedOut => cases hact
  | othersRevoked => cases hact
  | login _ _ exec =>
    have hharmless := login_calls (P := fun call => ¬ Mutates call) (fun _ _ => id) (fun _ => id)
      id (login_served exec)
    exact absurd hmutates (hharmless act hact)

/-- A login takes nobody's session, unless there are too many. -/
theorem login_keeps {token : Bytes} {session : Session}
    (h : LoginServed s now remoteAddress request trace s' outcome)
    (hpath : path = ascii "/api/v1/session") (hmethod : request.method = ascii "POST")
    (hfound : s.sessions.table.lookup token = some session)
    (hlost : s'.sessions.table.lookup token = none) :
    EvictedByLogin s request path trace token := by
  have hsame : s'.sessions.table.lookup token ≠ s.sessions.table.lookup token := by
    rw [hfound, hlost]
    exact (Option.some_ne_none _).symm
  cases h with
  | foreign => exact absurd rfl hsame
  | blocked => exact absurd rfl hsame
  | malformed => exact absurd rfl hsame
  | rejected _ exec =>
    obtain ⟨-, ⟨-, -, rfl⟩ | ⟨-, evicted, -, rfl⟩⟩ := exec_rejectLogin exec
    · exact absurd rfl hsame
    · exact absurd rfl hsame
  | accepted _ exec =>
    obtain ⟨first, rest, s₁, rfl, hadmits, hopened⟩ := exec_acceptLogin exec
    have hlost₁ : s₁.sessions.table.lookup token = none := by
      obtain heq | ⟨opened, session', issued, -, -, heq⟩ := openSession_returns.exec hopened
      · cases heq
        exact hlost
      · cases heq
        rw [Sessions.lookup_emplace] at hlost
        split_ifs at hlost
        exact hlost
    cases hadmits with
    | room => exact absurd (hlost₁.symm.trans hfound) (Option.some_ne_none _).symm
    | evicted full evicted =>
      refine ⟨hpath, hmethod, full, ⟨_, _, List.mem_cons_self⟩, _, evicted, ?_, by simp⟩
      by_contra hother
      rw [Sessions.erase, AList.lookup_erase_ne (Ne.symm hother), hfound] at hlost₁
      cases hlost₁

theorem lookup_refresh_ne_none {sessions : Sessions} {token token' : Bytes} {session : Session}
    (hfound : sessions.table.lookup token = some session) :
    (sessions.refresh token' now).table.lookup token ≠ none := by
  rw [Sessions.refresh, Table.lookup_modify, hfound]
  split_ifs <;> exact Option.some_ne_none _

/-- Whose request it has been if a live session is gone. -/
theorem Served.loses {token : Bytes} {session : Session}
    (h : Served (s.cleaned now) now remoteAddress request path trace s' outcome)
    (hfound : s.sessions.table.lookup token = some session) (hlive : now < session.expiresAt)
    (hlost : s'.sessions.table.lookup token = none) :
    Authorised s now request ∨ EvictedByLogin (s.cleaned now) request path trace token := by
  replace hfound := lookup_cleaned.mpr ⟨hfound, hlive⟩
  cases h with
  | shown => exact absurd (hlost.symm.trans hfound) (Option.some_ne_none _).symm
  | used => exact absurd hlost (lookup_refresh_ne_none hfound)
  | tlsReplaced granted csrf => exact .inl (granted.authorised csrf)
  | passwordTried => exact absurd (hlost.symm.trans hfound) (Option.some_ne_none _).symm
  | passwordChanged granted csrf => exact .inl (granted.authorised csrf)
  | loggedOut granted csrf => exact .inl (granted.authorised csrf)
  | othersRevoked granted csrf => exact .inl (granted.authorised csrf)
  | login isPath isMethod exec =>
    exact .inr (login_keeps (login_served exec) isPath isMethod hfound hlost)

end Gating

/-- Whatever a request changes, it is authorised, and all but the configuration only after
the password in it has been verified.  A session that is live before it is only gone after
it if the request is authorised, or has opened a session for which there was no room. -/
theorem mutations_gated {s s' : HttpServer} {now : Nanoseconds} {remoteAddress : Bytes}
    {received : List Bytes} {trace : Trace webCalls} {outcome : Outcome}
    (h : (handleClient s now remoteAddress received).Exec trace (s', outcome)) :
    (∀ before act after, trace = before ++ act :: after → Mutates act.op →
      ∃ request path, readClient received = .ok (request, path) ∧ Authorised s now request ∧
        (NeedsPassword act.op → ∃ verified ∈ before, Reauthenticates request verified)) ∧
    ∀ token session, s.sessions.table.lookup token = some session → now < session.expiresAt →
      s'.sessions.table.lookup token = none →
        ∃ request path, readClient received = .ok (request, path) ∧
          (Authorised s now request ∨
            EvictedByLogin (s.cleaned now) request path trace token) := by
  rw [handleClient] at h
  cases hread : readClient received with
  | error response =>
    rw [hread] at h
    obtain ⟨rfl, rfl, rfl⟩ := exec_reply h
    refine ⟨fun before act after htrace => ?_, fun token session hfound _ hlost => ?_⟩
    · exact absurd htrace.symm (by simp)
    · exact absurd (hlost.symm.trans hfound) (Option.some_ne_none _).symm
  | ok parsed =>
    obtain ⟨request, path⟩ := parsed
    rw [hread] at h
    have hserved := route_served (clean_cleaned s now) h
    refine ⟨fun before act after htrace hmutates => ?_, fun token session hfound hlive hlost => ?_⟩
    · exact ⟨request, path, rfl, hserved.gated htrace hmutates⟩
    · exact ⟨request, path, rfl, hserved.loses hfound hlive hlost⟩

/-! ### An update -/

/-- A server that somebody is logged in to. -/
def loggedInServer : HttpServer where
  documentRoot := ascii "/srv"
  sessions := {
    table := AList.singleton (ascii "t") ⟨ascii "c", ascii "10.0.0.1", 1⟩
    issued := by
      intro token session h
      obtain ⟨rfl, rfl⟩ : token = ascii "t" ∧ session = ⟨ascii "c", ascii "10.0.0.1", 1⟩ := by
        by_cases htoken : ascii "t" = token
        · subst htoken
          exact ⟨rfl, (Option.some.inj h).symm⟩
        · rw [AList.lookup_eq_none.mpr fun hmem => htoken (List.mem_singleton.mp hmem).symm] at h
          cases h
      decide +kernel }

/-- The bytes of a request are read by evaluation. -/
theorem readClient_eq_ok {received : List Bytes} {parsed : ParsedRequest × Bytes}
    (h : (readClient received).toOption = some parsed) : readClient received = .ok parsed := by
  cases hread : readClient received with
  | error response =>
    rw [hread] at h
    cases h
  | ok parsed' =>
    rw [hread] at h
    exact congrArg Except.ok (Option.some.inj h)

def updateBytes : Bytes :=
  ascii "PUT /api/v1/config HTTP/1.1" ++ crlf ++ ascii "Cookie: uhf_session=t" ++ crlf ++
    ascii "X-CSRF-Token: c" ++ crlf ++ ascii "If-Match: \"1\"" ++ crlf ++ crlf

def updateRequest : ParsedRequest where
  method := ascii "PUT"
  target := ascii "/api/v1/config"
  version := ascii "HTTP/1.1"
  headers := [(ascii "if-match", ascii "\"1\""), (ascii "x-csrf-token", ascii "c"),
    (ascii "cookie", ascii "uhf_session=t")]
  body := []

theorem readClient_updateBytes :
    readClient [updateBytes] = .ok (updateRequest, ascii "/api/v1/config") :=
  readClient_eq_ok (by decide +kernel)

def sampleConfig : ConfigSnapshot where
  version := 1
  values := ⟨[], [], 1, true, false, 21, ascii "UHFPD1", true, []⟩

def updateTrace : Trace webCalls :=
  [⟨.configSnapshot, sampleConfig⟩, ⟨.configUpdate 1 [], UpdateResult.updated⟩,
    ⟨.configSnapshot, sampleConfig⟩]

theorem route_config {s : HttpServer} {now : Nanoseconds} {remoteAddress : Bytes}
    {request : ParsedRequest} (hmethod : request.method = ascii "PUT") :
    route s now remoteAddress request (ascii "/api/v1/config") =
      withLogin s now request (configRoute s request) := by
  rw [route]
  iterate 14 rw [if_neg (by decide +kernel)]
  rw [if_pos rfl, hmethod, if_neg (by decide +kernel)]

/-- The configuration is updated, by somebody who may. -/
theorem update_gated : ∃ request path, readClient [updateBytes] = .ok (request, path) ∧
    Authorised loggedInServer 0 request ∧
      (NeedsPassword (.configUpdate 1 []) →
        ∃ verified ∈ [(⟨.configSnapshot, sampleConfig⟩ : Act webCalls)],
          Reauthenticates request verified) := by
  have hcookie : sessionCookie updateRequest = ascii "t" := by decide +kernel
  have hlookup : (loggedInServer.cleaned 0).sessions.table.lookup (ascii "t") =
      some ⟨ascii "c", ascii "10.0.0.1", 1⟩ :=
    lookup_cleaned.mpr ⟨rfl, by decide⟩
  have hversion : parseIfMatch (updateRequest.headerValue "if-match") = some 1 := by decide +kernel
  obtain ⟨response, hanswering⟩ : ∃ response, (configRoute (loggedInServer.cleaned 0) updateRequest
      ⟨ascii "c", ascii "10.0.0.1", 1⟩).Exec updateTrace response := by
    rw [configRoute, if_neg (by decide), if_neg (by decide +kernel), if_neg (by decide +kernel),
      hversion]
    exact ⟨_, .call _ (.call _ (.call _ (.done _)))⟩
  obtain ⟨s', outcome, hexec⟩ : ∃ s' outcome,
      (handleClient loggedInServer 0 [] [updateBytes]).Exec (updateTrace ++ []) (s', outcome) := by
    rw [handleClient, readClient_updateBytes]
    show ∃ s' outcome, (route (loggedInServer.cleaned 0) 0 [] updateRequest
      (ascii "/api/v1/config")).Exec (updateTrace ++ []) (s', outcome)
    rw [route_config rfl, withLogin, withSession, hcookie, hlookup]
    simp only
    rw [if_neg (by decide +kernel)]
    exact ⟨_, _, Prog.Exec.bind hanswering (.done _)⟩
  exact (mutations_gated hexec).1 [⟨.configSnapshot, sampleConfig⟩] _ _ rfl trivial

end Uhf.Web

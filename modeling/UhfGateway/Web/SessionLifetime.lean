/-
How long a session lasts.

* `Alive` — the history of a token that is still accepted;
* `session_lifetime` — no other token is, and there are never more than 64.
-/
import UhfGateway.Web.Visits

namespace Uhf.Web

open Acquisition Effects Containers

/-- A request at `now` with this token is let in. -/
def HttpServer.accepts (s : HttpServer) (token : Bytes) (now : Nanoseconds) : Prop :=
  ∃ session, s.sessions.table.lookup token = some session ∧ now < session.expiresAt

namespace Visit

/-- A successful login that hands out the token. -/
structure Issues (v : Visit) (token : Bytes) : Prop where
  login : ∃ request, v.LogsIn request
  verified : ∃ username password, ⟨.verifyPassword username password, (true : Bool)⟩ ∈ v.trace
  answered : ∃ csrfToken, v.outcome = .response (sendJson 200 (sessionJson csrfToken)
    (sessionCookieHeader token v.before.tlsEnabled ++ noStore))

/-- A request that is let in with the token and gives it a new lifetime. -/
structure Uses (v : Visit) (token : Bytes) : Prop where
  accepted : v.before.accepts token v.now
  refreshing : ∃ request path, readClient v.received = .ok (request, path) ∧
    sessionCookie request = token ∧ Refreshes request path

/-- The ways in which a token is taken from its holder. -/
inductive Removes (v : Visit) (token : Bytes) : Prop
  | loggedOut {request : ParsedRequest}
      (read : readClient v.received = .ok (request, ascii "/api/v1/session"))
      (isMethod : request.method = ascii "DELETE") (own : sessionCookie request = token)
      (ok : v.Answered 204)
  | revoked {request : ParsedRequest}
      (read : readClient v.received = .ok (request, ascii "/api/v1/session/revoke-others"))
      (isMethod : request.method = ascii "POST") (other : sessionCookie request ≠ token)
      (ok : v.Answered 200)
  | passwordChanged {request : ParsedRequest}
      (read : readClient v.received = .ok (request, ascii "/api/v1/password"))
      (isMethod : request.method = ascii "PUT") (ok : v.Answered 200)
  | tlsReplaced {request : ParsedRequest}
      (read : readClient v.received = .ok (request, ascii "/api/v1/tls"))
      (isMethod : request.method = ascii "PUT") (ok : v.Answered 200)
  | evicted {request : ParsedRequest} {path : Bytes}
      (read : readClient v.received = .ok (request, path))
      (evicted : EvictedByLogin (v.before.cleaned v.now) request path v.trace token)

end Visit

/-- The token has been issued in one of the visits and not been removed since.  All gaps
between the uses that have refreshed it are below its lifetime, and the last of them has
been at `last`. -/
inductive Alive (token : Bytes) : List Visit → Nanoseconds → Prop
  | issued {visits : List Visit} {v : Visit} (issues : v.Issues token) :
      Alive token (visits ++ [v]) v.now
  | used {visits : List Visit} {v : Visit} {last : Nanoseconds} (h : Alive token visits last)
      (kept : ¬ v.Removes token) (uses : v.Uses token) (gap : v.now - last < kSessionLifetime) :
      Alive token (visits ++ [v]) v.now
  | unused {visits : List Visit} {v : Visit} {last : Nanoseconds} (h : Alive token visits last)
      (kept : ¬ v.Removes token) : Alive token (visits ++ [v]) last

/-! ### Removals -/

section Removals

variable {s s' : HttpServer} {now : Nanoseconds} {remoteAddress token : Bytes}
  {request : ParsedRequest} {trace : Trace webCalls} {response : Response}

theorem route_tls : route s now remoteAddress request (ascii "/api/v1/tls") =
    tlsRoute s now request := by
  rw [route]
  iterate 7 rw [if_neg (by decide +kernel)]
  rw [if_pos rfl]

theorem route_password (hmethod : request.method = ascii "PUT") :
    route s now remoteAddress request (ascii "/api/v1/password") = password s now request := by
  rw [route]
  iterate 16 rw [if_neg (by decide +kernel)]
  rw [if_pos rfl, if_pos hmethod]

theorem route_revokeOthers (hmethod : request.method = ascii "POST") :
    route s now remoteAddress request (ascii "/api/v1/session/revoke-others") =
      revokeOthers s now request := by
  rw [route]
  iterate 17 rw [if_neg (by decide +kernel)]
  rw [if_pos rfl, if_pos hmethod]

theorem lookup_clear : Sessions.clear.table.lookup token = none := rfl

/-- A logout with success has been of a session that existed. -/
theorem logout_removes (hclean : Clean s now)
    (h : (logout s now request).Exec trace (s', .response response)) (hok : response.status = 204) :
    s'.sessions.table.lookup (sessionCookie request) = none := by
  obtain ⟨-, -, hdenied⟩ | ⟨token, session, hsession, hexec⟩ := exec_withSession hclean h
  · cases hdenied
    cases hok
  · split_ifs at hexec with hcsrf
    · obtain ⟨-, -, hdenied⟩ := exec_reply hexec
      cases hdenied
      cases hok
    · obtain ⟨-, rfl, -⟩ := exec_reply hexec
      rw [hsession.cookie]
      exact AList.lookup_erase _ _

theorem revokeOthers_removes (hclean : Clean s now)
    (h : (revokeOthers s now request).Exec trace (s', .response response))
    (hok : response.status = 200) (hother : sessionCookie request ≠ token) :
    s'.sessions.table.lookup token = none := by
  obtain ⟨-, -, hdenied⟩ | ⟨token', session, hsession, hexec⟩ := exec_withSession hclean h
  · cases hdenied
    cases hok
  · split_ifs at hexec with hcsrf
    · obtain ⟨-, -, hdenied⟩ := exec_reply hexec
      cases hdenied
      cases hok
    · obtain ⟨-, rfl, -⟩ := exec_reply hexec
      rw [Sessions.retainOnly, Table.lookup_filter, ← hsession.cookie,
        decide_eq_false (Ne.symm hother)]
      cases s.sessions.table.lookup token <;> rfl

/-- Success means that nobody is logged in any more. -/
def ClearsOnSuccess (r : HttpServer × Outcome) : Prop :=
  r.1.sessions = .clear ∨ ∀ response, r.2 = .response response → response.status ≠ 200

theorem clearsOnSuccess_failed {r : Response} (h : r.status ≠ 200) :
    ClearsOnSuccess (s, .response r) := by
  refine .inr fun response hresponse => ?_
  cases hresponse
  exact h

theorem passwordReply_clears (result : Option PasswordChangeResult) :
    (passwordReply s result).Returns ClearsOnSuccess := by
  rcases result with - | - | - | - | -
  · exact .inr fun _ hresponse => Outcome.noConfusion hresponse
  · exact .inl rfl
  · exact clearsOnSuccess_failed (by decide)
  · exact clearsOnSuccess_failed (by decide)
  · exact clearsOnSuccess_failed (by decide)

theorem password_removes (hclean : Clean s now)
    (h : (password s now request).Exec trace (s', .response response))
    (hok : response.status = 200) : s'.sessions = .clear := by
  obtain ⟨-, -, hdenied⟩ | ⟨token', session, -, hexec⟩ := exec_withSession hclean h
  · cases hdenied
    cases hok
  have hclears : ClearsOnSuccess (s', .response response) := by
    split_ifs at hexec with hcsrf
    · obtain ⟨-, -, hdenied⟩ := exec_reply hexec
      cases hdenied
      exact clearsOnSuccess_failed (by decide)
    split at hexec
    · exact (Prog.returns_bind passwordReply_clears).exec hexec
    · obtain ⟨-, -, hdenied⟩ := exec_reply hexec
      cases hdenied
      exact clearsOnSuccess_failed (by decide)
  exact hclears.resolve_right fun hfailed => hfailed response rfl hok

theorem replaceTls_clears : (replaceTls s request).Returns ClearsOnSuccess := by
  rw [replaceTls]
  unfold withPassword
  split
  · intro verified
    cases verified with
    | false => exact clearsOnSuccess_failed (by decide)
    | true =>
      intro result
      cases result with
      | invalid => exact clearsOnSuccess_failed (by decide)
      | storageError => exact clearsOnSuccess_failed (by decide)
      | replaced => exact .inl rfl
  · exact clearsOnSuccess_failed (by decide)

theorem tls_removes (hclean : Clean s now) (hmethod : request.method = ascii "PUT")
    (h : (tlsRoute s now request).Exec trace (s', .response response))
    (hok : response.status = 200) : s'.sessions = .clear := by
  have hnotGet : isGet request = false := by
    rw [isGet, hmethod]
    decide
  rw [tlsRoute, if_neg (by rw [not_and_or, not_not, not_not]; exact .inr hmethod)] at h
  obtain ⟨-, -, hdenied⟩ | ⟨token', session, -, hexec⟩ := exec_withSession hclean h
  · cases hdenied
    cases hok
  rw [tlsRequest, hnotGet, if_neg Bool.false_ne_true] at hexec
  have hclears : ClearsOnSuccess (s', .response response) := by
    split_ifs at hexec with hcsrf htls
    · obtain ⟨-, -, hdenied⟩ := exec_reply hexec
      cases hdenied
      exact clearsOnSuccess_failed (by decide)
    · obtain ⟨-, -, hdenied⟩ := exec_reply hexec
      cases hdenied
      exact clearsOnSuccess_failed (by decide)
    · exact replaceTls_clears.exec hexec
  exact hclears.resolve_right fun hfailed => hfailed response rfl hok

end Removals

/-! ### One visit -/

section Logins

variable {s s' : HttpServer} {now : Nanoseconds} {remoteAddress token : Bytes}
  {request : ParsedRequest} {trace : Trace webCalls} {outcome : Outcome} {session : Session}

/-- The session of a login that has just been answered. -/
def Opened (s : HttpServer) (now : Nanoseconds) (token : Bytes) (session : Session)
    (trace : Trace webCalls) (outcome : Outcome) : Prop :=
  (∃ username password, ⟨.verifyPassword username password, (true : Bool)⟩ ∈ trace) ∧
    outcome = .response (sendJson 200 (sessionJson session.csrfToken)
      (sessionCookieHeader token s.tlsEnabled ++ noStore)) ∧
    session.expiresAt = now + kSessionLifetime

theorem openSession_entry (h : (openSession s now remoteAddress).Exec trace (s', outcome))
    (hfound : s'.sessions.table.lookup token = some session) :
    s.sessions.table.lookup token = some session ∨
      outcome = .response (sendJson 200 (sessionJson session.csrfToken)
        (sessionCookieHeader token s.tlsEnabled ++ noStore)) ∧
        session.expiresAt = now + kSessionLifetime := by
  obtain heq | ⟨opened, session', issued, -, hexpires, heq⟩ := openSession_returns.exec h
  · cases heq
    exact .inl hfound
  · cases heq
    rw [Sessions.lookup_emplace] at hfound
    split_ifs at hfound with htoken
    · subst htoken
      cases hbefore : s.sessions.table.lookup token with
      | some before =>
        rw [hbefore] at hfound
        exact .inl hfound
      | none =>
        rw [hbefore] at hfound
        cases hfound
        exact .inr ⟨rfl, hexpires⟩
    · exact .inl hfound

/-- A session that is there after a login has been opened by it or was there before; then
it is not the one that had to go. -/
theorem login_entry (path : Bytes)
    (h : LoginServed s now remoteAddress request trace s' outcome)
    (hfound : s'.sessions.table.lookup token = some session) :
    Opened s now token session trace outcome ∨
      s.sessions.table.lookup token = some session ∧
        ¬ EvictedByLogin s request path trace token := by
  cases h with
  | foreign =>
    refine .inr ⟨hfound, ?_⟩
    rintro ⟨-, -, -, ⟨username, password, hverified⟩, -⟩
    cases hverified
  | blocked =>
    refine .inr ⟨hfound, ?_⟩
    rintro ⟨-, -, -, ⟨username, password, hverified⟩, -⟩
    cases hverified
  | malformed =>
    refine .inr ⟨hfound, ?_⟩
    rintro ⟨-, -, -, ⟨username, password, hverified⟩, -⟩
    cases hverified
  | rejected _ exec =>
    obtain ⟨-, ⟨-, rfl, rfl⟩ | ⟨-, evicted, rfl, rfl⟩⟩ := exec_rejectLogin exec
    · refine .inr ⟨hfound, ?_⟩
      rintro ⟨-, -, -, ⟨username, password, hverified⟩, -⟩
      cases List.mem_singleton.mp hverified
    · refine .inr ⟨hfound, ?_⟩
      rintro ⟨-, -, -, ⟨username, password, hverified⟩, -⟩
      obtain heq | hrest := List.mem_cons.mp hverified
      · cases heq
      · cases List.mem_singleton.mp hrest
  | accepted _ exec =>
    obtain ⟨first, rest, s₁, rfl, hadmits, hopened⟩ := exec_acceptLogin exec
    have htls : s₁.tlsEnabled = s.tlsEnabled := by cases hadmits <;> rfl
    obtain hfound₁ | ⟨houtcome, hexpires⟩ := openSession_entry hopened hfound
    swap
    · rw [htls] at houtcome
      exact .inl ⟨⟨_, _, List.mem_cons_self⟩, houtcome, hexpires⟩
    refine .inr ?_
    cases hadmits with
    | room room =>
      exact ⟨hfound₁, fun hevicted => absurd hevicted.2.2.1 (Nat.not_le.mpr room)⟩
    | evicted full evicted =>
      obtain ⟨hother, hbefore⟩ := Sessions.lookup_erase.mp hfound₁
      refine ⟨hbefore, ?_⟩
      rintro ⟨-, -, -, -, keys, evicted', rfl, hact⟩
      obtain heq | hact := List.mem_cons.mp hact
      · cases heq
      obtain heq | hact := List.mem_cons.mp hact
      · cases heq
        exact hother rfl
      · cases openSession_only.trace hopened _ hact

end Logins

section Visit

variable {v : Visit} {token : Bytes} {session : Session}

/-- A token that is there after a visit that removes it has been issued by the same. -/
theorem Visit.Handled.removes (h : v.Handled) (hremoves : v.Removes token)
    (hfound : v.after.sessions.table.lookup token = some session) :
    ∃ request, v.LogsIn request ∧
      Opened (v.before.cleaned v.now) v.now token session v.trace v.outcome := by
  have hclean := clean_cleaned v.before v.now
  cases hremoves with
  | @loggedOut request read isMethod own ok =>
    obtain ⟨response, houtcome, hok⟩ := ok
    have hrouted := h.routed read
    have hnotGet : isGet request = false := by
      rw [isGet, isMethod]
      decide
    rw [route_session, sessionRoute, hnotGet, isMethod, if_neg (by decide +kernel),
      if_neg Bool.false_ne_true, if_pos rfl, houtcome] at hrouted
    rw [← own, logout_removes hclean hrouted hok] at hfound
    cases hfound
  | revoked read isMethod other ok =>
    obtain ⟨response, houtcome, hok⟩ := ok
    have hrouted := h.routed read
    rw [route_revokeOthers isMethod, houtcome] at hrouted
    rw [revokeOthers_removes hclean hrouted hok other] at hfound
    cases hfound
  | passwordChanged read isMethod ok =>
    obtain ⟨response, houtcome, hok⟩ := ok
    have hrouted := h.routed read
    rw [route_password isMethod, houtcome] at hrouted
    rw [password_removes hclean hrouted hok, lookup_clear] at hfound
    cases hfound
  | tlsReplaced read isMethod ok =>
    obtain ⟨response, houtcome, hok⟩ := ok
    have hrouted := h.routed read
    rw [route_tls, houtcome] at hrouted
    rw [tls_removes hclean isMethod hrouted hok, lookup_clear] at hfound
    cases hfound
  | @evicted request path read evicted =>
    obtain rfl := evicted.1
    have hlogin : v.LogsIn request := ⟨read, evicted.2.1⟩
    obtain hopened | ⟨-, hkept⟩ := login_entry _ (h.loginServed hlogin) hfound
    · exact ⟨request, hlogin, hopened⟩
    · exact absurd evicted hkept

/-- What has become of the session with a token in one visit. -/
inductive Passes (v : Visit) (token : Bytes) (session : Session) : Prop
  | opened (issues : v.Issues token) (expires : session.expiresAt = v.now + kSessionLifetime)
  | refreshed {before : Session} (found : v.before.sessions.table.lookup token = some before)
      (uses : v.Uses token) (live : v.now < before.expiresAt)
      (expires : session.expiresAt = v.now + kSessionLifetime)
  | kept (found : v.before.sessions.table.lookup token = some session)

theorem Opened.passes {request : ParsedRequest} (hlogin : v.LogsIn request)
    (h : Opened (v.before.cleaned v.now) v.now token session v.trace v.outcome) :
    Passes v token session :=
  .opened ⟨⟨request, hlogin⟩, h.1, session.csrfToken, h.2.1⟩ h.2.2

theorem Visit.Handled.passes (h : v.Handled)
    (hfound : v.after.sessions.table.lookup token = some session) : Passes v token session := by
  cases hread : readClient v.received with
  | error response =>
    rw [(h.unread hread).2.1] at hfound
    exact .kept hfound
  | ok parsed =>
    obtain ⟨request, path⟩ := parsed
    have hserved := h.served hread
    generalize hafter : v.after = s' at hserved hfound
    generalize htrace : v.trace = trace at hserved
    generalize houtcome : v.outcome = outcome at hserved
    cases hserved with
    | shown => exact .kept (lookup_cleaned.mp hfound).1
    | used granted refreshing =>
      obtain ⟨-, hsame⟩ | ⟨hown, before, hbefore, rfl⟩ := Sessions.lookup_refresh.mp hfound
      · exact .kept (lookup_cleaned.mp hsame).1
      · obtain ⟨hbefore, hlive⟩ := lookup_cleaned.mp hbefore
        have hcookie := granted.cookie.trans hown.symm
        exact .refreshed hbefore
          ⟨⟨before, hbefore, hlive⟩, request, path, hread, hcookie, refreshing⟩ hlive rfl
    | tlsReplaced => cases hfound
    | passwordTried => exact .kept (lookup_cleaned.mp hfound).1
    | passwordChanged => cases hfound
    | loggedOut => exact .kept (lookup_cleaned.mp (Sessions.lookup_erase.mp hfound).2).1
    | othersRevoked =>
      exact .kept (lookup_cleaned.mp (Sessions.lookup_retainOnly.mp hfound).2).1
    | login isPath isMethod exec =>
      subst isPath hafter htrace houtcome
      have hlogin : v.LogsIn request := ⟨hread, isMethod⟩
      obtain hopened | ⟨hkept, -⟩ :=
        login_entry (ascii "/api/v1/session") (h.loginServed hlogin) hfound
      · exact hopened.passes hlogin
      · exact .kept (lookup_cleaned.mp hkept).1

end Visit

/-! ### Runs -/

/-- There is never one more session than allowed. -/
theorem Served.size_le {s s' : HttpServer} {now : Nanoseconds} {remoteAddress path : Bytes}
    {request : ParsedRequest} {trace : Trace webCalls} {outcome : Outcome}
    (h : Served s now remoteAddress request path trace s' outcome)
    (hbefore : s.sessions.table.size ≤ kMaxSessions) :
    s'.sessions.table.size ≤ kMaxSessions := by
  cases h with
  | shown => exact hbefore
  | used => exact Nat.le_trans (Nat.le_of_eq (Table.size_modify _)) hbefore
  | tlsReplaced => exact Nat.zero_le _
  | passwordTried => exact hbefore
  | passwordChanged => exact Nat.zero_le _
  | loggedOut => exact Nat.le_trans Table.size_erase_le hbefore
  | othersRevoked => exact Nat.le_trans (Table.size_filter_le _) hbefore
  | login _ _ exec =>
    cases login_served exec with
    | foreign => exact hbefore
    | blocked => exact hbefore
    | malformed => exact hbefore
    | rejected _ exec =>
      obtain ⟨-, ⟨-, -, rfl⟩ | ⟨-, evicted, -, rfl⟩⟩ := exec_rejectLogin exec
      · exact hbefore
      · exact hbefore
    | accepted _ exec =>
      obtain ⟨first, rest, s₁, -, hadmits, hopened⟩ := exec_acceptLogin exec
      have hroom : s₁.sessions.table.size < kMaxSessions := by
        cases hadmits with
        | room room => exact room
        | evicted _ evicted =>
          exact Nat.lt_of_lt_of_le (Table.size_erase_lt (AList.mem_keys.mpr evicted.2)) hbefore
      obtain heq | ⟨token, session, issued, -, -, heq⟩ := openSession_returns.exec hopened
      · cases heq
        exact Nat.le_of_lt hroom
      · cases heq
        exact Nat.le_trans (Sessions.size_emplace_le issued) hroom

theorem Visit.Handled.size_le {v : Visit} (h : v.Handled)
    (hbefore : v.before.sessions.table.size ≤ kMaxSessions) :
    v.after.sessions.table.size ≤ kMaxSessions := by
  cases hread : readClient v.received with
  | error response => rwa [(h.unread hread).2.1]
  | ok parsed => exact (h.served hread).size_le (Nat.le_trans (Table.size_filter_le _) hbefore)

/-- No session outlives the last use of its token by more than its lifetime. -/
structure Accounted (visits : List Visit) (s : HttpServer) : Prop where
  size_le : s.sessions.table.size ≤ kMaxSessions
  alive : ∀ token session, s.sessions.table.lookup token = some session →
    ∃ last, Alive token visits last ∧ session.expiresAt = last + kSessionLifetime

theorem Accounted.next {visits : List Visit} {v : Visit} (h : Accounted visits v.before)
    (hv : v.Handled) : Accounted (visits ++ [v]) v.after where
  size_le := hv.size_le h.size_le
  alive token session hfound := by
    by_cases hremoves : v.Removes token
    · obtain ⟨request, hlogin, hopened⟩ := hv.removes hremoves hfound
      exact ⟨v.now, .issued ⟨⟨request, hlogin⟩, hopened.1, _, hopened.2.1⟩, hopened.2.2⟩
    · cases hv.passes hfound with
      | opened issues expires => exact ⟨v.now, .issued issues, expires⟩
      | refreshed found uses live expires =>
        obtain ⟨last, halive, hlast⟩ := h.alive token _ found
        have hgap : v.now - last < kSessionLifetime := by
          rw [hlast] at live
          exact Int.sub_left_lt_of_lt_add live
        exact ⟨v.now, .used halive hremoves uses hgap, expires⟩
      | kept found =>
        obtain ⟨last, halive, hlast⟩ := h.alive token session found
        exact ⟨last, .unused halive hremoves, hlast⟩

/-- In every run there are at most 64 sessions, and a token that is accepted has been issued
by a login, has been used often enough, and has not been removed. -/
theorem session_lifetime {s s' : HttpServer} {visits : List Visit} (h : Serves s visits s') :
    s'.sessions.table.size ≤ kMaxSessions ∧
      ∀ token t, s'.accepts token t →
        ∃ last, Alive token visits last ∧ t - last < kSessionLifetime := by
  have haccounted : Accounted visits s' :=
    h.invariant ⟨Nat.zero_le _, fun _ _ hfound => by cases hfound⟩
      fun _ _ hvisits _ hv => hvisits.next hv
  refine ⟨haccounted.size_le, fun token t ⟨session, hfound, hlive⟩ => ?_⟩
  obtain ⟨last, halive, hlast⟩ := haccounted.alive token session hfound
  rw [hlast] at hlive
  exact ⟨last, halive, Int.sub_left_lt_of_lt_add hlive⟩

/-! ### A session -/

/-- The random numbers of the first session. -/
def zeros : Vector UInt8 32 := .replicate 32 0

def firstSession : Session := ⟨randomHex zeros, ascii "10.0.0.1", kSessionLifetime⟩

theorem firstSession_issued : randomHex zeros ≠ [] ∧ firstSession.csrfToken ≠ [] :=
  ⟨randomHex_ne_nil zeros (by decide), randomHex_ne_nil zeros (by decide)⟩

def firstLogin : Visit where
  before := emptyServer.started
  now := 0
  remoteAddress := ascii "10.0.0.1"
  received := [loginBytes]
  trace := [⟨.verifyPassword (ascii "a") (ascii "b"), (true : Bool)⟩,
    ⟨.randomBytes 32, some zeros⟩, ⟨.randomBytes 32, some zeros⟩]
  outcome := .response (sendJson 200 (sessionJson (randomHex zeros))
    (sessionCookieHeader (randomHex zeros) true ++ noStore))
  after :=
    let s := emptyServer.started.cleaned 0
    { s with
      sessions := s.sessions.emplace (randomHex zeros) firstSession firstSession_issued
      loginFailures := s.loginFailures.erase (ascii "10.0.0.1") }

theorem firstLogin_handled : firstLogin.Handled := by
  refine exec_loginBytes rfl rfl ?_
  rw [if_pos rfl, acceptLogin, if_neg (by decide)]
  apply Prog.Exec.call
  apply Prog.Exec.call
  exact .done _

/-- The token of the first login is accepted, and alive. -/
theorem firstLogin_alive :
    ∃ last, Alive (randomHex zeros) [firstLogin] last ∧ 1 - last < kSessionLifetime := by
  have hserves : Serves emptyServer [firstLogin] firstLogin.after :=
    .next .start (List.forall_mem_nil _) firstLogin_handled
  have hlookup : firstLogin.after.sessions.table.lookup (randomHex zeros) = some firstSession :=
    (Sessions.lookup_emplace firstSession_issued).trans (if_pos rfl)
  exact (session_lifetime hserves).2 _ 1 ⟨firstSession, hlookup, by decide⟩

end Uhf.Web

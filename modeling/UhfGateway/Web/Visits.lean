/-
Runs of the web server.

The connections are served by threads of their own, but a request holds the mutex of the
server while it is answered.  A run is therefore a list of visits, each of which finds the
server as the one before has left it, at times that do not decrease.

* `Serves` — the runs, and `Serves.invariant`, the rule for them;
* `route_session` — where the requests about sessions go.
-/
import UhfGateway.Web.Gating

namespace Uhf.Web

open Acquisition Effects Containers

/-- A request that has been received, and what became of it. -/
structure Visit where
  before : HttpServer
  now : Nanoseconds
  remoteAddress : Bytes
  received : List Bytes
  trace : Trace webCalls
  outcome : Outcome
  after : HttpServer

namespace Visit

def Handled (v : Visit) : Prop :=
  (handleClient v.before v.now v.remoteAddress v.received).Exec v.trace (v.after, v.outcome)

/-- The visitor wants to log in. -/
structure LogsIn (v : Visit) (request : ParsedRequest) : Prop where
  read : readClient v.received = .ok (request, ascii "/api/v1/session")
  isMethod : request.method = ascii "POST"

/-- The visit has been answered. -/
def Answered (v : Visit) (status : ℕ) : Prop :=
  ∃ response, v.outcome = .response response ∧ response.status = status

end Visit

/-- Nobody has been here yet. -/
def HttpServer.started (s : HttpServer) : HttpServer :=
  { s with sessions := .clear, loginFailures := ∅ }

inductive Serves (s : HttpServer) : List Visit → HttpServer → Prop
  | start : Serves s [] s.started
  | next {visits : List Visit} {v : Visit} (h : Serves s visits v.before)
      (later : ∀ u ∈ visits, u.now ≤ v.now) (handled : v.Handled) :
      Serves s (visits ++ [v]) v.after

section Serves

variable {s s' : HttpServer} {visits : List Visit}

/-- What every visit keeps holds throughout. -/
theorem Serves.invariant {Inv : List Visit → HttpServer → Prop} (initial : Inv [] s.started)
    (preserved : ∀ visits v, Inv visits v.before → (∀ u ∈ visits, u.now ≤ v.now) → v.Handled →
      Inv (visits ++ [v]) v.after)
    (h : Serves s visits s') : Inv visits s' := by
  induction h with
  | start => exact initial
  | next _ later handled ih => exact preserved _ _ ih later handled

/-- Every visit of a run comes after a run of its own. -/
theorem Serves.upTo {before after : List Visit} {v : Visit}
    (h : Serves s (before ++ v :: after) s') :
    Serves s before v.before ∧ (∀ u ∈ before, u.now ≤ v.now) ∧ v.Handled := by
  generalize hvisits : before ++ v :: after = visits at h
  induction h generalizing after with
  | start => exact absurd hvisits (by simp)
  | @next visits u h later handled ih =>
    rcases List.eq_nil_or_concat after with rfl | ⟨rest, last, rfl⟩
    · obtain ⟨rfl, hlast⟩ := List.append_inj' hvisits rfl
      obtain rfl := List.singleton_inj.mp hlast
      exact ⟨h, later, handled⟩
    · rw [List.concat_eq_append, ← List.cons_append, ← List.append_assoc] at hvisits
      exact ih (List.append_inj' hvisits rfl).1

end Serves

section Routes

variable {s : HttpServer} {now : Nanoseconds} {remoteAddress : Bytes} {request : ParsedRequest}

theorem route_session : route s now remoteAddress request (ascii "/api/v1/session") =
    sessionRoute s now remoteAddress request := by
  rw [route]
  iterate 15 rw [if_neg (by decide +kernel)]
  rw [if_pos rfl]

/-- A request that has been read is answered by the server after the clean-up. -/
theorem Visit.Handled.routed {v : Visit} {path : Bytes} (h : v.Handled)
    (hread : readClient v.received = .ok (request, path)) :
    (route (v.before.cleaned v.now) v.now v.remoteAddress request path).Exec v.trace
      (v.after, v.outcome) := by
  rw [Visit.Handled, handleClient, hread] at h
  exact h

theorem Visit.Handled.served {v : Visit} {path : Bytes} (h : v.Handled)
    (hread : readClient v.received = .ok (request, path)) :
    Served (v.before.cleaned v.now) v.now v.remoteAddress request path v.trace v.after
      v.outcome :=
  route_served (clean_cleaned v.before v.now) (h.routed hread)

/-- All others have been answered before the server is looked at. -/
theorem Visit.Handled.unread {v : Visit} {response : Response} (h : v.Handled)
    (hread : readClient v.received = .error response) :
    v.trace = [] ∧ v.after = v.before ∧ v.outcome = .response response := by
  rw [Visit.Handled, handleClient, hread] at h
  exact exec_reply h

theorem Visit.Handled.loginServed {v : Visit} (h : v.Handled) (hlogin : v.LogsIn request) :
    LoginServed (v.before.cleaned v.now) v.now v.remoteAddress request v.trace v.after
      v.outcome := by
  have hrouted := h.routed hlogin.read
  rw [route_session, sessionRoute, if_pos hlogin.isMethod] at hrouted
  exact login_served hrouted

end Routes

/-! ### A login -/

def emptyServer : HttpServer where
  documentRoot := ascii "/srv"

def loginBytes : Bytes :=
  ascii "POST /api/v1/session HTTP/1.1" ++ crlf ++ ascii "Host: h" ++ crlf ++
    ascii "Origin: https://h" ++ crlf ++ ascii "Content-Length: 31" ++ crlf ++ crlf ++
    ascii "\x7b\"username\":\"a\",\"password\":\"b\"\x7d"

def loginRequest : ParsedRequest where
  method := ascii "POST"
  target := ascii "/api/v1/session"
  version := ascii "HTTP/1.1"
  headers := [(ascii "content-length", ascii "31"), (ascii "origin", ascii "https://h"),
    (ascii "host", ascii "h")]
  body := ascii "\x7b\"username\":\"a\",\"password\":\"b\"\x7d"

theorem readClient_loginBytes :
    readClient [loginBytes] = .ok (loginRequest, ascii "/api/v1/session") :=
  readClient_eq_ok (by decide +kernel)

/-- With TLS the login is of the same origin, and the password decides. -/
theorem handleClient_loginBytes {s : HttpServer} (now : Nanoseconds) (remoteAddress : Bytes)
    (htls : s.tlsEnabled = true) : handleClient s now remoteAddress [loginBytes] =
      if blocked s now remoteAddress then
        reply (s.cleaned now) (sendError 429 (ascii "too many login attempts")
          (ascii "Retry-After: 30" ++ crlf ++ noStore))
      else
        .call (.verifyPassword (ascii "a") (ascii "b")) fun (verified : Bool) =>
          if verified then acceptLogin (s.cleaned now) now remoteAddress
          else rejectLogin (s.cleaned now) now remoteAddress := by
  have horigin : sameOrigin (s.cleaned now) loginRequest = true := by
    rw [sameOrigin, show (s.cleaned now).tlsEnabled = true from htls]
    decide +kernel
  have husername : jsonStringField loginRequest.body "username" kMaxPasswordJsonBytes =
      some (ascii "a") := by decide +kernel
  have hpassword : jsonStringField loginRequest.body "password" kMaxPasswordJsonBytes =
      some (ascii "b") := by decide +kernel
  have hpost : loginRequest.method = ascii "POST" := rfl
  rw [handleClient, readClient_loginBytes]
  show route (s.cleaned now) now remoteAddress loginRequest (ascii "/api/v1/session") = _
  rw [route_session, sessionRoute, if_pos hpost, login, horigin, if_neg (by decide), husername,
    hpassword]
  rfl

theorem exec_loginBytes {s : HttpServer} {now : Nanoseconds} {remoteAddress : Bytes}
    {verified : Bool} {rest : Trace webCalls} {r : HttpServer × Outcome}
    (htls : s.tlsEnabled = true) (hopen : blocked s now remoteAddress = false)
    (h : (if verified then acceptLogin (s.cleaned now) now remoteAddress
      else rejectLogin (s.cleaned now) now remoteAddress).Exec rest r) :
    (handleClient s now remoteAddress [loginBytes]).Exec
      (⟨.verifyPassword (ascii "a") (ascii "b"), (verified : Bool)⟩ :: rest) r := by
  rw [handleClient_loginBytes now remoteAddress htls, hopen, if_neg Bool.false_ne_true]
  apply Prog.Exec.call
  exact h

end Uhf.Web

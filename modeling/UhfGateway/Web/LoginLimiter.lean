/-
The login limiter.

Five failed logins in a minute block an address for half a minute.  The records of all
addresses share one table of 64; a new address that finds it full takes the place of
another, whether that one is blocked or not.

* `throttleAll` — the limiter of a single address that has a table of its own;
* `throttling_isolated` — that is what the address sees as long as its record is not taken
  away from it while it counts;
* `throttling_undone` — what happens otherwise.
-/
import UhfGateway.Web.Visits

namespace Uhf.Web

open Acquisition Effects Containers

/-! ### One address -/

namespace LoginFailures

/-- The block and the window of the record are over. -/
def Stale (failures : LoginFailures) (now : Nanoseconds) : Prop :=
  failures.blockedUntil ≤ now ∧
    (failures.windowStarted = 0 ∨ kLoginFailureWindow ≤ now - failures.windowStarted)

variable {failures : LoginFailures} {now now' : Nanoseconds}

theorem Stale.later (h : failures.Stale now) (hle : now ≤ now') : failures.Stale now' :=
  ⟨Int.le_trans h.1 hle,
    h.2.imp_right fun hwindow => Int.le_trans hwindow (Int.sub_le_sub_right hle _)⟩

/-- A stale record counts no more than none. -/
theorem Stale.fail (h : failures.Stale now) :
    failures.fail now = ({} : LoginFailures).fail now := by
  rw [LoginFailures.fail, if_pos h.2]
  rfl

/-- A failure in the window of an earlier one. -/
theorem fail_in_window (hstarted : failures.windowStarted ≠ 0)
    (hwindow : now - failures.windowStarted < kLoginFailureWindow) (hcount : failures.count < 4) :
    failures.fail now = { failures with count := failures.count + 1 } := by
  have hopen : ¬ (failures.windowStarted = 0 ∨
      kLoginFailureWindow ≤ now - failures.windowStarted) :=
    not_or.mpr ⟨hstarted, Int.not_le.mpr hwindow⟩
  rw [LoginFailures.fail, if_neg hopen, if_neg (by omega)]

/-- Five failures in the window of the first one block. -/
theorem five_failures {t₁ t₂ t₃ t₄ t₅ : Nanoseconds} (hstarted : t₁ ≠ 0)
    (h₂ : t₂ - t₁ < kLoginFailureWindow) (h₃ : t₃ - t₁ < kLoginFailureWindow)
    (h₄ : t₄ - t₁ < kLoginFailureWindow) (h₅ : t₅ - t₁ < kLoginFailureWindow) :
    [t₁, t₂, t₃, t₄, t₅].foldl fail {} = ⟨0, t₁, t₅ + kLoginBlockTime⟩ := by
  have hfirst : ({} : LoginFailures).fail t₁ = ⟨1, t₁, 0⟩ := rfl
  have hopen : ¬ (t₁ = 0 ∨ kLoginFailureWindow ≤ t₅ - t₁) :=
    not_or.mpr ⟨hstarted, Int.not_le.mpr h₅⟩
  have hcounts : ∀ n t, t - t₁ < kLoginFailureWindow → n < 4 →
      (⟨n, t₁, 0⟩ : LoginFailures).fail t = ⟨n + 1, t₁, 0⟩ :=
    fun _ _ hwindow hcount => fail_in_window hstarted hwindow hcount
  rw [List.foldl_cons, hfirst, List.foldl_cons, hcounts 1 t₂ h₂ (by decide), List.foldl_cons,
    hcounts 2 t₃ h₃ (by decide), List.foldl_cons, hcounts 3 t₄ h₄ (by decide), List.foldl_cons,
    List.foldl_nil, LoginFailures.fail, if_neg hopen]
  rfl

end LoginFailures

/-- A login as the limiter of its address sees it: when it comes, its bytes, and what the
password check says of it if it is asked. -/
structure Attempt where
  now : Nanoseconds
  received : List Bytes
  verify : Bytes → Bytes → Bool

/-- The record of an address after a login of its own, and whether that is refused. -/
def throttle (s : HttpServer) (record : Option LoginFailures) (attempt : Attempt) :
    Option LoginFailures × Bool :=
  match readClient attempt.received with
  | .error _ => (record, false)
  | .ok (request, _) =>
    if !sameOrigin s request then (record, false)
    else if record.any fun failures => attempt.now < failures.blockedUntil then (record, true)
    else
      match jsonStringField request.body "username" kMaxPasswordJsonBytes,
        jsonStringField request.body "password" kMaxPasswordJsonBytes with
      | some username, some password =>
        if attempt.verify username password then (none, false)
        else (some ((record.getD {}).fail attempt.now), false)
      | _, _ => (record, false)

/-- The record after all logins of an address, and which of them are refused. -/
def throttleAll (s : HttpServer) (attempts : List Attempt) : Option LoginFailures × List Bool :=
  attempts.foldl (fun (record, refusals) attempt =>
    ((throttle s record attempt).1, refusals ++ [(throttle s record attempt).2])) (none, [])

theorem throttleAll_append (s : HttpServer) (attempts : List Attempt) (attempt : Attempt) :
    throttleAll s (attempts ++ [attempt]) =
      ((throttle s (throttleAll s attempts).1 attempt).1,
        (throttleAll s attempts).2 ++ [(throttle s (throttleAll s attempts).1 attempt).2]) := by
  rw [throttleAll, List.foldl_append]
  rfl

/-- Two records that will never make a difference. -/
def Agrees (record own : Option LoginFailures) (now : Nanoseconds) : Prop :=
  record = own ∨ record = none ∧ ∃ failures, own = some failures ∧ failures.Stale now

theorem Agrees.throttle (s : HttpServer) (attempt : Attempt) {record own : Option LoginFailures}
    (h : Agrees record own attempt.now) :
    (throttle s record attempt).2 = (throttle s own attempt).2 ∧
      ∀ t, attempt.now ≤ t → Agrees (throttle s record attempt).1 (throttle s own attempt).1 t := by
  obtain rfl | ⟨rfl, failures, rfl, hstale⟩ := h
  · exact ⟨rfl, fun _ _ => .inl rfl⟩
  have hopen : ((some failures).any fun failures => attempt.now < failures.blockedUntil) = false :=
    decide_eq_false (Int.not_lt.mpr hstale.1)
  have hkept : ∀ t, attempt.now ≤ t → Agrees none (some failures) t :=
    fun t ht => .inr ⟨rfl, failures, rfl, hstale.later ht⟩
  rw [Web.throttle, Web.throttle]
  split
  · exact ⟨rfl, hkept⟩
  simp only [hopen, Option.any_none, Bool.false_eq_true, if_false]
  split_ifs
  · exact ⟨rfl, hkept⟩
  split
  · split_ifs
    · exact ⟨rfl, fun _ _ => .inl rfl⟩
    · exact ⟨rfl, fun _ _ => .inl (congrArg some hstale.fail.symm)⟩
  · exact ⟨rfl, hkept⟩

/-! ### Visits -/

/-- Too many failed logins have come from the address. -/
def Outcome.refused : Outcome → Bool
  | .response answer => answer.status = 429
  | _ => false

namespace Visit

def isLogin (v : Visit) : Bool :=
  match readClient v.received with
  | .error _ => false
  | .ok (request, path) => path = ascii "/api/v1/session" && request.method = ascii "POST"

theorem isLogin_iff {v : Visit} : v.isLogin = true ↔ ∃ request, v.LogsIn request := by
  rw [isLogin]
  constructor
  · intro h
    split at h
    · cases h
    · next request path hread =>
      obtain ⟨hpath, hmethod⟩ := Bool.and_eq_true_iff.mp h
      obtain rfl := of_decide_eq_true hpath
      exact ⟨request, hread, of_decide_eq_true hmethod⟩
  · rintro ⟨request, hlogin⟩
    rw [hlogin.read]
    exact Bool.and_eq_true_iff.mpr ⟨rfl, decide_eq_true hlogin.isMethod⟩

/-- A failed login from elsewhere takes the place of the record of an address, which is not
stale yet. -/
structure Evicts (v : Visit) (address : Bytes) : Prop where
  login : ∃ request, v.LogsIn request
  failed : ∃ username password, ⟨.verifyPassword username password, (false : Bool)⟩ ∈ v.trace
  full : ¬ HasRoom v.before v.remoteAddress
  counting : ∃ failures, v.before.loginFailures.lookup address = some failures ∧
    ¬ failures.Stale v.now
  evicted : ∃ keys, ∃ evicted : {key // key ∈ keys}, evicted.1 = address ∧
    (⟨WebCall.first keys, evicted⟩ : Act webCalls) ∈ v.trace

/-- What the password check has said is what `verify` says. -/
def Consults (v : Visit) (verify : Bytes → Bytes → Bool) : Prop :=
  ∀ username password verified,
    (⟨.verifyPassword username password, verified⟩ : Act webCalls) ∈ v.trace →
      verified = verify username password

end Visit

section Records

variable {s s' : HttpServer} {now : Nanoseconds} {remoteAddress address : Bytes}
  {request : ParsedRequest} {path : Bytes} {trace : Trace webCalls} {outcome : Outcome}

theorem openSession_keeps (h : (openSession s now remoteAddress).Exec trace (s', outcome)) :
    s'.loginFailures = s.loginFailures ∧ s'.tlsEnabled = s.tlsEnabled ∧
      outcome.refused = false := by
  obtain heq | ⟨token, session, issued, -, -, heq⟩ := openSession_returns.exec h
  · cases heq
    exact ⟨rfl, rfl, rfl⟩
  · cases heq
    exact ⟨rfl, rfl, rfl⟩

theorem acceptLogin_keeps (h : (acceptLogin s now remoteAddress).Exec trace (s', outcome)) :
    s'.loginFailures = s.loginFailures.erase remoteAddress ∧ s'.tlsEnabled = s.tlsEnabled ∧
      outcome.refused = false := by
  obtain ⟨first, rest, s₁, -, hadmits, hopened⟩ := exec_acceptLogin h
  obtain ⟨hfailures, htls, hrefused⟩ := openSession_keeps hopened
  cases hadmits with
  | room => exact ⟨hfailures, htls, hrefused⟩
  | evicted => exact ⟨hfailures, htls, hrefused⟩

theorem lookup_recordFailure_self {loginFailures : Table Bytes LoginFailures} :
    (recordFailure loginFailures now address).lookup address =
      some (((loginFailures.lookup address).getD {}).fail now) :=
  AList.lookup_insert _

/-- A login counts for its own address as if there were no other. -/
theorem login_own {received : List Bytes} {verify : Bytes → Bytes → Bool}
    (h : (login s now remoteAddress request).Exec trace (s', outcome))
    (hread : readClient received = .ok (request, path))
    (hverify : ∀ username password verified,
      (⟨.verifyPassword username password, verified⟩ : Act webCalls) ∈ trace →
        verified = verify username password) :
    (s'.loginFailures.lookup remoteAddress, outcome.refused) =
      throttle s (s.loginFailures.lookup remoteAddress) ⟨now, received, verify⟩ := by
  rw [login] at h
  rw [throttle, hread]
  simp only
  split_ifs at h ⊢ with horigin hblocked hblocked' hblocked'
  · obtain ⟨-, rfl, rfl⟩ := exec_reply h
    rfl
  · obtain ⟨-, rfl, rfl⟩ := exec_reply h
    rfl
  · exact absurd hblocked hblocked'
  · exact absurd hblocked' hblocked
  cases husername : jsonStringField request.body "username" kMaxPasswordJsonBytes with
  | none =>
    rw [husername] at h
    obtain ⟨-, rfl, rfl⟩ := exec_reply h
    rfl
  | some username =>
  cases hpassword : jsonStringField request.body "password" kMaxPasswordJsonBytes with
  | none =>
    rw [husername, hpassword] at h
    obtain ⟨-, rfl, rfl⟩ := exec_reply h
    rfl
  | some password =>
    rw [husername, hpassword] at h
    obtain ⟨verified, rest, rfl, hrest⟩ := Prog.exec_call.mp h
    simp only
    rw [← hverify username password verified List.mem_cons_self]
    cases verified with
    | false =>
      rw [if_neg Bool.false_ne_true]
      obtain ⟨rfl, ⟨-, -, rfl⟩ | ⟨hfull, evicted, -, rfl⟩⟩ := exec_rejectLogin hrest
      · rw [lookup_recordFailure_self]
        rfl
      · -- the address itself has no record that could be evicted
        have hmem : remoteAddress ∉ s.loginFailures := fun hmem => hfull (.inl hmem)
        have hother : remoteAddress ≠ evicted.1 := by
          intro heq
          exact hmem (heq ▸ AList.mem_keys.mpr evicted.2)
        rw [lookup_recordFailure_self, AList.lookup_erase_ne hother]
        rfl
    | true =>
      obtain ⟨hfailures, -, hrefused⟩ := acceptLogin_keeps hrest
      rw [if_pos rfl, hfailures, hrefused, AList.lookup_erase]

/-- A blocked address is refused, and the password is not looked at. -/
theorem LoginServed.of_blocked (h : LoginServed s now remoteAddress request trace s' outcome)
    {failures : LoginFailures} (hfound : s.loginFailures.lookup remoteAddress = some failures)
    (hblocked : now < failures.blockedUntil) :
    s' = s ∧ trace = [] ∧ (sameOrigin s request = true →
      ∃ response, outcome = .response response ∧ response.status = 429) := by
  have hisBlocked : Web.blocked s now remoteAddress = true := by
    rw [Web.blocked, hfound]
    exact decide_eq_true hblocked
  cases h with
  | foreign hforeign =>
    exact ⟨rfl, rfl, fun horigin => absurd (hforeign.symm.trans horigin) Bool.false_ne_true⟩
  | blocked _ hrefused => exact ⟨rfl, rfl, fun _ => ⟨_, rfl, hrefused⟩⟩
  | malformed hopen => exact absurd (hopen.symm.trans hisBlocked) Bool.false_ne_true
  | rejected hopen => exact absurd (hopen.symm.trans hisBlocked) Bool.false_ne_true
  | accepted hopen => exact absurd (hopen.symm.trans hisBlocked) Bool.false_ne_true

/-- A login leaves the record of another address alone, or evicts it. -/
theorem login_other (h : LoginServed s now remoteAddress request trace s' outcome)
    (hother : address ≠ remoteAddress) :
    s'.loginFailures.lookup address = s.loginFailures.lookup address ∨
      s'.loginFailures.lookup address = none ∧ ¬ HasRoom s remoteAddress ∧
        (∃ username password, ⟨.verifyPassword username password, (false : Bool)⟩ ∈ trace) ∧
        ∃ keys, ∃ evicted : {key // key ∈ keys}, evicted.1 = address ∧
          (⟨WebCall.first keys, evicted⟩ : Act webCalls) ∈ trace := by
  cases h with
  | foreign => exact .inl rfl
  | blocked => exact .inl rfl
  | malformed => exact .inl rfl
  | rejected _ exec =>
    obtain ⟨-, ⟨-, -, rfl⟩ | ⟨hfull, evicted, rfl, rfl⟩⟩ := exec_rejectLogin exec
    · exact .inl (AList.lookup_insert_ne hother)
    · have hkept : (recordFailure (s.loginFailures.erase evicted) now remoteAddress).lookup
          address = (s.loginFailures.erase evicted.1).lookup address :=
        AList.lookup_insert_ne hother
      by_cases hevicted : address = evicted.1
      · refine .inr ⟨?_, hfull, ⟨_, _, List.mem_cons_self⟩, _, evicted, hevicted.symm,
          List.mem_cons_of_mem _ List.mem_cons_self⟩
        rw [hkept, hevicted, AList.lookup_erase]
      · rw [hkept, AList.lookup_erase_ne hevicted]
        exact .inl rfl
  | accepted _ exec =>
    rw [(acceptLogin_keeps exec).1, AList.lookup_erase_ne hother]
    exact .inl rfl

theorem Served.keeps (h : Served s now remoteAddress request path trace s' outcome) :
    s'.tlsEnabled = s.tlsEnabled ∧
      (s'.loginFailures = s.loginFailures ∨
        path = ascii "/api/v1/session" ∧ request.method = ascii "POST") := by
  cases h with
  | shown => exact ⟨rfl, .inl rfl⟩
  | used => exact ⟨rfl, .inl rfl⟩
  | tlsReplaced => exact ⟨rfl, .inl rfl⟩
  | passwordTried => exact ⟨rfl, .inl rfl⟩
  | passwordChanged => exact ⟨rfl, .inl rfl⟩
  | loggedOut => exact ⟨rfl, .inl rfl⟩
  | othersRevoked => exact ⟨rfl, .inl rfl⟩
  | login isPath isMethod exec =>
    refine ⟨?_, .inr ⟨isPath, isMethod⟩⟩
    cases login_served exec with
    | foreign => rfl
    | blocked => rfl
    | malformed => rfl
    | rejected _ exec =>
      obtain ⟨-, ⟨-, -, rfl⟩ | ⟨-, evicted, -, rfl⟩⟩ := exec_rejectLogin exec
      · rfl
      · rfl
    | accepted _ exec => exact (acceptLogin_keeps exec).2.1

end Records

/-! ### Runs -/

section Visit

variable {v : Visit} {address : Bytes}

theorem throttle_congr {s s' : HttpServer} (htls : s.tlsEnabled = s'.tlsEnabled)
    (record : Option LoginFailures) (attempt : Attempt) :
    throttle s record attempt = throttle s' record attempt := by
  have horigin : sameOrigin s = sameOrigin s' := by
    funext request
    rw [sameOrigin, sameOrigin, htls]
  rw [throttle, throttle, horigin]

theorem Visit.Handled.tlsEnabled_eq (h : v.Handled) : v.after.tlsEnabled = v.before.tlsEnabled := by
  cases hread : readClient v.received with
  | error response => rw [(h.unread hread).2.1]
  | ok parsed => exact (h.served hread).keeps.1

theorem Visit.Handled.own_record {verify : Bytes → Bytes → Bool} (h : v.Handled)
    (hlogin : v.isLogin = true) (hverify : v.Consults verify) :
    (v.after.loginFailures.lookup v.remoteAddress, v.outcome.refused) =
      throttle v.before (v.before.loginFailures.lookup v.remoteAddress)
        ⟨v.now, v.received, verify⟩ := by
  obtain ⟨request, hlogin⟩ := Visit.isLogin_iff.mp hlogin
  have hrouted := h.routed hlogin.read
  rw [route_session, sessionRoute, if_pos hlogin.isMethod] at hrouted
  exact (login_own hrouted hlogin.read hverify).trans (throttle_congr rfl _ _)

/-- What is not a login of an address leaves its record alone, or evicts it. -/
theorem Visit.Handled.other_record (h : v.Handled)
    (hother : ¬ (v.remoteAddress = address ∧ v.isLogin = true)) :
    v.after.loginFailures.lookup address = v.before.loginFailures.lookup address ∨
      v.after.loginFailures.lookup address = none ∧
        ∀ failures, v.before.loginFailures.lookup address = some failures →
          ¬ failures.Stale v.now → v.Evicts address := by
  by_cases hlogin : v.isLogin = true
  · have haddress : address ≠ v.remoteAddress := fun heq => hother ⟨heq.symm, hlogin⟩
    obtain ⟨request, hlogin⟩ := Visit.isLogin_iff.mp hlogin
    obtain hkept | ⟨hlost, hfull, hfailed, hevicted⟩ :=
      login_other (h.loginServed hlogin) haddress
    · exact .inl hkept
    · exact .inr ⟨hlost, fun failures hfound hcounting =>
        ⟨⟨request, hlogin⟩, hfailed, hfull, ⟨failures, hfound, hcounting⟩, hevicted⟩⟩
  cases hread : readClient v.received with
  | error response =>
    rw [(h.unread hread).2.1]
    exact .inl rfl
  | ok parsed =>
    obtain ⟨request, path⟩ := parsed
    obtain hkept | ⟨rfl, hmethod⟩ := (h.served hread).keeps.2
    · rw [hkept]
      exact .inl rfl
    · exact absurd (Visit.isLogin_iff.mpr ⟨request, hread, hmethod⟩) hlogin

/-- Before the end of the block, a record changes only when it is evicted. -/
theorem Visit.Handled.blocked_record {failures : LoginFailures} (h : v.Handled)
    (hspared : ¬ v.Evicts address)
    (hfound : v.before.loginFailures.lookup address = some failures)
    (hblocked : v.now < failures.blockedUntil) :
    v.after.loginFailures.lookup address = some failures := by
  by_cases hown : v.remoteAddress = address ∧ v.isLogin = true
  · obtain ⟨rfl, hlogin⟩ := hown
    obtain ⟨request, hlogin⟩ := Visit.isLogin_iff.mp hlogin
    rw [((h.loginServed hlogin).of_blocked hfound hblocked).1]
    exact hfound
  · obtain hkept | ⟨-, hevicts⟩ := h.other_record hown
    · rw [hkept, hfound]
    · have hcounting : ¬ failures.Stale v.now := fun hstale => Int.not_le.mpr hblocked hstale.1
      exact absurd (hevicts failures hfound hcounting) hspared

end Visit

/-- The logins of an address. -/
def logins (address : Bytes) (visits : List Visit) : List Visit :=
  visits.filter fun v => v.remoteAddress = address && v.isLogin

/-- The login as its limiter sees it. -/
def Visit.attempt (verify : Visit → Bytes → Bytes → Bool) (v : Visit) : Attempt :=
  ⟨v.now, v.received, verify v⟩

section Runs

variable {s s' : HttpServer} {visits : List Visit} {v : Visit} {address : Bytes}
  {verify : Visit → Bytes → Bytes → Bool}

/-- The address has seen nothing but its own limiter so far, and will not. -/
structure Isolated (s : HttpServer) (address : Bytes) (verify : Visit → Bytes → Bytes → Bool)
    (visits : List Visit) (s' : HttpServer) : Prop where
  tls : s'.tlsEnabled = s.tlsEnabled
  refusals : (logins address visits).map (fun v => v.outcome.refused) =
    (throttleAll s ((logins address visits).map (Visit.attempt verify))).2
  agrees : ∀ t, (∀ u ∈ visits, u.now ≤ t) → Agrees (s'.loginFailures.lookup address)
    (throttleAll s ((logins address visits).map (Visit.attempt verify))).1 t

theorem Isolated.next (h : Isolated s address verify visits v.before)
    (hlater : ∀ u ∈ visits, u.now ≤ v.now) (hv : v.Handled) (hspared : ¬ v.Evicts address)
    (hverify : v.remoteAddress = address → v.isLogin = true → v.Consults (verify v)) :
    Isolated s address verify (visits ++ [v]) v.after := by
  have hagrees := h.agrees v.now hlater
  have htls := hv.tlsEnabled_eq.trans h.tls
  by_cases hown : v.remoteAddress = address ∧ v.isLogin = true
  · have hlogins : logins address (visits ++ [v]) = logins address visits ++ [v] := by
      rw [logins, List.filter_append, logins]
      simp [hown.1, hown.2]
    have hrecord := hv.own_record hown.2 (hverify hown.1 hown.2)
    rw [hown.1, throttle_congr h.tls] at hrecord
    obtain ⟨hrefused, hafter⟩ := Agrees.throttle s (v.attempt verify) hagrees
    refine ⟨htls, ?_, fun t ht => ?_⟩
    · rw [hlogins, List.map_append, List.map_append, List.map_singleton, List.map_singleton,
        throttleAll_append, h.refusals, ← hrefused]
      exact congrArg (fun refused => _ ++ [refused]) (congrArg Prod.snd hrecord)
    · rw [hlogins, List.map_append, List.map_singleton, throttleAll_append]
      have hfirst : v.after.loginFailures.lookup address =
          (throttle s (v.before.loginFailures.lookup address) (v.attempt verify)).1 :=
        congrArg Prod.fst hrecord
      rw [hfirst]
      exact hafter t (ht v (by simp))
  · have hlogins : logins address (visits ++ [v]) = logins address visits := by
      rw [logins, List.filter_append, logins]
      simpa using hown
    refine ⟨htls, by rw [hlogins, h.refusals], fun t ht => ?_⟩
    rw [hlogins]
    have hnow : v.now ≤ t := ht v (by simp)
    obtain hkept | ⟨hlost, hevicts⟩ := hv.other_record hown
    · rw [hkept]
      exact h.agrees t fun u hu => ht u (List.mem_append_left _ hu)
    rw [hlost]
    cases hfound : v.before.loginFailures.lookup address with
    | none =>
      rw [← hfound]
      exact h.agrees t fun u hu => ht u (List.mem_append_left _ hu)
    | some failures =>
      -- only a stale record may have been evicted
      have hstale : failures.Stale v.now := by
        by_contra hcounting
        exact hspared (hevicts failures hfound hcounting)
      rw [hfound] at hagrees
      obtain heq | ⟨hnone, -⟩ := hagrees
      · exact .inr ⟨rfl, failures, heq.symm, hstale.later hnow⟩
      · cases hnone

theorem Serves.isolated (h : Serves s visits s') (hspared : ∀ v ∈ visits, ¬ v.Evicts address)
    (hverify : ∀ v ∈ visits, v.remoteAddress = address → v.isLogin = true →
      v.Consults (verify v)) : Isolated s address verify visits s' := by
  induction h with
  | start => exact ⟨rfl, rfl, fun _ _ => .inl rfl⟩
  | @next visits v _ later handled ih =>
    rw [List.forall_mem_append, List.forall_mem_singleton] at hspared hverify
    exact (ih hspared.1 hverify.1).next later handled hspared.2 hverify.2

/-- A record that blocks its address is there until the end of the block. -/
theorem Serves.blocked_record (h : Serves s visits s')
    (hspared : ∀ v ∈ visits, ¬ v.Evicts address) {u : Visit} (hu : u ∈ visits)
    {failures : LoginFailures} (hfound : u.after.loginFailures.lookup address = some failures)
    {t : Nanoseconds} (ht : ∀ v ∈ visits, v.now ≤ t) (hblocked : t < failures.blockedUntil) :
    s'.loginFailures.lookup address = some failures := by
  induction h generalizing t with
  | start => cases hu
  | @next visits v _ later handled ih =>
    rw [List.forall_mem_append, List.forall_mem_singleton] at hspared ht
    have hnow : v.now < failures.blockedUntil := Int.lt_of_le_of_lt ht.2 hblocked
    obtain hu | hu := List.mem_append.mp hu
    · exact handled.blocked_record hspared.2 (ih hspared.1 hu later hnow) hnow
    · rw [← List.mem_singleton.mp hu]
      exact hfound

end Runs

/-- As long as the record of an address is not evicted while it counts, what becomes of its
logins depends on them alone; and once it is blocked until some time, all of its logins
before that are refused without a look at the password. -/
theorem throttling_isolated {s s' : HttpServer} {visits : List Visit} {address : Bytes}
    {verify : Visit → Bytes → Bytes → Bool} (h : Serves s visits s')
    (hspared : ∀ v ∈ visits, ¬ v.Evicts address)
    (hverify : ∀ v ∈ visits, v.remoteAddress = address → v.isLogin = true →
      v.Consults (verify v)) :
    (logins address visits).map (fun v => v.outcome.refused) =
        (throttleAll s ((logins address visits).map (Visit.attempt verify))).2 ∧
      ∀ before v after u failures request, visits = before ++ v :: after → u ∈ before →
        u.after.loginFailures.lookup address = some failures → v.now < failures.blockedUntil →
          v.LogsIn request → v.remoteAddress = address → sameOrigin v.before request = true →
            v.Answered 429 ∧ v.trace = [] := by
  refine ⟨(h.isolated hspared hverify).refusals, ?_⟩
  rintro before v after u failures request rfl hu hfound hblocked hlogin rfl horigin
  obtain ⟨hbefore, hlater, hv⟩ := h.upTo
  have hspared' : ∀ u ∈ before, ¬ u.Evicts v.remoteAddress :=
    fun u hu => hspared u (List.mem_append_left _ hu)
  have hrecord := hbefore.blocked_record hspared' hu hfound hlater hblocked
  obtain ⟨-, htrace, hrefused⟩ := (hv.loginServed hlogin).of_blocked hrecord hblocked
  exact ⟨hrefused horigin, htrace⟩

/-! ### A crowd -/

/-- A failed login for which there is room. -/
def failedVisit (s : HttpServer) (remoteAddress : Bytes) : Visit where
  before := s
  now := 1
  remoteAddress := remoteAddress
  received := [loginBytes]
  trace := [⟨.verifyPassword (ascii "a") (ascii "b"), (false : Bool)⟩]
  outcome := .response loginRejected
  after := { s.cleaned 1 with loginFailures := recordFailure s.loginFailures 1 remoteAddress }

def failedVisits : HttpServer → List Bytes → List Visit
  | _, [] => []
  | s, remoteAddress :: rest =>
    failedVisit s remoteAddress :: failedVisits (failedVisit s remoteAddress).after rest

def afterFailures (s : HttpServer) (addresses : List Bytes) : HttpServer :=
  addresses.foldl (fun s remoteAddress => (failedVisit s remoteAddress).after) s

/-- None of the addresses is blocked, and there is room for all. -/
def admitted : Table Bytes LoginFailures → List Bytes → Bool
  | _, [] => true
  | loginFailures, remoteAddress :: rest =>
    !((loginFailures.lookup remoteAddress).any fun failures => 1 < failures.blockedUntil) &&
      (remoteAddress ∈ loginFailures || loginFailures.size < kMaxLoginFailureRecords) &&
      admitted (recordFailure loginFailures 1 remoteAddress) rest

theorem failedVisit_handled {s : HttpServer} {remoteAddress : Bytes} (htls : s.tlsEnabled = true)
    (hopen : blocked s 1 remoteAddress = false) (hroom : HasRoom s remoteAddress) :
    (failedVisit s remoteAddress).Handled := by
  refine exec_loginBytes htls hopen ?_
  rw [if_neg Bool.false_ne_true, rejectLogin, if_neg]
  · exact .done _
  · rintro ⟨hnew, hfull⟩
    exact hroom.elim hnew (Nat.not_lt.mpr hfull)

theorem serves_failedVisits {s s' : HttpServer} {visits : List Visit} (addresses : List Bytes)
    (h : Serves s visits s') (hnow : ∀ v ∈ visits, v.now ≤ 1) (htls : s'.tlsEnabled = true)
    (hadmitted : admitted s'.loginFailures addresses = true) :
    Serves s (visits ++ failedVisits s' addresses) (afterFailures s' addresses) ∧
      ∀ v ∈ visits ++ failedVisits s' addresses, v.now ≤ 1 := by
  induction addresses generalizing visits s' with
  | nil =>
    rw [failedVisits, List.append_nil]
    exact ⟨h, hnow⟩
  | cons remoteAddress rest ih =>
    obtain ⟨hfirst, hrest⟩ := Bool.and_eq_true_iff.mp hadmitted
    obtain ⟨hopen, hroom⟩ := Bool.and_eq_true_iff.mp hfirst
    have hhandled : (failedVisit s' remoteAddress).Handled :=
      failedVisit_handled htls (Bool.not_eq_true' _ ▸ hopen) (by simpa [HasRoom] using hroom)
    have hnow' : ∀ v ∈ visits ++ [failedVisit s' remoteAddress], v.now ≤ 1 :=
      List.forall_mem_append.mpr ⟨hnow, List.forall_mem_singleton.mpr (Int.le_refl 1)⟩
    have hmore := ih (h.next hnow hhandled) hnow' htls hrest
    rw [List.append_assoc] at hmore
    exact hmore

/-- A failed login that takes the place of another record. -/
def evictingVisit (s : HttpServer) (remoteAddress : Bytes)
    (evicted : {key // key ∈ s.loginFailures.keys}) : Visit where
  before := s
  now := 1
  remoteAddress := remoteAddress
  received := [loginBytes]
  trace := [⟨.verifyPassword (ascii "a") (ascii "b"), (false : Bool)⟩,
    ⟨WebCall.first s.loginFailures.keys, evicted⟩]
  outcome := .response loginRejected
  after := { s.cleaned 1 with
    loginFailures := recordFailure (s.loginFailures.erase evicted) 1 remoteAddress }

theorem evictingVisit_handled {s : HttpServer} {remoteAddress : Bytes}
    (evicted : {key // key ∈ s.loginFailures.keys}) (htls : s.tlsEnabled = true)
    (hopen : blocked s 1 remoteAddress = false) (hfull : ¬ HasRoom s remoteAddress) :
    (evictingVisit s remoteAddress evicted).Handled := by
  refine exec_loginBytes htls hopen ?_
  rw [if_neg Bool.false_ne_true, rejectLogin, if_pos]
  · apply Prog.Exec.call
    exact .done _
  · obtain ⟨hnew, hsize⟩ := not_or.mp hfull
    exact ⟨hnew, Nat.not_lt.mp hsize⟩

/-- A login that is refused. -/
def refusedVisit (s : HttpServer) (remoteAddress : Bytes) : Visit where
  before := s
  now := 1
  remoteAddress := remoteAddress
  received := [loginBytes]
  trace := []
  outcome := .response (sendError 429 (ascii "too many login attempts")
    (ascii "Retry-After: 30" ++ crlf ++ noStore))
  after := s.cleaned 1

theorem refusedVisit_handled {s : HttpServer} {remoteAddress : Bytes} (htls : s.tlsEnabled = true)
    (hblocked : blocked s 1 remoteAddress = true) : (refusedVisit s remoteAddress).Handled := by
  rw [Visit.Handled]
  show (handleClient s 1 remoteAddress [loginBytes]).Exec _ _
  rw [handleClient_loginBytes 1 remoteAddress htls, hblocked, if_pos rfl]
  exact .done _

/-! ### The victim -/

/-- The address whose owner tries too often. -/
def victim : Bytes := ascii "10.0.0.1"

/-- So many others that there is one record left: `11.0.0.1` to `73.0.0.1`. -/
def crowd : List Bytes :=
  (List.range 63).map fun i =>
    [UInt8.ofNat (48 + (i + 11) / 10), UInt8.ofNat (48 + (i + 1) % 10)] ++ ascii ".0.0.1"

def newcomer : Bytes := ascii "80.0.0.1"

/-- All of them have failed once, and the victim four times. -/
def crowdedServer : HttpServer :=
  afterFailures emptyServer.started (crowd ++ .replicate 4 victim)

def fifthFailure : Visit := failedVisit crowdedServer victim

/-- The record that blocks the victim. -/
def victimRecord : LoginFailures := ⟨0, 1, 1 + kLoginBlockTime⟩

theorem victim_blocked : fifthFailure.after.loginFailures.lookup victim = some victimRecord := by
  decide +kernel

def beforeVictim : List Visit :=
  failedVisits emptyServer.started (crowd ++ .replicate 4 victim) ++ [fifthFailure]

theorem serves_beforeVictim : Serves emptyServer beforeVictim fifthFailure.after ∧
    ∀ v ∈ beforeVictim, v.now ≤ 1 := by
  have hstart : Serves emptyServer [] emptyServer.started := .start
  have hcrowd := serves_failedVisits (crowd ++ .replicate 4 victim) hstart (List.forall_mem_nil _)
    rfl (by decide +kernel)
  exact serves_failedVisits [victim] hcrowd.1 hcrowd.2 (by decide +kernel) (by decide +kernel)

theorem failedVisits_spared (addresses : List Bytes) {s : HttpServer} {address : Bytes} :
    ∀ v ∈ failedVisits s addresses, ¬ v.Evicts address ∧ v.Consults fun _ _ => false := by
  induction addresses generalizing s with
  | nil => exact List.forall_mem_nil _
  | cons remoteAddress rest ih =>
    refine List.forall_mem_cons.mpr ⟨⟨?_, ?_⟩, ih⟩
    · rintro ⟨-, -, -, -, keys, evicted, -, hact⟩
      cases List.mem_singleton.mp hact
    · intro username password verified hact
      cases List.mem_singleton.mp hact
      rfl

/-- As long as nobody else comes, the victim is refused. -/
theorem victim_refused :
    (refusedVisit fifthFailure.after victim).Answered 429 ∧
      (refusedVisit fifthFailure.after victim).trace = [] := by
  have hrefused : (refusedVisit fifthFailure.after victim).Handled :=
    refusedVisit_handled (by decide +kernel) (by rw [blocked, victim_blocked]; decide)
  have hserves : Serves emptyServer (beforeVictim ++ [refusedVisit fifthFailure.after victim]) _ :=
    Serves.next (v := refusedVisit fifthFailure.after victim) serves_beforeVictim.1
      serves_beforeVictim.2 hrefused
  have hbefore : ∀ v ∈ beforeVictim, ¬ v.Evicts victim ∧ v.Consults fun _ _ => false :=
    List.forall_mem_append.mpr ⟨failedVisits_spared _, failedVisits_spared [victim]⟩
  have hspared : ∀ v ∈ beforeVictim ++ [refusedVisit fifthFailure.after victim],
      ¬ v.Evicts victim := by
    rw [List.forall_mem_append, List.forall_mem_singleton]
    refine ⟨fun v hv => (hbefore v hv).1, ?_⟩
    rintro ⟨-, -, -, -, keys, evicted, -, hact⟩
    cases hact
  have hverify : ∀ v ∈ beforeVictim ++ [refusedVisit fifthFailure.after victim],
      v.remoteAddress = victim → v.isLogin = true → v.Consults fun _ _ => false := by
    rw [List.forall_mem_append, List.forall_mem_singleton]
    refine ⟨fun v hv _ _ => (hbefore v hv).2, ?_⟩
    intro _ _ username password verified hact
    cases hact
  exact (throttling_isolated hserves hspared hverify).2 beforeVictim _ [] fifthFailure
    victimRecord loginRequest rfl (by simp [beforeVictim]) victim_blocked (by decide)
    ⟨readClient_loginBytes, rfl⟩ rfl (by decide +kernel)

/-- Somebody else whose login fails takes the place of the victim. -/
def eviction : Visit := evictingVisit fifthFailure.after newcomer ⟨victim, by decide +kernel⟩

/-- The victim, who is blocked, comes again and takes the place of the newcomer. -/
def anotherTry : Visit := evictingVisit eviction.after victim ⟨newcomer, by decide +kernel⟩

/-- A blocked address is not refused any more: its record has gone to another. -/
theorem throttling_undone :
    Serves emptyServer (beforeVictim ++ [eviction] ++ [anotherTry]) anotherTry.after ∧
      fifthFailure ∈ beforeVictim ∧
      fifthFailure.after.loginFailures.lookup victim = some victimRecord ∧
      anotherTry.now < victimRecord.blockedUntil ∧ anotherTry.LogsIn loginRequest ∧
      anotherTry.remoteAddress = victim ∧ sameOrigin anotherTry.before loginRequest = true ∧
      ¬ anotherTry.Answered 429 ∧
      ⟨.verifyPassword (ascii "a") (ascii "b"), (false : Bool)⟩ ∈ anotherTry.trace := by
  have heviction : eviction.Handled :=
    evictingVisit_handled _ (by decide +kernel) (by decide +kernel) (by rw [HasRoom]; decide +kernel)
  have hanotherTry : anotherTry.Handled :=
    evictingVisit_handled _ (by decide +kernel) (by decide +kernel) (by rw [HasRoom]; decide +kernel)
  have hnow : ∀ v ∈ beforeVictim ++ [eviction], v.now ≤ 1 :=
    List.forall_mem_append.mpr
      ⟨serves_beforeVictim.2, List.forall_mem_singleton.mpr (Int.le_refl 1)⟩
  have hserves : Serves emptyServer (beforeVictim ++ [eviction]) eviction.after :=
    Serves.next (v := eviction) serves_beforeVictim.1 serves_beforeVictim.2 heviction
  refine ⟨Serves.next (v := anotherTry) hserves hnow hanotherTry, by simp [beforeVictim], victim_blocked, by decide, ⟨readClient_loginBytes, rfl⟩, rfl,
    by decide +kernel, ?_, List.mem_cons_self⟩
  rintro ⟨response, houtcome, hstatus⟩
  cases houtcome
  cases hstatus

end Uhf.Web

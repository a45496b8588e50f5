/-
The privileged network service (`platform/privileged/network_service`).

A request is a line that names an operation, with an argument behind it for some.  The
service hands it to its transaction manager or to the maintenance runner, and starts the
interfaces' runtime when the manager has settled a transaction; the rollback monitor and the
start of the process do the same without a request.  A request, a tick of the monitor and
the recovery at the start exclude each other by a mutex, so each is one program.

* `handle`, `recoverPending`, `tick` — what the service does;
* `ClientCall` — the requests of the client, and `handle_message`: each of them reaches
  exactly the operation it names, with the argument it was given.
-/
import UhfGateway.Network.ConfigText
import UhfGateway.Network.Journal
import UhfGateway.Privileged.Maintenance

namespace Uhf.Privileged

open Effects Network

/-! ### Calls -/

structure InterfaceStatus where
  name : Bytes
  present : Bool := false
  carrierKnown : Bool := false
  linkUp : Bool := false
  address : Bytes := []
  prefixLength : UInt8 := 0
  deriving DecidableEq, Repr

structure NetworkStatus where
  eth0 : InterfaceStatus := { name := ascii "eth0" }
  eth1 : InterfaceStatus := { name := ascii "eth1" }
  deriving DecidableEq, Repr

/-- What the service calls besides its transaction manager: the backend, the status reader,
the clock and the maintenance runner. -/
inductive ServiceCall
  | readCurrent
  | inspect
  | readStatus
  | boottimeNs
  | startRuntime
  | refreshRuntime
  | restartService
  | reboot
  | configureSntp (server : Bytes)
  | disableSntp
  | setSystemTime (localTime : Bytes)
  deriving DecidableEq

@[reducible] def serviceOnlyCalls : Interface where
  Op := ServiceCall
  Answer
    | .readCurrent => Option NetworkConfig
    | .inspect => LoadResult
    | .readStatus => Option NetworkStatus
    | .boottimeNs => UInt64
    | _ => Bool

/-- The calls of the service: its own, and those of its manager. -/
@[reducible] def serviceCalls : Interface := serviceOnlyCalls.sum transactionCalls

/-- What the service returns: to a request, to the start of the process, to the monitor. -/
inductive ServiceResult
  | reply (reply : Reply)
  | recovered (result : TransactionResult)
  | ticked
  deriving DecidableEq

abbrev ServiceProg := Prog serviceCalls (ServiceResult × TransactionManager)

abbrev serve (c : ServiceCall) (k : serviceOnlyCalls.Answer c → ServiceProg) : ServiceProg :=
  Prog.call (I := serviceCalls) (.inl c) k

/-- An operation of the manager, and what the service does with its result. -/
def manage (m : TransactionManager) (operation : Operation)
    (k : TransactionResult → TransactionManager → ServiceProg) : ServiceProg :=
  (operation.program m).inr >>= fun r => k r.1 r.2

/-! ### Replies -/

/-- `json_escape` of `network_service`. -/
def jsonEscape (value : Bytes) : Bytes := Config.jsonEscape value

def resultReply (result : TransactionResult) (message : Bytes) : Reply where
  ok := result = .ok
  code := ascii (transactionResultName result)
  body := ascii "\x7b\"result\":\"" ++ ascii (transactionResultName result) ++
    ascii "\",\"message\":\"" ++ jsonEscape message ++ ascii "\"\x7d\n"

def okReply : Reply where
  ok := true
  code := ascii "ok"
  body := ascii "\x7b\"result\":\"ok\"\x7d\n"

def failed (code : String) : Reply := { code := ascii code }

/-- `interface_json`. -/
def interfaceJson (config : InterfaceConfig) : Bytes :=
  ascii "\x7b\"mode\":\"" ++ modeName config.mode ++
    ascii "\",\"address\":\"" ++ Network.jsonEscape config.address ++
    ascii "\",\"prefix\":" ++ decimal config.prefixLength.toNat ++
    ascii ",\"netmask\":\"" ++ netmaskForPrefix config.prefixLength ++ ascii "\"" ++
    ascii ",\"gateway\":\"" ++ Network.jsonEscape config.gateway ++ ascii "\",\"dns\":[" ++
    (ascii ",").intercalate ((config.dns.toList.take config.dnsCount.toNat).map fun server =>
      ascii "\"" ++ Network.jsonEscape server ++ ascii "\"") ++
    ascii "],\"hostname\":\"" ++ Network.jsonEscape config.hostname ++
    ascii "\",\"dhcp_timeout_seconds\":" ++ decimal config.dhcpTimeoutSeconds.toNat ++ ascii "\x7d"

def toJson (config : NetworkConfig) : Bytes :=
  ascii "\x7b\"eth0\":" ++ interfaceJson config.eth0 ++
    ascii ",\"eth1\":" ++ interfaceJson config.eth1 ++ ascii "\x7d"

def boolText (value : Bool) : Bytes := if value then ascii "true" else ascii "false"

def statusJson (status : InterfaceStatus) : Bytes :=
  ascii "\x7b\"exists\":" ++ boolText status.present ++
    ascii ",\"carrier_known\":" ++ boolText status.carrierKnown ++
    ascii ",\"link_up\":" ++ boolText status.linkUp ++
    ascii ",\"address\":\"" ++ jsonEscape status.address ++
    ascii "\",\"prefix\":" ++ decimal status.prefixLength.toNat ++ ascii "\x7d"

/-- Whole seconds, rounded up; in 64 bits the rounding may wrap around. -/
def remainingSeconds (deadline now : UInt64) : UInt64 :=
  ((if now < deadline then deadline - now else 0) + 999999999) / 1000000000

/-- The transaction in the status; the clock has been read where there is one. -/
def transactionStatusJson (t : Transaction) (now : UInt64) : Bytes :=
  ascii "\x7b\"id\":" ++ decimal t.id.toNat ++ ascii ",\"state\":\"" ++
    transactionStateName t.state ++ ascii "\",\"deadline_boottime_ns\":" ++
    decimal t.deadlineBoottimeNs.toNat ++ ascii ",\"remaining_seconds\":" ++
    decimal (remainingSeconds t.deadlineBoottimeNs now).toNat ++ ascii "\x7d"

def statusReply (current : NetworkConfig) (actual : NetworkStatus) (transaction : Bytes) :
    Reply where
  ok := true
  code := ascii "ok"
  body := ascii "\x7b\"config\":" ++ toJson current ++ ascii ",\"actual\":\x7b\"eth0\":" ++
    statusJson actual.eth0 ++ ascii ",\"eth1\":" ++ statusJson actual.eth1 ++
    ascii "\x7d,\"transaction\":" ++ transaction ++ ascii "\x7d\n"

/-! ### NetworkService -/

/-- The options of the service, and the time zone it runs in. -/
structure NetworkService where
  applyNetworkRuntime : Bool
  mktime : Mktime

namespace NetworkService

variable (service : NetworkService)

def answer (reply : Reply) (m : TransactionManager) : ServiceProg := .done (.reply reply, m)

/-- `network.status`. -/
def status (m : TransactionManager) : ServiceProg :=
  serve .readCurrent fun
  | none => answer (failed "backend_error") m
  | some current =>
    serve .inspect fun transaction =>
    if transaction = .corrupt ∨ transaction = .ioError then answer (failed "transaction_error") m
    else
      serve .readStatus fun
      | none => answer (failed "status_error") m
      | some actual =>
        match transaction with
        | .valid t =>
          serve .boottimeNs fun now =>
          answer (statusReply current actual (transactionStatusJson t now)) m
        | _ => answer (statusReply current actual (ascii "null")) m

/-- Start the runtime if a transaction has been settled, and reply with the manager's result. -/
def settle (settled : Bool) (failure : String) (result : TransactionResult)
    (m : TransactionManager) : ServiceProg :=
  if service.applyNetworkRuntime && settled then
    serve .startRuntime fun started =>
    if !started then answer (resultReply .backendError (ascii failure)) m
    else answer (resultReply result (ascii m.lastError)) m
  else answer (resultReply result (ascii m.lastError)) m

def confirm (m : TransactionManager) : ServiceProg :=
  manage m .confirm fun result m =>
    service.settle (result = .ok || result = .expired || result = .bootChanged)
      "network confirmed but DHCP runtime could not start" result m

def rollback (m : TransactionManager) : ServiceProg :=
  manage m .rollbackNow fun result m =>
    service.settle (result = .ok) "network rolled back but DHCP runtime could not start" result m

def stage (m : TransactionManager) (candidate : NetworkConfig) : ServiceProg :=
  manage m (.stage candidate) fun result m => answer (resultReply result (ascii m.lastError)) m

/-- A call of the maintenance runner. -/
def maintain (c : ServiceCall) (k : serviceOnlyCalls.Answer c → Bool) (m : TransactionManager) :
    ServiceProg :=
  serve c fun done => answer (if k done then okReply else failed "maintenance_error") m

def timeSync (m : TransactionManager) (server : Bytes) : ServiceProg :=
  if !validSntpServer server then answer (failed "invalid_time_request") m
  else maintain (.configureSntp server) id m

def timeSet (m : TransactionManager) (localTime : Bytes) : ServiceProg :=
  if !validSystemTime service.mktime localTime then answer (failed "invalid_time_request") m
  else maintain (.setSystemTime localTime) id m

def stageKey : Bytes := ascii "network.stage\n"

def timeSyncKey : Bytes := ascii "time.sync\n"

def timeSetKey : Bytes := ascii "time.set\n"

/-- `handle`; the user and the group of the peer are not looked at. -/
def handle (m : TransactionManager) (request : Bytes) : ServiceProg :=
  if request = ascii "network.status" then status m
  else if stageKey.isPrefixOf request then
    match parseFlatJson (request.drop 14) with
    | none => answer (resultReply .invalidCandidate
        (ascii "candidate network configuration is invalid")) m
    | some candidate => stage m candidate
  else if request = ascii "network.confirm" then service.confirm m
  else if request = ascii "network.rollback" then service.rollback m
  else if request = ascii "maintenance.restart-service" then maintain .restartService id m
  else if request = ascii "maintenance.reboot" then maintain .reboot id m
  else if timeSyncKey.isPrefixOf request then timeSync m (request.drop 10)
  else if request = ascii "time.disable" then maintain .disableSntp id m
  else if timeSetKey.isPrefixOf request then service.timeSet m (request.drop 9)
  else answer (failed "unknown_operation") m

def recoverPending (startRuntime : Bool) (m : TransactionManager) : ServiceProg :=
  manage m .rollbackIfNeeded fun result m =>
    let runtime : ServiceProg :=
      if startRuntime && service.applyNetworkRuntime && (result = .noTransaction || result = .ok ||
          result = .expired || result = .bootChanged) then
        serve .startRuntime fun started =>
          .done (.recovered (if started then result else .backendError), m)
      else .done (.recovered result, m)
    if result = .notDue then .done (.recovered result, m)
    else if !startRuntime && result = .noTransaction then
      serve .readCurrent fun current =>
        if current.isNone then .done (.recovered .backendError, m) else runtime
    else runtime

/-- The body of `rollback_loop`. -/
def tick (m : TransactionManager) : ServiceProg :=
  manage m .rollbackIfNeeded fun result m =>
    if result ≠ .notDue ∧ (result = .ok ∨ result = .expired ∨ result = .bootChanged) then
      if service.applyNetworkRuntime then
        serve .startRuntime fun _ => serve .refreshRuntime fun _ => .done (.ticked, m)
      else .done (.ticked, m)
    else .done (.ticked, m)

end NetworkService

/-! ### The requests of the client -/

/-- The calls of `UnixSocketClient`. -/
inductive ClientCall
  | networkStatus
  | networkStage (candidate : NetworkConfig)
  | networkConfirm
  | networkRollback
  | maintenanceRestartService
  | maintenanceReboot
  | timeSync (server : Bytes)
  | timeDisable
  | timeSet (localTime : Bytes)

/-- The message of each call. -/
def ClientCall.message : ClientCall → Bytes
  | networkStatus => ascii "network.status"
  | networkStage candidate => ascii "network.stage\n" ++ toFlatJson candidate
  | networkConfirm => ascii "network.confirm"
  | networkRollback => ascii "network.rollback"
  | maintenanceRestartService => ascii "maintenance.restart-service"
  | maintenanceReboot => ascii "maintenance.reboot"
  | timeSync server => ascii "time.sync\n" ++ server
  | timeDisable => ascii "time.disable"
  | timeSet localTime => ascii "time.set\n" ++ localTime

/-- What each call asks of the service. -/
def ClientCall.asks (service : NetworkService) (m : TransactionManager) : ClientCall → ServiceProg
  | networkStatus => NetworkService.status m
  | networkStage candidate => NetworkService.stage m candidate
  | networkConfirm => service.confirm m
  | networkRollback => service.rollback m
  | maintenanceRestartService => NetworkService.maintain .restartService id m
  | maintenanceReboot => NetworkService.maintain .reboot id m
  | timeSync server => NetworkService.timeSync m server
  | timeDisable => NetworkService.maintain .disableSntp id m
  | timeSet localTime => service.timeSet m localTime

theorem append_ne_of_isPrefixOf_false {key rest other : Bytes} (h : key.isPrefixOf other = false) :
    key ++ rest ≠ other := by
  rintro rfl
  rw [List.isPrefixOf_iff_prefix.mpr (List.prefix_append key rest)] at h
  cases h

/-- A request with an argument is told by its key, and the argument is what stands behind it. -/
theorem keyed_request {key : Bytes} {n : ℕ} (h : key.length = n) (argument : Bytes) :
    key.isPrefixOf (key ++ argument) = true ∧ (key ++ argument).drop n = argument :=
  ⟨List.isPrefixOf_iff_prefix.mpr (List.prefix_append key argument), List.drop_left' h⟩

/-- **Every request of the client reaches the operation it names**, with the argument it was
given; a candidate is one that is read back from its text. -/
theorem handle_message (service : NetworkService) (m : TransactionManager) (call : ClientCall)
    (hcandidate : ∀ candidate, call = .networkStage candidate →
      parseFlatJson (toFlatJson candidate) = some candidate) :
    service.handle m call.message = call.asks service m := by
  cases call with
  | networkStatus => rfl
  | networkConfirm => rfl
  | networkRollback => rfl
  | maintenanceRestartService => rfl
  | maintenanceReboot => rfl
  | timeDisable => rfl
  | networkStage candidate =>
    obtain ⟨hstage, hdrop⟩ := @keyed_request (ascii "network.stage\n") 14 rfl (toFlatJson candidate)
    show service.handle m (ascii "network.stage\n" ++ toFlatJson candidate) = _
    rw [NetworkService.handle, if_neg (append_ne_of_isPrefixOf_false (by decide))]
    rw [NetworkService.stageKey, if_pos hstage, hdrop, hcandidate candidate rfl]
    rfl
  | timeSync server =>
    obtain ⟨hsync, hdrop⟩ := @keyed_request (ascii "time.sync\n") 10 rfl server
    have hstage : ¬ NetworkService.stageKey.isPrefixOf (ascii "time.sync\n" ++ server) = true :=
      Bool.false_ne_true
    show service.handle m (ascii "time.sync\n" ++ server) = _
    rw [NetworkService.handle, if_neg (append_ne_of_isPrefixOf_false (by decide)), if_neg hstage,
      if_neg (append_ne_of_isPrefixOf_false (by decide)), if_neg (append_ne_of_isPrefixOf_false (by decide)),
      if_neg (append_ne_of_isPrefixOf_false (by decide)), if_neg (append_ne_of_isPrefixOf_false (by decide))]
    rw [NetworkService.timeSyncKey, if_pos hsync, hdrop]
    rfl
  | timeSet localTime =>
    obtain ⟨hset, hdrop⟩ := @keyed_request (ascii "time.set\n") 9 rfl localTime
    have hstage : ¬ NetworkService.stageKey.isPrefixOf (ascii "time.set\n" ++ localTime) = true :=
      Bool.false_ne_true
    have hsync : ¬ NetworkService.timeSyncKey.isPrefixOf (ascii "time.set\n" ++ localTime) = true :=
      Bool.false_ne_true
    show service.handle m (ascii "time.set\n" ++ localTime) = _
    rw [NetworkService.handle, if_neg (append_ne_of_isPrefixOf_false (by decide)), if_neg hstage,
      if_neg (append_ne_of_isPrefixOf_false (by decide)), if_neg (append_ne_of_isPrefixOf_false (by decide)),
      if_neg (append_ne_of_isPrefixOf_false (by decide)), if_neg (append_ne_of_isPrefixOf_false (by decide)),
      if_neg hsync, if_neg (append_ne_of_isPrefixOf_false (by decide))]
    rw [NetworkService.timeSetKey, if_pos hset, hdrop]
    rfl

end Uhf.Privileged

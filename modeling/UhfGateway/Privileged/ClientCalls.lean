/-
The calls of the gateway, from the client to the service and back.

A candidate that the web server has read from a document is written down for the service and
read again there; the request, the reply and the argument cross a socket that others use,
too.  All the same a call is answered as if the service had been asked directly.

* `parse_again` — a candidate that was read from any document is read back from its text;
* `handle_framed` — every reply of the service is one that the client reads as it was sent;
* `client_call_exact` — the reply of a call is what the service answers to that call.
-/
import UhfGateway.Network.Candidates
import UhfGateway.Network.ConfigSources
import UhfGateway.Privileged.Conversations
import UhfGateway.Privileged.NetworkService

namespace Uhf.Privileged

open Effects Effects.Prog Network

/-! ### Candidates -/

/-- A string that is read holds no character below the space. -/
theorem stringLoop_noNull {input result text rest : Bytes} (hresult : 0 ∉ result)
    (h : stringLoop input result = some (text, rest)) : 0 ∉ text := by
  fun_induction stringLoop input result with
  | case1 => cases h
  | case2 =>
    simp only [Option.some.injEq, Prod.mk.injEq] at h
    rw [← h.1]
    exact hresult
  | case3 => cases h
  | case4 => cases h
  | case5 result c input hquote hlow _ ih =>
    refine ih ?_ h
    rw [List.mem_append, List.mem_singleton, not_or]
    refine ⟨hresult, ?_⟩
    rintro rfl
    exact hlow (by decide)
  | case6 => cases h
  | case7 => cases h
  | case8 result c hquote hlow _ escaped input hescaped ih =>
    refine ih ?_ h
    rw [List.mem_append, List.mem_singleton, not_or]
    refine ⟨hresult, ?_⟩
    rintro rfl
    exact hescaped (by decide)

theorem parseString_noNull {input text rest : Bytes}
    (h : parseString input = some (text, rest)) : 0 ∉ text := by
  obtain ⟨behind, -, h⟩ := Option.bind_eq_some_iff.mp h
  exact stringLoop_noNull List.not_mem_nil h

/-- What has been read of an interface holds no null character. -/
structure FieldsLegible (fields : PortFields) : Prop where
  address : 0 ∉ fields.config.address
  gateway : 0 ∉ fields.config.gateway
  hostname : 0 ∉ fields.config.hostname
  dns : ∀ server ∈ fields.dns.toList, 0 ∉ server

theorem FieldsLegible.string {fields : PortFields} (h : FieldsLegible fields) {text : Bytes}
    (htext : 0 ∉ text) (field : StringField) : FieldsLegible (field.store text fields) := by
  obtain ⟨haddress, hgateway, hhostname, hdns⟩ := h
  have hset : ∀ (i : ℕ) (hi : i < 2), ∀ server ∈ (fields.dns.set i text hi).toList, 0 ∉ server := by
    intro i hi server hserver
    rw [Vector.toList_set] at hserver
    rcases List.mem_or_eq_of_mem_set hserver with hmem | rfl
    · exact hdns server hmem
    · exact htext
  cases field with
  | mode => exact ⟨haddress, hgateway, hhostname, hdns⟩
  | address => exact ⟨htext, hgateway, hhostname, hdns⟩
  | netmask => exact ⟨haddress, hgateway, hhostname, hdns⟩
  | gateway => exact ⟨haddress, htext, hhostname, hdns⟩
  | hostname => exact ⟨haddress, hgateway, htext, hdns⟩
  | dns1 => exact ⟨haddress, hgateway, hhostname, hset 0 Nat.zero_lt_two⟩
  | dns2 => exact ⟨haddress, hgateway, hhostname, hset 1 Nat.one_lt_two⟩

theorem FieldsLegible.number {fields fields' : PortFields} (h : FieldsLegible fields) {value : ℕ}
    {field : NumberField} (hs : field.store value fields = some fields') :
    FieldsLegible fields' := by
  obtain ⟨haddress, hgateway, hhostname, hdns⟩ := h
  cases field <;>
  · rw [NumberField.store, Option.ite_none_left_eq_some, Option.some.injEq] at hs
    obtain ⟨-, rfl⟩ := hs
    exact ⟨haddress, hgateway, hhostname, hdns⟩

/-- What the parser has read so far holds no null character. -/
def ParserLegible (p : FlatJsonParser) : Prop := ∀ port, FieldsLegible (p.ports port)

theorem ParserLegible.keep {p : FlatJsonParser} (h : ParserLegible p) (key : Bytes) (port : Port)
    {fields : PortFields} (hfields : FieldsLegible fields) :
    ParserLegible (p.keep key port fields) := by
  intro port'
  show FieldsLegible (Function.update p.ports port fields port')
  by_cases hport : port' = port
  · subst hport
    rw [Function.update_self]
    exact hfields
  · rw [Function.update_of_ne hport]
    exact h port'

theorem ParserLegible.parseMember {p p' : FlatJsonParser} {input rest : Bytes}
    (h : p.parseMember input = some (p', rest)) (hp : ParserLegible p) : ParserLegible p' := by
  obtain ⟨key, -, colon, field, -, -, hfield, -⟩ := FlatJsonParser.parseMember_eq_some h
  rw [FlatJsonParser.parseField, Option.ite_none_left_eq_some] at hfield
  obtain ⟨-, hfield⟩ := hfield
  split at hfield
  · obtain ⟨⟨text, behind⟩, htext, hr⟩ := Option.map_eq_some_iff.mp hfield
    cases hr
    exact hp.keep _ _ ((hp _).string (parseString_noNull htext) _)
  · obtain ⟨⟨value, behind⟩, -, hfield⟩ := Option.bind_eq_some_iff.mp hfield
    obtain ⟨⟨port, field⟩, -, hfield⟩ := Option.bind_eq_some_iff.mp hfield
    obtain ⟨fields, hfields, hr⟩ := Option.map_eq_some_iff.mp hfield
    cases hr
    exact hp.keep _ _ ((hp _).number hfields)

theorem legible_apply {fields : PortFields} {c : InterfaceConfig} (h : FieldsLegible fields)
    (hc : fields.apply = some c) : c.Legible := by
  obtain ⟨n, -, hc⟩ := Option.bind_eq_some_iff.mp hc
  obtain ⟨mode, -, rfl⟩ := Option.map_eq_some_iff.mp hc
  refine ⟨h.address, h.gateway, h.hostname, ?_⟩
  have hgiven : ∀ i, 0 ∉ (fields.dns.toList.filter (· ≠ [])).getD i [] := by
    intro i
    rw [List.getD_eq_getElem?_getD]
    cases hi : (fields.dns.toList.filter (· ≠ []))[i]? with
    | none => exact List.not_mem_nil
    | some server => exact h.dns server (List.mem_of_mem_filter (List.mem_of_getElem? hi))
  intro server hserver
  have hpair : server = (fields.dns.toList.filter (· ≠ [])).getD 0 [] ∨
      server = (fields.dns.toList.filter (· ≠ [])).getD 1 [] := by
    simpa [compactDns] using hserver
  rcases hpair with rfl | rfl
  · exact hgiven 0
  · exact hgiven 1

theorem parseFlatJson_legible {json : Bytes} {config : NetworkConfig}
    (h : parseFlatJson json = some config) : config.Legible := by
  rw [parseFlatJson, Option.ite_none_left_eq_some, FlatJsonParser.parse_eq] at h
  obtain ⟨p, hp, h⟩ := Option.bind_eq_some_iff.mp h.2
  obtain ⟨rest, -, hp⟩ := Option.bind_eq_some_iff.mp hp
  rw [Option.ite_none_left_eq_some] at hp
  have hfresh : ParserLegible {} := by
    intro port
    refine ⟨List.not_mem_nil, List.not_mem_nil, List.not_mem_nil, ?_⟩
    intro server hserver
    have hempty : server = [] := by simpa using hserver
    rw [hempty]
    exact List.not_mem_nil
  have hlegible : ParserLegible p :=
    FlatJsonParser.readMembers_induction (fun hmember hp => hp.parseMember hmember) hfresh hp.2
  rw [Option.ite_none_right_eq_some] at h
  obtain ⟨eth0, heth0, h⟩ := Option.bind_eq_some_iff.mp h.2
  obtain ⟨eth1, heth1, h⟩ := Option.bind_eq_some_iff.mp h
  rw [Option.ite_none_right_eq_some, Option.some.injEq] at h
  obtain ⟨-, rfl⟩ := h
  intro port
  cases port with
  | eth0 => exact legible_apply (hlegible .eth0) heth0
  | eth1 => exact legible_apply (hlegible .eth1) heth1

/-- What one process has read the other one reads again. -/
theorem parse_again {json : Bytes} {config : NetworkConfig}
    (h : parseFlatJson json = some config) :
    parseFlatJson (toFlatJson config) = some config := by
  have hobtained : config.Obtained := .flatText h
  exact parseFlatJson_toFlatJson (hobtained.recorded (parseFlatJson_legible h))

/-! ### Replies -/

/-- A result of the service that the client can read. -/
def Readable (r : ServiceResult × TransactionManager) : Prop :=
  ∃ reply, r.1 = .reply reply ∧ reply.Framed

/-- A program of the service that ends with a reply the client can read. -/
abbrev Replies (p : ServiceProg) : Prop := p.Within (fun _ => True) Readable

theorem framed_resultReply (result : TransactionResult) (message : Bytes) :
    (resultReply result message).Framed := by
  show ascii (transactionResultName result) ≠ [] ∧
    newline ∉ ascii (transactionResultName result)
  cases result <;> decide

theorem replies_answer {reply : Reply} (m : TransactionManager) (h : reply.Framed) :
    Replies (NetworkService.answer reply m) := ⟨reply, rfl, h⟩

theorem replies_result (result : TransactionResult) (message : Bytes) (m : TransactionManager) :
    Replies (NetworkService.answer (resultReply result message) m) :=
  replies_answer m (framed_resultReply result message)

theorem replies_manage {m : TransactionManager} {operation : Operation}
    {k : TransactionResult → TransactionManager → ServiceProg}
    (h : ∀ result m, Replies (k result m)) : Replies (manage m operation k) := by
  have hany : ∀ p : Prog serviceCalls OperationResult,
      p.Within (fun _ => True) (fun _ => True) := by
    intro p
    induction p with
    | done a => trivial
    | call o k ih => exact ⟨trivial, ih⟩
  exact within_bind (hany _) fun r _ => h r.1 r.2

theorem replies_settle (service : NetworkService) (settled : Bool) (failure : String)
    (result : TransactionResult) (m : TransactionManager) :
    Replies (service.settle settled failure result m) := by
  refine within_ite (fun _ => ⟨trivial, fun (started : Bool) => ?_⟩) fun _ => replies_result _ _ m
  exact within_ite (fun _ => replies_result _ _ m) fun _ => replies_result _ _ m

theorem replies_maintain (c : ServiceCall) (k : serviceOnlyCalls.Answer c → Bool)
    (m : TransactionManager) : Replies (NetworkService.maintain c k m) := by
  refine ⟨trivial, fun done => ?_⟩
  show Replies (NetworkService.answer (if k done then okReply else failed "maintenance_error") m)
  cases k done with
  | false => exact replies_answer m (by decide)
  | true => exact replies_answer m (by decide)

theorem replies_status (m : TransactionManager) : Replies (NetworkService.status m) := by
  have hstatus : ∀ current actual transaction,
      Replies (NetworkService.answer (statusReply current actual transaction) m) := by
    intro current actual transaction
    have hcode : ascii "ok" ≠ [] ∧ newline ∉ ascii "ok" := by decide
    exact replies_answer m hcode
  refine ⟨trivial, fun (current : Option NetworkConfig) => ?_⟩
  cases current with
  | none => exact replies_answer m (by decide)
  | some current =>
    refine ⟨trivial, fun (transaction : LoadResult) => ?_⟩
    refine within_ite (fun _ => replies_answer m (by decide)) fun _ => ?_
    refine ⟨trivial, fun (actual : Option NetworkStatus) => ?_⟩
    cases actual with
    | none => exact replies_answer m (by decide)
    | some actual =>
      cases transaction with
      | none => exact hstatus _ _ _
      | corrupt => exact hstatus _ _ _
      | ioError => exact hstatus _ _ _
      | valid t => exact ⟨trivial, fun _ => hstatus _ _ _⟩

/-- Whatever the request, the service replies with a code that is a line of its own. -/
theorem handle_framed (service : NetworkService) (m : TransactionManager) (request : Bytes) :
    Replies (service.handle m request) := by
  refine within_ite (fun _ => replies_status m) fun _ => ?_
  refine within_ite (fun _ => ?_) fun _ => ?_
  · cases parseFlatJson (request.drop 14) with
    | none => exact replies_result _ _ m
    | some candidate => exact replies_manage fun _ m => replies_result _ _ m
  refine within_ite (fun _ => replies_manage fun _ m => replies_settle service _ _ _ m) fun _ => ?_
  refine within_ite (fun _ => replies_manage fun _ m => replies_settle service _ _ _ m) fun _ => ?_
  refine within_ite (fun _ => replies_maintain _ _ m) fun _ => ?_
  refine within_ite (fun _ => replies_maintain _ _ m) fun _ => ?_
  refine within_ite (fun _ => ?_) fun _ => ?_
  · exact within_ite (fun _ => replies_answer m (by decide)) fun _ => replies_maintain _ _ m
  refine within_ite (fun _ => replies_maintain _ _ m) fun _ => ?_
  refine within_ite (fun _ => ?_) fun _ => replies_answer m (by decide)
  exact within_ite (fun _ => replies_answer m (by decide)) fun _ => replies_maintain _ _ m

/-! ### Calls -/

section Calls

variable {κ : Type} {peer : κ → Credentials} {server : UnixSocketServer} {ours : κ → Prop}
  {call : κ → ClientCall} {service : NetworkService}

/-- The handler of the server is the service: each of its replies is one that the service
gives to the request, in some state of its manager and with some answers to its calls. -/
def HandledBy (service : NetworkService) (s : Sockets κ) : Prop :=
  ∀ handled ∈ s.calls, ∀ reply, handled.answer = some reply →
    ∃ trace m m', (service.handle m handled.request).Exec trace (.reply reply, m')

end Calls

end Uhf.Privileged

/-
Network configuration and its validation (`platform/network/network_config`).

`inetPton` follows the C library's `inet_pton(AF_INET, …)`: four
decimal octets without leading zeros, cut off at the first NUL byte as
`c_str()` makes it.
-/
import UhfGateway.Domain.Bytes

namespace Uhf.Network

def kMaxDnsServers : Nat := 2

inductive Mode
  | staticAddress
  | dhcp
  deriving DecidableEq, Repr

structure InterfaceConfig where
  name : Bytes
  mode : Mode := .staticAddress
  address : Bytes
  prefixLength : UInt8 := 24
  gateway : Bytes
  dns : Vector Bytes 2 := Vector.replicate 2 []
  dnsCount : UInt8 := 0
  hostname : Bytes := []
  dhcpTimeoutSeconds : UInt16 := 15
  deriving DecidableEq, Repr

structure NetworkConfig where
  eth0 : InterfaceConfig :=
    { name := ascii "eth0", address := ascii "192.168.3.230", gateway := ascii "192.168.3.1" }
  eth1 : InterfaceConfig :=
    { name := ascii "eth1", address := ascii "192.168.0.230", gateway := [] }
  deriving DecidableEq, Repr

structure ValidationResult where
  valid : Bool
  field : String
  message : String
  deriving DecidableEq, Repr

def validResult : ValidationResult := ⟨true, "", ""⟩

def invalidResult (field message : String) : ValidationResult := ⟨false, field, message⟩

/-! ### Addresses -/

/-- State of the octet scanner: the octets already closed (newest first), the
octet being read, and whether a digit of it has been seen. -/
structure OctetScan where
  closed : List Nat := []
  current : Nat := 0
  sawDigit : Bool := false
  deriving DecidableEq, Repr

/-- One character of `inet_pton`; `none` rejects the text. -/
def OctetScan.step (s : OctetScan) (c : UInt8) : Option OctetScan :=
  if '0'.toNat ≤ c.toNat ∧ c.toNat ≤ '9'.toNat then
    let value := s.current * 10 + (c.toNat - '0'.toNat)
    if s.sawDigit ∧ s.current = 0 then none
    else if 255 < value then none
    else some { s with current := value, sawDigit := true }
  else if c.toNat = '.'.toNat ∧ s.sawDigit then
    if s.closed.length = 3 then none
    else some { closed := s.current :: s.closed, current := 0, sawDigit := false }
  else none

/-- `inet_pton(AF_INET, text.c_str(), …)`, the address in host byte order. -/
def inetPton (text : Bytes) : Option UInt32 := do
  let s ← (text.takeWhile (· ≠ 0)).foldlM OctetScan.step {}
  match s.closed, s.sawDigit with
  | [c, b, a], true => some (UInt32.ofNat (((a * 256 + b) * 256 + c) * 256 + s.current))
  | _, _ => none

def validIpv4 (value : Bytes) : Bool := !value.isEmpty && (inetPton value).isSome

def sameSubnet (address : Bytes) (prefixLength : UInt8) (gateway : Bytes) : Bool :=
  match inetPton address, inetPton gateway with
  | some a, some g =>
    let mask : UInt32 := if prefixLength = 0 then 0 else 0xFFFFFFFF <<< (32 - prefixLength.toUInt32)
    a &&& mask == g &&& mask && a != g
  | _, _ => false

/-! ### Validation -/

def isAlnum (c : UInt8) : Bool :=
  (48 ≤ c && c ≤ 57) || (65 ≤ c && c ≤ 90) || (97 ≤ c && c ≤ 122)

/-- The character loop of `valid_hostname`; `previous` is the character before. -/
def hostnameChars : (previous : UInt8) → Bytes → Bool
  | _, [] => true
  | previous, c :: rest =>
    if !(isAlnum c || c = '-'.toUInt8 || c = '_'.toUInt8 || c = '.'.toUInt8) then false
    else if c = '.'.toUInt8 ∧ previous = '.'.toUInt8 then false
    else hostnameChars c rest

def validHostname (value : Bytes) : Bool :=
  !(value.isEmpty || 63 < value.length || value.head? = some '.'.toUInt8
      || value.getLast? = some '.'.toUInt8)
    && hostnameChars 0 value

def validateInterface (config : InterfaceConfig) (expectedName : String) : ValidationResult :=
  let path := expectedName ++ "."
  if config.name ≠ ascii expectedName then
    invalidResult (path ++ "name") "interface must be eth0 or eth1"
  else if kMaxDnsServers < config.dnsCount.toNat then
    invalidResult (path ++ "dns") "at most two DNS servers are allowed"
  else
    let modeResult : ValidationResult :=
      match config.mode with
      | .staticAddress =>
        if !validIpv4 config.address then
          invalidResult (path ++ "address") "static address must be IPv4"
        else if config.prefixLength = 0 ∨ 32 < config.prefixLength then
          invalidResult (path ++ "prefix") "prefix must be between 1 and 32"
        else if !config.gateway.isEmpty &&
            (!validIpv4 config.gateway ||
              !sameSubnet config.address config.prefixLength config.gateway) then
          invalidResult (path ++ "gateway") "gateway must be IPv4 and in the interface subnet"
        else validResult
      | .dhcp =>
        if !config.address.isEmpty || !config.gateway.isEmpty || config.dnsCount ≠ 0 then
          invalidResult path "DHCP must not include static address, gateway or DNS"
        else if config.dhcpTimeoutSeconds ≠ 15 then
          invalidResult (path ++ "dhcp_timeout_seconds") "DHCP timeout is fixed at 15 seconds"
        else validResult
    if !modeResult.valid then modeResult
    else if !config.hostname.isEmpty && !validHostname config.hostname then
      invalidResult (path ++ "hostname") "hostname contains unsupported characters"
    -- the source appends ".dns" to a path that already ends in a dot
    else if !(config.dns.toList.take config.dnsCount.toNat).all validIpv4 then
      invalidResult (path ++ ".dns") "DNS server must be IPv4"
    else validResult

def validate (config : NetworkConfig) : ValidationResult :=
  let result0 := validateInterface config.eth0 "eth0"
  if !result0.valid then result0
  else
    let result1 := validateInterface config.eth1 "eth1"
    if !result1.valid then result1
    else if config.eth0.mode = .staticAddress ∧ config.eth1.mode = .staticAddress ∧
        config.eth0.address = config.eth1.address then
      invalidResult "eth1.address" "interfaces must not share an address"
    else if !config.eth0.gateway.isEmpty && !config.eth1.gateway.isEmpty then
      invalidResult "gateway" "only one default gateway is allowed"
    else validResult

/-- The built-in configuration passes its own validation. -/
theorem validate_default : (validate {}).valid = true := by decide +kernel

/-- What `validate` has found of one interface. -/
structure InterfaceConfig.Checked (config : InterfaceConfig) (expectedName : String) : Prop where
  name : config.name = ascii expectedName
  dnsCount : config.dnsCount.toNat ≤ kMaxDnsServers
  staticAddress : config.mode = .staticAddress → validIpv4 config.address = true ∧
    config.prefixLength ≠ 0 ∧ config.prefixLength ≤ 32 ∧
    (config.gateway = [] ∨ validIpv4 config.gateway = true ∧
      sameSubnet config.address config.prefixLength config.gateway = true)
  dhcp : config.mode = .dhcp → config.address = [] ∧ config.gateway = [] ∧ config.dnsCount = 0 ∧
    config.dhcpTimeoutSeconds = 15
  hostname : config.hostname = [] ∨ validHostname config.hostname = true
  dns : (config.dns.toList.take config.dnsCount.toNat).all validIpv4 = true

theorem valid_guard {p : Prop} [Decidable p] {field message : String} {result : ValidationResult} :
    (if p then invalidResult field message else result).valid = true ↔ ¬ p ∧ result.valid = true := by
  by_cases hp : p
  · simp [hp, invalidResult]
  · simp [hp]

theorem valid_and {first second : ValidationResult} :
    (if !first.valid then first else second).valid = true ↔
      first.valid = true ∧ second.valid = true := by
  cases hfirst : first.valid <;> simp [hfirst]

theorem validateInterface_checked {config : InterfaceConfig} {expectedName : String}
    (h : (validateInterface config expectedName).valid = true) : config.Checked expectedName := by
  unfold validateInterface at h
  rw [valid_guard, valid_guard] at h
  obtain ⟨hname, hcount, h⟩ := h
  rw [valid_and, valid_guard, valid_guard] at h
  obtain ⟨hmode, hhostname, hdns, -⟩ := h
  refine ⟨by simpa using hname, by omega, ?_, ?_, ?_, by simpa using hdns⟩
  · intro hstatic
    rw [hstatic] at hmode
    dsimp only at hmode
    rw [valid_guard, valid_guard, valid_guard, not_or, UInt8.not_lt] at hmode
    obtain ⟨haddress, hbits, hgateway, -⟩ := hmode
    refine ⟨by simpa using haddress, hbits.1, hbits.2, ?_⟩
    simpa [or_iff_not_imp_left] using hgateway
  · intro hdhcp
    rw [hdhcp] at hmode
    dsimp only at hmode
    rw [valid_guard, valid_guard] at hmode
    obtain ⟨hempty, htimeout, -⟩ := hmode
    simpa [not_or, and_assoc, Decidable.not_not.mp htimeout] using hempty
  · simpa [or_iff_not_imp_left] using hhostname

/-- What `validate` has found of a configuration. -/
structure NetworkConfig.Checked (config : NetworkConfig) : Prop where
  eth0 : config.eth0.Checked "eth0"
  eth1 : config.eth1.Checked "eth1"
  apart : ¬ (config.eth0.mode = .staticAddress ∧ config.eth1.mode = .staticAddress ∧
    config.eth0.address = config.eth1.address)
  oneGateway : config.eth0.gateway = [] ∨ config.eth1.gateway = []

theorem validate_checked {config : NetworkConfig} (h : (validate config).valid = true) :
    config.Checked := by
  unfold validate at h
  rw [valid_and, valid_and, valid_guard, valid_guard] at h
  obtain ⟨heth0, heth1, hapart, hgateway, -⟩ := h
  exact ⟨validateInterface_checked heth0, validateInterface_checked heth1, hapart,
    by simpa [or_iff_not_imp_left] using hgateway⟩

end Uhf.Network

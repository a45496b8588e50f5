/-
The flat JSON text of a network configuration (`to_flat_json`).

The text is what the configuration file and the journal hold, and what the
backend compares when it is asked to finish a transaction it staged itself.
-/
import UhfGateway.Network.Config

namespace Uhf.Network

def hexDigit (n : Nat) : UInt8 := UInt8.ofNat (if n < 10 then '0'.toNat + n else 'a'.toNat + (n - 10))

/-- One character of `json_escape`. -/
def jsonEscapeChar (c : UInt8) : Bytes :=
  if c = '"'.toUInt8 ∨ c = '\\'.toUInt8 then ['\\'.toUInt8, c]
  else if c < 0x20 then ascii "\\u00" ++ [hexDigit (c.toNat / 16), hexDigit (c.toNat % 16)]
  else [c]

def jsonEscape (value : Bytes) : Bytes := value.flatMap jsonEscapeChar

def modeName : Mode → Bytes
  | .dhcp => ascii "dhcp"
  | .staticAddress => ascii "static"

/-- `inet_ntop(AF_INET, …)` of an address in host byte order. -/
def inetNtop (address : UInt32) : Bytes :=
  let n := address.toNat
  decimal (n / 16777216) ++ ascii "." ++ decimal (n / 65536 % 256) ++ ascii "." ++
    decimal (n / 256 % 256) ++ ascii "." ++ decimal (n % 256)

def netmaskForPrefix (prefixLength : UInt8) : Bytes :=
  if prefixLength = 0 ∨ 32 < prefixLength then []
  else
    inetNtop (if prefixLength = 32 then 0xFFFFFFFF
      else 0xFFFFFFFF <<< (32 - prefixLength.toUInt32))

/-- `flat_interface_fields`; `port` is the key prefix, `"eth0_"` or `"eth1_"`. -/
def flatInterfaceFields (config : InterfaceConfig) (port : String) : Bytes :=
  let firstDns := if 0 < config.dnsCount then config.dns[0] else []
  let secondDns := if 1 < config.dnsCount then config.dns[1] else []
  let key (name : String) : Bytes := ascii ("\"" ++ port ++ name ++ "\":")
  let quoted (value : Bytes) : Bytes := ascii "\"" ++ value ++ ascii "\""
  key "mode" ++ quoted (modeName config.mode) ++ ascii "," ++
    key "address" ++ quoted (jsonEscape config.address) ++ ascii "," ++
    key "prefix" ++ decimal config.prefixLength.toNat ++ ascii "," ++
    key "netmask" ++ quoted (netmaskForPrefix config.prefixLength) ++ ascii "," ++
    key "gateway" ++ quoted (jsonEscape config.gateway) ++ ascii "," ++
    key "dns1" ++ quoted (jsonEscape firstDns) ++ ascii "," ++
    key "dns2" ++ quoted (jsonEscape secondDns) ++ ascii "," ++
    key "hostname" ++ quoted (jsonEscape config.hostname) ++ ascii "," ++
    key "dhcp_timeout_seconds" ++ decimal config.dhcpTimeoutSeconds.toNat

def toFlatJson (config : NetworkConfig) : Bytes :=
  ascii "\x7b" ++ flatInterfaceFields config.eth0 "eth0_" ++ ascii "," ++
    flatInterfaceFields config.eth1 "eth1_" ++ ascii "\x7d"

end Uhf.Network

/-
The readers of a network configuration (`FlatJsonParser`, `parse_flat_json`, `parse_vendor_file`).

The parser's position is what is left of the input.  A key that is met twice, an unknown key and
any other number of members than that of all fields, with or without the two netmasks, are errors.

* `parseFlatJson`, `parseVendorFile` — the two formats;
* `FlatJsonParser.parseMember_eq_some` — what the parser has found when it has read a member.
-/
import UhfGateway.Config.Codec
import UhfGateway.Network.LinuxBackend

namespace Uhf.Network

open Config (skipSpace consume)

/-! ### Netmasks -/

/-- One bit of a mask from the highest on: the ones so far, and whether a zero has been seen. -/
def maskStep : UInt8 × Bool → Bool → Option (UInt8 × Bool)
  | (ones, zeroSeen), one =>
    if one && zeroSeen then none
    else if one then some (ones + 1, zeroSeen)
    else some (ones, true)

def maskBits (mask : UInt32) : List Bool := (List.range 32).reverse.map mask.toNat.testBit

/-- `prefix_from_netmask`, and `netmask_to_prefix` of the backend. -/
def prefixFromNetmask (value : Bytes) : Option UInt8 :=
  (inetPton value).bind fun mask =>
    ((maskBits mask).foldlM maskStep (0, false)).bind fun (ones, _) =>
      if ones = 0 then none else some ones

/-! ### Strings and numbers -/

/-- The loop of `parse_string` behind the opening quote. -/
def stringLoop : Bytes → Bytes → Option (Bytes × Bytes)
  | [], _ => none
  | c :: input, result =>
    if c = '"'.toUInt8 then if result.length ≤ 256 then some (result, input) else none
    else if c < 0x20 then none
    else if c ≠ '\\'.toUInt8 then stringLoop input (result ++ [c])
    else
      match input with
      | [] => none
      | escaped :: input =>
        if escaped ≠ '"'.toUInt8 ∧ escaped ≠ '\\'.toUInt8 then none
        else stringLoop input (result ++ [escaped])

def parseString (input : Bytes) : Option (Bytes × Bytes) :=
  (consume '"'.toUInt8 input).bind fun input => stringLoop input []

def parseUnsigned (input : Bytes) : Option (ℕ × Bytes) := Config.parseUnsigned input

/-! ### Fields -/

def Port.text : Port → Bytes
  | .eth0 => ascii "eth0"
  | .eth1 => ascii "eth1"

inductive StringField
  | mode | address | netmask | gateway | hostname | dns1 | dns2
  deriving DecidableEq, Repr

inductive NumberField
  | prefixLength | dhcpTimeoutSeconds
  deriving DecidableEq, Repr

def StringField.all : List StringField :=
  [.mode, .address, .netmask, .gateway, .hostname, .dns1, .dns2]

def NumberField.all : List NumberField := [.prefixLength, .dhcpTimeoutSeconds]

def StringField.suffix : StringField → Bytes
  | mode => ascii "mode"
  | address => ascii "address"
  | netmask => ascii "netmask"
  | gateway => ascii "gateway"
  | hostname => ascii "hostname"
  | dns1 => ascii "dns1"
  | dns2 => ascii "dns2"

def NumberField.suffix : NumberField → Bytes
  | prefixLength => ascii "prefix"
  | dhcpTimeoutSeconds => ascii "dhcp_timeout_seconds"

/-- What has been read of one interface. -/
structure PortFields where
  config : InterfaceConfig
  mode : Bytes := []
  netmask : Bytes := []
  prefixSeen : Bool := false
  netmaskSeen : Bool := false
  dns : Vector Bytes 2 := Vector.replicate 2 []

def StringField.store (text : Bytes) (fields : PortFields) : StringField → PortFields
  | mode => { fields with mode := text }
  | address => { fields with config := { fields.config with address := text } }
  | netmask => { fields with netmask := text, netmaskSeen := true }
  | gateway => { fields with config := { fields.config with gateway := text } }
  | hostname => { fields with config := { fields.config with hostname := text } }
  | dns1 => { fields with dns := fields.dns.set 0 text Nat.zero_lt_two }
  | dns2 => { fields with dns := fields.dns.set 1 text Nat.one_lt_two }

/-- With the ranges of `assign_unsigned`. -/
def NumberField.store (value : ℕ) (fields : PortFields) : NumberField → Option PortFields
  | prefixLength =>
    if value < 1 ∨ 32 < value then none
    else some { fields with
      config := { fields.config with prefixLength := UInt8.ofNat value }
      prefixSeen := true }
  | dhcpTimeoutSeconds =>
    if value < 1 ∨ 65535 < value then none
    else some { fields with
      config := { fields.config with dhcpTimeoutSeconds := UInt16.ofNat value } }

/-- `interface_for`. -/
def interfaceFor (key suffix : Bytes) : Option Port :=
  if key = ascii "eth0_" ++ suffix then some .eth0
  else if key = ascii "eth1_" ++ suffix then some .eth1
  else none

def stringField (key : Bytes) : Option (Port × StringField) :=
  StringField.all.findSome? fun field => (interfaceFor key field.suffix).map (·, field)

def numberField (key : Bytes) : Option (Port × NumberField) :=
  NumberField.all.findSome? fun field => (interfaceFor key field.suffix).map (·, field)

/-- The keys met so far, and what has been read of the interfaces. -/
structure FlatJsonParser where
  seen : List Bytes := []
  ports : Port → PortFields := fun port =>
    { config := { name := port.text, address := [], gateway := [] } }

namespace FlatJsonParser

def keep (p : FlatJsonParser) (key : Bytes) (port : Port) (fields : PortFields) : FlatJsonParser where
  seen := key :: p.seen
  ports := Function.update p.ports port fields

def parseField (p : FlatJsonParser) (key input : Bytes) : Option (FlatJsonParser × Bytes) :=
  if key ∈ p.seen then none
  else
    match stringField key with
    | some (port, field) =>
      (parseString input).map fun (text, rest) =>
        (p.keep key port (field.store text (p.ports port)), rest)
    | none =>
      (parseUnsigned input).bind fun (value, rest) =>
        (numberField key).bind fun (port, field) =>
          (field.store value (p.ports port)).map fun fields => (p.keep key port fields, rest)

end FlatJsonParser

/-- The prefix of an interface: as a number, as a netmask, or as both if they agree. -/
def PortFields.prefixLength (fields : PortFields) : Option UInt8 :=
  if fields.netmaskSeen then
    (prefixFromNetmask fields.netmask).bind fun netmaskPrefix =>
      if fields.prefixSeen then
        if fields.config.prefixLength ≠ netmaskPrefix then none else some fields.config.prefixLength
      else some netmaskPrefix
  else if fields.prefixSeen then some fields.config.prefixLength
  else none

def modeOfName (name : Bytes) : Option Mode :=
  if name = ascii "dhcp" then some .dhcp
  else if name = ascii "static" then some .staticAddress
  else none

/-- The name servers that are given, moved to the front. -/
def compactDns (servers : List Bytes) : Vector Bytes 2 × UInt8 :=
  let given := servers.filter (· ≠ [])
  (#v[given.getD 0 [], given.getD 1 []], UInt8.ofNat given.length)

def PortFields.apply (fields : PortFields) : Option InterfaceConfig :=
  fields.prefixLength.bind fun prefixLength =>
    (modeOfName fields.mode).map fun mode =>
      { fields.config with
        prefixLength := prefixLength
        mode := mode
        dns := (compactDns fields.dns.toList).1
        dnsCount := (compactDns fields.dns.toList).2 }

namespace FlatJsonParser

/-- `apply_string_values`. -/
def applyStringValues (p : FlatJsonParser) : Option NetworkConfig :=
  (p.ports .eth0).apply.bind fun eth0 =>
    (p.ports .eth1).apply.bind fun eth1 =>
      if (validate ⟨eth0, eth1⟩).valid then some ⟨eth0, eth1⟩ else none

/-! ### Objects -/

/-- One member, and the input behind it. -/
def parseMember (p : FlatJsonParser) (input : Bytes) : Option (FlatJsonParser × Bytes) :=
  (parseString input).bind fun (key, rest) =>
    (consume ':'.toUInt8 (skipSpace rest)).bind fun rest =>
      (p.parseField key (skipSpace rest)).map fun (p, rest) => (p, skipSpace rest)

theorem stringLoop_length {input result text rest : Bytes}
    (h : stringLoop input result = some (text, rest)) : rest.length < input.length := by
  fun_induction stringLoop input result with
  | case1 => cases h
  | case2 =>
    cases h
    simp
  | case3 => cases h
  | case4 => cases h
  | case5 result c input _ _ _ ih =>
    have hrest := ih h
    rw [List.length_cons]
    omega
  | case6 => cases h
  | case7 => cases h
  | case8 result c _ _ _ escaped input _ ih =>
    have hrest := ih h
    rw [List.length_cons, List.length_cons]
    omega

theorem parseString_length {input text rest : Bytes} (h : parseString input = some (text, rest)) :
    rest.length < input.length := by
  obtain ⟨later, hquote, hloop⟩ := Option.bind_eq_some_iff.mp h
  rw [Config.consume_eq_some] at hquote
  have hrest := stringLoop_length hloop
  rw [hquote, List.length_cons]
  omega

theorem parseField_length {p p' : FlatJsonParser} {key input rest : Bytes}
    (h : p.parseField key input = some (p', rest)) : rest.length ≤ input.length := by
  rw [parseField, Option.ite_none_left_eq_some] at h
  obtain ⟨-, h⟩ := h
  split at h
  · obtain ⟨⟨text, behind⟩, htext, hr⟩ := Option.map_eq_some_iff.mp h
    cases hr
    exact Nat.le_of_lt (parseString_length htext)
  · obtain ⟨⟨value, behind⟩, hvalue, h⟩ := Option.bind_eq_some_iff.mp h
    obtain ⟨⟨port, field⟩, -, h⟩ := Option.bind_eq_some_iff.mp h
    obtain ⟨fields, -, hr⟩ := Option.map_eq_some_iff.mp h
    cases hr
    exact Config.parseUnsigned_length hvalue

theorem parseMember_eq_some {p p' : FlatJsonParser} {input rest : Bytes}
    (h : p.parseMember input = some (p', rest)) :
    ∃ key behind colon field, parseString input = some (key, behind) ∧
      consume ':'.toUInt8 (skipSpace behind) = some colon ∧
      p.parseField key (skipSpace colon) = some (p', field) ∧ rest = skipSpace field := by
  obtain ⟨⟨key, behind⟩, hkey, h⟩ := Option.bind_eq_some_iff.mp h
  obtain ⟨colon, hcolon, h⟩ := Option.bind_eq_some_iff.mp h
  obtain ⟨⟨p'', field⟩, hfield, h⟩ := Option.map_eq_some_iff.mp h
  simp only [Prod.mk.injEq] at h
  obtain ⟨rfl, rfl⟩ := h
  exact ⟨key, behind, colon, field, hkey, hcolon, hfield, rfl⟩

theorem parseMember_length {p p' : FlatJsonParser} {input rest : Bytes}
    (h : p.parseMember input = some (p', rest)) : rest.length < input.length := by
  obtain ⟨key, behind, colon, field, hkey, hcolon, hfield, rfl⟩ := parseMember_eq_some h
  have hbehind := parseString_length hkey
  have hskipped := Config.skipSpace_length behind
  have hrest := parseField_length hfield
  have hcolonSpace := Config.skipSpace_length colon
  have hfieldSpace := Config.skipSpace_length field
  rw [Config.consume_eq_some] at hcolon
  rw [hcolon, List.length_cons] at hskipped
  omega

/-- How many members an object has: `kFieldCount`, `kFieldCountWithNetmask`. -/
def fieldCounts : List ℕ := [16, 18]

/-- The loop of `parse`. -/
def parseMembers (p : FlatJsonParser) (input : Bytes) : Option NetworkConfig :=
  match _h : p.parseMember input with
  | none => none
  | some (p, rest) =>
    match consume '}'.toUInt8 rest with
    | some behind =>
      if skipSpace behind = [] ∧ p.seen.length ∈ fieldCounts then p.applyStringValues else none
    | none =>
      match _hcomma : consume ','.toUInt8 rest with
      | none => none
      | some more => p.parseMembers (skipSpace more)
termination_by input.length
decreasing_by
  have hrest := parseMember_length _h
  have hskipped := Config.skipSpace_length more
  rw [Config.consume_eq_some] at _hcomma
  rw [_hcomma, List.length_cons] at hrest
  omega

/-- The same loop up to the closing brace: the parser once all members have been read. -/
def readMembers (p : FlatJsonParser) (input : Bytes) : Option FlatJsonParser :=
  match _h : p.parseMember input with
  | none => none
  | some (p, rest) =>
    match consume '}'.toUInt8 rest with
    | some behind => if skipSpace behind = [] then some p else none
    | none =>
      match _hcomma : consume ','.toUInt8 rest with
      | none => none
      | some more => p.readMembers (skipSpace more)
termination_by input.length
decreasing_by
  have hrest := parseMember_length _h
  have hskipped := Config.skipSpace_length more
  rw [Config.consume_eq_some] at _hcomma
  rw [_hcomma, List.length_cons] at hrest
  omega

theorem readMembers_eq (p : FlatJsonParser) (input : Bytes) :
    p.readMembers input = match p.parseMember input with
      | none => none
      | some (p, rest) =>
        match consume '}'.toUInt8 rest with
        | some behind => if skipSpace behind = [] then some p else none
        | none =>
          match consume ','.toUInt8 rest with
          | none => none
          | some more => p.readMembers (skipSpace more) := by
  fun_cases readMembers p input with
  | case1 hmember => simp only [hmember]
  | case2 p' rest hmember behind hbrace hlast => simp only [hmember, hbrace, if_pos hlast]
  | case3 p' rest hmember behind hbrace hlast => simp only [hmember, hbrace, if_neg hlast]
  | case4 p' rest hmember hbrace hcomma => simp only [hmember, hbrace, hcomma]
  | case5 p' rest hmember hbrace more hcomma => simp only [hmember, hbrace, hcomma]

/-- What is checked when an object has been read. -/
theorem parseMembers_eq (p : FlatJsonParser) (input : Bytes) :
    p.parseMembers input = (p.readMembers input).bind fun p =>
      if p.seen.length ∈ fieldCounts then p.applyStringValues else none := by
  fun_induction parseMembers p input with
  | case1 p input hmember => simp only [readMembers_eq, hmember, Option.bind_none]
  | case2 p input p' rest hmember behind hbrace hlast =>
    simp only [readMembers_eq, hmember, hbrace, if_pos hlast.1, Option.bind_some, if_pos hlast.2]
  | case3 p input p' rest hmember behind hbrace hlast =>
    simp only [readMembers_eq, hmember, hbrace]
    by_cases hend : skipSpace behind = []
    · have hcount : p'.seen.length ∉ fieldCounts := fun hcount => hlast ⟨hend, hcount⟩
      rw [if_pos hend, Option.bind_some, if_neg hcount]
    · rw [if_neg hend, Option.bind_none]
  | case4 p input p' rest hmember hbrace hcomma =>
    simp only [readMembers_eq, hmember, hbrace, hcomma, Option.bind_none]
  | case5 p input p' rest hmember hbrace more hcomma ih =>
    rw [ih, readMembers_eq p input]
    simp only [hmember, hbrace, hcomma]

theorem readMembers_induction {I : FlatJsonParser → Prop} {p q : FlatJsonParser} {input : Bytes}
    (hstep : ∀ {p p' : FlatJsonParser} {input rest : Bytes},
      p.parseMember input = some (p', rest) → I p → I p')
    (hp : I p) (h : p.readMembers input = some q) : I q := by
  fun_induction readMembers p input with
  | case1 => cases h
  | case2 p input p' rest hmember behind hbrace hlast =>
    cases h
    exact hstep hmember hp
  | case3 => cases h
  | case4 => cases h
  | case5 p input p' rest hmember hbrace more hcomma ih => exact ih (hstep hmember hp) h

/-- `FlatJsonParser::parse`. -/
def parse (input : Bytes) : Option NetworkConfig :=
  (consume '{'.toUInt8 (skipSpace input)).bind fun rest =>
    if (consume '}'.toUInt8 (skipSpace rest)).isSome then none
    else parseMembers {} (skipSpace rest)

end FlatJsonParser

def parseFlatJson (json : Bytes) : Option NetworkConfig :=
  if 16 * 1024 < json.length then none else FlatJsonParser.parse json

/-! ### The vendor's files -/

def trim (value : Bytes) : Bytes :=
  ((value.dropWhile Config.isCSpace).reverse.dropWhile Config.isCSpace).reverse

def unquote (value : Bytes) : Bytes :=
  if 2 ≤ value.length ∧ ((value.head? = some '"'.toUInt8 ∧ value.getLast? = some '"'.toUInt8) ∨
      (value.head? = some (0x27 : UInt8) ∧ value.getLast? = some (0x27 : UInt8))) then
    value.tail.dropLast
  else value

/-- The values of a vendor's file that have been seen. -/
structure VendorFields where
  method : Option Bytes := none
  address : Option Bytes := none
  netmask : Option Bytes := none
  gateway : Option Bytes := none

/-- One line; a value that is given twice is an error. -/
def VendorFields.line (fields : VendorFields) (line : Bytes) : Option VendorFields :=
  let entry := trim line
  if entry = [] ∨ entry.head? = some '#'.toUInt8 then some fields
  else if '='.toUInt8 ∉ entry then none
  else
    let key := trim (entry.takeWhile (· ≠ '='.toUInt8))
    let value := unquote (trim (entry.dropWhile (· ≠ '='.toUInt8)).tail)
    if key = ascii "METHOD" then
      if fields.method.isSome then none else some { fields with method := some value }
    else if key = ascii "IPADDR" then
      if fields.address.isSome then none else some { fields with address := some value }
    else if key = ascii "NETMASK" then
      if fields.netmask.isSome then none else some { fields with netmask := some value }
    else if key = ascii "GATEWAY" then
      if fields.gateway.isSome then none else some { fields with gateway := some value }
    else some fields

def parseVendorFile (contents : Bytes) (config : InterfaceConfig) : Option InterfaceConfig :=
  if contents = [] then none
  else
    ((contents.splitOn '\n'.toUInt8).foldlM VendorFields.line {}).bind fun fields =>
      fields.method.bind fun method =>
        (fields.netmask.bind prefixFromNetmask).bind fun prefixLength =>
          let config := { config with
            prefixLength := prefixLength
            dns := Vector.replicate 2 []
            dnsCount := 0
            hostname := []
            dhcpTimeoutSeconds := 15 }
          if method = ascii "STATIC" then
            fields.address.map fun address =>
              { config with
                mode := .staticAddress
                address := address
                gateway := fields.gateway.getD [] }
          else if method = ascii "DHCP" ∨ method = ascii "DHCP_DNS" then
            some { config with mode := .dhcp, address := [], gateway := [] }
          else none

/-- `load_vendor` of the contents of the two files. -/
def loadVendor (eth0 eth1 : Bytes) : Option NetworkConfig :=
  (parseVendorFile eth0 ({} : NetworkConfig).eth0).bind fun eth0 =>
    (parseVendorFile eth1 ({} : NetworkConfig).eth1).bind fun eth1 =>
      if (validate ⟨eth0, eth1⟩).valid then some ⟨eth0, eth1⟩ else none

/-- `vendor_file_contents`; no text for a prefix without a netmask. -/
def vendorFileContents (config : InterfaceConfig) : Bytes :=
  if config.prefixLength = 0 ∨ 32 < config.prefixLength then []
  else
    let method := match config.mode with
      | .dhcp => if config.dnsCount = 0 then ascii "DHCP" else ascii "DHCP_DNS"
      | .staticAddress => ascii "STATIC"
    ascii "METHOD=" ++ method ++ ascii "\nIPADDR=" ++ config.address ++ ascii "\nNETMASK=" ++
      netmaskForPrefix config.prefixLength ++ ascii "\nGATEWAY=" ++ config.gateway ++ ascii "\n"

end Uhf.Network

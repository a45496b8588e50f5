/-
The flat JSON text of a network configuration and its way back.

* `Recorded` — what the text keeps of a configuration;
* `parseMember_written` — each member is read back from what is written of it;
* `parseFlatJson_toFlatJson` — the round trip.
-/
import UhfGateway.Network.FlatJsonParser

namespace Uhf.Network

open Config (skipSpace consume Plain)

/-! ### Members -/

inductive FlatField
  | string (field : StringField)
  | number (field : NumberField)
  deriving DecidableEq

def FlatField.suffix : FlatField → Bytes
  | string field => field.suffix
  | number field => field.suffix

def flatKey (port : Port) (suffix : Bytes) : Bytes :=
  match port with
  | .eth0 => ascii "eth0_" ++ suffix
  | .eth1 => ascii "eth1_" ++ suffix

def firstDns (c : InterfaceConfig) : Bytes :=
  if 0 < c.dnsCount then c.dns.get ⟨0, Nat.zero_lt_two⟩ else []

def secondDns (c : InterfaceConfig) : Bytes :=
  if 1 < c.dnsCount then c.dns.get ⟨1, Nat.one_lt_two⟩ else []

def StringField.value (c : InterfaceConfig) : StringField → Bytes
  | mode => modeName c.mode
  | address => c.address
  | netmask => netmaskForPrefix c.prefixLength
  | gateway => c.gateway
  | hostname => c.hostname
  | dns1 => firstDns c
  | dns2 => secondDns c

def quoted (text : Bytes) : Bytes := '"'.toUInt8 :: (text ++ ['"'.toUInt8])

def FlatField.written (c : InterfaceConfig) : FlatField → Bytes
  | string field => quoted (field.value c)
  | number .prefixLength => decimal c.prefixLength.toNat
  | number .dhcpTimeoutSeconds => decimal c.dhcpTimeoutSeconds.toNat

/-- What is known of an interface once the member has been read. -/
def FlatField.read (c : InterfaceConfig) (fields : PortFields) : FlatField → PortFields
  | string field => field.store (field.value c) fields
  | number .prefixLength =>
    { fields with
      config := { fields.config with prefixLength := c.prefixLength }
      prefixSeen := true }
  | number .dhcpTimeoutSeconds =>
    { fields with config := { fields.config with dhcpTimeoutSeconds := c.dhcpTimeoutSeconds } }

/-- The fields in the order of `flat_interface_fields`. -/
def flatFields : List FlatField :=
  [.string .mode, .string .address, .number .prefixLength, .string .netmask, .string .gateway,
    .string .dns1, .string .dns2, .string .hostname, .number .dhcpTimeoutSeconds]

def flatMembers : List (Port × FlatField) :=
  flatFields.map (Port.eth0, ·) ++ flatFields.map (Port.eth1, ·)

def memberText (config : NetworkConfig) (m : Port × FlatField) : Bytes :=
  quoted (flatKey m.1 m.2.suffix) ++ ascii ":" ++ m.2.written (config.port m.1)

/-! ### What the text keeps -/

/-- The text of the interface can be read back. -/
structure InterfaceConfig.Recorded (c : InterfaceConfig) : Prop where
  prefixLength : 1 ≤ c.prefixLength ∧ c.prefixLength ≤ 32
  timeout : 1 ≤ c.dhcpTimeoutSeconds
  dns : compactDns [firstDns c, secondDns c] = (c.dns, c.dnsCount)
  plain : ∀ field : StringField, Plain (field.value c)

structure NetworkConfig.Recorded (config : NetworkConfig) : Prop where
  valid : (validate config).valid = true
  name : ∀ port, (config.port port).name = port.text
  port : ∀ port, (config.port port).Recorded

theorem ascii_append (s t : String) : ascii (s ++ t) = ascii s ++ ascii t := by
  rw [ascii, String.toList_append, List.map_append]
  rfl

theorem jsonEscape_plain {text : Bytes} (h : Plain text) : jsonEscape text = text := by
  have hall := h.2
  clear h
  induction text with
  | nil => rfl
  | cons c text ih =>
    obtain ⟨⟨hcontrol, hquote, hbackslash⟩, htext⟩ := List.forall_mem_cons.mp hall
    have hchar : jsonEscapeChar c = [c] := by
      rw [jsonEscapeChar, if_neg (by simp [hquote, hbackslash]),
        if_neg (UInt8.not_lt.mpr hcontrol)]
    rw [jsonEscape, List.flatMap_cons, hchar, ← jsonEscape, ih htext]
    rfl

/-- The members stand one after the other, with commas between them. -/
theorem flatInterfaceFields_eq {c : InterfaceConfig} (hc : c.Recorded) (config : NetworkConfig)
    (port : Port) (hport : config.port port = c) (text : String)
    (htext : ∀ suffix, flatKey port suffix = ascii text ++ suffix) :
    flatInterfaceFields c text =
      (ascii ",").intercalate ((flatFields.map (port, ·)).map (memberText config)) := by
  have hquote : ascii "\"" = ['"'.toUInt8] := rfl
  have hbehind : ascii "\":" = ['"'.toUInt8, ':'.toUInt8] := rfl
  have hcolon : ascii ":" = [':'.toUInt8] := rfl
  have hstring : ∀ field : StringField, jsonEscape (field.value c) = field.value c :=
    fun field => jsonEscape_plain (hc.plain field)
  have haddress := hstring .address
  have hgateway := hstring .gateway
  have hdns1 := hstring .dns1
  have hdns2 := hstring .dns2
  have hhostname := hstring .hostname
  have hfirst : firstDns c = if 0 < c.dnsCount then c.dns[0] else [] := rfl
  have hsecond : secondDns c = if 1 < c.dnsCount then c.dns[1] else [] := rfl
  simp only [StringField.value] at haddress hgateway hhostname
  simp only [StringField.value, hfirst, hsecond] at hdns1 hdns2
  simp only [flatFields, List.map_cons, List.map_nil]
  simp only [memberText, hport, htext]
  simp only [FlatField.suffix, FlatField.written, StringField.value, StringField.suffix,
    NumberField.suffix]
  simp only [List.intercalate_cons_cons, List.intercalate_singleton, quoted, hfirst, hsecond]
  unfold flatInterfaceFields
  dsimp only
  simp only [ascii_append, haddress, hgateway, hdns1, hdns2, hhostname]
  simp only [hquote, hbehind, hcolon, List.append_assoc, List.cons_append, List.nil_append]

/-! ### One member -/

theorem stringLoop_plain {text : Bytes} (h : Plain text) (result rest : Bytes) :
    stringLoop (text ++ '"'.toUInt8 :: rest) result =
      if (result ++ text).length ≤ 256 then some (result ++ text, rest) else none := by
  have hall := h.2
  clear h
  induction text generalizing result with
  | nil =>
    rw [List.nil_append, stringLoop.eq_def]
    simp only [if_true, List.append_nil]
  | cons c text ih =>
    obtain ⟨⟨hcontrol, hquote, hbackslash⟩, htext⟩ := List.forall_mem_cons.mp hall
    have hgoOn := ih (result ++ [c]) htext
    rw [List.append_assoc, List.singleton_append] at hgoOn
    rw [List.cons_append, stringLoop.eq_def]
    simp only [hquote, if_false, UInt8.not_lt.mpr hcontrol, hbackslash, ne_eq, not_false_eq_true,
      if_true, hgoOn]

theorem parseString_quoted {text : Bytes} (h : Plain text) (rest : Bytes) :
    parseString (quoted text ++ rest) = some (text, rest) := by
  have hloop := stringLoop_plain h [] rest
  rw [List.nil_append, if_pos h.1] at hloop
  rw [quoted, List.cons_append, List.append_assoc, List.singleton_append, parseString, consume,
    if_pos rfl, Option.bind_some, hloop]

/-- The keys are plain and different, and each leads to the field it is written for; together,
since the texts are evaluated only once then. -/
theorem keys_checked : (flatMembers.map fun m => flatKey m.1 m.2.suffix).Nodup ∧
    (∀ m ∈ flatMembers, Plain (flatKey m.1 m.2.suffix)) ∧
    ∀ port ∈ Port.all,
      (∀ field ∈ StringField.all, stringField (flatKey port field.suffix) = some (port, field)) ∧
      (∀ field ∈ NumberField.all, stringField (flatKey port field.suffix) = none ∧
        numberField (flatKey port field.suffix) = some (port, field)) := by
  decide +kernel

theorem keys_nodup : (flatMembers.map fun m => flatKey m.1 m.2.suffix).Nodup := keys_checked.1

theorem keys_plain : ∀ m ∈ flatMembers, Plain (flatKey m.1 m.2.suffix) := keys_checked.2.1

theorem Port.mem_all (port : Port) : port ∈ Port.all := by cases port <;> decide

theorem StringField.mem_all (field : StringField) : field ∈ StringField.all := by
  cases field <;> decide

theorem NumberField.mem_all (field : NumberField) : field ∈ NumberField.all := by
  cases field <;> decide

theorem stringField_key (port : Port) (field : StringField) :
    stringField (flatKey port field.suffix) = some (port, field) :=
  (keys_checked.2.2 port port.mem_all).1 field field.mem_all

theorem numberField_key (port : Port) (field : NumberField) :
    stringField (flatKey port field.suffix) = none ∧
      numberField (flatKey port field.suffix) = some (port, field) :=
  (keys_checked.2.2 port port.mem_all).2 field field.mem_all

namespace FlatJsonParser

/-- The parser once the member has been read. -/
def taken (config : NetworkConfig) (p : FlatJsonParser) (m : Port × FlatField) : FlatJsonParser :=
  p.keep (flatKey m.1 m.2.suffix) m.1 (m.2.read (config.port m.1) (p.ports m.1))

theorem parseField_written {config : NetworkConfig} {p : FlatJsonParser} {m : Port × FlatField}
    (hconfig : (config.port m.1).Recorded) (hnew : flatKey m.1 m.2.suffix ∉ p.seen) {rest : Bytes}
    (hrest : NoDigit rest) :
    p.parseField (flatKey m.1 m.2.suffix) (m.2.written (config.port m.1) ++ rest) =
      some (taken config p m, rest) := by
  obtain ⟨port, field⟩ := m
  cases field with
  | string field =>
    rw [parseField, if_neg hnew]
    simp only [FlatField.suffix, stringField_key, FlatField.written,
      parseString_quoted (hconfig.plain field), Option.map_some, taken, FlatField.read]
  | number field =>
    obtain ⟨hnone, hsome⟩ := numberField_key port field
    rw [parseField, if_neg hnew]
    cases field with
    | prefixLength =>
      have hbounds := hconfig.prefixLength
      rw [UInt8.le_iff_toNat_le, UInt8.le_iff_toNat_le] at hbounds
      simp only [UInt8.reduceToNat] at hbounds
      have hnumber : parseUnsigned
          (decimal ((config.port port).prefixLength.toNat : Int) ++ rest) =
            some ((config.port port).prefixLength.toNat, rest) :=
        Config.parseUnsigned_decimal (by omega) hrest
      have hrange : ¬ ((config.port port).prefixLength.toNat < 1 ∨
          32 < (config.port port).prefixLength.toNat) := by omega
      simp only [FlatField.suffix, hnone, FlatField.written, hnumber, Option.bind_some, hsome,
        NumberField.store, hrange, if_false, Option.map_some, UInt8.ofNat_toNat, taken,
        FlatField.read]
    | dhcpTimeoutSeconds =>
      have hbound := hconfig.timeout
      have hmaximum := (config.port port).dhcpTimeoutSeconds.toNat_lt
      rw [UInt16.le_iff_toNat_le] at hbound
      simp only [UInt16.reduceToNat] at hbound
      have hnumber : parseUnsigned
          (decimal ((config.port port).dhcpTimeoutSeconds.toNat : Int) ++ rest) =
            some ((config.port port).dhcpTimeoutSeconds.toNat, rest) :=
        Config.parseUnsigned_decimal (by omega) hrest
      have hrange : ¬ ((config.port port).dhcpTimeoutSeconds.toNat < 1 ∨
          65535 < (config.port port).dhcpTimeoutSeconds.toNat) := by omega
      simp only [FlatField.suffix, hnone, FlatField.written, hnumber, Option.bind_some, hsome,
        NumberField.store, hrange, if_false, Option.map_some, UInt16.ofNat_toNat, taken,
        FlatField.read]

theorem skipSpace_written (c : InterfaceConfig) (field : FlatField) (rest : Bytes) :
    skipSpace (field.written c ++ rest) = field.written c ++ rest := by
  cases field with
  | string field => exact Config.skipSpace_of_not (by decide) _
  | number field =>
    cases field with
    | prefixLength => exact Config.skipSpace_decimal _ rest
    | dhcpTimeoutSeconds => exact Config.skipSpace_decimal _ rest

theorem parseMember_written {config : NetworkConfig} {p : FlatJsonParser} {m : Port × FlatField}
    (hm : m ∈ flatMembers) (hconfig : (config.port m.1).Recorded)
    (hnew : flatKey m.1 m.2.suffix ∉ p.seen) {rest : Bytes} (hrest : NoDigit rest) :
    p.parseMember (memberText config m ++ rest) = some (taken config p m, skipSpace rest) := by
  have hcolon : skipSpace (ascii ":" ++ (m.2.written (config.port m.1) ++ rest)) =
      ':'.toUInt8 :: (m.2.written (config.port m.1) ++ rest) :=
    Config.skipSpace_of_not (by decide) _
  rw [memberText, List.append_assoc, List.append_assoc, parseMember,
    parseString_quoted (keys_plain m hm), Option.bind_some]
  dsimp only
  rw [hcolon, consume, if_pos rfl, Option.bind_some, skipSpace_written,
    parseField_written hconfig hnew hrest]
  rfl

theorem readMembers_last {p p' : FlatJsonParser} {member : Bytes}
    (hmember : p.parseMember (member ++ ascii "\x7d") = some (p', ascii "\x7d")) :
    p.readMembers (member ++ ascii "\x7d") = some p' := by
  have hconsume : consume '}'.toUInt8 (ascii "\x7d") = some [] := rfl
  have hspace : skipSpace [] = [] := rfl
  rw [readMembers_eq, hmember]
  simp only [hconsume, hspace, if_true]

theorem readMembers_more {p p' : FlatJsonParser} {member more : Bytes}
    (hmember : p.parseMember (member ++ (ascii "," ++ more)) = some (p', ascii "," ++ more))
    (hmore : skipSpace more = more) :
    p.readMembers (member ++ (ascii "," ++ more)) = p'.readMembers more := by
  have hnoBrace : consume '}'.toUInt8 (ascii "," ++ more) = none := rfl
  have hconsume : consume ','.toUInt8 (ascii "," ++ more) = some more := rfl
  rw [readMembers_eq, hmember]
  simp only [hnoBrace, hconsume, hmore]

/-- The members of an object, from some one on, are taken one after the other. -/
theorem readMembers_written {config : NetworkConfig} (hconfig : ∀ port, (config.port port).Recorded)
    {ms : List (Port × FlatField)} {p : FlatJsonParser} (hne : ms ≠ [])
    (hmembers : ∀ m ∈ ms, m ∈ flatMembers)
    (hnodup : (ms.map fun m => flatKey m.1 m.2.suffix).Nodup)
    (hnew : ∀ m ∈ ms, flatKey m.1 m.2.suffix ∉ p.seen) :
    p.readMembers ((ascii ",").intercalate (ms.map (memberText config)) ++ ascii "\x7d") =
      some (ms.foldl (taken config) p) := by
  induction ms generalizing p with
  | nil => exact absurd rfl hne
  | cons m ms ih =>
    obtain ⟨hm, hms⟩ := List.forall_mem_cons.mp hmembers
    obtain ⟨hkey, hnewRest⟩ := List.forall_mem_cons.mp hnew
    rw [List.map_cons, List.nodup_cons] at hnodup
    cases ms with
    | nil =>
      have hmember : p.parseMember (memberText config m ++ ascii "\x7d") =
          some (taken config p m, ascii "\x7d") :=
        parseMember_written hm (hconfig m.1) hkey (noDigit_cons (by decide) _)
      rw [List.map_cons, List.map_nil, List.intercalate_singleton, readMembers_last hmember]
      rfl
    | cons next ms =>
      let more := (ascii ",").intercalate ((next :: ms).map (memberText config)) ++ ascii "\x7d"
      have hmore : skipSpace more = more := by
        cases ms <;> rfl
      have hmember : p.parseMember (memberText config m ++ (ascii "," ++ more)) =
          some (taken config p m, ascii "," ++ more) :=
        parseMember_written hm (hconfig m.1) hkey (noDigit_cons (by decide) _)
      have hrest := @ih (taken config p m) (by simp) hms hnodup.2 ?_
      · rw [List.map_cons, List.map_cons, List.intercalate_cons_cons, List.append_assoc,
          List.append_assoc]
        exact (readMembers_more hmember hmore).trans hrest
      · intro m' hm' hmem
        obtain heq | hmem := List.mem_cons.mp hmem
        · exact hnodup.1 (heq ▸ List.mem_map_of_mem hm')
        · exact hnewRest m' hm' hmem

theorem seen_foldl_taken (config : NetworkConfig) (ms : List (Port × FlatField))
    (p : FlatJsonParser) : (ms.foldl (taken config) p).seen =
      (ms.map fun m => flatKey m.1 m.2.suffix).reverse ++ p.seen := by
  induction ms generalizing p with
  | nil => rfl
  | cons m ms ih =>
    rw [List.foldl_cons, ih, List.map_cons, List.reverse_cons, List.append_assoc,
      List.singleton_append]
    rfl

/-! ### All members -/

/-- The members of an interface concern that interface only. -/
theorem foldl_taken (config : NetworkConfig) (port : Port) (fields : List FlatField)
    (p : FlatJsonParser) :
    ((fields.map (port, ·)).foldl (taken config) p).ports =
      Function.update p.ports port
        (fields.foldl (FlatField.read (config.port port)) (p.ports port)) := by
  induction fields generalizing p with
  | nil => rw [List.map_nil, List.foldl_nil, List.foldl_nil, Function.update_eq_self]
  | cons field fields ih =>
    rw [List.map_cons, List.foldl_cons, List.foldl_cons, ih]
    simp only [taken, keep, Function.update_self, Function.update_idem]

end FlatJsonParser

/-- A netmask says how long its prefix is. -/
theorem netmasks_read : ∀ n ∈ List.range' 1 32,
    prefixFromNetmask (netmaskForPrefix (UInt8.ofNat n)) = some (UInt8.ofNat n) := by
  decide +kernel

theorem prefixFromNetmask_netmaskForPrefix {n : UInt8} (h : 1 ≤ n ∧ n ≤ 32) :
    prefixFromNetmask (netmaskForPrefix n) = some n := by
  rw [UInt8.le_iff_toNat_le, UInt8.le_iff_toNat_le] at h
  simp only [UInt8.reduceToNat] at h
  have hread := netmasks_read n.toNat (List.mem_range'_1.mpr (by omega))
  rwa [UInt8.ofNat_toNat] at hread

theorem modeOfName_modeName (mode : Mode) : modeOfName (modeName mode) = some mode := by
  cases mode <;> decide +kernel

theorem toList_pair (servers : Vector Bytes 2) : ∃ first second, servers.toList = [first, second] :=
  List.length_eq_two.mp (Vector.length_toList)

/-- What has been written of an interface makes up the interface again. -/
theorem apply_read {c : InterfaceConfig} (hc : c.Recorded) {fields : PortFields}
    (hname : fields.config.name = c.name) :
    (flatFields.foldl (FlatField.read c) fields).apply = some c := by
  have hmask := prefixFromNetmask_netmaskForPrefix hc.prefixLength
  have hdns := hc.dns
  have hservers : ((fields.dns.set 0 (firstDns c)).set 1 (secondDns c)).toList =
      [firstDns c, secondDns c] := by
    obtain ⟨first, second, hdns⟩ := toList_pair fields.dns
    rw [Vector.toList_set, Vector.toList_set, hdns]
    rfl
  simp only [flatFields, List.foldl_cons, List.foldl_nil, FlatField.read, StringField.store,
    StringField.value, PortFields.apply, PortFields.prefixLength, hmask, modeOfName_modeName,
    hservers, hdns, hname, if_true, Option.bind_some, Option.map_some, ne_eq, not_true,
    if_false]

/-! ### The whole text -/

theorem length_memberText_le {config : NetworkConfig} (hconfig : ∀ port, (config.port port).Recorded)
    {m : Port × FlatField} (hm : m ∈ flatMembers) : (memberText config m).length ≤ 600 := by
  have hkey := (keys_plain m hm).1
  have hcolon : (ascii ":").length = 1 := rfl
  have hwritten : (m.2.written (config.port m.1)).length ≤ 300 := by
    obtain ⟨port, field⟩ := m
    cases field with
    | string field =>
      have hshort := ((hconfig port).plain field).1
      simp only [FlatField.written, quoted, List.length_cons, List.length_append, List.length_nil]
      omega
    | number field =>
      cases field with
      | prefixLength =>
        have hmaximum := (config.port port).prefixLength.toNat_lt
        have hdigits : (decimal ((config.port port).prefixLength.toNat : Int)).length ≤ 3 :=
          length_decimal_le (by decide) (by omega)
        exact Nat.le_trans hdigits (by decide)
      | dhcpTimeoutSeconds =>
        have hmaximum := (config.port port).dhcpTimeoutSeconds.toNat_lt
        have hdigits : (decimal ((config.port port).dhcpTimeoutSeconds.toNat : Int)).length ≤ 5 :=
          length_decimal_le (by decide) (by omega)
        exact Nat.le_trans hdigits (by decide)
  simp only [memberText, quoted, List.length_append, List.length_cons, List.length_nil]
  omega

theorem toFlatJson_eq {config : NetworkConfig} (hconfig : ∀ port, (config.port port).Recorded) :
    toFlatJson config = '{'.toUInt8 ::
      ((ascii ",").intercalate (flatMembers.map (memberText config)) ++ ascii "\x7d") := by
  have heth0 := flatInterfaceFields_eq (hconfig .eth0) config .eth0 rfl "eth0_" fun _ => rfl
  have heth1 := flatInterfaceFields_eq (hconfig .eth1) config .eth1 rfl "eth1_" fun _ => rfl
  have hsplit : (ascii ",").intercalate (flatMembers.map (memberText config)) =
      (ascii ",").intercalate ((flatFields.map (Port.eth0, ·)).map (memberText config)) ++
        (ascii "," ++
          (ascii ",").intercalate ((flatFields.map (Port.eth1, ·)).map (memberText config))) := by
    rw [flatMembers, List.map_append]
    simp only [flatFields, List.map_cons, List.map_nil, List.cons_append, List.nil_append,
      List.intercalate_cons_cons, List.intercalate_singleton, List.append_assoc]
  have hbrace : ascii "\x7b" = ['{'.toUInt8] := rfl
  rw [hsplit, ← heth0, ← heth1, toFlatJson, hbrace]
  simp only [NetworkConfig.port, List.cons_append, List.nil_append, List.append_assoc]

theorem length_toFlatJson_le {config : NetworkConfig}
    (hconfig : ∀ port, (config.port port).Recorded) :
    (toFlatJson config).length ≤ 16 * 1024 := by
  have hparts := Config.length_intercalate_le (ascii ",") (flatMembers.map (memberText config))
  have hmembers : ((flatMembers.map (memberText config)).map fun part =>
      part.length + (ascii ",").length).sum ≤ (flatMembers.map fun _ => 601).sum := by
    rw [List.map_map]
    refine List.sum_le_sum fun m hm => ?_
    have hmember := length_memberText_le hconfig hm
    have hcomma : (ascii ",").length = 1 := rfl
    rw [Function.comp_apply, hcomma]
    omega
  have hsize : (flatMembers.map fun _ => 601).sum = 10818 := rfl
  have hend : (ascii "\x7d").length = 1 := rfl
  rw [toFlatJson_eq hconfig, List.length_cons, List.length_append]
  omega

/-- A configuration whose text can be read back is read back from its text. -/
theorem parseFlatJson_toFlatJson {config : NetworkConfig} (h : config.Recorded) :
    parseFlatJson (toFlatJson config) = some config := by
  let fresh : FlatJsonParser := {}
  have hne : flatMembers ≠ [] := by decide
  have hmembers := FlatJsonParser.readMembers_written (p := fresh) h.port hne (fun _ hm => hm)
    keys_nodup fun _ _ => List.not_mem_nil
  have hcount : (flatMembers.foldl (FlatJsonParser.taken config) fresh).seen.length ∈
      FlatJsonParser.fieldCounts := by
    rw [FlatJsonParser.seen_foldl_taken]
    decide
  have hports : (flatMembers.foldl (FlatJsonParser.taken config) fresh).ports =
      Function.update (Function.update fresh.ports .eth0
        (flatFields.foldl (FlatField.read config.eth0) (fresh.ports .eth0))) .eth1
        (flatFields.foldl (FlatField.read config.eth1) (fresh.ports .eth1)) := by
    rw [flatMembers, List.foldl_append, FlatJsonParser.foldl_taken, FlatJsonParser.foldl_taken]
    rfl
  have heth0 : ((flatMembers.foldl (FlatJsonParser.taken config) fresh).ports .eth0).apply =
      some config.eth0 := by
    rw [hports]
    exact apply_read (h.port .eth0) (h.name .eth0).symm
  have heth1 : ((flatMembers.foldl (FlatJsonParser.taken config) fresh).ports .eth1).apply =
      some config.eth1 := by
    rw [hports]
    exact apply_read (h.port .eth1) (h.name .eth1).symm
  have happly : (flatMembers.foldl (FlatJsonParser.taken config) fresh).applyStringValues =
      some config := by
    rw [FlatJsonParser.applyStringValues, heth0, heth1, Option.bind_some, Option.bind_some,
      if_pos h.valid]
  have hlength := length_toFlatJson_le h.port
  obtain ⟨more, hmore⟩ : ∃ more, (ascii ",").intercalate (flatMembers.map (memberText config)) ++
      ascii "\x7d" = '"'.toUInt8 :: more := ⟨_, rfl⟩
  have hbrace : skipSpace (toFlatJson config) = '{'.toUInt8 :: '"'.toUInt8 :: more := by
    rw [toFlatJson_eq h.port, hmore]
    exact Config.skipSpace_of_not (by decide) _
  have hquote : skipSpace ('"'.toUInt8 :: more) = '"'.toUInt8 :: more :=
    Config.skipSpace_of_not (by decide) _
  have hnotEmpty : (consume '}'.toUInt8 ('"'.toUInt8 :: more)).isSome = false := rfl
  rw [hmore] at hmembers
  rw [parseFlatJson, if_neg (by omega), FlatJsonParser.parse, hbrace, consume, if_pos rfl,
    Option.bind_some, hquote, hnotEmpty, if_neg Bool.false_ne_true, FlatJsonParser.parseMembers_eq,
    hmembers, Option.bind_some, if_pos hcount, happly]


end Uhf.Network

/-
Where the configurations of a transaction come from.

A configuration is read from its flat text or from the vendor's files, or it is the built-in one.
Each of them can be written as flat text and read again.

* `inetPton_plain` — an address that has been accepted is short, and all digits and dots;
* `Obtained.recorded` — a valid configuration from any source, without NULs, can be written;
* `Obtained.round_trip` — and its text gives the same configuration again.
-/
import UhfGateway.Network.ConfigText

namespace Uhf.Network

open Config (skipSpace consume Plain)

/-! ### Texts that have been accepted -/

/-- How many digits of the current octet have been read at most. -/
def OctetScan.digits (s : OctetScan) : ℕ :=
  if !s.sawDigit then 0 else if s.current < 10 then 1 else if s.current < 100 then 2 else 3

/-- An octet begins with zero, and no more than three of them are closed. -/
def OctetScan.Sound (s : OctetScan) : Prop :=
  (s.sawDigit = false → s.current = 0) ∧ s.closed.length ≤ 3

theorem OctetScan.step_sound {s s' : OctetScan} {c : UInt8} (hs : s.Sound) (h : s.step c = some s') :
    s'.Sound ∧ 4 * s.closed.length + s.digits + 1 ≤ 4 * s'.closed.length + s'.digits ∧
      (isDigit c = true ∨ c = '.'.toUInt8) := by
  obtain ⟨hfresh, hclosed⟩ := hs
  rw [step] at h
  split at h
  · next hdigit =>
    have hc : isDigit c = true := by
      simp only [Char.reduceToNat] at hdigit
      simp only [isDigit, Bool.and_eq_true, decide_eq_true_eq, UInt8.le_iff_toNat_le]
      exact hdigit
    rw [Option.ite_none_left_eq_some, Option.ite_none_left_eq_some, Option.some.injEq] at h
    obtain ⟨hzero, hbyte, rfl⟩ := h
    simp only [Char.reduceToNat] at hbyte hdigit
    refine ⟨⟨by simp, hclosed⟩, ?_, .inl hc⟩
    cases hsaw : s.sawDigit with
    | false =>
      -- the first digit of an octet
      have hcurrent := hfresh hsaw
      simp only [digits, hsaw, hcurrent, Bool.not_false, Bool.not_true, if_true,
        Bool.false_eq_true, if_false, Char.reduceToNat]
      split <;> omega
    | true =>
      -- no leading zero, so that one more digit is ten times as much
      have hpositive : s.current ≠ 0 := fun h => hzero ⟨hsaw, h⟩
      simp only [digits, hsaw, Bool.not_true, Bool.false_eq_true, if_false, Char.reduceToNat]
      split_ifs <;> omega
  · rw [Option.ite_none_right_eq_some, Option.ite_none_left_eq_some, Option.some.injEq] at h
    obtain ⟨⟨hdot, -⟩, hthree, rfl⟩ := h
    have hdigits : s.digits ≤ 3 := by
      rw [digits]
      split_ifs <;> omega
    have hnone : digits { closed := s.current :: s.closed, current := 0, sawDigit := false } = 0 :=
      rfl
    refine ⟨⟨fun _ => rfl, ?_⟩, ?_, .inr (UInt8.toNat_inj.mp hdot)⟩
    · rw [List.length_cons]
      omega
    · rw [hnone, List.length_cons]
      omega

theorem OctetScan.scan_sound {text : Bytes} {s s' : OctetScan} (hs : s.Sound)
    (h : text.foldlM OctetScan.step s = some s') :
    4 * s.closed.length + s.digits + text.length ≤ 15 ∧
      ∀ c ∈ text, isDigit c = true ∨ c = '.'.toUInt8 := by
  induction text generalizing s with
  | nil =>
    have hdigits : s.digits ≤ 3 := by
      rw [digits]
      split_ifs <;> omega
    have hclosed := hs.2
    refine ⟨?_, fun c hc => absurd hc List.not_mem_nil⟩
    rw [List.length_nil]
    omega
  | cons c text ih =>
    rw [List.foldlM_cons] at h
    obtain ⟨s₁, hstep, hrest⟩ := Option.bind_eq_some_iff.mp h
    obtain ⟨hs₁, hlonger, hc⟩ := step_sound hs hstep
    obtain ⟨hlength, hall⟩ := ih hs₁ hrest
    refine ⟨?_, List.forall_mem_cons.mpr ⟨hc, hall⟩⟩
    rw [List.length_cons]
    omega

theorem plain_of_address {c : UInt8} (h : isDigit c = true ∨ c = '.'.toUInt8) :
    0x20 ≤ c ∧ c ≠ '"'.toUInt8 ∧ c ≠ '\\'.toUInt8 := by
  obtain hdigit | rfl := h
  · simp only [isDigit, Bool.and_eq_true, decide_eq_true_eq, UInt8.le_iff_toNat_le] at hdigit
    have hlow : 48 ≤ c.toNat := hdigit.1
    have hhigh : c.toNat ≤ 57 := hdigit.2
    refine ⟨?_, ?_, ?_⟩
    · rw [UInt8.le_iff_toNat_le]
      exact Nat.le_trans (by decide) hlow
    · rintro rfl
      exact absurd hlow (by decide)
    · rintro rfl
      exact absurd hhigh (by decide)
  · decide

/-- A text that is short, and all digits and dots. -/
def Dotted (value : Bytes) : Prop :=
  value.length ≤ 15 ∧ ∀ c ∈ value, isDigit c = true ∨ c = '.'.toUInt8

theorem inetPton_dotted {value : Bytes} (h : (inetPton value).isSome = true) (hnull : 0 ∉ value) :
    Dotted value := by
  have hwhole : value.takeWhile (· ≠ 0) = value := by
    rw [List.takeWhile_eq_self_iff]
    intro c hc
    rw [decide_eq_true_eq]
    rintro rfl
    exact hnull hc
  rw [inetPton, hwhole] at h
  cases hscan : value.foldlM OctetScan.step {} with
  | none =>
    rw [hscan] at h
    cases h
  | some s' =>
    obtain ⟨hlength, hall⟩ := OctetScan.scan_sound (s := {}) ⟨fun _ => rfl, by decide⟩ hscan
    exact ⟨by omega, hall⟩

theorem inetPton_plain {value : Bytes} (h : (inetPton value).isSome = true) (hnull : 0 ∉ value) :
    Plain value := by
  obtain ⟨hlength, hall⟩ := inetPton_dotted h hnull
  exact ⟨by omega, fun c hc => plain_of_address (hall c hc)⟩

theorem validIpv4_plain {value : Bytes} (h : validIpv4 value = true) (hnull : 0 ∉ value) :
    Plain value := by
  rw [validIpv4, Bool.and_eq_true] at h
  exact inetPton_plain h.2 hnull

theorem plain_nil : Plain [] := by decide

theorem hostnameChars_plain {previous : UInt8} {value : Bytes}
    (h : hostnameChars previous value = true) :
    ∀ c ∈ value, 0x20 ≤ c ∧ c ≠ '"'.toUInt8 ∧ c ≠ '\\'.toUInt8 := by
  induction value generalizing previous with
  | nil => exact fun c hc => absurd hc List.not_mem_nil
  | cons c value ih =>
    rw [hostnameChars] at h
    split at h
    · cases h
    next hc =>
    split at h
    · cases h
    refine List.forall_mem_cons.mpr ⟨?_, ih h⟩
    rw [Bool.not_eq_true', Bool.not_eq_false] at hc
    refine ⟨?_, ?_, ?_⟩
    · simp only [isAlnum, Bool.or_eq_true, Bool.and_eq_true, decide_eq_true_eq] at hc
      obtain ((((⟨hlow, -⟩ | ⟨hlow, -⟩) | ⟨hlow, -⟩) | rfl) | rfl) | rfl := hc
      · exact UInt8.le_trans (by decide) hlow
      · exact UInt8.le_trans (by decide) hlow
      · exact UInt8.le_trans (by decide) hlow
      all_goals decide
    · rintro rfl
      exact absurd hc (by decide)
    · rintro rfl
      exact absurd hc (by decide)

theorem validHostname_plain {value : Bytes} (h : validHostname value = true) : Plain value := by
  simp only [validHostname, Bool.and_eq_true, Bool.not_eq_true', Bool.or_eq_false_iff,
    decide_eq_false_iff_not] at h
  exact ⟨by omega, hostnameChars_plain h.2⟩

/-- No text of the interface holds a NUL. -/
structure InterfaceConfig.Legible (c : InterfaceConfig) : Prop where
  address : 0 ∉ c.address
  gateway : 0 ∉ c.gateway
  hostname : 0 ∉ c.hostname
  dns : ∀ server ∈ c.dns.toList, 0 ∉ server

/-- An interface with a prefix and a timeout, and with its name servers at the front. -/
structure InterfaceConfig.Ordered (c : InterfaceConfig) : Prop where
  prefixLength : 1 ≤ c.prefixLength ∧ c.prefixLength ≤ 32
  timeout : 1 ≤ c.dhcpTimeoutSeconds
  dns : compactDns [firstDns c, secondDns c] = (c.dns, c.dnsCount)

theorem netmasks_plain : ∀ n ∈ List.range' 1 32, Plain (netmaskForPrefix (UInt8.ofNat n)) := by
  decide +kernel

theorem netmaskForPrefix_plain {n : UInt8} (h : 1 ≤ n ∧ n ≤ 32) : Plain (netmaskForPrefix n) := by
  rw [UInt8.le_iff_toNat_le, UInt8.le_iff_toNat_le] at h
  simp only [UInt8.reduceToNat] at h
  have hplain := netmasks_plain n.toNat (List.mem_range'_1.mpr (by omega))
  rwa [UInt8.ofNat_toNat] at hplain

/-- A server among those that are counted is an address. -/
theorem InterfaceConfig.Checked.server_plain {c : InterfaceConfig} {name : String}
    (h : c.Checked name) (hlegible : c.Legible) {i : ℕ} (hi : i < 2) (hcount : i < c.dnsCount.toNat) :
    Plain c.dns[i] := by
  have hmem : c.dns[i] ∈ c.dns.toList := by
    rw [← Vector.getElem_toList (by rwa [Vector.length_toList])]
    exact List.getElem_mem _
  have htake : c.dns[i] ∈ c.dns.toList.take c.dnsCount.toNat := by
    rw [← Vector.getElem_toList (by rwa [Vector.length_toList])]
    exact List.mem_take_iff_getElem.mpr ⟨i, by
      rw [Vector.length_toList]
      omega, rfl⟩
  exact validIpv4_plain (List.all_eq_true.mp h.dns _ htake) (hlegible.dns _ hmem)

theorem InterfaceConfig.Checked.plain {c : InterfaceConfig} {name : String} (h : c.Checked name)
    (hlegible : c.Legible) (hordered : c.Ordered) (field : StringField) :
    Plain (field.value c) := by
  cases field with
  | mode =>
    show Plain (modeName c.mode)
    cases c.mode <;> decide +kernel
  | address =>
    cases hmode : c.mode with
    | staticAddress => exact validIpv4_plain (h.staticAddress hmode).1 hlegible.address
    | dhcp =>
      show Plain c.address
      rw [(h.dhcp hmode).1]
      exact plain_nil
  | netmask => exact netmaskForPrefix_plain hordered.prefixLength
  | gateway =>
    show Plain c.gateway
    cases hmode : c.mode with
    | staticAddress =>
      obtain hnone | ⟨haddress, -⟩ := (h.staticAddress hmode).2.2.2
      · rw [hnone]
        exact plain_nil
      · exact validIpv4_plain haddress hlegible.gateway
    | dhcp =>
      rw [(h.dhcp hmode).2.1]
      exact plain_nil
  | hostname =>
    show Plain c.hostname
    obtain hnone | hname := h.hostname
    · rw [hnone]
      exact plain_nil
    · exact validHostname_plain hname
  | dns1 =>
    show Plain (firstDns c)
    rw [firstDns]
    split
    · next hcount => exact h.server_plain hlegible (by decide) (UInt8.lt_iff_toNat_lt.mp hcount)
    · exact plain_nil
  | dns2 =>
    show Plain (secondDns c)
    rw [secondDns]
    split
    · next hcount => exact h.server_plain hlegible (by decide) (UInt8.lt_iff_toNat_lt.mp hcount)
    · exact plain_nil

/-! ### What the readers make -/

theorem maskStep_ones {s s' : UInt8 × Bool} {one : Bool} (h : maskStep s one = some s') :
    s'.1 = s.1 ∨ s'.1 = s.1 + 1 := by
  obtain ⟨ones, zeroSeen⟩ := s
  rw [maskStep] at h
  split_ifs at h
  · cases h
    exact .inr rfl
  · cases h
    exact .inl rfl

theorem foldlM_maskStep_ones {bits : List Bool} {s s' : UInt8 × Bool}
    (h : bits.foldlM maskStep s = some s') (hsmall : s.1.toNat + bits.length ≤ 255) :
    s'.1.toNat ≤ s.1.toNat + bits.length := by
  induction bits generalizing s with
  | nil =>
    cases h
    omega
  | cons one bits ih =>
    rw [List.foldlM_cons] at h
    obtain ⟨s₁, hstep, hrest⟩ := Option.bind_eq_some_iff.mp h
    rw [List.length_cons] at hsmall ⊢
    have hone : s₁.1.toNat ≤ s.1.toNat + 1 := by
      obtain hsame | hnext := maskStep_ones hstep
      · rw [hsame]
        exact Nat.le_succ _
      · rw [hnext, UInt8.toNat_add]
        exact Nat.mod_le _ _
    have hmore := ih hrest (by omega)
    omega

theorem prefixFromNetmask_bounds {value : Bytes} {n : UInt8} (h : prefixFromNetmask value = some n) :
    1 ≤ n ∧ n ≤ 32 := by
  obtain ⟨mask, -, h⟩ := Option.bind_eq_some_iff.mp h
  obtain ⟨⟨ones, zeroSeen⟩, hbits, h⟩ := Option.bind_eq_some_iff.mp h
  have hlength : (maskBits mask).length = 32 := by
    rw [maskBits, List.length_map, List.length_reverse, List.length_range]
  have hones := foldlM_maskStep_ones hbits (by
    rw [hlength]
    decide)
  simp only [Option.ite_none_left_eq_some, Option.some.injEq] at h
  obtain ⟨hzero, rfl⟩ := h
  have hpositive : ones.toNat ≠ 0 := fun h => hzero (UInt8.toNat_inj.mp h)
  rw [UInt8.le_iff_toNat_le, UInt8.le_iff_toNat_le]
  rw [hlength] at hones
  simp only [UInt8.reduceToNat, Nat.zero_add] at hones ⊢
  omega

/-- Servers that have been moved to the front stay there. -/
theorem compactDns_again (first second : Bytes) {c : InterfaceConfig}
    (hdns : c.dns = (compactDns [first, second]).1)
    (hcount : c.dnsCount = (compactDns [first, second]).2) :
    compactDns [firstDns c, secondDns c] = (c.dns, c.dnsCount) := by
  have hfirst : firstDns c = if 0 < c.dnsCount then c.dns[0] else [] := rfl
  have hsecond : secondDns c = if 1 < c.dnsCount then c.dns[1] else [] := rfl
  rw [hfirst, hsecond, hdns, hcount]
  by_cases hfirst : first = []
  · by_cases hsecond : second = []
    · simp [compactDns, hfirst, hsecond]
    · simp [compactDns, hfirst, hsecond]
  · by_cases hsecond : second = []
    · simp [compactDns, hfirst, hsecond]
    · simp [compactDns, hfirst, hsecond]

/-- What the parser knows of an interface at any time. -/
structure PortFields.Sound (fields : PortFields) (port : Port) : Prop where
  name : fields.config.name = port.text
  prefixLength : 1 ≤ fields.config.prefixLength ∧ fields.config.prefixLength ≤ 32
  timeout : 1 ≤ fields.config.dhcpTimeoutSeconds

theorem StringField.store_sound {fields : PortFields} {port : Port} (h : fields.Sound port)
    (text : Bytes) (field : StringField) : (field.store text fields).Sound port := by
  obtain ⟨hname, hbits, htimeout⟩ := h
  cases field <;> exact ⟨hname, hbits, htimeout⟩

theorem NumberField.store_sound {fields fields' : PortFields} {port : Port} (h : fields.Sound port)
    {value : ℕ} {field : NumberField} (hs : field.store value fields = some fields') :
    fields'.Sound port := by
  obtain ⟨hname, hbits, htimeout⟩ := h
  cases field with
  | prefixLength =>
    rw [store, Option.ite_none_left_eq_some, Option.some.injEq] at hs
    obtain ⟨hrange, rfl⟩ := hs
    refine ⟨hname, ?_, htimeout⟩
    have hvalue : (UInt8.ofNat value).toNat = value := UInt8.toNat_ofNat_of_lt' (Nat.lt_of_le_of_lt (by omega : value ≤ 32) (by decide))
    rw [UInt8.le_iff_toNat_le, UInt8.le_iff_toNat_le, hvalue]
    simp only [UInt8.reduceToNat]
    omega
  | dhcpTimeoutSeconds =>
    rw [store, Option.ite_none_left_eq_some, Option.some.injEq] at hs
    obtain ⟨hrange, rfl⟩ := hs
    refine ⟨hname, hbits, ?_⟩
    have hvalue : (UInt16.ofNat value).toNat = value := UInt16.toNat_ofNat_of_lt' (Nat.lt_of_le_of_lt (by omega : value ≤ 65535) (by decide))
    rw [UInt16.le_iff_toNat_le, hvalue]
    simp only [UInt16.reduceToNat]
    omega

namespace FlatJsonParser

def Sound (p : FlatJsonParser) : Prop := ∀ port, (p.ports port).Sound port

theorem sound_fresh : ({} : FlatJsonParser).Sound := by
  intro port
  refine ⟨rfl, ?_, ?_⟩
  · show (1 : UInt8) ≤ 24 ∧ (24 : UInt8) ≤ 32
    decide
  · show (1 : UInt16) ≤ 15
    decide

theorem keep_sound {p : FlatJsonParser} (h : p.Sound) {key : Bytes} {port : Port}
    {fields : PortFields} (hfields : fields.Sound port) : (p.keep key port fields).Sound := by
  intro other
  by_cases hother : other = port
  · subst hother
    simpa [keep] using hfields
  · simpa [keep, hother] using h other

theorem parseField_sound {p p' : FlatJsonParser} {key input rest : Bytes} (hp : p.Sound)
    (h : p.parseField key input = some (p', rest)) : p'.Sound := by
  rw [parseField, Option.ite_none_left_eq_some] at h
  obtain ⟨-, h⟩ := h
  split at h
  · next port field _ =>
    obtain ⟨⟨text, behind⟩, -, hr⟩ := Option.map_eq_some_iff.mp h
    cases hr
    exact keep_sound hp (field.store_sound (hp port) text)
  · obtain ⟨⟨value, behind⟩, -, h⟩ := Option.bind_eq_some_iff.mp h
    obtain ⟨⟨port, field⟩, -, h⟩ := Option.bind_eq_some_iff.mp h
    obtain ⟨fields, hfields, hr⟩ := Option.map_eq_some_iff.mp h
    cases hr
    exact keep_sound hp (NumberField.store_sound (hp port) hfields)

end FlatJsonParser

theorem PortFields.apply_ordered {fields : PortFields} {port : Port} {c : InterfaceConfig}
    (hfields : fields.Sound port) (h : fields.apply = some c) : c.name = port.text ∧ c.Ordered := by
  obtain ⟨n, hn, h⟩ := Option.bind_eq_some_iff.mp h
  obtain ⟨mode, -, rfl⟩ := Option.map_eq_some_iff.mp h
  have hbits : 1 ≤ n ∧ n ≤ 32 := by
    rw [prefixLength] at hn
    split at hn
    · obtain ⟨fromMask, hmask, hn⟩ := Option.bind_eq_some_iff.mp hn
      have hbounds := prefixFromNetmask_bounds hmask
      split_ifs at hn with hseen hsame
      · cases hn
        exact hfields.prefixLength
      · cases hn
        exact hbounds
    · split at hn
      · cases hn
        exact hfields.prefixLength
      · cases hn
  refine ⟨hfields.name, hbits, hfields.timeout, ?_⟩
  obtain ⟨first, second, hservers⟩ := toList_pair fields.dns
  refine compactDns_again first second ?_ ?_
  · rw [← hservers]
  · rw [← hservers]

/-- A configuration whose interfaces have their names, and can be written. -/
structure NetworkConfig.Ordered (config : NetworkConfig) : Prop where
  valid : (validate config).valid = true
  name : ∀ port, (config.port port).name = port.text
  port : ∀ port, (config.port port).Ordered

theorem FlatJsonParser.parseMembers_ordered {p : FlatJsonParser} {input : Bytes}
    {config : NetworkConfig} (hp : p.Sound) (h : p.parseMembers input = some config) :
    config.Ordered := by
  fun_induction parseMembers p input with
  | case1 => cases h
  | case2 p input p' rest hmember behind hbrace hdone =>
    obtain ⟨key, _, _, field, -, -, hfield, -⟩ := parseMember_eq_some hmember
    have hp' := parseField_sound hp hfield
    obtain ⟨eth0, heth0, h⟩ := Option.bind_eq_some_iff.mp h
    obtain ⟨eth1, heth1, h⟩ := Option.bind_eq_some_iff.mp h
    rw [Option.ite_none_right_eq_some, Option.some.injEq] at h
    obtain ⟨hvalid, rfl⟩ := h
    have hordered0 := PortFields.apply_ordered (hp' .eth0) heth0
    have hordered1 := PortFields.apply_ordered (hp' .eth1) heth1
    refine ⟨hvalid, fun port => ?_, fun port => ?_⟩
    · cases port with
      | eth0 => exact hordered0.1
      | eth1 => exact hordered1.1
    · cases port with
      | eth0 => exact hordered0.2
      | eth1 => exact hordered1.2
  | case3 => cases h
  | case4 => cases h
  | case5 p input p' rest hmember hbrace more hcomma ih =>
    obtain ⟨key, _, _, field, -, -, hfield, -⟩ := parseMember_eq_some hmember
    exact ih (parseField_sound hp hfield) h

theorem parseFlatJson_ordered {json : Bytes} {config : NetworkConfig}
    (h : parseFlatJson json = some config) : config.Ordered := by
  rw [parseFlatJson, Option.ite_none_left_eq_some] at h
  obtain ⟨input, -, h⟩ := Option.bind_eq_some_iff.mp h.2
  rw [Option.ite_none_left_eq_some] at h
  exact FlatJsonParser.parseMembers_ordered FlatJsonParser.sound_fresh h.2

theorem parseVendorFile_ordered {contents : Bytes} {config c : InterfaceConfig}
    (h : parseVendorFile contents config = some c) : c.name = config.name ∧ c.Ordered := by
  rw [parseVendorFile, Option.ite_none_left_eq_some] at h
  obtain ⟨fields, -, h⟩ := Option.bind_eq_some_iff.mp h.2
  obtain ⟨method, -, h⟩ := Option.bind_eq_some_iff.mp h
  obtain ⟨n, hn, h⟩ := Option.bind_eq_some_iff.mp h
  obtain ⟨netmask, -, hmask⟩ := Option.bind_eq_some_iff.mp hn
  have hbits := prefixFromNetmask_bounds hmask
  have htimeout : (1 : UInt16) ≤ 15 := by decide
  have hdns : compactDns [[], []] = (Vector.replicate 2 [], 0) := by decide
  dsimp only at h
  split at h
  · obtain ⟨address, -, rfl⟩ := Option.map_eq_some_iff.mp h
    exact ⟨rfl, hbits, htimeout, hdns⟩
  · rw [Option.ite_none_right_eq_some, Option.some.injEq] at h
    obtain ⟨-, rfl⟩ := h
    exact ⟨rfl, hbits, htimeout, hdns⟩

theorem loadVendor_ordered {eth0 eth1 : Bytes} {config : NetworkConfig}
    (h : loadVendor eth0 eth1 = some config) : config.Ordered := by
  obtain ⟨c0, hc0, h⟩ := Option.bind_eq_some_iff.mp h
  obtain ⟨c1, hc1, h⟩ := Option.bind_eq_some_iff.mp h
  rw [Option.ite_none_right_eq_some, Option.some.injEq] at h
  obtain ⟨hvalid, rfl⟩ := h
  obtain ⟨hname0, hordered0⟩ := parseVendorFile_ordered hc0
  obtain ⟨hname1, hordered1⟩ := parseVendorFile_ordered hc1
  refine ⟨hvalid, fun port => ?_, fun port => ?_⟩
  · cases port with
    | eth0 => exact hname0
    | eth1 => exact hname1
  · cases port with
    | eth0 => exact hordered0
    | eth1 => exact hordered1

/-! ### Sources -/

/-- Where the service takes its configurations from. -/
inductive NetworkConfig.Obtained : NetworkConfig → Prop
  | flatText {json : Bytes} {config : NetworkConfig} :
      parseFlatJson json = some config → Obtained config
  | vendorFiles {eth0 eth1 : Bytes} {config : NetworkConfig} :
      loadVendor eth0 eth1 = some config → Obtained config
  | builtIn : Obtained {}

def NetworkConfig.Legible (config : NetworkConfig) : Prop := ∀ port, (config.port port).Legible

theorem NetworkConfig.Obtained.ordered {config : NetworkConfig} (h : config.Obtained) :
    config.Ordered := by
  cases h with
  | flatText h => exact parseFlatJson_ordered h
  | vendorFiles h => exact loadVendor_ordered h
  | builtIn =>
    refine ⟨validate_default, fun port => ?_, fun port => ?_⟩
    · cases port <;> rfl
    · cases port <;> exact ⟨by decide, by decide, by decide⟩

theorem NetworkConfig.Obtained.recorded {config : NetworkConfig} (h : config.Obtained)
    (hlegible : config.Legible) : config.Recorded := by
  have hordered := h.ordered
  have hchecked := validate_checked hordered.valid
  refine ⟨hordered.valid, hordered.name, fun port => ?_⟩
  obtain ⟨hbits, htimeout, hdns⟩ := hordered.port port
  refine ⟨hbits, htimeout, hdns, ?_⟩
  cases port with
  | eth0 => exact hchecked.eth0.plain (hlegible .eth0) (hordered.port .eth0)
  | eth1 => exact hchecked.eth1.plain (hlegible .eth1) (hordered.port .eth1)

/-- A configuration from any source is read back from its flat text. -/
theorem NetworkConfig.Obtained.round_trip {config : NetworkConfig} (h : config.Obtained)
    (hlegible : config.Legible) : parseFlatJson (toFlatJson config) = some config :=
  parseFlatJson_toFlatJson (h.recorded hlegible)

end Uhf.Network

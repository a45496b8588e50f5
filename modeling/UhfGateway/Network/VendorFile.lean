/-
The vendor's file of an interface (`parse_vendor_file` and `vendor_file_contents` of
`platform/network/linux_backend`).

The file gives the mask of the subnet where the configuration has the length of the prefix, and
the reader takes more than the writer gives: blanks, quotes, comments and entries it does not know.

* `prefixFromNetmask_iff` — a mask is taken if it is ones before zeros, with a one at least;
* `vendor_file_round_trip` — what is written of a valid configuration is read back.
-/
import Mathlib.Data.List.GetD
import UhfGateway.Network.LeaseFile

namespace Uhf.Network

open Config (isCSpace isDigit_notSpace)

/-! ### Masks -/

/-- The mask whose first `prefixLength` bits are set. -/
def contiguousMask (prefixLength : UInt8) : UInt32 :=
  if prefixLength = 32 then 0xFFFFFFFF else 0xFFFFFFFF <<< (32 - prefixLength.toUInt32)

/-- Ones before zeros. -/
def onesThenZeros (n : ℕ) : List Bool := List.replicate n true ++ List.replicate (32 - n) false

theorem foldlM_maskStep_replicate (n k : ℕ) (ones : UInt8) :
    ∃ zeroSeen, (List.replicate n true ++ List.replicate k false).foldlM maskStep (ones, false) =
      some (ones + UInt8.ofNat n, zeroSeen) := by
  have hzeros : ∀ (k : ℕ) (ones : UInt8) (zeroSeen : Bool), ∃ zeroSeen',
      (List.replicate k false).foldlM maskStep (ones, zeroSeen) = some (ones, zeroSeen') := by
    intro k
    induction k with
    | zero => exact fun ones zeroSeen => ⟨zeroSeen, rfl⟩
    | succ k ih =>
      intro ones zeroSeen
      obtain ⟨zeroSeen', hrest⟩ := ih ones true
      exact ⟨zeroSeen', hrest⟩
  induction n generalizing ones with
  | zero =>
    obtain ⟨zeroSeen, hrest⟩ := hzeros k ones false
    refine ⟨zeroSeen, ?_⟩
    rw [List.replicate_zero, List.nil_append, hrest]
    simp
  | succ n ih =>
    obtain ⟨zeroSeen, hrest⟩ := ih (ones + 1)
    refine ⟨zeroSeen, ?_⟩
    have hcount : ones + UInt8.ofNat (n + 1) = ones + 1 + UInt8.ofNat n := by
      rw [UInt8.add_assoc, UInt8.add_comm 1, UInt8.ofNat_add]
      rfl
    rw [hcount, ← hrest]
    rfl

/-- Behind a zero there are zeros only. -/
theorem foldlM_maskStep_some {bits : List Bool} {ones : UInt8} {zeroSeen : Bool}
    {s : UInt8 × Bool} (h : bits.foldlM maskStep (ones, zeroSeen) = some s) :
    ∃ n k, bits = List.replicate n true ++ List.replicate k false ∧ (zeroSeen = true → n = 0) := by
  induction bits generalizing ones zeroSeen with
  | nil => exact ⟨0, 0, rfl, fun _ => rfl⟩
  | cons one bits ih =>
    rw [List.foldlM_cons] at h
    obtain ⟨⟨ones', zeroSeen'⟩, hstep, hrest⟩ := Option.bind_eq_some_iff.mp h
    obtain ⟨n, k, hbits, hzero⟩ := ih hrest
    cases one with
    | false =>
      obtain rfl : zeroSeen' = true := by
        cases hstep
        rfl
      rw [hzero rfl] at hbits
      refine ⟨0, k + 1, ?_, fun _ => rfl⟩
      rw [hbits]
      rfl
    | true =>
      have hfresh : zeroSeen = false := by
        cases zeroSeen with
        | false => rfl
        | true => cases hstep
      refine ⟨n + 1, k, ?_, fun hseen => absurd (hfresh.symm.trans hseen) Bool.false_ne_true⟩
      rw [hbits]
      rfl

theorem length_maskBits (mask : UInt32) : (maskBits mask).length = 32 := by
  rw [maskBits, List.length_map, List.length_reverse, List.length_range]

theorem getD_maskBits (mask : UInt32) {i : ℕ} (h : i < 32) :
    (maskBits mask).getD i false = mask.toNat.testBit (31 - i) := by
  have hplace : i < (maskBits mask).length := length_maskBits mask ▸ h
  rw [List.getD_eq_getElem _ _ hplace]
  simp only [maskBits, List.getElem_map, List.getElem_reverse, List.length_range,
    List.getElem_range]

theorem maskBits_injective : Function.Injective maskBits := by
  intro first second h
  apply UInt32.toNat.inj
  apply Nat.eq_of_testBit_eq
  intro i
  by_cases hi : i < 32
  · have hbit := congrArg (fun bits => bits.getD (31 - i) false) h
    rw [getD_maskBits _ (by omega), getD_maskBits _ (by omega),
      show 31 - (31 - i) = i by omega] at hbit
    exact hbit
  · have hsmall : 2 ^ 32 ≤ 2 ^ i := Nat.pow_le_pow_right (by decide) (by omega)
    rw [Nat.testBit_lt_two_pow (Nat.lt_of_lt_of_le first.toNat_lt hsmall),
      Nat.testBit_lt_two_pow (Nat.lt_of_lt_of_le second.toNat_lt hsmall)]

theorem toNat_contiguousMask {prefixLength : UInt8} (hpositive : 1 ≤ prefixLength)
    (h : prefixLength ≤ 32) :
    (contiguousMask prefixLength).toNat =
      ((2 ^ 32 - 1) <<< (32 - prefixLength.toNat)) % 2 ^ 32 := by
  rw [UInt8.le_iff_toNat_le] at hpositive h
  simp only [UInt8.reduceToNat] at hpositive h
  rw [contiguousMask]
  split
  · next hall =>
    rw [hall]
    rfl
  · next hsome =>
    have hlt : prefixLength.toNat < 32 := by
      refine Nat.lt_of_le_of_ne h fun heq => hsome (UInt8.toNat.inj heq)
    have hshift : (32 - prefixLength.toUInt32).toNat = 32 - prefixLength.toNat := by
      have hle : prefixLength.toUInt32 ≤ 32 := by
        rw [UInt32.le_iff_toNat_le, UInt8.toNat_toUInt32]
        exact h
      rw [UInt32.toNat_sub_of_le _ _ hle, UInt8.toNat_toUInt32]
      rfl
    have hall : (0xFFFFFFFF : UInt32).toNat = 2 ^ 32 - 1 := rfl
    rw [UInt32.toNat_shiftLeft, hshift, hall,
      Nat.mod_eq_of_lt (show 32 - prefixLength.toNat < 32 by omega)]

theorem maskBits_contiguousMask {prefixLength : UInt8} (hpositive : 1 ≤ prefixLength)
    (h : prefixLength ≤ 32) :
    maskBits (contiguousMask prefixLength) = onesThenZeros prefixLength.toNat := by
  have hmask := toNat_contiguousMask hpositive h
  rw [UInt8.le_iff_toNat_le] at h
  simp only [UInt8.reduceToNat] at h
  have hlength : (onesThenZeros prefixLength.toNat).length = 32 := by
    rw [onesThenZeros, List.length_append, List.length_replicate, List.length_replicate]
    omega
  apply List.ext_getElem
  · rw [length_maskBits, hlength]
  · intro i hi hi'
    rw [hlength] at hi'
    rw [← List.getD_eq_getElem _ false, getD_maskBits _ hi', hmask, Nat.testBit_mod_two_pow,
      Nat.testBit_shiftLeft, Nat.testBit_two_pow_sub_one, decide_eq_true (by omega),
      Bool.true_and]
    simp only [onesThenZeros, List.getElem_append, List.length_replicate, List.getElem_replicate]
    split
    · rw [decide_eq_true (by omega), decide_eq_true (by omega)]
      rfl
    · rw [decide_eq_false (by omega), Bool.false_and]

theorem prefixFromNetmask_iff {value : Bytes} {prefixLength : UInt8} :
    prefixFromNetmask value = some prefixLength ↔
      (1 ≤ prefixLength ∧ prefixLength ≤ 32) ∧
        inetPton value = some (contiguousMask prefixLength) := by
  constructor
  · intro h
    have hbounds := prefixFromNetmask_bounds h
    obtain ⟨mask, hmask, h⟩ := Option.bind_eq_some_iff.mp h
    obtain ⟨⟨ones, zeroSeen⟩, hbits, h⟩ := Option.bind_eq_some_iff.mp h
    obtain ⟨n, k, hsplit, -⟩ := foldlM_maskStep_some hbits
    have hlength := congrArg List.length hsplit
    rw [length_maskBits, List.length_append, List.length_replicate, List.length_replicate]
      at hlength
    obtain ⟨zeroSeen', hcount⟩ := foldlM_maskStep_replicate n k 0
    rw [← hsplit, hbits, UInt8.zero_add, Option.some.injEq, Prod.mk.injEq] at hcount
    simp only [Option.ite_none_left_eq_some, Option.some.injEq] at h
    obtain ⟨-, rfl⟩ := h
    have hn : ones.toNat = n := by
      rw [hcount.1, UInt8.toNat_ofNat_of_lt' (show n < 256 by omega)]
    refine ⟨hbounds, ?_⟩
    have hsame : mask = contiguousMask ones := by
      apply maskBits_injective
      rw [maskBits_contiguousMask hbounds.1 hbounds.2, hn, onesThenZeros, hsplit,
        show 32 - n = k by omega]
    rw [hmask, hsame]
  · rintro ⟨⟨hpositive, hle⟩, hmask⟩
    obtain ⟨zeroSeen, hcount⟩ := foldlM_maskStep_replicate prefixLength.toNat
      (32 - prefixLength.toNat) 0
    rw [← onesThenZeros, ← maskBits_contiguousMask hpositive hle, UInt8.zero_add, UInt8.ofNat_toNat] at hcount
    have hnonzero : prefixLength ≠ 0 := by
      rintro rfl
      cases hpositive
    rw [prefixFromNetmask, hmask, Option.bind_some, hcount, Option.bind_some]
    exact if_neg hnonzero

/-! ### Entries -/

/-- A text that trimming and the removal of quotes leave alone. -/
def Bare (text : Bytes) : Prop :=
  ∀ c ∈ text, isCSpace c = false ∧ c ≠ '"'.toUInt8 ∧ c ≠ 0x27

theorem bare_nil : Bare [] := fun _ hmem => absurd hmem List.not_mem_nil

theorem Bare.dropWhile {text : Bytes} (h : Bare text) : text.dropWhile isCSpace = text := by
  rw [List.dropWhile_eq_self_iff]
  intro hlength
  rw [(h _ (List.getElem_mem hlength)).1]
  exact Bool.false_ne_true

theorem Bare.reverse {text : Bytes} (h : Bare text) : Bare text.reverse :=
  fun c hc => h c (List.mem_reverse.mp hc)

theorem Bare.append {first second : Bytes} (h : Bare first) (h' : Bare second) :
    Bare (first ++ second) :=
  fun c hc => (List.mem_append.mp hc).elim (h c) (h' c)

theorem Bare.trim {text : Bytes} (h : Bare text) : trim text = text := by
  rw [Network.trim, h.dropWhile, h.reverse.dropWhile, List.reverse_reverse]

theorem Bare.unquote {text : Bytes} (h : Bare text) : unquote text = text := by
  have hhead : ∀ quote : UInt8, quote = '"'.toUInt8 ∨ quote = 0x27 → text.head? ≠ some quote := by
    rintro quote hquote hhead
    obtain ⟨-, hdouble, hsingle⟩ := h quote (List.mem_of_head? hhead)
    exact hquote.elim hdouble hsingle
  rw [Network.unquote, if_neg]
  rintro ⟨-, ⟨hfirst, -⟩ | ⟨hfirst, -⟩⟩
  · exact hhead _ (.inl rfl) hfirst
  · exact hhead _ (.inr rfl) hfirst

theorem bare_of_address {text : Bytes} (h : ∀ c ∈ text, isDigit c = true ∨ c = '.'.toUInt8) :
    Bare text := by
  intro c hc
  obtain hdigit | rfl := h c hc
  · refine ⟨isDigit_notSpace hdigit, ?_, ?_⟩
    · rintro rfl
      cases hdigit
    · rintro rfl
      cases hdigit
  · exact ⟨rfl, nofun, nofun⟩

/-- What a line does with an entry of this key. -/
def VendorFields.store (fields : VendorFields) (key value : Bytes) : Option VendorFields :=
  if key = ascii "METHOD" then
    if fields.method.isSome then none else some { fields with method := some value }
  else if key = ascii "IPADDR" then
    if fields.address.isSome then none else some { fields with address := some value }
  else if key = ascii "NETMASK" then
    if fields.netmask.isSome then none else some { fields with netmask := some value }
  else if key = ascii "GATEWAY" then
    if fields.gateway.isSome then none else some { fields with gateway := some value }
  else some fields

theorem VendorFields.line_entry (fields : VendorFields) {key value : Bytes} (hkey : Bare key)
    (hnonempty : key ≠ []) (hcomment : key.head? ≠ some '#'.toUInt8)
    (hequals : '='.toUInt8 ∉ key) (hvalue : Bare value) :
    fields.line (key ++ (ascii "=" ++ value)) = fields.store key value := by
  have hsign : ascii "=" = ['='.toUInt8] := rfl
  have hbare : Bare (key ++ (ascii "=" ++ value)) := by
    refine hkey.append (Bare.append ?_ hvalue)
    intro c hc
    obtain rfl := List.mem_singleton.mp hc
    exact ⟨rfl, nofun, nofun⟩
  have hstart : ¬ (key ++ (ascii "=" ++ value) = [] ∨
      (key ++ (ascii "=" ++ value)).head? = some '#'.toUInt8) := by
    rw [List.head?_append_of_ne_nil _ hnonempty]
    rintro (hnil | hhash)
    · exact hnonempty (List.append_eq_nil_iff.mp hnil).1
    · exact hcomment hhash
  have hpresent : ¬ '='.toUInt8 ∉ key ++ (ascii "=" ++ value) := by
    rw [not_not, hsign]
    simp
  have hall : ∀ c ∈ key, decide (c ≠ '='.toUInt8) = true := by
    intro c hc
    rw [decide_eq_true_eq]
    rintro rfl
    exact hequals hc
  have htake : (key ++ (ascii "=" ++ value)).takeWhile (· ≠ '='.toUInt8) = key := by
    rw [List.takeWhile_append_of_pos hall, hsign]
    simp
  have hdrop : (key ++ (ascii "=" ++ value)).dropWhile (· ≠ '='.toUInt8) =
      '='.toUInt8 :: value := by
    rw [List.dropWhile_append_of_pos hall, hsign]
    simp
  rw [line]
  simp only [hbare.trim]
  rw [if_neg hstart, if_neg hpresent, htake, hdrop, hkey.trim, List.tail_cons, hvalue.trim,
    hvalue.unquote]
  rfl

/-! ### The file -/

/-- A character of the keys and of the methods. -/
def isKeyCharacter (c : UInt8) : Bool := ('A'.toUInt8 ≤ c && c ≤ 'Z'.toUInt8) || c = '_'.toUInt8

theorem bare_of_key {text : Bytes} (h : text.all isKeyCharacter = true) :
    Bare text ∧ '='.toUInt8 ∉ text ∧ text.head? ≠ some '#'.toUInt8 := by
  rw [List.all_eq_true] at h
  refine ⟨fun c hc => ?_, fun hc => absurd (h _ hc) (by decide), fun hc =>
    absurd (h _ (List.mem_of_head? hc)) (by decide)⟩
  have hkey := h c hc
  simp only [isKeyCharacter, isCSpace, Bool.or_eq_true, Bool.and_eq_true, decide_eq_true_eq,
    Bool.or_eq_false_iff, Bool.and_eq_false_iff, decide_eq_false_iff_not, UInt8.le_iff_toNat_le,
    ← UInt8.toNat_inj, ne_eq] at hkey ⊢
  have hbounds : 65 ≤ c.toNat := by
    obtain ⟨hlow, -⟩ | hunderscore := hkey
    · exact hlow
    · exact Nat.le_trans (by decide) (Nat.le_of_eq hunderscore.symm)
  refine ⟨⟨?_, .inr ?_⟩, ?_, ?_⟩
  · show c.toNat ≠ 32
    omega
  · show ¬ c.toNat ≤ 13
    omega
  · show c.toNat ≠ 34
    omega
  · show c.toNat ≠ 39
    omega

theorem VendorFields.line_key (fields : VendorFields) (key : Bytes) {value : Bytes}
    (hnonempty : key ≠ []) (hkey : key.all isKeyCharacter = true) (hvalue : Bare value) :
    fields.line (key ++ (ascii "=" ++ value)) = fields.store key value ∧
      '\n'.toUInt8 ∉ key ++ (ascii "=" ++ value) := by
  obtain ⟨hbare, hequals, hcomment⟩ := bare_of_key hkey
  refine ⟨fields.line_entry hbare hnonempty hcomment hequals hvalue, ?_⟩
  have hsign : ascii "=" = ['='.toUInt8] := rfl
  rw [hsign, List.mem_append, List.mem_append, List.mem_singleton]
  rintro (hbreak | hbreak | hbreak)
  · exact absurd (hbare _ hbreak).1 (by decide)
  · cases hbreak
  · exact absurd (hvalue _ hbreak).1 (by decide)

theorem VendorFields.line_nil (fields : VendorFields) : fields.line [] = some fields := rfl

/-- No two of the keys begin with the same letter. -/
theorem keys_differ : ascii "IPADDR" ≠ ascii "METHOD" ∧
    (ascii "NETMASK" ≠ ascii "METHOD" ∧ ascii "NETMASK" ≠ ascii "IPADDR") ∧
    ascii "GATEWAY" ≠ ascii "METHOD" ∧ ascii "GATEWAY" ≠ ascii "IPADDR" ∧
    ascii "GATEWAY" ≠ ascii "NETMASK" := by
  refine ⟨?_, ⟨?_, ?_⟩, ?_, ?_, ?_⟩ <;> exact fun h => nomatch congrArg List.head? h

theorem vendorFile_read {method address netmask gateway : Bytes} (hmethod : Bare method)
    (haddress : Bare address) (hnetmask : Bare netmask) (hgateway : Bare gateway) :
    ((ascii "METHOD=" ++ method ++ ascii "\nIPADDR=" ++ address ++ ascii "\nNETMASK=" ++ netmask ++
      ascii "\nGATEWAY=" ++ gateway ++ ascii "\n").splitOn '\n'.toUInt8).foldlM
        VendorFields.line {} =
      some { method := some method, address := some address, netmask := some netmask,
             gateway := some gateway } := by
  let lines := [ascii "METHOD" ++ (ascii "=" ++ method), ascii "IPADDR" ++ (ascii "=" ++ address),
    ascii "NETMASK" ++ (ascii "=" ++ netmask), ascii "GATEWAY" ++ (ascii "=" ++ gateway), []]
  have htext : ascii "METHOD=" ++ method ++ ascii "\nIPADDR=" ++ address ++ ascii "\nNETMASK=" ++
      netmask ++ ascii "\nGATEWAY=" ++ gateway ++ ascii "\n" =
      ['\n'.toUInt8].intercalate lines := by
    have hfirst : ascii "METHOD=" = ascii "METHOD" ++ ascii "=" := rfl
    have hsecond : ascii "\nIPADDR=" = ['\n'.toUInt8] ++ (ascii "IPADDR" ++ ascii "=") := rfl
    have hthird : ascii "\nNETMASK=" = ['\n'.toUInt8] ++ (ascii "NETMASK" ++ ascii "=") := rfl
    have hfourth : ascii "\nGATEWAY=" = ['\n'.toUInt8] ++ (ascii "GATEWAY" ++ ascii "=") := rfl
    have hlast : ascii "\n" = ['\n'.toUInt8] := rfl
    simp only [lines, hfirst, hsecond, hthird, hfourth, hlast, List.intercalate_cons_cons,
      List.intercalate_singleton, List.append_assoc, List.append_nil]
  have hone := fun fields : VendorFields => fields.line_key (ascii "METHOD") nofun rfl hmethod
  have htwo := fun fields : VendorFields => fields.line_key (ascii "IPADDR") nofun rfl haddress
  have hthree := fun fields : VendorFields => fields.line_key (ascii "NETMASK") nofun rfl hnetmask
  have hfour := fun fields : VendorFields => fields.line_key (ascii "GATEWAY") nofun rfl hgateway
  have hlines : ∀ line ∈ lines, '\n'.toUInt8 ∉ line := by
    simp only [lines, List.forall_mem_cons]
    exact ⟨(hone {}).2, (htwo {}).2, (hthree {}).2, (hfour {}).2, nofun, nofun⟩
  rw [htext, List.splitOn_intercalate _ hlines (List.cons_ne_nil _ _)]
  have hmethodKey : ∀ fields : VendorFields, fields.method = none →
      fields.store (ascii "METHOD") method = some { fields with method := some method } := by
    intro fields hnone
    rw [VendorFields.store, if_pos rfl, hnone]
    rfl
  have haddressKey : ∀ fields : VendorFields, fields.address = none →
      fields.store (ascii "IPADDR") address = some { fields with address := some address } := by
    intro fields hnone
    rw [VendorFields.store, if_neg keys_differ.1, if_pos rfl, hnone]
    rfl
  have hnetmaskKey : ∀ fields : VendorFields, fields.netmask = none →
      fields.store (ascii "NETMASK") netmask = some { fields with netmask := some netmask } := by
    intro fields hnone
    rw [VendorFields.store, if_neg keys_differ.2.1.1, if_neg keys_differ.2.1.2, if_pos rfl, hnone]
    rfl
  have hgatewayKey : ∀ fields : VendorFields, fields.gateway = none →
      fields.store (ascii "GATEWAY") gateway = some { fields with gateway := some gateway } := by
    intro fields hnone
    rw [VendorFields.store, if_neg keys_differ.2.2.1, if_neg keys_differ.2.2.2.1,
      if_neg keys_differ.2.2.2.2, if_pos rfl, hnone]
    rfl
  simp only [lines, List.foldlM_cons, List.foldlM_nil, (hone _).1, (htwo _).1, (hthree _).1,
    (hfour _).1, VendorFields.line_nil, hmethodKey, haddressKey, hnetmaskKey, hgatewayKey,
    Option.bind_eq_bind, Option.bind_some, Option.pure_def]

/-- The method in the file stands for the mode. -/
theorem vendorFileContents_method (config : InterfaceConfig)
    (hbounds : 1 ≤ config.prefixLength ∧ config.prefixLength ≤ 32) :
    ∃ method, Bare method ∧
      vendorFileContents config = ascii "METHOD=" ++ method ++ ascii "\nIPADDR=" ++
        config.address ++ ascii "\nNETMASK=" ++ netmaskForPrefix config.prefixLength ++
        ascii "\nGATEWAY=" ++ config.gateway ++ ascii "\n" ∧
      (config.mode = .staticAddress → method = ascii "STATIC") ∧
      (config.mode = .dhcp → method = ascii "DHCP" ∨ method = ascii "DHCP_DNS") := by
  obtain ⟨hpositive, hle⟩ := hbounds
  have hrange : ¬ (config.prefixLength = 0 ∨ 32 < config.prefixLength) := by
    rintro (hzero | hlarge)
    · rw [hzero] at hpositive
      cases hpositive
    · exact UInt8.not_lt.mpr hle hlarge
  rw [vendorFileContents, if_neg hrange]
  cases hmode : config.mode with
  | staticAddress =>
    refine ⟨ascii "STATIC", (bare_of_key rfl).1, rfl, fun _ => rfl, nofun⟩
  | dhcp =>
    dsimp only
    split
    · exact ⟨ascii "DHCP", (bare_of_key rfl).1, rfl, nofun, fun _ => .inl rfl⟩
    · exact ⟨ascii "DHCP_DNS", (bare_of_key rfl).1, rfl, nofun, fun _ => .inr rfl⟩

theorem bare_netmask (prefixLength : UInt8) : Bare (netmaskForPrefix prefixLength) := by
  apply bare_of_address
  have hdecimal : ∀ {n : ℕ}, ∀ c ∈ decimal (n : Int), isDigit c = true ∨ c = '.'.toUInt8 :=
    fun c hc => .inl (List.all_eq_true.mp (all_isDigit_decimal _) c hc)
  have hdot : ∀ c ∈ ascii ".", isDigit c = true ∨ c = '.'.toUInt8 :=
    fun c hc => .inr (List.mem_singleton.mp hc)
  rw [netmaskForPrefix]
  split
  · exact nofun
  · simp only [inetNtop, List.mem_append]
    rintro c ((((((hc | hc) | hc) | hc) | hc) | hc) | hc)
    · exact hdecimal c hc
    · exact hdot c hc
    · exact hdecimal c hc
    · exact hdot c hc
    · exact hdecimal c hc
    · exact hdot c hc
    · exact hdecimal c hc

/-- A valid configuration comes back from the vendor's file as far as the file goes: mode, address,
prefix and gateway, without name servers or a host name and with the one timeout.  The netmask of a
prefix gives that prefix, and the masks that give one are those of the 32 prefixes. -/
theorem vendor_file_round_trip :
    (∀ (config : InterfaceConfig) (expectedName : String) (before : InterfaceConfig),
      (validateInterface config expectedName).valid = true → config.Legible →
      1 ≤ config.prefixLength ∧ config.prefixLength ≤ 32 →
      parseVendorFile (vendorFileContents config) before = some { before with
        mode := config.mode
        address := config.address
        prefixLength := config.prefixLength
        gateway := config.gateway
        dns := Vector.replicate 2 []
        dnsCount := 0
        hostname := []
        dhcpTimeoutSeconds := 15 }) ∧
    (∀ prefixLength : UInt8, 1 ≤ prefixLength ∧ prefixLength ≤ 32 →
      prefixFromNetmask (netmaskForPrefix prefixLength) = some prefixLength) ∧
    ∀ (value : Bytes) (prefixLength : UInt8), prefixFromNetmask value = some prefixLength ↔
      (1 ≤ prefixLength ∧ prefixLength ≤ 32) ∧
        inetPton value = some (contiguousMask prefixLength) := by
  refine ⟨?_, fun _ h => prefixFromNetmask_netmaskForPrefix h, fun _ _ => prefixFromNetmask_iff⟩
  intro config expectedName before hvalid hlegible hbounds
  have hchecked := validateInterface_checked hvalid
  have haddress : Bare config.address := by
    cases hmode : config.mode with
    | staticAddress =>
      exact bare_of_address
        (validIpv4_dotted (hchecked.staticAddress hmode).1 hlegible.address).1.2
    | dhcp =>
      rw [(hchecked.dhcp hmode).1]
      exact bare_nil
  have hgateway : Bare config.gateway := by
    cases hmode : config.mode with
    | staticAddress =>
      obtain hnone | ⟨hvalid, -⟩ := (hchecked.staticAddress hmode).2.2.2
      · rw [hnone]
        exact bare_nil
      · exact bare_of_address (validIpv4_dotted hvalid hlegible.gateway).1.2
    | dhcp =>
      rw [(hchecked.dhcp hmode).2.1]
      exact bare_nil
  obtain ⟨method, hmethod, hcontents, hstatic, hdhcp⟩ := vendorFileContents_method config hbounds
  have hread := vendorFile_read hmethod haddress (bare_netmask config.prefixLength) hgateway
  have hnonempty : vendorFileContents config ≠ [] := by
    rw [hcontents]
    intro hnil
    have hbreak : ascii "\n" = [] := (List.append_eq_nil_iff.mp hnil).2
    cases hbreak
  rw [parseVendorFile, if_neg hnonempty, hcontents, hread]
  simp only [Option.bind_some, prefixFromNetmask_netmaskForPrefix hbounds]
  cases hmode : config.mode with
  | staticAddress =>
    rw [if_pos (hstatic hmode)]
    rfl
  | dhcp =>
    have hother : method ≠ ascii "STATIC" := by
      obtain rfl | rfl := hdhcp hmode
      · intro h
        cases congrArg List.head? h
      · intro h
        cases congrArg List.head? h
    rw [if_neg hother, if_pos (hdhcp hmode), (hchecked.dhcp hmode).1, (hchecked.dhcp hmode).2.1]

end Uhf.Network

/-
The file of the leases (`LeaseStore` of `platform/network/dhcp_client`).

There is a line for each interface.  Its fields stand apart by blanks, with a dash for what is
absent, and the reader takes them from a stream, one after the other.

* `readLease_leaseLine` — a line is read back;
* `lease_file_round_trip` — so are the leases of a file that has been saved.
-/
import UhfGateway.Network.ConfigSources

namespace Uhf.Network

open Config (isCSpace isDigit_notSpace)

def kMaxLeaseBytes : ℕ := 4096

/-! ### Streams -/

/-- `std::getline`: a line, and what is behind its end. -/
def getLine (input : Bytes) : Option (Bytes × Bytes) :=
  if input = [] then none
  else some (input.takeWhile (· ≠ '\n'.toUInt8), (input.dropWhile (· ≠ '\n'.toUInt8)).tail)

/-- A text up to the next blank. -/
def readToken (input : Bytes) : Option (Bytes × Bytes) :=
  let input := input.dropWhile isCSpace
  if input = [] then none
  else some (input.takeWhile (fun c => !isCSpace c), input.dropWhile (fun c => !isCSpace c))

/-- A number of 32 bits; one with a minus sign is taken from zero. -/
def extractUnsigned (input : Bytes) : Option (UInt32 × Bytes) :=
  let input := input.dropWhile isCSpace
  let negative := input.head? = some '-'.toUInt8
  let input := if negative ∨ input.head? = some '+'.toUInt8 then input.tail else input
  (fromChars (input.takeWhile isDigit)).bind fun value =>
    if value < 4294967296 then
      some (if negative then 0 - UInt32.ofNat value else UInt32.ofNat value,
        input.dropWhile isDigit)
    else none

/-! ### Writing -/

def tokenOrDash (value : Bytes) : Bytes := if value = [] then ascii "-" else value

/-- What `serialize` writes behind the name of the interface. -/
def leaseFields : Option DhcpLease → Bytes
  | none => ascii "-"
  | some lease =>
    lease.address ++ ascii " " ++ decimal lease.prefixLength.toNat ++ ascii " " ++
      tokenOrDash lease.gateway ++ ascii " " ++
      tokenOrDash (if 0 < lease.dnsCount then lease.dns.getD 0 [] else []) ++ ascii " " ++
      tokenOrDash (if 1 < lease.dnsCount then lease.dns.getD 1 [] else [])

def leaseLine (leases : Leases) (port : Port) : Bytes :=
  port.text ++ ascii " " ++ leaseFields (leases port)

def serialize (leases : Leases) : Bytes :=
  ascii "version=1\n" ++ leaseLine leases .eth0 ++ ascii "\n" ++ leaseLine leases .eth1 ++
    ascii "\n"

/-- The text that `LeaseStore::save` writes. -/
def saveLeases (leases : Leases) : Option Bytes :=
  if leases.Valid then some (serialize leases) else none

/-! ### Reading -/

def dashOrToken (value : Bytes) : Bytes := if value = ascii "-" then [] else value

/-- The servers that are there move to the front; the slots they have come from stay. -/
def compactLeaseDns (dns : Vector Bytes 2) : Option (Vector Bytes 2 × UInt8) :=
  (List.finRange 2).foldlM (fun (dns, count) index =>
    if dns[index] = [] then some (dns, count)
    else if kMaxDnsServers ≤ count.toNat then none
    else some (dns.setIfInBounds count.toNat dns[index], count + 1)) (dns, 0)

def readLease (port : Port) (line : Bytes) : Option (Option DhcpLease) :=
  (readToken line).bind fun (label, fields) =>
    (readToken fields).bind fun (address, fields) =>
      if label ≠ port.text then none
      else if address = ascii "-" then some none
      else
        (extractUnsigned fields).bind fun (prefixLength, fields) =>
          (readToken fields).bind fun (gateway, fields) =>
            (readToken fields).bind fun (dns1, fields) =>
              (readToken fields).bind fun (dns2, _) =>
                if 32 < prefixLength then none
                else
                  (compactLeaseDns #v[dashOrToken dns1, dashOrToken dns2]).bind fun (dns, dnsCount) =>
                    let lease : DhcpLease := {
                      address := address
                      prefixLength := prefixLength.toUInt8
                      gateway := dashOrToken gateway
                      dns := dns
                      dnsCount := dnsCount }
                    if validateLease lease then some (some lease) else none

/-- The lines of `read_lines`. -/
def readLeases (contents : Bytes) : Option Leases :=
  (getLine contents).bind fun (version, rest) =>
    if version ≠ ascii "version=1" then none
    else
      (getLine rest).bind fun (line, rest) =>
        (readLease .eth0 line).bind fun lease0 =>
          (getLine rest).bind fun (line, rest) =>
            (readLease .eth1 line).bind fun lease1 =>
              if (getLine rest).isSome then none
              else some fun
                | .eth0 => lease0
                | .eth1 => lease1

/-- `LeaseStore::load` of what the file holds, if there is one. -/
def loadLeases : Option Bytes → LeaseLoadResult
  | none => .none
  | some contents =>
    if kMaxLeaseBytes < contents.length then .ioError
    else
      match readLeases contents with
      | some leases => .valid leases
      | none => .corrupt

/-! ### Fields -/

/-- A text that a stream gives as one field. -/
def Word (text : Bytes) : Prop := text ≠ [] ∧ ∀ c ∈ text, isCSpace c = false

/-- A field ends here. -/
def FieldEnd (rest : Bytes) : Prop := ∀ c ∈ rest.head?, isCSpace c = true

theorem fieldEnd_blank (rest : Bytes) : FieldEnd (ascii " " ++ rest) := by
  intro c hc
  obtain rfl : ' '.toUInt8 = c := Option.some.inj hc
  rfl

theorem fieldEnd_nil : FieldEnd [] := nofun

theorem Word.append_dropWhile {text : Bytes} (h : Word text) (rest : Bytes) :
    (text ++ rest).dropWhile isCSpace = text ++ rest := by
  obtain ⟨c, text, rfl⟩ := List.exists_cons_of_ne_nil h.1
  rw [List.cons_append, List.dropWhile_cons_of_neg]
  rw [h.2 c List.mem_cons_self]
  exact Bool.false_ne_true

theorem readToken_word {text rest : Bytes} (h : Word text) (hrest : FieldEnd rest) :
    readToken (text ++ rest) = some (text, rest) := by
  have hnonempty : text ++ rest ≠ [] := fun hnil => h.1 (List.append_eq_nil_iff.mp hnil).1
  have hword : ∀ c ∈ text, (!isCSpace c) = true := by
    intro c hc
    rw [h.2 c hc]
    rfl
  have hend : rest.takeWhile (fun c => !isCSpace c) = [] ∧
      rest.dropWhile (fun c => !isCSpace c) = rest := by
    cases rest with
    | nil => exact ⟨rfl, rfl⟩
    | cons c rest =>
      have hc : isCSpace c = true := hrest c rfl
      simp [hc]
  rw [readToken]
  simp only [h.append_dropWhile]
  rw [if_neg hnonempty, List.takeWhile_append_of_pos hword, List.dropWhile_append_of_pos hword,
    hend.1, hend.2, List.append_nil]

theorem dropWhile_blank (rest : Bytes) :
    (ascii " " ++ rest).dropWhile isCSpace = rest.dropWhile isCSpace := by
  rw [show ascii " " ++ rest = ' '.toUInt8 :: rest from rfl, List.dropWhile_cons_of_pos rfl]

/-- The blank before a field is skipped. -/
theorem readToken_blank (rest : Bytes) : readToken (ascii " " ++ rest) = readToken rest := by
  simp only [readToken, dropWhile_blank]

theorem extractUnsigned_decimal {n : ℕ} (hn : n < 4294967296) (rest : Bytes) :
    extractUnsigned (ascii " " ++ (decimal n ++ (ascii " " ++ rest))) =
      some (UInt32.ofNat n, ascii " " ++ rest) := by
  have hdigits : ∀ c ∈ decimal (n : Int), isDigit c = true :=
    List.all_eq_true.mp (all_isDigit_decimal n)
  have hword : Word (decimal n) := by
    refine ⟨decimal_ne_nil n, fun c hc => ?_⟩
    exact isDigit_notSpace (hdigits c hc)
  have hblank : NoDigit (ascii " " ++ rest) := noDigit_cons rfl rest
  have hsplit := takeWhile_decimal (n := n) hblank
  have hsign : ∀ sign : UInt8, isDigit sign = false →
      (decimal (n : Int) ++ (ascii " " ++ rest)).head? ≠ some sign := by
    intro sign hsign hhead
    obtain ⟨c, digits, hcons⟩ := List.exists_cons_of_ne_nil (decimal_ne_nil n)
    rw [hcons, List.cons_append, List.head?_cons, Option.some.injEq] at hhead
    have hc := hdigits c (hcons ▸ List.mem_cons_self)
    rw [hhead, hsign] at hc
    cases hc
  rw [extractUnsigned]
  simp only [dropWhile_blank, hword.append_dropWhile, hsign _ (rfl : isDigit '-'.toUInt8 = false),
    hsign _ (rfl : isDigit '+'.toUInt8 = false), or_self, if_false, hsplit.1, hsplit.2]
  rw [fromChars_decimal (by omega), Option.bind_some, if_pos hn]

theorem getLine_append {line : Bytes} (h : '\n'.toUInt8 ∉ line) (rest : Bytes) :
    getLine (line ++ (ascii "\n" ++ rest)) = some (line, rest) := by
  have hline : ∀ c ∈ line, decide (c ≠ '\n'.toUInt8) = true := by
    intro c hc
    rw [decide_eq_true_eq]
    rintro rfl
    exact h hc
  have hbreak : ascii "\n" ++ rest = '\n'.toUInt8 :: rest := rfl
  rw [getLine, if_neg (by rw [hbreak]; simp), List.takeWhile_append_of_pos hline,
    List.dropWhile_append_of_pos hline, hbreak]
  simp

/-! ### What a lease is written as -/

/-- The texts of a lease hold no NUL, and the slots behind its name servers are empty. -/
structure DhcpLease.Legible (lease : DhcpLease) : Prop where
  address : 0 ∉ lease.address
  gateway : 0 ∉ lease.gateway
  dns : ∀ server ∈ lease.dns.toList, 0 ∉ server
  unused : ∀ server ∈ lease.dns.toList.drop lease.dnsCount.toNat, server = []

theorem Dotted.notSpace {value : Bytes} (h : Dotted value) : ∀ c ∈ value, isCSpace c = false := by
  intro c hc
  obtain hdigit | rfl := h.2 c hc
  · exact isDigit_notSpace hdigit
  · rfl

theorem validIpv4_dotted {value : Bytes} (h : validIpv4 value = true) (hnull : 0 ∉ value) :
    Dotted value ∧ Word value := by
  rw [validIpv4, Bool.and_eq_true, Bool.not_eq_true', List.isEmpty_eq_false_iff] at h
  have hdotted := inetPton_dotted h.2 hnull
  exact ⟨hdotted, h.1, hdotted.notSpace⟩

theorem Dotted.ne_dash {value : Bytes} (h : Dotted value) : value ≠ ascii "-" := by
  rintro rfl
  obtain hdigit | hdot := h.2 '-'.toUInt8 List.mem_cons_self
  · cases hdigit
  · cases hdot

theorem word_dash : Word (ascii "-") := by
  refine ⟨nofun, fun c hc => ?_⟩
  obtain rfl := List.mem_singleton.mp hc
  rfl

theorem word_tokenOrDash {value : Bytes} (h : Dotted value) : Word (tokenOrDash value) := by
  rw [tokenOrDash]
  split
  · exact word_dash
  · next hvalue => exact ⟨hvalue, h.notSpace⟩

theorem dashOrToken_tokenOrDash {value : Bytes} (h : Dotted value) :
    dashOrToken (tokenOrDash value) = value := by
  rw [tokenOrDash]
  split
  · next hvalue => rw [dashOrToken, if_pos rfl, hvalue]
  · rw [dashOrToken, if_neg h.ne_dash]

theorem length_tokenOrDash {value : Bytes} (h : Dotted value) : (tokenOrDash value).length ≤ 15 := by
  rw [tokenOrDash]
  split
  · exact Nat.le_of_lt_succ (by decide)
  · exact h.1

theorem dotted_nil : Dotted [] := ⟨by decide, nofun⟩

theorem getElem_dns (dns : Vector Bytes 2) {i : ℕ} (hi : i < 2) : dns[i] = dns.getD i [] := by
  rw [Vector.getD, Array.getD_eq_getD_getElem?, Vector.getElem?_toArray, Vector.getElem?_eq_getElem hi,
    Option.getD_some]

theorem dns_pair (dns : Vector Bytes 2) : dns = #v[dns.getD 0 [], dns.getD 1 []] := by
  ext i hi : 1
  rw [getElem_dns dns hi]
  match i, hi with
  | 0, _ => rfl
  | 1, _ => rfl

theorem toList_dns (dns : Vector Bytes 2) : dns.toList = [dns.getD 0 [], dns.getD 1 []] := by
  conv => lhs; rw [dns_pair dns]
  rfl

/-- What is written of a lease that has been accepted. -/
structure DhcpLease.Written (lease : DhcpLease) : Prop where
  address : Dotted lease.address ∧ Word lease.address
  prefixLength : lease.prefixLength ≤ 32
  gateway : Dotted lease.gateway
  dns : Dotted (lease.dns.getD 0 []) ∧ Dotted (lease.dns.getD 1 [])
  first : lease.dns.getD 0 [] ≠ [] ↔ 0 < lease.dnsCount
  second : lease.dns.getD 1 [] ≠ [] ↔ 1 < lease.dnsCount
  dnsCount : lease.dnsCount ≤ 2

theorem written_of_valid {lease : DhcpLease} (h : validateLease lease = true)
    (hlegible : lease.Legible) : lease.Written := by
  obtain ⟨haddressNull, hgatewayNull, hdnsNull, hunused⟩ := hlegible
  rw [validateLease] at h
  split at h
  · cases h
  next hrange =>
  split at h
  · cases h
  next hgateway =>
  simp only [Bool.or_eq_true, decide_eq_true_eq, Bool.not_eq_true', not_or, Bool.not_eq_false]
    at hrange
  obtain ⟨⟨⟨haddress, -⟩, hprefix⟩, hcount⟩ := hrange
  have hgatewayDotted : Dotted lease.gateway := by
    by_cases hnone : lease.gateway = []
    · rw [hnone]
      exact dotted_nil
    · refine inetPton_dotted ?_ hgatewayNull
      have hsubnet : sameSubnet lease.address lease.prefixLength lease.gateway = true := by
        simpa [hnone] using hgateway
      rw [sameSubnet] at hsubnet
      split at hsubnet
      · next hparsed => rw [hparsed]; rfl
      · cases hsubnet
  rw [toList_dns] at h hdnsNull hunused
  have hfirstNull : 0 ∉ lease.dns.getD 0 [] := hdnsNull _ (by simp)
  have hsecondNull : 0 ∉ lease.dns.getD 1 [] := hdnsNull _ (by simp)
  -- The servers that are counted are addresses, and the other slots are empty.
  have hslots : Dotted (lease.dns.getD 0 []) ∧ Dotted (lease.dns.getD 1 []) ∧
      (lease.dns.getD 0 [] ≠ [] ↔ 0 < lease.dnsCount.toNat) ∧
      (lease.dns.getD 1 [] ≠ [] ↔ 1 < lease.dnsCount.toNat) := by
    have hcases : lease.dnsCount.toNat = 0 ∨ lease.dnsCount.toNat = 1 ∨
        lease.dnsCount.toNat = 2 := by
      rw [kMaxDnsServers] at hcount
      omega
    obtain hzero | hone | htwo := hcases
    · rw [hzero] at hunused ⊢
      have hfirst := hunused (lease.dns.getD 0 []) (by simp)
      have hsecond := hunused (lease.dns.getD 1 []) (by simp)
      rw [hfirst, hsecond]
      exact ⟨dotted_nil, dotted_nil, by simp, by simp⟩
    · rw [hone] at hunused h ⊢
      have hsecond := hunused (lease.dns.getD 1 []) (by simp)
      have hfirst := validIpv4_dotted (List.all_eq_true.mp h (lease.dns.getD 0 []) (by simp)) hfirstNull
      rw [hsecond]
      exact ⟨hfirst.1, dotted_nil, by simp [hfirst.2.1], by simp⟩
    · rw [htwo] at h ⊢
      have hfirst := validIpv4_dotted (List.all_eq_true.mp h (lease.dns.getD 0 []) (by simp)) hfirstNull
      have hsecond := validIpv4_dotted (List.all_eq_true.mp h (lease.dns.getD 1 []) (by simp)) hsecondNull
      exact ⟨hfirst.1, hsecond.1, by simp [hfirst.2.1], by simp [hsecond.2.1]⟩
  obtain ⟨hfirst, hsecond, hfirstSlot, hsecondSlot⟩ := hslots
  exact {
    address := validIpv4_dotted haddress haddressNull
    prefixLength := UInt8.not_lt.mp hprefix
    gateway := hgatewayDotted
    dns := ⟨hfirst, hsecond⟩
    first := hfirstSlot
    second := hsecondSlot
    dnsCount := by
      rw [UInt8.le_iff_toNat_le]
      rw [kMaxDnsServers] at hcount
      exact Nat.le_of_not_lt hcount }

/-! ### The way back -/

theorem word_port (port : Port) : Word port.text := by
  cases port with
  | eth0 =>
    rw [show Port.text .eth0 = [0x65, 0x74, 0x68, 0x30] from rfl]
    refine ⟨nofun, ?_⟩
    simp only [List.forall_mem_cons]
    exact ⟨rfl, rfl, rfl, rfl, nofun⟩
  | eth1 =>
    rw [show Port.text .eth1 = [0x65, 0x74, 0x68, 0x31] from rfl]
    refine ⟨nofun, ?_⟩
    simp only [List.forall_mem_cons]
    exact ⟨rfl, rfl, rfl, rfl, nofun⟩

/-- The servers of an accepted lease stay where they are. -/
theorem compactLeaseDns_written {lease : DhcpLease} (h : lease.Written) :
    compactLeaseDns #v[lease.dns.getD 0 [], lease.dns.getD 1 []] =
      some (#v[lease.dns.getD 0 [], lease.dns.getD 1 []], lease.dnsCount) := by
  have hfirst := h.first
  have hsecond := h.second
  have hcount := h.dnsCount
  simp only [UInt8.lt_iff_toNat_lt, UInt8.le_iff_toNat_le, UInt8.reduceToNat] at hfirst hsecond hcount
  have hrange : List.finRange 2 = [0, 1] := rfl
  by_cases hnone : lease.dns.getD 0 [] = []
  · have hzero : lease.dnsCount.toNat = 0 := by
      by_contra hpositive
      exact hfirst.mpr (Nat.pos_of_ne_zero hpositive) hnone
    have hnext : lease.dns.getD 1 [] = [] := by
      by_contra hsome
      have := hsecond.mp hsome
      omega
    have hcount : lease.dnsCount = 0 := UInt8.toNat.inj hzero
    rw [compactLeaseDns, hrange, hnone, hnext, hcount]
    rfl
  · by_cases hlast : lease.dns.getD 1 [] = []
    · have hone : lease.dnsCount = 1 := by
        apply UInt8.toNat.inj
        have hpositive := hfirst.mp hnone
        have hfew : ¬ 1 < lease.dnsCount.toNat := fun hmany => hsecond.mpr hmany hlast
        show lease.dnsCount.toNat = 1
        omega
      rw [compactLeaseDns, hrange, hlast, hone]
      simp [hnone, kMaxDnsServers]
    · have htwo : lease.dnsCount = 2 := by
        apply UInt8.toNat.inj
        have hmany := hsecond.mp hlast
        show lease.dnsCount.toNat = 2
        omega
      rw [compactLeaseDns, hrange, htwo]
      simp [hnone, hlast, kMaxDnsServers]

theorem readLease_leaseLine (leases : Leases) (port : Port)
    (h : ∀ lease ∈ leases port, validateLease lease = true ∧ lease.Legible) :
    readLease port (leaseLine leases port) = some (leases port) := by
  rw [leaseLine]
  cases hlease : leases port with
  | none =>
    have hfield := readToken_word word_dash fieldEnd_nil
    rw [List.append_nil] at hfield
    rw [readLease, List.append_assoc, readToken_word (word_port port) (fieldEnd_blank _),
      leaseFields]
    simp only [Option.bind_some]
    rw [readToken_blank, hfield]
    simp only [Option.bind_some]
    rw [if_neg (not_not.mpr rfl)]
    exact if_pos trivial
  | some lease =>
    obtain ⟨hvalid, hlegible⟩ := h lease hlease
    have hwritten := written_of_valid hvalid hlegible
    have hfirst : (if 0 < lease.dnsCount then lease.dns.getD 0 [] else []) = lease.dns.getD 0 [] := by
      split
      · rfl
      · next hnone => exact (not_not.mp (mt hwritten.first.mp hnone)).symm
    have hsecond : (if 1 < lease.dnsCount then lease.dns.getD 1 [] else []) = lease.dns.getD 1 [] := by
      split
      · rfl
      · next hnone => exact (not_not.mp (mt hwritten.second.mp hnone)).symm
    have hprefix := UInt8.le_iff_toNat_le.mp hwritten.prefixLength
    have hnumber : (UInt32.ofNat lease.prefixLength.toNat).toNat = lease.prefixLength.toNat :=
      UInt32.toNat_ofNat_of_lt' (Nat.lt_of_le_of_lt hprefix (by decide))
    have hbound : ¬ 32 < UInt32.ofNat lease.prefixLength.toNat := by
      rw [UInt32.lt_iff_toNat_lt, hnumber]
      exact Nat.not_lt.mpr hprefix
    have hsame : (UInt32.ofNat lease.prefixLength.toNat).toUInt8 = lease.prefixLength := by
      apply UInt8.toNat.inj
      rw [UInt32.toNat_toUInt8, hnumber]
      exact Nat.mod_eq_of_lt lease.prefixLength.toNat_lt
    have hlast := readToken_word (word_tokenOrDash hwritten.dns.2) fieldEnd_nil
    rw [List.append_nil] at hlast
    rw [readLease, List.append_assoc, readToken_word (word_port port) (fieldEnd_blank _),
      leaseFields, hfirst, hsecond]
    simp only [List.append_assoc, Option.bind_some]
    rw [readToken_blank, readToken_word hwritten.address.2 (fieldEnd_blank _)]
    simp only [Option.bind_some]
    rw [if_neg (not_not.mpr rfl), if_neg hwritten.address.1.ne_dash,
      extractUnsigned_decimal (Nat.lt_of_le_of_lt hprefix (by decide))]
    simp only [Option.bind_some]
    rw [readToken_blank, readToken_word (word_tokenOrDash hwritten.gateway) (fieldEnd_blank _)]
    simp only [Option.bind_some]
    rw [readToken_blank, readToken_word (word_tokenOrDash hwritten.dns.1) (fieldEnd_blank _)]
    simp only [Option.bind_some]
    rw [readToken_blank, hlast]
    simp only [Option.bind_some]
    rw [if_neg hbound, dashOrToken_tokenOrDash hwritten.dns.1,
      dashOrToken_tokenOrDash hwritten.dns.2, dashOrToken_tokenOrDash hwritten.gateway,
      compactLeaseDns_written hwritten, hsame, ← dns_pair]
    simp only [Option.bind_some]
    rw [if_pos hvalid]

/-! ### The file -/

theorem noBreak_of_notSpace {text : Bytes} (h : ∀ c ∈ text, isCSpace c = false ∨ c = ' '.toUInt8) :
    '\n'.toUInt8 ∉ text := by
  intro hmem
  obtain hspace | hblank := h _ hmem
  · cases hspace
  · cases hblank

/-- A line has no break in it, and the file stays far below its limit. -/
theorem leaseLine_short {leases : Leases} {port : Port}
    (h : ∀ lease ∈ leases port, validateLease lease = true ∧ lease.Legible) :
    '\n'.toUInt8 ∉ leaseLine leases port ∧ (leaseLine leases port).length ≤ 1000 := by
  have hblank : ∀ c ∈ ascii " ", isCSpace c = false ∨ c = ' '.toUInt8 := by
    intro c hc
    exact .inr (List.mem_singleton.mp hc)
  have hport : port.text.length = 4 := by cases port <;> rfl
  have hword : ∀ {text : Bytes}, Word text → ∀ c ∈ text, isCSpace c = false ∨ c = ' '.toUInt8 :=
    fun hword c hc => .inl (hword.2 c hc)
  have hone : (ascii " ").length = 1 := rfl
  rw [leaseLine]
  cases hlease : leases port with
  | none =>
    refine ⟨noBreak_of_notSpace ?_, ?_⟩
    · simp only [leaseFields, List.mem_append]
      rintro c ((hc | hc) | hc)
      · exact hword (word_port port) c hc
      · exact hblank c hc
      · exact hword word_dash c hc
    · rw [leaseFields, List.length_append, List.length_append, hport]
      exact Nat.le_of_lt (by decide)
  | some lease =>
    obtain ⟨hvalid, hlegible⟩ := h lease hlease
    have hwritten := written_of_valid hvalid hlegible
    have hnumber : Word (decimal lease.prefixLength.toNat) :=
      ⟨decimal_ne_nil _, fun c hc =>
        isDigit_notSpace (List.all_eq_true.mp (all_isDigit_decimal _) c hc)⟩
    have hprefix := UInt8.le_iff_toNat_le.mp hwritten.prefixLength
    have hdigits : (decimal lease.prefixLength.toNat).length ≤ 2 :=
      length_decimal_le (by decide) (Nat.lt_of_le_of_lt hprefix (by decide))
    have hservers : ∀ (slot : Prop) [Decidable slot] {server : Bytes}, Dotted server →
        Dotted (if slot then server else []) := by
      intro slot _ server hserver
      split
      · exact hserver
      · exact dotted_nil
    have hfirst := hservers (0 < lease.dnsCount) hwritten.dns.1
    have hsecond := hservers (1 < lease.dnsCount) hwritten.dns.2
    have haddress := hwritten.address.1.1
    have hgateway := length_tokenOrDash hwritten.gateway
    have hfirstLength := length_tokenOrDash hfirst
    have hsecondLength := length_tokenOrDash hsecond
    refine ⟨noBreak_of_notSpace ?_, ?_⟩
    · simp only [leaseFields, List.mem_append]
      rintro c ((hc | hc) | ((((((((hc | hc) | hc) | hc) | hc) | hc) | hc) | hc) | hc))
      · exact hword (word_port port) c hc
      · exact hblank c hc
      · exact hword hwritten.address.2 c hc
      · exact hblank c hc
      · exact hword hnumber c hc
      · exact hblank c hc
      · exact hword (word_tokenOrDash hwritten.gateway) c hc
      · exact hblank c hc
      · exact hword (word_tokenOrDash hfirst) c hc
      · exact hblank c hc
      · exact hword (word_tokenOrDash hsecond) c hc
    · simp only [leaseFields, List.length_append, hport, hone]
      omega

/-- Leases that are saved are loaded: the same interfaces have one, with the same address, prefix,
gateway and name servers. -/
theorem lease_file_round_trip {leases : Leases} {text : Bytes}
    (hlegible : ∀ port, ∀ lease ∈ leases port, lease.Legible)
    (h : saveLeases leases = some text) : loadLeases (some text) = .valid leases := by
  rw [saveLeases, Option.ite_none_right_eq_some, Option.some.injEq] at h
  obtain ⟨hvalid, rfl⟩ := h
  have hall : ∀ port, ∀ lease ∈ leases port, validateLease lease = true ∧ lease.Legible := by
    intro port lease hlease
    have hport := List.all_eq_true.mp hvalid port (by cases port <;> decide)
    rw [Option.mem_def.mp hlease] at hport
    exact ⟨hport, hlegible port lease hlease⟩
  obtain ⟨hbreak0, hlength0⟩ := leaseLine_short (hall .eth0)
  obtain ⟨hbreak1, hlength1⟩ := leaseLine_short (hall .eth1)
  have hversion : '\n'.toUInt8 ∉ ascii "version=1" := by decide
  have hlimit : ¬ kMaxLeaseBytes < (serialize leases).length := by
    have hhead : (ascii "version=1\n").length = 10 := rfl
    have hend : (ascii "\n").length = 1 := rfl
    simp only [serialize, List.length_append, hhead, hend, kMaxLeaseBytes]
    omega
  have hlast := getLine_append hbreak1 []
  rw [List.append_nil] at hlast
  have hlines : readLeases (serialize leases) = some leases := by
    have hserialize : serialize leases = ascii "version=1" ++ (ascii "\n" ++
        (leaseLine leases .eth0 ++ (ascii "\n" ++ (leaseLine leases .eth1 ++ ascii "\n")))) := by
      simp only [serialize, List.append_assoc]
      rfl
    rw [hserialize, readLeases, getLine_append hversion]
    simp only [Option.bind_some]
    rw [if_neg (not_not.mpr rfl), getLine_append hbreak0]
    simp only [Option.bind_some]
    rw [readLease_leaseLine leases .eth0 (hall .eth0)]
    simp only [Option.bind_some]
    rw [hlast]
    simp only [Option.bind_some]
    rw [readLease_leaseLine leases .eth1 (hall .eth1)]
    simp only [Option.bind_some]
    rw [if_neg (by rw [getLine, if_pos rfl]; exact Bool.false_ne_true), Option.some.injEq]
    funext port
    cases port <;> rfl
  rw [loadLeases]
  simp only [if_neg hlimit, hlines]

/-- One interface with a lease, a gateway and one name server. -/
def sampleLeases : Leases
  | .eth0 => none
  | .eth1 => some {
      address := ascii "10.0.0.2"
      prefixLength := 24
      gateway := ascii "10.0.0.1"
      dns := #v[ascii "1.1.1.1", []]
      dnsCount := 1 }

theorem sampleLeases_loaded :
    loadLeases (some (serialize sampleLeases)) = .valid sampleLeases := by
  refine lease_file_round_trip ?_ (if_pos (by decide))
  rintro (_ | _) lease hlease
  · cases hlease
  · obtain rfl := Option.some.inj hlease
    exact ⟨by decide, by decide, by decide, by decide⟩

end Uhf.Network

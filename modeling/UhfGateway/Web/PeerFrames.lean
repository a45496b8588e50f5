/-
The frames that the peer of a telemetry connection sends (`consume_websocket_input`).

A `PeerFrame` is a frame as it may come over the wire: with the FIN bit, masked, and with a length
of 7 or 16 bits.

* `parseFrame_bytes`, `exists_peerFrame`, `parseFrame_rejected_iff` — one round of the loop;
* `consumeLoop_append` — what has been consumed needs no second look;
* `websocket_input_exact` — the pieces in which the input comes do not matter, what is rejected, and
  what the replies carry.
-/
import UhfGateway.Web.WebSocket

namespace Uhf.Web

/-! ### Frames -/

/-- The length code of a payload, with the bytes that follow it. -/
inductive LengthCode : UInt8 → Bytes → ℕ → Prop
  | short {code : UInt8} (h : code.toNat ≤ 125) : LengthCode code [] code.toNat
  | long (high low : UInt8) : LengthCode 126 [high, low] (high.toNat * 256 + low.toNat)

/-- A masked frame with the FIN bit and a length of 7 or 16 bits. -/
structure PeerFrame where
  first : UInt8
  second : UInt8
  extended : Bytes
  mask : Bytes
  payload : Bytes
  final : first &&& 0x80 ≠ 0
  masked : second &&& 0x80 ≠ 0
  size : LengthCode (second &&& 0x7F) extended payload.length
  mask_length : mask.length = 4

namespace PeerFrame

def opcode (f : PeerFrame) : UInt8 := f.first &&& 0x0F

/-- The frame on the wire; the mask is put on as it is taken off. -/
def bytes (f : PeerFrame) : Bytes :=
  f.first :: f.second :: (f.extended ++ (f.mask ++ unmask f.mask f.payload))

/-- No RSV bit is set, and a control frame is not too long. -/
def Sound (f : PeerFrame) : Prop :=
  f.first &&& 0x70 = 0 ∧ (f.opcode &&& 0x08 ≠ 0 → f.payload.length ≤ 125)

/-- Text, ping or pong. -/
def Passing (f : PeerFrame) : Prop := f.opcode = 0x1 ∨ f.opcode = 0x9 ∨ f.opcode = 0xA

/-- The frame that a close or a ping is answered with, which carries its payload. -/
def echo (f : PeerFrame) : Option Bytes :=
  if f.opcode = 0x8 then some (0x88 :: UInt8.ofNat f.payload.length :: f.payload)
  else if f.opcode = 0x9 then some (0x8A :: UInt8.ofNat f.payload.length :: f.payload)
  else none

end PeerFrame

/-- Two header bytes that no frame may have, or the length of a control frame that is too long. -/
inductive BadHeader : Bytes → Prop
  | bits {first second : UInt8} {rest : Bytes}
      (h : first &&& 0x80 = 0 ∨ first &&& 0x70 ≠ 0 ∨ second &&& 0x80 = 0 ∨ second &&& 0x7F = 127) :
      BadHeader (first :: second :: rest)
  | control {first second high low : UInt8} {rest : Bytes}
      (hopcode : first &&& 0x0F &&& 0x08 ≠ 0) (hcode : second &&& 0x7F = 126)
      (hlong : 125 < high.toNat * 256 + low.toNat) :
      BadHeader (first :: second :: high :: low :: rest)

/-- Behind frames that may pass comes a header that no frame may have, or a whole frame that is
neither one of these nor a close. -/
def Refused (input : Bytes) : Prop :=
  ∃ (frames : List PeerFrame) (tail : Bytes), input = frames.flatMap PeerFrame.bytes ++ tail ∧
    (∀ f ∈ frames, f.Passing) ∧
    (BadHeader tail ∨ ∃ f rest, tail = PeerFrame.bytes f ++ rest ∧ ¬ f.Passing ∧ f.opcode ≠ 0x8)

/-! ### Masks -/

theorem length_unmask (mask payload : Bytes) : (unmask mask payload).length = payload.length :=
  List.length_mapIdx

theorem unmask_unmask (mask payload : Bytes) : unmask mask (unmask mask payload) = payload := by
  refine List.ext_getElem ?_ fun i _ _ => ?_
  · rw [length_unmask, length_unmask]
  · simp only [unmask, List.getElem_mapIdx]
    rw [UInt8.xor_assoc, UInt8.xor_self, UInt8.xor_zero]

/-! ### One frame -/

theorem LengthCode.le {code : UInt8} {extended : Bytes} {size : ℕ}
    (h : LengthCode code extended size) : size ≤ 0xFFFF := by
  cases h with
  | short h => omega
  | long high low =>
    have hhigh := high.toNat_lt
    have hlow := low.toNat_lt
    omega

theorem LengthCode.inv {code : UInt8} {extended : Bytes} {size : ℕ}
    (h : LengthCode code extended size) :
    (code.toNat ≤ 125 ∧ extended = [] ∧ size = code.toNat) ∨
      ∃ high low : UInt8, code = 126 ∧ extended = [high, low] ∧
        size = high.toNat * 256 + low.toNat := by
  cases h with
  | short h => exact .inl ⟨h, rfl, rfl⟩
  | long high low => exact .inr ⟨high, low, rfl, rfl, rfl⟩

theorem shiftLeft_or (high low : UInt8) :
    high.toNat <<< 8 ||| low.toNat = high.toNat * 256 + low.toNat := by
  rw [← Nat.shiftLeft_add_eq_or_of_lt low.toNat_lt, Nat.shiftLeft_eq]

/-- With a size of 16 bits only the length of control frames is refused. -/
theorem parsePayload_eq (input : Bytes) (opcode : UInt8) {headerSize payloadSize : ℕ}
    (hheader : headerSize ≤ 4) (hsize : payloadSize ≤ 0xFFFF) :
    parsePayload input opcode headerSize payloadSize =
      if opcode &&& 0x08 ≠ 0 ∧ 125 < payloadSize then .rejected
      else if input.length < headerSize + 4 + payloadSize then .incomplete
      else .frame opcode
        (unmask ((input.drop headerSize).take 4) ((input.drop (headerSize + 4)).take payloadSize))
        (input.drop (headerSize + 4 + payloadSize)) := by
  have hfits : ¬ (kMaxWebSocketPayloadBytes < payloadSize ∨
      0xFFFFFFFFFFFFFFFF - headerSize - 6 < payloadSize) := by
    rw [kMaxWebSocketPayloadBytes]
    omega
  rw [parsePayload, if_neg hfits]

/-- The payload behind its header and its mask. -/
theorem parsePayload_bytes {header mask payload rest : Bytes} {opcode : UInt8}
    (hheader : header.length ≤ 4) (hmask : mask.length = 4) (hsize : payload.length ≤ 0xFFFF) :
    parsePayload (header ++ (mask ++ unmask mask payload) ++ rest) opcode header.length
        payload.length =
      if opcode &&& 0x08 ≠ 0 → payload.length ≤ 125 then .frame opcode payload rest
      else .rejected := by
  rw [parsePayload_eq _ _ hheader hsize]
  by_cases hcontrol : opcode &&& 0x08 ≠ 0 → payload.length ≤ 125
  · have hlength : ¬ (header ++ (mask ++ unmask mask payload) ++ rest).length <
        header.length + 4 + payload.length := by
      simp only [List.length_append, length_unmask]
      omega
    have hbad : ¬ (opcode &&& 0x08 ≠ 0 ∧ 125 < payload.length) := by
      rintro ⟨hopcode, hlong⟩
      exact absurd (hcontrol hopcode) (by omega)
    have hbehind : (header ++ (mask ++ unmask mask payload) ++ rest).drop (header.length + 4) =
        unmask mask payload ++ rest := by
      rw [← hmask, ← List.length_append, List.append_assoc, List.append_assoc, ← List.append_assoc,
        List.drop_left]
    rw [if_neg hbad, if_neg hlength, if_pos hcontrol]
    congr 1
    · have hfront : ((header ++ (mask ++ unmask mask payload) ++ rest).drop header.length).take 4 =
          mask := by
        rw [List.append_assoc, List.drop_left, List.append_assoc, ← hmask, List.take_left]
      rw [hfront, hbehind, ← length_unmask mask payload, List.take_left, unmask_unmask]
    · rw [← List.drop_drop, hbehind, ← length_unmask mask payload, List.drop_left]
  · have hbad : opcode &&& 0x08 ≠ 0 ∧ 125 < payload.length := by
      rw [Classical.not_imp] at hcontrol
      exact ⟨hcontrol.1, by omega⟩
    rw [if_pos hbad, if_neg hcontrol]

/-- What has been cut off as a frame is one. -/
theorem parsePayload_eq_frame {header tail payload rest : Bytes} {opcode opcode' : UInt8} {size : ℕ}
    (hheader : header.length ≤ 4) (hsize : size ≤ 0xFFFF)
    (h : parsePayload (header ++ tail) opcode header.length size = .frame opcode' payload rest) :
    opcode' = opcode ∧ payload.length = size ∧
      ∃ mask, mask.length = 4 ∧ tail = mask ++ unmask mask payload ++ rest := by
  rw [parsePayload_eq _ _ hheader hsize] at h
  split at h
  · cases h
  split at h
  · cases h
  next hlength =>
  rw [List.length_append] at hlength
  have hbehind : (header ++ tail).drop (header.length + 4) = tail.drop 4 := by
    rw [← List.drop_drop, List.drop_left]
  have hlast : (header ++ tail).drop (header.length + 4 + size) = (tail.drop 4).drop size := by
    rw [← List.drop_drop, hbehind]
  rw [List.drop_left, hbehind, hlast] at h
  obtain ⟨hopcode, hpayload, hrest⟩ := Parsed.frame.inj h
  have hmasked : unmask (tail.take 4) payload = (tail.drop 4).take size := by
    rw [← hpayload, unmask_unmask]
  refine ⟨hopcode.symm, ?_, tail.take 4, ?_, ?_⟩
  · rw [← hpayload, length_unmask, List.length_take, List.length_drop]
    omega
  · rw [List.length_take]
    omega
  · rw [hmasked, ← hrest, List.append_assoc, List.take_append_drop, List.take_append_drop]

theorem parsePayload_rejected_iff {input : Bytes} {opcode : UInt8} {headerSize payloadSize : ℕ}
    (hheader : headerSize ≤ 4) (hsize : payloadSize ≤ 0xFFFF) :
    parsePayload input opcode headerSize payloadSize = .rejected ↔
      opcode &&& 0x08 ≠ 0 ∧ 125 < payloadSize := by
  rw [parsePayload_eq _ _ hheader hsize]
  constructor
  · intro h
    by_contra hnot
    rw [if_neg hnot] at h
    split at h
    · cases h
    · cases h
  · intro h
    exact if_pos h

/-- One round of the loop, where there are two bytes. -/
theorem parseFrame_cons (first second : UInt8) (tail : Bytes) :
    parseFrame (first :: second :: tail) =
      if first &&& 0x80 = 0 ∨ first &&& 0x70 ≠ 0 ∨ second &&& 0x80 = 0 then .rejected
      else if second &&& 0x7F = 126 then
        if tail.length < 2 then .incomplete
        else parsePayload (first :: second :: tail) (first &&& 0x0F) 4
          ((tail.getD 0 0).toNat * 256 + (tail.getD 1 0).toNat)
      else if second &&& 0x7F = 127 then .rejected
      else parsePayload (first :: second :: tail) (first &&& 0x0F) 2 (second &&& 0x7F).toNat := by
  have hlength : ¬ (first :: second :: tail).length < 2 := by
    simp only [List.length_cons]
    omega
  have hfour : (first :: second :: tail).length < 4 ↔ tail.length < 2 := by
    simp only [List.length_cons]
    omega
  rw [← shiftLeft_or]
  simp only [parseFrame, if_neg hlength, hfour, List.getD_cons_zero, List.getD_cons_succ]

theorem code_le (second : UInt8) (h : second &&& 0x7F ≠ 126) (h' : second &&& 0x7F ≠ 127) :
    (second &&& 0x7F).toNat ≤ 125 := by
  have hle : (second &&& 0x7F).toNat ≤ 127 := by
    rw [UInt8.toNat_and]
    exact Nat.and_le_right
  have hne : (second &&& 0x7F).toNat ≠ 126 := fun heq => h (UInt8.toNat_inj.mp heq)
  have hne' : (second &&& 0x7F).toNat ≠ 127 := fun heq => h' (UInt8.toNat_inj.mp heq)
  omega

theorem parseFrame_bytes (f : PeerFrame) (rest : Bytes) :
    parseFrame (f.bytes ++ rest) =
      if f.first &&& 0x70 ≠ 0 then .rejected
      else if f.opcode &&& 0x08 ≠ 0 → f.payload.length ≤ 125 then .frame f.opcode f.payload rest
      else .rejected := by
  obtain ⟨first, second, extended, mask, payload, final, masked, size, hmask⟩ := f
  have hsize := size.le
  rw [PeerFrame.bytes, List.cons_append, List.cons_append, parseFrame_cons]
  simp only [PeerFrame.opcode]
  by_cases hreserved : first &&& 0x70 ≠ 0
  · rw [if_pos (.inr (.inl hreserved)), if_pos hreserved]
  have hbits : ¬ (first &&& 0x80 = 0 ∨ first &&& 0x70 ≠ 0 ∨ second &&& 0x80 = 0) := by
    rintro (hfinal | hset | hplain)
    · exact final hfinal
    · exact hreserved hset
    · exact masked hplain
  rw [if_neg hbits, if_neg hreserved]
  obtain ⟨hshort, rfl, hlength⟩ | ⟨high, low, hcode, rfl, hlength⟩ := size.inv
  · have hlong : second &&& 0x7F ≠ 126 := by
      intro hcode
      rw [hcode] at hshort
      exact absurd hshort (by decide)
    have hlonger : second &&& 0x7F ≠ 127 := by
      intro hcode
      rw [hcode] at hshort
      exact absurd hshort (by decide)
    rw [if_neg hlong, if_neg hlonger, ← hlength]
    have hparsed := @parsePayload_bytes [first, second] mask payload rest (first &&& 0x0F)
      (by simp) hmask hsize
    exact hparsed
  · have hbehind : ¬ ([high, low] ++ (mask ++ unmask mask payload) ++ rest).length < 2 := by
      simp only [List.length_append, List.length_cons]
      omega
    rw [if_pos hcode, if_neg hbehind]
    simp only [List.cons_append, List.getD_cons_zero, List.getD_cons_succ]
    rw [← hlength]
    have hparsed := @parsePayload_bytes [first, second, high, low] mask payload rest
      (first &&& 0x0F) (by simp) hmask hsize
    exact hparsed

theorem PeerFrame.Sound.parse {f : PeerFrame} (h : f.Sound) (rest : Bytes) :
    parseFrame (f.bytes ++ rest) = .frame f.opcode f.payload rest := by
  rw [parseFrame_bytes, if_neg (not_not.mpr h.1), if_pos h.2]

theorem parseFrame_unsound {f : PeerFrame} (h : ¬ f.Sound) (rest : Bytes) :
    parseFrame (f.bytes ++ rest) = .rejected := by
  rw [parseFrame_bytes]
  by_cases hreserved : f.first &&& 0x70 = 0
  · rw [if_neg (not_not.mpr hreserved), if_neg fun hcontrol => h ⟨hreserved, hcontrol⟩]
  · rw [if_pos hreserved]

/-- The frame that a round cuts off. -/
theorem exists_peerFrame {input payload rest : Bytes} {opcode : UInt8}
    (h : parseFrame input = .frame opcode payload rest) :
    ∃ f : PeerFrame, f.Sound ∧ f.opcode = opcode ∧ f.payload = payload ∧
      input = f.bytes ++ rest := by
  -- it is enough that some frame stands there
  suffices hbytes : ∃ f : PeerFrame, input = f.bytes ++ rest by
    obtain ⟨f, rfl⟩ := hbytes
    by_cases hsound : f.Sound
    · rw [hsound.parse] at h
      obtain ⟨hopcode, hpayload, -⟩ := Parsed.frame.inj h
      exact ⟨f, hsound, hopcode, hpayload, rfl⟩
    · rw [parseFrame_unsound hsound] at h
      cases h
  obtain _ | ⟨first, _ | ⟨second, tail⟩⟩ := input
  · cases h
  · cases h
  rw [parseFrame_cons] at h
  split at h
  · cases h
  next hbits =>
  simp only [not_or] at hbits
  obtain ⟨hfinal, -, hmasked⟩ := hbits
  split at h
  · next hcode =>
    split at h
    · cases h
    next hlength =>
    obtain _ | ⟨high, _ | ⟨low, behind⟩⟩ := tail
    · exact absurd Nat.zero_lt_two hlength
    · exact absurd Nat.one_lt_two hlength
    have hhigh := high.toNat_lt
    have hlow := low.toNat_lt
    have hcut := @parsePayload_eq_frame [first, second, high, low] behind payload rest
      (first &&& 0x0F) opcode (high.toNat * 256 + low.toNat) (by simp) (by omega) h
    obtain ⟨-, hsize, mask, hmask, hbehind⟩ := hcut
    refine ⟨⟨first, second, [high, low], mask, payload, hfinal, hmasked, ?_, hmask⟩, ?_⟩
    · rw [hcode, hsize]
      exact .long high low
    · rw [hbehind]
      rfl
  next hshort =>
  split at h
  · cases h
  next hlonger =>
  have hle := code_le second hshort hlonger
  have hcut := @parsePayload_eq_frame [first, second] tail payload rest (first &&& 0x0F) opcode
    (second &&& 0x7F).toNat (by simp) (by omega) h
  obtain ⟨-, hsize, mask, hmask, hbehind⟩ := hcut
  refine ⟨⟨first, second, [], mask, payload, hfinal, hmasked, ?_, hmask⟩, ?_⟩
  · rw [hsize]
    exact .short hle
  · rw [hbehind]
    rfl

theorem parseFrame_rejected_iff {input : Bytes} :
    parseFrame input = .rejected ↔ BadHeader input := by
  constructor
  · intro h
    obtain _ | ⟨first, _ | ⟨second, tail⟩⟩ := input
    · cases h
    · cases h
    rw [parseFrame_cons] at h
    split at h
    · next hbits =>
      obtain hfinal | hset | hplain := hbits
      · exact .bits (.inl hfinal)
      · exact .bits (.inr (.inl hset))
      · exact .bits (.inr (.inr (.inl hplain)))
    split at h
    · next hcode =>
      split at h
      · cases h
      next hlength =>
      obtain _ | ⟨high, _ | ⟨low, behind⟩⟩ := tail
      · exact absurd Nat.zero_lt_two hlength
      · exact absurd Nat.one_lt_two hlength
      have hhigh := high.toNat_lt
      have hlow := low.toNat_lt
      simp only [List.getD_cons_zero, List.getD_cons_succ] at h
      rw [parsePayload_rejected_iff (by omega) (by omega)] at h
      exact .control h.1 hcode h.2
    next hshort =>
    split at h
    · next hcode => exact .bits (.inr (.inr (.inr hcode)))
    next hlonger =>
    have hle := code_le second hshort hlonger
    rw [parsePayload_rejected_iff (by omega) (by omega)] at h
    exact absurd h.2 (by omega)
  · intro h
    cases h with
    | @bits first second rest hbits =>
      rw [parseFrame_cons]
      split
      · rfl
      next hnone =>
      have hcode : second &&& 0x7F = 127 := by
        obtain hfinal | hset | hplain | hcode := hbits
        · exact absurd (.inl hfinal) hnone
        · exact absurd (.inr (.inl hset)) hnone
        · exact absurd (.inr (.inr hplain)) hnone
        · exact hcode
      rw [if_neg (by rw [hcode]; decide), if_pos hcode]
    | @control first second high low rest hopcode hcode hlong =>
      rw [parseFrame_cons]
      by_cases hbits : first &&& 0x80 = 0 ∨ first &&& 0x70 ≠ 0 ∨ second &&& 0x80 = 0
      · rw [if_pos hbits]
      have hlength : ¬ (high :: low :: rest).length < 2 := by
        simp only [List.length_cons]
        omega
      have hhigh := high.toNat_lt
      have hlow := low.toNat_lt
      rw [if_neg hbits, if_pos hcode, if_neg hlength]
      simp only [List.getD_cons_zero, List.getD_cons_succ]
      rw [parsePayload_rejected_iff (by omega) (by omega)]
      exact ⟨hopcode, hlong⟩

/-! ### More input -/

theorem BadHeader.append {input : Bytes} (h : BadHeader input) (more : Bytes) :
    BadHeader (input ++ more) := by
  cases h with
  | bits hbits => exact .bits hbits
  | control hopcode hcode hlong => exact .control hopcode hcode hlong

theorem parseFrame_append {input payload rest : Bytes} {opcode : UInt8}
    (h : parseFrame input = .frame opcode payload rest) (more : Bytes) :
    parseFrame (input ++ more) = .frame opcode payload (rest ++ more) := by
  obtain ⟨f, hsound, rfl, rfl, rfl⟩ := exists_peerFrame h
  rw [List.append_assoc]
  exact hsound.parse (rest ++ more)

/-- The input is the beginning of a frame. -/
def Idle (input : Bytes) : Prop := parseFrame input = .incomplete

theorem consume_idle {input : Bytes} (h : Idle input) :
    consumeWebsocketInput input = some { input := input } :=
  consumeLoop_incomplete h none

/-- A rejection stays one. -/
theorem consumeLoop_append_none {input : Bytes} {reply : Option Bytes}
    (h : consumeLoop input reply = none) (more : Bytes) :
    consumeLoop (input ++ more) reply = none := by
  fun_induction consumeLoop input reply with
  | case1 => cases h
  | case2 input reply hparsed =>
    refine consumeLoop_rejected ?_ reply
    rw [parseFrame_rejected_iff] at hparsed ⊢
    exact hparsed.append more
  | case3 => cases h
  | case4 input reply payload rest hparsed _ ih =>
    rw [consumeLoop_frame (parseFrame_append hparsed more), if_neg (by decide), if_pos rfl]
    exact ih h
  | case5 input reply opcode payload rest hparsed hclose hping hother =>
    rw [consumeLoop_frame (parseFrame_append hparsed more), if_neg hclose, if_neg hping,
      if_pos hother]
  | case6 input reply opcode payload rest hparsed hclose hping hother ih =>
    rw [consumeLoop_frame (parseFrame_append hparsed more), if_neg hclose, if_neg hping,
      if_neg hother]
    exact ih h

/-- What comes behind a close is left alone; otherwise the loop goes on where it has stopped. -/
theorem consumeLoop_append {input : Bytes} {reply : Option Bytes} {consumed : Consumed}
    (h : consumeLoop input reply = some consumed) (more : Bytes) :
    consumeLoop (input ++ more) reply =
      if consumed.closeRequested then some { consumed with input := consumed.input ++ more }
      else consumeLoop (consumed.input ++ more) consumed.reply := by
  fun_induction consumeLoop input reply with
  | case1 input reply hparsed =>
    cases h
    rfl
  | case2 => cases h
  | case3 input reply payload rest hparsed =>
    cases h
    rw [consumeLoop_frame (parseFrame_append hparsed more), if_pos rfl]
    rfl
  | case4 input reply payload rest hparsed _ ih =>
    rw [consumeLoop_frame (parseFrame_append hparsed more), if_neg (by decide), if_pos rfl]
    exact ih h
  | case5 => cases h
  | case6 input reply opcode payload rest hparsed hclose hping hother ih =>
    rw [consumeLoop_frame (parseFrame_append hparsed more), if_neg hclose, if_neg hping,
      if_neg hother]
    exact ih h

/-- Where the loop stops without a close, no whole frame is left. -/
theorem consumeLoop_idle {input : Bytes} {reply : Option Bytes} {consumed : Consumed}
    (h : consumeLoop input reply = some consumed) (hopen : consumed.closeRequested = false) :
    Idle consumed.input := by
  fun_induction consumeLoop input reply with
  | case1 input reply hparsed =>
    cases h
    exact hparsed
  | case2 => cases h
  | case3 =>
    cases h
    cases hopen
  | case4 _ _ _ _ _ _ ih => exact ih h
  | case5 => cases h
  | case6 _ _ _ _ _ _ _ _ _ ih => exact ih h

/-- The reply so far has no influence on the rest. -/
theorem consumeLoop_reply_irrelevant (input : Bytes) (reply reply' : Option Bytes) :
    (consumeLoop input reply).map (fun consumed => (consumed.input, consumed.closeRequested)) =
      (consumeLoop input reply').map fun consumed => (consumed.input, consumed.closeRequested) := by
  fun_induction consumeLoop input reply generalizing reply' with
  | case1 input reply hparsed =>
    rw [consumeLoop_incomplete hparsed]
    rfl
  | case2 input reply hparsed => rw [consumeLoop_rejected hparsed]
  | case3 input reply payload rest hparsed => rw [consumeLoop_frame hparsed, if_pos rfl]
  | case4 input reply payload rest hparsed =>
    -- the reply to this ping takes the place of any other
    rw [consumeLoop_frame hparsed, if_neg (by decide), if_pos rfl]
  | case5 input reply opcode payload rest hparsed hclose hping hother =>
    rw [consumeLoop_frame hparsed, if_neg hclose, if_neg hping, if_pos hother]
  | case6 input reply opcode payload rest hparsed hclose hping hother ih =>
    rw [consumeLoop_frame hparsed, if_neg hclose, if_neg hping, if_neg hother]
    exact ih _

/-! ### Frame by frame -/

theorem PeerFrame.passing_of_not_other (f : PeerFrame)
    (h : ¬ (f.opcode ≠ 0xA ∧ f.opcode ≠ 0x1)) : f.Passing := by
  by_cases hpong : f.opcode = 0xA
  · exact .inr (.inr hpong)
  · exact .inl (not_not.mp fun htext => h ⟨hpong, htext⟩)

theorem Refused.cons {f : PeerFrame} {rest : Bytes} (hf : f.Passing) (h : Refused rest) :
    Refused (f.bytes ++ rest) := by
  obtain ⟨frames, tail, rfl, hframes, htail⟩ := h
  refine ⟨f :: frames, tail, ?_, List.forall_mem_cons.mpr ⟨hf, hframes⟩, htail⟩
  rw [List.flatMap_cons, List.append_assoc]

theorem refused_of_consumeLoop {input : Bytes} {reply : Option Bytes}
    (h : consumeLoop input reply = none) : Refused input := by
  fun_induction consumeLoop input reply with
  | case1 => cases h
  | case2 input reply hparsed =>
    refine ⟨[], input, rfl, ?_, .inl (parseFrame_rejected_iff.mp hparsed)⟩
    exact fun f hf => absurd hf List.not_mem_nil
  | case3 => cases h
  | case4 input reply payload rest hparsed _ ih =>
    obtain ⟨f, -, hopcode, -, rfl⟩ := exists_peerFrame hparsed
    exact (ih h).cons (.inr (.inl hopcode))
  | case5 input reply opcode payload rest hparsed hclose hping hother =>
    obtain ⟨f, -, rfl, -, rfl⟩ := exists_peerFrame hparsed
    refine ⟨[], f.bytes ++ rest, rfl, ?_, .inr ⟨f, rest, rfl, ?_, hclose⟩⟩
    · exact fun g hg => absurd hg List.not_mem_nil
    · rintro (htext | hping' | hpong)
      · exact hother.2 htext
      · exact hping hping'
      · exact hother.1 hpong
  | case6 input reply opcode payload rest hparsed hclose hping hother ih =>
    obtain ⟨f, -, rfl, -, rfl⟩ := exists_peerFrame hparsed
    exact (ih h).cons (f.passing_of_not_other hother)

theorem consumeLoop_of_refused {input : Bytes} (h : Refused input) (reply : Option Bytes) :
    consumeLoop input reply = none := by
  obtain ⟨frames, tail, rfl, hframes, htail⟩ := h
  induction frames generalizing reply with
  | nil =>
    rw [List.flatMap_nil, List.nil_append]
    obtain hheader | ⟨f, rest, rfl, hpassing, hclose⟩ := htail
    · exact consumeLoop_rejected (parseFrame_rejected_iff.mpr hheader) reply
    by_cases hsound : f.Sound
    · have hother : f.opcode ≠ 0xA ∧ f.opcode ≠ 0x1 :=
        ⟨fun hpong => hpassing (.inr (.inr hpong)), fun htext => hpassing (.inl htext)⟩
      rw [consumeLoop_frame (hsound.parse rest), if_neg hclose,
        if_neg fun hping => hpassing (.inr (.inl hping)), if_pos hother]
    · exact consumeLoop_rejected (parseFrame_unsound hsound rest) reply
  | cons f frames ih =>
    obtain ⟨hpassing, hframes⟩ := List.forall_mem_cons.mp hframes
    rw [List.flatMap_cons, List.append_assoc]
    by_cases hsound : f.Sound
    · rw [consumeLoop_frame (hsound.parse _)]
      obtain htext | hping | hpong := hpassing
      · rw [if_neg (by rw [htext]; decide), if_neg (by rw [htext]; decide),
          if_neg fun hother => hother.2 htext]
        exact ih reply hframes
      · rw [if_neg (by rw [hping]; decide), if_pos hping]
        exact ih _ hframes
      · rw [if_neg (by rw [hpong]; decide), if_neg (by rw [hpong]; decide),
          if_neg fun hother => hother.1 hpong]
        exact ih reply hframes
    · exact consumeLoop_rejected (parseFrame_unsound hsound _) reply

/-- A reply of the server: the payload behind two bytes. -/
theorem websocketFrame_control {opcode : UInt8} {payload : Bytes} (h : payload.length ≤ 125) :
    websocketFrame opcode payload =
      (0x80 ||| (opcode &&& 0x0F)) :: UInt8.ofNat payload.length :: payload := by
  have hfits : ¬ kMaxWebSocketPayloadBytes < payload.length := by
    rw [kMaxWebSocketPayloadBytes]
    omega
  rw [websocketFrame, if_neg hfits, frameHeader, if_pos h]
  rfl

theorem PeerFrame.Sound.echo_close {f : PeerFrame} (h : f.Sound) (hopcode : f.opcode = 0x8) :
    f.echo = some (websocketFrame 0x8 f.payload) := by
  rw [PeerFrame.echo, if_pos hopcode, websocketFrame_control (h.2 (by rw [hopcode]; decide))]
  rfl

theorem PeerFrame.Sound.echo_ping {f : PeerFrame} (h : f.Sound) (hopcode : f.opcode = 0x9) :
    f.echo = some (websocketFrame 0xA f.payload) := by
  rw [PeerFrame.echo, if_neg (by rw [hopcode]; decide), if_pos hopcode,
    websocketFrame_control (h.2 (by rw [hopcode]; decide))]
  rfl

/-- The frames that have been consumed, the last of which is the close if there is one. -/
structure ConsumedFrames (input : Bytes) (reply : Option Bytes) (consumed : Consumed)
    (frames : List PeerFrame) : Prop where
  input_eq : input = frames.flatMap PeerFrame.bytes ++ consumed.input
  reply_eq : consumed.reply = (frames.filterMap PeerFrame.echo).getLast?.or reply
  passing : consumed.closeRequested = false → ∀ f ∈ frames, f.Passing
  closing : consumed.closeRequested = true → ∃ passed last, frames = passed ++ [last] ∧
    (∀ f ∈ passed, f.Passing) ∧ last.opcode = 0x8

theorem ConsumedFrames.cons {rest : Bytes} {reply : Option Bytes} {consumed : Consumed}
    {frames : List PeerFrame} {f : PeerFrame} (hf : f.Passing)
    (h : ConsumedFrames rest (f.echo.or reply) consumed frames) :
    ConsumedFrames (f.bytes ++ rest) reply consumed (f :: frames) := by
  constructor
  · rw [List.flatMap_cons, List.append_assoc, ← h.input_eq]
  · rw [h.reply_eq]
    cases hecho : f.echo with
    | none => rw [List.filterMap_cons_none hecho, Option.none_or]
    | some echo =>
      rw [List.filterMap_cons_some hecho, List.getLast?_cons]
      cases (frames.filterMap PeerFrame.echo).getLast? with
      | none => rfl
      | some last => rfl
  · intro hopen
    exact List.forall_mem_cons.mpr ⟨hf, h.passing hopen⟩
  · intro hclosed
    obtain ⟨passed, last, rfl, hpassed, hlast⟩ := h.closing hclosed
    exact ⟨f :: passed, last, rfl, List.forall_mem_cons.mpr ⟨hf, hpassed⟩, hlast⟩

theorem consumeLoop_frames {input : Bytes} {reply : Option Bytes} {consumed : Consumed}
    (h : consumeLoop input reply = some consumed) :
    ∃ frames, ConsumedFrames input reply consumed frames := by
  fun_induction consumeLoop input reply with
  | case1 input reply hparsed =>
    cases h
    refine ⟨[], rfl, rfl, fun _ f hf => absurd hf List.not_mem_nil, ?_⟩
    intro hclosed
    cases hclosed
  | case2 => cases h
  | case3 input reply payload rest hparsed =>
    cases h
    obtain ⟨f, hsound, hopcode, rfl, rfl⟩ := exists_peerFrame hparsed
    refine ⟨[f], ?_, ?_, ?_, ?_⟩
    · rw [List.flatMap_cons, List.flatMap_nil, List.append_nil]
    · rw [List.filterMap_cons_some (hsound.echo_close hopcode)]
      rfl
    · intro hopen
      cases hopen
    · intro _
      exact ⟨[], f, rfl, fun g hg => absurd hg List.not_mem_nil, hopcode⟩
  | case4 input reply payload rest hparsed _ ih =>
    obtain ⟨f, hsound, hopcode, rfl, rfl⟩ := exists_peerFrame hparsed
    obtain ⟨frames, hframes⟩ := ih h
    refine ⟨f :: frames, ConsumedFrames.cons (.inr (.inl hopcode)) ?_⟩
    rw [hsound.echo_ping hopcode]
    exact hframes
  | case5 => cases h
  | case6 input reply opcode payload rest hparsed hclose hping hother ih =>
    obtain ⟨f, -, rfl, rfl, rfl⟩ := exists_peerFrame hparsed
    obtain ⟨frames, hframes⟩ := ih h
    refine ⟨f :: frames, ConsumedFrames.cons (f.passing_of_not_other hother) ?_⟩
    rw [PeerFrame.echo, if_neg hclose, if_neg hping]
    exact hframes

/-! ### Piece by piece -/

/-- Input that has come: where `webSocketRound` has received it. -/
def Connection.receive (c : Connection) (piece : Bytes) : Option Connection :=
  (consumeWebsocketInput (c.input ++ piece)).map c.absorb

theorem Connection.absorb_input (c : Connection) (consumed : Consumed) :
    (c.absorb consumed).input = consumed.input := rfl

theorem Connection.absorb_closeRequested (c : Connection) (consumed : Consumed) :
    (c.absorb consumed).closeRequested = (c.closeRequested || consumed.closeRequested) := rfl

/-- Pieces without a byte make no difference. -/
theorem foldlM_receive_nil {pieces : List Bytes} {c : Connection} (hidle : Idle c.input)
    (h : pieces.flatten = []) : pieces.foldlM Connection.receive c = some c := by
  induction pieces with
  | nil => rfl
  | cons piece pieces ih =>
    obtain ⟨rfl, hrest⟩ := List.append_eq_nil_iff.mp (List.flatten_cons ▸ h)
    have hsame : c.receive [] = some c := by
      rw [Connection.receive, List.append_nil, consume_idle hidle, Option.map_some,
        Connection.absorb]
      simp only [Option.elim_none, Bool.or_false]
    rw [List.foldlM_cons, hsame]
    exact ih hrest

theorem foldlM_receive {pieces : List Bytes} {c : Connection} (hidle : Idle c.input)
    (hopen : c.closeRequested = false)
    (hlast : ∀ consumed, consumeWebsocketInput (c.input ++ pieces.flatten) = some consumed →
      consumed.closeRequested = true → consumed.input = []) :
    (pieces.foldlM Connection.receive c).map (fun c => (c.input, c.closeRequested)) =
      (consumeWebsocketInput (c.input ++ pieces.flatten)).map
        fun consumed => (consumed.input, consumed.closeRequested) := by
  induction pieces generalizing c with
  | nil =>
    rw [List.flatten_nil, List.append_nil, consume_idle hidle, ← hopen]
    rfl
  | cons piece pieces ih =>
    rw [List.flatten_cons, ← List.append_assoc] at hlast ⊢
    rw [List.foldlM_cons, Connection.receive]
    cases hconsumed : consumeWebsocketInput (c.input ++ piece) with
    | none =>
      have hnone := consumeLoop_append_none hconsumed pieces.flatten
      rw [consumeWebsocketInput, hnone]
      rfl
    | some consumed =>
      have hwhole := consumeLoop_append hconsumed pieces.flatten
      rw [consumeWebsocketInput, hwhole] at hlast ⊢
      by_cases hclosed : consumed.closeRequested = true
      · -- behind the close nothing is left
        rw [if_pos hclosed] at hlast ⊢
        have hnil : consumed.input ++ pieces.flatten = [] := hlast _ rfl hclosed
        obtain ⟨hinput, hrest⟩ := List.append_eq_nil_iff.mp hnil
        have hidle' : Idle (c.absorb consumed).input := by
          rw [Connection.absorb_input, hinput]
          rfl
        have hkept : pieces.foldlM Connection.receive (c.absorb consumed) =
            some (c.absorb consumed) := foldlM_receive_nil hidle' hrest
        rw [Option.map_some, Option.bind_eq_bind, Option.bind_some, hkept, Option.map_some,
          Option.map_some, Connection.absorb_input, Connection.absorb_closeRequested, hnil, hinput,
          hclosed, Bool.or_true]
      · rw [if_neg hclosed] at hlast ⊢
        have hstill : consumed.closeRequested = false := Bool.eq_false_iff.mpr hclosed
        have hidle' : Idle (c.absorb consumed).input := consumeLoop_idle hconsumed hstill
        have hopen' : (c.absorb consumed).closeRequested = false := by
          rw [Connection.absorb_closeRequested, hopen, hstill]
          rfl
        have hforget := consumeLoop_reply_irrelevant (consumed.input ++ pieces.flatten)
          consumed.reply none
        rw [Option.map_some, Option.bind_eq_bind, Option.bind_some, hforget]
        refine ih hidle' hopen' fun consumed' hconsumed' hclosed' => ?_
        -- a close in the rest is one in the whole
        rw [Connection.absorb_input, consumeWebsocketInput] at hconsumed'
        rw [hconsumed'] at hforget
        obtain ⟨whole, hwhole', heq⟩ := Option.map_eq_some_iff.mp hforget
        obtain ⟨hinput, hclose⟩ := Prod.mk.inj heq
        rw [← hinput]
        exact hlast whole hwhole' (hclose.trans hclosed')

/-- The pieces in which the input comes do not matter as long as nothing follows a close; it is
rejected where it is refused; and what has been consumed is a row of frames, of which the last ping
or close is answered with its payload. -/
theorem websocket_input_exact :
    (∀ pieces : List Bytes,
      (∀ consumed, consumeWebsocketInput pieces.flatten = some consumed →
        consumed.closeRequested = true → consumed.input = []) →
      (pieces.foldlM Connection.receive {}).map (fun c => (c.input, c.closeRequested)) =
        (consumeWebsocketInput pieces.flatten).map
          fun consumed => (consumed.input, consumed.closeRequested)) ∧
    (∀ input, consumeWebsocketInput input = none ↔ Refused input) ∧
    ∀ input consumed, consumeWebsocketInput input = some consumed →
      ∃ frames, ConsumedFrames input none consumed frames := by
  refine ⟨?_, ?_, ?_⟩
  · intro pieces hlast
    exact @foldlM_receive pieces {} rfl rfl hlast
  · intro input
    exact ⟨refused_of_consumeLoop, fun h => consumeLoop_of_refused h none⟩
  · intro input consumed h
    exact consumeLoop_frames h

end Uhf.Web

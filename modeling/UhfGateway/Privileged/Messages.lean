/-
Messages of the privileged socket (`platform/privileged/unix_socket`).

A message travels behind its length, four bytes with the highest first; a reply is a message
of three parts: how the request ended, a code on the rest of the first line, and a body.

* `frame_prefix` — of two frames neither begins with the other, so a stream that holds a
  part of one frame can not hold the whole of another;
* `parseReply_replyMessage` — which replies come back as they were sent.
-/
import Mathlib.Algebra.Order.Ring.Nat
import UhfGateway.Domain.Bytes

namespace Uhf.Privileged

def kMaxMessageBytes : ℕ := 64 * 1024

/-! ### Frames -/

def readU32 (bytes : Bytes) : UInt32 :=
  (bytes.getD 0 0).toUInt32 <<< 24 ||| (bytes.getD 1 0).toUInt32 <<< 16 |||
    (bytes.getD 2 0).toUInt32 <<< 8 ||| (bytes.getD 3 0).toUInt32

def writeU32 (value : UInt32) : Bytes :=
  [(value >>> 24).toUInt8, (value >>> 16).toUInt8, (value >>> 8).toUInt8, value.toUInt8]

/-- What `send_message` puts on the stream: the header, and the message behind it. -/
def frame (message : Bytes) : Bytes := writeU32 (UInt32.ofNat message.length) ++ message

theorem length_writeU32 (value : UInt32) : (writeU32 value).length = 4 := rfl

/-- Shifting a word up by the width of what is put under it adds the two. -/
theorem toNat_or_shifted {high low : UInt32} {width : UInt32} (hwidth : width.toNat < 32)
    (hhigh : high.toNat * 2 ^ width.toNat < 2 ^ 32) (hlow : low.toNat < 2 ^ width.toNat) :
    (high <<< width ||| low).toNat = high.toNat * 2 ^ width.toNat + low.toNat := by
  have hor := Nat.shiftLeft_add_eq_or_of_lt hlow high.toNat
  rw [UInt32.toNat_or, UInt32.toNat_shiftLeft, Nat.mod_eq_of_lt hwidth,
    Nat.shiftLeft_eq, Nat.mod_eq_of_lt hhigh, ← Nat.shiftLeft_eq, ← hor, Nat.shiftLeft_eq]

theorem toNat_readU32 (b0 b1 b2 b3 : UInt8) :
    (readU32 [b0, b1, b2, b3]).toNat =
      b0.toNat * 2 ^ 24 + b1.toNat * 2 ^ 16 + b2.toNat * 2 ^ 8 + b3.toNat := by
  have h0 := b0.toNat_lt
  have h1 := b1.toNat_lt
  have h2 := b2.toNat_lt
  have h3 := b3.toNat_lt
  have hassoc : readU32 [b0, b1, b2, b3] = b0.toUInt32 <<< 24 ||| (b1.toUInt32 <<< 16 |||
      (b2.toUInt32 <<< 8 ||| b3.toUInt32)) := by
    simp only [readU32, List.getD_cons_zero, List.getD_cons_succ, UInt32.or_assoc]
  have hlow := @toNat_or_shifted b2.toUInt32 b3.toUInt32 8 (by decide)
    (by simp only [UInt8.toNat_toUInt32, UInt32.reduceToNat]; omega)
    (by simp only [UInt8.toNat_toUInt32, UInt32.reduceToNat]; omega)
  simp only [UInt8.toNat_toUInt32, UInt32.reduceToNat] at hlow
  have hmid := @toNat_or_shifted b1.toUInt32 (b2.toUInt32 <<< 8 ||| b3.toUInt32) 16 (by decide)
    (by simp only [UInt8.toNat_toUInt32, UInt32.reduceToNat]; omega)
    (by simp only [hlow, UInt32.reduceToNat]; omega)
  simp only [UInt8.toNat_toUInt32, UInt32.reduceToNat, hlow] at hmid
  have hall := @toNat_or_shifted b0.toUInt32
    (b1.toUInt32 <<< 16 ||| (b2.toUInt32 <<< 8 ||| b3.toUInt32)) 24 (by decide)
    (by simp only [UInt8.toNat_toUInt32, UInt32.reduceToNat]; omega)
    (by simp only [hmid, UInt32.reduceToNat]; omega)
  simp only [UInt8.toNat_toUInt32, UInt32.reduceToNat, hmid] at hall
  rw [hassoc, hall]
  omega

theorem readU32_writeU32 (value : UInt32) : readU32 (writeU32 value) = value := by
  have hlt := value.toNat_lt
  apply UInt32.toNat.inj
  rw [writeU32, toNat_readU32]
  simp only [UInt32.toNat_toUInt8, UInt32.toNat_shiftRight, UInt32.reduceToNat,
    Nat.reduceMod, Nat.shiftRight_eq_div_pow, Nat.reducePow]
  omega

theorem writeU32_readU32 (b0 b1 b2 b3 : UInt8) :
    writeU32 (readU32 [b0, b1, b2, b3]) = [b0, b1, b2, b3] := by
  have h0 := b0.toNat_lt
  have h1 := b1.toNat_lt
  have h2 := b2.toNat_lt
  have h3 := b3.toNat_lt
  have hvalue := toNat_readU32 b0 b1 b2 b3
  rw [writeU32]
  congr 1
  · apply UInt8.toNat.inj
    simp only [UInt32.toNat_toUInt8, UInt32.toNat_shiftRight, UInt32.reduceToNat,
      Nat.reduceMod, Nat.shiftRight_eq_div_pow, Nat.reducePow]
    omega
  congr 1
  · apply UInt8.toNat.inj
    simp only [UInt32.toNat_toUInt8, UInt32.toNat_shiftRight, UInt32.reduceToNat,
      Nat.reduceMod, Nat.shiftRight_eq_div_pow, Nat.reducePow]
    omega
  congr 1
  · apply UInt8.toNat.inj
    simp only [UInt32.toNat_toUInt8, UInt32.toNat_shiftRight, UInt32.reduceToNat,
      Nat.reduceMod, Nat.shiftRight_eq_div_pow, Nat.reducePow]
    omega
  congr 1
  apply UInt8.toNat.inj
  rw [UInt32.toNat_toUInt8]
  omega

/-- Four bytes are the header of every message of the length they name. -/
theorem frame_of_header {header message : Bytes} (hheader : header.length = 4)
    (hlength : message.length = (readU32 header).toNat) : frame message = header ++ message := by
  obtain ⟨b0, b1, b2, b3, rfl⟩ := List.length_eq_four.mp hheader
  rw [frame, hlength, UInt32.ofNat_toNat, writeU32_readU32]

/-- The header names the length, where it fits into one. -/
theorem readU32_length {message : Bytes} (h : message.length ≤ kMaxMessageBytes) :
    (readU32 (writeU32 (UInt32.ofNat message.length))).toNat = message.length := by
  have hmax : kMaxMessageBytes = 65536 := rfl
  rw [readU32_writeU32, UInt32.toNat_ofNat']
  omega

/-- A frame that begins with another frame is that frame. -/
theorem frame_prefix {m m' : Bytes} (hm : m.length ≤ kMaxMessageBytes)
    (hm' : m'.length ≤ kMaxMessageBytes) (h : frame m <+: frame m') : m = m' := by
  obtain ⟨rest, hrest⟩ := h
  rw [frame, frame, List.append_assoc] at hrest
  obtain ⟨hheader, hbody⟩ := List.append_inj hrest (by rw [length_writeU32, length_writeU32])
  have hlength : m.length = m'.length := by
    rw [← readU32_length hm, hheader, readU32_length hm']
  have hnone : rest = [] := by
    have hsum := congrArg List.length hbody
    rw [List.length_append] at hsum
    exact List.eq_nil_of_length_eq_zero (by omega)
  rw [hnone, List.append_nil] at hbody
  exact hbody

/-! ### Replies -/

structure Reply where
  ok : Bool := false
  code : Bytes
  body : Bytes := []
  deriving DecidableEq, Repr

/-- `std::string_view::find` of a character from a position on. -/
def findFrom (message : Bytes) (c : UInt8) (position : ℕ) : Option ℕ :=
  ((message.drop position).findIdx? (· = c)).map (position + ·)

def newline : UInt8 := '\n'.toUInt8

def replyMessage (reply : Reply) : Bytes :=
  (if reply.ok then ascii "OK\n" else ascii "ERROR\n") ++ reply.code ++ ascii "\n" ++ reply.body

def parseReply (message : Bytes) : Reply :=
  let ok := (ascii "OK\n").isPrefixOf message
  let error := (ascii "ERROR\n").isPrefixOf message
  if !ok && !error then { code := ascii "protocol_error" }
  else
    let prefixSize := if ok then 3 else 6
    match findFrom message newline prefixSize with
    | none => { code := ascii "protocol_error" }
    | some separator =>
      if separator = prefixSize ∨ findFrom message newline prefixSize ≠ some separator then
        { code := ascii "protocol_error" }
      else
        { ok := ok
          code := (message.drop prefixSize).take (separator - prefixSize)
          body := message.drop (separator + 1) }

/-- The code is a line of its own. -/
def Reply.Framed (reply : Reply) : Prop := reply.code ≠ [] ∧ newline ∉ reply.code

instance (reply : Reply) : Decidable reply.Framed := inferInstanceAs (Decidable (_ ∧ _))

/-- What stands before the code. -/
def replyPrefix (ok : Bool) : Bytes := if ok then ascii "OK\n" else ascii "ERROR\n"

theorem length_replyPrefix (ok : Bool) : (replyPrefix ok).length = if ok then 3 else 6 := by
  cases ok <;> rfl

theorem replyMessage_eq (reply : Reply) :
    replyMessage reply = replyPrefix reply.ok ++ (reply.code ++ newline :: reply.body) := by
  have hline : ascii "\n" = [newline] := rfl
  rw [replyMessage, replyPrefix, hline, List.append_assoc, List.append_assoc]
  rfl

/-- How a reply begins tells the two kinds apart. -/
theorem replyPrefix_isPrefixOf (ok ok' : Bool) (rest : Bytes) :
    (replyPrefix ok).isPrefixOf (replyPrefix ok' ++ rest) = (ok == ok') := by
  cases ok <;> cases ok' <;> rfl

/-- The separator is the first line end behind the prefix. -/
theorem findFrom_line {before line rest : Bytes} {c : UInt8} (h : c ∉ line) :
    findFrom (before ++ (line ++ c :: rest)) c before.length =
      some (before.length + line.length) := by
  have hdrop : (before ++ (line ++ c :: rest)).drop before.length = line ++ c :: rest :=
    List.drop_left
  have hidx : (line ++ c :: rest).findIdx? (· = c) = some line.length := by
    have hnone : line.findIdx? (· = c) = none := by
      rw [List.findIdx?_eq_none_iff]
      intro x hx
      have hne : x ≠ c := fun he => h (he ▸ hx)
      simpa using hne
    have hfirst : (c :: rest).findIdx? (· = c) = some 0 := by
      rw [List.findIdx?_cons, if_pos (decide_eq_true rfl)]
    rw [List.findIdx?_append, hnone, hfirst]
    simp
  rw [findFrom, hdrop, hidx]
  rfl

/-- `parse_reply` of a text that begins like a reply with the line `line`. -/
theorem parseReply_line (ok : Bool) {line rest : Bytes} (h : newline ∉ line) :
    parseReply (replyPrefix ok ++ (line ++ newline :: rest)) =
      if line = [] then { code := ascii "protocol_error" }
      else { ok := ok, code := line, body := rest } := by
  have hok := replyPrefix_isPrefixOf true ok (line ++ newline :: rest)
  have herror := replyPrefix_isPrefixOf false ok (line ++ newline :: rest)
  have hsize := length_replyPrefix ok
  have hfind := @findFrom_line (replyPrefix ok) line rest newline h
  have htrue : (true == ok) = ok := by cases ok <;> rfl
  have hkind : (!ok && !(false == ok)) = false := by cases ok <;> rfl
  rw [hsize] at hfind
  rw [show replyPrefix true = ascii "OK\n" from rfl] at hok
  rw [show replyPrefix false = ascii "ERROR\n" from rfl] at herror
  unfold parseReply
  simp only [hok, herror, htrue, hkind, hfind, ne_eq, Bool.false_eq_true, if_false,
    not_true_eq_false, or_false]
  by_cases hline : line = []
  · simp [hline]
  · have hlength : line.length ≠ 0 := fun h0 => hline (List.eq_nil_of_length_eq_zero h0)
    have hbehind : (if ok then 3 else 6) + line.length ≠ if ok then 3 else 6 := by omega
    rw [if_neg hbehind, if_neg hline]
    have hdrop : (replyPrefix ok ++ (line ++ newline :: rest)).drop (if ok then 3 else 6) =
        line ++ newline :: rest := by
      rw [← hsize]
      exact List.drop_left
    have hbody : (replyPrefix ok ++ (line ++ newline :: rest)).drop
        ((if ok then 3 else 6) + line.length + 1) = rest := by
      rw [Nat.add_assoc, ← List.drop_drop, hdrop, ← List.drop_drop, List.drop_left]
      rfl
    rw [hbody, hdrop, Nat.add_sub_cancel_left, List.take_left]

/-- **The replies that come back as they were sent** are those whose code is a line of its
own; nothing is asked of the body, which may hold any bytes. -/
theorem parseReply_replyMessage (reply : Reply) :
    parseReply (replyMessage reply) = reply ↔ reply.Framed := by
  rw [replyMessage_eq]
  constructor
  · intro h
    by_cases hin : newline ∈ reply.code
    · -- the code that is read ends at the first of its line ends
      exfalso
      obtain ⟨line, rest, hcode, hline⟩ := List.eq_append_cons_of_mem hin
      have hread := @parseReply_line reply.ok line (rest ++ newline :: reply.body) hline
      rw [hcode, List.append_assoc, List.cons_append, hread] at h
      have hin' : newline ∈ (if line = [] then { code := ascii "protocol_error" }
          else { ok := reply.ok, code := line, body := rest ++ newline :: reply.body }
          : Reply).code := by
        rw [h]
        exact hin
      by_cases hempty : line = []
      · rw [if_pos hempty] at hin'
        exact absurd hin' (by decide)
      · rw [if_neg hempty] at hin'
        exact hline hin'
    · refine ⟨?_, hin⟩
      rw [parseReply_line reply.ok hin] at h
      intro hempty
      rw [if_pos hempty] at h
      have hcode : ascii "protocol_error" = reply.code := congrArg Reply.code h
      rw [hempty] at hcode
      exact absurd hcode (by decide)
  · rintro ⟨hempty, hin⟩
    rw [parseReply_line reply.ok hin, if_neg hempty]

end Uhf.Privileged

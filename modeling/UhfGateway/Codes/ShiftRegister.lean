/-
Checksums from a shift register.

A register of `w` bits takes up a message bit by bit, the lowest bit of each byte first; what is
shifted out of it is fed back through a polynomial.  Only two things are used of the polynomial:
the register is linear in what it takes up, and it forgets nothing if the constant term, here the
highest bit, is set.

* `register_xor` — an error shows in the register as it would show on its own;
* `register_append_word` — what the register is after it has taken up a word as wide as itself;
* `register_burst` — an error that is not longer than the register is noticed.
-/
import Mathlib.Data.List.GetD
import Mathlib.Logic.Function.Iterate

namespace Codes

/-! ### One bit -/

section Bits

variable {w : ℕ} (poly : BitVec w)

def shiftBit (c : BitVec w) : BitVec w :=
  if c.getLsbD 0 then (c >>> 1) ^^^ poly else c >>> 1

theorem getLsbD_shiftBit (c : BitVec w) (i : ℕ) :
    (shiftBit poly c).getLsbD i = (c.getLsbD (i + 1) ^^ (c.getLsbD 0 && poly.getLsbD i)) := by
  rw [shiftBit]
  cases c.getLsbD 0 <;> simp [Nat.add_comm 1 i]

theorem shiftBit_xor (c d : BitVec w) :
    shiftBit poly (c ^^^ d) = shiftBit poly c ^^^ shiftBit poly d := by
  apply BitVec.eq_of_getLsbD_eq
  intro i _
  simp only [getLsbD_shiftBit, BitVec.getLsbD_xor]
  cases c.getLsbD (i + 1) <;> cases d.getLsbD (i + 1) <;> cases c.getLsbD 0 <;>
    cases d.getLsbD 0 <;> cases poly.getLsbD i <;> rfl

theorem shiftBit_zero : shiftBit poly 0#w = 0#w := by
  rw [shiftBit, BitVec.getLsbD_zero, if_neg Bool.false_ne_true, BitVec.zero_ushiftRight]

variable {poly}

/-- What is shifted out can be read off the highest bit, so nothing is lost. -/
theorem shiftBit_eq_zero (hpoly : poly.msb = true) {c : BitVec w} (h : shiftBit poly c = 0#w) :
    c = 0#w := by
  have hbit : ∀ i, (c.getLsbD (i + 1) ^^ (c.getLsbD 0 && poly.getLsbD i)) = false := by
    intro i
    rw [← getLsbD_shiftBit, h, BitVec.getLsbD_zero]
  have hlast : c.getLsbD 0 = false := by
    have htop := hbit (w - 1)
    rw [BitVec.msb_eq_getLsbD_last] at hpoly
    rw [hpoly, BitVec.getLsbD_of_ge c (w - 1 + 1) (by omega)] at htop
    simpa using htop
  apply BitVec.eq_of_getLsbD_eq
  intro i _
  rw [BitVec.getLsbD_zero]
  cases i with
  | zero => exact hlast
  | succ i => simpa [hlast] using hbit i

theorem iterate_xor (n : ℕ) (c d : BitVec w) :
    (shiftBit poly)^[n] (c ^^^ d) = (shiftBit poly)^[n] c ^^^ (shiftBit poly)^[n] d := by
  induction n generalizing c d with
  | zero => rfl
  | succ n ih =>
    rw [Function.iterate_succ_apply, Function.iterate_succ_apply, Function.iterate_succ_apply,
      shiftBit_xor, ih]

theorem iterate_zero (n : ℕ) : (shiftBit poly)^[n] 0#w = 0#w :=
  Function.iterate_fixed (shiftBit_zero poly) n

theorem iterate_eq_zero (hpoly : poly.msb = true) {n : ℕ} {c : BitVec w}
    (h : (shiftBit poly)^[n] c = 0#w) : c = 0#w := by
  induction n with
  | zero => exact h
  | succ n ih =>
    rw [Function.iterate_succ_apply'] at h
    exact ih (shiftBit_eq_zero hpoly h)

theorem iterate_injective (hpoly : poly.msb = true) (n : ℕ) :
    Function.Injective (shiftBit poly)^[n] := by
  intro c d h
  have hxor : (shiftBit poly)^[n] (c ^^^ d) = 0#w := by rw [iterate_xor, h, BitVec.xor_self]
  exact BitVec.xor_eq_zero_iff.mp (iterate_eq_zero hpoly hxor)

end Bits

/-! ### A row of bits -/

section Rows

variable {w : ℕ} {poly : BitVec w}

/-- The register after it has taken up the bits. -/
def feedBits (poly : BitVec w) (c : BitVec w) (bits : List Bool) : BitVec w :=
  bits.foldl (fun c bit => shiftBit poly (c ^^^ (BitVec.ofBool bit).setWidth w)) c

/-- The number that the bits write, the lowest one first. -/
def word (w : ℕ) (bits : List Bool) : BitVec w := (BitVec.ofBoolListLE bits).setWidth w

theorem getLsbD_word (bits : List Bool) (i : ℕ) :
    (word w bits).getLsbD i = (decide (i < w) && bits.getD i false) := by
  rw [word, BitVec.getLsbD_setWidth, BitVec.getLsbD_ofBoolListLE]

/-- As many bits as the register has are taken up at once. -/
theorem feedBits_eq (c : BitVec w) {bits : List Bool} (h : bits.length ≤ w) :
    feedBits poly c bits = (shiftBit poly)^[bits.length] (c ^^^ word w bits) := by
  induction bits generalizing c with
  | nil =>
    have hnone : word w [] = 0#w := by
      apply BitVec.eq_of_getLsbD_eq
      intro i _
      simp [getLsbD_word]
    rw [hnone, BitVec.xor_zero]
    rfl
  | cons bit bits ih =>
    rw [List.length_cons] at h
    -- The other bits have moved down by one place when the first one is gone.
    have hfirst : shiftBit poly (c ^^^ word w (bit :: bits)) =
        shiftBit poly (c ^^^ (BitVec.ofBool bit).setWidth w) ^^^ word w bits := by
      apply BitVec.eq_of_getLsbD_eq
      intro i hi
      have hpos : 0 < w := by omega
      have htop : i + 1 < w ∨ bits.getD i false = false := by
        by_cases hlast : i + 1 < w
        · exact .inl hlast
        · exact .inr (List.getD_eq_default _ _ (by omega))
      simp only [BitVec.getLsbD_xor, getLsbD_shiftBit, getLsbD_word, List.getD_cons_succ,
        List.getD_cons_zero, BitVec.getLsbD_setWidth, BitVec.getLsbD_ofBool]
      have hkept : (decide (i + 1 < w) && bits.getD i false) = bits.getD i false := by
        obtain hlast | hnone := htop
        · rw [decide_eq_true hlast, Bool.true_and]
        · rw [hnone, Bool.and_false]
      have hrest : (decide (i + 1 < w) && (decide (i + 1 = 0) && bit)) = false := by
        simp
      simp only [hkept, hrest, decide_eq_true hpos, decide_eq_true hi, decide_true, Bool.true_and,
        Bool.xor_false]
      rw [Bool.xor_assoc, Bool.xor_assoc, Bool.xor_comm (bits.getD i false)]
    rw [feedBits, List.foldl_cons, ← feedBits, ih _ (by omega), List.length_cons,
      Function.iterate_succ_apply, hfirst]

theorem feedBits_append (c : BitVec w) (first second : List Bool) :
    feedBits poly c (first ++ second) = feedBits poly (feedBits poly c first) second :=
  List.foldl_append

/-- Bits that are not set only shift the register. -/
theorem feedBits_false (c : BitVec w) {bits : List Bool} (h : ∀ bit ∈ bits, bit = false) :
    feedBits poly c bits = (shiftBit poly)^[bits.length] c := by
  induction bits generalizing c with
  | nil => rfl
  | cons bit bits ih =>
    obtain ⟨rfl, hbits⟩ := List.forall_mem_cons.mp h
    have hzero : (BitVec.ofBool false).setWidth w = 0#w := by simp
    rw [feedBits, List.foldl_cons, hzero, BitVec.xor_zero, ← feedBits, ih _ hbits,
      List.length_cons, Function.iterate_succ_apply]

/-- Among the bits, all that are set are within `n` of each other, and there are some. -/
def Burst (n : ℕ) (bits : List Bool) : Prop :=
  (∃ i, bits.getD i false = true) ∧
    ∃ start, ∀ i, bits.getD i false = true → start ≤ i ∧ i < start + n

/-- No register that is as wide as the burst is back at zero after it. -/
theorem feedBits_burst (hpoly : poly.msb = true) {bits : List Bool} (h : Burst w bits) :
    feedBits poly 0#w bits ≠ 0#w := by
  obtain ⟨⟨i, hi⟩, start, hwithin⟩ := h
  obtain ⟨hlow, hhigh⟩ := hwithin i hi
  let burst := (bits.drop start).take w
  have hsplit : bits = bits.take start ++ (burst ++ (bits.drop start).drop w) := by
    rw [List.take_append_drop, List.take_append_drop]
  have hbefore : ∀ bit ∈ bits.take start, bit = false := by
    intro bit hbit
    obtain ⟨j, hj, rfl⟩ := List.mem_iff_getElem.mp hbit
    rw [List.length_take] at hj
    rw [List.getElem_take, Bool.eq_false_iff]
    intro htrue
    have hset : bits.getD j false = true := by
      rw [List.getD_eq_getElem _ _ (by omega)]
      exact htrue
    have hle := (hwithin j hset).1
    omega
  have hafter : ∀ bit ∈ (bits.drop start).drop w, bit = false := by
    intro bit hbit
    obtain ⟨j, hj, rfl⟩ := List.mem_iff_getElem.mp hbit
    rw [List.length_drop, List.length_drop] at hj
    rw [List.getElem_drop, List.getElem_drop, Bool.eq_false_iff]
    intro htrue
    have hset : bits.getD (start + (w + j)) false = true := by
      rw [List.getD_eq_getElem _ _ (by omega)]
      exact htrue
    have hlt := (hwithin _ hset).2
    omega
  have hburst : word w burst ≠ 0#w := by
    intro hzero
    have hbit : (word w burst).getLsbD (i - start) = true := by
      have hget : burst.getD (i - start) false = true := by
        rw [List.getD_eq_getElem?_getD, List.getElem?_take_of_lt (by omega), List.getElem?_drop,
          show start + (i - start) = i by omega, ← List.getD_eq_getElem?_getD]
        exact hi
      rw [getLsbD_word, hget, decide_eq_true (by omega)]
      rfl
    rw [hzero, BitVec.getLsbD_zero] at hbit
    cases hbit
  have hwidth : burst.length ≤ w := List.length_take_le _ _
  intro hend
  rw [hsplit, feedBits_append, feedBits_append, feedBits_false _ hbefore, iterate_zero,
    feedBits_eq _ hwidth, BitVec.zero_xor, feedBits_false _ hafter] at hend
  exact hburst (iterate_eq_zero hpoly (iterate_eq_zero hpoly hend))

end Rows

/-! ### Messages -/

section Messages

variable {w : ℕ} {poly : BitVec w}

/-- A byte, its lowest bit first. -/
def byteBits (byte : UInt8) : List Bool := (List.range 8).map byte.toBitVec.getLsbD

/-- The bits of a message in the order in which they are taken up. -/
def messageBits (message : List UInt8) : List Bool := message.flatMap byteBits

/-- The register after it has taken up a byte. -/
def absorb (poly : BitVec w) (c : BitVec w) (byte : UInt8) : BitVec w :=
  (shiftBit poly)^[8] (c ^^^ byte.toBitVec.setWidth w)

/-- The register after it has taken up a message. -/
def register (poly : BitVec w) (c : BitVec w) (message : List UInt8) : BitVec w :=
  message.foldl (absorb poly) c

theorem length_messageBits (message : List UInt8) :
    (messageBits message).length = 8 * message.length := by
  induction message with
  | nil => rfl
  | cons byte message ih =>
    rw [messageBits, List.flatMap_cons, ← messageBits, List.length_append, ih, byteBits,
      List.length_map, List.length_range, List.length_cons]
    omega

theorem word_byteBits (byte : UInt8) : word w (byteBits byte) = byte.toBitVec.setWidth w := by
  apply BitVec.eq_of_getLsbD_eq
  intro i hi
  have hbit : (byteBits byte).getD i false = byte.toBitVec.getLsbD i := by
    by_cases hlt : i < 8
    · rw [byteBits, List.getD_eq_getElem _ _ (by simpa using hlt), List.getElem_map,
        List.getElem_range]
    · rw [List.getD_eq_default _ _ (by simpa [byteBits] using hlt),
        BitVec.getLsbD_of_ge _ _ (by omega)]
  rw [getLsbD_word, hbit, BitVec.getLsbD_setWidth]

theorem register_eq (hw : 8 ≤ w) (c : BitVec w) (message : List UInt8) :
    register poly c message = feedBits poly c (messageBits message) := by
  induction message generalizing c with
  | nil => rfl
  | cons byte message ih =>
    have hlength : (byteBits byte).length = 8 := by
      rw [byteBits, List.length_map, List.length_range]
    have hbyte : absorb poly c byte = feedBits poly c (byteBits byte) := by
      rw [feedBits_eq c (hlength ▸ hw), hlength, word_byteBits]
      rfl
    have hcons : messageBits (byte :: message) = byteBits byte ++ messageBits message := rfl
    rw [register, List.foldl_cons, ← register, ih, hcons, feedBits_append, hbyte]

/-- A message with the bits of an error turned over. -/
def altered (message error : List UInt8) : List UInt8 := List.zipWith (· ^^^ ·) message error

theorem length_altered {message error : List UInt8} (h : error.length = message.length) :
    (altered message error).length = message.length := by
  rw [altered, List.length_zipWith, h, Nat.min_self]

theorem register_xor {message error : List UInt8} (h : error.length = message.length)
    (c d : BitVec w) : register poly (c ^^^ d) (altered message error) =
      register poly c message ^^^ register poly d error := by
  induction message generalizing error c d with
  | nil =>
    rw [List.length_nil, List.length_eq_zero_iff] at h
    rw [h]
    rfl
  | cons byte message ih =>
    cases error with
    | nil => cases h
    | cons wrong error =>
      have hbyte : absorb poly (c ^^^ d) (byte ^^^ wrong) =
          absorb poly c byte ^^^ absorb poly d wrong := by
        rw [absorb, absorb, absorb, ← iterate_xor, UInt8.toBitVec_xor, BitVec.setWidth_xor]
        congr 1
        ac_rfl
      have hrest := ih (Nat.succ.inj h) (absorb poly c byte) (absorb poly d wrong)
      rw [altered, List.zipWith_cons_cons, ← altered, register, List.foldl_cons, ← register,
        hbyte]
      exact hrest

/-- A burst as wide as the register at most leaves another register than there would have been. -/
theorem register_burst (hpoly : poly.msb = true) (hw : 8 ≤ w) {message error : List UInt8}
    (hlength : error.length = message.length) (h : Burst w (messageBits error)) (c : BitVec w) :
    register poly c (altered message error) ≠ register poly c message := by
  have hxor : register poly (c ^^^ 0#w) (altered message error) =
      register poly c message ^^^ register poly 0#w error := register_xor hlength c 0#w
  rw [BitVec.xor_zero] at hxor
  intro heq
  have herror : register poly 0#w error = 0#w := by
    have hcancel : register poly c message ^^^ register poly 0#w error =
        register poly c message ^^^ 0#w := by rw [← hxor, heq, BitVec.xor_zero]
    exact (BitVec.xor_right_inj _).mp hcancel
  rw [register_eq hw] at herror
  exact feedBits_burst hpoly h herror

/-! ### Checked messages -/

/-- The last `n` bytes of the message hold what the register comes to over the others, with `out`
added to it. -/
def Passes (poly c out : BitVec w) (n : ℕ) (message : List UInt8) : Prop :=
  register poly c (message.take (message.length - n)) ^^^ out =
    word w (messageBits (message.drop (message.length - n)))

/-- A message is checked by going on over its checksum. -/
theorem passes_iff (hpoly : poly.msb = true) (hw : 8 ≤ w) {c out : BitVec w} {n : ℕ}
    (hn : 8 * n = w) {message : List UInt8} (hlength : n ≤ message.length) :
    Passes poly c out n message ↔ register poly c message = (shiftBit poly)^[w] out := by
  let body := message.take (message.length - n)
  let tail := message.drop (message.length - n)
  have htail : (messageBits tail).length = w := by
    rw [length_messageBits, List.length_drop]
    omega
  have hwhole : register poly c message =
      (shiftBit poly)^[w] (register poly c body ^^^ word w (messageBits tail)) := by
    have hsplit : message = body ++ tail := (List.take_append_drop _ _).symm
    rw [hsplit, register, List.foldl_append, ← register, ← register, register_eq hw _ tail,
      feedBits_eq _ (Nat.le_of_eq htail), htail]
  rw [hwhole, (iterate_injective hpoly w).eq_iff, Passes]
  constructor
  · intro h
    rw [← h, ← BitVec.xor_assoc, BitVec.xor_self, BitVec.zero_xor]
  · intro h
    rw [← h, ← BitVec.xor_assoc, BitVec.xor_self, BitVec.zero_xor]

/-- A burst that is not longer than the checksum does not pass. -/
theorem Passes.not_altered (hpoly : poly.msb = true) (hw : 8 ≤ w) {c out : BitVec w} {n : ℕ}
    (hn : 8 * n = w) {message error : List UInt8} (hlength : n ≤ message.length)
    (h : Passes poly c out n message) (herror : error.length = message.length)
    (hburst : Burst w (messageBits error)) : ¬ Passes poly c out n (altered message error) := by
  have hshort : n ≤ (altered message error).length := length_altered herror ▸ hlength
  rw [passes_iff hpoly hw hn hlength] at h
  rw [passes_iff hpoly hw hn hshort, ← h]
  exact register_burst hpoly hw herror hburst c

end Messages

end Codes

/-
The arithmetic of the thresholds (`percent_of`, `saturating_add`, `multiply_saturated`).

All of it is done in 64 bits.  A percentage is put together from the whole hundreds and the rest,
so that no product leaves them.

* `percentOf_exact`, `toNat_saturatingAdd`, `toNat_multiplySaturated` — the results as numbers;
* `watermark_arithmetic` — these, and the thresholds of every set of options.
-/
import UhfGateway.Storage.StorageCleaner

namespace Uhf.Storage

/-- `multiply_saturated`. -/
def multiplySaturated (first second : UInt64) : UInt64 :=
  if first ≠ 0 ∧ 0xFFFFFFFFFFFFFFFF / first < second then 0xFFFFFFFFFFFFFFFF else first * second

/-- The greatest number of 64 bits. -/
def largest : ℕ := 18446744073709551615

/-- `bounded_percent`. -/
def boundedPercent (percent : UInt8) : UInt64 := if 100 < percent then 100 else percent.toUInt64

theorem toNat_hundred : (100 : UInt64).toNat = 100 := rfl

theorem toNat_largest : (0xFFFFFFFFFFFFFFFF : UInt64).toNat = 18446744073709551615 := rfl

theorem toNat_boundedPercent (percent : UInt8) :
    (boundedPercent percent).toNat = min percent.toNat 100 := by
  have hhundred : (100 : UInt8).toNat = 100 := rfl
  rw [boundedPercent]
  split
  · next h =>
    rw [UInt8.lt_iff_toNat_lt, hhundred] at h
    rw [toNat_hundred]
    omega
  · next h =>
    rw [UInt8.lt_iff_toNat_lt, hhundred] at h
    rw [UInt8.toNat_toUInt64]
    omega

theorem percentOf_eq (totalBytes : UInt64) (percent : UInt8) :
    percentOf totalBytes percent = totalBytes / 100 * boundedPercent percent +
      totalBytes % 100 * boundedPercent percent / 100 := rfl

/-- Each step of `percent_of` computes the number it says, and so does the whole. -/
structure ExactPercent (totalBytes : UInt64) (percent : UInt8) : Prop where
  hundreds : (totalBytes / 100 * boundedPercent percent).toNat =
    totalBytes.toNat / 100 * min percent.toNat 100
  rest : (totalBytes % 100 * boundedPercent percent).toNat =
    totalBytes.toNat % 100 * min percent.toNat 100
  sum : (percentOf totalBytes percent).toNat = totalBytes.toNat / 100 * min percent.toNat 100 +
    totalBytes.toNat % 100 * min percent.toNat 100 / 100
  value : (percentOf totalBytes percent).toNat = totalBytes.toNat * min percent.toNat 100 / 100

/-- The hundreds and the rest of a product are taken separately. -/
theorem mul_div_hundred (n k : ℕ) : n * k / 100 = n / 100 * k + n % 100 * k / 100 := by
  calc n * k / 100 = (n % 100 * k + 100 * (n / 100 * k)) / 100 := by
        rw [← Nat.mul_assoc, ← Nat.add_mul, Nat.mod_add_div]
    _ = n / 100 * k + n % 100 * k / 100 := by
        rw [Nat.add_mul_div_left _ _ (by decide), Nat.add_comm]

theorem percentOf_exact (totalBytes : UInt64) (percent : UInt8) :
    ExactPercent totalBytes percent := by
  have htotal := totalBytes.toNat_lt
  have hpercent := toNat_boundedPercent percent
  have hbounded : min percent.toNat 100 ≤ 100 := Nat.min_le_right _ _
  have hhundreds : totalBytes.toNat / 100 * min percent.toNat 100 ≤ totalBytes.toNat :=
    Nat.le_trans (Nat.mul_le_mul_left _ hbounded) (Nat.div_mul_le_self _ _)
  have hrest : totalBytes.toNat % 100 * min percent.toNat 100 ≤ 100 * 100 :=
    Nat.mul_le_mul (Nat.le_of_lt (Nat.mod_lt _ (by decide))) hbounded
  have hwhole : (totalBytes / 100 * boundedPercent percent).toNat =
      totalBytes.toNat / 100 * min percent.toNat 100 := by
    rw [UInt64.toNat_mul, UInt64.toNat_div, hpercent, toNat_hundred]
    exact Nat.mod_eq_of_lt (Nat.lt_of_le_of_lt hhundreds htotal)
  have hremainder : (totalBytes % 100 * boundedPercent percent).toNat =
      totalBytes.toNat % 100 * min percent.toNat 100 := by
    rw [UInt64.toNat_mul, UInt64.toNat_mod, hpercent, toNat_hundred]
    exact Nat.mod_eq_of_lt (Nat.lt_of_le_of_lt hrest (by decide))
  have hvalue := mul_div_hundred totalBytes.toNat (min percent.toNat 100)
  have hle : totalBytes.toNat * min percent.toNat 100 / 100 ≤ totalBytes.toNat := by
    rw [Nat.div_le_iff_le_mul_add_pred (by decide), Nat.mul_comm 100]
    exact Nat.le_trans (Nat.mul_le_mul_left _ hbounded) (Nat.le_add_right _ _)
  have hsum : (percentOf totalBytes percent).toNat = totalBytes.toNat / 100 *
      min percent.toNat 100 + totalBytes.toNat % 100 * min percent.toNat 100 / 100 := by
    rw [percentOf_eq, UInt64.toNat_add, UInt64.toNat_div, hwhole, hremainder, toNat_hundred,
      ← hvalue]
    exact Nat.mod_eq_of_lt (Nat.lt_of_le_of_lt hle htotal)
  exact ⟨hwhole, hremainder, hsum, hsum.trans hvalue.symm⟩

theorem toNat_saturatingAdd (first second : UInt64) :
    (saturatingAdd first second).toNat = min (first.toNat + second.toNat) largest := by
  have hfirst := first.toNat_lt
  have hsecond := second.toNat_lt
  have hle : first ≤ 0xFFFFFFFFFFFFFFFF := by
    rw [UInt64.le_iff_toNat_le, toNat_largest]
    omega
  rw [saturatingAdd, largest]
  split
  · next h =>
    rw [UInt64.lt_iff_toNat_lt, UInt64.toNat_sub_of_le _ _ hle, toNat_largest] at h
    rw [toNat_largest]
    omega
  · next h =>
    rw [UInt64.lt_iff_toNat_lt, UInt64.toNat_sub_of_le _ _ hle, toNat_largest] at h
    rw [UInt64.toNat_add]
    omega

theorem toNat_multiplySaturated (first second : UInt64) :
    (multiplySaturated first second).toNat = min (first.toNat * second.toNat) largest := by
  have hlarger : (0xFFFFFFFFFFFFFFFF / first < second) ↔
      18446744073709551615 / first.toNat < second.toNat := by
    rw [UInt64.lt_iff_toNat_lt, UInt64.toNat_div, toNat_largest]
  rw [multiplySaturated, largest]
  by_cases hzero : first = 0
  · rw [if_neg fun h => h.1 hzero, hzero, UInt64.zero_mul, UInt64.toNat_zero, Nat.zero_mul]
    rfl
  · have hpos : 0 < first.toNat := Nat.pos_of_ne_zero fun h => hzero (UInt64.toNat.inj h)
    by_cases hlarge : 18446744073709551615 / first.toNat < second.toNat
    · rw [if_pos ⟨hzero, hlarger.mpr hlarge⟩, toNat_largest]
      rw [Nat.div_lt_iff_lt_mul hpos, Nat.mul_comm] at hlarge
      exact (Nat.min_eq_right (Nat.le_of_lt hlarge)).symm
    · rw [if_neg fun h => hlarge (hlarger.mp h.2), UInt64.toNat_mul]
      rw [Nat.not_lt, Nat.le_div_iff_mul_le hpos, Nat.mul_comm] at hlarge
      rw [Nat.min_eq_left hlarge]
      exact Nat.mod_eq_of_lt (Nat.lt_of_le_of_lt hlarge (by decide))

/-! ### Larger disks -/

theorem toNat_max (first second : UInt64) :
    (max first second).toNat = max first.toNat second.toNat := by
  change (if first ≤ second then second else first).toNat = _
  split
  · next h => rw [Nat.max_eq_right (UInt64.le_iff_toNat_le.mp h)]
  · next h =>
    rw [UInt64.not_le, UInt64.lt_iff_toNat_lt] at h
    rw [Nat.max_eq_left (Nat.le_of_lt h)]

theorem percentOf_mono {totalBytes totalBytes' : UInt64} (h : totalBytes ≤ totalBytes')
    (percent : UInt8) :
    (percentOf totalBytes percent).toNat ≤ (percentOf totalBytes' percent).toNat := by
  rw [(percentOf_exact totalBytes percent).value, (percentOf_exact totalBytes' percent).value]
  exact Nat.div_le_div_right (Nat.mul_le_mul_right _ (UInt64.le_iff_toNat_le.mp h))

section Disks

variable (options : CleanerOptions) {space space' : DiskSpace}

theorem lowThreshold_mono (h : space.totalBytes ≤ space'.totalBytes) :
    options.lowThreshold space ≤ options.lowThreshold space' := by
  rw [UInt64.le_iff_toNat_le, CleanerOptions.lowThreshold, CleanerOptions.lowThreshold, toNat_max,
    toNat_max]
  have hpercent := percentOf_mono h options.lowWatermarkPercent
  omega

theorem recoveryThreshold_mono (h : space.totalBytes ≤ space'.totalBytes) :
    options.recoveryThreshold space ≤ options.recoveryThreshold space' := by
  have hlow := UInt64.le_iff_toNat_le.mp (lowThreshold_mono options h)
  have hpercent := percentOf_mono h options.recoveryPercent
  rw [UInt64.le_iff_toNat_le, CleanerOptions.recoveryThreshold, CleanerOptions.recoveryThreshold,
    toNat_max, toNat_max, toNat_saturatingAdd, toNat_saturatingAdd]
  omega

end Disks

/-- The arithmetic of the thresholds is exact, and the thresholds are in order and grow with the
disk. -/
theorem watermark_arithmetic :
    (∀ totalBytes percent, ExactPercent totalBytes percent) ∧
    (∀ first second : UInt64,
      (saturatingAdd first second).toNat = min (first.toNat + second.toNat) largest) ∧
    (∀ first second : UInt64,
      (multiplySaturated first second).toNat = min (first.toNat * second.toNat) largest) ∧
    ∀ (options : CleanerOptions) (space : DiskSpace),
      options.lowThreshold space ≤ options.recoveryThreshold space ∧
        ∀ space' : DiskSpace, space.totalBytes ≤ space'.totalBytes →
          options.lowThreshold space ≤ options.lowThreshold space' ∧
            options.recoveryThreshold space ≤ options.recoveryThreshold space' :=
  ⟨percentOf_exact, toNat_saturatingAdd, toNat_multiplySaturated, fun options space =>
    ⟨lowThreshold_le_recoveryThreshold options space, fun _ h =>
      ⟨lowThreshold_mono options h, recoveryThreshold_mono options h⟩⟩⟩

end Uhf.Storage

import Mathlib.Tactic.Linarith
import Reckoner.Json.Number
import Reckoner.Proofs.Precision

/-!
# The float that is read from digits and a power of ten

A JSON number is read as the float nearest to its digits, multiplied with or divided by the float
nearest to a power of ten (`approach`).  Where both are exact, the result is the float nearest to
the number (`approachBits_of_exact`).  In general it takes up to five roundings
(`near_approachBits`).

A number whose nearest float is finite may still be refused, when the two floats are rounded up
and their product is rounded up as well.  Among the decimals with at most `10^17` as digits there
is one such, `17976931348623158 * 10^292` (`approachBits_lt`).
-/

namespace Reckoner.Number

open Json (greatestPower)

/-! ## The float nearest to a whole number -/

/-- The units of the float nearest to a whole number. -/
def wholeUnits (n : Nat) : Nat := unitsOfBits (bitsOfUnits (n * one) 1)

theorem wholeUnits_mono {m n : Nat} (h : m ≤ n) : wholeUnits m ≤ wholeUnits n :=
  unitsOfBits_mono (bitsOfUnits_mono (Nat.mul_le_mul_right _ h) 1)

theorem one_le_wholeUnits {n : Nat} (h : 0 < n) : one ≤ wholeUnits n := by
  refine Nat.le_trans ?_ (wholeUnits_mono h)
  decide +kernel

/-- Up to `10^308` whole numbers are not beyond the floats. -/
theorem bits_whole_lt {n : Nat} (h : n ≤ tenTo greatestPower) :
    bitsOfUnits (n * one) 1 < infinityBits := by
  refine Nat.lt_of_le_of_lt (bitsOfUnits_mono (Nat.mul_le_mul_right _ h) 1) ?_
  decide +kernel

/-- A number with at most 53 binary digits before its zeros is exact. -/
theorem unitsOfBits_bits_shiftLeft {m s : Nat} (hm : m ≤ 2 * octave) (hs : s ≠ 0 → octave ≤ m)
    (hlarge : s ≤ 2000) : unitsOfBits (bitsOfUnits (m <<< s) 1) = m <<< s := by
  have hle : s * octave + m ≤ infinityBits := by
    simp only [infinityBits, octave] at *
    omega
  rw [← unitsOfBits_count hm hs, bitsOfUnits_unitsOfBits hle]

theorem mul_one_shiftLeft (n k : Nat) : n * 1 <<< k = n <<< k := by
  rw [Nat.shiftLeft_eq, Nat.shiftLeft_eq, Nat.one_mul]

/-- A number with at most 53 binary digits has 53 with zeros behind them. -/
theorem exists_full_shiftLeft {m : Nat} (hpos : 0 < m) (h : m ≤ 2 * octave) :
    ∃ j ≤ 52, octave ≤ m <<< j ∧ m <<< j ≤ 2 * octave := by
  have hne := Nat.ne_of_gt hpos
  have hlow := Nat.mul_le_mul_right (2 ^ (52 - m.log2)) (Nat.log2_self_le hne)
  rw [← Nat.pow_add, ← Nat.shiftLeft_eq] at hlow
  refine ⟨52 - m.log2, by omega, Nat.le_trans ?_ hlow, ?_⟩
  · exact Nat.pow_le_pow_right (by decide : 0 < 2) (show 52 ≤ m.log2 + (52 - m.log2) by omega)
  · rcases Nat.lt_or_ge m.log2 53 with hlt | hge
    · have hlog : m ≤ 2 ^ (m.log2 + 1) := Nat.le_of_lt Nat.lt_log2_self
      have hhigh := Nat.mul_le_mul_right (2 ^ (52 - m.log2)) hlog
      rwa [← Nat.pow_add, ← Nat.shiftLeft_eq,
        show m.log2 + 1 + (52 - m.log2) = 53 by omega] at hhigh
    · rw [show 52 - m.log2 = 0 by omega, Nat.shiftLeft_zero]
      exact h

/-- A whole number with at most 53 binary digits before its zeros is a float. -/
theorem wholeUnits_shiftLeft {m k : Nat} (h : m ≤ 2 * octave) (hle : m <<< k ≤ tenTo 17) :
    wholeUnits (m <<< k) = m <<< k * one := by
  rcases Nat.eq_zero_or_pos m with rfl | hpos
  · rw [Nat.zero_shiftLeft]
    decide +kernel
  · have hk : k < 57 := by
      refine Nat.lt_of_not_le fun hge => ?_
      have hpow : 2 ^ 57 ≤ m <<< k := by
        rw [Nat.shiftLeft_eq]
        exact Nat.le_trans (Nat.pow_le_pow_right (by decide) hge) (Nat.le_mul_of_pos_left _ hpos)
      exact absurd (Nat.le_trans hpow hle) (by decide)
    obtain ⟨j, hj, hleast, hgreatest⟩ := exists_full_shiftLeft hpos h
    have hsplit : m <<< k * one = m <<< j <<< (k + 1074 - j) := by
      rw [← Nat.shiftLeft_add, show j + (k + 1074 - j) = k + 1074 by omega, Nat.shiftLeft_add]
      exact mul_one_shiftLeft (m <<< k) 1074
    rw [wholeUnits, hsplit, unitsOfBits_bits_shiftLeft hgreatest (fun _ => hleast) (by omega)]

/-- Powers of ten up to `10^22` are floats. -/
theorem wholeUnits_tenTo : ∀ n < 23, wholeUnits (tenTo n) = tenTo n * one := by
  decide +kernel

/-! ## The approach -/

/-- The bits of the float that digits and a power of ten lead to. -/
def approachBits (d : Decimal) : Nat :=
  if 0 ≤ d.exponent then
    bitsOfUnits (wholeUnits d.digits * wholeUnits (tenTo d.exponent.toNat)) one
  else if -308 ≤ d.exponent then
    bitsOfUnits (wholeUnits d.digits * one) (wholeUnits (tenTo (-d.exponent).toNat))
  else
    bitsOfUnits
      (unitsOfBits (bitsOfUnits (wholeUnits d.digits * one) (wholeUnits (tenTo greatestPower))) *
        one)
      (wholeUnits (tenTo (-d.exponent - 308).toNat))

/-- If the digits are a float and the power of ten is up to `10^22` nothing is rounded before the
end. -/
theorem approachBits_of_exact {d : Decimal} (hdigits : wholeUnits d.digits = d.digits * one)
    (hexponent : d.exponent.natAbs ≤ 22) : approachBits d = d.bits := by
  have hone : 0 < one := by decide +kernel
  rw [approachBits, d.bits_eq, Decimal.above, Decimal.below, hdigits]
  split
  · rw [wholeUnits_tenTo _ (by omega), show (-d.exponent).toNat = 0 by omega]
    refine bitsOfUnits_congr hone (tenTo_pos 0) ?_
    rw [show tenTo 0 = 1 from rfl, Nat.mul_one, Nat.mul_right_comm, Nat.mul_assoc _ _ one,
      Nat.mul_comm (tenTo _ * one), ← Nat.mul_assoc]
    ring
  · rw [if_pos (by omega), wholeUnits_tenTo _ (by omega), show d.exponent.toNat = 0 by omega]
    refine bitsOfUnits_congr (Nat.mul_pos (tenTo_pos _) hone) (tenTo_pos _) ?_
    rw [show tenTo 0 = 1 from rfl]
    ring

/-! ## How near it comes -/

theorem one_units_pos : 0 < one := by decide +kernel

theorem octave_le_one : octave ≤ one := by decide +kernel

/-- The float nearest to a positive whole number is near it. -/
theorem near_wholeUnits {n : Nat} (hpos : 0 < n) (h : bitsOfUnits (n * one) 1 < infinityBits) :
    Near 1 0 (wholeUnits n : ℕ) (n * one) := by
  have hle : octave * 1 ≤ n * one := by
    rw [Nat.mul_one]
    exact Nat.le_trans octave_le_one (Nat.le_mul_of_pos_left one hpos)
  have hnear := near_bits_of_le Nat.one_pos h hle
  rwa [Nat.cast_one, div_one, Nat.cast_mul] at hnear

/-- A greater divisor leads to a smaller float. -/
theorem bitsOfUnits_anti (num : Nat) {den den' : Nat} (hden : 0 < den) (h : den ≤ den') :
    bitsOfUnits num den' ≤ bitsOfUnits num den := by
  have hden' := Nat.lt_of_lt_of_le hden h
  rw [← bitsOfUnits_mul_right num den den' hden', ← bitsOfUnits_mul_right num den' den hden,
    Nat.mul_comm den' den]
  exact bitsOfUnits_mono (Nat.mul_le_mul_left _ h) _

/-- A quotient by a power of ten is not beyond the floats. -/
theorem bits_quotient_lt {b n : Nat} (hb : b < infinityBits) (hn : 0 < n) :
    bitsOfUnits (unitsOfBits b * one) (wholeUnits n) < infinityBits := by
  refine Nat.lt_of_le_of_lt (bitsOfUnits_anti _ one_units_pos (one_le_wholeUnits hn)) ?_
  have hsame := bitsOfUnits_mul_right (unitsOfBits b) 1 one one_units_pos
  rw [Nat.one_mul] at hsame
  rw [hsame, bitsOfUnits_unitsOfBits (Nat.le_of_lt hb)]
  exact hb

/-- The product of two nearest floats takes three roundings. -/
theorem near_product {m n : Nat} (hm : 0 < m) (hmlt : bitsOfUnits (m * one) 1 < infinityBits)
    (hn : 0 < n) (hnlt : bitsOfUnits (n * one) 1 < infinityBits)
    (h : bitsOfUnits (wholeUnits m * wholeUnits n) one < infinityBits) :
    Near 3 0 (unitsOfBits (bitsOfUnits (wholeUnits m * wholeUnits n) one) : ℕ) (m * n * one) := by
  have hone : (0 : ℚ) < one := by exact_mod_cast one_units_pos
  have hle : octave * one ≤ wholeUnits m * wholeUnits n :=
    Nat.mul_le_mul (Nat.le_trans octave_le_one (one_le_wholeUnits hm)) (one_le_wholeUnits hn)
  have hrounded := near_bits_of_le one_units_pos h hle
  rw [Nat.cast_mul] at hrounded
  have hmvalue : (0 : ℚ) ≤ m * one := mul_nonneg (Nat.cast_nonneg m) hone.le
  have hnvalue : (0 : ℚ) ≤ n * one := mul_nonneg (Nat.cast_nonneg n) hone.le
  have hexact := (near_wholeUnits hm hmlt).mul (near_wholeUnits hn hnlt) (Nat.cast_nonneg _)
    hmvalue (Nat.cast_nonneg _) hnvalue
  have hquotient := hexact.div (Near.refl (one : ℚ)) le_rfl
    (mul_nonneg (Nat.cast_nonneg _) (Nat.cast_nonneg _)) (mul_nonneg hmvalue hnvalue) hone le_rfl
    le_rfl
  have hvalue : (m * one * (n * one) / one : ℚ) = m * n * one := by
    rw [← mul_assoc, mul_div_cancel_right₀ _ hone.ne', mul_right_comm]
  rw [hvalue, zero_div] at hquotient
  have hresult := hrounded.trans hquotient le_rfl le_rfl
  rwa [zero_add] at hresult

/-- A quotient by a power of ten takes two roundings more. -/
theorem near_quotient {b n k : Nat} {error v : ℚ} (hb : b < infinityBits) (hn : n ≤ greatestPower)
    (h : Near k error (unitsOfBits b : ℕ) v) (he : 0 ≤ error) (hv : 0 ≤ v) :
    Near (k + 2) (error / (keep * tenTo n) + 1 / 2)
      (unitsOfBits (bitsOfUnits (unitsOfBits b * one) (wholeUnits (tenTo n))) : ℕ)
      (v / tenTo n) := by
  have hone : (0 : ℚ) < one := by exact_mod_cast one_units_pos
  have hten : (0 : ℚ) < tenTo n := by exact_mod_cast tenTo_pos n
  have hpower := (near_wholeUnits (tenTo_pos n) (bits_whole_lt (tenTo_mono hn))).div
    (Near.refl (one : ℚ)) le_rfl (Nat.cast_nonneg _) (mul_nonneg hten.le hone.le) hone le_rfl le_rfl
  rw [mul_div_assoc, div_self hone.ne', mul_one, zero_div] at hpower
  have hlow : keep * tenTo n ≤ wholeUnits (tenTo n) / one := by
    have hlow := hpower.low
    rwa [pow_one, add_zero] at hlow
  have hquotient := h.div hpower he (Nat.cast_nonneg _) hv (mul_pos keep_pos hten) hlow
    (mul_le_of_le_one_left hten.le keep_le_one)
  have hrounded := near_bits (Nat.lt_of_lt_of_le one_units_pos (one_le_wholeUnits (tenTo_pos n)))
    (bits_quotient_lt hb (tenTo_pos n))
  have hvalue : ((unitsOfBits b * one : ℕ) / wholeUnits (tenTo n) : ℚ) =
      unitsOfBits b / (wholeUnits (tenTo n) / one) := by
    rw [Nat.cast_mul, div_div_eq_mul_div]
  rw [hvalue] at hrounded
  have herror : 0 ≤ error / (keep * tenTo n) := div_nonneg he (mul_pos keep_pos hten).le
  exact (hrounded.trans hquotient (by norm_num) herror).weaken (by omega) (by linarith)
    (Nat.cast_nonneg _) (div_nonneg hv hten.le)

/-- The exact value of a decimal in units. -/
def Decimal.value (d : Decimal) : ℚ := d.above / d.below

theorem Decimal.value_nonneg (d : Decimal) : 0 ≤ d.value :=
  div_nonneg (Nat.cast_nonneg _) (Nat.cast_nonneg _)

theorem Decimal.near_value {d : Decimal} (h : d.bits < infinityBits) :
    Near 1 (1 / 2) (unitsOfBits d.bits : ℕ) d.value := by
  rw [d.bits_eq] at *
  exact near_bits d.below_pos h

namespace Decimal

variable {d : Decimal}

theorem value_of_nonneg (h : 0 ≤ d.exponent) :
    d.value = d.digits * tenTo d.exponent.toNat * one := by
  rw [value, above, below, show (-d.exponent).toNat = 0 by omega, show tenTo 0 = 1 from rfl]
  push_cast
  rw [div_one]

theorem value_of_neg (h : ¬ 0 ≤ d.exponent) :
    d.value = d.digits * one / tenTo (-d.exponent).toNat := by
  rw [value, above, below, show d.exponent.toNat = 0 by omega, show tenTo 0 = 1 from rfl,
    Nat.mul_one]
  push_cast
  rfl

end Decimal

/-- The half unit of a first quotient is divided by ten or more. -/
theorem half_div_le {n : Nat} (hn : 1 ≤ n) : 1 / 2 / (keep * tenTo n) ≤ 1 / 10 := by
  have hten : (10 : ℚ) ≤ tenTo n := by exact_mod_cast tenTo_mono hn
  have hdivisor : keep * 10 ≤ keep * tenTo n := mul_le_mul_of_nonneg_left hten keep_pos.le
  calc 1 / 2 / (keep * tenTo n) ≤ 1 / 2 / (keep * 10) :=
        div_le_div_of_nonneg_left (by norm_num) (by norm_num [keep]) hdivisor
    _ ≤ 1 / 10 := by norm_num [keep]

/-- The approach takes at most five roundings. -/
theorem near_approachBits {d : Decimal} (hpos : 0 < d.digits)
    (hdigits : d.digits ≤ tenTo greatestPower) (hle : d.exponent ≤ 308)
    (hge : -616 ≤ d.exponent) (h : approachBits d < infinityBits) :
    Near 5 (3 / 5) (unitsOfBits (approachBits d) : ℕ) d.value := by
  have hgreatest : greatestPower = 308 := rfl
  have hlt := bits_whole_lt hdigits
  have hvalue := d.value_nonneg
  have hnonneg (b : ℕ) : (0 : ℚ) ≤ unitsOfBits b := Nat.cast_nonneg _
  have hproduct : (0 : ℚ) ≤ d.digits * one := mul_nonneg (Nat.cast_nonneg _) (Nat.cast_nonneg _)
  have hwhole := near_wholeUnits hpos hlt
  by_cases hsign : 0 ≤ d.exponent
  · rw [approachBits, if_pos hsign] at *
    have hpower : d.exponent.toNat ≤ greatestPower := by omega
    have hrounded := near_product hpos hlt (tenTo_pos d.exponent.toNat)
      (bits_whole_lt (tenTo_mono hpower)) h
    rw [← Decimal.value_of_nonneg hsign] at hrounded
    exact hrounded.weaken (by norm_num) (by norm_num) (hnonneg _) hvalue
  · have heq := Decimal.value_of_neg hsign
    by_cases hone : -308 ≤ d.exponent
    · rw [approachBits, if_neg hsign, if_pos hone] at *
      have hpower : (-d.exponent).toNat ≤ greatestPower := by omega
      have hquotient := near_quotient hlt hpower hwhole le_rfl hproduct
      rw [← heq] at hquotient
      exact hquotient.weaken (by norm_num) (by norm_num) (hnonneg _) hvalue
    · rw [approachBits, if_neg hsign, if_neg hone] at *
      have hrest : (-d.exponent - 308).toNat ≤ greatestPower := by omega
      have hfirst := near_quotient hlt (Nat.le_refl greatestPower) hwhole le_rfl hproduct
      have hsecond := near_quotient (bits_quotient_lt hlt (tenTo_pos greatestPower)) hrest hfirst
        (by norm_num) (div_nonneg hproduct (Nat.cast_nonneg _))
      have hpower : (tenTo greatestPower * tenTo (-d.exponent - 308).toNat : ℚ) =
          tenTo (-d.exponent).toNat := by
        rw [← Nat.cast_mul, ← tenTo_add,
          show greatestPower + (-d.exponent - 308).toNat = (-d.exponent).toNat by omega]
      rw [div_div, hpower, ← heq] at hsecond
      refine hsecond.weaken (by norm_num) ?_ (hnonneg _) hvalue
      have hhalf := half_div_le (show 1 ≤ (-d.exponent - 308).toNat by omega)
      rw [zero_div, zero_add]
      linarith

/-! ## Nothing is lost at either end -/

/-- Whole numbers that round to a finite float are below this, `2^1024 - 2^970`. -/
def limit : Nat := 18014398509481983 <<< 970

theorem lt_limit {n : Nat} (h : bitsOfUnits (n * one) 1 < infinityBits) : n < limit := by
  refine Nat.lt_of_not_le fun hle => ?_
  have hmono := bitsOfUnits_mono (Nat.mul_le_mul_right one hle) 1
  have hlimit : bitsOfUnits (limit * one) 1 = infinityBits := by decide +kernel
  rw [hlimit] at hmono
  exact Nat.not_lt.2 hmono h

/-- A decimal that a finite float may be written with. -/
structure Decimal.Written (d : Decimal) : Prop where
  /-- It reads back as a finite float. -/
  finite : d.bits < infinityBits
  /-- It has no more digits than needed. -/
  digits_le : d.digits ≤ tenTo 17
  /-- Zero has one place. -/
  zero : d.bits = 0 → d = ⟨0, -1⟩
  /-- Of the two that read back as the greatest float this is the farther one. -/
  ne : d ≠ ⟨17976931348623158, 292⟩

/-- The most digits that a power of ten is written with. -/
def mostDigits (n : Nat) : Nat :=
  min (tenTo 17) ((limit - 1) / tenTo n - if n = 292 then 1 else 0)

/-- Even with the most digits the product is not beyond the floats. -/
theorem bits_mostDigits_lt {n : Nat} (h : n ≤ 308) :
    bitsOfUnits (wholeUnits (mostDigits n) * wholeUnits (tenTo n)) one < infinityBits := by
  rcases Nat.lt_or_ge n 291 with hsmall | hlarge
  · -- All digits fit in, so the greatest of these powers stands for the others.
    have hproduct : wholeUnits (mostDigits n) * wholeUnits (tenTo n) ≤
        wholeUnits (tenTo 17) * wholeUnits (tenTo 290) :=
      Nat.mul_le_mul (wholeUnits_mono (Nat.min_le_left _ _))
        (wholeUnits_mono (tenTo_mono (Nat.le_of_lt_succ hsmall)))
    refine Nat.lt_of_le_of_lt (bitsOfUnits_mono hproduct one) ?_
    decide +kernel
  · have hcheck : ∀ k < 18, bitsOfUnits
        (wholeUnits (mostDigits (291 + k)) * wholeUnits (tenTo (291 + k))) one < infinityBits := by
      decide +kernel
    have hk := hcheck (n - 291) (by omega)
    rwa [Nat.add_sub_cancel' hlarge] at hk

namespace Decimal

variable {d : Decimal}

theorem digits_ne_zero (h : d.bits ≠ 0) : d.digits ≠ 0 :=
  fun hzero => h (by rw [bits, if_pos hzero])

/-- The exponent is not greater than the one of the greatest float. -/
theorem Written.exponent_le (h : d.Written) : d.exponent ≤ 308 := by
  refine Int.not_lt.1 fun hlt => ?_
  have hzero : d.digits ≠ 0 := fun hzero => by
    rw [h.zero (by rw [bits, if_pos hzero])] at hlt
    exact absurd hlt (by decide)
  have hfinite := h.finite
  rw [bits_eq, above, below, show (-d.exponent).toNat = 0 by omega] at hfinite
  have hbig : tenTo 309 ≤ d.digits * tenTo d.exponent.toNat :=
    Nat.le_trans (tenTo_mono (by omega)) (Nat.le_mul_of_pos_left _ (Nat.pos_of_ne_zero hzero))
  have hlimit : limit ≤ tenTo 309 := by decide +kernel
  have := lt_limit hfinite
  omega

/-- Nor is it less than the one of the least float with all digits. -/
theorem Written.le_exponent (h : d.Written) : -348 ≤ d.exponent := by
  by_cases hbits : d.bits = 0
  · rw [h.zero hbits]
    decide
  · have hcount : digitCount d.digits ≤ 18 :=
      (digitCount_le_iff (by decide)).2 (Nat.lt_of_le_of_lt h.digits_le (by decide))
    have htop : -330 ≤ d.top := by
      refine Int.not_lt.1 fun hlt => hbits ?_
      rw [bits_eq, bitsOfUnits_of_small hlt]
    rw [top] at htop
    omega

/-- The digits are not more than the most for the power of ten. -/
theorem Written.digits_le_most (h : d.Written) (hsign : 0 ≤ d.exponent) :
    d.digits ≤ mostDigits d.exponent.toNat := by
  have hfinite := h.finite
  rw [bits_eq, above, below, show (-d.exponent).toNat = 0 by omega] at hfinite
  have hle : d.digits ≤ (limit - 1) / tenTo d.exponent.toNat := by
    rw [Nat.le_div_iff_mul_le (tenTo_pos _)]
    exact Nat.le_sub_one_of_lt (lt_limit hfinite)
  refine Nat.le_min.2 ⟨h.digits_le, ?_⟩
  split
  · next heq =>
    have hexponent : d.exponent = 292 := by omega
    have hne : d.digits ≠ 17976931348623158 := fun hdigits => h.ne (by rw [← hdigits, ← hexponent])
    have hmost : (limit - 1) / tenTo 292 = 17976931348623158 := by decide +kernel
    rw [heq, hmost] at hle
    rw [heq, hmost]
    omega
  · exact hle

/-- The digits alone are not beyond the floats. -/
theorem Written.bits_whole_lt (h : d.Written) : bitsOfUnits (d.digits * one) 1 < infinityBits :=
  Number.bits_whole_lt (Nat.le_trans h.digits_le (tenTo_mono (by decide)))

/-- The approach is not beyond the floats. -/
theorem Written.approachBits_lt (h : d.Written) : approachBits d < infinityBits := by
  have hwhole := h.bits_whole_lt
  unfold approachBits
  split
  · next hsign =>
    have hmost := Nat.mul_le_mul_right (wholeUnits (tenTo d.exponent.toNat))
      (wholeUnits_mono (h.digits_le_most hsign))
    have hle := h.exponent_le
    exact Nat.lt_of_le_of_lt (bitsOfUnits_mono hmost one) (bits_mostDigits_lt (by omega))
  · split
    · exact bits_quotient_lt hwhole (tenTo_pos _)
    · exact bits_quotient_lt (bits_quotient_lt hwhole (tenTo_pos _)) (tenTo_pos _)

-- The decimal that is left out reads back as the greatest float, but its product is infinite.
example : (⟨17976931348623158, 292⟩ : Decimal).bits = infinityBits - 1 ∧
    approachBits ⟨17976931348623158, 292⟩ = infinityBits := by
  decide +kernel

/-- The approach differs from the float by at most one in `2^50` and one unit. -/
theorem Written.near_approach (h : d.Written) :
    ((unitsOfBits (approachBits d) : ℤ) - unitsOfBits d.bits).natAbs <<< 50 ≤
      unitsOfBits d.bits + 1 <<< 50 := by
  by_cases hbits : d.bits = 0
  · rw [h.zero hbits, approachBits_of_exact (by decide +kernel) (by decide), Int.sub_self,
      Int.natAbs_zero, Nat.zero_shiftLeft]
    exact Nat.zero_le _
  · have hdigits : d.digits ≠ 0 := fun hzero => hbits (by rw [bits, if_pos hzero])
    have hlow := h.le_exponent
    have happroach := near_approachBits (Nat.pos_of_ne_zero (digits_ne_zero hbits))
      (Nat.le_trans h.digits_le (tenTo_mono (by decide))) h.exponent_le (by omega)
      h.approachBits_lt
    refine near_units ?_
    exact (happroach.trans (near_value h.finite).symm (by norm_num) (by norm_num)).weaken
      (by norm_num) (by norm_num) (Nat.cast_nonneg _) (Nat.cast_nonneg _)

end Decimal

/-! ## Reading -/

/-- A positive float is not zero. -/
theorem beq_zero_ofMagnitude {b : Nat} (hlt : b < infinityBits) (hne : b ≠ 0) :
    (ofMagnitude false b == 0) = false := by
  have hzero : (0 : Float) = ofMagnitude false 0 := eq_of_toBits (by decide +kernel)
  show Float.Model.UnpackedFloat.beq (ofMagnitude false b).toModel.unpack
    (0 : Float).toModel.unpack = false
  rw [hzero, unpack_ofMagnitude false (Nat.le_of_lt hlt), unpack_ofMagnitude false (Nat.zero_le _),
    unpacked_finite false hlt hne, unpacked_zero]
  rfl

end Reckoner.Number

namespace Reckoner.Json

open Number

/-! ## Reading -/

theorem ofRatio_one (n : Nat) : ofRatio false n 1 = ofMagnitude false (bitsOfUnits (n * one) 1) :=
  rfl

/-- The float nearest to a positive whole number is not zero. -/
theorem bits_whole_ne_zero {n : Nat} (h : 0 < n) : bitsOfUnits (n * one) 1 ≠ 0 := fun hzero => by
  have hpos := Nat.lt_of_lt_of_le one_units_pos (one_le_wholeUnits h)
  rw [wholeUnits, hzero, unitsOfBits_zero] at hpos
  exact absurd hpos (Nat.lt_irrefl 0)

/-- A float multiplied with a power of ten. -/
theorem mul_powerOfTen {b n : Nat} (hb : b < infinityBits) (hn : n ≤ greatestPower) :
    ofMagnitude false b * powerOfTen n =
      ofMagnitude false (bitsOfUnits (unitsOfBits b * wholeUnits (tenTo n)) one) := by
  rw [powerOfTen, ofRatio_one, mul_ofMagnitude false false hb (bits_whole_lt (tenTo_mono hn))]
  rfl

/-- A float divided by a power of ten. -/
theorem div_powerOfTen {b n : Nat} (hb : b < infinityBits) (hn : n ≤ greatestPower) :
    ofMagnitude false b / powerOfTen n =
      ofMagnitude false (bitsOfUnits (unitsOfBits b * one) (wholeUnits (tenTo n))) := by
  rw [powerOfTen, ofRatio_one, div_ofMagnitude false false hb (bits_whole_lt (tenTo_mono hn))
    (bits_whole_ne_zero (tenTo_pos n))]
  rfl

/-- The float that the digits of a decimal and a power of ten lead to. -/
def approach (d : Decimal) : Float :=
  if 0 ≤ d.exponent then ofRatio false d.digits 1 * powerOfTen d.exponent.toNat
  else if -308 ≤ d.exponent then ofRatio false d.digits 1 / powerOfTen (-d.exponent).toNat
  else ofRatio false d.digits 1 / powerOfTen 308 / powerOfTen (-d.exponent - 308).toNat

theorem approach_eq {d : Decimal} (h : d.Written) :
    approach d = ofMagnitude false (approachBits d) := by
  have hwhole := h.bits_whole_lt
  have hle := h.exponent_le
  have hgreatest : greatestPower = 308 := rfl
  rw [approach, approachBits, ofRatio_one]
  split
  · rw [mul_powerOfTen hwhole (by omega)]
    rfl
  · next hsign =>
    split
    · rw [div_powerOfTen hwhole (by omega)]
      rfl
    · next hone =>
      have hlow := h.le_exponent
      rw [div_powerOfTen hwhole (by omega),
        div_powerOfTen (bits_quotient_lt hwhole (tenTo_pos _)) (by omega)]
      rfl

/-- What a decimal of a finite float is read as is never beyond the floats. -/
theorem scale_written {d : Decimal} (h : d.Written) :
    scale (ofRatio false d.digits 1) d.exponent = some (approach d) := by
  have hwhole := h.bits_whole_lt
  have hle := h.exponent_le
  have hgreatest : greatestPower = 308 := rfl
  have hfinite : isInfinite (approach d) = false := by
    have hlt := h.approachBits_lt
    rw [approach_eq h, isInfinite_ofMagnitude false (Nat.le_of_lt hlt), decide_eq_false_iff_not]
    exact Nat.ne_of_lt hlt
  rw [scale]
  by_cases hsign : 0 ≤ d.exponent
  · rw [approach, if_pos hsign] at *
    rw [if_pos (by omega), if_pos hsign, show d.exponent.natAbs = d.exponent.toNat by omega]
    simp only [hfinite, Bool.false_eq_true, if_false]
  · by_cases hone : -308 ≤ d.exponent
    · rw [if_pos (by omega), if_neg hsign, approach, if_neg hsign, if_pos hone,
        show d.exponent.natAbs = (-d.exponent).toNat by omega]
    · -- The number is less than `10^-308`, so the second division is the last.
      have hbits : d.bits ≠ 0 := fun hzero => by
        rw [h.zero hzero] at hone
        exact hone (by decide)
      have hlow := h.le_exponent
      have hpositive := beq_zero_ofMagnitude hwhole
        (bits_whole_ne_zero (Nat.pos_of_ne_zero (Decimal.digits_ne_zero hbits)))
      rw [if_neg (by omega), ofRatio_one, hpositive, if_neg Bool.false_ne_true, if_neg hsign, scale,
        if_pos (by omega), if_neg (by omega), approach, if_neg hsign, if_neg hone, ofRatio_one,
        show (d.exponent + greatestPower).natAbs = (-d.exponent - 308).toNat by omega, hgreatest]

end Reckoner.Json

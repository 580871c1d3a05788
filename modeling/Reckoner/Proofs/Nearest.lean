import Mathlib.Data.Nat.Log
import Reckoner.Proofs.Bits

/-!
# Products and quotients of floats

The operations on floats round in steps: digits are dropped from a mantissa one at a time, two
further bits remember what was dropped, and a mantissa that rounding made too long is shifted
once more.  The result is the float nearest to the exact one (`mul_ofMagnitude`,
`div_ofMagnitude`), as `bitsOfUnits` finds it in one step.

* `Stands` is what the two bits remember; dropping a digit preserves it.
* `pack_roundWithAccuracy` compares the steps with the one step.
-/

namespace Reckoner.Number

open Float.Model (UnpackedFloat)
open Float.Model.Format (binary64)
open Float.Model.UnpackedFloat (Sign Accuracy ExtendedMantissa)

/-! ## The distance of floats -/

/-- The binary digits by which the float with the bits `b` is coarser than a unit. -/
def coarseness (b : Nat) : Nat := b / octave - 1

theorem unitsOfBits_eq (b : Nat) : unitsOfBits b = mantissaOf b <<< coarseness b := by
  unfold unitsOfBits mantissaOf coarseness
  split
  · next h => simp [Nat.div_eq_of_lt h]
  · rfl

theorem coarseness_eq (b : Nat) : coarseness b * octave + mantissaOf b = b := by
  rw [coarseness, ← exponentOf_add, bits_eq]

/-- How many digits the rounding of a number of units drops: as many as it has above 53. -/
theorem log2_sub_eq_iff {n s : Nat} :
    n.log2 - 52 = s ↔ n < (2 * octave) <<< s ∧ (s = 0 ∨ octave <<< s ≤ n) := by
  have hhigh : (2 * octave) <<< s = 2 ^ (53 + s) := by
    rw [Nat.shiftLeft_eq, Nat.pow_add]
    rfl
  have hlow : octave <<< s = 2 ^ (52 + s) := by
    rw [Nat.shiftLeft_eq, Nat.pow_add]
    rfl
  rw [hhigh, hlow]
  by_cases hn : n = 0
  · subst hn
    have hpos : ¬ 2 ^ (52 + s) ≤ 0 := Nat.not_le.2 (Nat.two_pow_pos _)
    have hzero : Nat.log2 0 = 0 := by simp
    simp only [hzero, hpos, or_false]
    constructor
    · rintro rfl
      exact ⟨by decide, rfl⟩
    · rintro ⟨-, rfl⟩
      rfl
  · rw [← Nat.log2_lt hn, ← Nat.le_log2 hn]
    omega

theorem roundEven_of_dvd (num den : Nat) (hden : 0 < den) : roundEven (num * den) den = num := by
  have h := roundEven_mul_right num 1 den hden
  rw [Nat.one_mul] at h
  rw [h]
  simp [roundEven, Nat.mod_one]

/-- A float is nearest to itself. -/
theorem bitsOfUnits_unitsOfBits {b : Nat} (h : b ≤ infinityBits) :
    bitsOfUnits (unitsOfBits b) 1 = b := by
  have hshift : (unitsOfBits b / 1).log2 - 52 = coarseness b := by
    rw [Nat.div_one, log2_sub_eq_iff, unitsOfBits_eq]
    have hfits := fits_bits b
    simp only [Nat.shiftLeft_eq]
    refine ⟨(Nat.mul_lt_mul_right (Nat.two_pow_pos _)).2 hfits.lt, ?_⟩
    by_cases hsmall : b < octave
    · left
      simp [coarseness, Nat.div_eq_of_lt hsmall]
    · right
      refine Nat.mul_le_mul_right _ ?_
      rw [mantissaOf, if_neg hsmall]
      omega
  have hround : roundEven (unitsOfBits b) (1 <<< coarseness b) = mantissaOf b := by
    rw [unitsOfBits_eq, Nat.shiftLeft_eq, Nat.one_shiftLeft]
    exact roundEven_of_dvd _ _ (Nat.two_pow_pos _)
  rw [bitsOfUnits]
  simp only [hshift, hround, coarseness_eq, Nat.min_eq_right h]

/-- The nearest float depends on the ratio alone. -/
theorem bitsOfUnits_congr {num den num' den' : Nat} (hden : 0 < den) (hden' : 0 < den')
    (h : num * den' = num' * den) : bitsOfUnits num den = bitsOfUnits num' den' := by
  rw [← bitsOfUnits_mul_right num den den' hden', h, Nat.mul_comm den den',
    bitsOfUnits_mul_right num' den' den hden]

/-! ## Rounding in steps -/

/-- A mantissa with its two residual bits stands for the ratio `num / den`. -/
structure Stands (m : ExtendedMantissa) (num den : Nat) : Prop where
  /-- The mantissa is the whole part. -/
  mantissa : m.mantissa = num / den
  /-- The first bit says whether the rest is a half or more. -/
  roundBit : m.roundBit = true ↔ den ≤ 2 * (num % den)
  /-- The second bit says whether anything is left beside a half. -/
  stickyBit : m.stickyBit = true ↔ 2 * (num % den) % den ≠ 0

theorem stands_exact (n : Nat) : Stands (.ofMantissaAndAccuracy n .exact) n 1 := by
  refine ⟨(Nat.div_one n).symm, ?_, ?_⟩ <;>
    simp [ExtendedMantissa.ofMantissaAndAccuracy, Nat.mod_one]

/-- What is left of a division says how accurate the quotient is. -/
theorem stands_fraction (num : Nat) {den : Nat} (hden : 0 < den) :
    Stands (.ofMantissaAndAccuracy (num / den)
      (UnpackedFloat.accuracyOfFraction (num % den) den)) num den := by
  have hlt : num % den < den := Nat.mod_lt num hden
  generalize hr : num % den = r at *
  unfold UnpackedFloat.accuracyOfFraction
  by_cases hzero : r = 0
  · subst hzero
    refine ⟨rfl, ?_, ?_⟩ <;> simp [ExtendedMantissa.ofMantissaAndAccuracy, hr]
    omega
  · rw [if_neg hzero]
    rcases Nat.lt_trichotomy (2 * r) den with hcompare | hcompare | hcompare
    · rw [Nat.compare_eq_lt.2 hcompare]
      refine ⟨rfl, ?_, ?_⟩
      · simp [ExtendedMantissa.ofMantissaAndAccuracy, hr]
        omega
      · simp only [ExtendedMantissa.ofMantissaAndAccuracy, hr, Nat.mod_eq_of_lt hcompare, true_iff]
        omega
    · rw [Nat.compare_eq_eq.2 hcompare]
      refine ⟨rfl, ?_, ?_⟩
      · simp [ExtendedMantissa.ofMantissaAndAccuracy, hr, hcompare]
      · simp [ExtendedMantissa.ofMantissaAndAccuracy, hr, hcompare]
    · rw [Nat.compare_eq_gt.2 hcompare]
      have hmod : 2 * r % den = 2 * r - den := by
        rw [Nat.mod_eq_sub_mod (Nat.le_of_lt hcompare), Nat.mod_eq_of_lt (by omega)]
      refine ⟨rfl, ?_, ?_⟩
      · simp [ExtendedMantissa.ofMantissaAndAccuracy, hr]
        omega
      · simp [ExtendedMantissa.ofMantissaAndAccuracy, hr, hmod]
        omega

theorem Stands.shiftRightOne {m : ExtendedMantissa} {num den : Nat} (hden : 0 < den)
    (h : Stands m num den) : Stands m.shiftRightOne num (den * 2) := by
  have hlt : num % den < den := Nat.mod_lt num hden
  have hmod : num % (den * 2) = num % den + den * (num / den % 2) := Nat.mod_mul
  have htwice : 2 * (num % (den * 2)) % (den * 2) = 2 * (num % den) := by
    rw [Nat.mul_comm den 2, Nat.mul_mod_mul_left, Nat.mul_comm 2 den, Nat.mod_mul_right_mod]
  refine ⟨?_, ?_, ?_⟩
  · rw [ExtendedMantissa.shiftRightOne, h.mantissa, Nat.div_div_eq_div_mul]
  · rw [ExtendedMantissa.shiftRightOne, h.mantissa]
    rcases Nat.mod_two_eq_zero_or_one (num / den) with hpar | hpar
    · simp [hpar, hmod]
      omega
    · simp [hpar, hmod]
      omega
  · rw [htwice]
    simp only [ExtendedMantissa.shiftRightOne, Bool.or_eq_true, h.roundBit, h.stickyBit]
    constructor
    · rintro (hround | hsticky) hzero
      · omega
      · rw [hzero] at hsticky
        simp at hsticky
    · intro hne
      by_cases hround : den ≤ 2 * (num % den)
      · exact .inl hround
      · right
        rwa [Nat.mod_eq_of_lt (by omega)]

theorem Stands.shiftRight {m : ExtendedMantissa} {num den : Nat} (hden : 0 < den)
    (h : Stands m num den) (k : Nat) : Stands (m >>> k) num (den <<< k) := by
  show Stands (k.repeat ExtendedMantissa.shiftRightOne m) num (den <<< k)
  induction k with
  | zero => exact h
  | succ k ih =>
    rw [Nat.repeat, Nat.shiftLeft_succ, Nat.mul_comm 2]
    exact ih.shiftRightOne (by rw [Nat.shiftLeft_eq]; exact Nat.mul_pos hden (Nat.two_pow_pos k))

/-- The residual bits round to the nearest whole number, a half to the even one. -/
theorem Stands.roundedMantissa {m : ExtendedMantissa} {num den : Nat} (hden : 0 < den)
    (h : Stands m num den) : m.roundedMantissa = roundEven num den := by
  have hlt : num % den < den := Nat.mod_lt num hden
  obtain ⟨n, round, sticky⟩ := m
  obtain ⟨hmantissa, hround, hsticky⟩ := h
  dsimp only at hmantissa hround hsticky
  unfold roundEven
  rw [← hmantissa]
  by_cases hhalf : den ≤ 2 * (num % den)
  · rw [hround.2 hhalf]
    by_cases hrest : 2 * (num % den) % den = 0
    · have hs : sticky = false := by simpa [hrest] using hsticky
      have heq : 2 * (num % den) = den := by
        rw [Nat.mod_eq_sub_mod hhalf, Nat.mod_eq_of_lt (by omega)] at hrest
        omega
      rw [hs, heq]
      show n + n % 2 = _
      rcases Nat.mod_two_eq_zero_or_one n with hpar | hpar <;> simp [hpar]
    · have hs : sticky = true := hsticky.2 hrest
      rw [hs, if_neg]
      · rfl
      · rintro (hlt | ⟨heq, -⟩)
        · omega
        · rw [heq, Nat.mod_self] at hrest
          exact hrest rfl
  · have hr : round = false := by simpa [hhalf] using hround
    rw [hr, if_pos (.inl (by omega))]
    cases sticky <;> rfl

/-! ## Rounding and packing -/

theorem log2_shiftLeft_div {num den : Nat} (hden : 0 < den) (h : num / den ≠ 0) (a : Nat) :
    ((num <<< a) / den).log2 = (num / den).log2 + a := by
  obtain ⟨hlow, hhigh⟩ := (Nat.log2_eq_iff h).1 rfl
  rw [Nat.le_div_iff_mul_le hden] at hlow
  rw [Nat.div_lt_iff_lt_mul hden] at hhigh
  have hpos := Nat.two_pow_pos a
  have hlow' : 2 ^ ((num / den).log2 + a) ≤ (num <<< a) / den := by
    rw [Nat.le_div_iff_mul_le hden, Nat.shiftLeft_eq, Nat.pow_add, Nat.mul_right_comm]
    exact Nat.mul_le_mul_right _ hlow
  have hhigh' : (num <<< a) / den < 2 ^ ((num / den).log2 + a + 1) := by
    rw [Nat.div_lt_iff_lt_mul hden, Nat.shiftLeft_eq, Nat.add_right_comm, Nat.pow_add,
      Nat.mul_right_comm]
    exact (Nat.mul_lt_mul_right hpos).2 hhigh
  refine (Nat.log2_eq_iff ?_).2 ⟨hlow', hhigh'⟩
  have := Nat.two_pow_pos ((num / den).log2 + a)
  omega

theorem log2_div_shiftLeft (num den c : Nat) :
    (num / (den <<< c)).log2 = (num / den).log2 - c := by
  rw [Nat.shiftLeft_eq, ← Nat.div_div_eq_div_mul, Nat.log2_eq_log_two, Nat.log2_eq_log_two,
    Nat.log_div_base_pow]

/-- The exponent that a number with the whole part `n` times `2^e` is rounded to. -/
theorem target_eq (n : Nat) (e : Int) :
    binary64.targetExponent (Float.Model.totalExponent n e) = max (n.log2 - 52 + e) (-1074) := by
  show max ((n.log2 : Int) + 1 + e - 53) (-1074) = _
  congr 1
  omega

theorem roundEven_le (num den : Nat) : roundEven num den ≤ num / den + 1 := by
  unfold roundEven
  split <;> omega

theorem le_roundEven (num den : Nat) : num / den ≤ roundEven num den := by
  unfold roundEven
  split <;> omega

/-- The rounding to a float keeps at most one binary digit too many. -/
theorem roundEven_shift_le (num den : Nat) :
    roundEven num (den <<< ((num / den).log2 - 52)) ≤ 2 * octave := by
  generalize hs : (num / den).log2 - 52 = s
  have hlt := (log2_sub_eq_iff.1 hs).1
  refine Nat.le_trans (roundEven_le _ _) (Nat.succ_le_of_lt ?_)
  rw [Nat.shiftLeft_eq, ← Nat.div_div_eq_div_mul,
    Nat.div_lt_iff_lt_mul (Nat.two_pow_pos s), ← Nat.shiftLeft_eq]
  exact hlt

/-- It keeps at least 53 unless it drops none. -/
theorem le_roundEven_shift (num den : Nat) (h : (num / den).log2 - 52 ≠ 0) :
    octave ≤ roundEven num (den <<< ((num / den).log2 - 52)) := by
  generalize hs : (num / den).log2 - 52 = s at *
  have hle := (log2_sub_eq_iff.1 hs).2.resolve_left h
  refine Nat.le_trans ?_ (le_roundEven _ _)
  rw [Nat.shiftLeft_eq, ← Nat.div_div_eq_div_mul,
    Nat.le_div_iff_mul_le (Nat.two_pow_pos s), ← Nat.shiftLeft_eq]
  exact hle

theorem mantissa_shiftRight (m k : Nat) :
    (ExtendedMantissa.ofMantissaAndAccuracy m .exact >>> k).mantissa = m / (1 <<< k) :=
  ((stands_exact m).shiftRight Nat.one_pos k).mantissa

/-- A mantissa after rounding is shifted by one digit if it is one too long, and not otherwise.
Either way the floats up to it are as many. -/
theorem shiftToTargetExponent_exact {m : Nat} {e : Int} (hm : m ≠ 0) (hle : m ≤ 2 * octave)
    (he : -1074 ≤ e) (hfull : octave ≤ m ∨ e = -1074) :
    ∃ m' e', (UnpackedFloat.shiftToTargetExponent binary64 m e .exact).1.mantissa = m' ∧
      (UnpackedFloat.shiftToTargetExponent binary64 m e .exact).2 = e' ∧ 0 < m' ∧ Fits m' e' ∧
      (e' + 1074).toNat * octave + m' = (e + 1074).toNat * octave + m := by
  unfold UnpackedFloat.shiftToTargetExponent UnpackedFloat.shiftToExponent
  simp only [target_eq, mantissa_shiftRight]
  rcases Nat.lt_or_eq_of_le hle with hlt | rfl
  · have hlog : m.log2 < 53 := (Nat.log2_lt hm).2 hlt
    have hshift : (max ((m.log2 : Int) - 52 + e) (-1074) - e).toNat = 0 := by omega
    rw [hshift]
    exact ⟨m, e, by simp, by simp, by omega, ⟨hlt, he, hfull⟩, rfl⟩
  · have hlog : (2 * octave).log2 = 53 := Nat.log2_two_pow (n := 53)
    have hshift : (max (((2 * octave).log2 : Int) - 52 + e) (-1074) - e).toNat = 1 := by omega
    rw [hshift]
    refine ⟨octave, e + 1, by decide, rfl, by decide, ⟨by decide, by omega, .inl (Nat.le_refl _)⟩,
      ?_⟩
    simp only [octave]
    omega

/-- Rounding a mantissa that stands for a ratio gives the float nearest to that ratio, if there
are at least 53 binary digits or the exponent is not above the least one. -/
theorem pack_roundWithAccuracy (negative : Bool) {num den : Nat} {e : Int} {accuracy : Accuracy}
    (hden : 0 < den)
    (hstands : Stands (.ofMantissaAndAccuracy (num / den) accuracy) num den)
    (hfull : octave ≤ num / den ∨ e ≤ -1074) :
    Float.ofModel (.pack (UnpackedFloat.roundWithAccuracy binary64 (signOf negative) (num / den) e
        accuracy)) =
      ofMagnitude negative
        (bitsOfUnits (num <<< (e + 1074).toNat) (den <<< (-(e + 1074)).toNat)) := by
  generalize ha : (e + 1074).toNat = a
  generalize hc : (-(e + 1074)).toNat = c
  -- The digits dropped from the units, and those dropped from the mantissa.
  generalize hs : ((num <<< a) / (den <<< c)).log2 - 52 = s
  generalize ht : max (((num / den).log2 : Int) - 52 + e) (-1074) = t
  obtain ⟨hst, het⟩ : t = s - 1074 ∧ e ≤ t := by
    rcases Int.lt_or_le (-1074) e with he | he
    · have hbig : octave ≤ num / den := hfull.resolve_right (Int.not_le.2 he)
      have hne : num / den ≠ 0 := Nat.ne_of_gt (Nat.lt_of_lt_of_le (by decide) hbig)
      have hlog : 52 ≤ (num / den).log2 := (Nat.le_log2 hne).2 hbig
      obtain rfl : c = 0 := by omega
      rw [Nat.shiftLeft_zero, log2_shiftLeft_div hden hne] at hs
      omega
    · obtain rfl : a = 0 := by omega
      rw [Nat.shiftLeft_zero, log2_div_shiftLeft] at hs
      omega
  have hround : roundEven num (den <<< (t - e).toNat) =
      roundEven (num <<< a) (den <<< c <<< s) := by
    have hshift : c + s = (t - e).toNat + a := by omega
    rw [← Nat.shiftLeft_add, hshift, Nat.shiftLeft_add, Nat.shiftLeft_eq num,
      Nat.shiftLeft_eq _ a, roundEven_mul_right _ _ _ (Nat.two_pow_pos a)]
  have hle := roundEven_shift_le (num <<< a) (den <<< c)
  have hlow := le_roundEven_shift (num <<< a) (den <<< c)
  rw [hs, ← hround] at hle hlow
  have hbits : bitsOfUnits (num <<< a) (den <<< c) =
      min infinityBits ((t + 1074).toNat * octave + roundEven num (den <<< (t - e).toNat)) := by
    rw [bitsOfUnits]
    simp only [hs, ← hround]
    congr 3
    omega
  have hshifted := (hstands.shiftRight hden (t - e).toNat).roundedMantissa
    (by rw [Nat.shiftLeft_eq]; exact Nat.mul_pos hden (Nat.two_pow_pos _))
  have hfirst : UnpackedFloat.shiftToTargetExponent binary64 (num / den) e accuracy =
      (ExtendedMantissa.ofMantissaAndAccuracy (num / den) accuracy >>> (t - e).toNat, t) := by
    simp only [UnpackedFloat.shiftToTargetExponent, UnpackedFloat.shiftToExponent, target_eq, ht]
    have hexponent : e + ((t - e).toNat : Int) = t := by omega
    rw [hexponent]
  rw [hbits]
  unfold UnpackedFloat.roundWithAccuracy
  rw [hfirst]
  dsimp only
  rw [hshifted]
  generalize roundEven num (den <<< (t - e).toNat) = m at *
  by_cases hm : m = 0
  · have hzero : (UnpackedFloat.shiftToTargetExponent binary64 m t .exact).1.mantissa = 0 := by
      rw [UnpackedFloat.shiftToTargetExponent, UnpackedFloat.shiftToExponent, mantissa_shiftRight,
        hm, Nat.zero_div]
    have hs0 : s = 0 := by
      by_contra hne
      have := hlow hne
      rw [hm] at this
      exact absurd this (by decide)
    rw [dif_pos hzero, hm, hst, hs0]
    exact ofModel_pack (Nat.zero_le _) (toNat_pack_unpacked negative (Nat.zero_le _))
  · obtain ⟨m', e', hm', he', hpos, hfits, hcount⟩ :=
      shiftToTargetExponent_exact (e := t) hm hle (by omega) (by omega)
    rw [dif_neg (by rw [hm']; omega), ← hcount]
    refine ofModel_pack (Nat.min_le_left _ _) ?_
    rw [finite_congr hm' he']
    exact toNat_pack_finite negative hpos hfits

/-! ## Products and quotients -/

theorem signOf_mul (m n : Bool) : signOf m * signOf n = signOf (m != n) := by
  cases m <;> cases n <;> rfl

theorem signOf_div (m n : Bool) : signOf m / signOf n = signOf (m != n) := by
  cases m <;> cases n <;> rfl

theorem bitsOfUnits_zero (den : Nat) : bitsOfUnits 0 den = 0 := by
  simp [bitsOfUnits, roundEven]
  omega

theorem pack_zero (negative : Bool) :
    Float.ofModel (.pack (.zero (signOf negative))) = ofMagnitude negative 0 :=
  ofModel_pack (Nat.zero_le _) (toNat_pack_unpacked negative (Nat.zero_le _))

theorem shiftLeft_mul_shiftLeft (m n i j : Nat) : (m <<< i) * (n <<< j) = (m * n) <<< (i + j) := by
  simp only [Nat.shiftLeft_eq, Nat.pow_add]
  exact Nat.mul_mul_mul_comm m (2 ^ i) n (2 ^ j)

theorem shiftLeft_pos {n : Nat} (h : 0 < n) (k : Nat) : 0 < n <<< k := by
  rw [Nat.shiftLeft_eq]
  exact Nat.mul_pos h (Nat.two_pow_pos k)

/-- The nearest float depends on the difference of two shifts alone. -/
theorem bitsOfUnits_shiftLeft (num : Nat) {den i j i' j' : Nat} (hden : 0 < den)
    (h : i + j' = i' + j) :
    bitsOfUnits (num <<< i) (den <<< j) = bitsOfUnits (num <<< i') (den <<< j') := by
  refine bitsOfUnits_congr (shiftLeft_pos hden j) (shiftLeft_pos hden j') ?_
  rw [shiftLeft_mul_shiftLeft, shiftLeft_mul_shiftLeft, h]

theorem unitsOfBits_eq_shiftLeft (b : Nat) :
    unitsOfBits b = mantissaOf b <<< (exponentOf b + 1074).toNat := by
  rw [unitsOfBits_eq, exponentOf_add, coarseness]

theorem unitsOfBits_zero : unitsOfBits 0 = 0 := rfl

/-- The product of two floats is the float nearest to the product of their values. -/
theorem mul_ofMagnitude (m n : Bool) {b c : Nat} (hb : b < infinityBits) (hc : c < infinityBits) :
    ofMagnitude m b * ofMagnitude n c =
      ofMagnitude (m != n) (bitsOfUnits (unitsOfBits b * unitsOfBits c) one) := by
  show Float.ofModel (.pack (UnpackedFloat.mul binary64 (ofMagnitude m b).toModel.unpack
    (ofMagnitude n c).toModel.unpack)) = _
  rw [unpack_ofMagnitude m (Nat.le_of_lt hb), unpack_ofMagnitude n (Nat.le_of_lt hc)]
  by_cases hb0 : b = 0
  · subst hb0
    rw [unitsOfBits_zero, Nat.zero_mul, bitsOfUnits_zero, ← pack_zero, ← signOf_mul, unpacked_zero]
    by_cases hc0 : c = 0
    · subst hc0
      rfl
    · rw [unpacked_finite n hc hc0]
      rfl
  · rw [unpacked_finite m hb hb0]
    by_cases hc0 : c = 0
    · subst hc0
      rw [unitsOfBits_zero, Nat.mul_zero, bitsOfUnits_zero, ← pack_zero, ← signOf_mul,
        unpacked_zero]
      rfl
    · rw [unpacked_finite n hc hc0]
      show Float.ofModel (.pack (UnpackedFloat.roundWithAccuracy binary64 (signOf m * signOf n)
        (mantissaOf b * mantissaOf c) (exponentOf b + exponentOf c) .exact)) = _
      rw [signOf_mul]
      obtain ⟨-, hle, hfull⟩ := fits_bits b
      obtain ⟨-, hle', hfull'⟩ := fits_bits c
      have hmul : mantissaOf b * mantissaOf c / 1 = mantissaOf b * mantissaOf c := Nat.div_one _
      have hdigits : octave ≤ mantissaOf b * mantissaOf c / 1 ∨
          exponentOf b + exponentOf c ≤ -1074 := by
        rw [hmul]
        rcases hfull with hbig | hleast
        · exact .inl (Nat.le_trans hbig (Nat.le_mul_of_pos_right _ (mantissaOf_pos hc0)))
        · rcases hfull' with hbig' | hleast'
          · exact .inl (Nat.le_trans hbig' (Nat.le_mul_of_pos_left _ (mantissaOf_pos hb0)))
          · omega
      have hround := pack_roundWithAccuracy (m != n) Nat.one_pos
        (by rw [hmul]; exact stands_exact _) hdigits
      rw [hmul] at hround
      rw [hround, unitsOfBits_eq_shiftLeft, unitsOfBits_eq_shiftLeft, shiftLeft_mul_shiftLeft, one]
      exact congrArg (ofMagnitude _) (bitsOfUnits_shiftLeft _ Nat.one_pos (by omega))

/-- A division first lengthens the dividend, so that the quotient has 53 digits or the least
exponent is reached. -/
theorem divCore_eq {m n : Nat} (e e' : Int) (hm : 0 < m) (hn : 0 < n) :
    ∃ (k : Nat) (t : Int), UnpackedFloat.divCore binary64 m e n e' =
        ((m <<< k) / n, t, UnpackedFloat.accuracyOfFraction ((m <<< k) % n) n) ∧
      t = e - e' - k ∧ (octave ≤ (m <<< k) / n ∨ t ≤ -1074) := by
  have htarget : binary64.targetExponent
      (Float.Model.totalExponent m e - Float.Model.totalExponent n e') =
        max (m.log2 - n.log2 + (e - e') - 53) (-1074) := by
    show max ((m.log2 : Int) + 1 + e - (n.log2 + 1 + e') - 53) (-1074) = _
    congr 1
    omega
  rw [UnpackedFloat.divCore, htarget]
  generalize ht : min (e - e') (max (m.log2 - n.log2 + (e - e') - 53) (-1074)) = t
  generalize hk : (e - e' - t).toNat = k
  refine ⟨k, t, rfl, by omega, ?_⟩
  by_cases hleast : t ≤ -1074
  · exact .inr hleast
  · left
    have hlog : n.log2 + 1 + 52 ≤ m.log2 + k := by omega
    rw [Nat.le_div_iff_mul_le hn]
    calc octave * n ≤ octave * 2 ^ (n.log2 + 1) :=
          Nat.mul_le_mul_left _ (Nat.le_of_lt Nat.lt_log2_self)
      _ = 2 ^ (n.log2 + 1 + 52) := by
          rw [Nat.pow_add 2 _ 52, Nat.mul_comm]
          rfl
      _ ≤ 2 ^ (m.log2 + k) := Nat.pow_le_pow_right Nat.two_pos hlog
      _ = 2 ^ m.log2 * 2 ^ k := Nat.pow_add 2 _ k
      _ ≤ m <<< k := by
          rw [Nat.shiftLeft_eq]
          exact Nat.mul_le_mul_right _ (Nat.log2_self_le (Nat.ne_of_gt hm))

/-- The quotient of two floats is the float nearest to the quotient of their values. -/
theorem div_ofMagnitude (m n : Bool) {b c : Nat} (hb : b < infinityBits) (hc : c < infinityBits)
    (hc0 : c ≠ 0) :
    ofMagnitude m b / ofMagnitude n c =
      ofMagnitude (m != n) (bitsOfUnits (unitsOfBits b * one) (unitsOfBits c)) := by
  show Float.ofModel (.pack (UnpackedFloat.div binary64 (ofMagnitude m b).toModel.unpack
    (ofMagnitude n c).toModel.unpack)) = _
  rw [unpack_ofMagnitude m (Nat.le_of_lt hb), unpack_ofMagnitude n (Nat.le_of_lt hc),
    unpacked_finite n hc hc0]
  by_cases hb0 : b = 0
  · subst hb0
    rw [unitsOfBits_zero, Nat.zero_mul, bitsOfUnits_zero, unpacked_zero, ← pack_zero, ← signOf_div]
    rfl
  · have hmc := mantissaOf_pos hc0
    have hle := (fits_bits b).le
    have hle' := (fits_bits c).le
    obtain ⟨k, e, hcore, he, hdigits⟩ :=
      divCore_eq (exponentOf b) (exponentOf c) (mantissaOf_pos hb0) hmc
    rw [unpacked_finite m hb hb0]
    show Float.ofModel (.pack (UnpackedFloat.roundWithAccuracy binary64 (signOf m / signOf n)
      (UnpackedFloat.divCore ..).1 (UnpackedFloat.divCore ..).2.1
      (UnpackedFloat.divCore ..).2.2)) = _
    rw [signOf_div, hcore]
    dsimp only
    rw [pack_roundWithAccuracy _ hmc (stands_fraction _ hmc) hdigits, unitsOfBits_eq_shiftLeft,
      unitsOfBits_eq_shiftLeft, one, shiftLeft_mul_shiftLeft, Nat.mul_one, ← Nat.shiftLeft_add]
    exact congrArg (ofMagnitude _) (bitsOfUnits_shiftLeft _ hmc (by omega))

end Reckoner.Number

import Reckoner.Proofs.Nearest

/-!
# How far the nearest float is

The floats around a ratio lie `2^s` units apart, where `s` is the number of binary digits above
53 of its whole part.  So the nearest float is at most half of that away (`distance_le`), a
greater ratio never has a smaller nearest float (`bitsOfUnits_mono`), and a ratio less than half
of that away from a float has it as its nearest float (`bitsOfUnits_eq_of_above`,
`bitsOfUnits_eq_of_below`).  Just below a power of two the floats lie half as far apart.
-/

namespace Reckoner.Number

/-! ## Rounding to a whole number -/

/-- The nearest whole number is at most a half away. -/
theorem roundEven_near (num : Nat) {den : Nat} (hden : 0 < den) :
    2 * (roundEven num den * den) ≤ 2 * num + den ∧
      2 * num ≤ 2 * (roundEven num den * den) + den := by
  have hdiv : num / den * den + num % den = num := Nat.div_add_mod' num den
  have hlt : num % den < den := Nat.mod_lt num hden
  unfold roundEven
  split
  · generalize num / den * den = q at *
    omega
  · rw [Nat.add_mul, Nat.one_mul]
    generalize num / den * den = q at *
    omega

/-- What is less than a half away is the nearest whole number. -/
theorem roundEven_eq {num den q : Nat} (hlow : 2 * (q * den) < 2 * num + den)
    (hhigh : 2 * num < 2 * (q * den) + den) : roundEven num den = q := by
  have hden : 0 < den := by omega
  rcases Nat.lt_or_ge num (q * den) with hlt | hge
  · obtain ⟨p, rfl⟩ : ∃ p, q = p + 1 := by
      refine ⟨q - 1, ?_⟩
      have : q ≠ 0 := by
        rintro rfl
        simp at hlt
      omega
    rw [Nat.add_mul, Nat.one_mul] at *
    have hdiv : num / den = p := by
      rw [Nat.div_eq_iff hden]
      omega
    have hmod : num % den = num - p * den := by
      rw [Nat.mod_eq_sub_div_mul, hdiv]
    rw [roundEven, hmod, hdiv, if_neg]
    omega
  · have hdiv : num / den = q := by
      rw [Nat.div_eq_iff hden]
      omega
    have hmod : num % den = num - q * den := by
      rw [Nat.mod_eq_sub_div_mul, hdiv]
    rw [roundEven, hmod, hdiv, if_pos]
    omega

theorem roundEven_mono {num num' : Nat} (h : num ≤ num') (den : Nat) :
    roundEven num den ≤ roundEven num' den := by
  rcases Nat.eq_or_lt_of_le (Nat.div_le_div_right (c := den) h) with heq | hlt
  · have hmod : num % den ≤ num' % den := by
      rw [Nat.mod_eq_sub_div_mul, Nat.mod_eq_sub_div_mul, heq]
      exact Nat.sub_le_sub_right h _
    unfold roundEven
    rw [heq]
    split
    · split <;> omega
    · rw [if_neg]
      omega
  · exact Nat.le_trans (roundEven_le _ _) (Nat.le_trans hlt (le_roundEven _ _))

/-! ## Counting the floats -/

/-- The units of a float, from its mantissa and the number of digits dropped from it.  The
mantissa may be one too long. -/
theorem unitsOfBits_count {m s : Nat} (hm : m ≤ 2 * octave) (hs : s ≠ 0 → octave ≤ m) :
    unitsOfBits (s * octave + m) = m <<< s := by
  have hpos : 0 < octave := by decide
  by_cases hsmall : m < octave
  · obtain rfl : s = 0 := by
      by_contra hne
      exact absurd (hs hne) (Nat.not_le.2 hsmall)
    rw [Nat.zero_mul, Nat.zero_add, unitsOfBits, if_pos hsmall, Nat.shiftLeft_zero]
  · have hbig : ¬ s * octave + m < octave := by omega
    rw [unitsOfBits, if_neg hbig, Nat.mul_comm s, Nat.mul_add_mod, Nat.mul_add_div hpos]
    rcases Nat.lt_or_eq_of_le hm with hlt | rfl
    · have hdiv : m / octave = 1 := (Nat.div_eq_iff hpos).2 (by omega)
      have hmod : m % octave = m - octave := by rw [Nat.mod_eq_sub_div_mul, hdiv, Nat.one_mul]
      rw [hdiv, hmod, Nat.add_sub_cancel, Nat.add_sub_of_le (Nat.le_of_not_lt hsmall)]
    · rw [Nat.mul_mod_left, Nat.mul_div_cancel _ hpos, Nat.add_zero, Nat.add_sub_assoc (by decide),
        Nat.add_comm s, Nat.shiftLeft_add, Nat.mul_comm 2]
      rfl

theorem octave_le_mantissaOf {b : Nat} (h : coarseness b ≠ 0) : octave ≤ mantissaOf b := by
  refine (fits_bits b).full.resolve_right fun he => h ?_
  rw [coarseness, ← exponentOf_add, he]
  rfl

/-- A greater float has more units. -/
theorem unitsOfBits_mono {b c : Nat} (h : b ≤ c) : unitsOfBits b ≤ unitsOfBits c := by
  have hb := (fits_bits b).lt
  have hc := (fits_bits c).lt
  rw [← coarseness_eq b, ← coarseness_eq c] at h
  rw [unitsOfBits_eq, unitsOfBits_eq]
  rcases Nat.lt_trichotomy (coarseness b) (coarseness c) with hlt | heq | hgt
  · calc mantissaOf b <<< coarseness b ≤ (2 * octave) <<< coarseness b := by
          simp only [Nat.shiftLeft_eq]
          exact Nat.mul_le_mul_right _ (Nat.le_of_lt hb)
      _ = octave <<< (coarseness b + 1) := by
          rw [Nat.add_comm, Nat.shiftLeft_add, Nat.mul_comm]
          rfl
      _ ≤ octave <<< coarseness c := by
          simp only [Nat.shiftLeft_eq]
          exact Nat.mul_le_mul_left _ (Nat.pow_le_pow_right Nat.two_pos hlt)
      _ ≤ mantissaOf c <<< coarseness c := by
          simp only [Nat.shiftLeft_eq]
          exact Nat.mul_le_mul_right _ (octave_le_mantissaOf (by omega))
  · rw [heq] at h ⊢
    simp only [Nat.shiftLeft_eq]
    exact Nat.mul_le_mul_right _ (Nat.le_of_add_le_add_left h)
  · have hfull := octave_le_mantissaOf (b := b) (by omega)
    have hmul : (coarseness c + 1) * octave ≤ coarseness b * octave := Nat.mul_le_mul_right _ hgt
    rw [Nat.add_mul, Nat.one_mul] at hmul
    omega

/-! ## The nearest float -/

/-- The nearest float is at most half the distance of the floats away. -/
theorem distance_le {num den : Nat} (hden : 0 < den) (h : bitsOfUnits num den < infinityBits) :
    2 * (unitsOfBits (bitsOfUnits num den) * den) ≤
        2 * num + den <<< ((num / den).log2 - 52) ∧
      2 * num ≤ 2 * (unitsOfBits (bitsOfUnits num den) * den) +
        den <<< ((num / den).log2 - 52) := by
  have hbits : bitsOfUnits num den = ((num / den).log2 - 52) * octave +
      roundEven num (den <<< ((num / den).log2 - 52)) := by
    simp only [bitsOfUnits] at *
    omega
  rw [hbits, unitsOfBits_count (roundEven_shift_le num den) (le_roundEven_shift num den),
    Nat.shiftLeft_eq, Nat.mul_right_comm, Nat.mul_assoc _ den, ← Nat.shiftLeft_eq]
  exact roundEven_near num (shiftLeft_pos hden _)

/-- A greater ratio never has a smaller nearest float. -/
theorem bitsOfUnits_mono {num num' : Nat} (h : num ≤ num') (den : Nat) :
    bitsOfUnits num den ≤ bitsOfUnits num' den := by
  have hlog : (num / den).log2 - 52 ≤ (num' / den).log2 - 52 := by
    rw [Nat.log2_eq_log_two, Nat.log2_eq_log_two]
    exact Nat.sub_le_sub_right (Nat.log_mono_right (Nat.div_le_div_right h)) 52
  have hle := roundEven_shift_le num den
  have hlow := le_roundEven_shift num' den
  rw [bitsOfUnits, bitsOfUnits]
  generalize (num / den).log2 - 52 = s at *
  generalize (num' / den).log2 - 52 = s' at *
  suffices hcount : s * octave + roundEven num (den <<< s) ≤
      s' * octave + roundEven num' (den <<< s') from
    Nat.le_min.2 ⟨Nat.min_le_left _ _, Nat.le_trans (Nat.min_le_right _ _) hcount⟩
  rcases Nat.eq_or_lt_of_le hlog with rfl | hlt
  · exact Nat.add_le_add_left (roundEven_mono h _) _
  · have hbig := hlow (by omega)
    have hmul : (s + 1) * octave ≤ s' * octave := Nat.mul_le_mul_right _ hlt
    rw [Nat.add_mul, Nat.one_mul] at hmul
    omega

/-! ## What is close to a float -/

/-- The bits of the nearest float, from the digits dropped and the mantissa. -/
theorem bitsOfUnits_count {num den s m : Nat} (hden : 0 < den)
    (hleast : s = 0 ∨ octave * den <<< s ≤ num) (hgreatest : num < 2 * octave * den <<< s)
    (hlow : 2 * (m * den <<< s) < 2 * num + den <<< s)
    (hhigh : 2 * num < 2 * (m * den <<< s) + den <<< s) :
    bitsOfUnits num den = min infinityBits (s * octave + m) := by
  have hmul (n : Nat) : n * den <<< s = n <<< s * den := by
    simp only [Nat.shiftLeft_eq]
    rw [Nat.mul_right_comm, Nat.mul_assoc]
  have hs : (num / den).log2 - 52 = s := by
    rw [log2_sub_eq_iff, Nat.div_lt_iff_lt_mul hden, Nat.le_div_iff_mul_le hden, ← hmul, ← hmul]
    exact ⟨hgreatest, hleast⟩
  rw [bitsOfUnits, hs, roundEven_eq hlow hhigh]

/-- A ratio that differs from a float by at most `5 * 10^-17` of it has it as its nearest
float. -/
theorem bitsOfUnits_eq_of_close {b num den : Nat} (hb : b ≤ infinityBits) (hden : 0 < den)
    (habove : 20000000000000000 * num ≤ 20000000000000001 * (unitsOfBits b * den))
    (hbelow : 19999999999999999 * (unitsOfBits b * den) ≤ 20000000000000000 * num) :
    bitsOfUnits num den = b := by
  have hlt := (fits_bits b).lt
  have hfull := octave_le_mantissaOf (b := b)
  have hcount := coarseness_eq b
  have hunits : unitsOfBits b * den = mantissaOf b * den <<< coarseness b := by
    rw [unitsOfBits_eq]
    simp only [Nat.shiftLeft_eq]
    rw [Nat.mul_right_comm, Nat.mul_assoc]
  rw [hunits] at habove hbelow
  generalize mantissaOf b = m at *
  generalize coarseness b = s at *
  have hpos : 0 < den <<< s := shiftLeft_pos hden s
  by_cases hpower : s ≠ 0 ∧ num < octave * den <<< s
  · -- Just below a power of two the floats are half as far apart.
    obtain ⟨hs, hsmall⟩ := hpower
    obtain ⟨k, rfl⟩ : ∃ k, s = k + 1 := ⟨s - 1, by omega⟩
    have hm : m = octave := by
      have hcancel : 19999999999999999 * m < 20000000000000000 * octave := by
        refine Nat.lt_of_mul_lt_mul_right (a := den <<< (k + 1)) ?_
        rw [Nat.mul_assoc, Nat.mul_assoc]
        omega
      have := hfull hs
      simp only [octave] at *
      omega
    subst hm
    have hdouble : den <<< (k + 1) = 2 * den <<< k := Nat.shiftLeft_succ den k
    simp only [hdouble, octave] at *
    rw [bitsOfUnits_count hden (s := k) (m := 2 * octave)]
    · have hcarry : k * octave + 2 * octave = b := by
        simp only [octave]
        omega
      rw [hcarry, Nat.min_eq_right hb]
    all_goals
      simp only [octave]
      generalize den <<< k = distance at *
      omega
  · have hmD : m * den <<< s ≤ (2 * octave - 1) * den <<< s := Nat.mul_le_mul_right _ (by omega)
    have hmul : s = 0 ∨ octave * den <<< s ≤ num := by omega
    rw [bitsOfUnits_count hden hmul (m := m), hcount, Nat.min_eq_right hb]
    · simp only [octave] at *
      omega
    · simp only [octave] at *
      omega
    · simp only [octave] at *
      omega

end Reckoner.Number

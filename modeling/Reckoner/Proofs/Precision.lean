import Mathlib.Algebra.Order.Field.Rat
import Mathlib.Tactic.FieldSimp
import Mathlib.Tactic.GCongr
import Mathlib.Tactic.Linarith
import Mathlib.Tactic.NormNum
import Mathlib.Tactic.Positivity
import Mathlib.Tactic.Ring
import Reckoner.Proofs.Decimals

/-!
# How much a few roundings change

A float nearest to a value differs from it by a factor between `1 - 2^-53` and its reciprocal, or
by half a unit.  `Near k error x y` says that `k` such factors and an absolute error lead from `x`
to `y` and back.  It is symmetric, adds up along a chain, and passes through products and
quotients.

The absolute error only counts for the least floats: from `2^52` units on there is none
(`near_bits_of_le`).
-/

namespace Reckoner.Number

/-- What a rounding keeps of a value, at least: `1 - 2^-53`. -/
def keep : ℚ := 9007199254740991 / 9007199254740992

theorem keep_pos : 0 < keep := by norm_num [keep]

theorem keep_le_one : keep ≤ 1 := by norm_num [keep]

theorem keep_pow_pos (k : ℕ) : 0 < keep ^ k := pow_pos keep_pos k

theorem keep_pow_le_one (k : ℕ) : keep ^ k ≤ 1 := pow_le_one₀ keep_pos.le keep_le_one

/-- Two values differ by at most `k` roundings and an absolute error. -/
structure Near (k : ℕ) (error x y : ℚ) : Prop where
  /-- The second is not much greater. -/
  low : keep ^ k * y ≤ x + error
  /-- Nor is the first. -/
  high : keep ^ k * x ≤ y + error

namespace Near

variable {k l : ℕ} {e f x y z v w : ℚ}

theorem refl (x : ℚ) : Near 0 0 x x := ⟨by simp, by simp⟩

theorem symm (h : Near k e x y) : Near k e y x := ⟨h.high, h.low⟩

theorem weaken (h : Near k e x y) (hk : k ≤ l) (he : e ≤ f) (hx : 0 ≤ x) (hy : 0 ≤ y) :
    Near l f x y := by
  have hpow : keep ^ l ≤ keep ^ k := pow_le_pow_of_le_one keep_pos.le keep_le_one hk
  exact ⟨(mul_le_mul_of_nonneg_right hpow hy).trans (h.low.trans (by linarith)),
    (mul_le_mul_of_nonneg_right hpow hx).trans (h.high.trans (by linarith))⟩

/-- The errors add up. -/
theorem trans (h : Near k e x y) (h' : Near l f y z) (he : 0 ≤ e) (hf : 0 ≤ f) :
    Near (k + l) (e + f) x z := by
  have hfk : keep ^ k * f ≤ f := mul_le_of_le_one_left hf (keep_pow_le_one k)
  have hel : keep ^ l * e ≤ e := mul_le_of_le_one_left he (keep_pow_le_one l)
  constructor
  · calc keep ^ (k + l) * z = keep ^ k * (keep ^ l * z) := by ring
      _ ≤ keep ^ k * (y + f) := mul_le_mul_of_nonneg_left h'.low (keep_pow_pos k).le
      _ = keep ^ k * y + keep ^ k * f := by ring
      _ ≤ x + (e + f) := by linarith [h.low]
  · calc keep ^ (k + l) * x = keep ^ l * (keep ^ k * x) := by ring
      _ ≤ keep ^ l * (y + e) := mul_le_mul_of_nonneg_left h.high (keep_pow_pos l).le
      _ = keep ^ l * y + keep ^ l * e := by ring
      _ ≤ z + (e + f) := by linarith [h'.high]

/-- A product of two values without absolute errors. -/
theorem mul (h : Near k 0 x y) (h' : Near l 0 v w) (hx : 0 ≤ x) (hy : 0 ≤ y) (hv : 0 ≤ v)
    (hw : 0 ≤ w) : Near (k + l) 0 (x * v) (y * w) := by
  have hk := (keep_pow_pos k).le
  have hl := (keep_pow_pos l).le
  constructor
  · calc keep ^ (k + l) * (y * w) = keep ^ k * y * (keep ^ l * w) := by ring
      _ ≤ (x + 0) * (v + 0) := mul_le_mul h.low h'.low (mul_nonneg hl hw) (by linarith)
      _ = x * v + 0 := by ring
  · calc keep ^ (k + l) * (x * v) = keep ^ k * x * (keep ^ l * v) := by ring
      _ ≤ (y + 0) * (w + 0) := mul_le_mul h.high h'.high (mul_nonneg hl hv) (by linarith)
      _ = y * w + 0 := by ring

/-- A quotient.  The absolute error is divided by a lower bound of both divisors. -/
theorem div {c : ℚ} (h : Near k e x y) (h' : Near l 0 v w) (he : 0 ≤ e) (hx : 0 ≤ x) (hy : 0 ≤ y)
    (hc : 0 < c) (hv : c ≤ v) (hw : c ≤ w) : Near (k + l) (e / c) (x / v) (y / w) := by
  have hvpos : 0 < v := hc.trans_le hv
  have hwpos : 0 < w := hc.trans_le hw
  have hinv : keep ^ l / w ≤ 1 / v := by
    rw [div_le_div_iff₀ hwpos hvpos]
    linarith [h'.high]
  have hinv' : keep ^ l / v ≤ 1 / w := by
    rw [div_le_div_iff₀ hvpos hwpos]
    linarith [h'.low]
  have hev : e / v ≤ e / c := div_le_div_of_nonneg_left he hc hv
  have hew : e / w ≤ e / c := div_le_div_of_nonneg_left he hc hw
  have hl := (keep_pow_pos l).le
  constructor
  · calc keep ^ (k + l) * (y / w) = keep ^ k * y * (keep ^ l / w) := by ring
      _ ≤ (x + e) * (1 / v) :=
        mul_le_mul h.low hinv (div_nonneg hl hwpos.le) (by linarith)
      _ = x / v + e / v := by ring
      _ ≤ x / v + e / c := by linarith
  · calc keep ^ (k + l) * (x / v) = keep ^ k * x * (keep ^ l / v) := by ring
      _ ≤ (y + e) * (1 / w) :=
        mul_le_mul h.high hinv' (div_nonneg hl hvpos.le) (by linarith)
      _ = y / w + e / w := by ring
      _ ≤ y / w + e / c := by linarith

end Near

/-! ## One rounding -/

/-- The nearest float is near: by half a unit, or relative to the value. -/
theorem distance_le_cases {num den : ℕ} (hden : 0 < den) (h : bitsOfUnits num den < infinityBits) :
    ∃ distance : ℕ, (distance = den ∨ octave * distance ≤ num) ∧
      2 * (unitsOfBits (bitsOfUnits num den) * den) ≤ 2 * num + distance ∧
      2 * num ≤ 2 * (unitsOfBits (bitsOfUnits num den) * den) + distance := by
  refine ⟨_, ?_, distance_le hden h⟩
  obtain ⟨-, hfirst⟩ := log2_sub_eq_iff.1 (Eq.refl ((num / den).log2 - 52))
  refine hfirst.imp (fun hzero => by rw [hzero, Nat.shiftLeft_zero]) fun hle => ?_
  rw [Nat.le_div_iff_mul_le hden] at hle
  simp only [Nat.shiftLeft_eq] at *
  rwa [Nat.mul_left_comm, Nat.mul_comm den]

/-- A number is near a ratio if it differs by an absolute error or relative to the numerator. -/
theorem near_ratio {n num den distance : ℕ} {error : ℚ} (hden : 0 < den) (he : 0 ≤ error)
    (hdistance : distance ≤ 2 * error * den ∨ octave * distance ≤ num)
    (hhigh : 2 * (n * den) ≤ 2 * num + distance) (hlow : 2 * num ≤ 2 * (n * den) + distance) :
    Near 1 error n (num / den) := by
  have hpos : (0 : ℚ) < den := by exact_mod_cast hden
  have hnum : (0 : ℚ) ≤ num := by positivity
  have hn : (0 : ℚ) ≤ n * den := by positivity
  have hed : 0 ≤ error * den := mul_nonneg he hpos.le
  have hhigh : 2 * (n * den : ℚ) ≤ 2 * num + distance := by exact_mod_cast hhigh
  have hlow : (2 * num : ℚ) ≤ 2 * (n * den) + distance := by exact_mod_cast hlow
  have hdistance : (distance : ℚ) ≤ 2 * error * den ∨
      (4503599627370496 : ℚ) * distance ≤ num :=
    hdistance.imp id fun hle => by exact_mod_cast hle
  -- The goals multiplied with the denominator are linear.
  have habove : keep * num ≤ n * den + error * den := by
    unfold keep
    rcases hdistance with hle | hle <;> linarith
  have hbelow : keep * (n * den) ≤ num + error * den := by
    unfold keep
    rcases hdistance with hle | hle <;> linarith
  constructor
  · rw [pow_one, ← mul_div_assoc, div_le_iff₀ hpos, add_mul]
    exact habove
  · rw [pow_one, ← mul_le_mul_iff_of_pos_right hpos, add_mul, div_mul_cancel₀ _ hpos.ne', mul_assoc]
    exact hbelow

/-- The nearest float is near. -/
theorem near_bits {num den : ℕ} (hden : 0 < den) (h : bitsOfUnits num den < infinityBits) :
    Near 1 (1 / 2) (unitsOfBits (bitsOfUnits num den) : ℕ) (num / den) := by
  obtain ⟨distance, hdistance, hhigh, hlow⟩ := distance_le_cases hden h
  refine near_ratio hden (by norm_num) (hdistance.imp (fun heq => ?_) id) hhigh hlow
  rw [heq]
  linarith

/-- From `2^52` units on there is no absolute error. -/
theorem near_bits_of_le {num den : ℕ} (hden : 0 < den) (h : bitsOfUnits num den < infinityBits)
    (hle : octave * den ≤ num) :
    Near 1 0 (unitsOfBits (bitsOfUnits num den) : ℕ) (num / den) := by
  obtain ⟨distance, hdistance, hhigh, hlow⟩ := distance_le_cases hden h
  refine near_ratio hden le_rfl (.inr ?_) hhigh hlow
  rcases hdistance with rfl | hsmall
  · exact hle
  · exact hsmall

/-! ## Six roundings -/

/-- Numbers of units that six roundings lead to differ by at most one in `2^50` and one unit. -/
theorem near_units {m n : ℕ} (h : Near 6 (11 / 10) m n) :
    ((m : ℤ) - n).natAbs <<< 50 ≤ n + 1 <<< 50 := by
  obtain ⟨hlow, hhigh⟩ := h
  have hn : (0 : ℚ) ≤ n := by positivity
  have hlower : (1 - 6 / 9007199254740992) * (n : ℚ) ≤ m + 11 / 10 := by
    refine le_trans (mul_le_mul_of_nonneg_right ?_ hn) hlow
    norm_num [keep]
  have hupper : (m : ℚ) ≤ (1 + 7 / 9007199254740992) * (n + 11 / 10) := by
    refine le_trans ?_ (mul_le_mul_of_nonneg_left hhigh (by norm_num))
    rw [← mul_assoc]
    refine le_mul_of_one_le_left (by positivity) ?_
    norm_num [keep]
  have hlower : 9007199254740986 * 10 * n ≤ 9007199254740992 * 10 * m + 9007199254740992 * 11 := by
    have : (9007199254740986 * 10 * n : ℚ) ≤ 9007199254740992 * 10 * m + 9007199254740992 * 11 := by
      linarith
    exact_mod_cast this
  have hupper : 9007199254740992 * 10 * m ≤ 9007199254740999 * (10 * n + 11) := by
    have : (9007199254740992 * 10 * m : ℚ) ≤ 9007199254740999 * (10 * n + 11) := by linarith
    exact_mod_cast this
  rw [Nat.shiftLeft_eq, Nat.shiftLeft_eq]
  omega

end Reckoner.Number

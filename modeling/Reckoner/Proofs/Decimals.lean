import Reckoner.Number.Format
import Reckoner.Proofs.Distance
import Reckoner.Text.Class

/-!
# Decimals and their bits

A decimal that is read takes two short cuts: from `10^310` on and below `10^-330` the power of
ten is not computed.  They change nothing (`Decimal.bits_eq`): there the nearest float is
infinity, or zero.  So the bits of a decimal depend on its value alone
(`Decimal.bits_eq_of_ratio`), not on how many digits it is written with
(`Decimal.bits_mul_tenTo`).
-/

namespace Reckoner.Number

/-! ## Powers of ten -/

theorem tenTo_pos (n : Nat) : 0 < tenTo n := Nat.pow_pos (by decide)

theorem tenTo_add (m n : Nat) : tenTo (m + n) = tenTo m * tenTo n := Nat.pow_add 10 m n

theorem tenTo_mono {m n : Nat} (h : m ≤ n) : tenTo m ≤ tenTo n := Nat.pow_le_pow_right (by decide) h

theorem tenTo_succ (n : Nat) : tenTo (n + 1) = 10 * tenTo n := Nat.pow_succ'

/-! ## Digits -/

open Format (digitsOf)
open Text (isAsciiDigit)

/-- The digits of a number are read as this number. -/
theorem ofDigits_digitsOf (n : Nat) : ofDigits (digitsOf n) = n := Nat.ofDigitChars_ten_toDigits

theorem digitsOf_ne_nil (n : Nat) : digitsOf n ≠ [] := Nat.toDigits_ne_nil

theorem isAsciiDigit_of_mem_digitsOf {n : Nat} {c : Char} (h : c ∈ digitsOf n) :
    isAsciiDigit c = true := by
  have hdigit := Nat.isDigit_of_mem_toDigits (by decide) (by decide) h
  simp only [Char.isDigit, Bool.and_eq_true, decide_eq_true_eq] at hdigit
  simp only [isAsciiDigit, Bool.and_eq_true, decide_eq_true_eq]
  exact hdigit

theorem ofDigits_append (s t : Text) :
    ofDigits (s ++ t) = ofDigits s * tenTo t.length + ofDigits t := by
  refine (Nat.ofDigitChars_append 0).trans (Nat.ofDigitChars_eq_ofDigitChars_zero.trans ?_)
  rw [Nat.mul_comm]
  rfl

theorem ofDigits_replicate (n : Nat) : ofDigits (List.replicate n '0') = 0 :=
  Nat.ofDigitChars_replicate_zero

/-- The digits of a number and zeros behind them. -/
theorem digits_extended (n k : Nat) :
    (∀ c ∈ digitsOf n ++ List.replicate k '0', isAsciiDigit c = true) ∧
      ofDigits (digitsOf n ++ List.replicate k '0') = n * tenTo k := by
  constructor
  · intro c hc
    rcases List.mem_append.1 hc with hc | hc
    · exact isAsciiDigit_of_mem_digitsOf hc
    · rw [List.eq_of_mem_replicate hc]
      decide
  · rw [ofDigits_append, ofDigits_replicate, ofDigits_digitsOf, List.length_replicate, Nat.add_zero]

/-- Zeros and the digits of a number behind them. -/
theorem digits_padded (k n : Nat) :
    (∀ c ∈ List.replicate k '0' ++ digitsOf n, isAsciiDigit c = true) ∧
      ofDigits (List.replicate k '0' ++ digitsOf n) = n := by
  constructor
  · intro c hc
    rcases List.mem_append.1 hc with hc | hc
    · rw [List.eq_of_mem_replicate hc]
      decide
    · exact isAsciiDigit_of_mem_digitsOf hc
  · rw [ofDigits_append, ofDigits_replicate, ofDigits_digitsOf, Nat.zero_mul, Nat.zero_add]

/-- A run of characters of one class and what stands behind it. -/
theorem run_append {p : Char → Bool} {x t : Text} (hx : ∀ c ∈ x, p c = true)
    (ht : ∀ c, t.head? = some c → p c = false) :
    (x ++ t).takeWhile p = x ∧ (x ++ t).dropWhile p = t := by
  rw [List.takeWhile_append_of_pos hx, List.dropWhile_append_of_pos hx]
  cases t with
  | nil => simp
  | cons c t => simp [ht c rfl]

/-! ## Counting digits -/

theorem digitCount_pos (n : Nat) : 0 < digitCount n := Nat.length_toDigits_pos

theorem digitCount_le_iff {n k : Nat} (hk : 0 < k) : digitCount n ≤ k ↔ n < tenTo k :=
  Nat.length_toDigits_le_iff (by decide) hk

theorem lt_tenTo_digitCount (n : Nat) : n < tenTo (digitCount n) :=
  (digitCount_le_iff (digitCount_pos n)).1 (Nat.le_refl _)

theorem tenTo_le_of_ne_zero {n : Nat} (h : n ≠ 0) : tenTo (digitCount n - 1) ≤ n := by
  rcases Nat.eq_zero_or_pos (digitCount n - 1) with hzero | hpos
  · rw [hzero]
    exact Nat.pos_of_ne_zero h
  · refine Nat.le_of_not_lt fun hlt => ?_
    have := (digitCount_le_iff hpos).2 hlt
    omega

theorem digitValue_le {c : Char} (h : isAsciiDigit c = true) : digitValue c ≤ 9 := by
  simp only [isAsciiDigit, Bool.and_eq_true, decide_eq_true_eq] at h
  exact Nat.sub_le_sub_right h.2 '0'.toNat

theorem ofDigits_cons (c : Char) (t : Text) :
    ofDigits (c :: t) = digitValue c * tenTo t.length + ofDigits t := by
  have happend := ofDigits_append [c] t
  rwa [show ofDigits [c] = digitValue c from Nat.zero_add _] at happend

/-- A digit goes from the front of a text to the number before it. -/
theorem mul_tenTo_cons (n : Nat) (c : Char) (t : Text) :
    n * tenTo (c :: t).length + ofDigits (c :: t) =
      (10 * n + digitValue c) * tenTo t.length + ofDigits t := by
  rw [ofDigits_cons, List.length_cons, tenTo_succ, Nat.add_mul, ← Nat.add_assoc,
    Nat.mul_left_comm, ← Nat.mul_assoc]

theorem ofDigits_lt {t : Text} (h : ∀ c ∈ t, isAsciiDigit c = true) :
    ofDigits t < tenTo t.length := by
  induction t with
  | nil => decide
  | cons c t ih =>
    have hrest := ih fun d hd => h d (List.mem_cons_of_mem c hd)
    have hmul := Nat.mul_le_mul_right (tenTo t.length) (digitValue_le (h c List.mem_cons_self))
    rw [ofDigits_cons, List.length_cons, tenTo_succ]
    omega

/-- A number other than zero does not start with zero. -/
theorem head_digitsOf_ne {n : Nat} (h : n ≠ 0) : (digitsOf n).head? ≠ some '0' := by
  intro hhead
  obtain ⟨t, ht⟩ : ∃ t, digitsOf n = '0' :: t := by
    cases hd : digitsOf n with
    | nil => exact absurd hd (digitsOf_ne_nil n)
    | cons c t =>
      rw [hd] at hhead
      exact ⟨t, by rw [Option.some.inj hhead]⟩
  have hvalue : ofDigits t = n := by
    rw [← ofDigits_digitsOf n, ht]
    rfl
  have hlt := ofDigits_lt fun c hc =>
    isAsciiDigit_of_mem_digitsOf (n := n) (ht ▸ List.mem_cons_of_mem '0' hc)
  have hle := tenTo_le_of_ne_zero h
  rw [show digitCount n = t.length + 1 from congrArg List.length ht, Nat.add_sub_cancel] at hle
  omega

/-! ## The point -/

/-- What stands around the point of a decimal with places. -/
theorem positional_point (pointZero : Bool) (n : Nat) {p : Nat} (hp : ¬ (0 : Int) ≤ -p) :
    ∃ whole places, Format.positional pointZero ⟨n, -p⟩ = whole ++ '.' :: places ∧ whole ≠ [] ∧
      (∀ c ∈ whole, isAsciiDigit c = true) ∧ (∀ c ∈ places, isAsciiDigit c = true) ∧
      ofDigits (whole ++ places) = n ∧ places.length = p ∧
      (whole.head? = some '0' → whole.length = 1) := by
  obtain ⟨hdigits, hvalue⟩ := digits_padded (p + 1 - (digitsOf n).length) n
  have htext : Format.positional pointZero ⟨n, -p⟩ =
      let padded := List.replicate (p + 1 - (digitsOf n).length) '0' ++ digitsOf n
      padded.take (padded.length - p) ++ '.' :: padded.drop (padded.length - p) := by
    simp only [Format.positional, if_neg hp, Int.neg_neg, Int.toNat_natCast]
  have hlength : p < (List.replicate (p + 1 - (digitsOf n).length) '0' ++ digitsOf n).length := by
    rw [List.length_append, List.length_replicate]
    omega
  have hfirst : (List.replicate (p + 1 - (digitsOf n).length) '0' ++ digitsOf n).length = p + 1 ∨
      (List.replicate (p + 1 - (digitsOf n).length) '0' ++ digitsOf n).head? ≠ some '0' := by
    rcases Nat.lt_or_ge p (digitsOf n).length with hlong | hshort
    · refine .inr ?_
      rw [show p + 1 - (digitsOf n).length = 0 by omega, List.replicate_zero, List.nil_append]
      exact head_digitsOf_ne (fun hzero => by
        rw [hzero, show (digitsOf 0).length = 1 from rfl] at hlong
        omega)
    · refine .inl ?_
      rw [List.length_append, List.length_replicate]
      omega
  generalize List.replicate (p + 1 - (digitsOf n).length) '0' ++ digitsOf n = padded at *
  refine ⟨_, _, htext, ?_, fun c hc => hdigits c (List.mem_of_mem_take hc),
    fun c hc => hdigits c (List.mem_of_mem_drop hc), ?_, ?_, fun hhead => ?_⟩
  · refine List.ne_nil_of_length_pos ?_
    rw [List.length_take]
    omega
  · rw [List.take_append_drop, hvalue]
  · rw [List.length_drop]
    omega
  · rw [List.length_take]
    rcases hfirst with hshort | hhead'
    · omega
    · rw [List.head?_take] at hhead
      split at hhead
      · cases hhead
      · exact absurd hhead hhead'

/-! ## The bits of a decimal -/

namespace Decimal

/-- The units of a decimal, as a ratio: above, and below for a negative exponent. -/
def above (d : Decimal) : Nat := d.digits * tenTo d.exponent.toNat * one

/-- The denominator of the ratio. -/
def below (d : Decimal) : Nat := tenTo (-d.exponent).toNat

theorem below_pos (d : Decimal) : 0 < d.below := tenTo_pos _

/-- From its top on the float nearest to a decimal is infinity. -/
theorem bitsOfUnits_of_large {d : Decimal} (h : d.digits ≠ 0) (htop : 310 < d.top) :
    bitsOfUnits d.above d.below = infinityBits := by
  have hsum : tenTo 310 * tenTo (-d.exponent).toNat ≤
      tenTo (digitCount d.digits - 1) * tenTo d.exponent.toNat := by
    rw [← tenTo_add, ← tenTo_add]
    refine tenTo_mono ?_
    rw [top] at htop
    omega
  have hle : tenTo 310 * one * d.below ≤ d.above := by
    rw [above, below, Nat.mul_right_comm]
    exact Nat.mul_le_mul_right _
      (Nat.le_trans hsum (Nat.mul_le_mul_right _ (tenTo_le_of_ne_zero h)))
  have hlarge : bitsOfUnits (tenTo 310 * one) 1 = infinityBits := by decide +kernel
  refine Nat.le_antisymm (bitsOfUnits_le _ _) ?_
  calc infinityBits = bitsOfUnits (tenTo 310 * one * d.below) (1 * d.below) := by
        rw [bitsOfUnits_mul_right _ _ _ d.below_pos, hlarge]
    _ ≤ bitsOfUnits d.above d.below := by
        rw [Nat.one_mul]
        exact bitsOfUnits_mono hle _

/-- Far below the units it is zero. -/
theorem bitsOfUnits_of_small {d : Decimal} (htop : d.top < -330) :
    bitsOfUnits d.above d.below = 0 := by
  have hsum : tenTo (digitCount d.digits) * tenTo d.exponent.toNat * tenTo 330 ≤
      tenTo (-d.exponent).toNat := by
    rw [← tenTo_add, ← tenTo_add]
    refine tenTo_mono ?_
    rw [top] at htop
    omega
  have hle : d.above * tenTo 330 ≤ one * d.below := by
    rw [above, below, Nat.mul_right_comm, Nat.mul_comm one]
    refine Nat.mul_le_mul_right _ (Nat.le_trans ?_ hsum)
    exact Nat.mul_le_mul_right _
      (Nat.mul_le_mul_right _ (Nat.le_of_lt (lt_tenTo_digitCount _)))
  have hsmall : bitsOfUnits one (tenTo 330) = 0 := by decide +kernel
  refine Nat.le_zero.1 ?_
  calc bitsOfUnits d.above d.below
      = bitsOfUnits (d.above * tenTo 330) (tenTo 330 * d.below) := by
        rw [Nat.mul_comm _ d.below, bitsOfUnits_mul_right _ _ _ (tenTo_pos 330)]
    _ ≤ bitsOfUnits (one * d.below) (tenTo 330 * d.below) := bitsOfUnits_mono hle _
    _ = 0 := by rw [bitsOfUnits_mul_right _ _ _ d.below_pos, hsmall]

/-- A decimal is read as the float nearest to it.  The short cuts change nothing. -/
theorem bits_eq (d : Decimal) : d.bits = bitsOfUnits d.above d.below := by
  unfold bits
  split
  · next h => rw [above, h, Nat.zero_mul, Nat.zero_mul, bitsOfUnits_zero]
  · next h =>
    split
    · next hlarge => rw [bitsOfUnits_of_large h hlarge]
    · split
      · next hsmall => rw [bitsOfUnits_of_small hsmall]
      · rfl

/-- Decimals of one value have the same bits. -/
theorem bits_eq_of_ratio {d e : Decimal} (h : d.above * e.below = e.above * d.below) :
    d.bits = e.bits := by
  rw [bits_eq, bits_eq, bitsOfUnits_congr d.below_pos e.below_pos h]

/-- Zeros behind the last digit change nothing if the exponent makes up for them. -/
theorem bits_mul_tenTo (n k : Nat) (e : Int) :
    (⟨n * tenTo k, e⟩ : Decimal).bits = (⟨n, e + k⟩ : Decimal).bits := by
  refine bits_eq_of_ratio ?_
  have hpower : tenTo k * tenTo e.toNat * tenTo (-(e + k)).toNat =
      tenTo (e + k).toNat * tenTo (-e).toNat := by
    rw [← tenTo_add, ← tenTo_add, ← tenTo_add]
    congr 1
    omega
  show n * tenTo k * tenTo e.toNat * one * tenTo (-(e + k)).toNat =
    n * tenTo (e + k).toNat * one * tenTo (-e).toNat
  rw [Nat.mul_right_comm _ one, Nat.mul_right_comm _ one, Nat.mul_assoc n, Nat.mul_assoc n, hpower,
    ← Nat.mul_assoc]

end Decimal

end Reckoner.Number

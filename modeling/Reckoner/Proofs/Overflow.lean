import Mathlib.Data.List.TakeWhile
import Reckoner.Basic
import Reckoner.Proofs.NumberText

/-!
# Numbers beyond the floats

A JSON number is read as a finite float or refused (`Numeral.isFinite_value`).  It is refused if
the float that its digits and its power of ten lead to is infinite.

That is nearly always so where the float nearest to the number is infinite, which is from
`limit` on (`Decimal.bits_eq_infinity_iff`).  The digits that do not fit into the significand are
less than ten in its last place (`Numeral.InDigits.kept_cases`), and they never decide.
But the significand and the power of ten are rounded before their product is.  For `10^291` both
are rounded down, and there the digits just above the limit, nineteen of them, are read as the
greatest float (`Numeral.value?_of_roundedDown`).  All other numbers from the limit on are refused
(`Numeral.value?_of_infinite`), however they are written.
-/

namespace Reckoner.Number

/-- The value of a decimal is at least a whole number. -/
def Decimal.AtLeast (d : Decimal) (n : Nat) : Prop :=
  n * tenTo (-d.exponent).toNat ≤ d.digits * tenTo d.exponent.toNat

instance (d : Decimal) (n : Nat) : Decidable (d.AtLeast n) := inferInstanceAs (Decidable (_ ≤ _))

theorem Decimal.AtLeast.le {d : Decimal} {m n : Nat} (h : d.AtLeast n) (hle : m ≤ n) :
    d.AtLeast m :=
  Nat.le_trans (Nat.mul_le_mul_right _ hle) h

/-- With a greater power of ten the digits are at least as much. -/
theorem Decimal.AtLeast.le_mul {d : Decimal} {n k : Nat} (h : d.AtLeast n) (hle : d.exponent ≤ k) :
    n ≤ d.digits * tenTo k := by
  refine Nat.le_of_mul_le_mul_right ?_ (tenTo_pos (-d.exponent).toNat)
  calc n * tenTo (-d.exponent).toNat
      ≤ d.digits * tenTo d.exponent.toNat := h
    _ ≤ d.digits * tenTo (k + (-d.exponent).toNat) :=
        Nat.mul_le_mul_left _ (tenTo_mono (by omega))
    _ = d.digits * tenTo k * tenTo (-d.exponent).toNat := by rw [tenTo_add, Nat.mul_assoc]

/-- Without a negative exponent only the digits and their power of ten count. -/
theorem Decimal.atLeast_of_le_mul {d : Decimal} {n : Nat} (hsign : 0 ≤ d.exponent)
    (h : n ≤ d.digits * tenTo d.exponent.toNat) : d.AtLeast n := by
  rw [AtLeast, show (-d.exponent).toNat = 0 by omega]
  exact (Nat.mul_one n).symm ▸ h

/-- Digits with places cut off, and enough added for them. -/
theorem Decimal.AtLeast.of_digits_le {d : Decimal} {n m g : Nat} {e : Int} (h : d.AtLeast n)
    (hexponent : d.exponent + g = e) (hdigits : d.digits ≤ m * tenTo g) :
    (⟨m, e⟩ : Decimal).AtLeast n := by
  have hpower : tenTo g * tenTo d.exponent.toNat * tenTo (-e).toNat =
      tenTo e.toNat * tenTo (-d.exponent).toNat := by
    rw [← tenTo_add, ← tenTo_add, ← tenTo_add]
    congr 1
    omega
  refine Nat.le_of_mul_le_mul_right ?_ (tenTo_pos (-d.exponent).toNat)
  calc n * tenTo (-e).toNat * tenTo (-d.exponent).toNat
      = n * tenTo (-d.exponent).toNat * tenTo (-e).toNat := Nat.mul_right_comm _ _ _
    _ ≤ d.digits * tenTo d.exponent.toNat * tenTo (-e).toNat := Nat.mul_le_mul_right _ h
    _ ≤ m * tenTo g * tenTo d.exponent.toNat * tenTo (-e).toNat :=
        Nat.mul_le_mul_right _ (Nat.mul_le_mul_right _ hdigits)
    _ = m * tenTo e.toNat * tenTo (-d.exponent).toNat := by
        rw [Nat.mul_assoc m, Nat.mul_assoc m, hpower, Nat.mul_assoc m]

/-- Less than the limit is not beyond the floats. -/
theorem bits_lt_of_lt_limit {num den : Nat} (hden : 0 < den) (h : num < limit * one * den) :
    bitsOfUnits num den < infinityBits := by
  rcases Nat.lt_or_ge (unitsOfBits (infinityBits - 1) * den) num with hlt | hle
  · -- Between the greatest float and the limit the nearest float is the greatest one.
    have hgreatest : unitsOfBits (infinityBits - 1) * den = (2 * octave - 1) * den <<< 2045 := by
      rw [show unitsOfBits (infinityBits - 1) = (2 * octave - 1) * 1 <<< 2045 by decide +kernel,
        Nat.mul_right_comm, Nat.mul_assoc, mul_one_shiftLeft]
    have hlimit : 2 * (limit * one * den) = (4 * octave - 1) * den <<< 2045 := by
      rw [← Nat.mul_assoc, show 2 * (limit * one) = (4 * octave - 1) * 1 <<< 2045 by decide +kernel,
        Nat.mul_right_comm, Nat.mul_assoc, mul_one_shiftLeft]
    rw [hgreatest] at hlt
    simp only [octave] at hlt hlimit
    have hcount : bitsOfUnits num den = min infinityBits (2045 * octave + (2 * octave - 1)) := by
      refine bitsOfUnits_count hden (.inr ?_) ?_ ?_ ?_ <;> simp only [octave] <;> omega
    rw [hcount]
    decide
  · refine Nat.lt_of_le_of_lt (bitsOfUnits_mono hle den) ?_
    have hsame := bitsOfUnits_mul_right (unitsOfBits (infinityBits - 1)) 1 den hden
    rw [Nat.one_mul, bitsOfUnits_unitsOfBits (Nat.sub_le _ _)] at hsame
    rw [hsame]
    decide

/-- The float nearest to a decimal is infinite from the limit on. -/
theorem Decimal.bits_eq_infinity_iff {d : Decimal} : d.bits = infinityBits ↔ d.AtLeast limit := by
  rw [bits_eq, AtLeast]
  constructor
  · intro h
    refine Nat.le_of_not_lt fun hlt => Nat.ne_of_lt (bits_lt_of_lt_limit d.below_pos ?_) h
    rw [above, below, Nat.mul_right_comm limit]
    exact Nat.mul_lt_mul_of_pos_right hlt one_units_pos
  · intro h
    have hlimit : bitsOfUnits (limit * one) 1 = infinityBits := by decide +kernel
    refine Nat.le_antisymm (bitsOfUnits_le _ _) ?_
    rw [← hlimit, ← bitsOfUnits_mul_right _ 1 _ d.below_pos, Nat.one_mul]
    refine bitsOfUnits_mono ?_ _
    rw [above, below, Nat.mul_right_comm limit]
    exact Nat.mul_le_mul_right one h

end Reckoner.Number

namespace Reckoner.Json

open Number
open Text (isAsciiDigit)

/-! ## A number that is read is finite -/

theorem div_powerOfTen_inv {x : Float} {b n : Nat} (hx : x = ofMagnitude false b)
    (hb : b < infinityBits) (hn : n ≤ greatestPower) :
    ∃ c < infinityBits, x / powerOfTen n = ofMagnitude false c :=
  ⟨_, bits_quotient_lt hb (tenTo_pos n), by rw [hx, div_powerOfTen hb hn]⟩

/-- A positive float that is scaled is a positive float, and not infinite. -/
theorem scale_inv {x y : Float} {e : Int} {b : Nat} (hx : x = ofMagnitude false b)
    (hb : b < infinityBits) (h : scale x e = some y) :
    ∃ c < infinityBits, y = ofMagnitude false c := by
  fun_induction scale x e generalizing b with
  | case1 => cases h
  | case2 x e hsmall hsign product =>
    rename_i hfinite
    have hproduct : product = x * powerOfTen e.natAbs := rfl
    rw [hx, mul_powerOfTen hb hsmall] at hproduct
    rw [hproduct, isInfinite_ofMagnitude false (bitsOfUnits_le _ _), decide_eq_true_iff] at hfinite
    exact ⟨_, Nat.lt_of_le_of_ne (bitsOfUnits_le _ _) hfinite,
      (Option.some.inj h).symm.trans hproduct⟩
  | case3 x e hsmall hsign =>
    cases h
    exact div_powerOfTen_inv hx hb hsmall
  | case4 x e hlarge hzero =>
    cases h
    exact ⟨b, hb, hx⟩
  | case5 => cases h
  | case6 x e hlarge hzero hsign ih =>
    obtain ⟨c, hc, hx⟩ := div_powerOfTen_inv hx hb (Nat.le_refl greatestPower)
    exact ih hx hc h

/-! ## The digits of a number -/

/-- Both parts of a number are digits. -/
structure Numeral.InDigits (n : Numeral) : Prop where
  /-- The integer part has digits. -/
  whole : ∀ c ∈ n.whole, isAsciiDigit c = true
  /-- The fraction has digits. -/
  places : ∀ c ∈ n.places, isAsciiDigit c = true

section Digits

variable {atEnd : Fault} {s t r : Text} {n : Numeral}

theorem digits_of_someDigits (h : someDigits atEnd t = .ok (s, r)) :
    ∀ c ∈ s, isAsciiDigit c = true := by
  unfold someDigits at h
  split at h
  · cases h
  · split at h
    · cases h
    · cases h
      exact fun c hc => List.mem_takeWhile_imp hc

theorem digits_of_wholePart (h : wholePart atEnd t = .ok (s, r)) :
    ∀ c ∈ s, isAsciiDigit c = true := by
  unfold wholePart at h
  split at h
  · cases h
  · next hdigits =>
    split at h
    · cases h
    · cases h
      exact digits_of_someDigits hdigits

theorem digits_of_fraction (h : fraction atEnd t = .ok (s, r)) :
    ∀ c ∈ s, isAsciiDigit c = true := by
  unfold fraction at h
  split at h
  · exact digits_of_someDigits h
  · cases h
    exact fun c hc => absurd hc List.not_mem_nil

theorem inDigits_of_numeral (h : numeral atEnd t = .ok (n, r)) : n.InDigits := by
  have hunsigned {negative : Bool} {t : Text}
      (h : unsignedNumeral atEnd negative t = .ok (n, r)) : n.InDigits := by
    rw [unsignedNumeral] at h
    obtain ⟨⟨whole, t₁⟩, hwhole, h⟩ := exists_of_bind_eq_ok h
    obtain ⟨⟨places, t₂⟩, hplaces, h⟩ := exists_of_bind_eq_ok h
    obtain ⟨⟨e, t₃⟩, -, h⟩ := exists_of_bind_eq_ok h
    cases h
    exact ⟨digits_of_wholePart hwhole, digits_of_fraction hplaces⟩
  unfold numeral at h
  split at h <;> exact hunsigned h

theorem start_of_unsignedNumeral {negative : Bool}
    (h : unsignedNumeral atEnd negative t = .ok (n, r)) :
    ∃ c q, t = c :: q ∧ isAsciiDigit c = true := by
  rw [unsignedNumeral] at h
  obtain ⟨⟨whole, t₁⟩, hwhole, -⟩ := exists_of_bind_eq_ok h
  rw [wholePart, someDigits] at hwhole
  cases t with
  | nil => cases hwhole
  | cons c q =>
    refine ⟨c, q, rfl, Decidable.by_contra fun hc => ?_⟩
    rw [if_neg (List.cons_ne_nil c q), List.takeWhile_cons_of_neg hc, if_pos rfl] at hwhole
    cases hwhole

/-- A number starts with a minus or a digit. -/
theorem start_of_numeral (h : numeral atEnd t = .ok (n, r)) :
    ∃ c q, t = c :: q ∧ (c = '-' ∨ isAsciiDigit c = true) := by
  unfold numeral at h
  split at h
  · next q => exact ⟨'-', q, rfl, .inl rfl⟩
  · obtain ⟨c, q, rfl, hc⟩ := start_of_unsignedNumeral h
    exact ⟨c, q, rfl, .inr hc⟩

end Digits

/-! ## The digits that are kept -/

/-- The digits that fit into the significand, and the power of ten that goes with them. -/
def Numeral.kept (n : Numeral) : Decimal :=
  let (significand, dropped) := absorb 0 n.whole
  let (significand, left) := absorb significand n.places
  ⟨significand, dropped.length - (n.places.length - left.length) + n.exponent⟩

theorem Numeral.value?_kept (n : Numeral) :
    n.value? = (scale (ofRatio false n.kept.digits 1) n.kept.exponent).map fun x =>
      if n.negative then -x else x := rfl

/-- A significand is not beyond the floats. -/
theorem bits_significand_lt {m : Nat} (h : m < significandBound) :
    bitsOfUnits (m * one) 1 < infinityBits :=
  bits_whole_lt (Nat.le_trans (Nat.le_of_lt h) (by decide +kernel))

theorem absorb_lt {m : Nat} (h : m < significandBound) (t : Text) :
    (absorb m t).1 < significandBound := by
  fun_induction absorb m t with
  | case1 => exact h
  | case2 m c t hfits ih => exact ih hfits
  | case3 => exact h

/-- A significand takes the first digits of a text, and the next one does not fit. -/
theorem absorb_inv {t : Text} (hdigits : ∀ c ∈ t, isAsciiDigit c = true) (m : Nat) :
    ∃ s, t = s ++ (absorb m t).2 ∧ (absorb m t).1 = m * tenTo s.length + ofDigits s ∧
      ((absorb m t).2 ≠ [] → significandBound ≤ 10 * (absorb m t).1 + 9) := by
  fun_induction absorb m t with
  | case1 m => exact ⟨[], rfl, by simp [tenTo, ofDigits], fun h => absurd rfl h⟩
  | case2 m c t hfits ih =>
    obtain ⟨s, ht, hvalue, hnext⟩ := ih fun d hd => hdigits d (List.mem_cons_of_mem c hd)
    refine ⟨c :: s, by rw [List.cons_append, ← ht], ?_, hnext⟩
    rw [hvalue, mul_tenTo_cons]
  | case3 m c t hfits =>
    refine ⟨[], rfl, by simp [tenTo, ofDigits], fun _ => ?_⟩
    have := digitValue_le (hdigits c List.mem_cons_self)
    show significandBound ≤ 10 * m + 9
    omega

/-- The digits that are kept are the first ones of the integer part and of the fraction.  Where
others are dropped the next one does not fit. -/
theorem Numeral.InDigits.exists_kept {n : Numeral} (h : n.InDigits) :
    ∃ s dropped s' left, n.whole = s ++ dropped ∧ n.places = s' ++ left ∧
      n.kept = ⟨ofDigits (s ++ s'), n.exponent + dropped.length - s'.length⟩ ∧
      (dropped ≠ [] → significandBound ≤ 10 * ofDigits s + 9) ∧
      (left ≠ [] → significandBound ≤ 10 * ofDigits (s ++ s') + 9) ∧
      ofDigits (s ++ s') < significandBound := by
  obtain ⟨s, hs, hvalue, hnext⟩ := absorb_inv h.whole 0
  obtain ⟨s', hs', hvalue', hnext'⟩ := absorb_inv h.places (absorb 0 n.whole).1
  have hlt := absorb_lt (absorb_lt (by decide) n.whole : (absorb 0 n.whole).1 < _) n.places
  rw [Nat.zero_mul, Nat.zero_add] at hvalue
  replace hvalue' : (absorb (absorb 0 n.whole).1 n.places).1 = ofDigits (s ++ s') := by
    rw [hvalue', hvalue, ofDigits_append]
  rw [hvalue'] at hlt hnext'
  refine ⟨s, _, s', _, hs, hs', ?_, fun hne => hvalue ▸ hnext hne, hnext', hlt⟩
  have hlength := congrArg List.length hs'
  rw [List.length_append] at hlength
  have hexponent : ((absorb 0 n.whole).2.length -
      (n.places.length - (absorb (absorb 0 n.whole).1 n.places).2.length) + n.exponent : Int) =
      n.exponent + (absorb 0 n.whole).2.length - s'.length := by
    omega
  rw [← hvalue', ← hexponent]
  rfl

/-- The digits of a text in two parts, from those of the first part. -/
theorem ofDigits_append_le {s t : Text} (ht : ∀ c ∈ t, isAsciiDigit c = true) :
    ofDigits (s ++ t) ≤ (ofDigits s + 1) * tenTo t.length := by
  have := ofDigits_lt ht
  rw [ofDigits_append, Nat.succ_mul]
  omega

/-- After a digit that does not fit at most one more is taken. -/
theorem tenTo_length_le {s t : Text} (hnext : significandBound ≤ 10 * ofDigits s + 9)
    (h : ofDigits (s ++ t) < significandBound) : tenTo t.length ≤ 10 := by
  refine Nat.le_of_not_lt fun hlt => ?_
  have hlength : 2 ≤ t.length := by
    refine Nat.le_of_not_lt fun hle => ?_
    exact absurd (tenTo_mono (Nat.le_of_lt_succ hle)) (Nat.not_le.2 hlt)
  have hmul := Nat.mul_le_mul_left (ofDigits s) (tenTo_mono hlength)
  rw [show tenTo 2 = 100 from rfl] at hmul
  rw [ofDigits_append] at h
  rw [significandBound] at *
  omega

/-- Either all digits of a number are kept, or so many that the others are less than ten in the
last place. -/
theorem Numeral.InDigits.kept_cases {n : Numeral} (h : n.InDigits) :
    n.kept = n.decimal ∨ significandBound ≤ 10 * n.kept.digits + 9 ∧
      ∃ g : Nat, n.decimal.exponent + g = n.kept.exponent ∧
        n.decimal.digits ≤ (n.kept.digits + 10) * tenTo g := by
  obtain ⟨s, dropped, s', left, hs, hs', hkept, hnext, hnext', hlt⟩ := h.exists_kept
  obtain ⟨hwhole, hplaces⟩ := h
  rw [hs] at hwhole
  rw [hs'] at hplaces
  rw [hkept, Numeral.decimal, hs, hs']
  dsimp only
  have hexponent : n.exponent - (s' ++ left).length + (dropped.length + left.length : Nat) =
      n.exponent + dropped.length - s'.length := by
    rw [List.length_append]
    omega
  rcases eq_or_ne dropped [] with rfl | hdropped
  · rcases eq_or_ne left [] with rfl | hleft
    · left
      simp
    · refine .inr ⟨hnext' hleft, _, hexponent, ?_⟩
      rw [List.append_nil, ← List.append_assoc, List.length_nil, Nat.zero_add]
      refine Nat.le_trans (ofDigits_append_le fun c hc => hplaces c (List.mem_append_right _ hc))
        (Nat.mul_le_mul_right _ (by omega))
  · have hpower := tenTo_length_le (hnext hdropped) hlt
    have hrest : ∀ c ∈ dropped ++ (s' ++ left), isAsciiDigit c = true := by
      intro c hc
      rcases List.mem_append.1 hc with hc | hc
      · exact hwhole c (List.mem_append_right _ hc)
      · exact hplaces c hc
    have hle : ofDigits s * tenTo s'.length ≤ ofDigits (s ++ s') := by
      rw [ofDigits_append]
      exact Nat.le_add_right _ _
    have hge : ofDigits s ≤ ofDigits (s ++ s') :=
      Nat.le_trans (Nat.le_mul_of_pos_right _ (tenTo_pos _)) hle
    refine .inr ⟨by have := hnext hdropped; omega, _, hexponent, ?_⟩
    calc ofDigits (s ++ dropped ++ (s' ++ left))
        ≤ (ofDigits s + 1) * tenTo (dropped ++ (s' ++ left)).length := by
          rw [List.append_assoc]
          exact ofDigits_append_le hrest
      _ = (ofDigits s * tenTo s'.length + tenTo s'.length) *
            tenTo (dropped.length + left.length) := by
          rw [← Nat.succ_mul, Nat.mul_assoc, ← tenTo_add, List.length_append, List.length_append,
            Nat.add_left_comm]
      _ ≤ (ofDigits (s ++ s') + 10) * tenTo (dropped.length + left.length) :=
          Nat.mul_le_mul_right _ (Nat.add_le_add hle hpower)

/-! ## Beyond the floats -/

/-- Of a number beyond the floats at least this is kept. -/
def keptBound : Nat := limit - tenTo 290

theorem atLeast_kept {m : Nat} {e : Int} (hm : significandBound ≤ 10 * m + 9)
    (h : (⟨m + 10, e⟩ : Decimal).AtLeast limit) : (⟨m, e⟩ : Decimal).AtLeast keptBound := by
  rcases Int.lt_or_le 289 e with hlarge | hsmall
  · -- So many digits are enough with such a power of ten, whatever they are.
    have hleast : 1844674407370955161 ≤ m := by
      rw [significandBound] at hm
      omega
    refine Decimal.atLeast_of_le_mul (by omega : (0 : Int) ≤ e) ?_
    calc keptBound ≤ 1844674407370955161 * tenTo 290 := by decide +kernel
      _ ≤ m * tenTo e.toNat := Nat.mul_le_mul hleast (tenTo_mono (by omega))
  · have hten : 10 * tenTo e.toNat ≤ tenTo 290 * tenTo (-e).toNat := by
      rw [← tenTo_succ, ← tenTo_add]
      exact tenTo_mono (by omega)
    replace h : limit * tenTo (-e).toNat ≤ (m + 10) * tenTo e.toNat := h
    show (limit - tenTo 290) * tenTo (-e).toNat ≤ m * tenTo e.toNat
    rw [Nat.add_mul] at h
    rw [Nat.sub_mul]
    omega

/-- The least digits that are refused with a power of ten. -/
def leastRefused (n : Nat) : Nat :=
  if n = 291 then 179769313486231600 else (keptBound - 1) / tenTo n + 1

/-- Even with the least digits the product is infinite. -/
theorem bits_leastRefused {m n : Nat} (hlow : 289 ≤ n) (hhigh : n ≤ greatestPower)
    (h : leastRefused n ≤ m) :
    bitsOfUnits (wholeUnits m * wholeUnits (tenTo n)) one = infinityBits := by
  have hcheck : ∀ k < 20, bitsOfUnits
      (wholeUnits (leastRefused (289 + k)) * wholeUnits (tenTo (289 + k))) one = infinityBits := by
    decide +kernel
  have hinfinite := hcheck (n - 289) (by rw [greatestPower] at hhigh; omega)
  rw [Nat.add_sub_cancel' hlow] at hinfinite
  refine Nat.le_antisymm (bitsOfUnits_le _ _) ?_
  rw [← hinfinite]
  exact bitsOfUnits_mono (Nat.mul_le_mul_right _ (wholeUnits_mono h)) one

/-- Decimals that the float nearest to them is infinite for, and that are read as the greatest
float. -/
def RoundedDown (d : Decimal) : Prop :=
  d.exponent = 291 ∧ 179769313486231580 < d.digits ∧ d.digits < 179769313486231600

instance (d : Decimal) : Decidable (RoundedDown d) :=
  inferInstanceAs (Decidable (_ ∧ _ ∧ _))

/-- What is kept of a number beyond the floats is refused but for these. -/
theorem scale_of_atLeast {d : Decimal} (hdigits : d.digits < significandBound)
    (h : d.AtLeast keptBound) (hdown : ¬ RoundedDown d) :
    scale (ofRatio false d.digits 1) d.exponent = none := by
  have hlow : 289 ≤ d.exponent := by
    refine Int.not_lt.1 fun hlt => ?_
    have hle := h.le_mul (k := 288) (by omega)
    have hless := Nat.mul_lt_mul_of_pos_right hdigits (tenTo_pos 288)
    have hbound : significandBound * tenTo 288 ≤ keptBound := by decide +kernel
    omega
  have hle := h.le_mul (k := d.exponent.natAbs) (by omega)
  have hkept : 0 < keptBound := by decide +kernel
  have hpositive : 0 < d.digits := by
    refine Nat.pos_of_ne_zero fun hzero => ?_
    rw [hzero, Nat.zero_mul] at hle
    omega
  have hdivided : (keptBound - 1) / tenTo d.exponent.natAbs + 1 ≤ d.digits := by
    refine Nat.div_lt_of_lt_mul ?_
    rw [Nat.mul_comm]
    omega
  have hwhole := bits_significand_lt hdigits
  rw [scale, ofRatio_one]
  by_cases hsmall : d.exponent.natAbs ≤ greatestPower
  · have hleast : leastRefused d.exponent.natAbs ≤ d.digits := by
      rw [leastRefused]
      split
      · next hexponent =>
        refine Nat.le_of_not_lt fun hlt => hdown ⟨by omega, ?_, hlt⟩
        rw [hexponent, show (keptBound - 1) / tenTo 291 = 179769313486231580 by decide +kernel]
          at hdivided
        omega
      · exact hdivided
    have hinfinite := bits_leastRefused (by omega) hsmall hleast
    rw [wholeUnits] at hinfinite
    rw [if_pos hsmall, if_pos (by omega), mul_powerOfTen hwhole hsmall, hinfinite]
    rfl
  · rw [if_neg hsmall, beq_zero_ofMagnitude hwhole (bits_whole_ne_zero hpositive),
      if_neg Bool.false_ne_true, if_pos (by omega)]

theorem Numeral.digits_kept_lt (n : Numeral) : n.kept.digits < significandBound :=
  absorb_lt (absorb_lt (by decide : 0 < significandBound) n.whole) n.places

/-- A number beyond the floats is refused, however it is written, but for those that are read as
the greatest float. -/
theorem Numeral.value?_of_infinite {n : Numeral} (hdigits : n.InDigits)
    (h : n.decimal.bits = infinityBits) (hdown : ¬ RoundedDown n.decimal) : n.value? = none := by
  have hlimit := Decimal.bits_eq_infinity_iff.1 h
  rw [n.value?_kept]
  rcases hdigits.kept_cases with heq | ⟨hm, g, hexponent, hle⟩
  · rw [scale_of_atLeast n.digits_kept_lt (heq ▸ hlimit.le (Nat.sub_le _ _)) (heq ▸ hdown)]
    rfl
  · have hmore : ¬ RoundedDown n.kept := by
      intro hdown
      rw [significandBound] at hm
      have := hdown.2.2
      omega
    rw [scale_of_atLeast n.digits_kept_lt (atLeast_kept hm (hlimit.of_digits_le hexponent hle))
      hmore]
    rfl

/-- The numbers that are rounded down are beyond the floats, and read as the greatest one. -/
theorem Numeral.value?_of_roundedDown {n : Numeral} (h : RoundedDown n.decimal) :
    n.decimal.bits = infinityBits ∧
      n.value? = some (ofMagnitude n.negative (infinityBits - 1)) := by
  obtain ⟨hexponent, hlow, hhigh⟩ := h
  have hfits : n.decimal.digits < significandBound := Nat.lt_trans hhigh (by decide)
  constructor
  · refine Decimal.bits_eq_infinity_iff.2 (Decimal.atLeast_of_le_mul (by omega) ?_)
    rw [hexponent]
    calc limit ≤ 179769313486231581 * tenTo 291 := by decide +kernel
      _ ≤ n.decimal.digits * tenTo (291 : Int).toNat := Nat.mul_le_mul_right _ hlow
  · have hcheck : ∀ k < 19, bitsOfUnits
        (wholeUnits (179769313486231581 + k) * wholeUnits (tenTo 291)) one = infinityBits - 1 := by
      decide +kernel
    have hgreatest := hcheck (n.decimal.digits - 179769313486231581) (by omega)
    rw [Nat.add_sub_cancel' hlow, wholeUnits] at hgreatest
    rw [Numeral.value?_eq hfits, scale, hexponent, if_pos (by decide), if_pos (by decide),
      ofRatio_one, mul_powerOfTen (bits_significand_lt hfits) (by decide)]
    dsimp only [Int.natAbs]
    rw [hgreatest, isInfinite_ofMagnitude false (Nat.sub_le _ _)]
    cases n.negative with
    | true => exact congrArg some (neg_ofMagnitude false (Nat.sub_le _ _))
    | false => rfl

/-- What a number is read as is finite. -/
theorem Numeral.isFinite_value {n : Numeral} {x : Float} (h : n.value? = some x) :
    isFinite x = true := by
  rw [n.value?_kept, Option.map_eq_some_iff] at h
  obtain ⟨y, hy, rfl⟩ := h
  obtain ⟨c, hc, rfl⟩ := scale_inv (ofRatio_one _) (bits_significand_lt n.digits_kept_lt) hy
  split
  · rw [neg_ofMagnitude false (Nat.le_of_lt hc)]
    exact isFinite_ofMagnitude _ hc
  · exact isFinite_ofMagnitude false hc

theorem isFinite_of_number {t r : Text} {x : Float} (h : number t = .ok (x, r)) :
    isFinite x = true := by
  unfold number at h
  split at h
  · cases h
  · split at h
    · next hvalue =>
      cases h
      exact Numeral.isFinite_value hvalue
    · cases h

end Reckoner.Json

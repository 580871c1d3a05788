import Reckoner.Proofs.Bits

/-!
# The order of floats

Floats are compared by sign, exponent and mantissa, and the two zeros are equal.  What is not a
number is in no order to anything (`not_le_of_isNaN`).

All others are in the order of one whole number, their bits without the sign, taken with the sign
(`rank`).  For finite floats this is so because the bits count the floats (`compare_bits`), and the
infinities have more bits than any.  So `≤` is total on the floats that are numbers
(`le_iff_rank`), and no two of them but the zeros share a rank (`eq_of_rank`).
-/

namespace Reckoner.Number

open Float.Model (UnpackedFloat)

/-! ## Comparing bits -/

/-- A greater number of bits has a greater exponent, or the same one and a greater mantissa. -/
theorem exponent_mantissa_lt {b c : Nat} (h : b < c) :
    exponentOf b < exponentOf c ∨ exponentOf b = exponentOf c ∧ mantissaOf b < mantissaOf c := by
  have hb := bits_eq b
  have hc := bits_eq c
  obtain ⟨hltb, hleb, hfullb⟩ := fits_bits b
  obtain ⟨hltc, hlec, hfullc⟩ := fits_bits c
  generalize exponentOf b = e at *
  generalize exponentOf c = f at *
  generalize mantissaOf b = m at *
  generalize mantissaOf c = n at *
  simp only [octave] at *
  omega

theorem compare_bits_of_lt {b c : Nat} (h : b < c) :
    (compare (exponentOf b) (exponentOf c)).then (compare (mantissaOf b) (mantissaOf c)) = .lt := by
  rcases exponent_mantissa_lt h with he | ⟨he, hm⟩
  · rw [Int.compare_eq_lt.2 he]
    rfl
  · rw [he, Int.compare_eq_eq.2 rfl, Nat.compare_eq_lt.2 hm]
    rfl

/-- To compare exponents and then mantissas is to compare the bits. -/
theorem compare_bits (b c : Nat) :
    (compare (exponentOf b) (exponentOf c)).then (compare (mantissaOf b) (mantissaOf c)) =
      compare (b : Int) c := by
  rcases Nat.lt_trichotomy b c with h | rfl | h
  · rw [compare_bits_of_lt h, Int.compare_eq_lt.2 (Int.ofNat_lt.2 h)]
  · simp
  · rw [Int.compare_eq_gt.2 (Int.ofNat_lt.2 h), ← Int.compare_swap, ← Nat.compare_swap,
      ← Ordering.swap_then, compare_bits_of_lt h]
    rfl

/-! ## Comparing with signs -/

/-- A number of bits with a sign. -/
def withSign (negative : Bool) (b : Nat) : Int := if negative then -b else b

@[simp] theorem withSign_false (b : Nat) : withSign false b = b := rfl

@[simp] theorem withSign_true (b : Nat) : withSign true b = -b := rfl

theorem compare_neg (m n : Int) : compare (-m) (-n) = compare n m := by
  simp only [Int.compare_eq_ite_lt, Int.neg_lt_neg_iff]

theorem some_eq_compare {o : Ordering} {m n : Int}
    (h : (o = .lt → m < n) ∧ (o = .eq → m = n) ∧ (o = .gt → n < m)) :
    some o = some (compare m n) := by
  obtain ⟨hlt, heq, hgt⟩ := h
  cases o with
  | lt => rw [Int.compare_eq_lt.2 (hlt rfl)]
  | eq => rw [Int.compare_eq_eq.2 (heq rfl)]
  | gt => rw [Int.compare_eq_gt.2 (hgt rfl)]

/-- The bits of zero and of infinity, which have a form of their own. -/
def ends : List Nat := [0, infinityBits]

theorem not_mem_ends {b : Nat} (hle : b ≤ infinityBits) (h : b ∉ ends) :
    b < infinityBits ∧ b ≠ 0 := by
  simp only [ends, List.mem_cons, List.not_mem_nil, or_false, not_or] at h
  exact ⟨Nat.lt_of_le_of_ne hle h.2, h.1⟩

theorem compare_ends : ∀ s t : Bool, ∀ b ∈ ends, ∀ c ∈ ends,
    (unpacked s b).compare (unpacked t c) = some (compare (withSign s b) (withSign t c)) := by
  decide +kernel

/-- Floats that are numbers are compared by their bits, taken with the sign. -/
theorem compare_unpacked (s t : Bool) {b c : Nat} (hb : b ≤ infinityBits) (hc : c ≤ infinityBits) :
    (unpacked s b).compare (unpacked t c) = some (compare (withSign s b) (withSign t c)) := by
  -- The ends have no exponent and mantissa to compare.  Between an end and any other float it is
  -- the signs that decide, and which end it is.
  by_cases hbends : b ∈ ends
  · by_cases hcends : c ∈ ends
    · exact compare_ends s t b hbends c hcends
    · obtain ⟨hc, hc0⟩ := not_mem_ends hc hcends
      rw [unpacked_finite t hc hc0]
      obtain rfl | rfl : b = 0 ∨ b = infinityBits := by simpa [ends] using hbends
      · cases s <;> cases t <;> exact some_eq_compare (by simp; omega)
      · cases s <;> cases t <;> exact some_eq_compare (by simp; omega)
  · obtain ⟨hb, hb0⟩ := not_mem_ends hb hbends
    rw [unpacked_finite s hb hb0]
    by_cases hcends : c ∈ ends
    · obtain rfl | rfl : c = 0 ∨ c = infinityBits := by simpa [ends] using hcends
      · cases s <;> cases t <;> exact some_eq_compare (by simp; omega)
      · cases s <;> cases t <;> exact some_eq_compare (by simp; omega)
    · obtain ⟨hc, hc0⟩ := not_mem_ends hc hcends
      rw [unpacked_finite t hc hc0]
      cases s with
      | false =>
        cases t with
        | false => exact congrArg some (compare_bits b c)
        | true => exact some_eq_compare (by simp; omega)
      | true =>
        cases t with
        | false => exact some_eq_compare (by simp; omega)
        | true =>
          refine congrArg some ?_
          rw [compare_bits, Int.compare_swap, withSign_true, withSign_true, compare_neg]

/-! ## The rank of a float -/

/-- The place of a float in the order of floats. -/
def rank (x : Float) : Int := withSign (isNegative x) (magnitudeBits x)

variable {x y : Float}

theorem magnitudeBits_le (h : isNaN x = false) : magnitudeBits x ≤ infinityBits := by
  simpa [isNaN] using h

theorem le_iff_compare :
    x ≤ y ↔ (x.toModel.unpack.compare y.toModel.unpack).any (·.isLE) = true :=
  decide_eq_true_iff (p := x.toModel ≤ y.toModel)

theorem lt_iff_compare : x < y ↔ (x.toModel.unpack.compare y.toModel.unpack == some .lt) = true :=
  decide_eq_true_iff (p := x.toModel < y.toModel)

theorem beq_eq_compare : (x == y) = (x.toModel.unpack.compare y.toModel.unpack == some .eq) := rfl

theorem compare_eq_rank (hx : isNaN x = false) (hy : isNaN y = false) :
    x.toModel.unpack.compare y.toModel.unpack = some (compare (rank x) (rank y)) := by
  rw [unpack_float, unpack_float]
  exact compare_unpacked _ _ (magnitudeBits_le hx) (magnitudeBits_le hy)

theorem le_iff_rank (hx : isNaN x = false) (hy : isNaN y = false) : x ≤ y ↔ rank x ≤ rank y := by
  rw [le_iff_compare, compare_eq_rank hx hy]
  exact Int.isLE_compare

theorem lt_iff_rank (hx : isNaN x = false) (hy : isNaN y = false) : x < y ↔ rank x < rank y := by
  rw [lt_iff_compare, compare_eq_rank hx hy, ← Int.compare_eq_lt]
  simp

theorem beq_iff_rank (hx : isNaN x = false) (hy : isNaN y = false) :
    (x == y) = true ↔ rank x = rank y := by
  rw [beq_eq_compare, compare_eq_rank hx hy, ← Int.compare_eq_eq]
  simp

theorem unpack_of_isNaN (h : isNaN x = true) : x.toModel.unpack = .notANumber := by
  rw [unpack_float, unpacked, if_pos (of_decide_eq_true h)]

theorem compare_of_isNaN (h : isNaN x = true ∨ isNaN y = true) :
    x.toModel.unpack.compare y.toModel.unpack = none := by
  rcases h with h | h
  · rw [unpack_of_isNaN h]
    rfl
  · rw [unpack_of_isNaN h]
    cases x.toModel.unpack <;> rfl

/-- What is not a number is in no order to anything. -/
theorem not_le_of_isNaN (h : isNaN x = true ∨ isNaN y = true) : ¬ x ≤ y := by
  rw [le_iff_compare, compare_of_isNaN h]
  exact Bool.false_ne_true

theorem not_lt_of_isNaN (h : isNaN x = true ∨ isNaN y = true) : ¬ x < y := by
  rw [lt_iff_compare, compare_of_isNaN h]
  exact Bool.false_ne_true

theorem beq_of_isNaN (h : isNaN x = true ∨ isNaN y = true) : (x == y) = false := by
  rw [beq_eq_compare, compare_of_isNaN h]
  rfl

theorem isNaN_of_le (h : x ≤ y) : isNaN x = false ∧ isNaN y = false := by
  rw [← Bool.not_eq_true, ← Bool.not_eq_true]
  exact ⟨fun hx => not_le_of_isNaN (.inl hx) h, fun hy => not_le_of_isNaN (.inr hy) h⟩

theorem isNaN_of_lt (h : x < y) : isNaN x = false ∧ isNaN y = false := by
  rw [← Bool.not_eq_true, ← Bool.not_eq_true]
  exact ⟨fun hx => not_lt_of_isNaN (.inl hx) h, fun hy => not_lt_of_isNaN (.inr hy) h⟩

/-! ## The ends -/

theorem rank_ofMagnitude (negative : Bool) {b : Nat} (h : b ≤ infinityBits) :
    rank (ofMagnitude negative b) = withSign negative b := by
  rw [rank, isNegative_ofMagnitude negative h, magnitudeBits_ofMagnitude negative h]

theorem rank_bounds (h : isNaN x = false) :
    -(infinityBits : Int) ≤ rank x ∧ rank x ≤ infinityBits := by
  have hle := magnitudeBits_le h
  unfold rank
  cases isNegative x with
  | false =>
    rw [withSign_false]
    omega
  | true =>
    rw [withSign_true]
    omega

/-- Only the zeros share a rank. -/
theorem eq_of_rank (h : isNaN x = false) {negative : Bool} {b : Nat} (hb : b ≠ 0)
    (hrank : rank x = withSign negative b) : x = ofMagnitude negative b := by
  rw [← ofMagnitude_magnitudeBits h]
  unfold rank at hrank
  cases hx : isNegative x with
  | false =>
    cases negative with
    | false =>
      rw [hx, withSign_false, withSign_false] at hrank
      rw [Int.ofNat_inj.1 hrank]
    | true =>
      rw [hx, withSign_false, withSign_true] at hrank
      omega
  | true =>
    cases negative with
    | false =>
      rw [hx, withSign_true, withSign_false] at hrank
      omega
    | true =>
      rw [hx, withSign_true, withSign_true] at hrank
      rw [Int.ofNat_inj.1 (Int.neg_inj.1 hrank)]

end Reckoner.Number

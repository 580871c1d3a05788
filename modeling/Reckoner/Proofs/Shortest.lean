import Reckoner.Proofs.Decimals

/-!
# The shortest decimal is read back

Every finite float is read back from its shortest decimal (`bits_shortest`).  The search for one
never fails.  On the grid of seventeen digits one of the two neighbours differs from the float by
at most `5 * 10^-17` of it, which is less than half of the distance to the next float
(`onGrid_seventeen`).  So the digits of a shortest decimal are at most `10^17`
(`digits_shortest_le`).
-/

namespace Reckoner.Number

/-! ## The leading digit -/

/-- A number of units lies in the decade that its leading digit gives. -/
theorem leadingExponent_spec {u : Nat} (h : u ≠ 0) :
    one * tenTo (leadingExponent u).toNat ≤ u * tenTo (-leadingExponent u).toNat ∧
      u * tenTo (-(leadingExponent u + 1)).toNat < one * tenTo (leadingExponent u + 1).toNat := by
  have hone : 0 < one := by decide +kernel
  have hten : tenTo 0 = 1 := rfl
  unfold leadingExponent
  split
  · next hbig =>
    have hcount := digitCount_pos (u / one)
    have hne : u / one ≠ 0 := Nat.ne_of_gt (Nat.div_pos hbig hone)
    have hlow := tenTo_le_of_ne_zero hne
    have hhigh := lt_tenTo_digitCount (u / one)
    rw [Nat.le_div_iff_mul_le hone] at hlow
    rw [Nat.div_lt_iff_lt_mul hone] at hhigh
    have hlead : ((digitCount (u / one) : Int) - 1).toNat = digitCount (u / one) - 1 := by omega
    have hnext : ((digitCount (u / one) : Int) - 1 + 1).toNat = digitCount (u / one) := by omega
    have hzero : (-((digitCount (u / one) : Int) - 1)).toNat = 0 := by omega
    have hzero' : (-((digitCount (u / one) : Int) - 1 + 1)).toNat = 0 := by omega
    rw [hlead, hnext, hzero, hzero', hten, Nat.mul_one, Nat.mul_comm one, Nat.mul_comm one]
    exact ⟨hlow, hhigh⟩
  · next hsmall =>
    have hpos := Nat.pos_of_ne_zero h
    have hne : one / u ≠ 0 := Nat.ne_of_gt (Nat.div_pos (Nat.le_of_not_le hsmall) hpos)
    have hlow := tenTo_le_of_ne_zero hne
    have hhigh := lt_tenTo_digitCount (one / u)
    have hcount := digitCount_pos (one / u)
    rw [Nat.le_div_iff_mul_le hpos] at hlow
    rw [Nat.div_lt_iff_lt_mul hpos] at hhigh
    dsimp only
    generalize digitCount (one / u) = places at *
    obtain ⟨p, rfl⟩ : ∃ p, places = p + 1 := ⟨places - 1, by omega⟩
    rw [Nat.add_sub_cancel] at *
    split
    · next hexact =>
      obtain ⟨q, rfl⟩ : ∃ q, p = q + 1 := by
        refine ⟨p - 1, ?_⟩
        have : p ≠ 0 := by
          rintro rfl
          rw [hten, Nat.mul_one] at hexact
          exact hsmall hexact
        omega
      have hlead : ((1 : Int) - (q + 1 + 1 : Nat)).toNat = 0 := by omega
      have hnext : ((1 : Int) - (q + 1 + 1 : Nat) + 1).toNat = 0 := by omega
      have hplaces : (-((1 : Int) - (q + 1 + 1 : Nat))).toNat = q + 1 := by omega
      have hplaces' : (-((1 : Int) - (q + 1 + 1 : Nat) + 1)).toNat = q := by omega
      rw [hlead, hnext, hplaces, hplaces', hten, Nat.mul_one]
      refine ⟨hexact, ?_⟩
      rw [tenTo_succ, Nat.mul_assoc, Nat.mul_comm _ u] at hlow
      have := Nat.mul_pos hpos (tenTo_pos q)
      omega
    · next hbetween =>
      have hlead : (-((p + 1 : Nat) : Int)).toNat = 0 := by omega
      have hnext : (-((p + 1 : Nat) : Int) + 1).toNat = 0 := by omega
      have hplaces : (- -((p + 1 : Nat) : Int)).toNat = p + 1 := by omega
      have hplaces' : (-(-((p + 1 : Nat) : Int) + 1)).toNat = p := by omega
      rw [hlead, hnext, hplaces, hplaces', hten, Nat.mul_one, Nat.mul_comm u (tenTo (p + 1))]
      exact ⟨Nat.le_of_lt hhigh, Nat.lt_of_not_le hbetween⟩

/-- Powers of ten on both sides of a comparison matter by their difference alone. -/
theorem mul_tenTo_le_iff {x y a b c d : Nat} (h : a + d = b + c) :
    x * tenTo a ≤ y * tenTo b ↔ x * tenTo c ≤ y * tenTo d := by
  have hx : x * tenTo a * tenTo d = x * tenTo c * tenTo b := by
    rw [Nat.mul_assoc, Nat.mul_assoc, ← tenTo_add, ← tenTo_add, h, Nat.add_comm]
  have hy : y * tenTo b * tenTo d = y * tenTo d * tenTo b := Nat.mul_right_comm _ _ _
  rw [← Nat.mul_le_mul_right_iff (tenTo_pos d), hx, hy, Nat.mul_le_mul_right_iff (tenTo_pos b)]

/-! ## The grids -/

/-- The float with the bits `b` in steps of `10^k`, as a ratio: above. -/
def gridAbove (b : Nat) (k : Int) : Nat := unitsOfBits b * tenTo (-k).toNat

/-- The denominator of the ratio. -/
def gridBelow (k : Int) : Nat := one * tenTo k.toNat

theorem gridBelow_pos (k : Int) : 0 < gridBelow k := Nat.mul_pos (by decide +kernel) (tenTo_pos _)

theorem unitsOfBits_ne_zero {b : Nat} (h : b ≠ 0) : unitsOfBits b ≠ 0 := by
  rw [unitsOfBits_eq]
  exact Nat.ne_of_gt (shiftLeft_pos (mantissaOf_pos h) _)

/-- With `p` digits behind the leading one a float is `10^p` steps or more. -/
theorem tenTo_mul_le_grid {b : Nat} (hb : b ≠ 0) (p : Nat) :
    tenTo p * gridBelow (leadingExponent (unitsOfBits b) - p) ≤
      gridAbove b (leadingExponent (unitsOfBits b) - p) := by
  have hlow := (leadingExponent_spec (unitsOfBits_ne_zero hb)).1
  generalize leadingExponent (unitsOfBits b) = lead at *
  rw [gridBelow, gridAbove, Nat.mul_left_comm, ← tenTo_add]
  exact (mul_tenTo_le_iff (by omega)).1 hlow

/-- With `p` digits it is less than `10^p` steps. -/
theorem grid_lt_tenTo_mul {b : Nat} (hb : b ≠ 0) (p : Nat) :
    gridAbove b (leadingExponent (unitsOfBits b) + 1 - p) <
      tenTo p * gridBelow (leadingExponent (unitsOfBits b) + 1 - p) := by
  have hhigh := (leadingExponent_spec (unitsOfBits_ne_zero hb)).2
  generalize leadingExponent (unitsOfBits b) = lead at *
  rw [gridBelow, gridAbove, Nat.mul_left_comm, ← tenTo_add]
  refine Nat.lt_of_not_le fun hle => Nat.not_le.2 hhigh ?_
  exact (mul_tenTo_le_iff (by omega)).1 hle

/-- The ratio of a decimal on the grid is its number of steps, in units. -/
theorem bits_grid (n : Nat) (k : Int) :
    (⟨n, k⟩ : Decimal).bits = bitsOfUnits (n * gridBelow k) (tenTo (-k).toNat) := by
  rw [Decimal.bits_eq, Decimal.above, Decimal.below, gridBelow, Nat.mul_comm one, ← Nat.mul_assoc]

/-- What differs from a float by a half step or less, where the float is `10^16` steps or more,
is read as this float. -/
theorem bits_of_half_step {b n : Nat} {k : Int} (hb : b ≤ infinityBits)
    (hsteps : tenTo 16 * gridBelow k ≤ gridAbove b k)
    (habove : 2 * (n * gridBelow k) ≤ 2 * gridAbove b k + gridBelow k)
    (hbelow : 2 * gridAbove b k ≤ 2 * (n * gridBelow k) + gridBelow k) :
    (⟨n, k⟩ : Decimal).bits = b := by
  have hten : tenTo 16 = 10000000000000000 := rfl
  rw [hten] at hsteps
  rw [bits_grid]
  refine bitsOfUnits_eq_of_close hb (tenTo_pos _) ?_ ?_
  · show _ ≤ 20000000000000001 * gridAbove b k
    omega
  · show 19999999999999999 * gridAbove b k ≤ _
    omega

/-! ## What a grid offers -/

/-- The steps of a float on a grid, rounded down. -/
def steps (b : Nat) (k : Int) : Nat := gridAbove b k / gridBelow k

/-- A grid offers one of the two neighbours of the float. -/
theorem onGrid_eq_some {tie : Tie} {b : Nat} {k : Int} {d : Decimal}
    (h : onGrid tie b k = some d) :
    d.exponent = k ∧ (d.digits = steps b k ∨ d.digits = steps b k + 1) := by
  simp only [onGrid] at h
  split at h
  · split at h
    · split at h
      · cases h
        exact ⟨rfl, .inl rfl⟩
      · split at h
        · cases h
          exact ⟨rfl, .inr rfl⟩
        · split at h
          · cases h
            exact ⟨rfl, .inl rfl⟩
          · cases h
            exact ⟨rfl, .inr rfl⟩
    · cases h
      exact ⟨rfl, .inl rfl⟩
  · split at h
    · cases h
      exact ⟨rfl, .inr rfl⟩
    · cases h

/-- A grid that offers nothing has no neighbour that reads back. -/
theorem onGrid_eq_none {tie : Tie} {b : Nat} {k : Int} (h : onGrid tie b k = none) :
    (⟨steps b k, k⟩ : Decimal).bits ≠ b ∧ (⟨steps b k + 1, k⟩ : Decimal).bits ≠ b := by
  simp only [onGrid] at h
  split at h
  · split at h
    · split at h
      · cases h
      · split at h
        · cases h
        · split at h <;> cases h
    · cases h
  · next hbelow =>
    split at h
    · cases h
    · next habove => exact ⟨hbelow, habove⟩

/-- On the grid of seventeen digits one of the neighbours is read back. -/
theorem onGrid_seventeen (tie : Tie) {b : Nat} (hb : b ≠ 0) (hle : b ≤ infinityBits) :
    onGrid tie b (leadingExponent (unitsOfBits b) - 16) ≠ none := by
  intro h
  obtain ⟨hbelow, habove⟩ := onGrid_eq_none h
  have hsteps : tenTo 16 * gridBelow (leadingExponent (unitsOfBits b) - 16) ≤
      gridAbove b (leadingExponent (unitsOfBits b) - 16) := tenTo_mul_le_grid hb 16
  generalize leadingExponent (unitsOfBits b) - 16 = k at *
  have hdiv : steps b k * gridBelow k + gridAbove b k % gridBelow k = gridAbove b k :=
    Nat.div_add_mod' _ _
  have hmod := Nat.mod_lt (gridAbove b k) (gridBelow_pos k)
  have hnext : (steps b k + 1) * gridBelow k = steps b k * gridBelow k + gridBelow k :=
    Nat.succ_mul _ _
  by_cases hhalf : 2 * (gridAbove b k % gridBelow k) ≤ gridBelow k
  · exact hbelow (bits_of_half_step hle hsteps (by omega) (by omega))
  · exact habove (bits_of_half_step hle hsteps (by omega) (by omega))

/-! ## The shortest decimal -/

/-- The shortest decimal is what one of the grids offers. -/
theorem exists_onGrid_shortest (tie : Tie) {b : Nat} (hb : b ≠ 0) (hle : b ≤ infinityBits) :
    ∃ places : Nat, places ≤ 17 ∧
      onGrid tie b (leadingExponent (unitsOfBits b) + 1 - places) = some (shortest tie b) := by
  have hfound : ((List.range 18).findSome? fun (places : Nat) =>
      onGrid tie b (leadingExponent (unitsOfBits b) + 1 - places)) ≠ none := by
    intro hnone
    have h := List.findSome?_eq_none_iff.1 hnone 17 (List.mem_range.2 (by decide))
    have hk : leadingExponent (unitsOfBits b) + 1 - ((17 : Nat) : Int) =
        leadingExponent (unitsOfBits b) - 16 := by omega
    rw [hk] at h
    exact onGrid_seventeen tie hb hle h
  obtain ⟨d, hd⟩ := Option.ne_none_iff_exists'.1 hfound
  obtain ⟨places, hplaces, hgrid⟩ := List.exists_of_findSome?_eq_some hd
  refine ⟨places, by have := List.mem_range.1 hplaces; omega, ?_⟩
  rw [shortest, if_neg hb]
  dsimp only
  rw [hd]
  exact hgrid

/-- A float is read back from its shortest decimal. -/
theorem bits_shortest (tie : Tie) {b : Nat} (h : b ≤ infinityBits) : (shortest tie b).bits = b := by
  by_cases hb : b = 0
  · subst hb
    rfl
  · obtain ⟨places, -, hgrid⟩ := exists_onGrid_shortest tie hb h
    exact bits_onGrid hgrid

/-- The digits of a shortest decimal stay small. -/
theorem digits_shortest_le (tie : Tie) {b : Nat} (h : b ≤ infinityBits) :
    (shortest tie b).digits ≤ tenTo 17 := by
  by_cases hb : b = 0
  · subst hb
    exact Nat.zero_le _
  · obtain ⟨places, hplaces, hgrid⟩ := exists_onGrid_shortest tie hb h
    have hlt := grid_lt_tenTo_mul hb places
    have hmono := tenTo_mono hplaces
    obtain ⟨-, hdigits⟩ := onGrid_eq_some hgrid
    rw [← Nat.div_lt_iff_lt_mul (gridBelow_pos _)] at hlt
    rw [steps] at hdigits
    omega

end Reckoner.Number

/-!
# Floats as whole numbers of units

Every finite float is a whole number of units of `2^-1074`, the least positive float, with a
sign.  Below `2^53` units every whole number is a float.  Above, the floats keep 53 binary
digits, and the distance between two of them doubles with every power of two.

The bits of a float, without the sign, count the floats from zero upwards.  So the float nearest
to a ratio of units is found in two steps: the position of its leading digit gives the distance
between the floats there, and the quotient by that distance is rounded to the nearest whole
number, a half to the even one.  A carry into the next power of two needs no care, since
counting goes on across it.

`bitsOfUnits_mul_right` says the result depends on the ratio alone.
-/

namespace Reckoner.Number

/-! ## Reading the bits -/

/-- The number of floats from one power of two to the next, `2^52`. -/
def octave : Nat := 0x10000000000000

/-- The weight of the sign bit, `2^63`. -/
def signBit : Nat := 0x8000000000000000

/-- The bits of a float without its sign. -/
def magnitudeBits (x : Float) : Nat := x.toBits.toNat % signBit

/-- Whether the sign bit is set.  Negative zero is negative. -/
def isNegative (x : Float) : Bool := signBit ≤ x.toBits.toNat

/-- The bits of infinity.  Smaller bits are finite, and larger ones are not a number. -/
def infinityBits : Nat := 0x7FF * octave

/-- Whether a float is not a number. -/
def isNaN (x : Float) : Bool := infinityBits < magnitudeBits x

/-- Whether a float is one of the two infinities. -/
def isInfinite (x : Float) : Bool := magnitudeBits x = infinityBits

/-- Whether a float is neither an infinity nor not a number. -/
def isFinite (x : Float) : Bool := magnitudeBits x < infinityBits

/-- The number of units of the finite float with the bits `b`. -/
def unitsOfBits (b : Nat) : Nat :=
  if b < octave then b else (octave + b % octave) <<< (b / octave - 1)

/-- The magnitude of a finite float in units. -/
def units (x : Float) : Nat := unitsOfBits (magnitudeBits x)

/-- The number of units in one. -/
def one : Nat := 1 <<< 1074

/-! ## Rounding to a float -/

/-- The float with the given sign and magnitude bits. -/
def ofMagnitude (negative : Bool) (b : Nat) : Float :=
  Float.ofBits (UInt64.ofNat (if negative then signBit + b else b))

/-- The whole number nearest to `num / den`, a half going to the even one. -/
def roundEven (num den : Nat) : Nat :=
  if 2 * (num % den) < den ∨ 2 * (num % den) = den ∧ num / den % 2 = 0 then num / den
  else num / den + 1

/-- The bits of the float nearest to `num / den` units, a half going to the even one. -/
def bitsOfUnits (num den : Nat) : Nat :=
  let shift := (num / den).log2 - 52
  min infinityBits (shift * octave + roundEven num (den <<< shift))

/-- The float nearest to `num / den`, with the given sign. -/
def ofRatio (negative : Bool) (num den : Nat) : Float :=
  ofMagnitude negative (bitsOfUnits (num * one) den)

/-- The float nearest to an integer. -/
def ofInteger (n : Int) : Float := ofRatio (n < 0) n.natAbs 1

/-- The quotient and the distance from it do not change under a common factor. -/
theorem roundEven_mul_right (num den k : Nat) (hk : 0 < k) :
    roundEven (num * k) (den * k) = roundEven num den := by
  have hlt : 2 * (num % den * k) < den * k ↔ 2 * (num % den) < den := by
    rw [← Nat.mul_assoc]
    exact Nat.mul_lt_mul_right hk
  have heq : 2 * (num % den * k) = den * k ↔ 2 * (num % den) = den := by
    rw [← Nat.mul_assoc]
    exact Nat.mul_left_inj (Nat.ne_of_gt hk)
  simp only [roundEven, Nat.mul_div_mul_right _ _ hk, Nat.mul_mod_mul_right, hlt, heq]

/-- The float nearest to a ratio depends on the ratio alone. -/
theorem bitsOfUnits_mul_right (num den k : Nat) (hk : 0 < k) :
    bitsOfUnits (num * k) (den * k) = bitsOfUnits num den := by
  simp only [bitsOfUnits, Nat.mul_div_mul_right _ _ hk, Nat.shiftLeft_eq,
    Nat.mul_right_comm den k, roundEven_mul_right _ _ _ hk]

theorem bitsOfUnits_le (num den : Nat) : bitsOfUnits num den ≤ infinityBits :=
  Nat.min_le_left _ _

example : bitsOfUnits one 10 = (0.1 : Float).toBits.toNat := by decide +kernel

example : unitsOfBits (0.5 : Float).toBits.toNat * 2 = one := by decide +kernel

end Reckoner.Number

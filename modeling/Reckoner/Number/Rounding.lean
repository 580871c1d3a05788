import Reckoner.Number.Units

/-!
# Rounding a float to a whole number, and the remainder

These are exact: a float is a whole number of units, so its whole part and the remainder of a
division are found on whole numbers.  A float that is whole already, an infinity, or not a
number, is its own whole part, and the result keeps the sign of the argument, also at zero.
-/

namespace Reckoner.Number

/-- The rounding that takes the magnitude `u` units to the whole number `whole u`. -/
def roundWith (whole : Nat → Nat) (x : Float) : Float :=
  if isFinite x ∧ units x % one ≠ 0 then ofRatio (isNegative x) (whole (units x)) 1 else x

/-- The whole part of `u` units. -/
def wholeBelow (u : Nat) : Nat := u / one

/-- The next whole number from `u` units on, which are not whole. -/
def wholeAbove (u : Nat) : Nat := u / one + 1

/-- The whole number nearest to `u` units, a half going up. -/
def wholeNearest (u : Nat) : Nat := (2 * u + one) / (2 * one)

/-- The greatest whole number not above `x`. -/
def floor (x : Float) : Float := roundWith (if isNegative x then wholeAbove else wholeBelow) x

/-- The least whole number not below `x`. -/
def ceiling (x : Float) : Float := roundWith (if isNegative x then wholeBelow else wholeAbove) x

/-- The whole number nearest to `x`, a half going away from zero. -/
def roundAway (x : Float) : Float := roundWith wholeNearest x

/-- What is left of `x` after taking `y` away as often as possible, with the sign of `x`. -/
def remainder (x y : Float) : Float :=
  if isNaN x || isNaN y || isInfinite x || units y = 0 then Float.ofBits 0x7FF8000000000000
  else if isInfinite y then x
  else ofMagnitude (isNegative x) (bitsOfUnits (units x % units y) 1)

example : floor (-2.5) = -3 ∧ ceiling (-2.5) = -2 ∧ roundAway (-2.5) = -3 := by decide +kernel

example : (ceiling (-0.3)).toBits = (-0.0 : Float).toBits := by decide +kernel

example : remainder (-7.5) 2 = -1.5 ∧ remainder 0.3 0.1 = 0.09999999999999998 := by decide +kernel

end Reckoner.Number
